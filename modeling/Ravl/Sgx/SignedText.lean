import Ravl.Sgx.TcbJson

/-!
# What is signed and what is checked

The fields of a TCB info or a QE identity are those of the last top-level member
of the name; the signed text is what stands between the first occurrence of one
pattern and the last occurrence of another. The two agree exactly for documents
of a certain layout.
-/

namespace Ravl.Sgx
open ByteLib FallibleLib SearchLib JsonText

/-- The range is the text of the top-level member of that name that counts, and it was this
member's value that was checked. -/
def SignedIsChecked (host : Host) (key s : Bytes) (checked : Json → Prop) (range : ℕ × ℕ) : Prop :=
  range.1 ≤ range.2 ∧ ∃ m, counted key (members host.doubles.isFinite s) = some m ∧
    checked m.value ∧ range = (m.start s, m.stop s)

/-- Directly behind the value stands `post`, for the last time. -/
def EndsLast (post s : Bytes) (m : Member) : Prop :=
  post <+: m.rest ∧ ∀ j, m.stop s < j → ¬ At post s j

/-- Directly before the value stands `pre`, for the first time. -/
def BeginsFirst (pre s : Bytes) (m : Member) : Prop :=
  ∃ u, s = u ++ pre ++ m.atValue ∧ ∀ j < u.length, ¬ At pre s j

/-- The document opens with `pre` and the value that counts, which `post` follows for the
last time. -/
def CompactLayout (host : Host) (key pre post s : Bytes) : Prop :=
  ∃ m, counted key (members host.doubles.isFinite s) = some m ∧
    (∃ blank, Opening blank ∧ s = blank ++ pre ++ m.atValue) ∧ EndsLast post s m

/-- The value that counts stands between the first `pre` and the last `post`. -/
def EnclosedLayout (host : Host) (key pre post s : Bytes) : Prop :=
  ∃ m, counted key (members host.doubles.isFinite s) = some m ∧
    BeginsFirst pre s m ∧ EndsLast post s m

/-! ### The range -/

theorem signedRange_eq (pre post s : Bytes) (range : ℕ × ℕ)
    (h : signedRange pre post s = some range) :
    ∃ l r, find pre s = some l ∧ rfind post s = some r ∧ range = (l + pre.length, r) := by
  simp only [signedRange, Option.bind_eq_bind, Option.bind_eq_some_iff, Option.some.injEq] at h
  obtain ⟨l, hl, r, hr, he⟩ := h
  exact ⟨l, r, hl, hr, he.symm⟩

theorem range_is_value (isFinite : Bytes → Bool) (pre post s : Bytes) (range : ℕ × ℕ) (m : Member)
    (hm : m ∈ members isFinite s) (h : signedRange pre post s = some range) :
    range = (m.start s, m.stop s) ↔ BeginsFirst pre s m ∧ EndsLast post s m := by
  obtain ⟨l, r, hl, hr, rfl⟩ := signedRange_eq pre post s range h
  obtain ⟨hrest, hvalue⟩ := members_suffixes isFinite s m hm
  have hbegin := find_before_suffix pre s m.atValue l hvalue hl
  have hend := rfind_at_suffix post s m.rest r (hrest.trans hvalue) hr
  rw [Prod.mk.injEq]
  exact and_congr hbegin hend

theorem start_le_stop (isFinite : Bytes → Bool) (s : Bytes) (m : Member)
    (hm : m ∈ members isFinite s) : m.start s ≤ m.stop s := by
  have hlen := (members_suffixes isFinite s m hm).1.length_le
  unfold Member.start Member.stop
  omega

/-- An opening brace can stand first before the value only at the document's beginning. -/
theorem beginsFirst_iff_opens (isFinite : Bytes → Bool) (key s : Bytes) (m : Member)
    (hm : m ∈ members isFinite s) (hkey : quote ∉ key) :
    BeginsFirst (openBrace :: quote :: key ++ [quote, colon]) s m ↔
      ∃ blank, Opening blank ∧ s = blank ++ (openBrace :: quote :: key ++ [quote, colon]) ++ m.atValue := by
  constructor
  · intro ⟨u, hu, _⟩
    exact ⟨u, opens_with isFinite s key u m hm hkey hu, hu⟩
  · intro ⟨u, hopen, hu⟩
    refine ⟨u, hu, fun j hj hat => ?_⟩
    obtain ⟨t, ht⟩ := hat.2
    have hbrace : s[j]? = some openBrace := by
      have hhead : (s.drop j)[0]? = some openBrace := by
        rw [← ht]
        rfl
      rwa [List.getElem?_drop, Nat.add_zero] at hhead
    rw [hu, List.append_assoc, List.getElem?_append_left hj] at hbrace
    exact Opening.no_brace u hopen (List.mem_of_getElem? hbrace)

/-! ### The fields -/

theorem counted_of_index (host : Host) (s key : Bytes) (col v : Json)
    (hp : jsonParse host.doubles s = .ok col) (hi : index col key = .ok v) (hv : v ≠ .null) :
    ∃ m, counted key (members host.doubles.isFinite s) = some m ∧ m.value = v := by
  rw [jsonParse, orThrow_ok] at hp
  cases col with
  | object o =>
    have hlook := lookup_objectOf key _ o (parse_object _ s o hp)
    simp only [index, pure_ok] at hi
    cases hc : counted key (members host.doubles.isFinite s) with
    | none =>
      rw [hlook, hc] at hi
      exact absurd hi.symm hv
    | some m =>
      rw [hlook, hc] at hi
      exact ⟨m, rfl, hi⟩
  | null =>
    simp only [index, pure_ok] at hi
    exact absurd hi.symm hv
  | bool b => simp [index, throw_ok] at hi
  | unsigned n => simp [index, throw_ok] at hi
  | integer i => simp [index, throw_ok] at hi
  | float l => simp [index, throw_ok] at hi
  | string t => simp [index, throw_ok] at hi
  | array xs => simp [index, throw_ok] at hi

section
variable {X509 Crl Pkey : Type} (ssl : OpenSsl X509 Crl Pkey) (host : Host)

theorem checkTcbInfo_null (pckExt : CertificateExtension) (level : TCBLevel) :
    checkTcbInfo host pckExt .null ≠ .ok level := by
  intro h
  simp only [checkTcbInfo, findKey] at h
  cases h

theorem checkQeIdentity_null (report : ReportBody) (options : Options) :
    checkQeIdentity host report options .null ≠ .ok () := by
  intro h
  simp only [checkQeIdentity, index] at h
  cases h

theorem readTcbJson_checks (tcbInfo signature : Bytes) (pckExt : CertificateExtension)
    (level : TCBLevel) (h : readTcbJson host tcbInfo pckExt = .ok (level, signature)) :
    ∃ m, counted (text "tcbInfo") (members host.doubles.isFinite tcbInfo) = some m ∧
      checkTcbInfo host pckExt m.value = .ok level := by
  simp only [readTcbJson, bind_ok, pure_ok, Prod.mk.injEq] at h
  obtain ⟨col, hparse, tcbinfo, hindex, platform, hcheck, -, -, -, -, -, -, rfl, -⟩ := h
  have hne : tcbinfo ≠ .null := by
    intro heq
    subst heq
    exact checkTcbInfo_null host pckExt _ hcheck
  obtain ⟨m, hm, rfl⟩ := counted_of_index host tcbInfo _ col tcbinfo hparse hindex hne
  exact ⟨m, hm, hcheck⟩

theorem readQeIdentity_checks (qeIdentity signature : Bytes) (report : ReportBody)
    (options : Options) (h : readQeIdentity host qeIdentity report options = .ok signature) :
    ∃ m, counted (text "enclaveIdentity") (members host.doubles.isFinite qeIdentity) = some m ∧
      checkQeIdentity host report options m.value = .ok () := by
  simp only [readQeIdentity, bind_ok] at h
  obtain ⟨col, hparse, identity, hindex, u, hcheck, -⟩ := h
  have hne : identity ≠ .null := by
    intro heq
    subst heq
    exact checkQeIdentity_null host report options hcheck
  obtain ⟨m, hm, rfl⟩ := counted_of_index host qeIdentity _ col identity hparse hindex hne
  exact ⟨m, hm, hcheck⟩

theorem verifyTcbJsonRange_ok (tcbInfo : Bytes) (pckExt : CertificateExtension) (pkey : Pkey)
    (level : TCBLevel) (range : ℕ × ℕ)
    (h : verifyTcbJsonRange ssl host tcbInfo pckExt pkey = .ok (level, range)) :
    signedRange tcbPre tcbPost tcbInfo = some range ∧
      ∃ signature, readTcbJson host tcbInfo pckExt = .ok (level, signature) ∧
        verifySignature ssl pkey (spanBytes host tcbInfo range.1 range.2) signature = .ok true := by
  simp only [verifyTcbJsonRange, bind_ok, rethrow_ok, orThrow_ok, refuse_ok, pure_ok,
    Prod.mk.injEq] at h
  obtain ⟨⟨platform, signature⟩, hread, ⟨start, stop⟩, hrange, ok, hsig, -, hok, rfl, rfl⟩ := h
  rw [Bool.not_eq_false] at hok
  rw [hok] at hsig
  exact ⟨hrange, signature, hread, hsig⟩

theorem verifyQeIdRange_ok (chain qeIdentity : Bytes) (report : ReportBody)
    (store : Store X509 Crl) (options : Options) (range : ℕ × ℕ)
    (h : verifyQeIdRange ssl host chain qeIdentity report store options = .ok range) :
    signedRange qePre qePost qeIdentity = some range ∧
      ∃ signature, readQeIdentity host qeIdentity report options = .ok signature := by
  simp only [verifyQeIdRange, bind_ok, rethrow_ok, orThrow_ok, refuse_ok, pure_ok] at h
  obtain ⟨_, -, leaf, -, root, -, pkey, -, _, -, signature, hread, range', hrange, ok, -, -, -, rfl⟩ := h
  exact ⟨hrange, signature, hread⟩

theorem signedIsChecked_iff (key pre post s : Bytes) (checked : Json → Prop) (range : ℕ × ℕ)
    (hrange : signedRange pre post s = some range)
    (hchecked : ∃ m, counted key (members host.doubles.isFinite s) = some m ∧ checked m.value) :
    SignedIsChecked host key s checked range ↔ EnclosedLayout host key pre post s := by
  obtain ⟨m, hm, hval⟩ := hchecked
  have hmem := (counted_mem key _ m hm).1
  have hplace := range_is_value host.doubles.isFinite pre post s range m hmem hrange
  constructor
  · intro ⟨_, m', hm', _, heq⟩
    rw [hm, Option.some.injEq] at hm'
    subst hm'
    exact ⟨m, hm, hplace.1 heq⟩
  · intro ⟨m', hm', hlay⟩
    rw [hm, Option.some.injEq] at hm'
    subst hm'
    have heq := hplace.2 hlay
    refine ⟨?_, m, hm, hval, heq⟩
    rw [heq]
    exact start_le_stop host.doubles.isFinite s m hmem

theorem enclosed_iff_compact (s : Bytes) :
    EnclosedLayout host (text "tcbInfo") tcbPre tcbPost s ↔
      CompactLayout host (text "tcbInfo") tcbPre tcbPost s := by
  have hpre : tcbPre = openBrace :: quote :: text "tcbInfo" ++ [quote, colon] := by decide
  have hkey : quote ∉ text "tcbInfo" := by decide
  unfold EnclosedLayout CompactLayout
  apply exists_congr
  intro m
  apply and_congr_right
  intro hm
  have hmem := (counted_mem _ _ m hm).1
  rw [hpre, beginsFirst_iff_opens host.doubles.isFinite (text "tcbInfo") s m hmem hkey]

/-- When `verify_tcb_json` or `verify_qe_id` accepts a document, the text whose signature was
verified is the text of the value that was checked exactly for documents of these layouts. -/
theorem signed_text_is_checked_text (tcbInfo qeIdentity chain : Bytes)
    (pckExt : CertificateExtension) (pkey : Pkey) (report : ReportBody)
    (store : Store X509 Crl) (options : Options) :
    (∀ level range, verifyTcbJsonRange ssl host tcbInfo pckExt pkey = .ok (level, range) →
      (SignedIsChecked host (text "tcbInfo") tcbInfo
          (fun v => checkTcbInfo host pckExt v = .ok level) range ↔
        CompactLayout host (text "tcbInfo") tcbPre tcbPost tcbInfo)) ∧
    (∀ range, verifyQeIdRange ssl host chain qeIdentity report store options = .ok range →
      (SignedIsChecked host (text "enclaveIdentity") qeIdentity
          (fun v => checkQeIdentity host report options v = .ok ()) range ↔
        EnclosedLayout host (text "enclaveIdentity") qePre qePost qeIdentity)) := by
  constructor
  · intro level range h
    obtain ⟨hrange, signature, hread, -⟩ := verifyTcbJsonRange_ok ssl host _ _ _ _ _ h
    rw [signedIsChecked_iff host _ _ _ _ _ _ hrange (readTcbJson_checks host _ _ _ _ hread)]
    exact enclosed_iff_compact host tcbInfo
  · intro range h
    obtain ⟨hrange, signature, hread⟩ := verifyQeIdRange_ok ssl host _ _ _ _ _ _ h
    exact signedIsChecked_iff host _ _ _ _ _ _ hrange (readQeIdentity_checks host _ _ _ _ hread)

end

/-! ### Two documents -/

def zeroReport : ReportBody :=
  ⟨[], 0, [], 0, 0, [], List.replicate 32 0, [], 0, 0, 0, [], []⟩

def pieces (ss : List String) : Bytes := ss.flatMap text

def sampleDates : List String :=
  ["\"issueDate\":", "\"2018-01-01T00:00:00Z\",", "\"nextUpdate\":", "\"2018-01-01T00:00:00Z\","]

def sampleTcbValue : Bytes :=
  pieces ["\x7b\"version\":2,"] ++ pieces sampleDates ++
  pieces ["\"fmspc\":\"\",", "\"pceId\":\"\",", "\"tcbType\":0,", "\"tcbLevels\":[", "\x7b\"tcbDate\":\"\",",
    "\"tcbStatus\":", "\"UpToDate\",", "\"tcb\":\x7b"] ++
  (List.range 16).flatMap (fun i => quote :: svnName i ++ text "\":0,") ++
  text "\"pcesvn\":0\x7d\x7d]\x7d"

def sampleQeValue : Bytes :=
  pieces ["\x7b\"version\":2,", "\"id\":\"QE\",", "\"tcbLevels\":[", "\x7b\"tcb\":", "\x7b\"isvsvn\":0\x7d,",
    "\"tcbDate\":\"\",", "\"tcbStatus\":", "\"UpToDate\"\x7d],"] ++ pieces sampleDates ++
  text "\"mrsigner\":\"" ++ List.replicate 64 (byte '0') ++
  pieces ["\",\"isvprodid\":0,", "\"miscselectMask\":", "\"00000000\",", "\"miscselect\":", "\"00000000\","] ++
  text "\"attributes\":\"" ++ List.replicate 32 (byte '0') ++
  text "\",\"attributesMask\":\"" ++ List.replicate 32 (byte '0') ++ text "\"\x7d"

def sampleSignature : Bytes := text ",\"signature\":\"\"\x7d"

/-- As Intel sends them: no white space, the value first, the signature last. -/
def compactTcbInfo : Bytes := tcbPre ++ sampleTcbValue ++ sampleSignature
def compactQeIdentity : Bytes := openBrace :: qePre ++ sampleQeValue ++ sampleSignature

/-- A signed document inside another member, and a value of the attacker's behind it, whose
own signature member is written with a blank. -/
def nestedTcbInfo : Bytes :=
  pieces ["\x7b\"x\":\x7b\"tcbInfo\":", "\x7b\x7d,\"signature\":", "\"\"\x7d,\"tcbInfo\":"] ++ sampleTcbValue ++
    text ", \"signature\":\"\"\x7d"

theorem compactTcbInfo_accepted : (verifyTcbJsonRange OpenSsl.lenient plainHost compactTcbInfo
    zeroExtension []).toOption.map (·.2) = some (11, 520) := by decide +kernel

theorem compactQeIdentity_accepted : verifyQeIdRange OpenSsl.lenient plainHost sampleChain
    compactQeIdentity zeroReport {} { historical := true } = .ok (19, 428) := by decide +kernel

theorem nestedTcbInfo_accepted : (verifyTcbJsonRange OpenSsl.lenient plainHost nestedTcbInfo
    zeroExtension []).toOption.map (·.2) = some (16, 18) := by decide +kernel

theorem nestedTcbInfo_value : (counted (text "tcbInfo") (members plainHost.doubles.isFinite
    nestedTcbInfo)).map (fun m => (m.start nestedTcbInfo, m.stop nestedTcbInfo)) = some (45, 554) := by
  decide +kernel

theorem signed_text_is_checked_text_compact :
    (∃ level, SignedIsChecked plainHost (text "tcbInfo") compactTcbInfo
        (fun v => checkTcbInfo plainHost zeroExtension v = .ok level) (11, 520) ↔
      CompactLayout plainHost (text "tcbInfo") tcbPre tcbPost compactTcbInfo) ∧
    (SignedIsChecked plainHost (text "enclaveIdentity") compactQeIdentity
        (fun v => checkQeIdentity plainHost zeroReport { historical := true } v = .ok ()) (19, 428) ↔
      EnclosedLayout plainHost (text "enclaveIdentity") qePre qePost compactQeIdentity) := by
  obtain ⟨⟨level, _⟩, hlevel, rfl⟩ := ok_of_map compactTcbInfo_accepted
  have h := signed_text_is_checked_text OpenSsl.lenient plainHost compactTcbInfo compactQeIdentity
    sampleChain zeroExtension [] zeroReport {} { historical := true }
  exact ⟨⟨level, h.1 level (11, 520) hlevel⟩, h.2 (19, 428) compactQeIdentity_accepted⟩

/-- The nested document is accepted, and the verified text is that of the inner value. -/
theorem signed_text_differs :
    ¬ ∀ (host : Host) (tcbInfo : Bytes) (pckExt : CertificateExtension) (pkey : Bytes)
        (level : TCBLevel) (range : ℕ × ℕ),
      verifyTcbJsonRange OpenSsl.lenient host tcbInfo pckExt pkey = .ok (level, range) →
        SignedIsChecked host (text "tcbInfo") tcbInfo
          (fun v => checkTcbInfo host pckExt v = .ok level) range := by
  intro h
  obtain ⟨⟨level, _⟩, hlevel, rfl⟩ := ok_of_map nestedTcbInfo_accepted
  obtain ⟨-, m, hm, -, hrange⟩ := h plainHost nestedTcbInfo zeroExtension [] level (16, 18) hlevel
  have hvalue := nestedTcbInfo_value
  rw [hm, Option.map_some, ← hrange] at hvalue
  revert hvalue
  decide

end Ravl.Sgx
