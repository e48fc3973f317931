import Ravl.Sgx.SignedText

/-!
# The QE's SVN (sgx_impl.h:820-886)

The SVN of a QE report takes part in two decisions of `verify_qe_id`: it selects
a TCB level of the QE identity, and unless historical attestations are accepted
it is compared with the level's SVN again, where the same number is too small.
A larger SVN may reach a level further up, and fail there.
-/

namespace Ravl.Sgx
open ByteLib FallibleLib JsonText

/-! ### The levels of a QE identity -/

/-- What every round of the loop reads, whatever the report. -/
structure QeEntry where
  isvSvn : ℕ
  tcbDate : Json
  status : Bytes

section
variable (host : Host)

def readQeEntry (level : Json) : Result QeEntry := do
  let tcb ← indexConst level (text "tcb")
  let isvSvn ← getUint host.doubles 16 (← index tcb (text "isvsvn"))
  let tcbDate ← indexConst level (text "tcbDate")
  let status ← getString (← indexConst level (text "tcbStatus"))
  pure ⟨isvSvn, tcbDate, status⟩

/-- The levels of the document, where they can be read. -/
def qeEntries (identity : Json) : Result (List QeEntry) := do
  let levels ← index identity (text "tcbLevels")
  (items levels).mapM (readQeEntry host)

/-- The decision of a round. -/
def keepEntry (isvSvn : ℕ) (found : QeLevel) (e : QeEntry) : Result QeLevel :=
  if found.status = [] ∧ e.isvSvn ≤ isvSvn then do
    let date ← getString e.tcbDate
    pure ⟨e.status, date, e.isvSvn⟩
  else pure found

def keepEntries (isvSvn : ℕ) : List QeEntry → QeLevel → Result QeLevel
  | [], found => pure found
  | e :: es, found => do
    let found ← keepEntry isvSvn found e
    keepEntries isvSvn es found

theorem qeLevel_eq (report : ReportBody) (found : QeLevel) (level : Json) :
    qeLevel host report found level =
      (readQeEntry host level >>= fun e => keepEntry report.isvSvn found e) := by
  simp only [qeLevel, readQeEntry, keepEntry, bind_assoc, pure_bind]

theorem qeLevelsLoop_ok (report : ReportBody) (js : List Json) (found result : QeLevel) :
    qeLevelsLoop host report js found = .ok result ↔
      ∃ es, js.mapM (readQeEntry host) = .ok es ∧
        keepEntries report.isvSvn es found = .ok result := by
  induction js generalizing found with
  | nil =>
    constructor
    · intro h
      exact ⟨[], rfl, h⟩
    · intro h
      obtain ⟨es, hes, h⟩ := h
      obtain rfl := (pure_ok _ _).mp hes
      exact h
  | cons j js ih =>
    simp only [qeLevelsLoop, qeLevel_eq, List.mapM_cons, bind_ok, pure_ok, ih]
    constructor
    · intro h
      obtain ⟨next, ⟨e, he, hkeep⟩, es, hes, h⟩ := h
      exact ⟨e :: es, ⟨e, he, es, hes, rfl⟩, (bind_ok _ _ _).mpr ⟨next, hkeep, h⟩⟩
    · intro h
      obtain ⟨_, ⟨e, he, es, hes, rfl⟩, h⟩ := h
      obtain ⟨next, hkeep, h⟩ := (bind_ok _ _ _).mp h
      exact ⟨next, ⟨e, he, hkeep⟩, es, hes, h⟩

end

/-! ### The level selected -/

/-- A report with this SVN reaches the level, and the level has a status. -/
def QeEntry.Serves (isvSvn : ℕ) (e : QeEntry) : Prop := e.isvSvn ≤ isvSvn ∧ e.status ≠ []

/-- The date of a level that is reached is taken as a string. -/
def QeEntry.Dated (isvSvn : ℕ) (e : QeEntry) : Prop :=
  e.isvSvn ≤ isvSvn → ∃ date, e.tcbDate = .string date

/-- `e` is the first level that serves, and the loop gets there. -/
def Selected (isvSvn : ℕ) (es : List QeEntry) (e : QeEntry) : Prop :=
  ∃ before after, es = before ++ e :: after ∧ e.Serves isvSvn ∧ e.Dated isvSvn ∧
    ∀ b ∈ before, ¬ b.Serves isvSvn ∧ b.Dated isvSvn

theorem keepEntries_kept (n : ℕ) (es : List QeEntry) (found : QeLevel) (h : found.status ≠ []) :
    keepEntries n es found = .ok found := by
  induction es with
  | nil => rfl
  | cons e es ih =>
    rw [keepEntries, keepEntry, if_neg fun hc => h hc.1]
    exact ih

theorem keepEntry_reached (n : ℕ) (found next : QeLevel) (e : QeEntry) (hfound : found.status = [])
    (hreached : e.isvSvn ≤ n) : keepEntry n found e = .ok next ↔
      ∃ date, e.tcbDate = .string date ∧ next = ⟨e.status, date, e.isvSvn⟩ := by
  rw [keepEntry, if_pos ⟨hfound, hreached⟩]
  simp only [bind_ok, pure_ok]
  constructor
  · intro h
    obtain ⟨date, hdate, rfl⟩ := h
    cases hd : e.tcbDate with
    | string s =>
      rw [hd] at hdate
      obtain rfl := (pure_ok _ _).mp hdate
      exact ⟨s, rfl, rfl⟩
    | _ =>
      rw [hd] at hdate
      cases hdate
  · intro h
    obtain ⟨date, hdate, rfl⟩ := h
    rw [hdate]
    exact ⟨date, rfl, rfl⟩

theorem keepEntry_above (n : ℕ) (found : QeLevel) (e : QeEntry) (h : ¬ e.isvSvn ≤ n) :
    keepEntry n found e = .ok found := if_neg fun hc => h hc.2

theorem selected_cons (n : ℕ) (x e : QeEntry) (es : List QeEntry) :
    Selected n (x :: es) e ↔
      (e = x ∧ x.Serves n ∧ x.Dated n) ∨ (¬ x.Serves n ∧ x.Dated n ∧ Selected n es e) := by
  constructor
  · intro h
    obtain ⟨before, after, hes, hserves, hdated, hbefore⟩ := h
    cases before with
    | nil =>
      obtain ⟨rfl, rfl⟩ := List.cons.inj hes
      exact Or.inl ⟨rfl, hserves, hdated⟩
    | cons b before =>
      obtain ⟨rfl, rfl⟩ := List.cons.inj hes
      obtain ⟨⟨hno, hb⟩, hrest⟩ := List.forall_mem_cons.mp hbefore
      exact Or.inr ⟨hno, hb, before, after, rfl, hserves, hdated, hrest⟩
  · intro h
    rcases h with ⟨rfl, hserves, hdated⟩ | ⟨hno, hx, before, after, rfl, hserves, hdated, hbefore⟩
    · exact ⟨[], es, rfl, hserves, hdated, fun b hb => absurd hb List.not_mem_nil⟩
    · exact ⟨x :: before, after, rfl, hserves, hdated, List.forall_mem_cons.mpr ⟨⟨hno, hx⟩, hbefore⟩⟩

/-- As long as nothing is remembered, the loop finds the level that is selected. -/
theorem keepEntries_selected (n : ℕ) (es : List QeEntry) (found : QeLevel) (isvSvn : ℕ)
    (hfound : found.status = []) :
    (∃ result, keepEntries n es found = .ok result ∧ result.status ≠ [] ∧
      result.isvSvn = isvSvn) ↔ ∃ e, Selected n es e ∧ e.isvSvn = isvSvn := by
  induction es generalizing found with
  | nil =>
    constructor
    · intro h
      obtain ⟨result, hrun, hstatus, -⟩ := h
      obtain rfl := (pure_ok _ _).mp hrun
      exact absurd hfound hstatus
    · intro h
      obtain ⟨e, ⟨before, after, hes, -⟩, -⟩ := h
      exact absurd hes.symm (by simp)
  | cons x es ih =>
    simp only [keepEntries, bind_ok, selected_cons]
    by_cases hreached : x.isvSvn ≤ n
    · simp only [keepEntry_reached n found _ x hfound hreached]
      have hdated : x.Dated n ↔ ∃ date, x.tcbDate = .string date :=
        ⟨fun h => h hreached, fun h _ => h⟩
      by_cases hstatus : x.status = []
      · have hno : ¬ x.Serves n := fun h => h.2 hstatus
        constructor
        · intro h
          obtain ⟨result, ⟨next, ⟨date, hdate, rfl⟩, hrun⟩, hresult⟩ := h
          obtain ⟨e, he, hsvn⟩ := (ih _ hstatus).mp ⟨result, hrun, hresult⟩
          exact ⟨e, Or.inr ⟨hno, hdated.mpr ⟨date, hdate⟩, he⟩, hsvn⟩
        · intro h
          obtain ⟨e, ⟨-, hserves, -⟩ | ⟨-, hx, he⟩, hsvn⟩ := h
          · exact absurd hserves hno
          · obtain ⟨date, hdate⟩ := hdated.mp hx
            obtain ⟨result, hrun, hresult⟩ :=
              (ih ⟨x.status, date, x.isvSvn⟩ hstatus).mpr ⟨e, he, hsvn⟩
            exact ⟨result, ⟨_, ⟨date, hdate, rfl⟩, hrun⟩, hresult⟩
      · have hyes : x.Serves n := ⟨hreached, hstatus⟩
        constructor
        · intro h
          obtain ⟨result, ⟨next, ⟨date, hdate, rfl⟩, hrun⟩, -, hsvn⟩ := h
          rw [keepEntries_kept n es _ hstatus] at hrun
          obtain rfl := (pure_ok _ _).mp hrun
          exact ⟨x, Or.inl ⟨rfl, hyes, hdated.mpr ⟨date, hdate⟩⟩, hsvn⟩
        · intro h
          obtain ⟨e, ⟨rfl, -, hx⟩ | ⟨hno, -⟩, hsvn⟩ := h
          · obtain ⟨date, hdate⟩ := hdated.mp hx
            exact ⟨_, ⟨_, ⟨date, hdate, rfl⟩, keepEntries_kept n es _ hstatus⟩, hstatus, hsvn⟩
          · exact absurd hyes hno
    · have hno : ¬ x.Serves n := fun h => hreached h.1
      have hdated : x.Dated n := fun h => absurd h hreached
      simp only [keepEntry_above n found x hreached, Except.ok.injEq, exists_eq_left', hno, hdated,
        not_false_eq_true, true_and, false_and, and_false, false_or]
      exact ih found hfound

/-! ### `verify_qe_id` -/

/-- Where a level that is selected makes the comparison pass. -/
def SelectedBelow (isvSvn : ℕ) (es : List QeEntry) : Prop :=
  ∃ e, Selected isvSvn es e ∧ e.isvSvn < isvSvn

section
variable {X509 Crl Pkey : Type} (ssl : OpenSsl X509 Crl Pkey) (host : Host)

def ReportBody.withIsvSvn (report : ReportBody) (isvSvn : ℕ) : ReportBody :=
  { report with isvSvn := isvSvn }

theorem keepEntries_below (n : ℕ) (es : List QeEntry) :
    (∃ found, keepEntries n es {} = .ok found ∧ found.status ≠ [] ∧ ¬ n ≤ found.isvSvn) ↔
      SelectedBelow n es := by
  constructor
  · intro h
    obtain ⟨found, hrun, hstatus, hbelow⟩ := h
    obtain ⟨e, he, hsvn⟩ := (keepEntries_selected n es {} found.isvSvn rfl).mp
      ⟨found, hrun, hstatus, rfl⟩
    exact ⟨e, he, by omega⟩
  · intro h
    obtain ⟨e, he, hbelow⟩ := h
    obtain ⟨found, hrun, hstatus, hsvn⟩ :=
      (keepEntries_selected n es {} e.isvSvn rfl).mpr ⟨e, he, rfl⟩
    exact ⟨found, hrun, hstatus, by omega⟩

theorem checkQeIdentity_other (report : ReportBody) (n : ℕ) (options : Options) (identity : Json)
    (hfresh : options.historical = false)
    (h : checkQeIdentity host report options identity = .ok ()) :
    checkQeIdentity host (report.withIsvSvn n) options identity = .ok () ↔
      ∃ es, qeEntries host identity = .ok es ∧ SelectedBelow n es := by
  have hattributes : checkAttributes (report.withIsvSvn n) identity =
      checkAttributes report identity := rfl
  have hbelow (es : List QeEntry) := keepEntries_below n es
  simp only [checkQeIdentity, hattributes, qeEntries, bind_ok, refuse_ok, qeLevelsLoop_ok] at h ⊢
  obtain ⟨jv, hjv, version, hversion, u1, htwo, jid, hjid, eid, heid, u2, hqe, -, -, -, -, -, -,
    jissue, hjissue, issue, hissue, u3, hdate, jnext, hjnext, nextUpdate, hnext, u4, hdate',
    jsigner, hjsigner, signer, hsigner, mrsigner, hmrsigner, u5, hsame, jprod, hjprod, prod, hprod,
    u6, hprodId, -, -, htail⟩ := h
  constructor
  · intro h
    obtain ⟨-, -, -, -, -, -, -, -, -, -, -, -, levels, hlevels, found, ⟨es, hes, hrun⟩, -, hstatus,
      -, -, -, -, -, -, -, -, -, -, -, -, -, -, -, -, -, -, -, -, -, -, -, -, -, -, -, hsvn, -⟩ := h
    exact ⟨es, ⟨levels, hlevels, hes⟩,
      (hbelow es).mp ⟨found, hrun, hstatus, fun hle => hsvn ⟨hfresh, hle⟩⟩⟩
  · intro h
    obtain ⟨es, ⟨levels, hlevels, hes⟩, hselected⟩ := h
    obtain ⟨found, hrun, hstatus, hsvn⟩ := (hbelow es).mpr hselected
    exact ⟨jv, hjv, version, hversion, u1, htwo, jid, hjid, eid, heid, u2, hqe, levels, hlevels,
      found, ⟨es, hes, hrun⟩, (), hstatus, jissue, hjissue, issue, hissue, u3, hdate, jnext, hjnext,
      nextUpdate, hnext, u4, hdate', jsigner, hjsigner, signer, hsigner, mrsigner, hmrsigner, u5,
      hsame, jprod, hjprod, prod, hprod, u6, hprodId, (), fun hc => hsvn hc.2, htail⟩

/-- The levels of the document, where they can be read. -/
def documentEntries (qeIdentity : Bytes) : Result (List QeEntry) := do
  let col ← jsonParse host.doubles qeIdentity
  let identity ← index col (text "enclaveIdentity")
  qeEntries host identity

theorem readQeIdentity_other (qeIdentity : Bytes) (report : ReportBody) (n : ℕ) (options : Options)
    (signature : Bytes) (hfresh : options.historical = false)
    (h : readQeIdentity host qeIdentity report options = .ok signature) (signature' : Bytes) :
    readQeIdentity host qeIdentity (report.withIsvSvn n) options = .ok signature' ↔
      signature' = signature ∧
        ∃ es, documentEntries host qeIdentity = .ok es ∧ SelectedBelow n es := by
  simp only [readQeIdentity, documentEntries, bind_ok] at h ⊢
  obtain ⟨col, hcol, identity, hidentity, u, hcheck, jsig, hjsig, sig, hsig, hhex⟩ := h
  have hother := checkQeIdentity_other host report n options identity hfresh hcheck
  constructor
  · intro h
    obtain ⟨col', hcol', identity', hidentity', u', hcheck', jsig', hjsig', sig', hsig', hhex'⟩ := h
    obtain rfl := Except.ok.inj (hcol.symm.trans hcol')
    obtain rfl := Except.ok.inj (hidentity.symm.trans hidentity')
    obtain rfl := Except.ok.inj (hjsig.symm.trans hjsig')
    obtain rfl := Except.ok.inj (hsig.symm.trans hsig')
    obtain rfl := Except.ok.inj (hhex.symm.trans hhex')
    obtain ⟨es, hes, hselected⟩ := hother.mp hcheck'
    exact ⟨rfl, es, ⟨col, hcol, identity, hidentity, hes⟩, hselected⟩
  · intro h
    obtain ⟨rfl, es, ⟨col', hcol', identity', hidentity', hes⟩, hselected⟩ := h
    obtain rfl := Except.ok.inj (hcol.symm.trans hcol')
    obtain rfl := Except.ok.inj (hidentity.symm.trans hidentity')
    exact ⟨col, hcol, identity, hidentity, (), hother.mpr ⟨es, hes, hselected⟩, jsig, hjsig, sig,
      hsig, hhex⟩

/-- Of two reports that differ in the SVN, where one is accepted: the other is accepted exactly
where the level it selects lies below it. -/
theorem verifyQeId_other (chain qeIdentity : Bytes) (report : ReportBody) (n : ℕ)
    (store : Store X509 Crl) (options : Options) (hfresh : options.historical = false)
    (h : verifyQeId ssl host chain qeIdentity report store options = .ok true) :
    verifyQeId ssl host chain qeIdentity (report.withIsvSvn n) store options = .ok true ↔
      ∃ es, documentEntries host qeIdentity = .ok es ∧ SelectedBelow n es := by
  simp only [verifyQeId, verifyQeIdRange, bind_ok, rethrow_ok, orThrow_ok, refuse_ok, pure_ok,
    Prod.exists] at h ⊢
  obtain ⟨start, stop, ⟨certs, rest, hchain, leaf, hleaf, root, hroot, pkey, hpkey, u, hkey, signature,
    hread, l, r, hrange, ok, hverify, u', hok, hres⟩, -⟩ := h
  have hother := readQeIdentity_other host qeIdentity report n options signature hfresh hread
  constructor
  · intro h
    obtain ⟨_, _, ⟨_, _, -, _, -, _, -, _, -, _, -, signature', hread', -⟩, -⟩ := h
    exact ((hother signature').mp hread').2
  · intro h
    exact ⟨start, stop, ⟨certs, rest, hchain, leaf, hleaf, root, hroot, pkey, hpkey, u, hkey,
      signature, (hother signature).mpr ⟨rfl, h⟩, l, r, hrange, ok, hverify, u', hok, hres⟩, trivial⟩

end

/-! ### Two levels -/

/-- The levels 5 and 3, in this order. -/
def twoLevelQeIdentity : Bytes :=
  openBrace :: qePre ++
  pieces ["\x7b\"version\":2,", "\"id\":\"QE\",", "\"tcbLevels\":[", "\x7b\"tcb\":", "\x7b\"isvsvn\":5\x7d,",
    "\"tcbDate\":\"\",", "\"tcbStatus\":", "\"UpToDate\"\x7d,", "\x7b\"tcb\":", "\x7b\"isvsvn\":3\x7d,",
    "\"tcbDate\":\"\",", "\"tcbStatus\":", "\"OutOfDate\"\x7d],"] ++ pieces sampleDates ++
  text "\"mrsigner\":\"" ++ List.replicate 64 (byte '0') ++
  pieces ["\",\"isvprodid\":0,", "\"miscselectMask\":", "\"00000000\",", "\"miscselect\":", "\"00000000\","] ++
  text "\"attributes\":\"" ++ List.replicate 32 (byte '0') ++
  text "\",\"attributesMask\":\"" ++ List.replicate 32 (byte '0') ++ text "\"\x7d" ++ sampleSignature

theorem twoLevelQeIdentity_four : verifyQeId OpenSsl.lenient plainHost sampleChain twoLevelQeIdentity
    (zeroReport.withIsvSvn 4) {} {} = .ok true := by decide +kernel

theorem twoLevelQeIdentity_other :
    verifyQeId OpenSsl.lenient plainHost sampleChain twoLevelQeIdentity
        ((zeroReport.withIsvSvn 4).withIsvSvn 6) {} {} = .ok true ↔
      ∃ es, documentEntries plainHost twoLevelQeIdentity = .ok es ∧ SelectedBelow 6 es :=
  verifyQeId_other OpenSsl.lenient plainHost sampleChain twoLevelQeIdentity
    (zeroReport.withIsvSvn 4) 6 {} {} rfl twoLevelQeIdentity_four

theorem twoLevelQeIdentity_five :
    verifyQeId OpenSsl.lenient plainHost sampleChain twoLevelQeIdentity
        (zeroReport.withIsvSvn 4) {} {} = .ok true ∧
      verifyQeId OpenSsl.lenient plainHost sampleChain twoLevelQeIdentity
          (zeroReport.withIsvSvn 5) {} {} =
        .error (.exception "incorrectly formatted SGX QE ID: QE isv svn too small") :=
  ⟨twoLevelQeIdentity_four, by decide +kernel⟩

end Ravl.Sgx
