import Ravl.Sgx.SignedText

/-!
# The choice of a TCB level (sgx_impl.h:622-704)

Which level the TCB info itself says is the platform's: the first one with a
status whose SVNs the platform reaches. The loop of `verify_tcb_json` visits all
levels and remembers one by its status; it finds the same level.
-/

namespace Ravl.Sgx
open ByteLib FallibleLib JsonText

/-! ### What the document says -/

/-- A number that fits an unsigned type of so many bits. -/
def fitting (bits : ℕ) : Json → Option ℕ
  | .unsigned n => if n < 2 ^ bits then some n else none
  | .integer i => if 0 ≤ i ∧ i < 2 ^ bits then some i.toNat else none
  | _ => none

def levelSvn (bits : ℕ) (level : Json) (key : Bytes) : Option ℕ :=
  ((findKey level (text "tcb")).bind (findKey · key)).bind (fitting bits)

def levelString (level : Json) (key : Bytes) : Option Bytes :=
  match findKey level key with
  | some (.string s) => some s
  | _ => none

def tcbLevels (col : Json) : List Json :=
  ((findKey col (text "tcbInfo")).bind (findKey · (text "tcbLevels"))).elim [] items

def CarriesSvns (level : Json) : Prop :=
  (∀ i, i < 16 → (levelSvn 8 level (svnName i)).isSome) ∧
    (levelSvn 16 level (text "pcesvn")).isSome

instance (level : Json) : Decidable (CarriesSvns level) := inferInstanceAs (Decidable (_ ∧ _))

/-- The level has a status, and the platform reaches each of its SVNs. -/
def isCandidate (pckExt : CertificateExtension) (level : Json) : Bool :=
  ((List.range 16).all fun i =>
    (levelSvn 8 level (svnName i)).any (· ≤ (pckExt.tcb.compSvn[i]?).elim 0 Fin.val)) &&
  (levelSvn 16 level (text "pcesvn")).any (· ≤ pckExt.tcb.pceSvn) &&
  (levelString level (text "tcbStatus")).any (· ≠ [])

/-- A level as it is in the document. -/
structure Describes (j : Json) (level : TCBLevel) : Prop where
  compSvn_size : level.compSvn.length = 16
  compSvn : ∀ i, i < 16 → levelSvn 8 j (svnName i) = level.compSvn[i]?.map Fin.val
  pceSvn : levelSvn 16 j (text "pcesvn") = some level.pceSvn
  status : levelString j (text "tcbStatus") = some level.status
  date : levelString j (text "tcbDate") = some level.date

/-! ### Reading a level -/

section
variable (host : Host)

theorem fitting_lt (bits n : ℕ) (j : Json) (h : fitting bits j = some n) : n < 2 ^ bits := by
  cases j with
  | unsigned k =>
    simp only [fitting, Option.ite_none_right_eq_some, Option.some.injEq] at h
    omega
  | integer i =>
    simp only [fitting, Option.ite_none_right_eq_some, Option.some.injEq] at h
    have hlt : i < ((2 ^ bits : ℕ) : ℤ) := by
      have := h.1.2
      push_cast
      exact this
    omega
  | _ => cases h

theorem getUint_fitting (bits n m : ℕ) (j : Json) (hfit : fitting bits j = some n)
    (hget : getUint host.doubles bits j = .ok m) : m = n := by
  cases j with
  | unsigned k =>
    simp only [fitting, Option.ite_none_right_eq_some, Option.some.injEq] at hfit
    obtain ⟨hlt, rfl⟩ := hfit
    have hm := (pure_ok _ _).mp hget
    rw [← hm, Nat.mod_eq_of_lt hlt]
  | integer i =>
    simp only [fitting, Option.ite_none_right_eq_some, Option.some.injEq] at hfit
    obtain ⟨⟨hpos, hlt⟩, rfl⟩ := hfit
    have hm := (pure_ok _ _).mp hget
    rw [← hm, Int.emod_eq_of_lt hpos hlt]
  | _ => cases hfit

theorem indexConst_ok (j v : Json) (key : Bytes) (h : indexConst j key = .ok v) :
    findKey j key = some v := by
  cases j with
  | object o => exact (orThrow_ok _ _ _).mp h
  | _ => cases h

theorem getString_ok (j : Json) (s : Bytes) (h : getString j = .ok s) : j = .string s := by
  cases j with
  | string t =>
    obtain rfl := (pure_ok _ _).mp h
    rfl
  | _ => cases h

theorem levelString_of_read (j v : Json) (key s : Bytes) (hv : indexConst j key = .ok v)
    (hs : getString v = .ok s) : levelString j key = some s := by
  rw [levelString, indexConst_ok _ _ _ hv, getString_ok _ _ hs]

theorem levelCompSvns_read (level tcb : Json) (n i : ℕ) (svns : Bytes)
    (htcb : findKey level (text "tcb") = some tcb)
    (hcarries : ∀ k, k < n → (levelSvn 8 level (svnName (i + k))).isSome)
    (h : levelCompSvns host tcb n i = .ok svns) :
    svns.length = n ∧ ∀ k, k < n → levelSvn 8 level (svnName (i + k)) = svns[k]?.map Fin.val := by
  induction n generalizing i svns with
  | zero =>
    obtain rfl := (pure_ok _ _).mp h
    exact ⟨rfl, fun k hk => absurd hk (Nat.not_lt_zero k)⟩
  | succ n ih =>
    simp only [levelCompSvns, bind_ok, pure_ok] at h
    obtain ⟨v, hv, svn, hsvn, rest, hrest, rfl⟩ := h
    have hnext : ∀ k, i + 1 + k = i + (k + 1) := fun k => by omega
    obtain ⟨hlen, htail⟩ := ih (i + 1) rest (fun k hk => by
      rw [hnext]
      exact hcarries (k + 1) (by omega)) hrest
    refine ⟨congrArg (· + 1) hlen, ?_⟩
    intro k hk
    cases k with
    | zero =>
      obtain ⟨m, hm⟩ := Option.isSome_iff_exists.mp (hcarries 0 (by omega))
      have hfit := hm
      rw [levelSvn, htcb, Option.bind_some, Nat.add_zero, indexConst_ok _ _ _ hv,
        Option.bind_some] at hfit
      obtain rfl := getUint_fitting host 8 m svn v hfit hsvn
      have hlt : svn < 256 := fitting_lt 8 svn v hfit
      rw [hm]
      show some svn = some (svn % 256)
      rw [Nat.mod_eq_of_lt hlt]
    | succ k =>
      rw [← hnext]
      exact htail k (by omega)

theorem readLevel_describes (j : Json) (level : TCBLevel) (hcarries : CarriesSvns j)
    (h : readLevel host j = .ok level) : Describes j level := by
  simp only [readLevel, bind_ok, pure_ok] at h
  obtain ⟨vd, hvd, date, hdate, vs, hvs, status, hstatus, tcb, htcb, svns, hsvns, vp, hvp, pce, hpce,
    rfl⟩ := h
  have htcb := indexConst_ok _ _ _ htcb
  obtain ⟨hlen, hcomp⟩ := levelCompSvns_read host j tcb 16 0 svns htcb (fun k hk => by
    rw [Nat.zero_add]
    exact hcarries.1 k hk) hsvns
  obtain ⟨m, hm⟩ := Option.isSome_iff_exists.mp hcarries.2
  have hfit := hm
  rw [levelSvn, htcb, Option.bind_some, indexConst_ok _ _ _ hvp, Option.bind_some] at hfit
  obtain rfl := getUint_fitting host 16 m pce vp hfit hpce
  exact {
    compSvn_size := hlen
    compSvn := fun i hi => by
      have hi := hcomp i hi
      rwa [Nat.zero_add] at hi
    pceSvn := hm
    status := levelString_of_read _ _ _ _ hvs hstatus
    date := levelString_of_read _ _ _ _ hvd hdate }

end

theorem Describes.isCandidate_eq {j : Json} {level : TCBLevel} (h : Describes j level)
    (pckExt : CertificateExtension) :
    isCandidate pckExt j = (levelIsGood pckExt level && decide (level.status ≠ [])) := by
  have hsize := pckExt.tcb.compSvn_size
  have hcomp : ((List.range 16).all fun i =>
      (levelSvn 8 j (svnName i)).any (· ≤ (pckExt.tcb.compSvn[i]?).elim 0 Fin.val)) =
      (pckExt.tcb.compSvn.zip level.compSvn).all fun pl => pl.2 ≤ pl.1 := by
    rw [Bool.eq_iff_iff, List.all_eq_true, List.all_eq_true]
    constructor
    · intro hall pl hmem
      obtain ⟨i, hi, rfl⟩ := List.mem_iff_getElem.mp hmem
      rw [List.length_zip, hsize, h.compSvn_size] at hi
      have hp : i < pckExt.tcb.compSvn.length := by omega
      have hl : i < level.compSvn.length := by rw [h.compSvn_size]; omega
      have hle := hall i (List.mem_range.mpr (by omega))
      rw [h.compSvn i (by omega), List.getElem?_eq_getElem hl, List.getElem?_eq_getElem hp] at hle
      rw [List.getElem_zip]
      exact hle
    · intro hall i hi
      have hi := List.mem_range.mp hi
      have hp : i < pckExt.tcb.compSvn.length := by omega
      have hl : i < level.compSvn.length := by rw [h.compSvn_size]; omega
      rw [h.compSvn i hi, List.getElem?_eq_getElem hl, List.getElem?_eq_getElem hp]
      refine hall (pckExt.tcb.compSvn[i], level.compSvn[i]) (List.mem_iff_getElem.mpr ⟨i, ?_, ?_⟩)
      · rw [List.length_zip]
        omega
      · rw [List.getElem_zip]
  rw [isCandidate, hcomp, h.pceSvn, h.status]
  rfl

/-! ### The loop -/

section
variable (host : Host) (pckExt : CertificateExtension)

theorem tcbLevelsLoop_kept (js : List Json) (platform result : TCBLevel)
    (hstatus : platform.status ≠ []) (h : tcbLevelsLoop host pckExt js platform = .ok result) :
    result = platform := by
  induction js with
  | nil => exact ((pure_ok _ _).mp h).symm
  | cons j js ih =>
    simp only [tcbLevelsLoop, bind_ok] at h
    obtain ⟨level, -, h⟩ := h
    rw [chooseLevel, if_neg fun hc => hstatus hc.1] at h
    exact ih h

/-- As long as nothing is remembered, what is found is the first candidate, if there is one. -/
theorem tcbLevelsLoop_first (js : List Json) (platform result : TCBLevel)
    (hcarries : ∀ j ∈ js, CarriesSvns j) (hstatus : platform.status = [])
    (h : tcbLevelsLoop host pckExt js platform = .ok result) :
    match js.find? (isCandidate pckExt) with
    | none => result.status = []
    | some j => result.status ≠ [] ∧ Describes j result := by
  induction js generalizing platform with
  | nil =>
    obtain rfl := (pure_ok _ _).mp h
    exact hstatus
  | cons j js ih =>
    simp only [tcbLevelsLoop, bind_ok] at h
    obtain ⟨level, hlevel, h⟩ := h
    obtain ⟨hj, hjs⟩ := List.forall_mem_cons.mp hcarries
    have hdescribes := readLevel_describes host j level hj hlevel
    have hcandidate := hdescribes.isCandidate_eq pckExt
    by_cases hfound : levelIsGood pckExt level = true ∧ level.status ≠ []
    · have hyes : isCandidate pckExt j = true := by
        rw [hcandidate, hfound.1, Bool.true_and]
        exact decide_eq_true hfound.2
      rw [chooseLevel, if_pos ⟨hstatus, hfound.1⟩] at h
      obtain rfl := tcbLevelsLoop_kept host pckExt js level result hfound.2 h
      rw [List.find?_cons_of_pos hyes]
      exact ⟨hfound.2, hdescribes⟩
    · have hno : ¬ isCandidate pckExt j = true := by
        rw [hcandidate, Bool.and_eq_true, decide_eq_true_iff]
        exact hfound
      rw [List.find?_cons_of_neg hno]
      -- a level with an empty status may be remembered, and then the next one replaces it
      refine ih _ hjs ?_ h
      unfold chooseLevel
      split
      next hgood => exact Decidable.byContradiction fun hne => hfound ⟨hgood.2, hne⟩
      next => exact hstatus

end

/-! ### `verify_tcb_json` -/

section
variable {X509 Crl Pkey : Type} (ssl : OpenSsl X509 Crl Pkey) (host : Host)

/-- The checks made of the value of `tcbInfo` before its levels are read. -/
def checkTcbHeader (pckExt : CertificateExtension) (tcbinfo : Json) : Result Unit := do
  match findKey tcbinfo (text "version") with
  | none => throw (.exception "unsupported tcbInfo version")
  | some v =>
    let version ← getUint host.doubles 32 v
    refuse (version ≠ 2) (.exception "unsupported tcbInfo version")
  let id ← getString (← index tcbinfo (text "issueDate"))
  checkDatetime id "TCB issue date"
  let nu ← getString (← index tcbinfo (text "nextUpdate"))
  checkDatetime nu "TCB next update"
  let fmspcOk ← jsonVectorEq tcbinfo (text "fmspc") pckExt.fmspc
  refuse (fmspcOk = false) (.exception "fmspc mismatch")
  let pceidOk ← jsonVectorEq tcbinfo (text "pceId") pckExt.pceid
  refuse (pceidOk = false) (.exception "pceid mismatch")
  let tcbType ← getNumber host.doubles 64 (← index tcbinfo (text "tcbType"))
  refuse (tcbType ≠ 0) (.exception "tcbType not supported")

theorem checkTcbInfo_eq (pckExt : CertificateExtension) (tcbinfo : Json) :
    checkTcbInfo host pckExt tcbinfo = (do
      checkTcbHeader host pckExt tcbinfo
      let levels ← index tcbinfo (text "tcbLevels")
      let platform ← tcbLevelsLoop host pckExt (items levels) {}
      refuse (platform.status = []) (.exception "no matching TCB level found")
      pure platform) := by
  unfold checkTcbInfo checkTcbHeader
  cases findKey tcbinfo (text "version") with
  | none => simp only [throw_bind]
  | some v => simp only [bind_assoc]

theorem index_ok (j v : Json) (key : Bytes) (h : index j key = .ok v) :
    v = (findKey j key).getD .null := by
  cases j with
  | null => exact ((pure_ok _ _).mp h).symm
  | object o => exact ((pure_ok _ _).mp h).symm
  | _ => cases h

theorem index_of_findKey (j v : Json) (key other : Bytes) (h : findKey j key = some v) :
    ∃ w, index j other = .ok w := by
  cases j with
  | object o => exact ⟨_, rfl⟩
  | _ => cases h

theorem indexConst_of_findKey (j v : Json) (key : Bytes) (h : findKey j key = some v) :
    indexConst j key = .ok v := by
  cases j with
  | object o => exact (orThrow_ok _ _ _).mpr h
  | _ => cases h

theorem items_tcbLevels (col tcbinfo levels : Json)
    (htcbinfo : index col (text "tcbInfo") = .ok tcbinfo)
    (hlevels : index tcbinfo (text "tcbLevels") = .ok levels) : items levels = tcbLevels col := by
  rw [index_ok _ _ _ hlevels, index_ok _ _ _ htcbinfo, tcbLevels]
  cases findKey col (text "tcbInfo") with
  | none => rfl
  | some info =>
    rw [Option.getD_some, Option.bind_some]
    cases findKey info (text "tcbLevels") with
    | none => rfl
    | some ls => rfl

/-! A level whose fields are all there is read. -/

theorem getUint_of_fitting (bits n : ℕ) (j : Json) (h : fitting bits j = some n) :
    ∃ m, getUint host.doubles bits j = .ok m := by
  cases j with
  | unsigned k => exact ⟨_, rfl⟩
  | integer i => exact ⟨_, rfl⟩
  | _ => cases h

theorem levelSvn_read (bits : ℕ) (level tcb : Json) (key : Bytes)
    (htcb : findKey level (text "tcb") = some tcb) (h : (levelSvn bits level key).isSome) :
    ∃ v m, indexConst tcb key = .ok v ∧ getUint host.doubles bits v = .ok m := by
  obtain ⟨n, hn⟩ := Option.isSome_iff_exists.mp h
  rw [levelSvn, htcb, Option.bind_some, Option.bind_eq_some_iff] at hn
  obtain ⟨v, hv, hfit⟩ := hn
  obtain ⟨m, hm⟩ := getUint_of_fitting host bits n v hfit
  exact ⟨v, m, indexConst_of_findKey _ _ _ hv, hm⟩

theorem levelCompSvns_total (level tcb : Json) (n i : ℕ)
    (htcb : findKey level (text "tcb") = some tcb)
    (hcarries : ∀ k, k < n → (levelSvn 8 level (svnName (i + k))).isSome) :
    ∃ svns, levelCompSvns host tcb n i = .ok svns := by
  induction n generalizing i with
  | zero => exact ⟨[], rfl⟩
  | succ n ih =>
    obtain ⟨v, m, hv, hm⟩ := levelSvn_read host 8 level tcb (svnName i) htcb (hcarries 0 (by omega))
    obtain ⟨svns, hsvns⟩ := ih (i + 1) fun k hk => by
      have hnext : i + 1 + k = i + (k + 1) := by omega
      rw [hnext]
      exact hcarries (k + 1) (by omega)
    refine ⟨Fin.ofNat 256 m :: svns, ?_⟩
    simp only [levelCompSvns, hv, hm, hsvns, ok_bind]
    rfl

theorem levelString_read (level : Json) (key : Bytes) (h : (levelString level key).isSome) :
    ∃ s, indexConst level key = .ok (.string s) := by
  obtain ⟨s, hs⟩ := Option.isSome_iff_exists.mp h
  unfold levelString at hs
  split at hs
  next t hfind => exact ⟨t, indexConst_of_findKey _ _ _ hfind⟩
  next => cases hs

theorem readLevel_total (level : Json) (hcarries : CarriesSvns level)
    (hdate : (levelString level (text "tcbDate")).isSome)
    (hstatus : (levelString level (text "tcbStatus")).isSome) :
    ∃ l, readLevel host level = .ok l := by
  obtain ⟨date, hdate⟩ := levelString_read level _ hdate
  obtain ⟨status, hstatus⟩ := levelString_read level _ hstatus
  obtain ⟨n, hn⟩ := Option.isSome_iff_exists.mp hcarries.2
  obtain ⟨tcb, htcb, -⟩ := Option.bind_eq_some_iff.mp (Option.bind_eq_some_iff.mp hn).choose_spec.1
  obtain ⟨svns, hsvns⟩ := levelCompSvns_total host level tcb 16 0 htcb fun k hk => by
    rw [Nat.zero_add]
    exact hcarries.1 k hk
  obtain ⟨v, pce, hv, hpce⟩ := levelSvn_read host 16 level tcb (text "pcesvn") htcb hcarries.2
  refine ⟨⟨svns, pce, status, date, []⟩, ?_⟩
  simp only [readLevel, hdate, hstatus, indexConst_of_findKey _ _ _ htcb, hsvns, hv, hpce, ok_bind]
  rfl

theorem tcbLevelsLoop_total (pckExt : CertificateExtension) (js : List Json) (platform : TCBLevel)
    (h : ∀ j ∈ js, ∃ l, readLevel host j = .ok l) :
    ∃ result, tcbLevelsLoop host pckExt js platform = .ok result := by
  induction js generalizing platform with
  | nil => exact ⟨platform, rfl⟩
  | cons j js ih =>
    obtain ⟨⟨l, hl⟩, hjs⟩ := List.forall_mem_cons.mp h
    obtain ⟨result, hresult⟩ := ih (chooseLevel pckExt platform l) hjs
    refine ⟨result, ?_⟩
    rw [tcbLevelsLoop, hl, ok_bind, hresult]

/-- Every check but the choice of a level passes for the document. -/
structure OtherChecks (tcbInfo : Bytes) (pckExt : CertificateExtension) (signerPubkey : Pkey)
    (col : Json) : Prop where
  parsed : jsonParse host.doubles tcbInfo = .ok col
  header : ∃ tcbinfo, index col (text "tcbInfo") = .ok tcbinfo ∧
    checkTcbHeader host pckExt tcbinfo = .ok ()
  strings : ∀ j ∈ tcbLevels col, (levelString j (text "tcbDate")).isSome ∧
    (levelString j (text "tcbStatus")).isSome
  signed : ∃ sig signature start stop, index col (text "signature") = .ok (.string sig) ∧
    fromHex sig = .ok signature ∧ signedRange tcbPre tcbPost tcbInfo = some (start, stop) ∧
    verifySignature ssl signerPubkey (spanBytes host tcbInfo start stop) signature = .ok true

def noMatchingLevel : Error :=
  .exception "incorrectly formatted SGX TCB: no matching TCB level found"

theorem checkTcbHeader_version (pckExt : CertificateExtension) (tcbinfo : Json)
    (h : checkTcbHeader host pckExt tcbinfo = .ok ()) :
    ∃ v, findKey tcbinfo (text "version") = some v := by
  unfold checkTcbHeader at h
  split at h
  next => cases h
  next v hv => exact ⟨v, hv⟩

theorem OtherChecks.choice {ssl : OpenSsl X509 Crl Pkey} {host : Host} {tcbInfo : Bytes}
    {pckExt : CertificateExtension} {signerPubkey : Pkey} {col : Json}
    (h : OtherChecks ssl host tcbInfo pckExt signerPubkey col)
    (hcarries : ∀ j ∈ tcbLevels col, CarriesSvns j) :
    ∃ platform, tcbLevelsLoop host pckExt (tcbLevels col) {} = .ok platform ∧
      verifyTcbJson ssl host tcbInfo pckExt signerPubkey =
        if platform.status = [] then .error noMatchingLevel else .ok platform := by
  obtain ⟨tcbinfo, hinfo, hheader⟩ := h.header
  obtain ⟨v, hv⟩ := checkTcbHeader_version host pckExt tcbinfo hheader
  obtain ⟨levels, hlevels⟩ := index_of_findKey tcbinfo v _ (text "tcbLevels") hv
  obtain ⟨sig, signature, start, stop, hsig, hhex, hrange, hverify⟩ := h.signed
  obtain ⟨platform, hplatform⟩ := tcbLevelsLoop_total host pckExt (tcbLevels col) {} fun j hj =>
    readLevel_total host j (hcarries j hj) (h.strings j hj).1 (h.strings j hj).2
  refine ⟨platform, hplatform, ?_⟩
  rw [← items_tcbLevels col tcbinfo levels hinfo hlevels] at hplatform
  have hcheck : checkTcbInfo host pckExt tcbinfo = (do
      refuse (platform.status = []) (.exception "no matching TCB level found")
      pure platform) := by
    simp only [checkTcbInfo_eq, hheader, hlevels, hplatform, ok_bind]
  by_cases hempty : platform.status = []
  · rw [if_pos hempty]
    simp only [verifyTcbJson, verifyTcbJsonRange, readTcbJson, h.parsed, hinfo, hcheck, hempty,
      ok_bind]
    rfl
  · rw [if_neg hempty]
    have hread : readTcbJson host tcbInfo pckExt = .ok (platform, signature) := by
      simp only [readTcbJson, h.parsed, hinfo, hcheck, refuse_of_not hempty, hsig, ok_bind]
      show (fromHex sig >>= fun signature => pure (platform, signature)) = _
      rw [hhex, ok_bind]
      rfl
    have hrethrow : rethrow (Error.prefixed "incorrectly formatted SGX TCB: ")
        (readTcbJson host tcbInfo pckExt) = .ok (platform, signature) :=
      (rethrow_ok _ _ _).mpr hread
    have hrange' := (orThrow_ok _ (Error.exception "tcbInfo does not contain signature") _).mpr hrange
    simp only [verifyTcbJson, verifyTcbJsonRange, hrethrow, hrange', hverify, ok_bind]
    rfl

/-- The level returned is the one the document gives first, and none is found exactly where it
gives none. -/
theorem verifyTcbJson_first (tcbInfo : Bytes) (pckExt : CertificateExtension) (signerPubkey : Pkey)
    (hcarries : ∀ col, jsonParse host.doubles tcbInfo = .ok col →
      ∀ j ∈ tcbLevels col, CarriesSvns j) :
    (∀ level, verifyTcbJson ssl host tcbInfo pckExt signerPubkey = .ok level →
      ∃ col j, jsonParse host.doubles tcbInfo = .ok col ∧
        (tcbLevels col).find? (isCandidate pckExt) = some j ∧ Describes j level) ∧
    (∀ col, OtherChecks ssl host tcbInfo pckExt signerPubkey col →
      (verifyTcbJson ssl host tcbInfo pckExt signerPubkey = .error noMatchingLevel ↔
        (tcbLevels col).find? (isCandidate pckExt) = none)) := by
  constructor
  · intro level h
    simp only [verifyTcbJson, verifyTcbJsonRange, readTcbJson, checkTcbInfo_eq, bind_ok,
      rethrow_ok, refuse_ok, pure_ok, Prod.exists, Prod.mk.injEq] at h
    obtain ⟨_, _, _, ⟨platform, signature, ⟨col, hcol, tcbinfo, hinfo, platform', ⟨_, -, levels,
      hlevels, found, hloop, -, hstatus, rfl⟩, -, -, -, -, -, -, rfl, rfl⟩, -, -, -, -, -, -, -, rfl,
      rfl, rfl⟩, rfl⟩ := h
    rw [items_tcbLevels col tcbinfo levels hinfo hlevels] at hloop
    have hfirst := tcbLevelsLoop_first host pckExt _ _ _ (hcarries col hcol) rfl hloop
    split at hfirst
    next => exact absurd hfirst hstatus
    next j hj => exact ⟨col, j, hcol, hj, hfirst.2⟩
  · intro col h
    obtain ⟨platform, hloop, hresult⟩ := h.choice (hcarries col h.parsed)
    have hfirst := tcbLevelsLoop_first host pckExt _ _ _ (hcarries col h.parsed) rfl hloop
    rw [hresult]
    split at hfirst
    next hnone =>
      rw [if_pos hfirst]
      exact ⟨fun _ => hnone, fun _ => rfl⟩
    next j hj =>
      rw [if_neg hfirst.1, hj]
      constructor
      · intro herror
        cases herror
      · intro hnone
        cases hnone

end

theorem compactTcbInfo_carries (col : Json)
    (hcol : jsonParse plainHost.doubles compactTcbInfo = .ok col) :
    ∀ j ∈ tcbLevels col, CarriesSvns j := by
  have hall : (jsonParse plainHost.doubles compactTcbInfo).toOption.map
      (fun col => decide (∀ j ∈ tcbLevels col, CarriesSvns j)) = some true := by decide +kernel
  rw [hcol] at hall
  exact of_decide_eq_true (Option.some.inj hall)

theorem compactTcbInfo_first :
    ∃ level, verifyTcbJson OpenSsl.lenient plainHost compactTcbInfo zeroExtension [] = .ok level ∧
      ∃ col j, jsonParse plainHost.doubles compactTcbInfo = .ok col ∧
        (tcbLevels col).find? (isCandidate zeroExtension) = some j ∧ Describes j level := by
  obtain ⟨⟨level, range⟩, hlevel, -⟩ := ok_of_map compactTcbInfo_accepted
  have hverify : verifyTcbJson OpenSsl.lenient plainHost compactTcbInfo zeroExtension [] =
      .ok level := by
    rw [verifyTcbJson, hlevel]
    rfl
  exact ⟨level, hverify, (verifyTcbJson_first OpenSsl.lenient plainHost compactTcbInfo
    zeroExtension [] compactTcbInfo_carries).1 level hverify⟩

end Ravl.Sgx
