import Mathlib.Tactic.IntervalCases
import Ravl.Oe.CollateralFormat

/-!
# From OE endorsements to collateral (oe_impl.h:160-378)

OE endorsements are a table of offsets and the items it delimits. What a
well-formed table says an item is, is what the loop of `extract_sgx_attestation`
finds for it, and what the constructor of `QL_QVE_Collateral` reads back.
-/

namespace Ravl.Oe
open ByteLib FallibleLib
open Ravl.Sgx (QlQveCollateral)

/-! ### The offset table -/

section
variable (e : Bytes)

def numElements : ℕ := leVal (sub e 12 4)
def dataStart : ℕ := endorsementsSize + 4 * numElements e
def dataLength : ℕ := e.length - dataStart e
def offsetOf (i : ℕ) : ℕ := leVal (sub e (endorsementsSize + 4 * i) 4)

/-- Where item `i` ends: at the next offset, the last one at the end of the data. -/
def itemEnd (i : ℕ) : ℕ := if i + 1 < numElements e then offsetOf e (i + 1) else dataLength e

def itemOf (i : ℕ) : Bytes :=
  if i < numElements e then sub e (dataStart e + offsetOf e i) (itemEnd e i - offsetOf e i) else []

structure WellFormed : Prop where
  long : sgxEndorsementsSize ≤ e.length
  version : leVal (sub e 0 4) = sgxEndorsementsVersion
  enclaveType : leVal (sub e 4 4) = enclaveTypeSgx
  bufferSize : leVal (sub e 8 4) = e.length - endorsementsSize
  few : numElements e ≤ 9
  ordered : ∀ i, i + 1 < numElements e → offsetOf e i ≤ offsetOf e (i + 1)
  inside : ∀ i, i < numElements e → offsetOf e i < dataLength e
  first : 0 < numElements e → itemOf e 0 = leBytes 4 1

/-- The collateral of the items before item `i`. -/
def collateralUpTo (i : ℕ) : QlQveCollateral where
  tcbInfo := if 1 < i then itemOf e 1 else []
  tcbInfoIssuerChain := if 2 < i then itemOf e 2 else []
  pckCrl := if 3 < i then itemOf e 3 else []
  rootCaCrl := if 4 < i then itemOf e 4 else []
  pckCrlIssuerChain := if 5 < i then itemOf e 5 else []
  qeIdentity := if 6 < i then itemOf e 6 else []
  qeIdentityIssuerChain := if 7 < i then itemOf e 7 else []

/-- The collateral the endorsements stand for. -/
def collateralOf : QlQveCollateral where
  majorVersion := 3
  minorVersion := 1
  teeType := 0
  tcbInfo := itemOf e 1
  tcbInfoIssuerChain := itemOf e 2
  pckCrl := itemOf e 3
  rootCaCrl := itemOf e 4
  pckCrlIssuerChain := itemOf e 5
  qeIdentity := itemOf e 6
  qeIdentityIssuerChain := itemOf e 7

theorem itemOf_absent (i : ℕ) (h : numElements e ≤ i) : itemOf e i = [] :=
  if_neg (by omega)

theorem collateralUpTo_all : collateralUpTo e (numElements e) = collateralOf e := by
  have item : ∀ k, (if k < numElements e then itemOf e k else []) = itemOf e k := by
    intro k
    split
    next => rfl
    next h => exact (itemOf_absent e k (by omega)).symm
  simp only [collateralUpTo, collateralOf, item]

end

section
variable {e : Bytes}

theorem WellFormed.length_lt (h : WellFormed e) : e.length < 2 ^ 32 + 16 := by
  have hsize := h.bufferSize
  have hlt := leVal_lt (sub e 8 4)
  have hlong := h.long
  rw [sub_length e 8 4 (by unfold sgxEndorsementsSize at hlong; omega)] at hlt
  unfold endorsementsSize at hsize
  omega

theorem WellFormed.dataStart_le (h : WellFormed e) : dataStart e + dataLength e = e.length := by
  have hlong := h.long
  have hfew := h.few
  unfold dataLength dataStart endorsementsSize
  unfold sgxEndorsementsSize at hlong
  omega

/-- An item lies inside the data, from its offset to its end. -/
theorem WellFormed.item_inside (h : WellFormed e) (i : ℕ) (hi : i < numElements e) :
    offsetOf e i ≤ itemEnd e i ∧ itemEnd e i ≤ dataLength e := by
  have hinside := h.inside i hi
  unfold itemEnd
  split
  next hnext =>
    have hordered := h.ordered i hnext
    have hnextInside := h.inside (i + 1) hnext
    omega
  next => omega

theorem WellFormed.item_length (h : WellFormed e) (i : ℕ) (hi : i < numElements e) :
    (itemOf e i).length = itemEnd e i - offsetOf e i := by
  have hitem := h.item_inside i hi
  have hall := h.dataStart_le
  rw [itemOf, if_pos hi]
  exact sub_length _ _ _ (by omega)

theorem WellFormed.item_lt (h : WellFormed e) (i : ℕ) : (itemOf e i).length < 2 ^ 33 := by
  have hlt := h.length_lt
  have hall := h.dataStart_le
  by_cases hi : i < numElements e
  · have hitem := h.item_inside i hi
    rw [h.item_length i hi]
    omega
  · rw [itemOf_absent e i (by omega), List.length_nil]
    omega

/-! ### The loop -/

theorem WellFormed.itemOffset_eq (h : WellFormed e) (beyond : ℕ → Byte) (i : ℕ) (hi : i < 9) :
    itemOffset (mem e beyond) i = offsetOf e i := by
  have hlong := h.long
  unfold sgxEndorsementsSize at hlong
  exact readLe_eq_sub e beyond _ 4 (by unfold endorsementsSize; omega)

theorem setItem_upTo (m : ℕ → Byte) (i off size : ℕ) (hi : i < 9)
    (hitem : readMem m off (size % 2 ^ 32) = itemOf e i)
    (hfirst : i = 0 → size = 4 ∧ readLe m off 4 = 1) :
    setItem m i off size (collateralUpTo e i) = .ok (collateralUpTo e (i + 1)) := by
  unfold setItem
  rw [hitem]
  interval_cases i
  · obtain ⟨hsize, hone⟩ := hfirst rfl
    simp only [hsize, hone]
    rfl
  all_goals rfl

theorem WellFormed.readItems_upTo (h : WellFormed e) (beyond : ℕ → Byte) (n i : ℕ)
    (hn : i + n = numElements e) :
    readItems (mem e beyond) (dataStart e) (dataLength e) n i (collateralUpTo e i) =
      .ok (collateralUpTo e (numElements e)) := by
  induction n generalizing i with
  | zero => rw [readItems, ← hn, Nat.add_zero, pure_ok]
  | succ n ih =>
    have hfew := h.few
    have hinside := h.inside i (by omega)
    have hitem := h.item_inside i (by omega)
    have hall := h.dataStart_le
    have hlt := h.length_lt
    have hoffset := h.itemOffset_eq beyond i (by omega)
    have hsize : (if n ≠ 0 then
        (itemOffset (mem e beyond) (i + 1) + 2 ^ 32 - offsetOf e i) % 2 ^ 32
        else dataLength e - offsetOf e i) = itemEnd e i - offsetOf e i := by
      by_cases hlast : n = 0
      · rw [if_neg (not_not_intro hlast), itemEnd, if_neg (by omega)]
      · have hend : itemEnd e i = offsetOf e (i + 1) := if_pos (by omega)
        rw [if_pos hlast, h.itemOffset_eq beyond (i + 1) (by omega), ← hend]
        have hstart : 16 ≤ dataStart e := by unfold dataStart endorsementsSize; omega
        omega
    have hread : readMem (mem e beyond) (dataStart e + offsetOf e i)
        ((itemEnd e i - offsetOf e i) % 2 ^ 32) = itemOf e i := by
      have hstart : 16 ≤ dataStart e := by unfold dataStart endorsementsSize; omega
      rw [Nat.mod_eq_of_lt (by omega), itemOf, if_pos (by omega)]
      exact readMem_eq_sub e beyond _ _ (by omega)
    have hfirst : i = 0 → itemEnd e i - offsetOf e i = 4 ∧
        readLe (mem e beyond) (dataStart e + offsetOf e i) 4 = 1 := by
      intro hi
      subst hi
      have hone := h.first (by omega)
      have hfour := h.item_length 0 (by omega)
      rw [hone, leBytes_length] at hfour
      rw [itemOf, if_pos (by omega), ← hfour] at hone
      refine ⟨hfour.symm, ?_⟩
      rw [readLe_eq_sub e beyond _ 4 (by omega), hone]
      rfl
    rw [readItems, hoffset]
    refine (bind_ok _ _ _).mpr ⟨(), (refuse_ok _ _ _).mpr (by omega), ?_⟩
    refine (bind_ok _ _ _).mpr ⟨collateralUpTo e (i + 1), ?_, ih (i + 1) (by omega)⟩
    rw [hsize]
    exact setItem_upTo _ _ _ _ (by omega) hread hfirst

theorem WellFormed.extractCollateral_ok (h : WellFormed e) (host : Host) :
    extractCollateral host e = .ok (putCollateral (collateralOf e)) := by
  have hlong := h.long
  have hfew := h.few
  have hall := h.dataStart_le
  unfold sgxEndorsementsSize at hlong
  have hne : e ≠ [] := by
    intro he
    rw [he, List.length_nil] at hlong
    omega
  have number : ∀ off, off + 4 ≤ 16 → readLe (mem e host.beyond) off 4 = leVal (sub e off 4) := by
    intro off hoff
    exact readLe_eq_sub e host.beyond off 4 (by omega)
  have hsize : (e.length - endorsementsSize + 2 ^ 64 - 4 * numElements e) % 2 ^ 64 =
      dataLength e := by
    have hlt := h.length_lt
    unfold dataLength dataStart endorsementsSize
    omega
  have hloop := h.readItems_upTo host.beyond (numElements e) 0 (Nat.zero_add _)
  rw [extractCollateral, if_neg hne]
  refine (bind_ok _ _ _).mpr ⟨(), (refuse_ok _ _ _).mpr ?_, ?_⟩
  · unfold endorsementsSize sgxEndorsementsSize
    omega
  refine (bind_ok _ _ _).mpr ⟨(), (refuse_ok _ _ _).mpr ?_, ?_⟩
  · rw [number 0 (by omega)]
    exact not_not_intro h.version
  refine (bind_ok _ _ _).mpr ⟨(), (refuse_ok _ _ _).mpr ?_, ?_⟩
  · rw [number 4 (by omega)]
    exact not_not_intro h.enclaveType
  refine (bind_ok _ _ _).mpr ⟨collateralUpTo e (numElements e), ?_, ?_⟩
  · rw [number 8 (by omega), number 12 (by omega), h.bufferSize]
    show readItems _ _ ((_ + 2 ^ 64 - 4 * numElements e) % 2 ^ 64) (numElements e) 0 _ = _
    rw [hsize]
    exact hloop
  · rw [collateralUpTo_all]
    rfl

theorem WellFormed.parse_collateral (h : WellFormed e) :
    QlQveCollateral.parse 64 (putCollateral (collateralOf e)) = .ok (collateralOf e) := by
  let layout : CollateralLayout := ⟨3, 1, 0, itemOf e 5, itemOf e 4, itemOf e 3, itemOf e 2,
    itemOf e 1, itemOf e 7, itemOf e 6⟩
  have hbytes : layout.bytes = putCollateral (collateralOf e) :=
    (putCollateral_collateral layout).symm
  rw [← hbytes]
  refine collateral_parse_bytes layout ?_
  have hlen := putCollateralOf_length 8 (collateralOf e)
  have h1 := h.item_lt 1
  have h2 := h.item_lt 2
  have h3 := h.item_lt 3
  have h4 := h.item_lt 4
  have h5 := h.item_lt 5
  have h6 := h.item_lt 6
  have h7 := h.item_lt 7
  rw [putCollateralOf_eight, ← hbytes] at hlen
  simp only [collateralSize, collateralStrings, collateralOf, List.map_cons, List.map_nil,
    List.sum_cons, List.sum_nil] at hlen
  unfold vectorBound
  omega

end

/-! ### The attestation -/

theorem splitEvidence_eq (host : Host) (evidence : Bytes)
    (hlong : Sgx.sgxQuoteSize ≤ evidence.length) :
    (splitEvidence host evidence).1 ++ (splitEvidence host evidence).2 = evidence ∧
      (splitEvidence host evidence).1.length =
        min evidence.length (Sgx.sgxQuoteSize + leVal (sub evidence Sgx.signatureLenOff 4)) := by
  have hlen : readLe (mem evidence host.beyond) Sgx.signatureLenOff 4 =
      leVal (sub evidence Sgx.signatureLenOff 4) :=
    readLe_eq_sub evidence host.beyond _ 4 hlong
  simp only [splitEvidence, hlen]
  split
  next hlonger =>
    refine ⟨List.take_append_drop _ _, ?_⟩
    rw [List.length_take]
    omega
  next hshort =>
    refine ⟨List.append_nil _, ?_⟩
    show evidence.length = _
    omega

theorem extractSgxAttestation_wellFormed (host : Host) (evidence endorsements : Bytes)
    (hevidence : Sgx.sgxQuoteSize ≤ evidence.length) (hendorsements : WellFormed endorsements) :
    ∃ sgx customClaims, extractSgxAttestation host evidence endorsements = .ok (sgx, customClaims) ∧
      sgx.evidence ++ customClaims = evidence ∧
      sgx.evidence.length =
        min evidence.length (Sgx.sgxQuoteSize + leVal (sub evidence Sgx.signatureLenOff 4)) ∧
      QlQveCollateral.parse 64 sgx.endorsements = .ok (collateralOf endorsements) := by
  obtain ⟨hjoin, hsplit⟩ := splitEvidence_eq host evidence hevidence
  refine ⟨⟨.sgx, (splitEvidence host evidence).1, putCollateral (collateralOf endorsements)⟩,
    (splitEvidence host evidence).2, ?_, hjoin, hsplit, hendorsements.parse_collateral⟩
  have hne : evidence ≠ [] := by
    intro he
    rw [he] at hevidence
    exact absurd hevidence (by decide)
  simp only [extractSgxAttestation, bind_ok, refuse_ok, pure_ok]
  exact ⟨(), hne, (), by omega, _, hendorsements.extractCollateral_ok host, rfl⟩

/-- Three items: the version, a TCB info of two bytes and its issuer chain. -/
def sampleEndorsements : Bytes :=
  leBytes 4 1 ++ leBytes 4 2 ++ leBytes 4 112 ++ leBytes 4 3 ++
    (leBytes 4 0 ++ leBytes 4 4 ++ leBytes 4 6) ++
    (leBytes 4 1 ++ text "ab" ++ List.replicate 94 7)

theorem sampleEndorsements_numElements : numElements sampleEndorsements = 3 := by decide +kernel

theorem sampleEndorsements_wellFormed : WellFormed sampleEndorsements where
  long := by decide +kernel
  version := by decide +kernel
  enclaveType := by decide +kernel
  bufferSize := by decide +kernel
  few := by decide +kernel
  ordered := by
    intro i hi
    rw [sampleEndorsements_numElements] at hi
    have hi2 : i < 2 := by omega
    interval_cases i <;> decide +kernel
  inside := by
    intro i hi
    rw [sampleEndorsements_numElements] at hi
    interval_cases i <;> decide +kernel
  first := fun _ => by decide +kernel

theorem sampleEndorsements_extract :
    ∃ sgx customClaims,
      extractSgxAttestation plainHost Sgx.sampleEvidence sampleEndorsements =
        .ok (sgx, customClaims) ∧
      sgx.evidence ++ customClaims = Sgx.sampleEvidence ∧
      sgx.evidence.length = min Sgx.sampleEvidence.length
        (Sgx.sgxQuoteSize + leVal (sub Sgx.sampleEvidence Sgx.signatureLenOff 4)) ∧
      QlQveCollateral.parse 64 sgx.endorsements = .ok (collateralOf sampleEndorsements) :=
  extractSgxAttestation_wellFormed plainHost Sgx.sampleEvidence sampleEndorsements
    (by decide +kernel) sampleEndorsements_wellFormed

example : (collateralOf sampleEndorsements).tcbInfo = text "ab" := by decide +kernel

end Ravl.Oe
