import Ravl.Lib.Bytes
import Ravl.Lib.Numerals
import Mathlib.Algebra.Order.BigOperators.Group.List

/-!
# Roots of trust for UVM endorsements (uvm_endorsements.h:24-90)

The security version numbers are strings, and are compared as strings.
-/

namespace Ravl
open ByteLib NumeralLib

structure UVMEndorsements where
  did : Bytes
  feed : Bytes
  svn : Bytes
  deriving DecidableEq

def uvmRootsOfTrust : List UVMEndorsements :=
  [{ did := text
       "did:x509:0:sha256:I__iuL25oXEVFdTP_aBLx_eT1RPHbCQ_ECBQfYZpt9s::eku:1.3.6.1.4.1.311.76.59.1.2"
     feed := text "ContainerPlat-AMD-UVM"
     svn := text "0" },
   { did := text
       "did:x509:0:sha256:I__iuL25oXEVFdTP_aBLx_eT1RPHbCQ_ECBQfYZpt9s::eku:1.3.6.1.4.1.311.76.59.1.5"
     feed := text "ConfAKS-AMD-UVM"
     svn := text "0" }]

/-- The list of roots is a variable of the program. -/
def matchesUvmRootsOfTrust (roots : List UVMEndorsements) (endorsements : UVMEndorsements) : Bool :=
  roots.any fun root =>
    root.did = endorsements.did && root.feed = endorsements.feed &&
      decide (Precedes root.svn endorsements.svn)

/-! ### As numbers -/

def IsDigit (c : Byte) : Prop := 48 ≤ c.val ∧ c.val ≤ 57

def IsNumeral (svn : Bytes) : Prop := svn ≠ [] ∧ ∀ c ∈ svn, IsDigit c

instance : DecidablePred IsDigit := fun _ => inferInstanceAs (Decidable (_ ∧ _))
instance : DecidablePred IsNumeral := fun _ => inferInstanceAs (Decidable (_ ∧ _))

def digitOf (c : Byte) : ℕ := c.val - 48

def svnNumber (svn : Bytes) : ℕ := value 10 digitOf svn

/-- A root with the same DID and feed has an SVN that is not larger. -/
def HasRoot (roots : List UVMEndorsements) (e : UVMEndorsements) : Prop :=
  ∃ root ∈ roots, root.did = e.did ∧ root.feed = e.feed ∧ svnNumber root.svn ≤ svnNumber e.svn

/-- What the roots accept is decided by the numbers, so a larger one is accepted as well. -/
structure ComparesNumbers (roots : List UVMEndorsements) : Prop where
  accepts : ∀ e, IsNumeral e.svn → (matchesUvmRootsOfTrust roots e = true ↔ HasRoot roots e)
  raised : ∀ (e : UVMEndorsements) (svn : Bytes), IsNumeral e.svn → IsNumeral svn →
    svnNumber e.svn ≤ svnNumber svn → matchesUvmRootsOfTrust roots e = true →
      matchesUvmRootsOfTrust roots { e with svn := svn } = true

theorem digits : Digits 10 digitOf IsDigit where
  mono := by
    intro c d hc hd h
    have hlt : c.val < d.val := h
    unfold IsDigit at hc hd
    unfold digitOf
    omega
  lt := by
    intro c hc
    unfold IsDigit at hc
    unfold digitOf
    omega

theorem digitOf_zero : digitOf (byte '0') = 0 := rfl

theorem zero_le_digit (c : Byte) (h : IsDigit c) : byte '0' ≤ c := h.1

theorem matches_iff (roots : List UVMEndorsements) (e : UVMEndorsements) :
    matchesUvmRootsOfTrust roots e = true ↔
      ∃ root ∈ roots, root.did = e.did ∧ root.feed = e.feed ∧ Precedes root.svn e.svn := by
  simp only [matchesUvmRootsOfTrust, List.any_eq_true, Bool.and_eq_true, decide_eq_true_eq, and_assoc]

/-- For numerals of the same length both orders are the same. -/
theorem matches_of_length (roots : List UVMEndorsements) (e : UVMEndorsements)
    (hroots : ∀ root ∈ roots, IsNumeral root.svn) (he : IsNumeral e.svn)
    (hlength : ∀ root ∈ roots, root.did = e.did → root.feed = e.feed →
      root.svn.length = e.svn.length) :
    matchesUvmRootsOfTrust roots e = true ↔ HasRoot roots e := by
  have hsame (root : UVMEndorsements) (hroot : root ∈ roots) (hdid : root.did = e.did)
      (hfeed : root.feed = e.feed) : Precedes root.svn e.svn ↔ svnNumber root.svn ≤ svnNumber e.svn :=
    precedes_iff_value_le digits root.svn e.svn (hlength root hroot hdid hfeed) (hroots root hroot).2 he.2
  rw [matches_iff]
  constructor
  · rintro ⟨root, hroot, hdid, hfeed, hsvn⟩
    exact ⟨root, hroot, hdid, hfeed, (hsame root hroot hdid hfeed).1 hsvn⟩
  · rintro ⟨root, hroot, hdid, hfeed, hsvn⟩
    exact ⟨root, hroot, hdid, hfeed, (hsame root hroot hdid hfeed).2 hsvn⟩

/-! ### For every endorsement -/

theorem isNumeral_zero : IsNumeral (text "0") := by decide +kernel

/-- No numeral comes before this one unless its number is zero. -/
def padded (roots : List UVMEndorsements) (svn : Bytes) : Bytes :=
  List.replicate ((roots.map fun root => root.svn.length).sum) (byte '0') ++ svn

theorem isNumeral_padded (roots : List UVMEndorsements) (svn : Bytes) (h : IsNumeral svn) :
    IsNumeral (padded roots svn) := by
  refine ⟨fun hnil => h.1 (List.append_eq_nil_iff.1 hnil).2, fun c hc => ?_⟩
  obtain hzero | hsvn := List.mem_append.1 hc
  · obtain rfl := List.eq_of_mem_replicate hzero
    exact ⟨by decide, by decide⟩
  · exact h.2 c hsvn

theorem svnNumber_padded (roots : List UVMEndorsements) (svn : Bytes) :
    svnNumber (padded roots svn) = svnNumber svn := value_zeros_append digitOf_zero _ svn

theorem svnNumber_of_precedes_padded (roots : List UVMEndorsements) (root : UVMEndorsements)
    (svn : Bytes) (hroot : root ∈ roots) (hnumeral : IsNumeral root.svn)
    (h : Precedes root.svn (padded roots svn)) : svnNumber root.svn = 0 := by
  have hlength : root.svn.length ≤ (roots.map fun root => root.svn.length).sum :=
    List.le_sum_of_mem (List.mem_map_of_mem hroot)
  exact value_of_precedes_zeros digitOf_zero zero_le_digit root.svn svn _ hlength hnumeral.2 h

theorem comparesNumbers_iff (roots : List UVMEndorsements)
    (hroots : ∀ root ∈ roots, IsNumeral root.svn) :
    ComparesNumbers roots ↔ ∀ root ∈ roots, ∃ zero ∈ roots,
      zero.did = root.did ∧ zero.feed = root.feed ∧ zero.svn = text "0" := by
  constructor
  · intro h root hroot
    -- The number of the root itself, written so long that the strings go wrong.
    have hlong : matchesUvmRootsOfTrust roots { root with svn := padded roots root.svn } = true := by
      refine (h.accepts _ (isNumeral_padded roots _ (hroots root hroot))).2 ?_
      exact ⟨root, hroot, rfl, rfl, (svnNumber_padded roots root.svn).ge⟩
    obtain ⟨small, hsmall, hdid, hfeed, hbefore⟩ := (matches_iff roots _).1 hlong
    have hnumber : svnNumber small.svn = 0 :=
      svnNumber_of_precedes_padded roots small root.svn hsmall (hroots small hsmall) hbefore
    have hzero : matchesUvmRootsOfTrust roots { root with svn := text "0" } = true := by
      refine (h.accepts _ isNumeral_zero).2 ⟨small, hsmall, hdid, hfeed, ?_⟩
      rw [hnumber]
      exact Nat.zero_le _
    obtain ⟨zero, hmem, hdid', hfeed', hbefore'⟩ := (matches_iff roots _).1 hzero
    have hnumeral := hroots zero hmem
    exact ⟨zero, hmem, hdid', hfeed',
      eq_zero_of_precedes zero_le_digit zero.svn hnumeral.1 hnumeral.2 hbefore'⟩
  · intro h
    -- A root with SVN 0 accepts everything that has its DID and feed.
    have hall (e : UVMEndorsements) (he : IsNumeral e.svn)
        (hroot : ∃ root ∈ roots, root.did = e.did ∧ root.feed = e.feed) :
        matchesUvmRootsOfTrust roots e = true ∧ HasRoot roots e := by
      obtain ⟨root, hroot, hdid, hfeed⟩ := hroot
      obtain ⟨zero, hzero, hdid', hfeed', hsvn⟩ := h root hroot
      have hbefore : Precedes zero.svn e.svn := by
        rw [hsvn]
        exact zero_precedes zero_le_digit e.svn he.1 he.2
      refine ⟨(matches_iff roots e).2 ⟨zero, hzero, hdid'.trans hdid, hfeed'.trans hfeed, hbefore⟩,
        zero, hzero, hdid'.trans hdid, hfeed'.trans hfeed, ?_⟩
      rw [hsvn]
      exact Nat.zero_le _
    refine ⟨fun e he => ⟨fun hmatches => ?_, fun hhas => ?_⟩, fun e svn he hsvn _ hmatches => ?_⟩
    · obtain ⟨root, hroot, hdid, hfeed, -⟩ := (matches_iff roots e).1 hmatches
      exact (hall e he ⟨root, hroot, hdid, hfeed⟩).2
    · obtain ⟨root, hroot, hdid, hfeed, -⟩ := hhas
      exact (hall e he ⟨root, hroot, hdid, hfeed⟩).1
    · obtain ⟨root, hroot, hdid, hfeed, -⟩ := (matches_iff roots e).1 hmatches
      exact (hall { e with svn := svn } hsvn ⟨root, hroot, hdid, hfeed⟩).1

theorem uvmRootsOfTrust_compareNumbers :
    (∀ root ∈ uvmRootsOfTrust, IsNumeral root.svn) ∧ ComparesNumbers uvmRootsOfTrust := by
  have hzero (root : UVMEndorsements) (hroot : root ∈ uvmRootsOfTrust) : root.svn = text "0" := by
    obtain rfl | hroot := List.mem_cons.1 hroot
    · rfl
    · obtain rfl := List.mem_singleton.1 hroot
      rfl
  have hnumerals (root : UVMEndorsements) (hroot : root ∈ uvmRootsOfTrust) : IsNumeral root.svn := by
    rw [hzero root hroot]
    exact isNumeral_zero
  refine ⟨hnumerals, (comparesNumbers_iff uvmRootsOfTrust hnumerals).2 fun root hroot => ?_⟩
  exact ⟨root, hroot, rfl, rfl, hzero root hroot⟩

/-- The root that is built in for containers, with another SVN -/
def containerRoot (svn : String) : UVMEndorsements where
  did := text
    "did:x509:0:sha256:I__iuL25oXEVFdTP_aBLx_eT1RPHbCQ_ECBQfYZpt9s::eku:1.3.6.1.4.1.311.76.59.1.2"
  feed := text "ContainerPlat-AMD-UVM"
  svn := text svn

/-- From the root 5 on, 9 is accepted and 10 is not. -/
theorem raised_svn_rejected :
    matchesUvmRootsOfTrust [containerRoot "5"] (containerRoot "9") = true ∧
      matchesUvmRootsOfTrust [containerRoot "5"] (containerRoot "10") = false ∧
      ¬ ComparesNumbers [containerRoot "5"] := by
  have hlow : matchesUvmRootsOfTrust [containerRoot "5"] (containerRoot "9") = true := by decide +kernel
  have hhigh : matchesUvmRootsOfTrust [containerRoot "5"] (containerRoot "10") = false := by
    decide +kernel
  refine ⟨hlow, hhigh, fun h => ?_⟩
  have hraised := h.raised (containerRoot "9") (text "10") (by decide +kernel) (by decide +kernel)
    (by decide +kernel) hlow
  exact Bool.false_ne_true (hhigh.symm.trans hraised)

end Ravl
