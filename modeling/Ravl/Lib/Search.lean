import Mathlib.Data.List.Infix

/-!
# First and last occurrence of a pattern

`find` and `rfind` return the offset of the first and of the last place where
a list continues with a given pattern. The two specifications say so with
`<+:` on `drop`, which is what a reader of a text search expects.
-/

namespace SearchLib
variable {α : Type}

/-- `pat` starts at offset `i` of `s`. -/
def At (pat s : List α) (i : ℕ) : Prop := i ≤ s.length ∧ pat <+: s.drop i

theorem at_zero (pat s : List α) : At pat s 0 ↔ pat <+: s := by
  simp [At]

theorem at_succ (pat s : List α) (c : α) (i : ℕ) : At pat (c :: s) (i + 1) ↔ At pat s i := by
  simp [At]

theorem at_nil (pat : List α) (i : ℕ) : At pat [] i ↔ i = 0 ∧ pat = [] := by
  simp [At]

theorem At.length_le {pat s : List α} {i : ℕ} (h : At pat s i) : i + pat.length ≤ s.length := by
  have hl := h.2.length_le
  rw [List.length_drop] at hl
  have hi := h.1
  omega

theorem At.split {pat s : List α} {i : ℕ} (h : At pat s i) :
    s = s.take i ++ pat ++ s.drop (i + pat.length) := by
  obtain ⟨t, ht⟩ := h.2
  have hd : s.drop (i + pat.length) = t := by
    rw [← List.drop_drop, ← ht, List.drop_left]
  rw [hd, List.append_assoc, ht, List.take_append_drop]

variable [DecidableEq α]

instance (pat s : List α) (i : ℕ) : Decidable (At pat s i) := inferInstanceAs (Decidable (_ ∧ _))

def find (pat : List α) : List α → Option ℕ
  | [] => if pat = [] then some 0 else none
  | c :: s => if pat <+: c :: s then some 0 else (find pat s).map (· + 1)

def rfind (pat : List α) : List α → Option ℕ
  | [] => if pat = [] then some 0 else none
  | c :: s =>
    match rfind pat s with
    | some i => some (i + 1)
    | none => if pat <+: c :: s then some 0 else none

theorem find_some (pat s : List α) (i : ℕ) :
    find pat s = some i ↔ At pat s i ∧ ∀ j < i, ¬ At pat s j := by
  induction s generalizing i with
  | nil =>
    simp only [find, at_nil]
    split
    next hp =>
      simp only [hp, and_true, Option.some.injEq]
      exact ⟨fun h => ⟨h.symm, by omega⟩, fun h => h.1.symm⟩
    next hp => simp [hp]
  | cons c s ih =>
    simp only [find]
    split
    next hp =>
      have h0 := (at_zero pat (c :: s)).2 hp
      constructor
      · intro h
        cases h
        exact ⟨h0, fun j hj => absurd hj (by omega)⟩
      · intro h
        by_contra hne
        have hi : 0 < i := Nat.pos_of_ne_zero fun he => hne (by rw [he])
        exact h.2 0 hi h0
    next hp =>
      have h0 : ¬ At pat (c :: s) 0 := fun h => hp ((at_zero _ _).1 h)
      rw [Option.map_eq_some_iff]
      constructor
      · rintro ⟨k, hk, rfl⟩
        obtain ⟨hat, hmin⟩ := (ih k).1 hk
        refine ⟨(at_succ _ _ _ _).2 hat, fun j hj => ?_⟩
        cases j with
        | zero => exact h0
        | succ j => exact fun hs => hmin j (by omega) ((at_succ _ _ _ _).1 hs)
      · intro ⟨hat, hmin⟩
        cases i with
        | zero => exact absurd hat h0
        | succ i =>
          refine ⟨i, (ih i).2 ⟨(at_succ _ _ _ _).1 hat, fun j hj hs => ?_⟩, rfl⟩
          exact hmin (j + 1) (by omega) ((at_succ _ _ _ _).2 hs)

theorem rfind_none (pat s : List α) : rfind pat s = none ↔ ∀ i, ¬ At pat s i := by
  induction s with
  | nil =>
    simp only [rfind, at_nil]
    split <;> simp_all
  | cons c s ih =>
    simp only [rfind]
    cases hr : rfind pat s with
    | some k =>
      have hs : ¬ ∀ i, ¬ At pat s i := by rw [← ih, hr]; simp
      simp only [reduceCtorEq, false_iff]
      exact fun h => hs fun i hi => h (i + 1) ((at_succ _ _ _ _).2 hi)
    | none =>
      have hs := ih.1 hr
      constructor
      · intro h i
        have hp : ¬ pat <+: c :: s := by
          intro hp
          simp only [if_pos hp] at h
          cases h
        cases i with
        | zero => exact fun h0 => hp ((at_zero _ _).1 h0)
        | succ i => exact fun hi => hs i ((at_succ _ _ _ _).1 hi)
      · intro h
        have hp : ¬ pat <+: c :: s := fun hp => h 0 ((at_zero _ _).2 hp)
        simp only [if_neg hp]

theorem rfind_some (pat s : List α) (i : ℕ) :
    rfind pat s = some i ↔ At pat s i ∧ ∀ j, i < j → ¬ At pat s j := by
  induction s generalizing i with
  | nil =>
    simp only [rfind, at_nil]
    split
    next hp =>
      simp only [hp, and_true, Option.some.injEq]
      exact ⟨fun h => ⟨h.symm, by omega⟩, fun h => h.1.symm⟩
    next hp => simp [hp]
  | cons c s ih =>
    simp only [rfind]
    cases hr : rfind pat s with
    | some k =>
      obtain ⟨hat, hmax⟩ := (ih k).1 hr
      have hk := (at_succ pat s c k).2 hat
      have hlater : ∀ j, k + 1 < j → ¬ At pat (c :: s) j := by
        intro j hj hs
        cases j with
        | zero => omega
        | succ j => exact hmax j (by omega) ((at_succ _ _ _ _).1 hs)
      constructor
      · intro h
        cases h
        exact ⟨hk, hlater⟩
      · intro ⟨hi, hl⟩
        rcases Nat.lt_trichotomy i (k + 1) with hlt | heq | hgt
        · exact absurd hk (hl _ hlt)
        · rw [heq]
        · exact absurd hi (hlater i hgt)
    | none =>
      have hs := (rfind_none pat s).1 hr
      have hlater : ∀ j, 0 < j → ¬ At pat (c :: s) j := by
        intro j hj hat
        cases j with
        | zero => omega
        | succ j => exact hs j ((at_succ _ _ _ _).1 hat)
      by_cases hp : pat <+: c :: s
      · have h0 := (at_zero pat (c :: s)).2 hp
        simp only [if_pos hp, Option.some.injEq]
        constructor
        · intro heq
          subst heq
          exact ⟨h0, hlater⟩
        · intro ⟨hi, _⟩
          by_contra hne
          exact hlater i (Nat.pos_of_ne_zero fun he => hne he.symm) hi
      · simp only [if_neg hp, reduceCtorEq, false_iff, not_and]
        intro hi
        cases i with
        | zero => exact absurd ((at_zero _ _).1 hi) hp
        | succ i => exact absurd hi (hlater _ (by omega))

/-! ### A part of the text between two patterns -/

theorem find_before_suffix (pat s v : List α) (l : ℕ) (hv : v <:+ s) (hl : find pat s = some l) :
    l + pat.length = s.length - v.length ↔
      ∃ u, s = u ++ pat ++ v ∧ ∀ j < u.length, ¬ At pat s j := by
  obtain ⟨hat, hmin⟩ := (find_some pat s l).1 hl
  have hle := hat.length_le
  obtain ⟨t, ht⟩ := hv
  have hlen : s.length = t.length + v.length := by rw [← ht, List.length_append]
  constructor
  · intro h
    have hv : s.drop (l + pat.length) = v := by
      have htl : l + pat.length = t.length := by omega
      rw [htl, ← ht, List.drop_left]
    have hul : (s.take l).length = l := by
      rw [List.length_take]
      omega
    refine ⟨s.take l, ?_, ?_⟩
    · rw [← hv]
      exact hat.split
    · rw [hul]
      exact hmin
  · intro ⟨u, hu, hfirst⟩
    have hatu : At pat s u.length := by
      refine ⟨?_, v, ?_⟩
      · rw [hu, List.length_append, List.length_append]
        omega
      · rw [hu, List.append_assoc, List.drop_left]
    have hlu : l = u.length := by
      have h := (find_some pat s u.length).2 ⟨hatu, hfirst⟩
      rw [hl] at h
      exact Option.some.inj h
    have hsl : s.length = u.length + pat.length + v.length := by
      rw [hu, List.length_append, List.length_append]
    omega

theorem rfind_at_suffix (pat s w : List α) (r : ℕ) (hw : w <:+ s) (hr : rfind pat s = some r) :
    r = s.length - w.length ↔ pat <+: w ∧ ∀ j, s.length - w.length < j → ¬ At pat s j := by
  obtain ⟨t, ht⟩ := hw
  have hlen : s.length = t.length + w.length := by rw [← ht, List.length_append]
  have hdrop : s.drop (s.length - w.length) = w := by
    have htl : s.length - w.length = t.length := by omega
    rw [htl, ← ht, List.drop_left]
  constructor
  · intro h
    obtain ⟨hat, hmax⟩ := (rfind_some pat s r).1 hr
    rw [h] at hat hmax
    refine ⟨?_, hmax⟩
    have hpre := hat.2
    rwa [hdrop] at hpre
  · intro ⟨hpre, hlast⟩
    have hat : At pat s (s.length - w.length) := ⟨Nat.sub_le _ _, by rwa [hdrop]⟩
    have h := (rfind_some pat s _).2 ⟨hat, hlast⟩
    rw [hr] at h
    exact Option.some.inj h

/-! ### Text that cannot start the pattern -/

theorem find_here (pat s : List α) : find pat (pat ++ s) = some 0 := by
  rw [find_some]
  refine ⟨(at_zero _ _).2 (List.prefix_append pat s), ?_⟩
  intro j hj
  exact absurd hj (Nat.not_lt_zero j)

/-- Where the pattern's first element does not occur it is not found. -/
theorem find_skip (p : α) (pat u s : List α) (h : p ∉ u) :
    find (p :: pat) (u ++ s) = (find (p :: pat) s).map (· + u.length) := by
  induction u with
  | nil =>
    show find (p :: pat) s = (find (p :: pat) s).map id
    rw [Option.map_id_apply]
  | cons c u ih =>
    rw [List.mem_cons, not_or] at h
    have hno : ¬ (p :: pat) <+: c :: (u ++ s) := fun hp => h.1 (List.cons_prefix_cons.1 hp).1
    rw [List.cons_append, find, if_neg hno, ih h.2, Option.map_map]
    rfl

end SearchLib
