import Mathlib.Data.List.Lex
import Mathlib.Data.Nat.Digits.Lemmas
import Mathlib.Order.Bounds.Basic

/-!
# Numerals as strings

A numeral is a string of digits, the most significant one first. The
lexicographic order of numerals is the order of their numbers as long as they
have the same length.
-/

namespace NumeralLib
variable {α : Type} {b : ℕ} {digit : α → ℕ} {zero : α}

/-- The number in base `b` -/
def value (b : ℕ) (digit : α → ℕ) (s : List α) : ℕ := Nat.ofDigits b (s.reverse.map digit)

theorem value_cons (c : α) (s : List α) :
    value b digit (c :: s) = value b digit s + b ^ s.length * digit c := by
  rw [value, List.reverse_cons, List.map_append, Nat.ofDigits_append, List.length_map,
    List.length_reverse, List.map_singleton, Nat.ofDigits_singleton]
  rfl

theorem value_zeros_append (h0 : digit zero = 0) (k : ℕ) (s : List α) :
    value b digit (List.replicate k zero ++ s) = value b digit s := by
  induction k with
  | zero => rfl
  | succ k ih =>
    rw [List.replicate_succ, List.cons_append, value_cons, ih, h0, Nat.mul_zero, Nat.add_zero]

variable [LinearOrder α] {D : α → Prop}

/-- The first difference decides, and a prefix comes before the whole. -/
def Precedes (s t : List α) : Prop := ¬ List.Lex (· < ·) t s

instance (s t : List α) : Decidable (Precedes s t) := inferInstanceAs (Decidable (¬ _))

theorem precedes_nil (t : List α) : Precedes [] t := List.not_lex_nil

theorem not_precedes_nil (c : α) (s : List α) : ¬ Precedes (c :: s) [] :=
  fun h => h List.Lex.nil

theorem precedes_cons (c d : α) (s t : List α) :
    Precedes (c :: s) (d :: t) ↔ c < d ∨ c = d ∧ Precedes s t := by
  unfold Precedes
  rw [List.cons_lex_cons_iff]
  rcases lt_trichotomy c d with h | h | h
  · simp [h, h.ne', h.asymm]
  · simp [h]
  · simp [h, h.ne', h.asymm]

/-- The characters in `D` are digits of base `b`, in their order. -/
structure Digits (b : ℕ) (digit : α → ℕ) (D : α → Prop) : Prop where
  mono : ∀ c d, D c → D d → c < d → digit c < digit d
  lt : ∀ c, D c → digit c < b

theorem value_lt (hD : Digits b digit D) (s : List α) (hs : ∀ c ∈ s, D c) :
    value b digit s < b ^ s.length := by
  induction s with
  | nil => exact Nat.one_pos
  | cons c s ih =>
    have hc := hD.lt c (hs c (List.mem_cons_self ..))
    have htail := ih fun d hd => hs d (List.mem_cons_of_mem c hd)
    rw [value_cons, List.length_cons, pow_succ]
    calc value b digit s + b ^ s.length * digit c
        < b ^ s.length + b ^ s.length * digit c := Nat.add_lt_add_right htail _
      _ = b ^ s.length * (digit c + 1) := by ring
      _ ≤ b ^ s.length * b := Nat.mul_le_mul_left _ hc

/-- The digit in front decides. -/
theorem value_cons_lt (hD : Digits b digit D) (c d : α) (s t : List α) (hlength : s.length = t.length)
    (hs : ∀ c ∈ s, D c) (h : digit c < digit d) :
    value b digit (c :: s) < value b digit (d :: t) := by
  have hlow := value_lt hD s hs
  rw [value_cons, value_cons, ← hlength]
  calc value b digit s + b ^ s.length * digit c
      < b ^ s.length + b ^ s.length * digit c := Nat.add_lt_add_right hlow _
    _ = b ^ s.length * (digit c + 1) := by ring
    _ ≤ b ^ s.length * digit d := Nat.mul_le_mul_left _ h
    _ ≤ value b digit t + b ^ s.length * digit d := Nat.le_add_left _ _

theorem precedes_iff_value_le (hD : Digits b digit D) (s t : List α) (hlength : s.length = t.length)
    (hs : ∀ c ∈ s, D c) (ht : ∀ c ∈ t, D c) :
    Precedes s t ↔ value b digit s ≤ value b digit t := by
  induction s generalizing t with
  | nil =>
    obtain rfl := List.length_eq_zero_iff.1 hlength.symm
    exact ⟨fun _ => le_rfl, fun _ => precedes_nil []⟩
  | cons c s ih =>
    cases t with
    | nil => cases hlength
    | cons d t =>
      have hlength' : s.length = t.length := Nat.succ.inj hlength
      have hc := hs c (List.mem_cons_self ..)
      have hd := ht d (List.mem_cons_self ..)
      have hs' : ∀ c ∈ s, D c := fun x hx => hs x (List.mem_cons_of_mem c hx)
      have ht' : ∀ c ∈ t, D c := fun x hx => ht x (List.mem_cons_of_mem d hx)
      rw [precedes_cons]
      rcases lt_trichotomy c d with h | h | h
      · have hvalue := value_cons_lt hD c d s t hlength' hs' (hD.mono c d hc hd h)
        exact ⟨fun _ => hvalue.le, fun _ => Or.inl h⟩
      · subst h
        rw [ih t hlength' hs' ht', value_cons, value_cons, ← hlength']
        simp
      · have hvalue := value_cons_lt hD d c t s hlength'.symm ht' (hD.mono d c hd hc h)
        constructor
        · rintro (hlt | ⟨heq, -⟩)
          · exact absurd hlt h.asymm
          · exact absurd heq h.ne'
        · intro hle
          omega

/-! ### Zeros -/

theorem zero_precedes (hleast : ∀ c, D c → zero ≤ c) (s : List α) (hne : s ≠ [])
    (hs : ∀ c ∈ s, D c) : Precedes [zero] s := by
  cases s with
  | nil => exact absurd rfl hne
  | cons c s =>
    rw [precedes_cons]
    obtain h | h := (hleast c (hs c (List.mem_cons_self ..))).lt_or_eq
    · exact Or.inl h
    · exact Or.inr ⟨h, precedes_nil s⟩

theorem eq_zero_of_precedes (hleast : ∀ c, D c → zero ≤ c) (s : List α) (hne : s ≠ [])
    (hs : ∀ c ∈ s, D c) (h : Precedes s [zero]) : s = [zero] := by
  cases s with
  | nil => exact absurd rfl hne
  | cons c s =>
    obtain hlt | ⟨rfl, htail⟩ := (precedes_cons ..).1 h
    · exact absurd hlt (hleast c (hs c (List.mem_cons_self ..))).not_gt
    · cases s with
      | nil => rfl
      | cons d s => exact absurd htail (not_precedes_nil d s)

/-- Only zeros come before many zeros. -/
theorem value_of_precedes_zeros (h0 : digit zero = 0) (hleast : ∀ c, D c → zero ≤ c) (s t : List α)
    (k : ℕ) (hk : s.length ≤ k) (hs : ∀ c ∈ s, D c) (h : Precedes s (List.replicate k zero ++ t)) :
    value b digit s = 0 := by
  induction s generalizing k with
  | nil => rfl
  | cons c s ih =>
    cases k with
    | zero => cases hk
    | succ k =>
      rw [List.replicate_succ, List.cons_append, precedes_cons] at h
      obtain hlt | ⟨rfl, htail⟩ := h
      · exact absurd hlt (hleast c (hs c (List.mem_cons_self ..))).not_gt
      · rw [value_cons, h0, Nat.mul_zero, Nat.add_zero]
        exact ih k (Nat.le_of_succ_le_succ hk) (fun d hd => hs d (List.mem_cons_of_mem c hd)) htail

end NumeralLib
