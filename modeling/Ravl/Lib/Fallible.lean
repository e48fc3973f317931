import Mathlib.Tactic.Common

/-!
# Computations that may fail

Rules for `Except`, used to take a straight-line program with checks apart:
a program returns a value exactly when every step returned one and no check
refused. `refuse` is the check that throws, `orThrow` the lookup that throws.
-/

namespace FallibleLib
variable {ε ε' α β : Type}

theorem bind_ok (x : Except ε α) (f : α → Except ε β) (b : β) :
    (x >>= f) = .ok b ↔ ∃ a, x = .ok a ∧ f a = .ok b := by
  cases x <;> simp [Bind.bind, Except.bind]

theorem pure_ok (a b : α) : (pure a : Except ε α) = .ok b ↔ a = b := by
  simp [pure, Except.pure]

theorem throw_ok (e : ε) (a : α) : (throw e : Except ε α) = .ok a ↔ False := by
  simp [throw, throwThe, MonadExceptOf.throw]

theorem throw_bind (e : ε) (f : α → Except ε β) : ((throw e : Except ε α) >>= f) = throw e := rfl

theorem ok_bind (a : α) (f : α → Except ε β) : ((.ok a : Except ε α) >>= f) = f a := rfl

def refuse (c : Prop) [Decidable c] (e : ε) : Except ε Unit := if c then .error e else .ok ()

theorem refuse_ok (c : Prop) [Decidable c] (e : ε) (u : Unit) : refuse c e = .ok u ↔ ¬ c := by
  unfold refuse
  split <;> simp_all

theorem refuse_of_not {c : Prop} [Decidable c] (h : ¬ c) (e : ε) : refuse c e = .ok () :=
  if_neg h

/-- A step that is made only when `c` holds. -/
def whenever (c : Prop) [Decidable c] (act : Except ε Unit) : Except ε Unit :=
  if c then act else .ok ()

theorem whenever_ok (c : Prop) [Decidable c] (act : Except ε Unit) (u : Unit) :
    whenever c act = .ok u ↔ (c → act = .ok u) := by
  unfold whenever
  split <;> simp_all

def orThrow (o : Option α) (e : ε) : Except ε α := o.elim (.error e) .ok

theorem orThrow_ok (o : Option α) (e : ε) (a : α) : orThrow o e = .ok a ↔ o = some a := by
  cases o <;> simp [orThrow]

/-- A handler that catches everything and throws `g` of it. -/
def rethrow (g : ε → ε') (x : Except ε α) : Except ε' α := x.mapError g

theorem rethrow_ok (g : ε → ε') (x : Except ε α) (a : α) : rethrow g x = .ok a ↔ x = .ok a := by
  cases x <;> simp [rethrow, Except.mapError]

/-! ### Which errors there can be -/

/-- Where the computation fails, it fails with such an error. -/
def FailsWith (P : ε → Prop) (x : Except ε α) : Prop := ∀ e, x = .error e → P e

theorem FailsWith.pure (P : ε → Prop) (a : α) : FailsWith P (pure a) := by
  intro e h
  cases h

theorem FailsWith.throw {P : ε → Prop} {e : ε} (h : P e) : FailsWith (α := α) P (throw e) := by
  intro e' h'
  cases h'
  exact h

theorem FailsWith.refuse {P : ε → Prop} {c : Prop} [Decidable c] {e : ε} (h : P e) :
    FailsWith P (refuse c e) := by
  intro e' h'
  unfold FallibleLib.refuse at h'
  split at h'
  · cases h'
    exact h
  · cases h'

theorem FailsWith.whenever {P : ε → Prop} {c : Prop} [Decidable c] {act : Except ε Unit}
    (h : FailsWith P act) : FailsWith P (whenever c act) := by
  unfold FallibleLib.whenever
  split
  · exact h
  · exact FailsWith.pure _ _

theorem FailsWith.orThrow {P : ε → Prop} {o : Option α} {e : ε} (h : P e) :
    FailsWith P (orThrow o e) := by
  intro e' h'
  cases o with
  | none =>
    cases h'
    exact h
  | some a => cases h'

theorem FailsWith.bind {P : ε → Prop} {x : Except ε α} {f : α → Except ε β} (hx : FailsWith P x)
    (hf : ∀ a, x = .ok a → FailsWith P (f a)) : FailsWith P (x >>= f) := by
  intro e h
  cases x with
  | error e' =>
    have he : (Except.error e' : Except ε β) = .error e := h
    cases he
    exact hx e rfl
  | ok a => exact hf a rfl e h

theorem FailsWith.mapM {P : ε → Prop} {f : α → Except ε β} (hf : ∀ a, FailsWith P (f a))
    (xs : List α) : FailsWith P (xs.mapM f) := by
  induction xs with
  | nil => exact FailsWith.pure P []
  | cons x xs ih =>
    rw [List.mapM_cons]
    exact FailsWith.bind (hf x) fun _ _ => FailsWith.bind ih fun _ _ => FailsWith.pure P _

/-- Where no element fails the results are collected. -/
theorem mapM_ok {f : α → Except ε β} {g : α → β} {xs : List α} (h : ∀ x ∈ xs, f x = .ok (g x)) :
    xs.mapM f = .ok (xs.map g) := by
  induction xs with
  | nil => rfl
  | cons x xs ih =>
    rw [List.mapM_cons, h x (List.mem_cons_self ..), ok_bind,
      ih fun y hy => h y (List.mem_cons_of_mem x hy)]
    rfl

/-- A handler that keeps apart what the rest keeps apart -/
theorem FailsWith.rethrow_iff {P : ε → Prop} {Q : ε' → Prop} {g : ε → ε'} (hg : ∀ e, Q (g e) ↔ P e)
    (x : Except ε α) : FailsWith Q (rethrow g x) ↔ FailsWith P x := by
  cases x with
  | ok a => exact ⟨fun _ => FailsWith.pure P a, fun _ => FailsWith.pure Q a⟩
  | error e =>
    constructor
    · intro h e' he
      cases he
      exact (hg e).1 (h (g e) rfl)
    · intro h e' he
      cases he
      exact (hg e).2 (h e rfl)

theorem toOption_eq_some {x : Except ε α} {a : α} : x.toOption = some a ↔ x = .ok a := by
  cases x <;> simp [Except.toOption]

theorem map_ok {x : Except ε α} {f : α → β} {b : β} : x.map f = .ok b ↔ ∃ a, x = .ok a ∧ f a = b := by
  cases x <;> simp [Except.map]

/-- A closed computation is known to return by evaluating this test. -/
theorem ok_of_isSome {x : Except ε α} (h : x.toOption.isSome) : ∃ a, x = .ok a := by
  cases x with
  | error e => cases h
  | ok a => exact ⟨a, rfl⟩

theorem ok_of_map {x : Except ε α} {f : α → β} {b : β} (h : x.toOption.map f = some b) :
    ∃ a, x = .ok a ∧ f a = b := by
  cases x with
  | error e => cases h
  | ok a => exact ⟨a, rfl, Option.some.inj h⟩

/-! ### Failing more often -/

/-- Where the first computation returns, the second returns the same. -/
def Within (x y : Except ε α) : Prop := ∀ a, x = .ok a → y = .ok a

theorem Within.refl (x : Except ε α) : Within x x := fun _ h => h

theorem Within.bind {x y : Except ε α} {f g : α → Except ε β} (h : Within x y)
    (hf : ∀ a, Within (f a) (g a)) : Within (x >>= f) (y >>= g) := by
  intro b hb
  obtain ⟨a, hx, ha⟩ := (bind_ok x f b).1 hb
  exact (bind_ok y g b).2 ⟨a, h a hx, hf a b ha⟩

theorem Within.refuse {c d : Prop} [Decidable c] [Decidable d] (h : d → c) (e : ε) :
    Within (refuse c e) (refuse d e) := by
  intro u hu
  exact (refuse_ok d e u).2 fun hd => (refuse_ok c e u).1 hu (h hd)

theorem Within.whenever {c d : Prop} [Decidable c] [Decidable d] (h : d → c)
    (act : Except ε Unit) : Within (whenever c act) (whenever d act) := by
  intro u hu
  exact (whenever_ok d act u).2 fun hd => (whenever_ok c act u).1 hu (h hd)

theorem Within.rethrow {x y : Except ε α} (h : Within x y) (g : ε → ε') :
    Within (rethrow g x) (rethrow g y) := by
  intro a ha
  exact (rethrow_ok g y a).2 (h a ((rethrow_ok g x a).1 ha))

theorem Within.map {x y : Except ε α} (h : Within x y) (f : α → β) : Within (x.map f) (y.map f) := by
  intro b hb
  obtain ⟨a, hx, ha⟩ := map_ok.1 hb
  exact map_ok.2 ⟨a, h a hx, ha⟩

end FallibleLib
