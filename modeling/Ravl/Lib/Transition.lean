import Mathlib.Tactic.Common

/-!
# Runs of labelled transition systems

A system is a partial step function. `Steps step ok s t` says that `t` is reached
from `s` by steps that all satisfy `ok`; an invariant is carried along a run by
one step lemma, and a run projects to a run of a smaller system when each of its
steps is a step there or leaves the projection alone.
-/

namespace TransitionLib
variable {σ τ α β : Type}

inductive Steps (step : σ → α → Option σ) (ok : σ → α → Prop) (s : σ) : σ → Prop
  | refl : Steps step ok s s
  | tail {t u : σ} {a : α} : Steps step ok s t → ok t a → step t a = some u → Steps step ok s u

abbrev Any (_ : σ) (_ : α) : Prop := True

variable {step : σ → α → Option σ} {ok ok' : σ → α → Prop}

theorem Steps.one {s t : σ} {a : α} (hok : ok s a) (h : step s a = some t) : Steps step ok s t :=
  .tail .refl hok h

theorem Steps.trans {s t u : σ} (h : Steps step ok s t) (h' : Steps step ok t u) : Steps step ok s u := by
  induction h' with
  | refl => exact h
  | tail _ hok hstep ih => exact ih.tail hok hstep

theorem Steps.mono {s t : σ} (hmono : ∀ s a, ok s a → ok' s a) (h : Steps step ok s t) :
    Steps step ok' s t := by
  induction h with
  | refl => exact .refl
  | tail _ hok hstep ih => exact .tail ih (hmono _ _ hok) hstep

/-- What every allowed step preserves holds at the end of a run if it holds at its beginning. -/
theorem Steps.invariant (inv : σ → Prop)
    (hstep : ∀ s a t, inv s → ok s a → step s a = some t → inv t) {s t : σ}
    (h : Steps step ok s t) (hs : inv s) : inv t := by
  induction h with
  | refl => exact hs
  | tail _ hok hnext ih => exact hstep _ _ _ ih hok hnext

/-- An invariant of all runs may be assumed in each step of another one. -/
theorem Steps.invariant_with (known inv : σ → Prop)
    (hknown : ∀ s a t, known s → ok s a → step s a = some t → known t)
    (hstep : ∀ s a t, known s → inv s → ok s a → step s a = some t → inv t) {s t : σ}
    (h : Steps step ok s t) (hk : known s) (hs : inv s) : inv t := by
  have hboth : known t ∧ inv t := h.invariant (fun s => known s ∧ inv s)
    (fun s a t hi hok hnext => ⟨hknown s a t hi.1 hok hnext, hstep s a t hi.1 hi.2 hok hnext⟩) ⟨hk, hs⟩
  exact hboth.2

/-- A run of the whole, seen from one part: the steps the part takes part in. -/
theorem Steps.project {step' : τ → β → Option τ} {okPart : τ → β → Prop} (proj : σ → τ)
    (pick : α → Option β) (inv : σ → Prop)
    (hinv : ∀ s a t, inv s → ok s a → step s a = some t → inv t)
    (hother : ∀ s a t, inv s → pick a = none → step s a = some t → proj t = proj s)
    (hown : ∀ s a t b, inv s → ok s a → pick a = some b → step s a = some t →
      okPart (proj s) b ∧ step' (proj s) b = some (proj t))
    {s t : σ} (h : Steps step ok s t) (hs : inv s) : Steps step' okPart (proj s) (proj t) := by
  have hall : inv t ∧ Steps step' okPart (proj s) (proj t) := by
    induction h with
    | refl => exact ⟨hs, .refl⟩
    | @tail t u a _ hok hnext ih =>
      obtain ⟨hi, hsteps⟩ := ih
      refine ⟨hinv _ _ _ hi hok hnext, ?_⟩
      cases hpick : pick a with
      | none =>
        rw [hother _ _ _ hi hpick hnext]
        exact hsteps
      | some b =>
        obtain ⟨hpart, hstep'⟩ := hown _ _ _ b hi hok hpick hnext
        exact .tail hsteps hpart hstep'
  exact hall.2

/-- The state a list of labels leads to. -/
def run (step : σ → α → Option σ) : σ → List α → Option σ
  | s, [] => some s
  | s, a :: as => (step s a).bind fun t => run step t as

theorem run_steps (as : List α) (hok : ∀ a ∈ as, ∀ s, ok s a) {s t : σ} (h : run step s as = some t) :
    Steps step ok s t := by
  have hall : ∀ u, Steps step ok u s → Steps step ok u t := by
    induction as generalizing s with
    | nil =>
      obtain rfl := Option.some.inj h
      exact fun u hu => hu
    | cons a as ih =>
      obtain ⟨next, hnext, hrest⟩ := Option.bind_eq_some_iff.1 h
      intro u hu
      exact ih (fun b hb => hok b (List.mem_cons_of_mem a hb)) hrest u
        (.tail hu (hok a List.mem_cons_self s) hnext)
  exact hall s .refl

/-! ### Runs with a budget -/

/-- Where a step that spends takes one from the potential and only one that earns adds to it, at
most `k`, a run spends no more than it began with and has earned. -/
theorem run_budget (spends earns : α → Bool) (k : ℕ) (potential : σ → ℕ) (inv : σ → Prop)
    (hinv : ∀ s a t, inv s → step s a = some t → inv t)
    (hstep : ∀ s a t, inv s → step s a = some t →
      (spends a).toNat + potential t ≤ potential s + k * (earns a).toNat)
    (as : List α) {s t : σ} (hs : inv s) (h : run step s as = some t) :
    as.countP spends + potential t ≤ potential s + k * as.countP earns := by
  induction as generalizing s with
  | nil =>
    obtain rfl := Option.some.inj h
    simp
  | cons a as ih =>
    obtain ⟨next, hnext, hrest⟩ := Option.bind_eq_some_iff.1 h
    have hone := hstep s a next hs hnext
    have hall := ih (hinv s a next hs hnext) hrest
    have hcount (p : α → Bool) : (a :: as).countP p = as.countP p + (p a).toNat := by
      rw [List.countP_cons]
      cases p a <;> rfl
    rw [hcount, hcount, Nat.mul_add]
    omega

/-! ### Runs with a record -/

/-- The system with something that is written down about every step. -/
def recorded {γ : Type} (step : σ → α → Option σ) (record : σ → γ → α → γ) (s : σ × γ) (a : α) :
    Option (σ × γ) :=
  (step s.1 a).map fun t => (t, record s.1 s.2 a)

theorem recorded_some {γ : Type} {record : σ → γ → α → γ} {s t : σ × γ} {a : α}
    (h : recorded step record s a = some t) : step s.1 a = some t.1 ∧ t.2 = record s.1 s.2 a := by
  obtain ⟨u, hu, rfl⟩ := Option.map_eq_some_iff.1 h
  exact ⟨hu, rfl⟩

theorem recorded_of {γ : Type} {record : σ → γ → α → γ} {s t : σ} {a : α} (c : γ)
    (h : step s a = some t) : recorded step record (s, c) a = some (t, record s c a) :=
  Option.map_eq_some_iff.2 ⟨t, h, rfl⟩

/-- Writing something down does not keep the system from a step. -/
theorem Steps.recorded {γ : Type} (record : σ → γ → α → γ) (c : γ) {s t : σ}
    (h : Steps step ok s t) :
    ∃ d, Steps (TransitionLib.recorded step record) (fun s a => ok s.1 a) (s, c) (t, d) := by
  induction h with
  | refl => exact ⟨c, .refl⟩
  | tail _ hok hstep ih =>
    obtain ⟨d, hsteps⟩ := ih
    exact ⟨_, .tail hsteps hok (recorded_of d hstep)⟩

/-! ### One part of a run on its own -/

/-- What is seen of the states behind the labels that are picked. -/
def seen {γ : Type} (step : σ → α → Option σ) (view : σ → γ) (pick : α → Option β) :
    σ → List α → List γ
  | _, [] => []
  | s, a :: as =>
    match step s a with
    | none => []
    | some t => (if (pick a).isSome then [view t] else []) ++ seen step view pick t as

/-- The labels of one part, taken out of a run of the whole, are a run of the part if every
other label keeps the relation between both and every label of the part keeps it in lockstep;
if related states look alike, the same is seen. -/
theorem run_part {γ : Type} {step' : τ → β → Option τ} (rel : σ → τ → Prop) (pick : α → Option β)
    (view : σ → γ) (view' : τ → γ)
    (hview : ∀ s t, rel s t → view s = view' t)
    (hother : ∀ s t a s', rel s t → pick a = none → step s a = some s' → rel s' t)
    (hown : ∀ s t a b s', rel s t → pick a = some b → step s a = some s' →
      ∃ t', step' t b = some t' ∧ rel s' t')
    {s s' : σ} {t : τ} (as : List α) (hrel : rel s t) (h : run step s as = some s') :
    (∃ t', run step' t (as.filterMap pick) = some t' ∧ rel s' t') ∧
      seen step view pick s as = seen step' view' some t (as.filterMap pick) := by
  induction as generalizing s t with
  | nil =>
    cases h
    exact ⟨⟨t, rfl, hrel⟩, rfl⟩
  | cons a as ih =>
    simp only [run, Option.bind_eq_some_iff] at h
    obtain ⟨u, hu, hrest⟩ := h
    cases hpick : pick a with
    | none =>
      have hnext := ih (hother s t a u hrel hpick hu) hrest
      rw [List.filterMap_cons_none hpick]
      refine ⟨hnext.1, ?_⟩
      simp only [seen, hu, hpick, Option.isSome_none, Bool.false_eq_true, if_false, List.nil_append]
      exact hnext.2
    | some b =>
      obtain ⟨t', ht', hrel'⟩ := hown s t a b u hrel hpick hu
      obtain ⟨⟨v, hv, hrelv⟩, hseen⟩ := ih hrel' hrest
      rw [List.filterMap_cons_some hpick]
      refine ⟨⟨v, ?_, hrelv⟩, ?_⟩
      · simp only [run, ht', Option.bind_some]
        exact hv
      · simp only [seen, hu, ht', hpick, Option.isSome_some, if_true, hview u t' hrel', hseen]

end TransitionLib
