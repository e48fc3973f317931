import Ravl.Lib.Bytes
import Ravl.Lib.Fallible

/-!
# Computations that may fail, with a trace

What a computation does on its way, next to its result: each step may leave an
event. `forget` gives back the computation without its trace; a statement about
all events is taken apart along the steps. The events of a program that works on
a buffer are its accesses.
-/

namespace TracedLib
open ByteLib FallibleLib
variable {τ ε α β : Type}

/-- The events of a computation, the first one first, and how it ended. -/
structure Traced (τ ε α : Type) where
  trace : List τ
  forget : Except ε α

namespace Traced

protected def pure (a : α) : Traced τ ε α := ⟨[], .ok a⟩

protected def bind (x : Traced τ ε α) (f : α → Traced τ ε β) : Traced τ ε β :=
  match x.forget with
  | .error e => ⟨x.trace, .error e⟩
  | .ok a => ⟨x.trace ++ (f a).trace, (f a).forget⟩

instance : Monad (Traced τ ε) where
  pure := Traced.pure
  bind := Traced.bind

/-- A step that leaves no event -/
def quiet (x : Except ε α) : Traced τ ε α := ⟨[], x⟩

/-- A step that leaves the event `t` -/
def event (t : τ) (a : α) : Traced τ ε α := ⟨[t], .ok a⟩

/-- A step that leaves the event `t` when it is made -/
def eventIf (c : Prop) [Decidable c] (t : τ) : Traced τ ε Unit := ⟨if c then [t] else [], .ok ()⟩

/-- A step that leaves several events -/
def events (ts : List τ) : Traced τ ε Unit := ⟨ts, .ok ()⟩

@[simp]
theorem forget_pure (a : α) : (pure a : Traced τ ε α).forget = pure a := rfl

@[simp]
theorem forget_bind (x : Traced τ ε α) (f : α → Traced τ ε β) :
    (x >>= f).forget = x.forget >>= fun a => (f a).forget := by
  cases h : x.forget <;> simp [Bind.bind, Traced.bind, Except.bind, h]

@[simp]
theorem forget_quiet (x : Except ε α) : (quiet x : Traced τ ε α).forget = x := rfl

@[simp]
theorem forget_event (t : τ) (a : α) : (event t a : Traced τ ε α).forget = pure a := rfl

@[simp]
theorem forget_eventIf (c : Prop) [Decidable c] (t : τ) :
    (eventIf c t : Traced τ ε Unit).forget = pure () := rfl

@[simp]
theorem forget_events (ts : List τ) : (events ts : Traced τ ε Unit).forget = pure () := rfl

theorem trace_bind (x : Traced τ ε α) (f : α → Traced τ ε β) (a : α) (h : x.forget = .ok a) :
    (x >>= f).trace = x.trace ++ (f a).trace := by
  simp [Bind.bind, Traced.bind, h]

theorem trace_bind_error (x : Traced τ ε α) (f : α → Traced τ ε β) (e : ε) (h : x.forget = .error e) :
    (x >>= f).trace = x.trace := by
  simp [Bind.bind, Traced.bind, h]

theorem quiet_ok_bind (a : α) (f : α → Traced τ ε β) : (quiet (.ok a) >>= f) = f a := rfl

theorem quiet_error_bind (e : ε) (f : α → Traced τ ε β) : (quiet (.error e) >>= f) = quiet (.error e) :=
  rfl

@[simp]
theorem trace_event_bind (t : τ) (a : α) (f : α → Traced τ ε β) :
    (event t a >>= f).trace = t :: (f a).trace := rfl

@[simp]
theorem trace_refuse_bind (c : Prop) [Decidable c] (e : ε) (f : Unit → Traced τ ε β) :
    (quiet (refuse c e) >>= f).trace = if c then [] else (f ()).trace := by
  by_cases h : c
  · rw [if_pos h, trace_bind_error _ _ e (if_pos h)]
    rfl
  · rw [if_neg h, trace_bind _ _ () (if_neg h)]
    rfl

/-! ### All events -/

def All (P : τ → Prop) (x : Traced τ ε α) : Prop := ∀ t ∈ x.trace, P t

section
variable (P : τ → Prop)

@[simp]
theorem all_pure (a : α) : (pure a : Traced τ ε α).All P :=
  fun _ h => absurd h List.not_mem_nil

@[simp]
theorem all_quiet (x : Except ε α) : (quiet x : Traced τ ε α).All P :=
  fun _ h => absurd h List.not_mem_nil

@[simp]
theorem all_event (t : τ) (a : α) : (event t a : Traced τ ε α).All P ↔ P t := by
  simp [All, event]

@[simp]
theorem all_eventIf (c : Prop) [Decidable c] (t : τ) :
    (eventIf c t : Traced τ ε Unit).All P ↔ (c → P t) := by
  unfold All eventIf
  split <;> simp_all

@[simp]
theorem all_events (ts : List τ) : (events ts : Traced τ ε Unit).All P ↔ ∀ t ∈ ts, P t := Iff.rfl

@[simp]
theorem all_bind (x : Traced τ ε α) (f : α → Traced τ ε β) :
    (x >>= f).All P ↔ x.All P ∧ ∀ a, x.forget = .ok a → (f a).All P := by
  cases h : x.forget <;> simp [All, Bind.bind, Traced.bind, h, or_imp, forall_and]

end

end Traced

/-! ### Accesses to a buffer -/

/-- `count` bytes from offset `off` on are read or written, while the buffer has `size` bytes. -/
structure Access where
  off : ℕ
  count : ℕ
  size : ℕ
  deriving DecidableEq

/-- Every byte lies in the buffer. -/
def Access.Inside (a : Access) : Prop := ∀ i, i < a.count → a.off + i < a.size

theorem Access.inside_iff (a : Access) : a.Inside ↔ a.count = 0 ∨ a.off + a.count ≤ a.size := by
  constructor
  · intro h
    by_cases hzero : a.count = 0
    · exact Or.inl hzero
    · have hlast := h (a.count - 1) (by omega)
      exact Or.inr (by omega)
  · intro h i hi
    omega

theorem Access.inside_of_le {off count size : ℕ} (h : off + count ≤ size) :
    Access.Inside ⟨off, count, size⟩ :=
  (Access.inside_iff _).2 (Or.inr h)

theorem Access.le_of_inside {off count size : ℕ} (h : Access.Inside ⟨off, count, size⟩)
    (hpos : 0 < count) : off + count ≤ size :=
  ((Access.inside_iff _).1 h).resolve_left (Nat.ne_of_gt hpos)

/-- A little-endian field of `n` bytes, read through a pointer into a buffer of `size` bytes -/
def readField (m : ℕ → Byte) (size off n : ℕ) : Traced Access ε ℕ :=
  Traced.event ⟨off, n, size⟩ (readLe m off n)

@[simp]
theorem forget_readField (m : ℕ → Byte) (size off n : ℕ) :
    (readField m size off n : Traced Access ε ℕ).forget = pure (readLe m off n) := rfl

@[simp]
theorem all_readField (P : Access → Prop) (m : ℕ → Byte) (size off n : ℕ) :
    (readField m size off n : Traced Access ε ℕ).All P ↔ P ⟨off, n, size⟩ :=
  Traced.all_event _ _ _

end TracedLib
