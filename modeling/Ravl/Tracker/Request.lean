import Ravl.Tracker.Model

/-!
# One request of the tracker

A run of the tracker, seen from one id, is a run of that id's slot: every step
is about one id and leaves the slots of the others alone. What holds in every
run of a slot therefore holds for every request in every run of the tracker,
whatever other requests do in between.
-/

namespace Ravl.Tracker
open ByteLib FallibleLib TransitionLib

section
variable {Claims : Type}

/-! ### Histories -/

def deliveredIn : List (Event Claims) → Option HTTPResponses
  | [] => none
  | .delivered responses :: _ => some responses
  | _ :: older => deliveredIn older

def Event.isVerified : Event Claims → Bool
  | .verified _ _ => true
  | _ => false

def Event.isCallback : Event Claims → Bool
  | .calledBack => true
  | _ => false

def verifyCalls (h : List (Event Claims)) : ℕ := h.countP Event.isVerified

def callbackCalls (h : List (Event Claims)) : ℕ := h.countP Event.isCallback

/-- What an event has to find in the older ones. -/
def Justified : Event Claims → List (Event Claims) → Prop
  | .submitted _ _, older => older = []
  | .delivered _, older => deliveredIn older = none
  | .verified responses claims, older =>
    verifyCalls older = 0 ∧ responses = (deliveredIn older).getD [] ∧
      ∃ options attestation, .submitted options (some attestation) ∈ older ∧
        claims = (attestation.verify options (some responses)).toOption
  | .calledBack, older => callbackCalls older = 0 ∧ ∃ responses claims,
      .verified responses (some claims) ∈ older
  | _, _ => True

def Lawful (h : List (Event Claims)) : Prop := ∀ e older, e :: older <:+ h → Justified e older

theorem lawful_cons (e : Event Claims) (h : List (Event Claims)) :
    Lawful (e :: h) ↔ Justified e h ∧ Lawful h := by
  constructor
  · intro hl
    exact ⟨hl e h List.suffix_rfl, fun e' older hs => hl e' older (hs.trans (List.suffix_cons e h))⟩
  · intro ⟨he, hl⟩ e' older hs
    rcases List.suffix_cons_iff.1 hs with heq | hs
    · cases heq
      exact he
    · exact hl e' older hs

theorem Lawful.verifyCalls_le {h : List (Event Claims)} (hl : Lawful h) : verifyCalls h ≤ 1 := by
  induction h with
  | nil => simp [verifyCalls]
  | cons e h ih =>
    obtain ⟨he, hl⟩ := (lawful_cons e h).1 hl
    have hle := ih hl
    cases e with
    | verified responses claims =>
      have hnone : verifyCalls h = 0 := he.1
      simp only [verifyCalls] at hnone ⊢
      simp [List.countP_cons, Event.isVerified, hnone]
    | _ => simpa [verifyCalls, List.countP_cons, Event.isVerified] using hle

theorem Lawful.callbackCalls_le {h : List (Event Claims)} (hl : Lawful h) :
    callbackCalls h ≤ 1 := by
  induction h with
  | nil => simp [callbackCalls]
  | cons e h ih =>
    obtain ⟨he, hl⟩ := (lawful_cons e h).1 hl
    have hle := ih hl
    cases e with
    | calledBack =>
      have hnone : callbackCalls h = 0 := he.1
      simp only [callbackCalls] at hnone ⊢
      simp [List.countP_cons, Event.isCallback, hnone]
    | _ => simpa [callbackCalls, List.countP_cons, Event.isCallback] using hle

theorem Lawful.callbackCalls_eq_zero {h : List (Event Claims)} (hl : Lawful h)
    (hnone : verifyCalls h = 0) : callbackCalls h = 0 := by
  by_contra hne
  obtain ⟨e, he, hcb⟩ := List.countP_pos_iff.1 (Nat.pos_of_ne_zero hne)
  obtain ⟨newer, older, rfl⟩ := List.append_of_mem he
  cases e with
  | calledBack =>
    obtain ⟨-, responses, claims, hmem⟩ := hl _ _ (List.suffix_append newer _)
    have hlater : .verified responses (some claims) ∈ newer ++ Event.calledBack :: older := by
      simp [hmem]
    have hpos : 0 < verifyCalls (newer ++ Event.calledBack :: older) :=
      List.countP_pos_iff.2 ⟨_, hlater, rfl⟩
    omega
  | _ => cases hcb

/-! ### The steps of one slot -/

/-- A step of a slot as runs of the tracker have them: an id is submitted once, and nothing
follows a fault. -/
def Slot.lifeStep (s : Slot Claims) (a : Action Claims) : Option (Slot Claims) :=
  match s.fault, a with
  | some _, _ => none
  | none, .submit _ _ _ _ => if s.history.isEmpty then s.step false a else none
  | none, _ => s.step false a

theorem blank_step (a : Action Claims) (s : Slot Claims)
    (hsubmit : ∀ o t c k, a ≠ .submit o t c k) (h : ({} : Slot Claims).step false a = some s) :
    s = {} := by
  cases a with
  | submit o t c k => exact absurd rfl (hsubmit o t c k)
  | advance => exact (Option.some.inj h).symm
  | erase => exact (Option.some.inj h).symm
  | _ => simp [Slot.step, guarded] at h

/-- Ids from the next one on are unused, and the tracker goes on only without a fault. -/
structure Numbered (c : Config Claims) : Prop where
  httpClient : c.httpClient = false
  unused : ∀ id, c.nextRequestId ≤ id → c.slot id = {}
  running : c.stopped = false → ∀ id, (c.slot id).fault = none

theorem numbered_new : Numbered ({} : Config Claims) := ⟨rfl, fun _ _ => rfl, fun _ _ => rfl⟩

theorem Config.step_some (c c' : Config Claims) (l : Label Claims) (h : c.step l = some c') :
    c.stopped = false ∧ c.allows l = true ∧
      ∃ s, (c.slot l.id).step c.httpClient l.action = some s ∧
        c' = { c with nextRequestId := c.nextAfter l.action }.put l.id s := by
  unfold Config.step at h
  split at h
  next hgo =>
    obtain ⟨s, hs, rfl⟩ := Option.map_eq_some_iff.1 h
    exact ⟨hgo.1, hgo.2, s, hs, rfl⟩
  next => cases h

theorem Numbered.step (c c' : Config Claims) (l : Label Claims) (hc : Numbered c)
    (h : c.step l = some c') : Numbered c' := by
  obtain ⟨hrun, hallow, s, hs, rfl⟩ := c.step_some c' l h
  rw [hc.httpClient] at hs
  have hother (id : ℕ) (hne : id ≠ l.id) :
      ({ c with nextRequestId := c.nextAfter l.action }.put l.id s).slot id = c.slot id :=
    Config.slot_put_other _ _ _ _ hne
  refine ⟨hc.httpClient, ?_, ?_⟩
  · intro id hid
    have hle : c.nextRequestId ≤ c.nextAfter l.action := by
      unfold Config.nextAfter
      split <;> omega
    have hlate : c.nextAfter l.action ≤ id := hid
    by_cases hne : id = l.id
    · rw [hne, Config.slot_put_self]
      rw [hc.unused l.id (by omega)] at hs
      refine blank_step l.action s ?_ hs
      intro o t cl k ha
      simp only [Config.allows, ha, decide_eq_true_eq] at hallow
      simp only [Config.nextAfter, ha] at hlate
      omega
    · rw [hother id hne]
      exact hc.unused id (by omega)
  · intro hstop id
    by_cases hne : id = l.id
    · have hnone : s.fault.isSome = false := hstop
      rw [hne, Config.slot_put_self]
      simpa using hnone
    · rw [hother id hne]
      exact hc.running hrun id

theorem steps_slot {ok : Config Claims → Label Claims → Prop}
    {okSlot : Slot Claims → Action Claims → Prop} (id : ℕ)
    (hok : ∀ c a, ok c ⟨id, a⟩ → okSlot (c.slot id) a) {c c' : Config Claims}
    (h : Steps Config.step ok c c') (hc : Numbered c) :
    Steps Slot.lifeStep okSlot (c.slot id) (c'.slot id) := by
  refine h.project (fun c => c.slot id) (fun l => if l.id = id then some l.action else none)
    Numbered (fun c l c' hn _ hs => hn.step c c' l hs) ?_ ?_ hc
  · intro c l c' _ hpick hnext
    obtain ⟨-, -, s, -, rfl⟩ := c.step_some c' l hnext
    have hne : id ≠ l.id := by
      intro heq
      subst heq
      simp at hpick
    exact Config.slot_put_other _ _ _ _ hne
  · intro c l c' a hn hokl hpick hnext
    obtain ⟨hrun, hallow, s, hs, rfl⟩ := c.step_some c' l hnext
    obtain ⟨hid, rfl⟩ : l.id = id ∧ l.action = a := by
      split at hpick
      next hid => exact ⟨hid, Option.some.inj hpick⟩
      next => cases hpick
    subst hid
    refine ⟨hok c l.action hokl, ?_⟩
    rw [Config.slot_put_self]
    rw [hn.httpClient] at hs
    unfold Slot.lifeStep
    rw [hn.running hrun l.id]
    split
    next heq => cases heq
    next o t cl k _ ha =>
      have hlate : c.nextRequestId ≤ l.id := by
        simp only [Config.allows, ha, decide_eq_true_eq] at hallow
        omega
      rw [if_pos (by rw [hn.unused l.id hlate]; rfl)]
      exact hs
    next => exact hs

theorem reachable_numbered {c : Config Claims} (h : Reachable c) : Numbered c :=
  h.invariant Numbered (fun c l c' hn _ hs => hn.step c c' l hs) numbered_new

theorem reachable_slot {c : Config Claims} (h : Reachable c) (id : ℕ) :
    Steps Slot.lifeStep Any {} (c.slot id) :=
  steps_slot id (fun _ _ _ => trivial) h numbered_new

end

end Ravl.Tracker
