import Ravl.Tracker.Results

/-!
# FINISHED and ERROR are final

ERROR is final without a condition. FINISHED is left by one kind of step alone:
a `std::exception` that reaches the handler in `advance` after the state was set,
from the completion callback, which is called inside the same `try` block, or
from the HTTP client's `submit`, when the request was advanced meanwhile.
-/

namespace Ravl.Tracker
open ByteLib FallibleLib TransitionLib

section
variable {Claims : Type}

/-- No `std::exception` reaches the handler of a finished request. -/
def NoLateException (request : Option (Request Claims)) : Action Claims → Prop
  | .callbackThrow _ isStd => isStd = false
  | .clientThrow => stateOf request ≠ .finished
  | _ => True

/-- A step that neither erases the request nor throws into its handler. -/
def Undisturbed (s : Slot Claims) (a : Action Claims) : Prop :=
  a ≠ .erase ∧ NoLateException s.request a

/-- The slot holds these claims, and its request is finished. -/
def FinishedWith (claims : Option Claims) (s : Slot Claims) : Prop :=
  ∃ r, s.request = some r ∧ r.state = .finished ∧ r.claims = claims

theorem Slot.advance_finished (s : Slot Claims) (r : Request Claims) (caller : Caller)
    (hf : r.state = .finished) : s.advance r caller = s.back caller := by
  unfold Slot.advance
  rw [hf]

theorem Slot.deliver_request (s : Slot Claims) (responses : HTTPResponses) (sync : Bool)
    (hs : s.core.Sound) (hpending : s.pending = true) :
    (s.deliver responses sync).request = s.request := by
  rw [s.deliver_eq responses sync hs hpending]
  rfl

theorem FinishedWith.step {claims : Option Claims} (s t : Slot Claims) (a : Action Claims)
    (hs : s.Consistent) (hf : FinishedWith claims s) (hquiet : Undisturbed s a)
    (h : s.lifeStep a = some t) : FinishedWith claims t := by
  obtain ⟨r, hr, hstate, hclaims⟩ := hf
  obtain ⟨-, hstep, hnew⟩ := s.lifeStep_some t a h
  have hsame (t : Slot Claims) (ht : t.request = s.request) : FinishedWith claims t :=
    ⟨r, ht.trans hr, hstate, hclaims⟩
  cases a with
  | submit options attestation httpClient callback =>
    have hblank := hs.1 (hnew ⟨_, _, _, _, rfl⟩)
    rw [hblank] at hr
    cases hr
  | advance =>
    cases hstep
    refine hsame _ ?_
    unfold Slot.publicAdvance
    rw [hr]
    dsimp only
    rw [Slot.advance_finished _ r _ hstate]
    exact hr
  | erase => exact absurd rfl hquiet.1
  | deliver responses =>
    obtain ⟨hpending, rfl⟩ := (guarded_some _ _ _).1 hstep
    exact hsame _ (s.deliver_request responses false hs.2 hpending)
  | clientDeliver responses =>
    obtain ⟨⟨hpending, -⟩, rfl⟩ := (guarded_some _ _ _).1 hstep
    exact hsame _ (Slot.deliver_request _ responses true hs.2 hpending)
  | clientReturn set =>
    obtain ⟨-, rfl⟩ := (guarded_some _ _ _).1 hstep
    have hr' : (s.leave .client).request = some r := hr
    unfold Slot.clientReturn
    rw [hr']
    exact ⟨{ r with httpRequestSetId := some set }, rfl, hstate, hclaims⟩
  | clientThrow =>
    exfalso
    apply hquiet.2
    rw [hr]
    exact hstate
  | proceed left sync =>
    obtain ⟨-, rfl⟩ := (guarded_some _ _ _).1 hstep
    have hr' : (s.leave (.delivery left sync)).request = some r := hr
    refine hsame _ ?_
    unfold Slot.proceed
    cases left with
    | zero =>
      dsimp only
      split <;> rfl
    | succ left =>
      rw [hr']
      dsimp only
      rw [Slot.advance_finished _ r _ hstate]
      rfl
  | callbackReturn caller =>
    obtain ⟨-, rfl⟩ := (guarded_some _ _ _).1 hstep
    have hr' : (s.leave (.callback caller)).request = some r := hr
    refine hsame _ ?_
    unfold Slot.readState
    rw [hr']
    rfl
  | callbackThrow caller isStd =>
    obtain ⟨-, rfl⟩ := (guarded_some _ _ _).1 hstep
    have hother : isStd = false := hquiet.2
    refine hsame _ ?_
    rw [hother]
    cases caller <;> simp [Slot.callbackThrow, Slot.lambdaThrows, Slot.leave]

def Failed (s : Slot Claims) : Prop := s.history ≠ [] ∧ stateOf s.request = .error

theorem stateOf_error {request : Option (Request Claims)} {r : Request Claims}
    (h : stateOf request = .error) (hr : request = some r) : r.state = .error := by
  rw [hr] at h
  exact h

theorem Slot.advance_error (s : Slot Claims) (r : Request Claims) (caller : Caller)
    (he : r.state = .error) :
    stateOf (s.advance r caller).request = .error := by
  unfold Slot.advance
  rw [he]
  rfl

theorem Slot.catchException_error (s : Slot Claims) :
    stateOf s.catchException.request = .error := by
  unfold Slot.catchException
  split
  next hnone =>
    show stateOf s.request = .error
    rw [hnone]
    rfl
  next => rfl

theorem Slot.lambdaThrows_error (s : Slot Claims) (isStd sync : Bool)
    (he : stateOf s.request = .error) : stateOf (s.lambdaThrows isStd sync).request = .error := by
  unfold Slot.lambdaThrows
  split
  · exact s.catchException_error
  · exact he

theorem Failed.step (s t : Slot Claims) (a : Action Claims) (hf : Failed s)
    (h : s.lifeStep a = some t) : Failed t := by
  obtain ⟨hne, he⟩ := hf
  obtain ⟨-, hstep, hnew⟩ := s.lifeStep_some t a h
  have hgrows := s.step_history t a hstep
  refine ⟨fun hempty => hne (List.suffix_nil.1 (hempty ▸ hgrows)), ?_⟩
  cases a with
  | submit options attestation httpClient callback => exact absurd (hnew ⟨_, _, _, _, rfl⟩) hne
  | advance =>
    cases hstep
    unfold Slot.publicAdvance
    split
    next => exact he
    next r hr => exact Slot.advance_error _ r .user (stateOf_error he hr)
  | erase =>
    cases hstep
    unfold Slot.erase
    split
    next => exact he
    next => rfl
  | deliver responses =>
    obtain ⟨-, rfl⟩ := (guarded_some _ _ _).1 hstep
    unfold Slot.deliver
    dsimp only
    split
    next => exact Slot.lambdaThrows_error _ _ _ he
    next => exact he
  | clientDeliver responses =>
    obtain ⟨-, rfl⟩ := (guarded_some _ _ _).1 hstep
    unfold Slot.deliver
    dsimp only
    split
    next => exact Slot.lambdaThrows_error _ _ _ he
    next => exact he
  | clientReturn set =>
    obtain ⟨-, rfl⟩ := (guarded_some _ _ _).1 hstep
    unfold Slot.clientReturn
    split
    next => exact he
    next r hr =>
      have hstate : r.state = .error := stateOf_error he hr
      exact hstate
  | clientThrow =>
    obtain ⟨-, rfl⟩ := (guarded_some _ _ _).1 hstep
    exact Slot.catchException_error _
  | proceed left sync =>
    obtain ⟨-, rfl⟩ := (guarded_some _ _ _).1 hstep
    unfold Slot.proceed
    split
    next => split <;> exact he
    next =>
      split
      next => exact Slot.lambdaThrows_error _ _ _ he
      next r hr => exact Slot.advance_error _ r _ (stateOf_error he hr)
  | callbackReturn caller =>
    obtain ⟨-, rfl⟩ := (guarded_some _ _ _).1 hstep
    unfold Slot.readState
    split <;> exact he
  | callbackThrow caller isStd =>
    obtain ⟨-, rfl⟩ := (guarded_some _ _ _).1 hstep
    cases isStd with
    | true => exact Slot.catchException_error _
    | false =>
      cases caller with
      | user => exact he
      | lambda left sync => exact Slot.lambdaThrows_error _ false sync he

theorem submitted_of_lt {c : Config Claims} (h : Reachable c) :
    ∀ id, id < c.nextRequestId → (c.slot id).history ≠ [] := by
  refine h.invariant_with Numbered (fun c => ∀ id, id < c.nextRequestId → (c.slot id).history ≠ [])
    (fun c l c' hn _ hs => hn.step c c' l hs) ?_ numbered_new
    (fun id hlt => absurd hlt (Nat.not_lt_zero id))
  intro c l c' hn hall _ hstep id hlt
  obtain ⟨-, hallow, s, hs, rfl⟩ := c.step_some c' l hstep
  rw [hn.httpClient] at hs
  have hlt' : id < c.nextAfter l.action := hlt
  by_cases hid : id = l.id
  · rw [hid, Config.slot_put_self]
    rw [hid] at hlt'
    cases ha : l.action with
    | submit options attestation httpClient callback =>
      rw [ha] at hs
      cases hs
      intro hempty
      have hfirst := (c.slot l.id).submit_history options attestation httpClient callback
      rw [hempty] at hfirst
      cases List.suffix_nil.1 hfirst
    | _ =>
      rw [ha] at hlt'
      intro hempty
      have hgrows := (c.slot l.id).step_history s l.action hs
      rw [hempty] at hgrows
      exact hall l.id hlt' (List.suffix_nil.1 hgrows)
  · rw [Config.slot_put_other _ _ _ _ hid]
    refine hall id ?_
    have hle : c.nextAfter l.action ≤ c.nextRequestId + 1 := by
      unfold Config.nextAfter
      split <;> omega
    by_contra hge
    apply hid
    cases ha : l.action with
    | submit options attestation httpClient callback =>
      simp only [Config.allows, ha, decide_eq_true_eq] at hallow
      omega
    | _ =>
      rw [ha] at hlt'
      exact absurd hlt' hge

/-- A run in which the request is not erased and no `std::exception` reaches its handler once
it is FINISHED: no completion callback leaves with one, no `submit` of the client does. -/
def Quiet (id : ℕ) (c : Config Claims) (l : Label Claims) : Prop :=
  l.id = id → l.action ≠ .erase ∧ NoLateException (c.requests id) l.action

theorem FinishedWith.result {claims : Option Claims} {s : Slot Claims} (h : FinishedWith claims s) :
    stateOf s.request = .finished ∧
      resultOf s.request = orThrow claims (.exception "claim extraction failed") := by
  obtain ⟨r, hr, hstate, rfl⟩ := h
  rw [hr]
  refine ⟨hstate, ?_⟩
  simp [resultOf, refuse, hstate, Bind.bind, Except.bind]

/-- FINISHED and the claims stay in every quiet run, ERROR stays in every run. -/
theorem finished_final (c c' : Config Claims) (id : ℕ) (hc : Reachable c) :
    (Steps Config.step (Quiet id) c c' → c.state id = .finished →
      c'.state id = .finished ∧ c'.result id = c.result id) ∧
    (Steps Config.step Any c c' → id < c.nextRequestId → c.state id = .error →
      c'.state id = .error) := by
  constructor
  · intro h hf
    have hslots : Steps Slot.lifeStep Undisturbed (c.slot id) (c'.slot id) :=
      steps_slot id (fun c a hq => hq rfl) h (reachable_numbered hc)
    cases hr : c.requests id with
    | none =>
      simp only [Config.state, hr] at hf
      cases hf
    | some r =>
      have hstate : r.state = .finished := by
        simpa only [Config.state, hr, stateOf] using hf
      have hbefore : FinishedWith r.claims (c.slot id) := ⟨r, hr, hstate, rfl⟩
      have hafter : FinishedWith r.claims (c'.slot id) :=
        hslots.invariant_with Slot.Consistent (FinishedWith r.claims)
          (fun s a t hs _ hstep => s.lifeStep_consistent t a hs hstep)
          (fun s a t hs hw hquiet hstep => FinishedWith.step s t a hs hw hquiet hstep)
          (reachable_consistent hc id) hbefore
      obtain ⟨-, hresult⟩ := hbefore.result
      obtain ⟨hstate', hresult'⟩ := hafter.result
      exact ⟨hstate', hresult'.trans hresult.symm⟩
  · intro h hlt he
    have hslots : Steps Slot.lifeStep Any (c.slot id) (c'.slot id) :=
      steps_slot id (fun _ _ _ => trivial) h (reachable_numbered hc)
    have hafter : Failed (c'.slot id) := hslots.invariant Failed
      (fun s a t hs _ hstep => Failed.step s t a hs hstep) ⟨submitted_of_lt hc id hlt, he⟩
    exact hafter.2

end

/-- The callback returns, or it throws and the request is advanced once more. -/
theorem finished_final_sample :
    (∃ c c' : Config Sgx.Claims, c.state 0 = .finished ∧ c'.frames 0 ≠ c.frames 0 ∧
      c'.state 0 = .finished ∧ c'.result 0 = c.result 0) ∧
    ∃ c c' : Config Sgx.Claims, c.state 0 = .error ∧ c'.history 0 ≠ c.history 0 ∧
      c'.state 0 = .error := by
  obtain ⟨claims, hreachable⟩ := sample_callback
  constructor
  · refine ⟨_, _, rfl, ?_, (finished_final (firstConfig (calledBackSlot partialOptions sampleApi
      claims)) _ 0 hreachable).1 (Steps.one (a := ⟨0, .callbackReturn .user⟩) ?_ rfl) rfl⟩
    · simp [firstConfig, calledBackSlot, Config.put, Config.slot, Slot.leave, Slot.back,
        Caller.rest, Slot.readState]
    · intro _
      exact ⟨by simp, trivial⟩
  · obtain ⟨c, c', hthrow, hadvance, he, hlt, hne⟩ : ∃ c c' : Config Sgx.Claims,
        (firstConfig (calledBackSlot partialOptions sampleApi claims)).step
          ⟨0, .callbackThrow .user true⟩ = some c ∧ c.step ⟨0, .advance⟩ = some c' ∧
        c.state 0 = .error ∧ 0 < c.nextRequestId ∧ c'.history 0 ≠ c.history 0 := by
      refine ⟨_, _, rfl, rfl, rfl, Nat.zero_lt_one, ?_⟩
      simp [firstConfig, calledBackSlot, Config.put, Config.slot, Slot.leave, Slot.back,
        Caller.rest, Slot.publicAdvance, Slot.advance, Slot.note, Slot.setRequest,
        Slot.callbackThrow, Slot.catchException]
    have hc : Reachable c := Steps.tail hreachable trivial hthrow
    exact ⟨c, c', he, hne,
      (finished_final c c' 0 hc).2 (Steps.one trivial hadvance) hlt he⟩

/-- The state the callback saw is gone when the callback throws. -/
theorem finished_not_final : ¬ ∀ (c c' : Config Sgx.Claims) (id : ℕ), Reachable c →
    Steps Config.step (fun _ l => l.action ≠ .erase) c c' → c.state id = .finished →
      c'.state id = .finished := by
  intro h
  obtain ⟨claims, hreachable⟩ := sample_callback
  have hstill := h _ _ 0 hreachable
    (Steps.one (a := ⟨0, .callbackThrow .user true⟩) (by simp) rfl) rfl
  cases hstill

end Ravl.Tracker
