import Ravl.Tracker.Erase
import Ravl.Tracker.WithClient

/-!
# The lambda that the client is in

The tracker's frames and the client's callback in progress say the same: as long as neither has
stopped, the lambda of a request is in progress if and only if the client has called it.
-/

namespace Ravl.Tracker
open ByteLib FallibleLib TransitionLib
open Http (AsyncClient Entry acceptedId)

section
variable {Claims : Type}

theorem Slot.submit_lambdas (options : Options) (attestation : Option (AttestationApi Claims))
    (httpClient callback : Bool) :
    lambdaFrames (({} : Slot Claims).submit options attestation httpClient callback).frames = 0 := by
  unfold Slot.submit Slot.advance Slot.prepareEndorsements
  dsimp only
  split
  next => rfl
  next =>
    split
    next => rfl
    next => rfl
    next => exact Nat.le_zero.1 (Slot.verify_kept _ _ .user rfl).frames
    next => split <;> rfl

/-- Only the client calls the lambda. -/
theorem Slot.step_lambdas (s t : Slot Claims) (a : Action Claims) (hown : a.isClients = false)
    (hlater : ∀ o att k cb, a ≠ .submit o att k cb) (hs : s.core.Sound) (hasync : s.Async)
    (h : s.step false a = some t) : lambdaFrames t.frames ≤ lambdaFrames s.frames := by
  -- what is left of a call is a frame of its own
  have hleft {f : Frame} (hf : f ∈ s.frames) :
      lambdaFrames (s.leave f).frames + (if f.isLambda then 1 else 0) = lambdaFrames s.frames :=
    (lambdaFrames_leave f s.frames hf).symm
  cases a with
  | submit options attestation httpClient callback => exact absurd rfl (hlater _ _ _ _)
  | advance =>
    cases h
    unfold Slot.publicAdvance
    split
    next => exact Nat.le_refl _
    next r hr => exact (Slot.advance_kept (s.note .advanced) r .user hr (hs.begun r hr)).frames
  | erase =>
    cases h
    unfold Slot.erase
    split
    next => exact Nat.le_refl _
    next => exact Nat.le_refl _
  | proceed left sync =>
    obtain ⟨hf, rfl⟩ := (guarded_some _ _ _).1 h
    obtain rfl : sync = false := hasync _ hf
    refine Nat.le_trans ?_ (Nat.le_of_eq (hleft hf))
    unfold Slot.proceed
    split
    next => exact Nat.le_add_right _ _
    next left =>
      split
      next =>
        rw [Slot.lambdaThrows_frames]
        exact Nat.le_add_right _ _
      next r hr => exact (Slot.advance_kept _ r (.lambda left false) hr (hs.begun r hr)).frames
  | callbackReturn caller =>
    obtain ⟨hf, rfl⟩ := (guarded_some _ _ _).1 h
    rw [← hleft hf, Frame.callback_isLambda, ← lambdaFrames_back]
    unfold Slot.readState
    split <;> exact Nat.le_refl _
  | callbackThrow caller isStd =>
    obtain ⟨hf, rfl⟩ := (guarded_some _ _ _).1 h
    rw [← hleft hf, Frame.callback_isLambda]
    unfold Slot.callbackThrow
    cases isStd with
    | true =>
      rw [← lambdaFrames_back]
      exact Nat.le_of_eq (congrArg (fun frames => lambdaFrames (caller.rest ++ frames))
        (Slot.catchException_frames _))
    | false =>
      cases caller with
      | user => exact Nat.le_add_right _ _
      | lambda left sync =>
        rw [Slot.lambdaThrows_frames]
        exact Nat.le_add_right _ _
  | deliver | clientDeliver | clientReturn | clientThrow => cases hown

end

section
variable {Claims σ γ α ρ : Type} {C : AsyncClient σ γ α ρ}

/-- The lambda of a request is in progress, once, if and only if the client is in it. -/
def Joint.Calls (C : AsyncClient σ γ α ρ) (s : Joint Claims σ γ) : Prop :=
  s.tracker.stopped = false → C.stopped s.client = false → ∀ id,
    lambdaFrames (s.tracker.frames id) = if s.callee C = some id then 1 else 0

namespace Joint.Calls
variable {s t : Joint Claims σ γ}

theorem start : (Joint.start C : Joint Claims σ γ).Calls C := by
  intro _ _ id
  have hnone : (Joint.start C : Joint Claims σ γ).callee C = none := by
    rw [Joint.callee, Joint.start, C.first_calling]
    rfl
  rw [hnone]
  rfl

theorem running {c c' : Config Claims} {l : Label Claims} (hstep : c.step l = some c') : c.stopped = false :=
  (c.step_some c' l hstep).1

/-- A step of the tracker that is not the client's ends a lambda or leaves all as they are. -/
theorem lambdas_le (hs : s.Linked C) {l : Label Claims} (hown : l.action.isClients = false)
    {c : Config Claims} (hc : s.tracker.step l = some c) :
    lambdaFrames (c.frames l.id) ≤ lambdaFrames (s.tracker.frames l.id) ∧
      ∀ id, id ≠ l.id → lambdaFrames (c.frames id) = lambdaFrames (s.tracker.frames id) := by
  obtain ⟨hslot, hothers⟩ := Config.step_slot hs.reachable hc
  refine ⟨?_, fun id hid => congrArg (fun slot => lambdaFrames slot.frames) (hothers id hid)⟩
  show lambdaFrames (c.slot l.id).frames ≤ lambdaFrames (s.tracker.slot l.id).frames
  obtain ⟨o, att, k, cb, -, hnew⟩ | hlater := Config.step_submitted hs.reachable hc
  · rw [hnew, Slot.submit_lambdas]
    exact Nat.zero_le _
  · exact Slot.step_lambdas _ _ l.action hown hlater (reachable_consistent hs.reachable l.id).2
      (hs.concerns l.id).async hslot

theorem own (h : s.Calls C) (hs : s.Linked C) {l : Label Claims} (hown : l.action.isClients = false)
    {c : Config Claims} (hc : s.tracker.step l = some c)
    (hgoes : ¬ s.LambdaEnds C l.id c) : Joint.Calls C { s with tracker := c } := by
  intro hrun hgood id
  have hold := h (running hc) hgood id
  obtain ⟨hle, hothers⟩ := lambdas_le hs hown hc
  show lambdaFrames (c.frames id) = if s.callee C = some id then 1 else 0
  by_cases hid : id = l.id
  · subst hid
    rw [hold] at hle
    by_cases hcallee : s.callee C = some l.id
    · have hleft : lambdaFrames (c.frames l.id) ≠ 0 := fun hzero => hgoes ⟨hrun, hcallee, hzero⟩
      rw [if_pos hcallee] at hle ⊢
      omega
    · rw [if_neg hcallee] at hle ⊢
      omega
  · rw [hothers id hid]
    exact hold

theorem ended (h : s.Calls C) (hs : s.Linked C) {l : Label Claims} {c : Config Claims} {a : α} {client : σ}
    (hown : l.action.isClients = false) (hc : s.tracker.step l = some c) (hends : s.LambdaEnds C l.id c)
    (hstep : C.step s.client a = some client) (hover : C.calling client = none ∨ C.stopped client = true) :
    Joint.Calls C { s with tracker := c, client, given := C.record s.client s.given a } := by
  intro hrun hgood id
  replace hgood : C.stopped client = false := hgood
  have hnone : C.calling client = none := hover.resolve_right (by rw [hgood]; exact Bool.false_ne_true)
  have hover' : Joint.callee C { s with tracker := c, client, given := C.record s.client s.given a } = none := by
    rw [Joint.callee, hnone]
    rfl
  rw [hover', if_neg (by simp)]
  obtain ⟨-, hcallee, hzero⟩ := hends
  by_cases hid : id = l.id
  · exact hid ▸ hzero
  · show lambdaFrames (c.frames id) = 0
    have hold := h (running hc) (C.goes _ _ _ hstep) id
    rw [hcallee, if_neg (fun heq => hid (Option.some.inj heq).symm)] at hold
    rw [(lambdas_le hs hown hc).2 id hid]
    exact hold

/-- The callee is as before, unless the client calls back. -/
theorem callee_kept (hs : s.Linked C) {a : α} {client : σ} (hfree : C.ending a = true → s.callee C = none)
    (hstep : C.step s.client a = some client) (hgood : C.stopped client = false)
    (hquiet : ∀ number entries, C.history client ≠ .calledBack number entries :: C.history s.client) :
    (C.calling client).bind (fun number => s.owners[number]?.join) = s.callee C := by
  obtain ⟨number, entries, hcalled, -⟩ | ⟨-, hkept⟩ := C.calls _ _ _ _ hs.kept hstep
  · exact absurd hcalled (hquiet number entries)
  · cases ha : C.ending a with
    | false => rw [hkept ha, Joint.callee]
    | true =>
      obtain ⟨-, hnone | hbad⟩ := C.ended _ _ _ hstep ha
      · rw [hnone, hfree ha]
        rfl
      · rw [hgood] at hbad
        cases hbad

/-- Before the client calls back it is in no callback, and then in the one of the set's owner. -/
theorem callee_called (hs : s.Linked C) {a : α} {client : σ} (hstep : C.step s.client a = some client)
    {number : ℕ} {entries : List Entry}
    (hhistory : C.history client = .calledBack number entries :: C.history s.client) :
    s.callee C = none ∧
      (C.calling client).bind (fun number => s.owners[number]?.join) = s.owners[number]?.join := by
  obtain ⟨n, es, hcalled, hnone, hcalling⟩ | ⟨hquiet, -⟩ := C.calls _ _ _ _ hs.kept hstep
  · obtain ⟨heq, -⟩ := List.cons.inj (hcalled.symm.trans hhistory)
    obtain ⟨rfl, rfl⟩ := Http.Event.calledBack.inj heq
    exact ⟨by rw [Joint.callee, hnone, Option.bind_none], by rw [hcalling, Option.bind_some]⟩
  · exact absurd hhistory (hquiet number entries)

/-- The set in whose callback the client is had its owner before this submission. -/
theorem callee_submitted (hs : s.Linked C) (owner : Option ℕ) {a : α} {client : σ} {rs : HTTPRequests}
    {callback : Bool} (hstep : C.step s.client a = some client) (ha : C.submission a = some (rs, callback))
    (hgood : C.stopped client = false) : Joint.callee C { s with
      client, given := C.record s.client s.given a, owners := s.owners ++ [owner] } = s.callee C := by
  have hends : C.ending a = false := by
    by_contra hends
    rw [C.ending_submits a (Bool.eq_true_of_not_eq_false hends)] at ha
    cases ha
  have hquiet (number : ℕ) (entries : List Entry) :
      C.history client ≠ .calledBack number entries :: C.history s.client := by
    intro hcalled
    have hnone := calledBack_taken (C.submitted _ _ _ _ rs callback hs.kept hstep ha).2
    rw [hcalled] at hnone
    simp [calledBack] at hnone
  have hkept := callee_kept hs (fun htrue => by rw [hends] at htrue; cases htrue) hstep hgood hquiet
  rw [← hkept, Joint.callee]
  obtain ⟨n, entries, hcalled, -⟩ | ⟨-, hcalling⟩ := C.calls _ _ _ _ hs.kept hstep
  · exact absurd hcalled (hquiet n entries)
  · dsimp only
    rw [hcalling hends]
    cases hnumber : C.calling s.client with
    | none => rfl
    | some number =>
      have hlt := C.called _ _ number hs.kept hnumber
      rw [← hs.length] at hlt
      simp only [Option.bind_some, List.getElem?_append_left hlt]

theorem delivered (h : s.Calls C) (hs : s.Linked C) {a : α} {client : σ} {id : ℕ} {responses : HTTPResponses}
    {tracker : Config Claims} (hstep : C.step s.client a = some client) (hbefore : s.callee C = none)
    (hafter : Joint.callee C { s with client, given := C.record s.client s.given a, tracker } = some id)
    (hdeliver : s.tracker.step ⟨id, .deliver responses⟩ = some tracker) :
    Joint.Calls C { s with client, given := C.record s.client s.given a, tracker } := by
  intro hrun hgood id'
  have hold := h (running hdeliver) (C.goes _ _ _ hstep) id'
  rw [hbefore, if_neg (by simp)] at hold
  obtain ⟨hslot, hothers⟩ := Config.step_slot hs.reachable hdeliver
  rw [hafter]
  show lambdaFrames (tracker.slot id').frames = _
  by_cases hid : id' = id
  · subst hid
    obtain ⟨hpending, hslot⟩ := (guarded_some _ _ _).1 hslot
    rw [if_pos rfl, ← hslot, Slot.deliver_eq _ _ _ (reachable_consistent hs.reachable id').2 hpending]
    exact (lambdaFrames_cons (.delivery 2 false) _).trans (congrArg (· + 1) hold)
  · rw [if_neg fun heq => hid (Option.some.inj heq).symm, hothers id' hid]
    exact hold

theorem client (h : s.Calls C) (hs : s.Linked C) {owner : Option ℕ} {a : α}
    (hfree : C.ending a = true → s.callee C = none) (hmoves : s.ClientMoves C owner a t) : t.Calls C := by
  cases hmoves with
  | submitted rs callback client hstep ha =>
    intro hrun hgood id
    rw [callee_submitted hs owner hstep ha hgood]
    exact h hrun (C.goes _ _ _ hstep) id
  | quiet client hstep ha hhistory =>
    intro hrun hgood id
    have hcallee : Joint.callee C { s with client, given := C.record s.client s.given a } = s.callee C :=
      callee_kept hs hfree hstep hgood fun number entries hcalled =>
        List.cons_ne_self _ _ (hcalled.symm.trans hhistory)
    rw [hcallee]
    exact h hrun (C.goes _ _ _ hstep) id
  | theirs client number entries hstep ha hhistory howner =>
    intro hrun hgood id
    obtain ⟨hbefore, hcallee⟩ := callee_called hs hstep hhistory
    have hafter : Joint.callee C { s with client, given := C.record s.client s.given a } = none :=
      hcallee.trans (Option.eq_none_iff_forall_ne_some.2 fun id' hid' => howner id' (join_eq.1 hid'))
    rw [hafter, ← hbefore]
    exact h hrun (C.goes _ _ _ hstep) id
  | ours client number entries id tracker hstep ha hhistory howner hdeliver =>
    obtain ⟨hbefore, hcallee⟩ := callee_called hs hstep hhistory
    exact h.delivered hs hstep hbefore (hcallee.trans (join_eq.2 howner)) hdeliver

/-- `submit` of the client returns or throws; neither ends a lambda. -/
theorem clientReturned_lambdas {c c' : Config Claims} (hc : Reachable c) {id : ℕ} {set : Option ℕ}
    (hstep : c.step ⟨id, returnAction set⟩ = some c') :
    lambdaFrames (c'.slot id).frames = lambdaFrames (c.slot id).frames := by
  have hleft (hf : .client ∈ (c.slot id).frames) :
      lambdaFrames ((c.slot id).leave .client).frames = lambdaFrames (c.slot id).frames :=
    (lambdaFrames_leave .client _ hf).symm
  obtain ⟨hslot, -⟩ := Config.step_slot hc hstep
  cases set with
  | some set =>
    obtain ⟨hf, heq⟩ := (guarded_some _ _ _).1 hslot
    rw [← heq, ← hleft hf]
    unfold Slot.clientReturn
    split <;> rfl
  | none =>
    obtain ⟨⟨-, hf⟩, heq⟩ := (guarded_some _ _ _).1 hslot
    rw [← heq, Slot.catchException_frames, ← hleft hf]
    rfl

theorem step (h : s.Calls C) (hs : s.Linked C) {a : JointAction Claims α} (hstep : s.step C a = some t) :
    t.Calls C := by
  cases Joint.moves C hs.kept hstep with
  | own l c hown hc hgoes => exact h.own hs hown hc hgoes
  | ended l c b client hown hc hends hb hallowed hclient hhistory hover =>
    exact h.ended hs hown hc hends hclient hover
  | returned id number c hmine hc =>
    intro hrun hgood id'
    have hold := h (running hc) hgood id'
    show lambdaFrames (c.slot id').frames = if s.callee C = some id' then 1 else 0
    by_cases hid : id' = id
    · subst hid
      exact (clientReturned_lambdas hs.reachable hc).trans hold
    · rw [(Config.step_slot hs.reachable hc).2 id' hid]
      exact hold
  | client _ owner b t hb hfree howner hmoves => exact h.client hs hfree hmoves

end Joint.Calls

theorem Joint.Reached.calls {s : Joint Claims σ γ} (h : s.Reached C) : s.Calls C :=
  Steps.invariant_with (Joint.Linked C) (Joint.Calls C) (fun _ _ _ hs hallowed hstep => hs.step hallowed hstep)
    (fun _ _ _ hs h _ hstep => h.step hs hstep) h .start .start

end

end Ravl.Tracker
