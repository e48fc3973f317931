import Ravl.Tracker.Order

/-!
# Public calls of `advance` between submission and completion

A request whose responses were delivered completes: the lambda has two calls of
`advance` to make, and they are enough from any state. If `verify` met the
delivery, what it comes to is fixed by the attestation, the options and the
responses, whatever else was called in between.
-/

namespace Ravl.Tracker
open ByteLib FallibleLib TransitionLib

section
variable {Claims : Type}

/-- How many calls of `advance` the state stands for. -/
def RequestState.rank : RequestState → ℕ
  | .submitted => 0
  | .waitingForEndorsements => 0
  | .haveEndorsements => 1
  | .finished => 2
  | .error => 2

theorem RequestState.completed_of_rank (state : RequestState) (h : 2 ≤ state.rank) :
    state = .finished ∨ state = .error := by
  cases state with
  | finished => exact Or.inl rfl
  | error => exact Or.inr rfl
  | _ => simp [RequestState.rank] at h

/-! ### What a call of `advance` leaves -/

structure Progress (s t : Slot Claims) (r r' : Request Claims) (caller : Caller) : Prop where
  further : r.state.rank + 1 ≤ r'.state.rank ∨ 2 ≤ r'.state.rank
  error : r.state = .error → r'.state = .error
  failed : r'.state = .error → r.state = .error ∨ ∃ responses, .verified responses none ∈ t.history
  callback : .callbackThrew ∈ t.history → .callbackThrew ∈ s.history
  delivered : deliveredIn t.history = deliveredIn s.history
  frames : ∀ f ∈ s.frames, f ∈ t.frames
  caller : 2 ≤ r'.state.rank ∨ ∀ f ∈ caller.rest, f ∈ t.frames

theorem Slot.advance_progress (s : Slot Claims) (r : Request Claims) (caller : Caller)
    (hr : s.request = some r) (hbegun : r.state ≠ .submitted) (hattestation : r.attestation ≠ none)
    (hfault : (s.advance r caller).fault = none) :
    ∃ r', (s.advance r caller).request = some r' ∧ Progress s (s.advance r caller) r r' caller := by
  have hframes : ∀ f ∈ s.frames, f ∈ caller.rest ++ s.frames :=
    fun f hf => List.mem_append_right caller.rest hf
  have hcaller : ∀ f ∈ caller.rest, f ∈ caller.rest ++ s.frames :=
    fun f hf => List.mem_append_left s.frames hf
  unfold Slot.advance at hfault ⊢
  cases hstate : r.state with
  | submitted => exact absurd hstate hbegun
  | error =>
    exact ⟨_, rfl, Or.inr (Nat.le_refl 2), fun _ => rfl, fun _ => Or.inl hstate, id, rfl, hframes,
      Or.inl (Nat.le_refl 2)⟩
  | waitingForEndorsements =>
    exact ⟨_, rfl, Or.inl (by rw [hstate]; exact Nat.le_refl 1), by simp [hstate],
      fun h => by simp at h, id, rfl, hframes, Or.inr hcaller⟩
  | finished =>
    exact ⟨r, hr, Or.inr (by rw [hstate]; exact Nat.le_refl 2), id, by simp [hstate], id, rfl,
      hframes,
      Or.inr hcaller⟩
  | haveEndorsements =>
    rw [hstate] at hfault
    obtain ⟨attestation, hatt⟩ := Option.ne_none_iff_exists'.1 hattestation
    unfold Slot.verify at hfault ⊢
    rw [hatt] at hfault ⊢
    dsimp only at hfault ⊢
    split at hfault
    next claims _ =>
      split
      · refine ⟨_, rfl, Or.inr (Nat.le_refl 2), by simp [hstate], fun h => by simp at h, ?_, rfl, ?_,
          Or.inl (Nat.le_refl 2)⟩
        · simp [Slot.enter, Slot.note, Slot.setRequest]
        · exact fun f hf => List.mem_cons_of_mem _ hf
      · refine ⟨_, rfl, Or.inr (Nat.le_refl 2), by simp [hstate], fun h => by simp at h, ?_, rfl,
          hframes, Or.inl (Nat.le_refl 2)⟩
        simp [Slot.back, Slot.note, Slot.setRequest]
    next =>
      refine ⟨_, rfl, Or.inr (Nat.le_refl 2), by simp [hstate], fun _ => Or.inr
        ⟨s.responses.getD [], List.mem_cons_self⟩, ?_, rfl, hframes, Or.inl (Nat.le_refl 2)⟩
      simp [Slot.back, Slot.note, Slot.setRequest]
    next => cases hfault

/-! ### Every delivery is followed to the end -/

/-- The lambda will have made enough calls. -/
def Completing (r : Request Claims) (frames : List Frame) : Prop :=
  2 ≤ r.state.rank ∨ ∃ left sync, .delivery left sync ∈ frames ∧ 2 ≤ left + r.state.rank

theorem Completing.mono {r r' : Request Claims} {frames frames' : List Frame}
    (hc : Completing r frames) (hrank : r.state.rank ≤ r'.state.rank)
    (hframes : ∀ left sync, .delivery left sync ∈ frames → .delivery left sync ∈ frames') :
    Completing r' frames' := by
  rcases hc with hdone | ⟨left, sync, hf, hle⟩
  · exact Or.inl (hdone.trans hrank)
  · exact Or.inr ⟨left, sync, hframes left sync hf, by omega⟩

structure Slot.Outcome (s : Slot Claims) : Prop where
  present : .erased ∉ s.history → s.request ≠ none
  failed : ∀ r, s.request = some r → r.state = .error → .clientThrew ∈ s.history ∨
    .callbackThrew ∈ s.history ∨ ∃ responses, .verified responses none ∈ s.history
  threw : .callbackThrew ∈ s.history → stateOf s.request = .error
  completes : deliveredIn s.history ≠ none → ∀ r, s.request = some r → Completing r s.frames

/-- A call of `advance` was made for a caller whose frame had been left. -/
theorem Slot.Outcome.advance {s s' : Slot Claims} (ho : s.Outcome) (r : Request Claims)
    (caller : Caller) (hr : s.request = some r) (hr' : s'.request = some r)
    (hbegun : r.state ≠ .submitted) (hattestation : r.attestation ≠ none)
    (hhistory : s.history <:+ s'.history)
    (hcallback : .callbackThrew ∈ s'.history → .callbackThrew ∈ s.history)
    (hdelivered : deliveredIn s'.history = deliveredIn s.history)
    (hframes : ∀ left sync, .delivery left sync ∈ s.frames →
      .delivery left sync ∈ s'.frames ∨ ∃ n, left = n + 1 ∧ .delivery n sync ∈ caller.rest)
    (hfault : (s'.advance r caller).fault = none) : (s'.advance r caller).Outcome := by
  obtain ⟨r', hr'', hp⟩ := s'.advance_progress r caller hr' hbegun hattestation hfault
  have hgrows := hhistory.trans (s'.advance_history r caller)
  refine ⟨fun _ => by simp [hr''], ?_, ?_, ?_⟩
  · intro _ hsome herror
    cases hr''.symm.trans hsome
    rcases hp.failed herror with hold | hverified
    · rcases ho.failed r hr hold with hthrew | hthrew | ⟨responses, hverified⟩
      · exact Or.inl (hgrows.mem hthrew)
      · exact Or.inr (Or.inl (hgrows.mem hthrew))
      · exact Or.inr (Or.inr ⟨responses, hgrows.mem hverified⟩)
    · exact Or.inr (Or.inr hverified)
  · intro hmem
    have herror := ho.threw (hcallback (hp.callback hmem))
    rw [hr'']
    exact hp.error (stateOf_error herror hr)
  · intro hnow _ hsome
    cases hr''.symm.trans hsome
    have hrank : r.state.rank ≤ r'.state.rank ∨ 2 ≤ r'.state.rank :=
      hp.further.imp_left (fun h => by omega)
    rw [hp.delivered, hdelivered] at hnow
    rcases ho.completes hnow r hr with hdone | ⟨left, sync, hf, hle⟩
    · left
      omega
    · rcases hframes left sync hf with hkept | ⟨n, rfl, hrest⟩
      · rcases hrank with hrank | hdone
        · exact Or.inr ⟨left, sync, hp.frames _ hkept, by omega⟩
        · exact Or.inl hdone
      · rcases hp.caller with hdone | hback
        · exact Or.inl hdone
        · rcases hp.further with hfurther | hdone
          · exact Or.inr ⟨n, sync, hback _ hrest, by omega⟩
          · exact Or.inl hdone

theorem Slot.Outcome.same {s t : Slot Claims} (ho : s.Outcome) (r r' : Request Claims)
    (hr : s.request = some r) (hr' : t.request = some r') (hstate : r'.state = r.state)
    (hhistory : t.history = s.history)
    (hframes : ∀ left sync, .delivery left sync ∈ s.frames → .delivery left sync ∈ t.frames) :
    t.Outcome where
  present := fun _ => by simp [hr']
  failed := by
    intro _ hsome herror
    cases hr'.symm.trans hsome
    rw [hhistory]
    exact ho.failed r hr (hstate.symm.trans herror)
  threw := by
    rw [hhistory, hr']
    exact fun hmem => hstate.trans (stateOf_error (ho.threw hmem) hr)
  completes := by
    intro hdelivered _ hsome
    cases hr'.symm.trans hsome
    rw [hhistory] at hdelivered
    exact (ho.completes hdelivered r hr).mono (by rw [hstate]) hframes

theorem outcome_error {t : Slot Claims} (r : Request Claims) (hr : t.request = some r)
    (herror : r.state = .error) (hthrew : .clientThrew ∈ t.history ∨ .callbackThrew ∈ t.history) :
    t.Outcome where
  present := fun _ => by simp [hr]
  failed := fun _ _ _ => hthrew.imp_right Or.inl
  threw := fun _ => by rw [hr]; exact herror
  completes := by
    intro _ _ hsome
    cases hr.symm.trans hsome
    exact Or.inl (by rw [herror]; exact Nat.le_refl 2)

theorem outcome_gone {t : Slot Claims} (hr : t.request = none) (herased : .erased ∈ t.history) :
    t.Outcome where
  present := fun hnot => absurd herased hnot
  failed := fun r hsome => by rw [hr] at hsome; cases hsome
  threw := fun _ => by rw [hr]; rfl
  completes := fun _ r hsome => by rw [hr] at hsome; cases hsome

def Frame.isDelivery : Frame → Bool
  | .delivery _ _ => true
  | _ => false

theorem mem_leave {frames : List Frame} (f : Frame) (hf : f.isDelivery = false) (left : ℕ)
    (sync : Bool) (h : .delivery left sync ∈ frames) : .delivery left sync ∈ frames.erase f := by
  refine (List.mem_erase_of_ne ?_).2 h
  intro heq
  rw [← heq] at hf
  cases hf

theorem Slot.Outcome.leave {s : Slot Claims} (ho : s.Outcome) (f : Frame)
    (hf : f.isDelivery = false) : (s.leave f).Outcome :=
  ⟨ho.present, ho.failed, ho.threw, fun hdelivered r hr =>
    (ho.completes hdelivered r hr).mono (Nat.le_refl _) (mem_leave f hf)⟩

theorem Slot.catchException_record (s : Slot Claims) (hfault : s.catchException.fault = none) :
    ∃ r, s.catchException.request = some r ∧ r.state = .error := by
  unfold Slot.catchException at hfault ⊢
  split at hfault
  next => cases hfault
  next r _ => exact ⟨_, rfl, rfl⟩

theorem Slot.Outcome.deliver {s : Slot Claims} (ho : s.Outcome) (hs : s.core.Sound)
    (responses : HTTPResponses) (sync : Bool) (hpending : s.pending = true) :
    (s.deliver responses sync).Outcome := by
  rw [s.deliver_eq responses sync hs hpending]
  refine ⟨?_, ?_, ?_, ?_⟩
  · intro hnot
    exact ho.present fun hmem => hnot (List.mem_cons_of_mem _ hmem)
  · intro r hr herror
    rcases ho.failed r hr herror with hthrew | hthrew | ⟨rs, hverified⟩
    · exact Or.inl (List.mem_cons_of_mem _ hthrew)
    · exact Or.inr (Or.inl (List.mem_cons_of_mem _ hthrew))
    · exact Or.inr (Or.inr ⟨rs, List.mem_cons_of_mem _ hverified⟩)
  · intro hmem
    exact ho.threw (List.mem_of_ne_of_mem (by simp) hmem)
  · intro _ r _
    exact Or.inr ⟨2, sync, List.mem_cons_self, Nat.le_add_right 2 _⟩

theorem Slot.Outcome.proceed {s : Slot Claims} (ho : s.Outcome) (hs : s.core.Sound)
    (hattested : ∀ r, s.request = some r → r.attestation ≠ none) (left : ℕ) (sync : Bool)
    (hfault : ((s.leave (.delivery left sync)).proceed left sync).fault = none) :
    ((s.leave (.delivery left sync)).proceed left sync).Outcome := by
  have hother (left' : ℕ) (sync' : Bool) (h : .delivery left' sync' ∈ s.frames) :
      .delivery left' sync' ∈ s.frames.erase (.delivery left sync) ∨
        left' = left ∧ sync' = sync := by
    by_cases heq : Frame.delivery left' sync' = .delivery left sync
    · cases heq
      exact Or.inr ⟨rfl, rfl⟩
    · exact Or.inl ((List.mem_erase_of_ne heq).2 h)
  cases left with
  | zero =>
    have hlast (r : Request Claims) (hc : Completing r s.frames) (frames : List Frame)
        (hframes : ∀ f ∈ s.frames.erase (.delivery 0 sync), f ∈ frames) : Completing r frames := by
      rcases hc with hdone | ⟨left, sync', hf, hle⟩
      · exact Or.inl hdone
      · rcases hother left sync' hf with hkept | ⟨rfl, -⟩
        · exact Or.inr ⟨left, sync', hframes _ hkept, hle⟩
        · exact Or.inl (by omega)
    unfold Slot.proceed
    dsimp only
    split
    · exact ⟨ho.present, ho.failed, ho.threw, fun hdelivered r hr =>
        hlast r (ho.completes hdelivered r hr) _ fun f hf => List.mem_cons_of_mem _ hf⟩
    · exact ⟨ho.present, ho.failed, ho.threw, fun hdelivered r hr =>
        hlast r (ho.completes hdelivered r hr) _ fun f hf => hf⟩
  | succ left =>
    cases hr : s.request with
    | some r =>
      have hr' : (s.leave (.delivery (left + 1) sync)).request = some r := hr
      unfold Slot.proceed at hfault ⊢
      rw [hr'] at hfault ⊢
      refine ho.advance r (.lambda left sync) hr hr' (hs.begun r hr) (hattested r hr)
        List.suffix_rfl id rfl ?_ hfault
      intro left' sync' hf
      rcases hother left' sync' hf with hkept | ⟨rfl, rfl⟩
      · exact Or.inl hkept
      · exact Or.inr ⟨left, rfl, List.mem_singleton.2 rfl⟩
    | none =>
      have hr' : (s.leave (.delivery (left + 1) sync)).request = none := hr
      have hlost : (s.leave (.delivery (left + 1) sync)).proceed (left + 1) sync =
          ((s.leave (.delivery (left + 1) sync)).note .notFound).lambdaThrows true sync := by
        unfold Slot.proceed
        dsimp only
        rw [hr']
      have hhistory := Slot.lambdaThrows_history
        ((s.leave (.delivery (left + 1) sync)).note .notFound) true sync
      rw [hlost]
      refine outcome_gone ?_ ?_
      · unfold Slot.lambdaThrows
        split
        · rw [Slot.catchException_none ((s.leave (.delivery (left + 1) sync)).note .notFound) hr']
          exact hr
        · exact hr
      · rw [hhistory]
        refine List.mem_cons_of_mem _ ?_
        by_contra hnot
        exact ho.present hnot hr

theorem Slot.Outcome.step {s t : Slot Claims} (ho : s.Outcome) (hs : s.Consistent)
    (hd : s.Downloads) (a : Action Claims) (hlater : ∀ o att k cb, a ≠ .submit o att k cb)
    (h : s.lifeStep a = some t) (hfault : t.fault = none) : t.Outcome := by
  obtain ⟨-, hstep, -⟩ := s.lifeStep_some t a h
  have hattested := hd.attested hs.2
  cases a with
  | submit options attestation httpClient callback => exact absurd rfl (hlater _ _ _ _)
  | advance =>
    cases hstep
    unfold Slot.publicAdvance at hfault ⊢
    cases hr : s.request with
    | none => exact ho
    | some r =>
      rw [hr] at hfault
      exact ho.advance r .user hr hr (hs.2.begun r hr) (hattested r hr) (List.suffix_cons _ _)
        (fun hmem => List.mem_of_ne_of_mem (by simp) hmem) rfl (fun _ _ hf => Or.inl hf) hfault
  | erase =>
    cases hstep
    unfold Slot.erase
    split
    next => exact ho
    next => exact outcome_gone rfl List.mem_cons_self
  | deliver responses =>
    obtain ⟨hpending, rfl⟩ := (guarded_some _ _ _).1 hstep
    exact ho.deliver hs.2 responses false hpending
  | clientDeliver responses =>
    obtain ⟨⟨hpending, -⟩, rfl⟩ := (guarded_some _ _ _).1 hstep
    exact (ho.leave .client rfl).deliver hs.2 responses true hpending
  | clientReturn set =>
    obtain ⟨-, rfl⟩ := (guarded_some _ _ _).1 hstep
    unfold Slot.clientReturn at hfault ⊢
    split at hfault
    next => cases hfault
    next r hr =>
      exact (ho.leave .client rfl).same r { r with httpRequestSetId := some set } hr rfl rfl rfl
        fun _ _ hf => hf
  | clientThrow =>
    obtain ⟨-, rfl⟩ := (guarded_some _ _ _).1 hstep
    have hhistory := Slot.catchException_history
      ({ s.leave .client with pending := false }.note .clientThrew)
    obtain ⟨r, hr, herror⟩ := Slot.catchException_record _ hfault
    refine outcome_error r hr herror (Or.inl ?_)
    rw [hhistory]
    exact List.mem_cons_self
  | proceed left sync =>
    obtain ⟨-, rfl⟩ := (guarded_some _ _ _).1 hstep
    exact ho.proceed hs.2 hattested left sync hfault
  | callbackReturn caller =>
    obtain ⟨-, rfl⟩ := (guarded_some _ _ _).1 hstep
    unfold Slot.readState at hfault ⊢
    split at hfault
    next => cases hfault
    next r hr =>
      exact (ho.leave (.callback caller) rfl).same r r hr hr rfl rfl
        fun _ _ hf => List.mem_append_right _ hf
  | callbackThrow caller isStd =>
    obtain ⟨-, rfl⟩ := (guarded_some _ _ _).1 hstep
    cases isStd with
    | true =>
      have hhistory := Slot.catchException_history
        ((s.leave (.callback caller)).note .callbackThrew)
      obtain ⟨r, hr, herror⟩ := Slot.catchException_record
        ((s.leave (.callback caller)).note .callbackThrew) hfault
      refine outcome_error r hr herror (Or.inr ?_)
      show .callbackThrew ∈ ((s.leave (.callback caller)).note .callbackThrew).catchException.history
      rw [hhistory]
      exact List.mem_cons_self
    | false =>
      have hleft := ho.leave (.callback caller) rfl
      cases caller with
      | user => exact hleft
      | lambda left sync => simpa [Slot.callbackThrow, Slot.lambdaThrows] using hleft

theorem Slot.submit_outcome (options : Options) (attestation : AttestationApi Claims)
    (requests : HTTPRequests) (h : attestation.prepareEndorsements options = .ok (some requests))
    (httpClient callback : Bool) :
    (({} : Slot Claims).submit options (some attestation) httpClient callback).Outcome := by
  rw [Slot.submit_requested options attestation requests h]
  split
  · exact ⟨fun _ => Option.some_ne_none _, by rintro _ ⟨⟩ ⟨⟩, by simp, fun h => absurd rfl h⟩
  · exact ⟨fun _ => Option.some_ne_none _, by rintro _ ⟨⟩ ⟨⟩, by simp, fun h => absurd rfl h⟩

theorem reachable_outcome {c : Config Claims} (h : Reachable c) (id : ℕ) :
    (c.slot id).Downloads → (c.slot id).fault = none → (c.slot id).Outcome := by
  refine (reachable_slot h id).invariant_with Slot.Consistent
    (fun s => s.Downloads → s.fault = none → s.Outcome)
    (fun s a t hs _ hstep => s.lifeStep_consistent t a hs hstep) ?_ blank_consistent ?_
  · intro s a t hs ho _ hstep hd hfault
    by_cases hsubmit : ∃ o att k cb, a = .submit o att k cb
    · obtain ⟨options, attestation, httpClient, callback, rfl⟩ := hsubmit
      obtain ⟨att, requests, rfl, hprepare, rfl⟩ := hd.submitted hs hstep
      exact Slot.submit_outcome options att requests hprepare httpClient callback
    · have hlater : ∀ o att k cb, a ≠ .submit o att k cb :=
        fun o att k cb ha => hsubmit ⟨o, att, k, cb, ha⟩
      have hd' := hd.before hs a hlater hstep
      obtain ⟨hfault', -, -⟩ := s.lifeStep_some t a hstep
      exact (ho hd' hfault').step hs hd' a hlater hstep hfault
  · intro ⟨_, _, _, hmem, _⟩
    cases hmem

/-! ### What a completed request comes to -/

/-- These responses were delivered, every call about the request has ended, and it was neither
erased nor refused by the client. -/
structure Slot.Completed (s : Slot Claims) (responses : HTTPResponses) : Prop where
  delivered : deliveredIn s.history = some responses
  ended : s.frames = []
  fault : s.fault = none
  kept : .erased ∉ s.history
  accepted : .clientThrew ∉ s.history

/-- Two runs of one request, with a completion callback that does the same in both. -/
structure SameRequest (s s' : Slot Claims) : Prop where
  submitted : ∀ options attestation,
    .submitted options attestation ∈ s.history ↔ .submitted options attestation ∈ s'.history
  callback : .callbackThrew ∈ s.history ↔ .callbackThrew ∈ s'.history

theorem Lawful.deliveredIn_suffix {h older : List (Event Claims)} (hl : Lawful h)
    (hsuffix : older <:+ h) (responses : HTTPResponses) (hd : deliveredIn older = some responses) :
    deliveredIn h = some responses := by
  induction h with
  | nil =>
    rw [List.suffix_nil.1 hsuffix] at hd
    exact hd
  | cons e h ih =>
    obtain ⟨he, hl⟩ := (lawful_cons e h).1 hl
    rcases List.suffix_cons_iff.1 hsuffix with rfl | hsuffix
    · exact hd
    · have hold := ih hl hsuffix
      cases e with
      | delivered rs =>
        have hnone : deliveredIn h = none := he
        rw [hnone] at hold
        cases hold
      | _ => exact hold

section
variable {s : Slot Claims} (hs : s.Consistent) {options : Options}
  {attestation : AttestationApi Claims}
  (hsubmitted : .submitted options (some attestation) ∈ s.history)
  (hordered : VerifiedDelivered s.history) {responses : HTTPResponses}
  (hc : s.Completed responses)

include hs hsubmitted hordered hc

/-- A call of `verify` got the submission's attestation and options and these responses. -/
theorem verified_own (rs : HTTPResponses) (claims : Option Claims)
    (hmem : .verified rs claims ∈ s.history) :
    claims = (attestation.verify options (some responses)).toOption := by
  obtain ⟨newer, older, hsplit⟩ := List.append_of_mem hmem
  have hsuffix : .verified rs claims :: older <:+ s.history := by
    rw [hsplit]
    exact List.suffix_append _ _
  obtain ⟨-, -, o, att, hown, hclaims⟩ := hs.2.lawful _ _ hsuffix
  have holder : older <:+ s.history := (List.suffix_cons _ _).trans hsuffix
  obtain ⟨rfl, heq⟩ := hs.2.lawful.submitted_unique (holder.mem hown) hsubmitted
  cases heq
  have hnow := hs.2.lawful.deliveredIn_suffix holder rs (hordered rs claims older hsuffix)
  have hresponses : rs = responses := Option.some.inj (hnow.symm.trans hc.delivered)
  rw [hclaims, hresponses]

theorem completed_finished (ho : s.Outcome) (hf : stateOf s.request = .finished) :
    .callbackThrew ∉ s.history ∧ ∃ claims,
      (attestation.verify options (some responses)).toOption = some claims ∧
      resultOf s.request = .ok claims := by
  obtain ⟨newer, older, o, att, rs, claims, hsplit, -, -, -, hresult⟩ := hs.finished hf
  refine ⟨?_, claims, ?_, hresult⟩
  · intro hthrew
    have herror := ho.threw hthrew
    rw [hf] at herror
    cases herror
  · exact (verified_own hs hsubmitted hordered hc rs (some claims) (by simp [hsplit])).symm

theorem completed_error (ho : s.Outcome) (hne : stateOf s.request ≠ .finished) :
    stateOf s.request = .error ∧
      (.callbackThrew ∈ s.history ∨
        (attestation.verify options (some responses)).toOption = none) ∧
      resultOf s.request = throw (.exception "attestation verification request not finished") := by
  obtain ⟨r, hr⟩ := Option.ne_none_iff_exists'.1 (ho.present hc.kept)
  rw [hr] at hne ⊢
  have hdone : 2 ≤ r.state.rank := by
    rcases ho.completes (by simp [hc.delivered]) r hr with hdone | ⟨left, sync, hf, -⟩
    · exact hdone
    · rw [hc.ended] at hf
      cases hf
  have herror : r.state = .error := (r.state.completed_of_rank hdone).resolve_left hne
  refine ⟨herror, ?_, ?_⟩
  · rcases ho.failed r hr herror with hthrew | hthrew | ⟨rs, hverified⟩
    · exact absurd hthrew hc.accepted
    · exact Or.inl hthrew
    · exact Or.inr (verified_own hs hsubmitted hordered hc rs none hverified).symm
  · simp [resultOf, refuse, herror, Bind.bind, Except.bind]
    rfl

end

theorem completed_same {s s' : Slot Claims} (hs : s.Consistent) (hs' : s'.Consistent)
    (ho : s.Outcome) (ho' : s'.Outcome) (hordered : VerifiedDelivered s.history)
    (hordered' : VerifiedDelivered s'.history) (responses : HTTPResponses)
    (hc : s.Completed responses) (hc' : s'.Completed responses) (hsame : SameRequest s s')
    {options : Options} {attestation : AttestationApi Claims}
    (hsubmitted : .submitted options (some attestation) ∈ s.history) :
    stateOf s.request = stateOf s'.request ∧ resultOf s.request = resultOf s'.request := by
  have hsubmitted' := (hsame.submitted _ _).1 hsubmitted
  by_cases hf : stateOf s.request = .finished
  · obtain ⟨hquiet, claims, hverify, hresult⟩ :=
      completed_finished hs hsubmitted hordered hc ho hf
    by_cases hf' : stateOf s'.request = .finished
    · obtain ⟨-, claims', hverify', hresult'⟩ :=
        completed_finished hs' hsubmitted' hordered' hc' ho' hf'
      have heq : claims = claims' := Option.some.inj (hverify.symm.trans hverify')
      exact ⟨hf.trans hf'.symm, by rw [hresult, hresult', heq]⟩
    · exfalso
      obtain ⟨-, hwhy, -⟩ := completed_error hs' hsubmitted' hordered' hc' ho' hf'
      rcases hwhy with hthrew | hnone
      · exact hquiet (hsame.callback.2 hthrew)
      · rw [hverify] at hnone
        cases hnone
  · obtain ⟨herror, hwhy, hresult⟩ := completed_error hs hsubmitted hordered hc ho hf
    by_cases hf' : stateOf s'.request = .finished
    · exfalso
      obtain ⟨hquiet', claims, hverify, -⟩ :=
        completed_finished hs' hsubmitted' hordered' hc' ho' hf'
      rcases hwhy with hthrew | hnone
      · exact hquiet' (hsame.callback.1 hthrew)
      · rw [hverify] at hnone
        cases hnone
    · obtain ⟨herror', -, hresult'⟩ := completed_error hs' hsubmitted' hordered' hc' ho' hf'
      exact ⟨herror.trans herror'.symm, hresult.trans hresult'.symm⟩

theorem earlyAdvances_none (h : List (Event Claims)) (hnone : .advanced ∉ h) :
    earlyAdvances h = 0 := by
  induction h with
  | nil => rfl
  | cons e h ih =>
    have hrest := ih fun hmem => hnone (List.mem_cons_of_mem e hmem)
    cases e with
    | advanced => exact absurd List.mem_cons_self hnone
    | _ => exact hrest

/-- A run without public calls of `advance` ends as this one did. -/
def SameAsUndisturbed (c : Config Claims) (id : ℕ) : Prop :=
  ∀ (c' : Config Claims) (id' : ℕ) (responses : HTTPResponses), Reachable c' →
    .advanced ∉ c'.history id' → (c.slot id).Completed responses →
    (c'.slot id').Completed responses → SameRequest (c.slot id) (c'.slot id') →
    c.state id = c'.state id' ∧ c.result id = c'.result id'

/-- For a request that has something to download: `verify` waits for the delivery exactly when
there was at most one public call of `advance` before it. -/
theorem verified_after_delivery_iff (c : Config Claims) (h : Reachable c) (id : ℕ)
    (options : Options) (attestation : AttestationApi Claims) (requests : HTTPRequests)
    (hsubmitted : .submitted options (some attestation) ∈ c.history id)
    (hprepare : attestation.prepareEndorsements options = .ok (some requests)) :
    (VerifiedDelivered (c.slot id).calls ∧ SameAsUndisturbed c id) ↔
      earlyAdvances (c.history id) ≤ 1 := by
  have hd : (c.slot id).Downloads := ⟨options, attestation, requests, hsubmitted, hprepare⟩
  have hordered := (reachable_inOrder h id hd).ordered
  have hcount : earlyAdvances (c.slot id).calls = earlyAdvances (c.history id) := by
    unfold Slot.calls
    split <;> rfl
  constructor
  · intro ⟨hverified, _⟩
    rw [← hcount]
    exact hordered.delivered.1 hverified
  · intro hle
    have hverified := hordered.delivered.2 (by rwa [hcount])
    refine ⟨hverified, ?_⟩
    intro c' id' responses h' hnone hc hc' hsame
    have hd' : (c'.slot id').Downloads :=
      ⟨options, attestation, requests, (hsame.submitted _ _).1 hsubmitted, hprepare⟩
    have hverified' : VerifiedDelivered (c'.slot id').calls := by
      refine (reachable_inOrder h' id' hd').ordered.delivered.2 ?_
      rw [Slot.calls_eq _ (by simp [hc'.fault])]
      have hzero : earlyAdvances (c'.slot id').history = 0 := earlyAdvances_none _ hnone
      omega
    rw [Slot.calls_eq _ (by simp [hc.fault])] at hverified
    rw [Slot.calls_eq _ (by simp [hc'.fault])] at hverified'
    exact completed_same (reachable_consistent h id) (reachable_consistent h' id')
      (reachable_outcome h id hd hc.fault) (reachable_outcome h' id' hd' hc'.fault) hverified
      hverified' responses hc hc' hsame hsubmitted

end

def hastenedSlot (requests : HTTPRequests) : Slot Sgx.Claims :=
  { requestedSlot {} downloadApi requests with
    request := some {
      state := .haveEndorsements, options := {}, attestation := some downloadApi
      httpClient := true, callback := true }
    history := .advanced :: (requestedSlot {} downloadApi requests).history }

theorem sample_hastened : ∃ requests, downloadApi.prepareEndorsements {} = .ok (some requests) ∧
    Reachable (firstConfig (hastenedSlot requests)) := by
  obtain ⟨requests, hprepare, hreachable⟩ := sample_requested
  refine ⟨requests, hprepare, hreachable.tail (a := ⟨0, .advance⟩) trivial ?_⟩
  exact firstConfig_step _ _ _ rfl (by simp) rfl

theorem verified_after_delivery_iff_sample : ∃ c : Config Sgx.Claims,
    earlyAdvances (c.history 0) = 1 ∧
    ((VerifiedDelivered (c.slot 0).calls ∧ SameAsUndisturbed c 0) ↔
      earlyAdvances (c.history 0) ≤ 1) := by
  obtain ⟨requests, hprepare, hreachable⟩ := sample_hastened
  exact ⟨firstConfig (hastenedSlot requests), rfl, verified_after_delivery_iff _ hreachable 0 {}
    downloadApi requests (by simp [firstConfig, Config.put, hastenedSlot, requestedSlot]) hprepare⟩

/-- The second call before the delivery verifies without responses. -/
theorem verified_not_after_delivery : ¬ ∀ (c : Config Sgx.Claims) (id : ℕ) (options : Options)
    (attestation : AttestationApi Sgx.Claims) (requests : HTTPRequests), Reachable c →
    .submitted options (some attestation) ∈ c.history id →
    attestation.prepareEndorsements options = .ok (some requests) →
    VerifiedDelivered (c.slot id).calls ∧ SameAsUndisturbed c id := by
  intro h
  obtain ⟨requests, hprepare, hreachable⟩ := sample_hastened
  have hverify : downloadApi.verify {} (some []) = .error (.exception "missing endorsements") := rfl
  have hreachable' := hreachable.tail (a := ⟨0, .advance⟩) trivial
    (firstConfig_step _ _ _ rfl (by simp) rfl)
  have hslot : (firstConfig (hastenedSlot requests).publicAdvance).slot 0 =
      (hastenedSlot requests).publicAdvance := Config.slot_put_self _ _ _
  have hhistory : (hastenedSlot requests).publicAdvance.history =
      .verified [] none :: .advanced :: (hastenedSlot requests).history := by
    simp [hastenedSlot, requestedSlot, Slot.publicAdvance, Slot.advance, Slot.verify, Slot.note,
      Slot.setRequest, Slot.back, hverify]
  have hfault : (hastenedSlot requests).publicAdvance.fault = none := by
    simp [hastenedSlot, requestedSlot, Slot.publicAdvance, Slot.advance, Slot.verify, Slot.note,
      Slot.setRequest, Slot.back, hverify]
  have hsubmitted : .submitted {} (some downloadApi) ∈
      ((firstConfig (hastenedSlot requests).publicAdvance).slot 0).history := by
    rw [hslot, hhistory]
    simp [hastenedSlot, requestedSlot]
  obtain ⟨hverified, -⟩ := h _ 0 {} downloadApi requests hreachable' hsubmitted hprepare
  rw [hslot, Slot.calls_eq _ (by simp [hfault]), hhistory] at hverified
  have hnone := hverified [] none _ List.suffix_rfl
  cases hnone

end Ravl.Tracker
