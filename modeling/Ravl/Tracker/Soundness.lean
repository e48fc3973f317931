import Ravl.Tracker.Request

/-!
# What every run keeps true of a request

`Core` is the part of a slot that the tracker's answers depend on. `Sound` ties
it to the history: the record is that of the submission, a stored response is
the delivered one, and a finished record holds what `verify` returned.
-/

namespace Ravl.Tracker
open ByteLib FallibleLib TransitionLib

structure Core (Claims : Type) where
  request : Option (Request Claims)
  responses : Option HTTPResponses
  pending : Bool
  history : List (Event Claims)

section
variable {Claims : Type}

def Slot.core (s : Slot Claims) : Core Claims := ⟨s.request, s.responses, s.pending, s.history⟩

structure Core.Sound (k : Core Claims) : Prop where
  lawful : Lawful k.history
  own : ∀ r, k.request = some r → .submitted r.options r.attestation ∈ k.history
  begun : ∀ r, k.request = some r → r.state ≠ .submitted
  early : ∀ r, k.request = some r → r.state ≠ .finished → r.state ≠ .error →
    verifyCalls k.history = 0
  finished : ∀ r, k.request = some r → r.state = .finished → ∃ responses claims,
    r.claims = some claims ∧ .verified responses (some claims) ∈ k.history
  undelivered : k.pending = true → deliveredIn k.history = none
  unread : verifyCalls k.history = 0 → k.responses = deliveredIn k.history
  stored : ∀ responses, k.responses = some responses → deliveredIn k.history = some responses

namespace Core.Sound
variable {k : Core Claims} {r : Request Claims}

theorem replace (hk : k.Sound) (hr : k.request = some r) (r' : Request Claims)
    (hoptions : r'.options = r.options) (hattestation : r'.attestation = r.attestation)
    (hbegun : r'.state ≠ .submitted)
    (hearly : r'.state ≠ .finished → r'.state ≠ .error → r.state ≠ .finished ∧ r.state ≠ .error)
    (hfinished : r'.state = .finished → r.state = .finished ∧ r'.claims = r.claims) :
    Core.Sound { k with request := some r' } where
  lawful := hk.lawful
  own := by
    rintro _ ⟨⟩
    rw [hoptions, hattestation]
    exact hk.own r hr
  begun := by
    rintro _ ⟨⟩
    exact hbegun
  early := by
    rintro _ ⟨⟩ hnf hne
    obtain ⟨hnf', hne'⟩ := hearly hnf hne
    exact hk.early r hr hnf' hne'
  finished := by
    rintro _ ⟨⟩ hf
    obtain ⟨hf', hclaims⟩ := hfinished hf
    rw [hclaims]
    exact hk.finished r hr hf'
  undelivered := hk.undelivered
  unread := hk.unread
  stored := hk.stored

theorem error (hk : k.Sound) (hr : k.request = some r) :
    Core.Sound { k with request := some { r with state := .error } } :=
  hk.replace hr _ rfl rfl (by simp) (fun _ h => absurd rfl h) (fun h => by cases h)

/-- An event that says nothing about responses, claims and callbacks. -/
def Plain : Event Claims → Prop
  | .requested _ => True
  | .clientThrew => True
  | .advanced => True
  | .notFound => True
  | .callbackThrew => True
  | .erased => True
  | _ => False

theorem plain (hk : k.Sound) (e : Event Claims) (he : Plain e) :
    Core.Sound { k with history := e :: k.history } := by
  have hcalls : verifyCalls (e :: k.history) = verifyCalls k.history := by
    cases e <;> first | rfl | exact absurd he id
  have hdelivered : deliveredIn (e :: k.history) = deliveredIn k.history := by
    cases e <;> first | rfl | exact absurd he id
  have hjustified : Justified e k.history := by
    cases e <;> first | exact absurd he id | trivial
  exact {
    lawful := (lawful_cons e _).2 ⟨hjustified, hk.lawful⟩
    own := fun r hr => List.mem_cons_of_mem e (hk.own r hr)
    begun := hk.begun
    early := by
      rw [hcalls]
      exact hk.early
    finished := by
      intro r hr hf
      obtain ⟨responses, claims, hclaims, hmem⟩ := hk.finished r hr hf
      exact ⟨responses, claims, hclaims, List.mem_cons_of_mem e hmem⟩
    undelivered := by
      rw [hdelivered]
      exact hk.undelivered
    unread := by
      rw [hcalls, hdelivered]
      exact hk.unread
    stored := by
      rw [hdelivered]
      exact hk.stored }

theorem delivered (hk : k.Sound) (hpending : k.pending = true) (responses : HTTPResponses) :
    k.responses = none ∧ Core.Sound { k with
      pending := false, responses := some responses, history := .delivered responses :: k.history } := by
  have hnone := hk.undelivered hpending
  refine ⟨?_, {
    lawful := (lawful_cons _ _).2 ⟨hnone, hk.lawful⟩
    own := fun r hr => List.mem_cons_of_mem _ (hk.own r hr)
    begun := hk.begun
    early := hk.early
    finished := ?_
    undelivered := fun h => by cases h
    unread := fun _ => rfl
    stored := fun rs h => h }⟩
  · cases hrs : k.responses with
    | none => rfl
    | some rs =>
      rw [hk.stored rs hrs] at hnone
      cases hnone
  · intro r hr hf
    obtain ⟨rs, claims, hclaims, hmem⟩ := hk.finished r hr hf
    exact ⟨rs, claims, hclaims, List.mem_cons_of_mem _ hmem⟩

theorem verified (hk : k.Sound) (hr : k.request = some r) (hstate : r.state = .haveEndorsements)
    (attestation : AttestationApi Claims) (hattestation : r.attestation = some attestation)
    (claims : Option Claims)
    (hclaims : (attestation.verify r.options (some (k.responses.getD []))).toOption = claims)
    (r' : Request Claims) (hoptions : r'.options = r.options)
    (hattestation' : r'.attestation = r.attestation)
    (hsettled : (∃ v, r'.state = .finished ∧ r'.claims = some v ∧ claims = some v) ∨
      r'.state = .error) :
    Core.Sound { k with
      request := some r', responses := none
      history := .verified (k.responses.getD []) claims :: k.history } := by
  have hcalls := hk.early r hr (by simp [hstate]) (by simp [hstate])
  have hjustified : Justified (.verified (k.responses.getD []) claims) k.history :=
    ⟨hcalls, by rw [hk.unread hcalls], r.options, attestation,
      hattestation ▸ hk.own r hr, hclaims.symm⟩
  have hcount : verifyCalls (.verified (k.responses.getD []) claims :: k.history) = 1 := by
    simp only [verifyCalls] at hcalls ⊢
    simp [List.countP_cons, Event.isVerified, hcalls]
  refine {
    lawful := (lawful_cons _ _).2 ⟨hjustified, hk.lawful⟩
    own := ?_
    begun := ?_
    early := ?_
    finished := ?_
    undelivered := hk.undelivered
    unread := fun h => absurd (hcount.symm.trans h) Nat.one_ne_zero
    stored := fun rs h => by cases h }
  · rintro _ ⟨⟩
    rw [hoptions, hattestation']
    exact List.mem_cons_of_mem _ (hk.own r hr)
  · rintro _ ⟨⟩
    rcases hsettled with ⟨_, h, -⟩ | h <;> simp [h]
  · rintro _ ⟨⟩ hnf hne
    rcases hsettled with ⟨_, h, -⟩ | h
    · exact absurd h hnf
    · exact absurd h hne
  · rintro _ ⟨⟩ hf
    rcases hsettled with ⟨v, -, hv, rfl⟩ | h
    · exact ⟨_, v, hv, List.mem_cons_self⟩
    · rw [h] at hf
      cases hf

theorem calledBack (hk : k.Sound) (older : List (Event Claims)) (responses : HTTPResponses)
    (claims : Claims) (hhistory : k.history = .verified responses (some claims) :: older) :
    Core.Sound { k with history := .calledBack :: k.history } := by
  have hlawful := hk.lawful
  rw [hhistory, lawful_cons] at hlawful
  have hcallbacks : callbackCalls k.history = 0 := by
    have hnone := hlawful.2.callbackCalls_eq_zero hlawful.1.1
    rw [hhistory]
    simpa [callbackCalls, List.countP_cons, Event.isCallback] using hnone
  have hmem : .verified responses (some claims) ∈ k.history := by simp [hhistory]
  exact {
    lawful := (lawful_cons _ _).2 ⟨⟨hcallbacks, responses, claims, hmem⟩, hk.lawful⟩
    own := fun r hr => List.mem_cons_of_mem _ (hk.own r hr)
    begun := hk.begun
    early := hk.early
    finished := by
      intro r hr hf
      obtain ⟨rs, v, hv, hmem'⟩ := hk.finished r hr hf
      exact ⟨rs, v, hv, List.mem_cons_of_mem _ hmem'⟩
    undelivered := hk.undelivered
    unread := hk.unread
    stored := hk.stored }

theorem withdrawn (hk : k.Sound) : Core.Sound { k with pending := false } :=
  { hk with undelivered := fun h => by cases h }

theorem erased (hk : k.Sound) : Core.Sound { k with
    request := none, history := .erased :: k.history } := by
  have he := hk.plain .erased trivial
  exact {
    lawful := he.lawful
    own := fun r h => by cases h
    begun := fun r h => by cases h
    early := fun r h => by cases h
    finished := fun r h => by cases h
    undelivered := he.undelivered
    unread := he.unread
    stored := he.stored }

theorem first (r : Request Claims) (hbegun : r.state ≠ .submitted) (hnf : r.state ≠ .finished) :
    Core.Sound ⟨some r, none, false, [.submitted r.options r.attestation]⟩ where
  lawful := (lawful_cons _ _).2 ⟨rfl, fun e older h => by simp at h⟩
  own := by
    rintro _ ⟨⟩
    exact List.mem_singleton.2 rfl
  begun := by
    rintro _ ⟨⟩
    exact hbegun
  early := fun _ _ _ _ => rfl
  finished := by
    rintro _ ⟨⟩ hf
    exact absurd hf hnf
  undelivered := fun h => by cases h
  unread := fun _ => rfl
  stored := fun _ h => by cases h

end Core.Sound

/-! ### The operations keep it -/

theorem Slot.verify_keeps (s : Slot Claims) (r : Request Claims) (caller : Caller)
    (hs : s.core.Sound) (hr : s.request = some r) (hstate : r.state = .haveEndorsements) :
    (s.verify r caller).core.Sound := by
  unfold Slot.verify
  split
  next hatt => exact hs.error hr
  next attestation hatt =>
    dsimp only
    split
    next claims hclaims =>
      have hverified := hs.verified hr hstate attestation hatt (some claims)
        (by rw [show s.core.responses = s.responses from rfl, hclaims]; rfl)
        { r with claims := some claims, state := .finished } rfl rfl
        (Or.inl ⟨claims, rfl, rfl, rfl⟩)
      split
      · exact hverified.calledBack _ _ _ rfl
      · exact hverified
    next what hclaims =>
      exact hs.verified hr hstate attestation hatt none
        (by rw [show s.core.responses = s.responses from rfl, hclaims]; rfl)
        { r with state := .error } rfl rfl (Or.inr rfl)
    next what hclaims => exact hs

theorem Slot.advance_keeps (s : Slot Claims) (r : Request Claims) (caller : Caller)
    (hs : s.core.Sound) (hr : s.request = some r) : (s.advance r caller).core.Sound := by
  unfold Slot.advance
  split
  next => exact hs.error hr
  next hstate => exact absurd hstate (hs.begun r hr)
  next hstate =>
    exact hs.replace hr { r with state := .haveEndorsements } rfl rfl (by simp)
      (fun _ _ => by simp [hstate]) (fun h => by cases h)
  next hstate => exact s.verify_keeps r caller hs hr hstate
  next => exact hs

theorem Slot.submit_keeps (options : Options) (attestation : Option (AttestationApi Claims))
    (httpClient callback : Bool) :
    (({} : Slot Claims).submit options attestation httpClient callback).core.Sound := by
  have hfirst (state : RequestState) (h : state ≠ .submitted) (h' : state ≠ .finished) :=
    Core.Sound.first (⟨state, options, attestation, none, httpClient, callback, none⟩ :
      Request Claims) h h'
  unfold Slot.submit Slot.advance Slot.prepareEndorsements
  dsimp only
  split
  next => exact hfirst .error (by simp) (by simp)
  next att hatt =>
    split
    next => exact hfirst .error (by simp) (by simp)
    next => exact hfirst .waitingForEndorsements (by simp) (by simp)
    next => exact Slot.verify_keeps _ _ _ (hfirst .haveEndorsements (by simp) (by simp)) rfl rfl
    next requests hrequests =>
      have hnoted := (hfirst .waitingForEndorsements (by simp) (by simp)).plain (.requested requests)
        trivial
      split
      · exact { hnoted with undelivered := fun _ => rfl }
      · exact hnoted

theorem Slot.catchException_keeps (s : Slot Claims) (hs : s.core.Sound) :
    s.catchException.core.Sound := by
  unfold Slot.catchException
  split
  next => exact hs
  next r hr => exact hs.error hr

theorem Slot.lambdaThrows_keeps (s : Slot Claims) (isStd sync : Bool) (hs : s.core.Sound) :
    (s.lambdaThrows isStd sync).core.Sound := by
  unfold Slot.lambdaThrows
  split
  · exact s.catchException_keeps hs
  · exact hs

theorem Slot.deliver_eq (s : Slot Claims) (responses : HTTPResponses) (sync : Bool)
    (hs : s.core.Sound) (hpending : s.pending = true) : s.deliver responses sync =
      ({ s with pending := false, responses := some responses }.note
        (.delivered responses)).enter (.delivery 2 sync) := by
  have hnone : s.responses = none := (hs.delivered hpending responses).1
  unfold Slot.deliver
  dsimp only [Slot.note]
  rw [hnone]

theorem Slot.deliver_keeps (s : Slot Claims) (responses : HTTPResponses) (sync : Bool)
    (hs : s.core.Sound) (hpending : s.pending = true) : (s.deliver responses sync).core.Sound := by
  rw [s.deliver_eq responses sync hs hpending]
  exact (hs.delivered hpending responses).2

theorem Slot.proceed_keeps (s : Slot Claims) (left : ℕ) (sync : Bool) (hs : s.core.Sound) :
    (s.proceed left sync).core.Sound := by
  unfold Slot.proceed
  split
  next =>
    split
    · exact hs
    · exact hs
  next left =>
    split
    next => exact Slot.lambdaThrows_keeps _ _ _ (hs.plain .notFound trivial)
    next r hr => exact s.advance_keeps r _ hs hr

theorem Slot.callbackThrow_keeps (s : Slot Claims) (caller : Caller) (isStd : Bool)
    (hs : s.core.Sound) : (s.callbackThrow caller isStd).core.Sound := by
  unfold Slot.callbackThrow
  split
  next => exact Slot.catchException_keeps _ (hs.plain .callbackThrew trivial)
  next =>
    split
    next => exact hs
    next => exact s.lambdaThrows_keeps _ _ hs

theorem Slot.erase_keeps (s : Slot Claims) (hs : s.core.Sound) : (s.erase false).core.Sound := by
  unfold Slot.erase
  split
  next => exact hs
  next => exact hs.erased

theorem Slot.publicAdvance_keeps (s : Slot Claims) (hs : s.core.Sound) :
    s.publicAdvance.core.Sound := by
  unfold Slot.publicAdvance
  split
  next => exact hs
  next r hr => exact Slot.advance_keeps _ r _ (hs.plain .advanced trivial) hr

theorem Slot.clientReturn_keeps (s : Slot Claims) (set : ℕ) (hs : s.core.Sound) :
    (s.clientReturn set).core.Sound := by
  unfold Slot.clientReturn
  split
  next => exact hs
  next r hr =>
    exact hs.replace hr { r with httpRequestSetId := some set } rfl rfl (hs.begun r hr)
      (fun hnf hne => ⟨hnf, hne⟩) (fun hf => ⟨hf, rfl⟩)

/-! ### Histories only grow -/

theorem Slot.verify_history (s : Slot Claims) (r : Request Claims) (caller : Caller) :
    s.history <:+ (s.verify r caller).history := by
  unfold Slot.verify
  split
  next => exact List.suffix_rfl
  next =>
    dsimp only
    split
    next =>
      split
      · exact (List.suffix_cons _ _).trans (List.suffix_cons _ _)
      · exact List.suffix_cons _ _
    next => exact List.suffix_cons _ _
    next => exact List.suffix_rfl

theorem Slot.prepareEndorsements_history (s : Slot Claims) (r : Request Claims) (caller : Caller) :
    s.history <:+ (s.prepareEndorsements r caller).history := by
  unfold Slot.prepareEndorsements
  dsimp only
  split
  next => exact List.suffix_rfl
  next =>
    split
    next => exact List.suffix_rfl
    next => exact List.suffix_rfl
    next =>
      refine List.IsSuffix.trans ?_ (Slot.verify_history _ _ _)
      exact List.suffix_rfl
    next => split <;> exact List.suffix_cons _ _

theorem Slot.advance_history (s : Slot Claims) (r : Request Claims) (caller : Caller) :
    s.history <:+ (s.advance r caller).history := by
  unfold Slot.advance
  split
  next => exact List.suffix_rfl
  next => exact s.prepareEndorsements_history r caller
  next => exact List.suffix_rfl
  next => exact s.verify_history r caller
  next => exact List.suffix_rfl

theorem Slot.submit_history (s : Slot Claims) (options : Options)
    (attestation : Option (AttestationApi Claims)) (httpClient callback : Bool) :
    .submitted options attestation :: s.history <:+
      (s.submit options attestation httpClient callback).history := by
  refine List.IsSuffix.trans ?_ (Slot.advance_history _ _ _)
  exact List.suffix_rfl

theorem Slot.catchException_history (s : Slot Claims) : s.catchException.history = s.history := by
  unfold Slot.catchException
  split <;> rfl

theorem Slot.lambdaThrows_history (s : Slot Claims) (isStd sync : Bool) :
    (s.lambdaThrows isStd sync).history = s.history := by
  unfold Slot.lambdaThrows
  split
  · exact s.catchException_history
  · rfl

theorem Slot.deliver_history (s : Slot Claims) (responses : HTTPResponses) (sync : Bool) :
    (s.deliver responses sync).history = .delivered responses :: s.history := by
  unfold Slot.deliver
  dsimp only
  split
  next => exact Slot.lambdaThrows_history _ _ _
  next => rfl

theorem Slot.proceed_history (s : Slot Claims) (left : ℕ) (sync : Bool) :
    s.history <:+ (s.proceed left sync).history := by
  unfold Slot.proceed
  split
  next => split <;> exact List.suffix_rfl
  next =>
    split
    next =>
      rw [Slot.lambdaThrows_history]
      exact List.suffix_cons _ _
    next => exact s.advance_history _ _

theorem Slot.callbackThrow_history (s : Slot Claims) (caller : Caller) (isStd : Bool) :
    s.history <:+ (s.callbackThrow caller isStd).history := by
  unfold Slot.callbackThrow
  split
  next =>
    have h := Slot.catchException_history (s.note .callbackThrew)
    show s.history <:+ (s.note .callbackThrew).catchException.history
    rw [h]
    exact List.suffix_cons _ _
  next =>
    split
    next => exact List.suffix_rfl
    next => exact ⟨[], (Slot.lambdaThrows_history _ _ _).symm⟩

theorem Slot.step_history (s t : Slot Claims) (a : Action Claims)
    (h : s.step false a = some t) : s.history <:+ t.history := by
  cases a with
  | submit options attestation httpClient callback =>
    cases h
    exact (List.suffix_cons _ _).trans (s.submit_history options attestation httpClient callback)
  | advance =>
    cases h
    unfold Slot.publicAdvance
    split
    · exact List.suffix_rfl
    · refine List.IsSuffix.trans ?_ (Slot.advance_history _ _ _)
      exact List.suffix_cons _ _
  | erase =>
    cases h
    unfold Slot.erase
    split
    · exact List.suffix_rfl
    · exact List.suffix_cons _ _
  | deliver responses =>
    obtain ⟨-, rfl⟩ := (guarded_some _ _ _).1 h
    rw [Slot.deliver_history]
    exact List.suffix_cons _ _
  | clientDeliver responses =>
    obtain ⟨-, rfl⟩ := (guarded_some _ _ _).1 h
    rw [Slot.deliver_history]
    exact List.suffix_cons _ _
  | clientReturn set =>
    obtain ⟨-, rfl⟩ := (guarded_some _ _ _).1 h
    unfold Slot.clientReturn
    split <;> exact List.suffix_rfl
  | clientThrow =>
    obtain ⟨-, rfl⟩ := (guarded_some _ _ _).1 h
    rw [Slot.catchException_history]
    exact List.suffix_cons _ _
  | proceed left sync =>
    obtain ⟨-, rfl⟩ := (guarded_some _ _ _).1 h
    exact (s.leave (.delivery left sync)).proceed_history left sync
  | callbackReturn caller =>
    obtain ⟨-, rfl⟩ := (guarded_some _ _ _).1 h
    unfold Slot.readState
    split <;> exact List.suffix_rfl
  | callbackThrow caller isStd =>
    obtain ⟨-, rfl⟩ := (guarded_some _ _ _).1 h
    exact (s.leave (.callback caller)).callbackThrow_history caller isStd

/-! ### In every run -/

/-- Nothing happened under the id, or what is kept under it agrees with what happened. -/
def Slot.Consistent (s : Slot Claims) : Prop := (s.history = [] → s = {}) ∧ s.core.Sound

theorem blank_consistent : ({} : Slot Claims).Consistent :=
  ⟨fun _ => rfl, {
    lawful := fun e older h => by simp [Slot.core] at h
    own := fun r h => by cases h
    begun := fun r h => by cases h
    early := fun r h => by cases h
    finished := fun r h => by cases h
    undelivered := fun _ => rfl
    unread := fun _ => rfl
    stored := fun _ h => by cases h }⟩

theorem Slot.lifeStep_some (s t : Slot Claims) (a : Action Claims) (h : s.lifeStep a = some t) :
    s.fault = none ∧ s.step false a = some t ∧
      ((∃ o att c k, a = .submit o att c k) → s.history = []) := by
  unfold Slot.lifeStep at h
  split at h
  next => cases h
  next hfault =>
    split at h
    next hnew => exact ⟨hfault, h, fun _ => List.isEmpty_iff.1 hnew⟩
    next => cases h
  next hfault hother =>
    refine ⟨hfault, h, ?_⟩
    rintro ⟨o, att, c, k, rfl⟩
    exact absurd rfl (hother o att c k)

theorem Slot.step_keeps (s t : Slot Claims) (a : Action Claims) (hs : s.core.Sound)
    (hnew : (∃ o att c k, a = .submit o att c k) → s = {}) (h : s.step false a = some t) :
    t.core.Sound := by
  cases a with
  | submit options attestation httpClient callback =>
    rw [hnew ⟨_, _, _, _, rfl⟩] at h
    cases h
    exact Slot.submit_keeps options attestation httpClient callback
  | advance =>
    cases h
    exact s.publicAdvance_keeps hs
  | erase =>
    cases h
    exact s.erase_keeps hs
  | deliver responses =>
    obtain ⟨hpending, rfl⟩ := (guarded_some _ _ _).1 h
    exact s.deliver_keeps responses false hs hpending
  | clientDeliver responses =>
    obtain ⟨⟨hpending, -⟩, rfl⟩ := (guarded_some _ _ _).1 h
    exact Slot.deliver_keeps _ responses true hs hpending
  | clientReturn set =>
    obtain ⟨-, rfl⟩ := (guarded_some _ _ _).1 h
    exact Slot.clientReturn_keeps _ set hs
  | clientThrow =>
    obtain ⟨-, rfl⟩ := (guarded_some _ _ _).1 h
    exact Slot.catchException_keeps _ (hs.withdrawn.plain .clientThrew trivial)
  | proceed left sync =>
    obtain ⟨-, rfl⟩ := (guarded_some _ _ _).1 h
    exact Slot.proceed_keeps _ left sync hs
  | callbackReturn caller =>
    obtain ⟨-, rfl⟩ := (guarded_some _ _ _).1 h
    unfold Slot.readState
    split <;> exact hs
  | callbackThrow caller isStd =>
    obtain ⟨-, rfl⟩ := (guarded_some _ _ _).1 h
    exact Slot.callbackThrow_keeps _ caller isStd hs

theorem Slot.lifeStep_consistent (s t : Slot Claims) (a : Action Claims) (hs : s.Consistent)
    (h : s.lifeStep a = some t) : t.Consistent := by
  obtain ⟨-, hstep, hnew⟩ := s.lifeStep_some t a h
  refine ⟨?_, s.step_keeps t a hs.2 (fun ha => hs.1 (hnew ha)) hstep⟩
  intro hempty
  have hgrows := s.step_history t a hstep
  rw [hempty, List.suffix_nil] at hgrows
  rw [hs.1 hgrows] at hstep
  by_cases hsubmit : ∃ o att c k, a = .submit o att c k
  · obtain ⟨o, att, c, k, rfl⟩ := hsubmit
    cases hstep
    have hfirst := Slot.submit_history {} o att c k
    rw [hempty] at hfirst
    cases List.suffix_nil.1 hfirst
  · exact blank_step a t (fun o att c k ha => hsubmit ⟨o, att, c, k, ha⟩) hstep

theorem reachable_consistent {c : Config Claims} (h : Reachable c) (id : ℕ) :
    (c.slot id).Consistent :=
  (reachable_slot h id).invariant Slot.Consistent
    (fun s a t hs _ hstep => s.lifeStep_consistent t a hs hstep) blank_consistent

end

end Ravl.Tracker
