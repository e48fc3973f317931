import Ravl.Tracker.Outward
import Ravl.Tracker.Results

/-!
# Erasing a request

`erase` tells the tracker's own HTTP client to forget the request set, but this
client is never set: the client of the request keeps the set and calls back
later. And `advance` reads the record after the completion callback returned. An
`erase` is safe when neither is ahead: the client holds no set for the request
and no call about the request is in progress.
-/

namespace Ravl.Tracker
open ByteLib FallibleLib TransitionLib

section
variable {Claims : Type}

/-- What `erase` promises: the client does not hold the set any more, a delivery arriving
later neither throws nor leaves an entry, and the erased record is not touched. -/
structure Slot.EraseSafe (s : Slot Claims) : Prop where
  released : .erased ∈ s.history → s.held = false
  found : .notFound ∉ s.history
  noEntry : ∀ newer older responses, s.history = newer ++ .erased :: older →
    .delivered responses ∈ newer → s.responses = none
  untouched : s.fault ≠ some .erasedRecord

/-- An erase finds no request set at the client and no call in progress. -/
def ErasesIdle (s : Slot Claims) (a : Action Claims) : Prop :=
  a = .erase → s.request ≠ none → s.held = false ∧ s.frames = []

/-- The client owes the lambda's call, or the lambda is in progress. -/
def Slot.lambdas (s : Slot Claims) : ℕ :=
  lambdaFrames s.frames + if s.pending then 1 else 0

/-! ### A request that has not been erased -/

structure Slot.Live (s : Slot Claims) : Prop where
  present : s.history ≠ [] → s.request ≠ none
  notErased : .erased ∉ s.history
  found : .notFound ∉ s.history
  untouched : s.fault ≠ some .erasedRecord
  once : s.lambdas ≤ 1
  holds : s.lambdas = 1 → s.held = true

/-- What the work on a present record leaves alone. -/
structure Slot.Kept (s t : Slot Claims) (weight : ℕ) : Prop where
  request : t.request ≠ none
  untouched : s.fault ≠ some .erasedRecord → t.fault ≠ some .erasedRecord
  notErased : .erased ∉ s.history → .erased ∉ t.history
  found : .notFound ∉ s.history → .notFound ∉ t.history
  held : t.held = s.held
  pending : t.pending = s.pending
  frames : lambdaFrames t.frames ≤ lambdaFrames s.frames + weight

theorem Slot.setRequest_kept (s : Slot Claims) (r : Request Claims)
    (responses : Option HTTPResponses) :
    s.Kept ({ s with responses := responses }.setRequest r) 0 where
  request := Option.some_ne_none r
  untouched := id
  notErased := id
  found := id
  held := rfl
  pending := rfl
  frames := Nat.le_refl _

theorem Slot.Kept.note {s t : Slot Claims} {n : ℕ} (h : s.Kept t n) (e : Event Claims)
    (herased : .erased ≠ e) (hfound : .notFound ≠ e) : s.Kept (t.note e) n where
  request := h.request
  untouched := h.untouched
  notErased := fun hs => List.not_mem_cons_of_ne_of_not_mem herased (h.notErased hs)
  found := fun hs => List.not_mem_cons_of_ne_of_not_mem hfound (h.found hs)
  held := h.held
  pending := h.pending
  frames := h.frames

theorem Slot.Kept.back {s t : Slot Claims} (h : s.Kept t 0) (caller : Caller) :
    s.Kept (t.back caller) caller.weight where
  request := h.request
  untouched := h.untouched
  notErased := h.notErased
  found := h.found
  held := h.held
  pending := h.pending
  frames := by
    have hframes := h.frames
    show lambdaFrames (caller.rest ++ t.frames) ≤ _
    rw [lambdaFrames_back]
    omega

theorem Slot.Kept.callback {s t : Slot Claims} (h : s.Kept t 0) (caller : Caller) :
    s.Kept (t.enter (.callback caller)) caller.weight where
  request := h.request
  untouched := h.untouched
  notErased := h.notErased
  found := h.found
  held := h.held
  pending := h.pending
  frames := by
    have hframes := h.frames
    show lambdaFrames (.callback caller :: t.frames) ≤ _
    rw [lambdaFrames_callback]
    omega

theorem Slot.fail_kept (s : Slot Claims) (f : Fault) (hf : f ≠ .erasedRecord)
    (hr : s.request ≠ none) (n : ℕ) : s.Kept (s.fail f) n where
  request := hr
  untouched := fun _ h => hf (Option.some.inj h)
  notErased := id
  found := id
  held := rfl
  pending := rfl
  frames := Nat.le_add_right _ _

theorem Slot.Kept.trans {s t u : Slot Claims} {n m : ℕ} (h : s.Kept t n) (h' : t.Kept u m) :
    s.Kept u (n + m) where
  request := h'.request
  untouched := h'.untouched ∘ h.untouched
  notErased := h'.notErased ∘ h.notErased
  found := h'.found ∘ h.found
  held := h'.held.trans h.held
  pending := h'.pending.trans h.pending
  frames := by
    have hframes := h.frames
    have hframes' := h'.frames
    omega

theorem Slot.verify_kept (s : Slot Claims) (r : Request Claims) (caller : Caller)
    (hr : s.request = some r) : s.Kept (s.verify r caller) caller.weight := by
  unfold Slot.verify
  split
  next => exact (s.setRequest_kept _ s.responses).back caller
  next =>
    dsimp only
    split
    next claims _ =>
      have hverified := (s.setRequest_kept { r with claims := some claims, state := .finished }
        none).note (.verified (s.responses.getD []) (some claims)) (by simp) (by simp)
      split
      · exact (hverified.note .calledBack (by simp) (by simp)).callback caller
      · exact hverified.back caller
    next =>
      exact ((s.setRequest_kept _ none).note (.verified (s.responses.getD []) none) (by simp)
        (by simp)).back caller
    next => exact s.fail_kept _ (by simp) (by simp [hr]) _

theorem Slot.advance_kept (s : Slot Claims) (r : Request Claims) (caller : Caller)
    (hr : s.request = some r) (hbegun : r.state ≠ .submitted) :
    s.Kept (s.advance r caller) caller.weight := by
  unfold Slot.advance
  split
  next => exact (s.setRequest_kept _ s.responses).back caller
  next hstate => exact absurd hstate hbegun
  next => exact (s.setRequest_kept _ s.responses).back caller
  next => exact s.verify_kept r caller hr
  next =>
    have hsame : s.Kept s 0 := { s.setRequest_kept r s.responses with request := by simp [hr] }
    exact hsame.back caller

theorem Slot.Live.le {s t : Slot Claims} (hs : s.Live) (hrequest : t.request ≠ none)
    (hfault : t.fault ≠ some .erasedRecord) (herased : .erased ∉ t.history)
    (hfound : .notFound ∉ t.history) (hheld : t.held = s.held) (hle : t.lambdas ≤ s.lambdas) :
    t.Live where
  present := fun _ => hrequest
  notErased := herased
  found := hfound
  untouched := hfault
  once := hle.trans hs.once
  holds := by
    intro hone
    have honce := hs.once
    rw [hheld]
    exact hs.holds (by omega)

theorem Slot.Live.kept {s u t : Slot Claims} {n : ℕ} (hs : s.Live) (h : u.Kept t n)
    (hfault : u.fault = s.fault) (herased : .erased ∉ u.history) (hfound : .notFound ∉ u.history)
    (hheld : u.held = s.held) (hle : u.lambdas + n ≤ s.lambdas) : t.Live := by
  refine hs.le h.request (h.untouched (hfault ▸ hs.untouched)) (h.notErased herased)
    (h.found hfound) (h.held.trans hheld) ?_
  have hframes := h.frames
  unfold Slot.lambdas at hle ⊢
  rw [h.pending]
  omega

theorem blank_live : ({} : Slot Claims).Live where
  present := fun h => absurd rfl h
  notErased := by simp
  found := by simp
  untouched := by simp
  once := Nat.zero_le 1
  holds := fun h => by cases h

theorem Slot.submit_live (options : Options) (attestation : Option (AttestationApi Claims))
    (httpClient callback : Bool) :
    (({} : Slot Claims).submit options attestation httpClient callback).Live := by
  have hkept (t : Slot Claims) (h : ({} : Slot Claims).Kept t 0) : t.Live :=
    blank_live.kept h rfl (by simp) (by simp) rfl (Nat.le_refl _)
  have hfirst (r : Request Claims) : ({} : Slot Claims).Kept
      ((({} : Slot Claims).setRequest r).note (.submitted options attestation)) 0 :=
    (Slot.setRequest_kept {} r none).note _ (by simp) (by simp)
  have hset (r r' : Request Claims) : ({} : Slot Claims).Kept
      (((({} : Slot Claims).setRequest r).note (.submitted options attestation)).setRequest r') 0 :=
    (hfirst r).trans (Slot.setRequest_kept _ r' none)
  unfold Slot.submit Slot.advance Slot.prepareEndorsements
  dsimp only
  split
  next => exact hkept _ ((hset _ _).back .user)
  next =>
    split
    next => exact hkept _ ((hset _ _).back .user)
    next => exact hkept _ ((hset _ _).trans (Slot.fail_kept _ _ (by simp) (hset _ _).request 0))
    next => exact hkept _ ((hset _ _).trans (Slot.verify_kept _ _ .user rfl))
    next requests _ =>
      have hnoted (r r' : Request Claims) := (hset r r').note (.requested requests) (by simp) (by simp)
      split
      · exact {
          present := fun _ => Option.some_ne_none _
          notErased := by simp [Slot.enter, Slot.note, Slot.setRequest]
          found := by simp [Slot.enter, Slot.note, Slot.setRequest]
          untouched := by simp [Slot.enter, Slot.note, Slot.setRequest]
          once := Nat.le_refl 1
          holds := fun _ => rfl }
      · exact hkept _ ((hnoted _ _).trans (Slot.fail_kept _ _ (by simp) (hnoted _ _).request 0))

/-! ### A request that has been erased -/

structure Slot.Gone (s : Slot Claims) : Prop where
  request : s.request = none
  held : s.held = false
  pending : s.pending = false
  frames : s.frames = []
  fault : s.fault = none
  history : ∃ older, s.history = .erased :: older ∧ .erased ∉ older ∧ .notFound ∉ older

theorem Slot.Gone.step {s t : Slot Claims} (hs : s.Gone) (a : Action Claims)
    (h : s.lifeStep a = some t) : t = s := by
  obtain ⟨older, hhistory, -, -⟩ := hs.history
  obtain ⟨-, hstep, hnew⟩ := s.lifeStep_some t a h
  cases a with
  | submit options attestation httpClient callback =>
    have hempty := hnew ⟨_, _, _, _, rfl⟩
    rw [hhistory] at hempty
    cases hempty
  | advance => simpa [Slot.step, Slot.publicAdvance, hs.request] using hstep.symm
  | erase => simpa [Slot.step, Slot.erase, hs.request] using hstep.symm
  | _ => simp [Slot.step, guarded_some, hs.pending, hs.frames] at hstep

theorem Slot.Live.erase {s : Slot Claims} (hs : s.Live) (hfault : s.fault = none)
    (hidle : s.request ≠ none → s.held = false ∧ s.frames = []) :
    (s.erase false).Live ∨ (s.erase false).Gone := by
  cases hr : s.request with
  | none =>
    left
    simpa [Slot.erase, hr] using hs
  | some r =>
    right
    obtain ⟨hheld, hframes⟩ := hidle (by simp [hr])
    have hnone : s.lambdas ≠ 1 := by
      intro hone
      rw [hs.holds hone] at hheld
      cases hheld
    have hpending : s.pending = false := by
      cases hp : s.pending with
      | false => rfl
      | true =>
        exfalso
        apply hnone
        simp [Slot.lambdas, hframes, hp, lambdaFrames]
    have herase : s.erase false = { s with request := none }.note .erased := by
      simp [Slot.erase, hr]
    rw [herase]
    exact ⟨rfl, hheld, hpending, hframes, hfault, s.history, rfl, hs.notErased, hs.found⟩

/-! ### The steps -/

theorem Slot.leave_lambdas (s : Slot Claims) (f : Frame) (hf : f ∈ s.frames) :
    s.lambdas = (s.leave f).lambdas + if f.isLambda then 1 else 0 := by
  have hframes := lambdaFrames_leave f s.frames hf
  unfold Slot.lambdas
  rw [hframes]
  show _ = lambdaFrames (s.frames.erase f) + (if s.pending then 1 else 0) + _
  omega

theorem Slot.Live.record {s : Slot Claims} (hs : s.Live) (hc : s.Consistent)
    (hcall : s.pending = true ∨ ∃ f, f ∈ s.frames) : ∃ r, s.request = some r := by
  refine Option.ne_none_iff_exists'.1 (hs.present ?_)
  intro hempty
  rw [hc.1 hempty] at hcall
  rcases hcall with hpending | ⟨f, hf⟩
  · cases hpending
  · cases hf

theorem Slot.Live.deliver {s : Slot Claims} (hs : s.Live) (hc : s.core.Sound) (r : Request Claims)
    (hr : s.request = some r) (hpending : s.pending = true) (responses : HTTPResponses)
    (sync : Bool) : (s.deliver responses sync).Live := by
  rw [s.deliver_eq responses sync hc hpending]
  refine hs.le (by simp [Slot.enter, Slot.note, hr]) hs.untouched
    (List.not_mem_cons_of_ne_of_not_mem (by simp) hs.notErased)
    (List.not_mem_cons_of_ne_of_not_mem (by simp) hs.found) rfl ?_
  have hcons := lambdaFrames_cons (.delivery 2 sync) s.frames
  show lambdaFrames (.delivery 2 sync :: s.frames) + 0 ≤ lambdaFrames s.frames + _
  rw [hcons, hpending]
  exact Nat.le_refl _

theorem Slot.Live.leave {s : Slot Claims} (hs : s.Live) (r : Request Claims)
    (hr : s.request = some r) (f : Frame) (hf : f ∈ s.frames) : (s.leave f).Live := by
  have hlambdas := s.leave_lambdas f hf
  have hr' : (s.leave f).request = some r := hr
  exact hs.le (by simp [hr']) hs.untouched hs.notErased hs.found rfl (by omega)

theorem Slot.Live.proceed {s : Slot Claims} (hs : s.Live) (hc : s.core.Sound) (r : Request Claims)
    (hr : s.request = some r) (left : ℕ) (sync : Bool) (hf : .delivery left sync ∈ s.frames) :
    ((s.leave (.delivery left sync)).proceed left sync).Live := by
  have hlambdas : s.lambdas = (s.leave (.delivery left sync)).lambdas + 1 := s.leave_lambdas _ hf
  have honce := hs.once
  have hleft := hs.leave r hr _ hf
  have hr' : (s.leave (.delivery left sync)).request = some r := hr
  unfold Slot.proceed
  cases left with
  | zero =>
    dsimp only
    split
    next =>
      refine hleft.le (by simp [Slot.enter, hr']) hleft.untouched hleft.notErased hleft.found rfl ?_
      have hcons := lambdaFrames_cons .client (s.leave (.delivery 0 sync)).frames
      show lambdaFrames (.client :: (s.leave (.delivery 0 sync)).frames) + _ ≤ _
      rw [hcons]
      exact Nat.le_refl _
    next =>
      have hnone : (s.leave (.delivery 0 sync)).lambdas = 0 := by omega
      exact {
        present := hleft.present
        notErased := hleft.notErased
        found := hleft.found
        untouched := hleft.untouched
        once := hleft.once
        holds := fun hone => absurd (hnone.symm.trans hone) Nat.zero_ne_one }
  | succ left =>
    rw [hr']
    dsimp only
    refine hs.kept (Slot.advance_kept _ r (.lambda left sync) hr' (hc.begun r hr)) rfl
      hs.notErased hs.found rfl ?_
    rw [hlambdas]
    exact Nat.le_refl _

theorem Slot.Live.step {s t : Slot Claims} (hs : s.Live) (hc : s.Consistent) (a : Action Claims)
    (hidle : ErasesIdle s a) (h : s.lifeStep a = some t) : t.Live ∨ t.Gone := by
  obtain ⟨hfault, hstep, hnew⟩ := s.lifeStep_some t a h
  cases a with
  | submit options attestation httpClient callback =>
    left
    rw [hc.1 (hnew ⟨_, _, _, _, rfl⟩)] at hstep
    cases hstep
    exact Slot.submit_live options attestation httpClient callback
  | advance =>
    left
    cases hstep
    unfold Slot.publicAdvance
    split
    next => exact hs
    next r hr =>
      exact hs.kept (u := s.note .advanced) (Slot.advance_kept _ r .user hr (hc.2.begun r hr)) rfl
        (List.not_mem_cons_of_ne_of_not_mem (by simp) hs.notErased)
        (List.not_mem_cons_of_ne_of_not_mem (by simp) hs.found) rfl (Nat.le_refl _)
  | erase =>
    cases hstep
    exact hs.erase hfault (hidle rfl)
  | deliver responses =>
    left
    obtain ⟨hpending, rfl⟩ := (guarded_some _ _ _).1 hstep
    obtain ⟨r, hr⟩ := hs.record hc (Or.inl hpending)
    exact hs.deliver hc.2 r hr hpending responses false
  | clientDeliver responses =>
    left
    obtain ⟨⟨hpending, hf⟩, rfl⟩ := (guarded_some _ _ _).1 hstep
    obtain ⟨r, hr⟩ := hs.record hc (Or.inl hpending)
    exact (hs.leave r hr .client hf).deliver hc.2 r hr hpending responses true
  | clientReturn set =>
    left
    obtain ⟨hf, rfl⟩ := (guarded_some _ _ _).1 hstep
    obtain ⟨r, hr⟩ := hs.record hc (Or.inr ⟨_, hf⟩)
    have hr' : (s.leave .client).request = some r := hr
    unfold Slot.clientReturn
    rw [hr']
    exact (hs.leave r hr .client hf).kept (Slot.setRequest_kept _ _ s.responses) rfl hs.notErased
      hs.found rfl (Nat.le_refl _)
  | clientThrow =>
    left
    obtain ⟨⟨-, hf⟩, rfl⟩ := (guarded_some _ _ _).1 hstep
    obtain ⟨r, hr⟩ := hs.record hc (Or.inr ⟨_, hf⟩)
    have hr' : (s.leave .client).request = some r := hr
    unfold Slot.catchException
    dsimp only [Slot.note]
    rw [hr']
    refine (hs.leave r hr .client hf).kept (u := { s.leave .client with pending := false }.note
      .clientThrew) (Slot.setRequest_kept _ _ s.responses) rfl
      (List.not_mem_cons_of_ne_of_not_mem (by simp) hs.notErased)
      (List.not_mem_cons_of_ne_of_not_mem (by simp) hs.found) rfl ?_
    exact Nat.le_add_right _ _
  | proceed left sync =>
    left
    obtain ⟨hf, rfl⟩ := (guarded_some _ _ _).1 hstep
    obtain ⟨r, hr⟩ := hs.record hc (Or.inr ⟨_, hf⟩)
    exact hs.proceed hc.2 r hr left sync hf
  | callbackReturn caller =>
    left
    obtain ⟨hf, rfl⟩ := (guarded_some _ _ _).1 hstep
    obtain ⟨r, hr⟩ := hs.record hc (Or.inr ⟨_, hf⟩)
    have hr' : (s.leave (.callback caller)).request = some r := hr
    have hlambdas := s.leave_lambdas _ hf
    rw [Frame.callback_isLambda] at hlambdas
    unfold Slot.readState
    rw [hr']
    have hsame : (s.leave (.callback caller)).Kept (s.leave (.callback caller)) 0 :=
      { Slot.setRequest_kept (s.leave (.callback caller)) r s.responses with
        request := by simp [hr'] }
    exact hs.kept (hsame.back caller) rfl hs.notErased hs.found rfl hlambdas.ge
  | callbackThrow caller isStd =>
    left
    obtain ⟨hf, rfl⟩ := (guarded_some _ _ _).1 hstep
    obtain ⟨r, hr⟩ := hs.record hc (Or.inr ⟨_, hf⟩)
    have hr' : (s.leave (.callback caller)).request = some r := hr
    have hlambdas := s.leave_lambdas _ hf
    rw [Frame.callback_isLambda] at hlambdas
    cases isStd with
    | true =>
      unfold Slot.callbackThrow Slot.catchException
      dsimp only [Slot.note]
      rw [hr']
      exact hs.kept (u := (s.leave (.callback caller)).note .callbackThrew)
        ((Slot.setRequest_kept _ _ s.responses).back caller) rfl
        (List.not_mem_cons_of_ne_of_not_mem (by simp) hs.notErased)
        (List.not_mem_cons_of_ne_of_not_mem (by simp) hs.found) rfl hlambdas.ge
    | false =>
      have hleft := hs.leave r hr _ hf
      cases caller with
      | user => exact hleft
      | lambda left sync => simpa [Slot.callbackThrow, Slot.lambdaThrows] using hleft

/-! ### In every run -/

theorem Slot.Live.safe {s : Slot Claims} (hs : s.Live) : s.EraseSafe where
  released := fun h => absurd h hs.notErased
  found := hs.found
  noEntry := by
    intro newer older _ h _
    exact absurd (by simp [h]) hs.notErased
  untouched := hs.untouched

theorem Slot.Gone.safe {s : Slot Claims} (hs : s.Gone) : s.EraseSafe where
  released := fun _ => hs.held
  found := by
    obtain ⟨older, hhistory, -, hfound⟩ := hs.history
    rw [hhistory]
    exact List.not_mem_cons_of_ne_of_not_mem (by simp) hfound
  noEntry := by
    obtain ⟨older, hhistory, herased, -⟩ := hs.history
    intro newer older' _ h hmem
    rw [hhistory] at h
    cases newer with
    | nil => cases hmem
    | cons e newer =>
      cases h
      exact absurd (by simp) herased
  untouched := by
    rw [hs.fault]
    simp

/-- The request `id` is only erased when it is idle. -/
def ErasedIdle (id : ℕ) (c : Config Claims) (l : Label Claims) : Prop :=
  l.id = id → ErasesIdle (c.slot id) l.action

theorem erase_safe (c : Config Claims) (id : ℕ)
    (h : Steps Config.step (ErasedIdle id) {} c) : (c.slot id).EraseSafe := by
  have hslots : Steps Slot.lifeStep ErasesIdle {} (c.slot id) :=
    steps_slot id (fun c a hidle => hidle rfl) h numbered_new
  have hall : (c.slot id).Live ∨ (c.slot id).Gone :=
    hslots.invariant_with Slot.Consistent (fun s => s.Live ∨ s.Gone)
      (fun s a t hc _ hstep => s.lifeStep_consistent t a hc hstep)
      (fun s a t hc hs hidle hstep => hs.elim (fun hlive => hlive.step hc a hidle hstep)
        (fun hgone => Or.inr (by rwa [hgone.step a hstep])))
      blank_consistent (Or.inl blank_live)
  exact hall.elim Slot.Live.safe Slot.Gone.safe

end

/-- The sample request is erased when its callback has returned. -/
theorem erase_safe_sample : ∃ c : Config Sgx.Claims, .erased ∈ c.history 0 ∧
    (c.slot 0).EraseSafe := by
  obtain ⟨claims, hclaims⟩ := sample_verified
  have hsubmit : Steps Config.step (ErasedIdle 0) {}
      (firstConfig (calledBackSlot partialOptions sampleApi claims)) := by
    rw [← submit_calledBack partialOptions sampleApi claims rfl hclaims]
    exact Steps.one (a := submitLabel partialOptions sampleApi false true)
      (fun _ h => by cases h) (step_submit partialOptions sampleApi false true)
  have hreturn := hsubmit.tail (a := ⟨0, .callbackReturn .user⟩) (fun _ h => by cases h)
    (firstConfig_step _ _ _ rfl (by simp) rfl)
  exact ⟨_, by simp [firstConfig, Config.put, Slot.erase, Slot.note, calledBackSlot, Slot.readState,
    Slot.leave, Slot.back, Caller.rest], erase_safe _ 0 (hreturn.tail (a := ⟨0, .erase⟩)
      (fun _ _ _ => ⟨rfl, rfl⟩) (firstConfig_step _ _ _ rfl (by simp) rfl))⟩

/-- The client still holds the request set after the erase. -/
theorem erase_not_safe : ¬ ∀ (c : Config Sgx.Claims) (id : ℕ), Reachable c →
    (c.slot id).EraseSafe := by
  intro h
  obtain ⟨requests, -, hreachable⟩ := sample_requested
  have hreturn := hreachable.tail (a := ⟨0, .clientReturn 0⟩) trivial
    (firstConfig_step _ _ _ rfl (by simp) rfl)
  have herase := hreturn.tail (a := ⟨0, .erase⟩) trivial
    (firstConfig_step _ _ _ rfl (by simp) rfl)
  have hheld := (h _ 0 herase).released (by
    simp [firstConfig, requestedSlot, Slot.leave, Slot.clientReturn, Slot.setRequest, Slot.erase,
      Slot.note])
  cases hheld

end Ravl.Tracker
