import Ravl.Tracker.Soundness

/-!
# What a request has to do with its client

A request gives its client one set, when it is submitted. Every later step that is not the client's
own leaves alone what the client is concerned with: whether a callback is owed, the call of `submit`
that is in progress, and what was requested and delivered.
-/

namespace Ravl.Tracker
open ByteLib FallibleLib TransitionLib

section
variable {Claims : Type}

/-- The steps that the client makes. -/
def Action.isClients : Action Claims → Bool
  | .deliver _ => true
  | .clientDeliver _ => true
  | .clientReturn _ => true
  | .clientThrow => true
  | _ => false

def Event.isOutward : Event Claims → Bool
  | .requested _ => true
  | .delivered _ => true
  | .clientThrew => true
  | _ => false

/-- The lambda was called from inside `submit`. -/
def Caller.isSync : Caller → Bool
  | .user => false
  | .lambda _ sync => sync

def Frame.isSync : Frame → Bool
  | .client => false
  | .delivery _ sync => sync
  | .callback caller => caller.isSync

/-- The client called back later, if it did. -/
def Slot.Async (s : Slot Claims) : Prop := ∀ f ∈ s.frames, f.isSync = false

structure Slot.Apart (s t : Slot Claims) : Prop where
  pending : t.pending = s.pending
  calls : t.frames.count .client ≤ s.frames.count .client
  async : s.Async → t.Async
  outward : ∀ e ∈ t.history, e.isOutward = true → e ∈ s.history

namespace Slot.Apart
variable {s t u : Slot Claims}

theorem refl (s : Slot Claims) : s.Apart s := ⟨rfl, Nat.le_refl _, id, fun _ he _ => he⟩

theorem trans (h : s.Apart t) (h' : t.Apart u) : s.Apart u where
  pending := h'.pending.trans h.pending
  calls := h'.calls.trans h.calls
  async := h'.async ∘ h.async
  outward e he hout := h.outward e (h'.outward e he hout) hout

theorem setRequest (h : s.Apart t) (r : Request Claims) : s.Apart (t.setRequest r) :=
  ⟨h.pending, h.calls, h.async, h.outward⟩

theorem fail (h : s.Apart t) (f : Fault) : s.Apart (t.fail f) :=
  ⟨h.pending, h.calls, h.async, h.outward⟩

theorem note (h : s.Apart t) (e : Event Claims) (he : e.isOutward = false) : s.Apart (t.note e) where
  pending := h.pending
  calls := h.calls
  async := h.async
  outward e' he' hout := by
    obtain rfl | hmem := List.mem_cons.1 he'
    · rw [he] at hout
      cases hout
    · exact h.outward e' hmem hout

theorem back (h : s.Apart t) {caller : Caller} (hcaller : caller.isSync = false) :
    s.Apart (t.back caller) where
  pending := h.pending
  calls := by
    cases caller with
    | user => exact h.calls
    | lambda left sync =>
      show List.count Frame.client (.delivery left sync :: t.frames) ≤ _
      rw [List.count_cons_of_ne (by simp)]
      exact h.calls
  async hs f hf := by
    cases caller with
    | user => exact h.async hs f hf
    | lambda left sync =>
      obtain rfl | hmem := List.mem_cons.1 hf
      · exact hcaller
      · exact h.async hs f hmem
  outward := h.outward

theorem callback (h : s.Apart t) {caller : Caller} (hcaller : caller.isSync = false) :
    s.Apart (t.enter (.callback caller)) where
  pending := h.pending
  calls := by
    show List.count Frame.client (.callback caller :: t.frames) ≤ _
    rw [List.count_cons_of_ne (by simp)]
    exact h.calls
  async hs f hf := by
    obtain rfl | hmem := List.mem_cons.1 hf
    · exact hcaller
    · exact h.async hs f hmem
  outward := h.outward

theorem leave (s : Slot Claims) (f : Frame) : s.Apart (s.leave f) where
  pending := rfl
  calls := List.erase_sublist.count_le _
  async hs g hg := hs g (List.mem_of_mem_erase hg)
  outward _ he _ := he

theorem catchException (s : Slot Claims) : s.Apart s.catchException := by
  unfold Slot.catchException
  split
  next => exact (refl s).fail _
  next => exact (refl s).setRequest _

theorem lambdaThrows (s : Slot Claims) (isStd sync : Bool) : s.Apart (s.lambdaThrows isStd sync) := by
  unfold Slot.lambdaThrows
  split
  · exact catchException s
  · exact refl s

theorem readState (s : Slot Claims) : s.Apart s.readState := by
  unfold Slot.readState
  split
  next => exact (refl s).fail _
  next => exact refl s

theorem verify (s : Slot Claims) (r : Request Claims) {caller : Caller} (hcaller : caller.isSync = false) :
    s.Apart (s.verify r caller) := by
  have hread (r' : Request Claims) : s.Apart ({ s with responses := none }.setRequest r') :=
    ⟨rfl, Nat.le_refl _, id, fun _ he _ => he⟩
  unfold Slot.verify
  split
  next => exact ((refl s).setRequest _).back hcaller
  next =>
    dsimp only
    split
    next =>
      split
      · exact (((hread _).note _ rfl).note _ rfl).callback hcaller
      · exact ((hread _).note _ rfl).back hcaller
    next => exact ((hread _).note _ rfl).back hcaller
    next => exact (refl s).fail _

theorem advance (s : Slot Claims) (r : Request Claims) {caller : Caller} (hcaller : caller.isSync = false)
    (hbegun : r.state ≠ .submitted) : s.Apart (s.advance r caller) := by
  unfold Slot.advance
  split
  next => exact ((refl s).setRequest _).back hcaller
  next hstate => exact absurd hstate hbegun
  next => exact ((refl s).setRequest _).back hcaller
  next => exact verify s r hcaller
  next => exact (refl s).back hcaller

theorem proceed (s : Slot Claims) (left : ℕ) (hbegun : ∀ r, s.request = some r → r.state ≠ .submitted) :
    s.Apart (s.proceed left false) := by
  unfold Slot.proceed
  split
  next => exact ⟨rfl, Nat.le_refl _, id, fun _ he _ => he⟩
  next left =>
    split
    next => exact ((refl s).note .notFound rfl).trans (lambdaThrows _ true false)
    next r hr => exact advance s r rfl (hbegun r hr)

theorem callbackThrow (s : Slot Claims) {caller : Caller} (hcaller : caller.isSync = false) (isStd : Bool) :
    s.Apart (s.callbackThrow caller isStd) := by
  cases isStd with
  | true => exact (((refl s).note .callbackThrew rfl).trans (catchException _)).back hcaller
  | false =>
    cases caller with
    | user => exact refl s
    | lambda left sync => exact lambdaThrows s false sync

end Slot.Apart

/-- One step that is not the client's, of a request that was submitted before. -/
theorem Slot.step_apart (s t : Slot Claims) (a : Action Claims) (hown : a.isClients = false)
    (hlater : ∀ o att k cb, a ≠ .submit o att k cb) (hs : s.core.Sound) (hasync : s.Async)
    (h : s.step false a = some t) : s.Apart t := by
  cases a with
  | submit options attestation httpClient callback => exact absurd rfl (hlater _ _ _ _)
  | advance =>
    cases h
    unfold Slot.publicAdvance
    split
    next => exact .refl s
    next r hr => exact ((Slot.Apart.refl s).note .advanced rfl).trans (.advance _ r rfl (hs.begun r hr))
  | erase =>
    cases h
    unfold Slot.erase
    split
    next => exact .refl s
    next =>
      have hgone : s.Apart { s with request := none } := ⟨rfl, Nat.le_refl _, id, fun _ he _ => he⟩
      exact hgone.note .erased rfl
  | proceed left sync =>
    obtain ⟨hf, rfl⟩ := (guarded_some _ _ _).1 h
    obtain rfl : sync = false := hasync _ hf
    exact (Slot.Apart.leave s _).trans (.proceed _ left hs.begun)
  | callbackReturn caller =>
    obtain ⟨hf, rfl⟩ := (guarded_some _ _ _).1 h
    exact ((Slot.Apart.leave s _).trans (.readState _)).back (hasync _ hf)
  | callbackThrow caller isStd =>
    obtain ⟨hf, rfl⟩ := (guarded_some _ _ _).1 h
    exact (Slot.Apart.leave s _).trans (.callbackThrow _ (hasync _ hf) isStd)
  | deliver | clientDeliver | clientReturn | clientThrow => cases hown

/-- The client is called with what the attestation prepared, and nothing else happens to it. -/
structure Slot.Asks (s : Slot Claims) (options : Options) (attestation : Option (AttestationApi Claims)) :
    Prop where
  calls : s.frames.count .client ≤ 1
  async : s.Async
  owed : .client ∈ s.frames → s.pending = true
  prepared : ∀ rs, .requested rs ∈ s.history → ∃ api, attestation = some api ∧
    api.prepareEndorsements options = .ok (some rs)
  asked : .client ∈ s.frames → ∃ rs, .requested rs ∈ s.history
  undelivered : ∀ responses, .delivered responses ∉ s.history
  unrefused : .clientThrew ∉ s.history

theorem Slot.Apart.asks {t : Slot Claims} {options : Options} {attestation : Option (AttestationApi Claims)}
    (h : ({} : Slot Claims).Apart t) : t.Asks options attestation := by
  have hcalls : t.frames.count .client = 0 := Nat.le_zero.1 h.calls
  have hclient : .client ∉ t.frames := List.count_eq_zero.1 hcalls
  exact {
    calls := hcalls.trans_le (Nat.zero_le 1)
    async := h.async fun f hf => absurd hf List.not_mem_nil
    owed := fun hmem => absurd hmem hclient
    prepared := fun rs hmem => absurd (h.outward _ hmem rfl) List.not_mem_nil
    asked := fun hmem => absurd hmem hclient
    undelivered := fun rs hmem => absurd (h.outward _ hmem rfl) List.not_mem_nil
    unrefused := fun hmem => absurd (h.outward _ hmem rfl) List.not_mem_nil }

theorem Slot.submit_asks (options : Options) (attestation : Option (AttestationApi Claims))
    (httpClient callback : Bool) :
    (({} : Slot Claims).submit options attestation httpClient callback).Asks options attestation := by
  have hfirst (r : Request Claims) := ((Slot.Apart.refl ({} : Slot Claims)).setRequest r).note
    (.submitted options attestation) rfl
  unfold Slot.submit Slot.advance Slot.prepareEndorsements
  dsimp only
  split
  next => exact ((((hfirst _).setRequest _).setRequest _).back rfl).asks
  next api =>
    split
    next => exact ((((hfirst _).setRequest _).setRequest _).back rfl).asks
    next => exact (((hfirst _).setRequest _).fail _).asks
    next => exact ((((hfirst _).setRequest _).setRequest _).trans (.verify _ _ rfl)).asks
    next requests hrequests =>
      have hprepared (rs : HTTPRequests)
          (hmem : .requested rs ∈ ([.requested requests, .submitted options (some api)] : List (Event Claims))) :
          ∃ api', some api = some api' ∧ api'.prepareEndorsements options = .ok (some rs) := by
        obtain heq | hmem := List.mem_cons.1 hmem
        · cases heq
          exact ⟨api, rfl, hrequests⟩
        · cases List.mem_singleton.1 hmem
      have hundelivered (responses : HTTPResponses) : .delivered responses ∉
          ([.requested requests, .submitted options (some api)] : List (Event Claims)) := by simp
      split
      · exact {
          calls := Nat.le_refl 1
          async := fun f hf => by rw [List.mem_singleton.1 hf]; rfl
          owed := fun _ => rfl
          prepared := hprepared
          asked := fun _ => ⟨requests, List.mem_cons_self ..⟩
          undelivered := hundelivered
          unrefused := by simp [Slot.enter, Slot.note, Slot.setRequest] }
      · exact {
          calls := Nat.zero_le 1
          async := fun f hf => absurd hf List.not_mem_nil
          owed := fun hmem => absurd hmem List.not_mem_nil
          prepared := hprepared
          asked := fun hmem => absurd hmem List.not_mem_nil
          undelivered := hundelivered
          unrefused := by simp [Slot.fail, Slot.note, Slot.setRequest] }

/-! ### The lambda's calls -/

def Frame.isLambda : Frame → Bool
  | .client => false
  | .delivery _ _ => true
  | .callback .user => false
  | .callback (.lambda _ _) => true

def lambdaFrames (frames : List Frame) : ℕ := frames.countP Frame.isLambda

/-- How many calls of the lambda are in progress when `advance` returns to this caller. -/
def Caller.weight : Caller → ℕ
  | .user => 0
  | .lambda _ _ => 1

theorem lambdaFrames_cons (f : Frame) (frames : List Frame) :
    lambdaFrames (f :: frames) = lambdaFrames frames + if f.isLambda then 1 else 0 :=
  List.countP_cons

theorem lambdaFrames_leave (f : Frame) (frames : List Frame) (h : f ∈ frames) :
    lambdaFrames frames = lambdaFrames (frames.erase f) + if f.isLambda then 1 else 0 := by
  rw [← lambdaFrames_cons]
  exact (List.perm_cons_erase h).countP_eq _

theorem lambdaFrames_back (frames : List Frame) (caller : Caller) :
    lambdaFrames (caller.rest ++ frames) = lambdaFrames frames + caller.weight := by
  cases caller with
  | user => rfl
  | lambda left sync => exact lambdaFrames_cons (.delivery left sync) frames

theorem lambdaFrames_callback (frames : List Frame) (caller : Caller) :
    lambdaFrames (.callback caller :: frames) = lambdaFrames frames + caller.weight := by
  rw [lambdaFrames_cons]
  cases caller <;> rfl

theorem Frame.callback_isLambda (caller : Caller) :
    (if (Frame.callback caller).isLambda then 1 else 0) = caller.weight := by
  cases caller <;> rfl

end

end Ravl.Tracker
