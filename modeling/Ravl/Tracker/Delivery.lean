import Ravl.Tracker.Lambda

/-!
# What gets from the client to a request

With the real client the tracker's assumptions about it hold in every run: nothing that the client
does finds the tracker unprepared. What is delivered for a request are the replies to the requests
that its own attestation prepared; and once the calls about it have ended, its result is what
`verify` makes of them.
-/

namespace Ravl.Tracker
open ByteLib FallibleLib TransitionLib
open Http (AsyncClient Accepted acceptedId Entry callbacks)

section
variable {Claims σ γ α ρ : Type} {C : AsyncClient σ γ α ρ} {s : Joint Claims σ γ}

/-! ### The tracker's assumptions -/

theorem Config.step_enabled {c : Config Claims} (h : Reachable c) (hrun : c.stopped = false) (id : ℕ)
    (a : Action Claims) (hlater : ∀ o att k cb, a ≠ .submit o att k cb) {t : Slot Claims}
    (hstep : (c.slot id).step false a = some t) : ∃ c', c.step ⟨id, a⟩ = some c' := by
  have hallow : c.allows ⟨id, a⟩ = true := by
    unfold Config.allows
    split
    next o att k cb haction => exact absurd haction (hlater o att k cb)
    next => rfl
  refine ⟨{ c with nextRequestId := c.nextAfter a }.put id t, ?_⟩
  rw [Config.step, if_pos ⟨hrun, hallow⟩, (reachable_numbered h).httpClient, hstep]
  rfl

theorem Joint.Linked.clientStep_enabled (h : s.Linked C) (hrun : s.tracker.stopped = false)
    (owner : Option ℕ) (a : α) (client : σ) (hclient : C.step s.client a = some client) :
    ∃ t, s.clientStep C owner a = some t := by
  simp only [Joint.clientStep, Option.bind_eq_bind, hclient, Option.bind_some]
  cases ha : C.submission a with
  | some submitted =>
    obtain ⟨rs, callback⟩ := submitted
    rw [calledBack_taken (C.submitted _ _ _ _ rs callback h.kept hclient ha).2]
    exact ⟨_, rfl⟩
  | none =>
    have hanswered := (C.other _ _ _ _ h.kept hclient ha).2
    obtain ⟨hquiet, -⟩ | ⟨number, entries, hcalled, hhistory⟩ := calledBack_answered hanswered
    · rw [hquiet]
      exact ⟨_, rfl⟩
    · rw [hcalled]
      dsimp only
      cases howner : s.owners[number]?.join with
      | none => exact ⟨_, rfl⟩
      | some id =>
        have hmine := join_eq.1 howner
        rw [hhistory] at hanswered
        obtain ⟨haccepted, hfirst⟩ := hanswered.of_calledBack
        obtain ⟨hpending, -⟩ := (h.concerns id).ours (reachable_consistent h.reachable id).2 number entries
          hmine (fun n hn => h.once n number id hn hmine) haccepted hfirst
        obtain ⟨c, hc⟩ := Config.step_enabled h.reachable hrun id (.deliver (entries.map Entry.response))
          (by simp) ((guarded_some _ _ _).2 ⟨hpending, rfl⟩)
        dsimp only
        rw [hc]
        exact ⟨_, rfl⟩

theorem Joint.Linked.returned_enabled (h : s.Linked C) (hrun : s.tracker.stopped = false) (id number : ℕ)
    (hcall : .client ∈ s.tracker.frames id) (hmine : s.owners[number]? = some (some id)) :
    ∃ t, s.step C (.returned id number) = some t := by
  have hclient : .client ∈ (s.tracker.slot id).frames := hcall
  have hstep : ∃ t, (s.tracker.slot id).step false
      (returnAction (acceptedId number (C.history s.client))) = some t := by
    cases haccepted : acceptedId number (C.history s.client) with
    | some set => exact ⟨_, (guarded_some _ _ _).2 ⟨hclient, rfl⟩⟩
    | none =>
      -- a set that was refused is not called back for, so the callback is still owed
      have hpending := (h.concerns id).owed ⟨fun n hn => by
        rw [h.once n number id hn hmine]
        exact (h.called number).resolve_right fun hcalled =>
          Http.acceptedId_none haccepted hcalled.1, Or.inl hclient⟩
      exact ⟨_, (guarded_some _ _ _).2 ⟨⟨hpending, hclient⟩, rfl⟩⟩
  obtain ⟨t, ht⟩ := hstep
  obtain ⟨c, hc⟩ := Config.step_enabled h.reachable hrun id _
    (by cases acceptedId number (C.history s.client) <;> simp [returnAction]) ht
  exact ⟨_, by rw [Joint.step, if_pos hmine, hc]; rfl⟩

/-- A step of the tracker that is not the client's can be made in the joint run: where the lambda
ends in it, the client is in its callback. -/
theorem Joint.Linked.tracker_enabled (h : s.Linked C) (hgood : C.stopped s.client = false) {l : Label Claims}
    (hown : l.action.isClients = false) {c : Config Claims} (hc : s.tracker.step l = some c) :
    ∃ t, s.step C (.tracker l) = some t := by
  have hclients : ¬ l.action.isClients = true := Bool.eq_false_iff.1 hown
  simp only [Joint.step, if_neg hclients, hc, Option.bind_eq_bind, Option.bind_some]
  by_cases hends : s.LambdaEnds C l.id c
  · rw [if_pos hends]
    obtain ⟨hrun, hcallee, -⟩ := hends
    obtain ⟨number, hcalling, -⟩ := Option.bind_eq_some_iff.1 hcallee
    obtain ⟨client, hclient⟩ := C.ends_enabled s.client number (! l.action.returns) hcalling hgood
    exact Joint.Linked.clientStep_enabled (h.tracker l hown hc) hrun none _ client hclient
  · rw [if_neg hends]
    exact ⟨_, rfl⟩

/-- In every run, as long as neither the tracker nor the client has stopped, each does what it can do on
its own: when the client calls back for a request, the tracker has not got anything for the request yet,
and when its `submit` throws, it will not call back; and when the tracker ends a lambda, the client is in
the callback. Only a lambda's end is not the client's to choose. -/
theorem client_never_refused (h : s.Reached C) (hrun : s.tracker.stopped = false) :
    (∀ a client, C.step s.client a = some client → (C.ending a = true → s.callee C = none) →
      ∃ t, s.step C (.client a) = some t) ∧
    (∀ id a client, .client ∈ s.tracker.frames id → some id ∉ s.owners →
      C.submission a = some (requestedIn (s.tracker.history id), true) →
      C.step s.client a = some client → ∃ t, s.step C (.request id a) = some t) ∧
    (∀ id number : ℕ, .client ∈ s.tracker.frames id → s.owners[number]? = some (some id) →
      ∃ t, s.step C (.returned id number) = some t) ∧
    (C.stopped s.client = false →
      (∀ l c, l.action.isClients = false → s.tracker.step l = some c →
        ∃ t, s.step C (.tracker l) = some t) ∧
      ∀ id, lambdaFrames (s.tracker.frames id) = if s.callee C = some id then 1 else 0) := by
  have hlinked := h.linked
  refine ⟨fun a client hclient hfree => ?_, fun id a client hcall hnew ha hclient => ?_,
    fun id number hcall hmine => hlinked.returned_enabled hrun id number hcall hmine,
    fun hgood => ⟨fun l c hown hc => hlinked.tracker_enabled hgood hown hc, h.calls hrun hgood⟩⟩
  · rw [Joint.step, if_pos ⟨hrun, hfree⟩]
    exact hlinked.clientStep_enabled hrun none a client hclient
  · rw [Joint.step, if_pos ⟨hrun, hcall, hnew, ha⟩]
    exact hlinked.clientStep_enabled hrun (some id) a client hclient

/-! ### What is delivered -/

/-- These entries are the replies to what the attestation of the request prepared. -/
structure Joint.Replied (C : AsyncClient σ γ α ρ) (s : Joint Claims σ γ) (id number : ℕ) (options : Options)
    (api : AttestationApi Claims) (entries : List Entry) : Prop where
  submitted : .submitted options (some api) ∈ s.tracker.history id
  owner : s.owners[number]? = some (some id)
  called : callbacks number (C.history s.client) = [entries]
  replies : ∃ rs, api.prepareEndorsements options = .ok (some rs) ∧
    (C.submissions s.client)[number]? = some rs ∧
    C.reading.Fulfils (C.replies s.given number) rs entries

theorem Joint.Linked.replied (h : s.Linked C) {id number : ℕ} {entries : List Entry}
    (hmine : s.owners[number]? = some (some id)) (hcalled : entries ∈ callbacks number (C.history s.client)) :
    Accepted number (C.history s.client) ∧ ∃ options api, s.Replied C id number options api entries := by
  obtain ⟨rs, hrs, hrequested⟩ := (h.concerns id).requested number hmine
  obtain ⟨options, api, hsubmitted, hprepare⟩ := (h.concerns id).prepared rs hrequested
  obtain ⟨rs', hrs', hfulfils⟩ := C.fulfils _ _ number entries h.kept hcalled
  obtain rfl := Option.some.inj (hrs'.symm.trans hrs)
  obtain hnone | ⟨haccepted, entries', honce⟩ := h.called number
  · rw [hnone] at hcalled
    cases hcalled
  · rw [honce, List.mem_singleton] at hcalled
    exact ⟨haccepted, options, api, hsubmitted, hmine, hcalled ▸ honce, rs', hprepare, hrs', hfulfils⟩

/-- The request was erased, or its completion callback threw. -/
def Event.disturbs : Event Claims → Bool
  | .erased => true
  | .callbackThrew => true
  | _ => false

end

/-! ### A callback that overtakes the return of `submit` -/

/-- Its claims are the statuses of what it downloads. -/
def statusApi : AttestationApi (List ℕ) where
  prepareEndorsements _ := .ok (some [{ url := text "a" }])
  verify _ responses := .ok ((responses.getD []).map HTTPResponse.status)

def overtaken : List (JointAction (List ℕ) Http.CurlAction) := [
  .tracker ⟨0, .submit {} (some statusApi) true true⟩, .request 0 (.submit [{ url := text "a" }] true true),
  .client (.transfer 0 0 ⟨200, [], []⟩), .client (.poll 0), .client (.poll 0), .returned 0 0,
  .tracker ⟨0, .proceed 2 false⟩, .tracker ⟨0, .proceed 1 false⟩,
  .tracker ⟨0, .callbackReturn (.lambda 0 false)⟩, .tracker ⟨0, .proceed 0 false⟩]

/-- What is looked at in the states of the sample run -/
structure Glimpse where
  stopped : Bool
  fault : Bool
  owners : List (Option ℕ)
  callee : Option ℕ
  frames : List Frame
  called : List (List Entry)
  disturbed : Bool
  early : ℕ
  result : Option (List ℕ)
  deriving DecidableEq

def glimpse (s : Joint (List ℕ) Http.CurlRun (Http.Replies Http.Reply)) : Glimpse where
  stopped := s.tracker.stopped
  fault := s.client.fault
  owners := s.owners
  callee := s.callee Http.curl
  frames := s.tracker.frames 0
  called := callbacks 0 s.client.history
  disturbed := (s.tracker.history 0).any Event.disturbs
  early := earlyAdvances (s.tracker.history 0)
  result := (s.tracker.result 0).toOption

theorem overtaken_reached (n : ℕ) (seen : Glimpse)
    (h : (run (Joint.step Http.curl) (.start Http.curl) (overtaken.take n)).map glimpse = some seen) :
    ∃ s : Joint (List ℕ) Http.CurlRun (Http.Replies Http.Reply), s.Reached Http.curl ∧ glimpse s = seen := by
  obtain ⟨s, hs, heq⟩ := Option.map_eq_some_iff.1 h
  refine ⟨s, run_steps _ (fun a _ s => ?_) hs, heq⟩
  cases a <;> trivial

def statusEntry : Entry := ⟨{ status := 200 }, some (text "a")⟩

theorem client_never_refused_sample : ∃ s : Joint (List ℕ) Http.CurlRun (Http.Replies Http.Reply),
    .client ∈ s.tracker.frames 0 ∧ callbacks 0 s.client.history = [[statusEntry]] ∧
      (∃ t, s.step Http.curl (.returned 0 0) = some t) ∧ lambdaFrames (s.tracker.frames 0) = 1 := by
  obtain ⟨s, hs, hseen⟩ := overtaken_reached 5 ⟨false, false, [some 0], some 0,
    [.delivery 2 false, .client], [[statusEntry]], false, 0, none⟩ (by decide +kernel)
  have hframes : s.tracker.frames 0 = [.delivery 2 false, .client] := congrArg Glimpse.frames hseen
  have howners : s.owners = [some 0] := congrArg Glimpse.owners hseen
  have hclient : .client ∈ s.tracker.frames 0 := by
    rw [hframes]
    simp
  obtain ⟨-, -, hreturned, hcallee⟩ := client_never_refused hs (congrArg Glimpse.stopped hseen)
  obtain ⟨-, hlambdas⟩ := hcallee (congrArg Glimpse.fault hseen)
  exact ⟨s, hclient, congrArg Glimpse.called hseen, hreturned 0 0 hclient (by rw [howners]; rfl),
    (hlambdas 0).trans (if_pos (congrArg Glimpse.callee hseen))⟩

end Ravl.Tracker
