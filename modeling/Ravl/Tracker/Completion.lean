import Ravl.Http.Waiting
import Ravl.Tracker.Delivery
import Ravl.Tracker.Work

/-!
# Where requests hang

The tracker and the curl client together lose no request: what the tracker waits for the client has
accepted, and a thread of the client is going to call back for it. When nothing goes on any more, a
request that is not settled waits for a set of which a transfer has failed.
-/

namespace Ravl.Tracker
open ByteLib FallibleLib TransitionLib
open Http (AsyncClient Accepted acceptedId Taken Answered callbacks Replies)

section
variable {Claims : Type}

/-! ### Calls of the client's `submit` -/

theorem call_of_leave {f : Frame} {frames : List Frame} (hf : f ≠ .client) (h : .client ∈ frames) :
    .client ∈ frames.erase f :=
  (List.mem_erase_of_ne hf.symm).2 h

/-- Such a call is ended by the client alone. -/
theorem Slot.step_call (s t : Slot Claims) (a : Action Claims) (hown : a.isClients = false)
    (hlater : ∀ o att k cb, a ≠ .submit o att k cb) (hs : s.core.Sound) (h : s.step false a = some t)
    (hcall : .client ∈ s.frames) : .client ∈ t.frames := by
  cases a with
  | submit options attestation httpClient callback => exact absurd rfl (hlater _ _ _ _)
  | advance =>
    cases h
    unfold Slot.publicAdvance
    split
    · exact hcall
    next r hr => exact ((s.note .advanced).advance_advanced r .user hr (hs.begun r hr)).frames _ hcall
  | erase =>
    cases h
    unfold Slot.erase
    split <;> exact hcall
  | deliver | clientDeliver | clientReturn | clientThrow => cases hown
  | proceed left sync =>
    obtain ⟨-, rfl⟩ := (guarded_some _ _ _).1 h
    have hleft : .client ∈ (s.leave (.delivery left sync)).frames := call_of_leave (by simp) hcall
    unfold Slot.proceed
    split
    · split
      · exact List.mem_cons_self
      · exact hleft
    · split
      · rw [Slot.lambdaThrows_frames]
        exact hleft
      next r hr => exact (Slot.advance_advanced _ r _ hr (hs.begun r hr)).frames _ hleft
  | callbackReturn caller =>
    obtain ⟨-, rfl⟩ := (guarded_some _ _ _).1 h
    have hleft : .client ∈ (s.leave (.callback caller)).frames := call_of_leave (by simp) hcall
    unfold Slot.readState
    split <;> exact List.mem_append_right _ hleft
  | callbackThrow caller isStd =>
    obtain ⟨-, rfl⟩ := (guarded_some _ _ _).1 h
    have hleft : .client ∈ (s.leave (.callback caller)).frames := call_of_leave (by simp) hcall
    unfold Slot.callbackThrow
    cases isStd with
    | true =>
      refine List.mem_append_right _ ?_
      rw [Slot.catchException_frames]
      exact hleft
    | false =>
      cases caller with
      | user => exact hleft
      | lambda left sync =>
        rw [Slot.lambdaThrows_frames]
        exact hleft

theorem Slot.prepareEndorsements_call (s : Slot Claims) (r : Request Claims) (caller : Caller)
    (hidle : s.pending ≠ true) : (s.prepareEndorsements r caller).pending = true →
      .client ∈ (s.prepareEndorsements r caller).frames := by
  unfold Slot.prepareEndorsements
  dsimp only
  split
  · exact fun hpending => absurd hpending hidle
  · split
    · exact fun hpending => absurd hpending hidle
    · exact fun hpending => absurd hpending hidle
    · intro hpending
      rw [(Slot.verify_advanced _ _ caller).pending] at hpending
      exact absurd hpending hidle
    · split
      · exact fun _ => List.mem_cons_self
      · exact fun hpending => absurd hpending hidle

end

/-! ### What the tracker waits for -/

section
variable {Claims σ γ α ρ : Type} {C : AsyncClient σ γ α ρ}

/-- The client's `submit` is in progress, or it has accepted the request's set. -/
structure Joint.Asked (C : AsyncClient σ γ α ρ) (s : Joint Claims σ γ) : Prop where
  numbers : ∀ number, Accepted number (C.history s.client) → number < (C.submissions s.client).length
  asked : ∀ id, s.tracker.pending id = true → .client ∈ s.tracker.frames id ∨
    ∃ number, s.owners[number]? = some (some id) ∧ Accepted number (C.history s.client)

namespace Joint.Asked
variable {s t : Joint Claims σ γ}

theorem start : (Joint.start C : Joint Claims σ γ).Asked C where
  numbers number h := by
    obtain ⟨id, held, hmem⟩ := h
    rw [show C.history (Joint.start C : Joint Claims σ γ).client = [] from C.first_history] at hmem
    cases hmem
  asked id h := by cases h

/-- A step of the tracker, by what it does to the request it is about. -/
theorem tracker (h : s.Asked C) (hs : Reachable s.tracker) {l : Label Claims} {c : Config Claims}
    (hstep : s.tracker.step l = some c)
    (hown : (c.slot l.id).pending = true → .client ∈ (c.slot l.id).frames ∨
      ∃ number, s.owners[number]? = some (some l.id) ∧ Accepted number (C.history s.client)) :
    Joint.Asked C { s with tracker := c } where
  numbers := h.numbers
  asked id hpending := by
    obtain ⟨-, hothers⟩ := Config.step_slot hs hstep
    by_cases hid : id = l.id
    · subst hid
      exact hown hpending
    · have hsame := hothers id hid
      have hpending' : (s.tracker.slot id).pending = true := hsame ▸ hpending
      obtain hcall | hasked := h.asked id hpending'
      · exact .inl (show .client ∈ (c.slot id).frames from hsame ▸ hcall)
      · exact .inr hasked

theorem own (h : s.Asked C) (hs : s.Linked C) {l : Label Claims} {c : Config Claims}
    (hclients : l.action.isClients = false) (hstep : s.tracker.step l = some c) :
    Joint.Asked C { s with tracker := c } := by
  refine h.tracker hs.reachable hstep fun hpending => ?_
  obtain ⟨hslot, -⟩ := Config.step_slot hs.reachable hstep
  obtain ⟨o, att, k, cb, -, hnew⟩ | hlater := Config.step_submitted hs.reachable hstep
  · rw [hnew] at hpending ⊢
    exact .inl (Slot.prepareEndorsements_call _ _ _ Bool.false_ne_true hpending)
  · have hsound := (reachable_consistent hs.reachable l.id).2
    have hapart := Slot.step_apart _ _ l.action hclients hlater hsound (hs.concerns l.id).async hslot
    rw [hapart.pending] at hpending
    exact (h.asked l.id hpending).imp_left (Slot.step_call _ _ l.action hclients hlater hsound hslot)

theorem returned (h : s.Asked C) (hs : s.Linked C) {id number : ℕ}
    (hmine : s.owners[number]? = some (some id)) {c : Config Claims}
    (hstep : s.tracker.step ⟨id, returnAction (acceptedId number (C.history s.client))⟩ = some c) :
    Joint.Asked C { s with tracker := c } := by
  refine h.tracker hs.reachable hstep fun hpending => ?_
  obtain ⟨hslot, -⟩ := Config.step_slot hs.reachable hstep
  dsimp only at hslot hpending
  cases haccepted : acceptedId number (C.history s.client) with
  | some set => exact .inr ⟨number, hmine, Http.accepted_of_acceptedId haccepted⟩
  | none =>
    rw [haccepted] at hslot
    obtain ⟨-, heq⟩ := (guarded_some _ _ _).1 hslot
    rw [← heq] at hpending
    unfold Slot.catchException at hpending
    split at hpending <;> cases hpending

theorem answered (h : s.Asked C) {client : σ} {given : γ}
    (hsubmissions : C.submissions client = C.submissions s.client)
    (hanswered : Answered (C.history s.client) (C.history client)) :
    Joint.Asked C { s with client, given } where
  numbers number haccepted := by
    show number < (C.submissions client).length
    rw [hsubmissions]
    exact h.numbers number ((hanswered.accepted_iff number).1 haccepted)
  asked id hpending := (h.asked id hpending).imp_right fun ⟨number, hmine, haccepted⟩ =>
    ⟨number, hmine, (hanswered.accepted_iff number).2 haccepted⟩

theorem client (h : s.Asked C) (hs : s.Linked C) {owner : Option ℕ} {a : α}
    (hmoves : s.ClientMoves C owner a t) : t.Asked C := by
  cases hmoves with
  | submitted rs callback client hstep ha =>
    obtain ⟨hsubmissions, htaken⟩ := C.submitted _ _ _ _ rs callback hs.kept hstep ha
    refine ⟨fun number haccepted => ?_, fun id hpending => ?_⟩
    · show number < (C.submissions client).length
      rw [hsubmissions, List.length_append, List.length_singleton]
      by_cases hnew : number = (C.submissions s.client).length
      · omega
      · exact Nat.lt_succ_of_lt (h.numbers number ((htaken.accepted_iff hnew).1 haccepted))
    · refine (h.asked id hpending).imp_right fun ⟨number, hmine, haccepted⟩ => ?_
      refine ⟨number, ?_, htaken.keeps_accepted haccepted⟩
      show (s.owners ++ [owner])[number]? = some (some id)
      rw [List.getElem?_append_left (List.getElem?_eq_some_iff.1 hmine).1]
      exact hmine
  | quiet client hstep ha | theirs client number entries hstep ha =>
    obtain ⟨hsubmissions, hanswered⟩ := C.other _ _ _ _ hs.kept hstep ha
    exact h.answered hsubmissions hanswered
  | ours client number entries id tracker hstep ha hhistory howner hdeliver =>
    obtain ⟨hsubmissions, hanswered⟩ := C.other _ _ _ _ hs.kept hstep ha
    have hnext : Joint.Asked C { s with client, given := C.record s.client s.given a } :=
      h.answered hsubmissions hanswered
    refine hnext.tracker hs.reachable hdeliver fun hpending => ?_
    -- the request has got what it waited for
    obtain ⟨hslot, -⟩ := Config.step_slot hs.reachable hdeliver
    obtain ⟨hwaiting, heq⟩ := (guarded_some _ _ _).1 hslot
    rw [← heq, Slot.deliver_eq _ _ _ (reachable_consistent hs.reachable id).2 hwaiting] at hpending
    cases hpending

theorem step (h : s.Asked C) (hs : s.Linked C) {a : JointAction Claims α} (hstep : s.step C a = some t) :
    t.Asked C := by
  cases Joint.moves C hs.kept hstep with
  | own l c hown hc => exact h.own hs hown hc
  | ended l c b client hown hc hends hb hallowed hclient hhistory hover =>
    exact (h.own hs hown hc).client (hs.tracker l hown hc) (.ends C s c hb hclient hhistory)
  | returned id number c hmine hc => exact h.returned hs hmine hc
  | client _ owner b t hb hfree howner hmoves => exact h.client hs hmoves

end Joint.Asked

theorem Joint.Reached.asked {s : Joint Claims σ γ} (h : s.Reached C) : s.Asked C :=
  Steps.invariant_with (Joint.Linked C) (Joint.Asked C)
    (fun _ _ _ hs hallowed hstep => hs.step hallowed hstep)
    (fun _ _ _ hs h _ hstep => h.step hs hstep) h .start .start

/-! ### What the client still has -/

/-- Every accepted set of a request is called back for or waited for. -/
def Joint.Served (C : AsyncClient σ γ α ρ) (waits : σ → γ → ℕ → Prop) (s : Joint Claims σ γ) : Prop :=
  ∀ number id, s.owners[number]? = some (some id) → Accepted number (C.history s.client) →
    callbacks number (C.history s.client) = [] → waits s.client s.given number

namespace Joint.Served
variable {waits : σ → γ → ℕ → Prop} {s t : Joint Claims σ γ}

theorem start : (Joint.start C : Joint Claims σ γ).Served C waits := by
  intro number id hmine
  cases hmine

theorem client (h : s.Served C waits) (hawaits : C.Awaits waits) (hs : s.Linked C) (hasked : s.Asked C)
    {owner : Option ℕ} {a : α} (hallowed : C.Allowed s.client a)
    (howner : ∀ id, owner = some id → ∃ rs, C.submission a = some (rs, true))
    (hmoves : s.ClientMoves C owner a t) : t.Served C waits := by
  -- the sets that were there before
  have hkept {client : σ} (hstep : C.step s.client a = some client) {number id : ℕ}
      (hmine : s.owners[number]? = some (some id)) (haccepted : Accepted number (C.history s.client))
      (hfirst : callbacks number (C.history s.client) = [])
      (hstill : callbacks number (C.history client) = []) :
      waits client (C.record s.client s.given a) number := by
    have hnumber : number < (C.submissions s.client).length :=
      hs.length ▸ (List.getElem?_eq_some_iff.1 hmine).1
    exact hawaits.keeps _ _ _ _ number hs.kept hallowed hstep hnumber (h number id hmine haccepted hfirst) hstill
  have hanswered {client : σ} (hstep : C.step s.client a = some client) (ha : C.submission a = none)
      {number id : ℕ} (hmine : s.owners[number]? = some (some id)) (haccepted : Accepted number (C.history client))
      (hstill : callbacks number (C.history client) = []) :
      waits client (C.record s.client s.given a) number := by
    obtain ⟨-, hanswered⟩ := C.other _ _ _ _ hs.kept hstep ha
    exact hkept hstep hmine ((hanswered.accepted_iff number).1 haccepted) (hanswered.callbacks_nil hstill) hstill
  cases hmoves with
  | quiet client hstep ha | theirs client number entries hstep ha | ours client number entries id tracker hstep ha =>
    exact fun number id hmine haccepted hstill => hanswered hstep ha hmine haccepted hstill
  | submitted rs callback client hstep ha =>
    intro number id hmine haccepted hstill
    obtain ⟨-, htaken⟩ := C.submitted _ _ _ _ rs callback hs.kept hstep ha
    have hlength := hs.length
    replace hmine : (s.owners ++ [owner])[number]? = some (some id) := hmine
    by_cases hlt : number < s.owners.length
    · rw [List.getElem?_append_left hlt] at hmine
      have hold : number ≠ (C.submissions s.client).length := by omega
      exact hkept hstep hmine ((htaken.accepted_iff hold).1 haccepted)
        ((htaken.callbacks_eq number).symm.trans hstill) hstill
    · have hle : number < (s.owners ++ [owner]).length := (List.getElem?_eq_some_iff.1 hmine).1
      rw [List.length_append, List.length_singleton] at hle
      obtain rfl : number = s.owners.length := by omega
      rw [List.getElem?_concat_length] at hmine
      obtain ⟨rs', hrs'⟩ := howner id (Option.some.inj hmine)
      rw [hlength] at haccepted ⊢
      exact hawaits.submitted _ _ _ _ rs' hs.kept hallowed hstep hrs'
        (fun hold => absurd (hasked.numbers _ hold) (lt_irrefl _)) haccepted

theorem step (h : s.Served C waits) (hawaits : C.Awaits waits) (hs : s.Linked C) (hasked : s.Asked C)
    {a : JointAction Claims α} (hallowed : s.Allowed C a) (hstep : s.step C a = some t) :
    t.Served C waits := by
  cases Joint.moves C hs.kept hstep with
  | own | returned => exact h
  | ended l c b client hown hc hends hb hallowed' hclient hhistory hover =>
    have hmid : Joint.Served C waits { s with tracker := c } := h
    exact hmid.client hawaits (hs.tracker l hown hc) (hasked.own hs hown hc) hallowed'
      (fun id hid => by cases hid) (.ends C s c hb hclient hhistory)
  | client _ owner b t hb hfree howner hmoves =>
    exact h.client hawaits hs hasked (hb hallowed) (fun id hid => ⟨_, (howner id hid).2.2⟩) hmoves

end Joint.Served

theorem Joint.Reached.served {waits : σ → γ → ℕ → Prop} (hawaits : C.Awaits waits) {s : Joint Claims σ γ}
    (h : s.Reached C) : s.Served C waits :=
  Steps.invariant_with (fun s => s.Linked C ∧ s.Asked C) (Joint.Served C waits)
    (fun _ _ _ hs hallowed hstep => ⟨hs.1.step hallowed hstep, hs.2.step hs.1 hstep⟩)
    (fun _ _ _ hs h hallowed hstep => h.step hawaits hs.1 hs.2 hallowed hstep) h ⟨.start, .start⟩ .start

theorem Joint.Linked.uncalled {s : Joint Claims σ γ} (h : s.Linked C) {id number : ℕ}
    (hpending : s.tracker.pending id = true) (hmine : s.owners[number]? = some (some id)) :
    callbacks number (C.history s.client) = [] := by
  obtain hnone | ⟨-, entries, honce⟩ := h.called number
  · exact hnone
  · have hdelivered : .delivered (entries.map Http.Entry.response) ∈ (s.tracker.slot id).history :=
      ((h.concerns id).delivered _).2 ⟨number, entries, hmine, by rw [honce]; exact List.mem_cons_self, rfl⟩
    exact absurd ((reachable_consistent h.reachable id).2.undelivered hpending)
      ((deliveredIn_ne_none _).2 ⟨_, hdelivered⟩)

/-- A request about which no call is in progress is settled, or it waits for its set, which has not
been called back for. -/
theorem Joint.Reached.settled {waits : σ → γ → ℕ → Prop} (hawaits : C.Awaits waits) {s : Joint Claims σ γ}
    (h : s.Reached C) (hrun : s.tracker.stopped = false) (id : ℕ) (hended : s.tracker.frames id = [])
    (r : Request Claims) (hr : s.tracker.requests id = some r) : (r.state = .finished ∨ r.state = .error) ∨
      ∃ number, s.owners[number]? = some (some id) ∧ callbacks number (C.history s.client) = [] ∧
        waits s.client s.given number := by
  have hlinked := h.linked
  have hfault := (reachable_numbered hlinked.reachable).running hrun id
  obtain hpending | hdone | ⟨left, sync, hmem, -⟩ := reachable_owed hlinked.reachable id hfault r hr
  · obtain hcall | ⟨number, hmine, haccepted⟩ := h.asked.asked id hpending
    · rw [hended] at hcall
      cases hcall
    · have hopen := hlinked.uncalled hpending hmine
      exact .inr ⟨number, hmine, hopen, h.served hawaits number id hmine haccepted hopen⟩
  · exact .inl (r.state.completed_of_rank hdone)
  · have hno : .delivery left sync ∈ s.tracker.frames id := hmem
    rw [hended] at hno
    cases hno

end

/-! ### The tracker and the curl client at rest -/

section
variable {Claims : Type}

abbrev CurlJoint (Claims : Type) := Joint Claims Http.CurlRun (Http.Replies Http.Reply)

/-- No call and no callback of the client is in progress, no transfer is running or still to be looked
at, and no round of a thread calls back. -/
structure Joint.AtRest (s : CurlJoint Claims) : Prop where
  calls : ∀ id, s.tracker.frames id = []
  callback : s.client.calling = none
  transfers : ∀ set tracked, s.client.client.requests.lookup set = some tracked → tracked.multi = {}
  rounds : ∀ set client, s.client.step (.poll set) = some client → client.history = s.client.history

/-- When the tracker and the curl client have come to rest, every request is settled, or a transfer
of the set that it waits for has ended without a status. -/
theorem hangs_only_on_failure {s : CurlJoint Claims} (h : s.Reached Http.curl)
    (hrun : s.tracker.stopped = false) (hgood : s.client.fault = false) (hrest : s.AtRest) (id : ℕ)
    (r : Request Claims) (hr : s.tracker.requests id = some r) :
    r.state = .finished ∨ r.state = .error ∨ ∃ number i before last,
      s.owners[number]? = some (some id) ∧ s.given number i = before ++ [last] ∧ last.status = 0 := by
  obtain hsettled | ⟨number, hmine, -, hwaits⟩ :=
    h.settled Http.CurlRun.awaits hrun id (hrest.calls id) r hr
  · exact hsettled.imp_right .inl
  · have hkept := h.linked.kept
    obtain ⟨i, before, last, hgiven, hzero⟩ :=
      (hwaits hgood).failed hkept.ordered hkept.tracks hrest.transfers fun set client hpoll =>
        hrest.rounds set client ((Http.CurlRun.step_poll hgood hrest.callback set).trans hpoll)
    exact .inr (.inr ⟨number, i, before, last, hmine, hgiven, hzero⟩)

/-- A connection that fails after `submit` has returned. -/
def hanging : List (JointAction (List ℕ) Http.CurlAction) := [
  .tracker ⟨0, .submit {} (some statusApi) true true⟩, .request 0 (.submit [{ url := text "a" }] true true),
  .returned 0 0, .client (.transfer 0 0 ⟨0, [], []⟩), .client (.poll 0)]

theorem hanging_atRest {s : CurlJoint (List ℕ)}
    (hs : run (Joint.step Http.curl) (.start Http.curl) hanging = some s) : s.Reached Http.curl ∧ s.AtRest ∧
      s.tracker.stopped = false ∧ s.client.fault = false ∧ s.tracker.state 0 = .waitingForEndorsements := by
  have hreached : s.Reached Http.curl := run_steps _ (fun a _ s => by cases a <;> trivial) hs
  have hseen : (run (Joint.step Http.curl) (.start Http.curl : CurlJoint (List ℕ)) hanging).all fun s =>
      decide ((s.tracker.stopped = false ∧ s.client.fault = false ∧
        s.tracker.state 0 = .waitingForEndorsements) ∧
        (s.tracker.nextRequestId = 1 ∧ s.tracker.frames 0 = [] ∧ s.client.calling = none) ∧
        (s.client.client.requests.keys = [0] ∧ ∀ tracked ∈ s.client.client.requests.lookup 0,
          tracked.multi = {}) ∧
        s.client.client.monitorThreads.keys = [0] ∧ ∀ client ∈ s.client.poll 0,
          client.history = s.client.history) := by
    decide +kernel
  rw [hs, Option.all_some, decide_eq_true_eq] at hseen
  obtain ⟨hstate, ⟨hnext, hframes, hcalling⟩, ⟨hsets, hmulti⟩, hthreads, hround⟩ := hseen
  refine ⟨hreached, ⟨fun id => ?_, hcalling, fun set tracked hset => ?_, fun set client hpoll => ?_⟩, hstate⟩
  · cases id with
    | zero => exact hframes
    | succ id =>
      have hblank := (reachable_numbered hreached.linked.reachable).unused (id + 1) (by omega)
      exact congrArg Slot.frames hblank
  · have hmem : set ∈ s.client.client.requests.keys := AList.lookup_isSome.1 (by rw [hset]; rfl)
    rw [hsets, List.mem_singleton] at hmem
    subst hmem
    exact hmulti tracked hset
  · rw [Http.CurlRun.step_poll hstate.2.1 hcalling] at hpoll
    have hmem : set ∈ s.client.client.monitorThreads.keys := by
      refine AList.lookup_isSome.1 (Option.ne_none_iff_isSome.1 fun hnone => ?_)
      rw [Http.CurlRun.poll, hnone] at hpoll
      cases hpoll
    rw [hthreads, List.mem_singleton] at hmem
    subst hmem
    exact hround client hpoll

theorem hangs_only_on_failure_sample : ∃ s : CurlJoint (List ℕ), s.tracker.state 0 = .waitingForEndorsements ∧
    ∃ number i before last, s.owners[number]? = some (some 0) ∧ s.given number i = before ++ [last] ∧
      last.status = 0 := by
  have hruns : (run (Joint.step Http.curl) (.start Http.curl : CurlJoint (List ℕ)) hanging).isSome := by
    decide +kernel
  obtain ⟨s, hs⟩ := Option.isSome_iff_exists.1 hruns
  obtain ⟨hreached, hrest, hrun, hgood, hstate⟩ := hanging_atRest hs
  refine ⟨s, hstate, ?_⟩
  unfold Config.state at hstate
  cases hr : s.tracker.requests 0 with
  | none =>
    rw [hr] at hstate
    cases hstate
  | some r =>
    rw [hr, stateOf] at hstate
    have hhangs := hangs_only_on_failure hreached hrun hgood hrest 0 r hr
    rw [hstate] at hhangs
    simpa using hhangs

end

/-! ### The tracker and the fetch client at rest -/

section
variable {Claims : Type}

abbrev FetchJoint (Claims : Type) := Joint Claims Http.FetchRun Http.FetchRecord

/-- When no call about a request is in progress and no fetch is under way, the request is settled, or
the set that it waits for was erased, has nothing in it, or has got a reply with status 429. -/
theorem hangs_only_when_lost {s : FetchJoint Claims} (h : s.Reached Http.fetch)
    (hrun : s.tracker.stopped = false) (hidle : s.client.outstanding = []) (id : ℕ)
    (hended : s.tracker.frames id = []) (r : Request Claims) (hr : s.tracker.requests id = some r) :
    r.state = .finished ∨ r.state = .error ∨ ∃ number, s.owners[number]? = some (some id) ∧
      ((∀ set ∈ s.client.tracker.requests, s.given.owner set ≠ number) ∨
        s.client.submissions[number]? = some [] ∨
        ∃ i reply, s.given.replies number i = [reply] ∧ reply.status = 429) := by
  obtain hsettled | ⟨number, hmine, hopen, hwaits⟩ := h.settled Http.FetchRun.awaits hrun id hended r hr
  · exact hsettled.imp_right .inl
  · exact .inr (.inr ⟨number, hmine, hwaits.failed h.linked.kept.tracks hidle hopen⟩)

/-- The first reply has status 429. -/
theorem hangs_only_when_lost_sample : ∃ s : FetchJoint (List ℕ), s.tracker.state 0 = .waitingForEndorsements ∧
    ∃ number, s.owners[number]? = some (some 0) ∧
      ((∀ set ∈ s.client.tracker.requests, s.given.owner set ≠ number) ∨
        s.client.submissions[number]? = some [] ∨
        ∃ i reply, s.given.replies number i = [reply] ∧ reply.status = 429) := by
  have hfirst : Joint.Reached Http.fetch _ := Steps.one
    (a := .tracker ⟨0, .submit {} (some statusApi) true true⟩) trivial rfl
  have hsecond : Joint.Reached Http.fetch _ := hfirst.tail
    (a := .request 0 (.submit [{ url := text "a" }] true)) (fun _ => nofun) rfl
  have hthird : Joint.Reached Http.fetch _ := hsecond.tail (a := .returned 0 0) trivial rfl
  have hfourth : Joint.Reached Http.fetch _ := hthird.tail
    (a := .client (.complete ⟨0, 0, text "a"⟩ ⟨429, [], []⟩)) trivial rfl
  have hhangs := hangs_only_when_lost hfourth rfl rfl 0 rfl _ rfl
  exact ⟨_, rfl, (hhangs.resolve_left nofun).resolve_left nofun⟩

end

end Ravl.Tracker
