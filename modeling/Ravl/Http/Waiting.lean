import Ravl.Http.Asynchronous
import Ravl.Http.CurlCompletion

/-!
# Who is going to call back

For a set that was submitted with a callback, what the curl client and the fetch client have until
they call back: a thread that is running, or a request without its response.
-/

namespace Ravl.Http
open ByteLib FallibleLib TransitionLib

/-- `waits` holds of a set that was accepted with a callback, until it is called back for. -/
structure AsyncClient.Awaits {σ γ α ρ : Type} (C : AsyncClient σ γ α ρ) (waits : σ → γ → ℕ → Prop) : Prop where
  submitted : ∀ s given a t rs, C.Kept s given → C.Allowed s a → C.step s a = some t →
    C.submission a = some (rs, true) → ¬ Accepted (C.submissions s).length (C.history s) →
    Accepted (C.submissions s).length (C.history t) → waits t (C.record s given a) (C.submissions s).length
  keeps : ∀ s given a t number, C.Kept s given → C.Allowed s a → C.step s a = some t →
    number < (C.submissions s).length → waits s given number → callbacks number (C.history t) = [] →
      waits t (C.record s given a) number

/-! ### The curl client -/

namespace CurlRun
variable {r : CurlRun} {given : Replies Reply}

/-- The thread of the set is running and will call back. -/
def Waiting (r : CurlRun) (number : ℕ) : Prop :=
  ∃ id m, r.Watched id m ∧ m.number = number ∧ m.callback = true ∧ m.running = true

variable {t : CurlRun} {number : ℕ}

/-- The threads of other sets are as they were, and so is what is called back for. -/
theorem Waiting.kept (h : r.Waiting number) (id : ℕ)
    (hothers : ∀ id' m, id' ≠ id → r.Watched id' m → t.Watched id' m)
    (hown : ∀ m, r.Watched id m → m.number = number → m.callback = true → m.running = true →
      callbacks number t.history ≠ []) : t.Waiting number ∨ callbacks number t.history ≠ [] := by
  obtain ⟨id', m, hm, hnumber, hcallback, hrunning⟩ := h
  by_cases hid : id' = id
  · subst hid
    exact .inr (hown m hm hnumber hcallback hrunning)
  · exact .inl ⟨id', m, hothers id' m hid hm, hnumber, hcallback, hrunning⟩

/-- Nothing but its callback ends the thread of such a set, short of the program's end. -/
theorem Moves.waiting {a : CurlAction} (hmove : r.Moves a t) (hgood : t.fault = false)
    (h : r.Waiting number) : t.Waiting number ∨ callbacks number t.history ≠ [] := by
  have hsame {id' : ℕ} {m : MonitorThread} (hm : r.Watched id' m) (hcalling : t.calling = r.calling)
      (hlookup : t.client.monitorThreads.lookup id' = r.client.monitorThreads.lookup id') : t.Watched id' m :=
    ⟨hlookup.trans hm.1, hm.2.1, fun ⟨call, hcall, hid⟩ => hm.2.2 ⟨call, hcalling ▸ hcall, hid⟩⟩
  cases hmove with
  | clashed | refused | ended | consumed => exact .inl h
  | submitted rs callback hnone hid =>
    refine h.kept r.client.requests.size (fun _ _ hne hm => hsame hm rfl (AList.lookup_insert_ne hne)) ?_
    intro m hm _ _ hrunning
    replace hgood : (r.client.monitorThreads.lookup r.client.requests.size).any (·.running) = false := hgood
    rw [hm.1, Option.any_some, hrunning] at hgood
    cases hgood
  | calledBack id m tracked entries hnone hm =>
    refine h.kept id (fun id' m' hne hm' => (Tracks.watched_handOver hnone id m.number tracked id' m').2 ⟨hne, hm'⟩) ?_
    intro m' hm' hnumber _ _
    obtain rfl := Option.some.inj (hm.symm.trans hm'.1)
    rw [callbacks_calledBack, if_pos hnumber]
    exact List.cons_ne_nil _ _
  | stopped id m hnone hm hcallback =>
    refine h.kept id (fun _ _ hne hm' => hsame hm' rfl (AList.lookup_insert_ne hne)) ?_
    intro m' hm' _ hcallback' _
    obtain rfl := Option.some.inj (hm.symm.trans hm'.1)
    rw [hcallback] at hcallback'
    cases hcallback'
  | returned call m hcalling hm hcallback =>
    refine h.kept call.id (fun _ _ hne hm' => ⟨(AList.lookup_insert_ne hne).trans hm'.1, hm'.2.1,
      not_callsBack rfl _⟩) ?_
    exact fun m' hm' _ _ _ => absurd ⟨call, hcalling, rfl⟩ hm'.2.2
  | erased id m hm hended =>
    refine h.kept id (fun _ _ hne hm' => hsame hm' rfl (AList.lookup_erase_ne hne)) ?_
    intro m' hm' _ _ hrunning
    obtain rfl := Option.some.inj (hm.symm.trans hm'.1)
    rw [hended] at hrunning
    cases hrunning
  | faulted => cases hgood

/-- A set that is submitted with a callback is waited for, unless `submit` throws. -/
theorem Moves.awaited {rs : HTTPRequests} {performs : Bool} (hmove : r.Moves (.submit rs true performs) t) :
    t.Waiting r.submissions.length ∨ ∀ id held, .submitted r.submissions.length id held ∈ t.history →
      .submitted r.submissions.length id held ∈ r.history := by
  cases hmove with
  | clashed | refused => exact .inr fun id held hmem => by simpa using hmem
  | submitted _ _ hnone hid =>
    exact .inl ⟨_, _, ⟨AList.lookup_insert _, Or.inl rfl, not_callsBack hnone _⟩, rfl, rfl, rfl⟩
  | faulted _ hlocks => cases hlocks

/-- A set that is waited for while nothing of it is under way: one of its transfers has failed. -/
theorem Waiting.failed (hord : r.forget.Ordered) (htracks : r.Tracks given) (h : r.Waiting number)
    (htransfers : ∀ id tracked, r.client.requests.lookup id = some tracked → tracked.multi = {})
    (hrounds : ∀ id t, r.poll id = some t → t.history = r.history) :
    ∃ i before last, given number i = before ++ [last] ∧ last.status = 0 := by
  obtain ⟨id, m, hm, rfl, hcallback, hrunning⟩ := h
  obtain ⟨tracked, hid, -⟩ := htracks.held id m hm
  obtain ⟨entries, hentries, -⟩ := hord.fits id tracked hm.2.2 hid
  have hmulti := htransfers id tracked hid
  have hincomplete : r.client.isComplete id ≠ .ok true := by
    intro hcomplete
    obtain ⟨t, hpoll, hhistory⟩ := poll_delivers hord hm hrunning hcallback hid hentries (by rw [hmulti])
      (by rw [hmulti]) hcomplete
    rw [hrounds id t hpoll] at hhistory
    exact List.cons_ne_self _ _ hhistory.symm
  have hmissing : entries.all (fun e => e.response.status != 0) ≠ true := by
    intro hall
    rw [isComplete_eq hid hentries, hmulti, hall] at hincomplete
    exact hincomplete rfl
  obtain ⟨e, he, hzero⟩ : ∃ e ∈ entries, e.response.status = 0 := by
    simpa using hmissing
  obtain ⟨i, hi⟩ := List.mem_iff_getElem?.1 he
  have hprogress := htracks.progress id m tracked entries hm hid hentries i e hi
  rw [hmulti] at hprogress
  obtain ⟨before, last, hreplies, -, -, hresponse⟩ := hprogress.of_idle
  rw [hresponse] at hzero
  exact ⟨i, before, last, hreplies, hzero⟩

theorem awaits : curl.Awaits fun r _ number => r.fault = false → r.Waiting number where
  submitted r given a t rs h _ hstep ha hnot haccepted hgood := by
    cases a with
    | submit rs' callback performs =>
      obtain ⟨rfl, rfl⟩ := Prod.mk.inj (Option.some.inj ha)
      have hsubmit : r.step (.submit rs' true performs) = some t := hstep
      refine (moves h.ordered hsubmit).awaited.resolve_right fun hthrew => ?_
      obtain ⟨set, held, hmem⟩ := haccepted
      exact hnot ⟨set, held, hthrew set held hmem⟩
    | transfer | poll | callbackReturn | callbackThrow | nestedSubmit | erase => cases ha
  keeps r given a t number h _ hstep _ hwaits hstill hgood :=
    ((moves h.ordered hstep).waiting hgood (hwaits (step_fault hstep))).resolve_right
      fun hcalled => hcalled hstill

end CurlRun

/-! ### The fetch client -/

namespace FetchRun
variable {r t : FetchRun} {given : FetchRecord} {number : ℕ}

/-- The set was erased, or its callback is there and, if it has any requests, a pointer is set. -/
def Waiting (r : FetchRun) (given : FetchRecord) (number : ℕ) : Prop :=
  ∀ id tracked, r.tracker.requests.lookup id = some tracked → given.owner id = number →
    tracked.callback = some number ∧ (tracked.requests = [] ∨ true ∈ tracked.fetches)

theorem Waiting.submit (h : r.Waiting given number) (htracks : r.Tracks given)
    (hnumber : number < r.submissions.length) (rs : HTTPRequests) (callback : Bool) :
    (r.submit rs callback).Waiting (r.record given (.submit rs callback)) number := by
  unfold FetchRun.submit
  dsimp only [record]
  by_cases hid : r.tracker.requests.size ∈ r.tracker.requests
  · rw [if_pos hid, if_pos hid]
    exact h
  · have hnew : r.tracker.requests.size ∉ r.tracker.responses := fun hmem => hid (htracks.responses _ hmem)
    rw [if_neg hid, if_neg hnew, if_neg hid]
    intro id tracked hlookup howner
    obtain ⟨rfl, rfl⟩ | ⟨hne, hold⟩ := SetMap.of_insert hlookup
    · have hlast : r.submissions.length = number := (Function.update_self ..).symm.trans howner
      omega
    · exact h id tracked hold ((Function.update_of_ne hne _ _).symm.trans howner)

theorem waiting_submitted (htracks : r.Tracks given) (rs : HTTPRequests) :
    (r.submit rs true).Waiting (r.record given (.submit rs true)) r.submissions.length := by
  have hearlier {id : ℕ} {tracked : FetchRequests} (hold : r.tracker.requests.lookup id = some tracked) :
      given.owner id ≠ r.submissions.length :=
    Nat.ne_of_lt (htracks.owner_lt (SetMap.mem_of_lookup hold))
  unfold FetchRun.submit
  dsimp only [record]
  by_cases hid : r.tracker.requests.size ∈ r.tracker.requests
  · rw [if_pos hid, if_pos hid]
    exact fun id tracked hlookup howner => absurd howner (hearlier hlookup)
  · have hnew : r.tracker.requests.size ∉ r.tracker.responses := fun hmem => hid (htracks.responses _ hmem)
    rw [if_neg hid, if_neg hnew, if_neg hid]
    intro id tracked hlookup howner
    obtain ⟨rfl, rfl⟩ | ⟨hne, hold⟩ := SetMap.of_insert hlookup
    · refine ⟨rfl, ?_⟩
      cases rs with
      | nil => exact .inl rfl
      | cons request rs => exact .inr (by simp)
    · exact absurd ((Function.update_of_ne hne _ _).symm.trans howner) (hearlier hold)

theorem Waiting.completes (h : r.Waiting given number) (htracks : r.Tracks given) {fetch : Fetch}
    {reply : FetchReply} (hfetch : fetch ∈ r.outstanding) {tracked : FetchRequests} {entries : List Entry}
    (hid : r.tracker.requests.lookup fetch.id = some tracked)
    (hentries : r.tracker.responses.lookup fetch.id = some entries)
    (hcompletes : r.Completes fetch reply tracked entries t) (hstill : callbacks number t.history = []) :
    t.Waiting given number := by
  have hput {fetches : List Bool} (hset : tracked.callback = some number → true ∈ fetches)
      {id : ℕ} {tracked' : FetchRequests}
      (hlookup : (r.tracker.requests.insert fetch.id { tracked with fetches }).lookup id = some tracked')
      (howner : given.owner id = number) :
      tracked'.callback = some number ∧ (tracked'.requests = [] ∨ true ∈ tracked'.fetches) := by
    obtain ⟨rfl, rfl⟩ | ⟨-, hold⟩ := SetMap.of_insert hlookup
    · have hcallback := (h fetch.id tracked hid howner).1
      exact ⟨hcallback, .inr (hset hcallback)⟩
    · exact h id tracked' hold howner
  cases hcompletes with
  | lost h429 =>
    obtain ⟨-, -, -, hset, -⟩ := htracks.underWay hfetch hid hentries
    have hi := (List.getElem?_eq_some_iff.1 hset).1
    exact fun id tracked' => hput fun _ => List.mem_set hi true
  | stored hstatus hopen =>
    refine fun id tracked' => hput fun hcallback => ?_
    have hnone : tracked.callback ≠ none := by
      rw [hcallback]
      exact Option.some_ne_none _
    obtain ⟨flag, hmem, hflag⟩ := List.all_eq_false.1 (hopen.resolve_left hnone)
    have htrue : flag = true := by simpa using hflag
    exact htrue ▸ hmem
  | calledBack n hstatus hcallback hall =>
    intro id tracked' hlookup howner
    obtain ⟨rfl, -⟩ | ⟨-, hold⟩ := SetMap.of_insert hlookup
    · -- the set would have been called back for
      have hnumber := (h fetch.id tracked hid howner).1
      obtain rfl := Option.some.inj (hcallback.symm.trans hnumber)
      rw [callbacks_calledBack, if_pos rfl] at hstill
      cases hstill
    · exact h id tracked' hold howner

theorem Waiting.complete (h : r.Waiting given number) (htracks : r.Tracks given) {fetch : Fetch}
    (reply : FetchReply) (hfetch : fetch ∈ r.outstanding)
    (hstill : callbacks number (r.complete fetch reply).history = []) :
    (r.complete fetch reply).Waiting (r.record given (.complete fetch reply)) number := by
  cases hid : r.tracker.requests.lookup fetch.id with
  | none =>
    rw [complete_unheld fetch reply hid, record, if_neg (AList.lookup_eq_none.1 hid)]
    exact h
  | some tracked =>
    obtain ⟨entries, hentries, -⟩ := htracks.sets fetch.id tracked hid
    rw [record, if_pos (SetMap.mem_of_lookup hid)]
    exact h.completes htracks hfetch hid hentries (htracks.completes reply hfetch hid hentries) hstill

theorem Waiting.step (h : r.Waiting given number) (hkept : r.Kept given) (hnumber : number < r.submissions.length)
    {a : FetchAction} (hstep : r.step a = some t) (hstill : callbacks number t.history = []) :
    t.Waiting (r.record given a) number := by
  unfold FetchRun.step at hstep
  split at hstep
  · cases hstep
  cases a with
  | submit rs callback =>
    cases hstep
    exact h.submit hkept.tracks hnumber rs callback
  | complete fetch reply =>
    dsimp only at hstep
    split at hstep
    next hready =>
      cases hstep
      exact h.complete hkept.tracks reply hready.2 hstill
    next => cases hstep
  | callbackReturn =>
    obtain ⟨call, -, rfl⟩ := Option.map_eq_some_iff.1 hstep
    exact fun id tracked hlookup howner => h id tracked (SetMap.of_erase hlookup).2 howner
  | callbackThrow =>
    obtain ⟨call, -, rfl⟩ := Option.map_eq_some_iff.1 hstep
    exact h
  | erase id =>
    cases hstep
    unfold FetchRun.erase
    split
    · exact h
    · exact fun id' tracked hlookup howner => h id' tracked (SetMap.of_erase hlookup).2 howner

theorem awaits : fetch.Awaits Waiting where
  submitted r given a t rs h _ hstep ha _ _ := by
    obtain ⟨rfl, rfl⟩ := step_submit ha hstep
    exact waiting_submitted h.tracks rs
  keeps r given a t number h _ hstep hnumber hwaits hstill := hwaits.step h hnumber hstep hstill

/-- A set that is waited for while no fetch is under way. -/
theorem Waiting.failed (h : r.Waiting given number) (htracks : r.Tracks given) (hidle : r.outstanding = [])
    (hopen : callbacks number r.history = []) :
    (∀ id ∈ r.tracker.requests, given.owner id ≠ number) ∨ r.submissions[number]? = some [] ∨
      ∃ i reply, given.replies number i = [reply] ∧ reply.status = 429 := by
  by_cases hheld : ∃ id ∈ r.tracker.requests, given.owner id = number
  · obtain ⟨id, hmem, howner⟩ := hheld
    obtain ⟨tracked, hid⟩ := Option.isSome_iff_exists.1 (AList.lookup_isSome.2 hmem)
    obtain ⟨entries, hentries, hfetches, hrs, -⟩ := htracks.sets id tracked hid
    rw [howner] at hrs
    obtain ⟨-, hempty | hset⟩ := h id tracked hid howner
    · exact .inr (.inl (hempty ▸ hrs))
    · obtain ⟨i, hi⟩ := List.mem_iff_getElem?.1 hset
      have hlt : i < tracked.requests.length := hfetches ▸ (List.getElem?_eq_some_iff.1 hi).1
      obtain ⟨flag, e, hflag, -, hprogress⟩ := htracks.place hid hentries (howner ▸ hopen)
        (List.getElem?_eq_getElem hlt)
      obtain rfl := Option.some.inj (hi.symm.trans hflag)
      rw [hidle, howner] at hprogress
      obtain ⟨reply, hgot, h429⟩ := hprogress.of_stuck
      exact .inr (.inr ⟨i, reply, hgot, h429⟩)
  · exact .inl fun id hmem howner => hheld ⟨id, hmem, howner⟩

end FetchRun

end Ravl.Http
