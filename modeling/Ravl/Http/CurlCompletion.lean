import Ravl.Http.CurlReplies
import Ravl.Http.RequestSets

/-!
# When a set of the curl client is complete

A status of 0 marks a request without an answer. A transfer that fails leaves it there, so its set
is never complete and its thread polls for ever; nothing else keeps a set from being complete.
-/

namespace Ravl.Http
open ByteLib FallibleLib TransitionLib

namespace CurlRun

/-- Every transfer that ends has got an HTTP status. -/
def HasStatus (_ : CurlRun) : CurlAction → Prop
  | .transfer _ _ reply => reply.status ≠ 0
  | _ => True

variable {r : CurlRun} {given : Replies Reply}

theorem given_status (h : Run HasStatus r given) (number i : ℕ) : ∀ reply ∈ given number i, reply.status ≠ 0 := by
  have hall : ∀ number i, ∀ reply ∈ (r, given).2 number i, reply.status ≠ 0 := by
    refine h.invariant (fun s => ∀ number i, ∀ reply ∈ s.2 number i, reply.status ≠ 0)
      (fun s a t hs hok hstep => ?_) nofun
    rw [(recorded_some hstep).2]
    cases a with
    | transfer id j reply =>
      intro n k other hother
      simp only [record] at hother
      cases hm : s.1.client.monitorThreads.lookup id with
      | none =>
        rw [hm] at hother
        exact hs n k other hother
      | some m =>
        rw [hm] at hother
        obtain hother | rfl := Replies.mem_note hother
        · exact hs n k other hother
        · exact hok
    | submit | poll | callbackReturn | callbackThrow | nestedSubmit | erase => exact hs
  exact hall number i

/-- When nothing of a set is under way and every reply had a status, every response has one. -/
theorem Tracks.all_status (h : r.Tracks given) (hstatus : ∀ number i, ∀ reply ∈ given number i, reply.status ≠ 0)
    {id : ℕ} {m : MonitorThread} {tracked : TrackedRequests} {entries : List Entry} (hm : r.Watched id m)
    (hid : r.client.requests.lookup id = some tracked)
    (hentries : r.client.responses.lookup id = some entries) (hrunning : tracked.multi.running = [])
    (hqueue : tracked.multi.queue = []) : entries.all (fun e => e.response.status != 0) = true := by
  rw [List.all_eq_true]
  intro e he
  obtain ⟨i, hi⟩ := List.mem_iff_getElem?.1 he
  have hmulti : tracked.multi = ⟨[], []⟩ := by
    rw [← hrunning, ← hqueue]
  have hprogress := h.progress id m tracked entries hm hid hentries i e hi
  rw [hmulti] at hprogress
  obtain ⟨before, last, hreplies, -, -, hresponse⟩ := hprogress.of_idle
  have hlast := hstatus m.number i last (by rw [hreplies]; simp)
  rw [hresponse, bne_iff_ne]
  exact hlast

theorem poll_delivers (hord : r.forget.Ordered) {id : ℕ} {m : MonitorThread} {tracked : TrackedRequests}
    {entries : List Entry} (hm : r.Watched id m) (hrunning : m.running = true)
    (hcallback : m.callback = true) (hid : r.client.requests.lookup id = some tracked)
    (hentries : r.client.responses.lookup id = some entries) (hempty : tracked.multi.running = [])
    (hqueue : tracked.multi.queue = []) (hcomplete : r.client.isComplete id = .ok true) :
    ∃ t, r.poll id = some t ∧ t.history = .calledBack m.number entries :: r.history := by
  obtain ⟨running, entries', hall, hconsume, -⟩ := hord.consumeMsgs hm.2.2 hid hentries
  replace hconsume : r.client.consumeMsgs id = .ok { r.client with
      requests := r.client.requests.insert id { tracked with multi := ⟨running, []⟩ }
      responses := r.client.responses.insert id entries' } := hconsume
  rw [hempty, hqueue] at hall
  obtain ⟨rfl, rfl⟩ := Prod.mk.inj (Except.ok.inj hall)
  unfold CurlRun.poll
  rw [hm.1]
  simp only [hrunning, Bool.true_eq_false, if_false, hcomplete, hcallback, if_true, hconsume,
    AList.lookup_insert]
  exact ⟨_, rfl, rfl⟩

/-- As long as no transfer ends without a status, a set of which nothing is running and nothing is
waiting is complete, and the next round of its thread calls back with a response for each request,
in order; no callback is called twice. -/
theorem idle_set_complete (r : CurlRun) (h : Steps step HasStatus {} r) :
    (∀ id m tracked, r.Watched id m → r.client.requests.lookup id = some tracked →
      tracked.multi.running = [] → tracked.multi.queue = [] →
      r.client.isComplete id = .ok true ∧ r.submissions[m.number]? = some tracked.requests ∧
      (m.running = true → m.callback = true → ∃ t entries, r.poll id = some t ∧
        callbacks m.number t.history = [entries] ∧ Answers tracked.requests entries)) ∧
    ∀ number, (callbacks number r.history).length ≤ 1 := by
  obtain ⟨given, hrun⟩ := h.recorded record fun _ _ => []
  obtain ⟨hord, htracks⟩ := run_tracks hrun
  refine ⟨fun id m tracked hm hid hempty hqueue => ?_, htracks.once⟩
  obtain ⟨entries, hentries, hfits⟩ := hord.fits id tracked hm.2.2 hid
  have hstatus := htracks.all_status (given_status hrun) hm hid hentries hempty hqueue
  have hcomplete : r.client.isComplete id = .ok true := by
    rw [isComplete_eq hid hentries, hempty, hstatus]
    rfl
  obtain ⟨tracked', hid', hnumber⟩ := htracks.held id m hm
  obtain rfl := Option.some.inj (hid'.symm.trans hid)
  refine ⟨hcomplete, hnumber, fun hrunning hcallback => ?_⟩
  obtain ⟨t, hpoll, hhistory⟩ := poll_delivers hord hm hrunning hcallback hid hentries hempty hqueue hcomplete
  refine ⟨t, entries, hpoll, ?_, (hfits.complete hstatus).2⟩
  rw [hhistory, callbacks_calledBack, if_pos rfl, htracks.pending id m hm]

def oneTransfer (reply : Reply) : List CurlAction :=
  [.submit (oneRequest "a") true true, .transfer 0 0 reply, .poll 0]

theorem oneTransfer_complete : ∃ r, run step {} (oneTransfer ⟨200, [], []⟩) = some r ∧
    r.client.isComplete 0 = .ok true ∧ ∃ t entries, r.poll 0 = some t ∧
      callbacks 0 t.history = [entries] ∧ Answers (oneRequest "a") entries := by
  have hstate : (run step {} (oneTransfer ⟨200, [], []⟩)).map (fun r =>
      (r.client.monitorThreads.lookup 0, r.client.requests.lookup 0, r.calling)) =
        some (some { number := 0, callback := true }, some ⟨oneRequest "a", {}⟩, none) := by decide +kernel
  obtain ⟨r, hr, hlookups⟩ := Option.map_eq_some_iff.1 hstate
  obtain ⟨hm, hrest⟩ := Prod.mk.inj hlookups
  obtain ⟨hid, hcalling⟩ := Prod.mk.inj hrest
  have hsteps : Steps step HasStatus {} r := by
    refine run_steps _ (fun a ha s => ?_) hr
    simp only [oneTransfer, List.mem_cons, List.not_mem_nil, or_false] at ha
    obtain rfl | rfl | rfl := ha
    · trivial
    · exact (by decide : (200 : ℕ) ≠ 0)
    · trivial
  obtain ⟨hcomplete, -, hdelivers⟩ := (idle_set_complete r hsteps).1 0 _ _
    ⟨hm, Or.inl rfl, not_callsBack hcalling 0⟩ hid rfl rfl
  exact ⟨r, hr, hcomplete, hdelivers rfl rfl⟩

/-- A connection that fails: nothing is running, nothing is waiting, and the set is not complete. -/
theorem failed_transfer_incomplete : ¬ ∀ actions r, run step {} actions = some r →
    ∀ id m tracked, r.Watched id m → r.client.requests.lookup id = some tracked →
      tracked.multi.running = [] → tracked.multi.queue = [] → r.client.isComplete id = .ok true := by
  intro h
  have hstate : (run step {} (oneTransfer ⟨0, [], []⟩)).map (fun r =>
      (r.client.monitorThreads.lookup 0, r.client.requests.lookup 0, r.calling,
        (r.client.isComplete 0).toOption)) =
        some (some { number := 0, callback := true }, some ⟨oneRequest "a", {}⟩, none, some false) := by
    decide +kernel
  obtain ⟨r, hr, hlookups⟩ := Option.map_eq_some_iff.1 hstate
  obtain ⟨hm, hrest⟩ := Prod.mk.inj hlookups
  obtain ⟨hid, hrest⟩ := Prod.mk.inj hrest
  obtain ⟨hcalling, hincomplete⟩ := Prod.mk.inj hrest
  have hcomplete := h _ r hr 0 _ _ ⟨hm, Or.inl rfl, not_callsBack hcalling 0⟩ hid rfl rfl
  rw [hcomplete] at hincomplete
  cases hincomplete

end CurlRun

end Ravl.Http
