import Ravl.Http.Responses
import Ravl.Lib.Transition

/-!
# The curl client (http_client_curl.cpp:172-427)

Every set has a multi handle and a thread that polls it. A step is one operation under the
client's lock: a submission, the end of one transfer, one round of a monitor thread. A round that
calls back stops there and keeps the lock until the callback has ended; of the client's operations
only `erase`, which does not lock, goes on meanwhile. The multi handle of a set is known to its
record and to its thread only, so it is kept in the record. `fault` says that the program has ended
(an exception left a thread) or that its behaviour is undefined (a monitor was destroyed while its
thread was running, or a thread took the lock that it had).
-/

namespace Ravl.Http
open ByteLib FallibleLib TransitionLib

structure Easy where
  i : ℕ
  url : Bytes
  deriving DecidableEq

/-- A multi handle: the handles that are running, and those that are done, with their status. -/
structure Multi where
  running : List Easy := []
  queue : List (Easy × ℕ) := []
  deriving DecidableEq

structure TrackedRequests where
  requests : HTTPRequests
  multi : Multi
  deriving DecidableEq

structure MonitorThread where
  number : ℕ
  callback : Bool
  running : Bool := true
  deriving DecidableEq

structure CurlClient where
  requests : SetMap TrackedRequests := ∅
  responses : SetMap (List Entry) := ∅
  monitorThreads : SetMap MonitorThread := ∅

/-- One easy handle for each request, added to the multi handle in order. -/
def easySetup (rs : HTTPRequests) : List Easy := rs.mapIdx fun i request => ⟨i, request.url⟩

/-- `complete` of one message after the other: the handles that are running then, and the
responses. -/
def completeAll (requests : HTTPRequests) :
    List (Easy × ℕ) → List Easy → List Entry → Result (List Easy × List Entry)
  | [], running, entries => pure (running, entries)
  | (easy, status) :: queue, running, entries => do
    let entries := resizeEntries entries requests.length
    let e ← orThrow entries[easy.i]? (.exception "request index too large")
    let r := mustRetry e.response status
    if r.1 then completeAll requests queue (running ++ [easy]) (entries.set easy.i ⟨r.2, none⟩)
    else completeAll requests queue running (entries.set easy.i ⟨r.2, e.url⟩)

namespace CurlClient
variable (c : CurlClient)

/-- `is_complete`; `curl_multi_perform` does not fail. -/
def isComplete (id : ℕ) : Result Bool := do
  let tracked ← orThrow (c.requests.lookup id) (.exception "no such request set")
  if tracked.multi.running ≠ [] then pure false
  else
    match c.responses.lookup id with
    | none => pure false
    | some entries => pure (entries.all fun e => e.response.status != 0)

/-- `consume_msgs` -/
def consumeMsgs (id : ℕ) : Result CurlClient :=
  match c.requests.lookup id with
  | none => pure c
  | some tracked =>
    match c.responses.lookup id with
    | none => do
      refuse (tracked.multi.queue ≠ []) (.exception "response set not found")
      pure c
    | some entries => do
      let (running, entries) ←
        completeAll tracked.requests tracked.multi.queue tracked.multi.running entries
      pure { c with
        requests := c.requests.insert id { tracked with multi := ⟨running, []⟩ }
        responses := c.responses.insert id entries }

end CurlClient

/-! ### Runs -/

structure CurlRun where
  client : CurlClient := {}
  /-- the callback that a thread is in; the thread has the lock -/
  calling : Option Callback := none
  submissions : List HTTPRequests := []
  history : List Event := []
  fault : Bool := false

inductive CurlAction
  /-- `performs` says that the first `curl_multi_perform` succeeds. -/
  | submit (rs : HTTPRequests) (callback performs : Bool)
  | transfer (id i : ℕ) (reply : Reply)
  | poll (id : ℕ)
  | callbackReturn
  | callbackThrow
  /-- The callback calls `submit`. -/
  | nestedSubmit (rs : HTTPRequests)
  | erase (id : ℕ)

/-- The operation has to wait for the lock. -/
def CurlAction.locks : CurlAction → Bool
  | .submit _ _ _ => true
  | .transfer _ _ _ => true
  | .poll _ => true
  | _ => false

namespace CurlRun
variable (r : CurlRun)

def submit (rs : HTTPRequests) (callback performs : Bool) : CurlRun :=
  let c := r.client
  let number := r.submissions.length
  let id := c.requests.size
  let next := { r with submissions := r.submissions ++ [rs] }
  if id ∈ c.requests then { next with history := .clashed number id :: r.history }
  else if id ∈ c.responses then { next with
    client := { c with requests := c.requests.insert id ⟨rs, {}⟩ }
    history := .clashed number id :: r.history }
  else
    let responses := c.responses.insert id (List.replicate rs.length {})
    if performs then { next with
      client := { c with
        requests := c.requests.insert id ⟨rs, { running := easySetup rs }⟩
        responses := responses
        monitorThreads := c.monitorThreads.insert id { number, callback } }
      history := .submitted number id c.requests.keys :: r.history
      -- the monitor that was there is destroyed
      fault := (c.monitorThreads.lookup id).any (·.running) }
    else { next with
      client := { c with requests := c.requests.insert id ⟨rs, {}⟩, responses := responses } }

/-- A transfer of a set ends; what it got is in the response that its handle was set up with. -/
def transfer (id i : ℕ) (reply : Reply) : Option CurlRun := do
  let tracked ← r.client.requests.lookup id
  let easy ← tracked.multi.running.find? (·.i = i)
  let multi : Multi := ⟨tracked.multi.running.erase easy, tracked.multi.queue ++ [(easy, reply.status)]⟩
  match r.client.responses.lookup id with
  | none => some { r with fault := true }
  | some entries =>
    let e ← entries[i]?
    some { r with client := { r.client with
      requests := r.client.requests.insert id { tracked with multi }
      responses := r.client.responses.insert id
        (entries.set i ⟨perform e.response reply, some easy.url⟩) } }

/-- The monitor of the set, if there is one, is told to stop. -/
def stop (id : ℕ) : SetMap MonitorThread :=
  r.client.monitorThreads.update id fun m => { m with running := false }

/-- `poll`, a round of the thread that monitors the set, up to the callback -/
def poll (id : ℕ) : Option CurlRun :=
  match r.client.monitorThreads.lookup id with
  | none => none
  | some m =>
    if m.running = false then none
    else
      match r.client.isComplete id with
      | .error _ => some { r with fault := true }
      | .ok false =>
        match r.client.consumeMsgs id with
        | .error _ => some { r with fault := true }
        | .ok c => some { r with client := c }
      | .ok true =>
        if m.callback then
          match r.client.consumeMsgs id with
          | .error _ => some { r with fault := true }
          | .ok c =>
            match c.responses.lookup id with
            | none => some { r with fault := true }
            | some entries => some { r with
              -- `rs.swap(rsps_it->second)`
              client := { c with responses := c.responses.insert id [] }
              calling := some ⟨m.number, id⟩
              history := .calledBack m.number entries :: r.history }
        else some { r with client := { r.client with monitorThreads := r.stop id } }

/-- What is left of `poll` behind the callback -/
def callbackReturn (call : Callback) : CurlRun :=
  { r with
    client := {
      requests := r.client.requests.erase call.id
      responses := r.client.responses.erase call.id
      monitorThreads := r.stop call.id }
    calling := none }

/-- `erase`; the monitor is destroyed, so there has to be one, and its thread must have ended. -/
def erase (id : ℕ) : CurlRun :=
  if (r.client.monitorThreads.lookup id).all (·.running) then { r with fault := true }
  else { r with client := {
    requests := r.client.requests.erase id
    responses := r.client.responses.erase id
    monitorThreads := r.client.monitorThreads.erase id } }

def step (a : CurlAction) : Option CurlRun :=
  if r.fault || (a.locks && r.calling.isSome) then none
  else
    match a with
    | .submit rs callback performs => some (r.submit rs callback performs)
    | .transfer id i reply => r.transfer id i reply
    | .poll id => r.poll id
    | .callbackReturn => r.calling.map r.callbackReturn
    -- the exception leaves the thread
    | .callbackThrow => r.calling.map fun _ => { r with fault := true }
    -- the thread has the lock that `submit` takes
    | .nestedSubmit _ => r.calling.map fun _ => { r with fault := true }
    | .erase id => some (r.erase id)

variable {r} in
theorem step_poll (hgood : r.fault = false) (hnone : r.calling = none) (id : ℕ) :
    r.step (.poll id) = r.poll id := by
  rw [step, hgood, hnone]
  rfl

/-- The number of sets is free as an id; only sets whose thread has ended are erased; callbacks
return, and submit nothing. -/
def Free : CurlAction → Prop
  | .submit _ _ _ => r.client.requests.size ∉ r.client.requests
  | .callbackThrow => False
  | .nestedSubmit _ => False
  | .erase id => ∃ m, r.client.monitorThreads.lookup id = some m ∧ m.running = false
  | _ => True

end CurlRun

/-! ### What a set keeps -/

/-- The responses of a set and the handles at work for it: whatever has a status comes from the
request's URL, and so does what the handles are going to write. -/
structure Fits (requests : HTTPRequests) (multi : Multi) (entries : List Entry) : Prop where
  length : entries.length = requests.length
  answered : ∀ (i : ℕ) (e : Entry), entries[i]? = some e → e.response.status ≠ 0 →
    ∃ request : HTTPRequest, requests[i]? = some request ∧ e.url = some request.url
  running : ∀ easy ∈ multi.running, ∃ (request : HTTPRequest) (e : Entry), requests[easy.i]? = some request ∧
    easy.url = request.url ∧ entries[easy.i]? = some e ∧ e.response.status = 0
  queued : ∀ easy status, (easy, status) ∈ multi.queue → ∃ (request : HTTPRequest) (e : Entry),
    requests[easy.i]? = some request ∧ easy.url = request.url ∧ entries[easy.i]? = some e ∧
      e.response.status = 0 ∧ e.url = some request.url
  distinct : ((multi.running ++ multi.queue.map Prod.fst).map Easy.i).Nodup

theorem Fits.new (rs : HTTPRequests) (running : List Easy)
    (hrunning : running = [] ∨ running = easySetup rs) :
    Fits rs { running := running } (List.replicate rs.length {}) where
  length := List.length_replicate
  answered i e he hstatus := by
    obtain ⟨hi, heq⟩ := List.getElem?_eq_some_iff.1 he
    rw [List.getElem_replicate] at heq
    exact absurd (heq ▸ rfl) hstatus
  running easy heasy := by
    obtain rfl | rfl := hrunning
    · cases heasy
    · obtain ⟨i, hi, rfl⟩ := List.mem_mapIdx.1 heasy
      exact ⟨rs[i], {}, List.getElem?_eq_getElem hi, rfl, by
        rw [List.getElem?_replicate, if_pos hi], rfl⟩
  queued := nofun
  distinct := by
    obtain rfl | rfl := hrunning
    · exact List.nodup_nil
    · have hindices : (easySetup rs).map Easy.i = List.range rs.length := by
        apply List.ext_getElem?
        intro i
        by_cases hi : i < rs.length
        · simp [easySetup, hi]
        · simp [easySetup, hi]
      rw [List.map_nil, List.append_nil, hindices]
      exact List.nodup_range

theorem perform_status (r : HTTPResponse) (reply : Reply) : (perform r reply).status = r.status := by
  rw [perform_eq]

theorem mustRetry_status (r : HTTPResponse) (status : ℕ) (h : (mustRetry r status).1 = true) :
    (mustRetry r status).2.status = 0 := by
  unfold mustRetry at h ⊢
  dsimp only at h ⊢
  split at h
  next h429 =>
    rw [if_pos h429]
    split at h
    · cases h
    · rfl
  next => cases h

theorem Fits.front {requests : HTTPRequests} {running : List Easy} {queue : List (Easy × ℕ)}
    {entries : List Entry} {easy : Easy} {status : ℕ}
    (h : Fits requests ⟨running, (easy, status) :: queue⟩ entries) :
    (∀ other ∈ running, other.i ≠ easy.i) ∧ (∀ other s, (other, s) ∈ queue → other.i ≠ easy.i) ∧
      ((running ++ [easy] ++ queue.map Prod.fst).map Easy.i).Nodup ∧
      ((running ++ queue.map Prod.fst).map Easy.i).Nodup := by
  have hdistinct := h.distinct
  simp only [List.map_cons, List.map_append] at hdistinct
  obtain ⟨-, hright, hapart⟩ := List.nodup_append.1 hdistinct
  have hfront := (List.nodup_cons.1 hright).1
  refine ⟨fun other hother heq => ?_, fun other s hother heq => ?_, ?_, ?_⟩
  · exact hapart other.i (List.mem_map_of_mem hother) easy.i List.mem_cons_self heq
  · exact hfront (heq ▸ List.mem_map_of_mem (List.mem_map_of_mem hother))
  · simpa using hdistinct
  · rw [List.map_append]
    exact hdistinct.sublist (List.Sublist.append_left (List.sublist_cons_self _ _) _)

theorem Fits.retry {requests : HTTPRequests} {running : List Easy} {queue : List (Easy × ℕ)}
    {entries : List Entry} {easy : Easy} {status : ℕ}
    (h : Fits requests ⟨running, (easy, status) :: queue⟩ entries) (response : HTTPResponse)
    (hstatus : response.status = 0) :
    Fits requests ⟨running ++ [easy], queue⟩ (entries.set easy.i ⟨response, none⟩) := by
  obtain ⟨hrunning, hqueue, hdistinct, -⟩ := h.front
  obtain ⟨request, e, hrequest, hurl, he, -⟩ := h.queued easy status List.mem_cons_self
  have hi : easy.i < entries.length := (List.getElem?_eq_some_iff.1 he).1
  have hkept (j : ℕ) (hj : j ≠ easy.i) :
      (entries.set easy.i (⟨response, none⟩ : Entry))[j]? = entries[j]? :=
    List.getElem?_set_ne (Ne.symm hj)
  have hset : (entries.set easy.i (⟨response, none⟩ : Entry))[easy.i]? = some ⟨response, none⟩ :=
    List.getElem?_set_self hi
  exact {
    length := by rw [List.length_set, h.length]
    answered := by
      intro j e' he' hne
      by_cases hj : j = easy.i
      · rw [hj, hset] at he'
        cases he'
        exact absurd hstatus hne
      · exact h.answered j e' (hkept j hj ▸ he') hne
    running := by
      intro other hother
      obtain hother | hother := List.mem_append.1 hother
      · obtain ⟨request', e', h₁, h₂, h₃, h₄⟩ := h.running other hother
        exact ⟨request', e', h₁, h₂, (hkept _ (hrunning other hother)).trans h₃, h₄⟩
      · obtain rfl := List.mem_singleton.1 hother
        exact ⟨request, _, hrequest, hurl, hset, hstatus⟩
    queued := by
      intro other s hother
      obtain ⟨request', e', h₁, h₂, h₃, h₄⟩ := h.queued other s (List.mem_cons_of_mem _ hother)
      exact ⟨request', e', h₁, h₂, (hkept _ (hqueue other s hother)).trans h₃, h₄⟩
    distinct := hdistinct }

theorem Fits.done {requests : HTTPRequests} {running : List Easy} {queue : List (Easy × ℕ)}
    {entries : List Entry} {easy : Easy} {status : ℕ} {e : Entry}
    (h : Fits requests ⟨running, (easy, status) :: queue⟩ entries) (he : entries[easy.i]? = some e)
    (response : HTTPResponse) :
    Fits requests ⟨running, queue⟩ (entries.set easy.i ⟨response, e.url⟩) := by
  obtain ⟨hrunning, hqueue, -, hdistinct⟩ := h.front
  obtain ⟨request, e', hrequest, hurl, he', -, hfrom⟩ := h.queued easy status List.mem_cons_self
  obtain rfl := Option.some.inj (he'.symm.trans he)
  have hi : easy.i < entries.length := (List.getElem?_eq_some_iff.1 he).1
  have hkept (j : ℕ) (hj : j ≠ easy.i) :
      (entries.set easy.i (⟨response, e'.url⟩ : Entry))[j]? = entries[j]? :=
    List.getElem?_set_ne (Ne.symm hj)
  exact {
    length := by rw [List.length_set, h.length]
    answered := by
      intro j e' he' hne
      by_cases hj : j = easy.i
      · rw [hj, List.getElem?_set_self hi] at he'
        cases he'
        exact ⟨request, hj ▸ hrequest, hfrom⟩
      · exact h.answered j e' (hkept j hj ▸ he') hne
    running := by
      intro other hother
      obtain ⟨request', e', h₁, h₂, h₃, h₄⟩ := h.running other hother
      exact ⟨request', e', h₁, h₂, (hkept _ (hrunning other hother)).trans h₃, h₄⟩
    queued := by
      intro other s hother
      obtain ⟨request', e', h₁, h₂, h₃, h₄⟩ := h.queued other s (List.mem_cons_of_mem _ hother)
      exact ⟨request', e', h₁, h₂, (hkept _ (hqueue other s hother)).trans h₃, h₄⟩
    distinct := hdistinct }

theorem Fits.completeAll {requests : HTTPRequests} (queue : List (Easy × ℕ)) (running : List Easy)
    (entries : List Entry) (h : Fits requests ⟨running, queue⟩ entries) :
    ∃ running' entries', completeAll requests queue running entries = .ok (running', entries') ∧
      Fits requests ⟨running', []⟩ entries' := by
  induction queue generalizing running entries with
  | nil => exact ⟨running, entries, rfl, h⟩
  | cons message queue ih =>
    obtain ⟨easy, status⟩ := message
    obtain ⟨request, e, -, -, he, -⟩ := h.queued easy status List.mem_cons_self
    have hsize : resizeEntries entries requests.length = entries := by
      rw [← h.length, resizeEntries_self]
    simp only [Http.completeAll, hsize, he, orThrow, Option.elim_some]
    cases hretry : (mustRetry e.response status).1 with
    | true =>
      obtain ⟨running', entries', hrest, hfits⟩ :=
        ih _ _ (h.retry (mustRetry e.response status).2 (mustRetry_status _ _ hretry))
      exact ⟨running', entries', by simpa [Bind.bind, Except.bind, hretry] using hrest, hfits⟩
    | false =>
      obtain ⟨running', entries', hrest, hfits⟩ := ih _ _ (h.done he (mustRetry e.response status).2)
      exact ⟨running', entries', by simpa [Bind.bind, Except.bind, hretry] using hrest, hfits⟩

/-- A set that has a status everywhere is answered, and no message about it is waiting. -/
theorem Fits.complete {requests : HTTPRequests} {multi : Multi} {entries : List Entry}
    (h : Fits requests multi entries) (hall : entries.all (fun e => e.response.status != 0) = true) :
    multi.queue = [] ∧ Answers requests entries := by
  have hstatus (i : ℕ) (e : Entry) (he : entries[i]? = some e) : e.response.status ≠ 0 := by
    have hmem := List.all_eq_true.1 hall e (List.mem_of_getElem? he)
    simpa using hmem
  constructor
  · rw [List.eq_nil_iff_forall_not_mem]
    intro ⟨easy, status⟩ hmem
    obtain ⟨_, e, -, -, he, hzero, -⟩ := h.queued easy status hmem
    exact hstatus _ e he hzero
  · apply List.ext_getElem?
    intro i
    rw [List.getElem?_map, List.getElem?_map]
    cases he : entries[i]? with
    | none =>
      have hnone : requests[i]? = none := by
        rw [List.getElem?_eq_none_iff, ← h.length]
        exact List.getElem?_eq_none_iff.1 he
      rw [hnone]
      rfl
    | some e =>
      obtain ⟨request, hrequest, hurl⟩ := h.answered i e he (hstatus i e he)
      rw [hrequest, Option.map_some, Option.map_some, hurl]

/-! ### What a run keeps -/

/-- The client is in the callback for the set with this id. -/
def CurlRun.CallsBack (r : CurlRun) (id : ℕ) : Prop := ∃ call, r.calling = some call ∧ call.id = id

theorem CurlRun.not_callsBack {r : CurlRun} (h : r.calling = none) (id : ℕ) : ¬ r.CallsBack id := by
  intro hcalls
  obtain ⟨call, hcall, -⟩ := hcalls
  rw [h] at hcall
  cases hcall

/-- The set is gone; these are the monitors that are left, and the callback in progress. -/
def CurlRun.without (r : CurlRun) (id : ℕ) (threads : SetMap MonitorThread) (calling : Option Callback) :
    CurlRun :=
  { r with
    client := {
      requests := r.client.requests.erase id
      responses := r.client.responses.erase id
      monitorThreads := threads }
    calling }

/-- The responses of the set have gone to its callback. -/
def CurlRun.handOver (r : CurlRun) (id number : ℕ) (tracked : TrackedRequests) : CurlRun :=
  { r with
    client := { r.client with
      requests := r.client.requests.insert id { tracked with multi := {} }
      responses := r.client.responses.insert id [] }
    calling := some ⟨number, id⟩ }

structure CurlRun.Ordered (r : CurlRun) : Prop where
  keeps : KeepsSets r.submissions r.history
  responses : ∀ id ∈ r.client.responses, id ∈ r.client.requests
  fits : ∀ id tracked, ¬ r.CallsBack id → r.client.requests.lookup id = some tracked →
    ∃ entries, r.client.responses.lookup id = some entries ∧
      Fits tracked.requests tracked.multi entries
  threads : ∀ id m, r.client.monitorThreads.lookup id = some m → m.running = true →
    ∃ tracked, r.client.requests.lookup id = some tracked ∧
      r.submissions[m.number]? = some tracked.requests
  calling : ∀ call, r.calling = some call → ∃ m tracked,
    r.client.monitorThreads.lookup call.id = some m ∧ m.running = true ∧ m.callback = true ∧
      r.client.requests.lookup call.id = some tracked ∧ tracked.multi = {}
  defined : r.fault = false

namespace CurlRun.Ordered
variable {r : CurlRun}

theorem put (h : r.Ordered) (hnone : r.calling = none) {id : ℕ} {tracked : TrackedRequests}
    (hid : r.client.requests.lookup id = some tracked) (multi : Multi) (entries : List Entry)
    (hfits : Fits tracked.requests multi entries) :
    CurlRun.Ordered { r with client := { r.client with
      requests := r.client.requests.insert id { tracked with multi }
      responses := r.client.responses.insert id entries } } where
  keeps := h.keeps
  responses id' hid' := by
    rw [AList.mem_insert] at hid' ⊢
    exact hid'.imp_right (h.responses id')
  fits id' tracked' hquiet hid' := by
    obtain ⟨rfl, rfl⟩ | ⟨hne, hold⟩ := SetMap.of_insert hid'
    · exact ⟨entries, AList.lookup_insert _, hfits⟩
    · obtain ⟨entries', hentries, hfits'⟩ := h.fits id' tracked' hquiet hold
      exact ⟨entries', (AList.lookup_insert_ne hne).trans hentries, hfits'⟩
  threads id' m hm hrunning := by
    obtain ⟨tracked', hid', hnumber⟩ := h.threads id' m hm hrunning
    by_cases heq : id' = id
    · subst heq
      obtain rfl := Option.some.inj (hid.symm.trans hid')
      exact ⟨{ tracked with multi }, AList.lookup_insert _, hnumber⟩
    · exact ⟨tracked', (AList.lookup_insert_ne heq).trans hid', hnumber⟩
  calling call hcall := by
    rw [hnone] at hcall
    cases hcall
  defined := h.defined

/-- A set under a free id; the only new thread, if there is one, watches it. -/
theorem insert (h : r.Ordered) (hnone : r.calling = none) {id : ℕ} (hid : id ∉ r.client.requests)
    (new : TrackedRequests) (entries : List Entry) (hfits : Fits new.requests new.multi entries)
    (threads : SetMap MonitorThread)
    (hthreads : ∀ id' m, threads.lookup id' = some m → m.running = true →
      r.client.monitorThreads.lookup id' = some m ∨
        id' = id ∧ r.submissions[m.number]? = some new.requests) :
    CurlRun.Ordered { r with client := {
      requests := r.client.requests.insert id new
      responses := r.client.responses.insert id entries
      monitorThreads := threads } } where
  keeps := h.keeps
  responses id' hid' := by
    rw [AList.mem_insert] at hid' ⊢
    exact hid'.imp_right (h.responses id')
  fits id' tracked hquiet hid' := by
    obtain ⟨rfl, rfl⟩ | ⟨hne, hold⟩ := SetMap.of_insert hid'
    · exact ⟨entries, AList.lookup_insert _, hfits⟩
    · obtain ⟨entries', hentries, hfits'⟩ := h.fits id' tracked hquiet hold
      exact ⟨entries', (AList.lookup_insert_ne hne).trans hentries, hfits'⟩
  threads id' m hm hrunning := by
    obtain hold | ⟨rfl, hnumber⟩ := hthreads id' m hm hrunning
    · obtain ⟨tracked, hheld, hnumber⟩ := h.threads id' m hold hrunning
      have hne : id' ≠ id := fun heq => hid (heq ▸ SetMap.mem_of_lookup hheld)
      exact ⟨tracked, (AList.lookup_insert_ne hne).trans hheld, hnumber⟩
    · exact ⟨new, AList.lookup_insert _, hnumber⟩
  calling call hcall := by
    rw [hnone] at hcall
    cases hcall
  defined := h.defined

theorem more (h : r.Ordered) (rs : HTTPRequests) :
    CurlRun.Ordered { r with submissions := r.submissions ++ [rs] } where
  keeps := h.keeps.submit rs
  responses := h.responses
  fits := h.fits
  threads id m hm hrunning := by
    obtain ⟨tracked, hid, hnumber⟩ := h.threads id m hm hrunning
    exact ⟨tracked, hid, (List.getElem?_append_left (List.getElem?_eq_some_iff.1 hnumber).1).trans hnumber⟩
  calling := h.calling
  defined := h.defined

theorem ended (h : r.Ordered) (hnone : r.calling = none) {id i : ℕ} (reply : Reply)
    {tracked : TrackedRequests} {easy : Easy} {entries : List Entry} {e : Entry}
    (hid : r.client.requests.lookup id = some tracked)
    (hfind : tracked.multi.running.find? (·.i = i) = some easy)
    (hentries : r.client.responses.lookup id = some entries) (he : entries[i]? = some e) :
    CurlRun.Ordered { r with client := { r.client with
      requests := r.client.requests.insert id { tracked with
        multi := ⟨tracked.multi.running.erase easy, tracked.multi.queue ++ [(easy, reply.status)]⟩ }
      responses := r.client.responses.insert id
        (entries.set i ⟨perform e.response reply, some easy.url⟩) } } := by
  obtain ⟨entries₀, hentries₀, hfits⟩ := h.fits id tracked (not_callsBack hnone id) hid
  obtain rfl := Option.some.inj (hentries₀.symm.trans hentries)
  have hmem := List.mem_of_find?_eq_some hfind
  have hindex : easy.i = i := by simpa using List.find?_some hfind
  have hi : i < entries₀.length := (List.getElem?_eq_some_iff.1 he).1
  obtain ⟨request, e', hrequest, hurl, he', hstatus⟩ := hfits.running easy hmem
  rw [hindex] at he' hrequest
  obtain rfl := Option.some.inj (he'.symm.trans he)
  have hsplit : tracked.multi.running.erase easy ++
      (tracked.multi.queue ++ [(easy, reply.status)]).map Prod.fst =
        tracked.multi.running.erase easy ++ tracked.multi.queue.map Prod.fst ++ [easy] := by
    rw [List.map_append, List.append_assoc]
    rfl
  have hperm : (tracked.multi.running.erase easy ++ tracked.multi.queue.map Prod.fst ++ [easy]).Perm
      (tracked.multi.running ++ tracked.multi.queue.map Prod.fst) :=
    List.perm_append_comm.trans ((List.perm_cons_erase hmem).symm.append_right _)
  have hdistinct := (hperm.map Easy.i).nodup_iff.2 hfits.distinct
  have hapart (other : Easy) (hother : other ∈ tracked.multi.running.erase easy ++
      tracked.multi.queue.map Prod.fst) : other.i ≠ i := by
    rw [List.map_append] at hdistinct
    intro hsame
    exact (List.nodup_append.1 hdistinct).2.2 other.i (List.mem_map_of_mem hother) easy.i
      (List.mem_map_of_mem (List.mem_singleton.2 rfl)) (hsame.trans hindex.symm)
  have hkept (j : ℕ) (hj : j ≠ i) (x : Entry) : (entries₀.set i x)[j]? = entries₀[j]? :=
    List.getElem?_set_ne (Ne.symm hj)
  refine h.put hnone hid _ _ {
    length := by rw [List.length_set, hfits.length]
    answered := ?_
    running := ?_
    queued := ?_
    distinct := by rw [hsplit]; exact hdistinct }
  · intro j e₂ he₂ hne
    by_cases hj : j = i
    · rw [hj, List.getElem?_set_self hi] at he₂
      cases he₂
      exact absurd ((perform_status _ _).trans hstatus) hne
    · exact hfits.answered j e₂ ((hkept j hj _).symm.trans he₂) hne
  · intro other hother
    obtain ⟨request', e₂, h₁, h₂, h₃, h₄⟩ := hfits.running other (List.mem_of_mem_erase hother)
    exact ⟨request', e₂, h₁, h₂,
      (hkept _ (hapart other (List.mem_append_left _ hother)) _).trans h₃, h₄⟩
  · intro other status hother
    obtain hother | hother := List.mem_append.1 hother
    · obtain ⟨request', e₂, h₁, h₂, h₃, h₄⟩ := hfits.queued other status hother
      exact ⟨request', e₂, h₁, h₂, (hkept _ (hapart other
        (List.mem_append_right _ (List.mem_map_of_mem hother))) _).trans h₃, h₄⟩
    · cases List.mem_singleton.1 hother
      rw [hindex]
      refine ⟨request, _, hrequest, hurl, List.getElem?_set_self hi,
        (perform_status _ _).trans hstatus, ?_⟩
      rw [hurl]

theorem consumeMsgs (h : r.Ordered) {id : ℕ} (hquiet : ¬ r.CallsBack id) {tracked : TrackedRequests}
    (hid : r.client.requests.lookup id = some tracked) {entries : List Entry}
    (hentries : r.client.responses.lookup id = some entries) :
    ∃ running entries', completeAll tracked.requests tracked.multi.queue tracked.multi.running entries =
        .ok (running, entries') ∧
      r.client.consumeMsgs id = .ok { r.client with
        requests := r.client.requests.insert id { tracked with multi := ⟨running, []⟩ }
        responses := r.client.responses.insert id entries' } ∧
      Fits tracked.requests ⟨running, []⟩ entries' := by
  obtain ⟨entries₀, hentries₀, hfits⟩ := h.fits id tracked hquiet hid
  obtain rfl := Option.some.inj (hentries₀.symm.trans hentries)
  obtain ⟨running, entries', hall, hfits'⟩ := Fits.completeAll _ _ _ hfits
  refine ⟨running, entries', hall, ?_, hfits'⟩
  simp only [CurlClient.consumeMsgs, hid, hentries, hall]
  rfl

theorem stopped (h : r.Ordered) (hnone : r.calling = none) {id : ℕ} {m : MonitorThread} :
    CurlRun.Ordered { r with client := { r.client with
      monitorThreads := r.client.monitorThreads.insert id { m with running := false } } } where
  keeps := h.keeps
  responses := h.responses
  fits := h.fits
  threads id' m' hm' hrunning := by
    obtain ⟨rfl, rfl⟩ | ⟨-, hold⟩ := SetMap.of_insert hm'
    · cases hrunning
    · exact h.threads id' m' hold hrunning
  calling call hcall := by
    rw [hnone] at hcall
    cases hcall
  defined := h.defined

theorem remove (h : r.Ordered) (id : ℕ) (threads : SetMap MonitorThread) (calling : Option Callback)
    (hthreads : ∀ id' m, threads.lookup id' = some m → m.running = true →
      id' ≠ id ∧ r.client.monitorThreads.lookup id' = some m)
    (hothers : ∀ id' m, id' ≠ id → r.client.monitorThreads.lookup id' = some m → threads.lookup id' = some m)
    (hcalling : ∀ id', id' ≠ id → r.CallsBack id' → ∃ call, calling = some call ∧ call.id = id')
    (hcalls : ∀ call, calling = some call → r.calling = some call ∧ call.id ≠ id) :
    (r.without id threads calling).Ordered where
  keeps := h.keeps
  responses id' hid' := by
    obtain ⟨hne, hmem⟩ := AList.mem_erase.1 hid'
    exact AList.mem_erase.2 ⟨hne, h.responses id' hmem⟩
  fits id' tracked hquiet hid' := by
    obtain ⟨hne, hold⟩ := SetMap.of_erase hid'
    obtain ⟨entries, hentries, hfits⟩ := h.fits id' tracked (fun hcall => hquiet (hcalling id' hne hcall)) hold
    exact ⟨entries, (AList.lookup_erase_ne hne).trans hentries, hfits⟩
  threads id' m hm hrunning := by
    obtain ⟨hne, hold⟩ := hthreads id' m hm hrunning
    obtain ⟨tracked, hid', hnumber⟩ := h.threads id' m hold hrunning
    exact ⟨tracked, (AList.lookup_erase_ne hne).trans hid', hnumber⟩
  calling call hcall := by
    obtain ⟨hold, hne⟩ := hcalls call hcall
    obtain ⟨m, tracked, hm, hrunning, hcallback, hid', hmulti⟩ := h.calling call hold
    exact ⟨m, tracked, hothers call.id m hne hm, hrunning, hcallback,
      (AList.lookup_erase_ne hne).trans hid', hmulti⟩
  defined := h.defined

/-- A set whose transfers are over is called back for: its responses go to the callback. -/
theorem handOver (h : r.Ordered) (hnone : r.calling = none) {id number : ℕ} {m : MonitorThread}
    {tracked : TrackedRequests} (hm : r.client.monitorThreads.lookup id = some m)
    (hrunning : m.running = true) (hcallback : m.callback = true)
    (hid : r.client.requests.lookup id = some tracked) : (r.handOver id number tracked).Ordered where
  keeps := h.keeps
  responses := SetMap.insert_mono h.responses id _ _
  fits id' tracked' hquiet hid' := by
    obtain ⟨rfl, -⟩ | ⟨hne, hold⟩ := SetMap.of_insert hid'
    · exact absurd ⟨_, rfl, rfl⟩ hquiet
    · obtain ⟨entries, hentries, hfits⟩ := h.fits id' tracked' (not_callsBack hnone id') hold
      exact ⟨entries, (AList.lookup_insert_ne hne).trans hentries, hfits⟩
  threads id' m' hm' hrunning' := by
    obtain ⟨tracked', hid', hnumber⟩ := h.threads id' m' hm' hrunning'
    by_cases heq : id' = id
    · subst heq
      obtain rfl := Option.some.inj (hid.symm.trans hid')
      exact ⟨{ tracked with multi := {} }, AList.lookup_insert _, hnumber⟩
    · exact ⟨tracked', (AList.lookup_insert_ne heq).trans hid', hnumber⟩
  calling call hcall := by
    obtain rfl := Option.some.inj hcall
    exact ⟨m, _, hm, hrunning, hcallback, AList.lookup_insert _, rfl⟩
  defined := h.defined

end CurlRun.Ordered

/-! ### What a step does -/

namespace CurlRun

/-- The state without what has happened; a step depends on nothing else. -/
def forget (r : CurlRun) : CurlRun := { r with history := [], fault := false }

theorem Ordered.forget {r : CurlRun} (h : r.Ordered) : r.forget.Ordered where
  keeps := KeepsSets.nothing _
  responses := h.responses
  fits := h.fits
  threads := h.threads
  calling := h.calling
  defined := rfl

inductive Moves (r : CurlRun) : CurlAction → CurlRun → Prop
  | clashed (rs : HTTPRequests) (callback performs : Bool) (hnone : r.calling = none)
    (hid : r.client.requests.size ∈ r.client.requests) :
    Moves r (.submit rs callback performs) { r with
      submissions := r.submissions ++ [rs]
      history := .clashed r.submissions.length r.client.requests.size :: r.history }
  | refused (rs : HTTPRequests) (callback : Bool) (hnone : r.calling = none)
    (hid : r.client.requests.size ∉ r.client.requests) :
    Moves r (.submit rs callback false) { r with
      submissions := r.submissions ++ [rs]
      client := { r.client with
        requests := r.client.requests.insert r.client.requests.size ⟨rs, {}⟩
        responses := r.client.responses.insert r.client.requests.size
          (List.replicate rs.length {}) } }
  | submitted (rs : HTTPRequests) (callback : Bool) (hnone : r.calling = none)
    (hid : r.client.requests.size ∉ r.client.requests) :
    Moves r (.submit rs callback true) { r with
      submissions := r.submissions ++ [rs]
      client := {
        requests := r.client.requests.insert r.client.requests.size ⟨rs, { running := easySetup rs }⟩
        responses := r.client.responses.insert r.client.requests.size (List.replicate rs.length {})
        monitorThreads := r.client.monitorThreads.insert r.client.requests.size
          { number := r.submissions.length, callback } }
      history := .submitted r.submissions.length r.client.requests.size r.client.requests.keys ::
        r.history
      fault := (r.client.monitorThreads.lookup r.client.requests.size).any (·.running) }
  | ended (id i : ℕ) (reply : Reply) (tracked : TrackedRequests) (easy : Easy) (entries : List Entry)
    (e : Entry) (hnone : r.calling = none) (hid : r.client.requests.lookup id = some tracked)
    (hfind : tracked.multi.running.find? (·.i = i) = some easy)
    (hentries : r.client.responses.lookup id = some entries) (he : entries[i]? = some e) :
    Moves r (.transfer id i reply) { r with client := { r.client with
      requests := r.client.requests.insert id { tracked with
        multi := ⟨tracked.multi.running.erase easy, tracked.multi.queue ++ [(easy, reply.status)]⟩ }
      responses := r.client.responses.insert id
        (entries.set i ⟨perform e.response reply, some easy.url⟩) } }
  | consumed (id : ℕ) (m : MonitorThread) (tracked : TrackedRequests) (entries entries' : List Entry)
    (running : List Easy) (hnone : r.calling = none) (hm : r.client.monitorThreads.lookup id = some m)
    (hrunning : m.running = true) (hid : r.client.requests.lookup id = some tracked)
    (hentries : r.client.responses.lookup id = some entries)
    (hall : completeAll tracked.requests tracked.multi.queue tracked.multi.running entries =
      .ok (running, entries')) :
    Moves r (.poll id) { r with client := { r.client with
      requests := r.client.requests.insert id { tracked with multi := ⟨running, []⟩ }
      responses := r.client.responses.insert id entries' } }
  | calledBack (id : ℕ) (m : MonitorThread) (tracked : TrackedRequests) (entries : List Entry)
    (hnone : r.calling = none) (hm : r.client.monitorThreads.lookup id = some m)
    (hrunning : m.running = true) (hcallback : m.callback = true)
    (hid : r.client.requests.lookup id = some tracked)
    (hentries : r.client.responses.lookup id = some entries)
    (hidle : tracked.multi.running = [] ∧ tracked.multi.queue = [])
    (hanswers : Answers tracked.requests entries) :
    Moves r (.poll id) { r.handOver id m.number tracked with
      history := .calledBack m.number entries :: r.history }
  | stopped (id : ℕ) (m : MonitorThread) (hnone : r.calling = none)
    (hm : r.client.monitorThreads.lookup id = some m) (hcallback : m.callback = false) :
    Moves r (.poll id) { r with client := { r.client with
      monitorThreads := r.client.monitorThreads.insert id { m with running := false } } }
  | returned (call : Callback) (m : MonitorThread) (hcalling : r.calling = some call)
    (hm : r.client.monitorThreads.lookup call.id = some m) (hcallback : m.callback = true) :
    Moves r .callbackReturn
      (r.without call.id (r.client.monitorThreads.insert call.id { m with running := false }) none)
  | erased (id : ℕ) (m : MonitorThread) (hm : r.client.monitorThreads.lookup id = some m)
    (hended : m.running = false) :
    Moves r (.erase id) (r.without id (r.client.monitorThreads.erase id) r.calling)
  | faulted (a : CurlAction) (hlocks : a.locks = false) (hfree : ¬ r.Free a) :
    Moves r a { r with fault := true }

variable {r t : CurlRun}

/-- A set is complete when none of its handles is running and every response has a status. -/
theorem isComplete_eq {id : ℕ} {tracked : TrackedRequests} {entries : List Entry}
    (hid : r.client.requests.lookup id = some tracked)
    (hentries : r.client.responses.lookup id = some entries) :
    r.client.isComplete id = .ok (tracked.multi.running.isEmpty &&
      entries.all fun e => e.response.status != 0) := by
  simp only [CurlClient.isComplete, hid, orThrow, Option.elim_some, hentries]
  cases hrunning : tracked.multi.running with
  | nil => simp [Bind.bind, Except.bind, pure, Except.pure, hrunning]
  | cons easy running => simp [Bind.bind, Except.bind, pure, Except.pure, hrunning]

theorem moves_poll (h : r.forget.Ordered) (hnone : r.calling = none) {id : ℕ} (hstep : r.poll id = some t) :
    r.Moves (.poll id) t := by
  have hquiet : ¬ r.forget.CallsBack id := not_callsBack (r := r.forget) hnone id
  unfold CurlRun.poll at hstep
  cases hm : r.client.monitorThreads.lookup id with
  | none =>
    rw [hm] at hstep
    cases hstep
  | some m =>
    rw [hm] at hstep
    dsimp only at hstep
    split at hstep
    · cases hstep
    next hrunning =>
      replace hrunning : m.running = true := Bool.not_eq_false _ ▸ hrunning
      obtain ⟨tracked, hid, -⟩ := h.threads id m hm hrunning
      obtain ⟨entries, hentries, hfits⟩ := h.fits id tracked hquiet hid
      obtain ⟨running, entries', hall, hconsume, -⟩ := h.consumeMsgs hquiet hid hentries
      replace hconsume : r.client.consumeMsgs id = .ok { r.client with
          requests := r.client.requests.insert id { tracked with multi := ⟨running, []⟩ }
          responses := r.client.responses.insert id entries' } := hconsume
      rw [isComplete_eq (r := r) hid hentries] at hstep
      cases hcomplete : (tracked.multi.running.isEmpty &&
          entries.all fun e => e.response.status != 0) with
      | false =>
        simp only [hcomplete, hconsume] at hstep
        cases hstep
        exact .consumed id m tracked entries entries' running hnone hm hrunning hid hentries hall
      | true =>
        obtain ⟨hempty, hstatus⟩ := Bool.and_eq_true_iff.1 hcomplete
        obtain ⟨hqueue, hanswers⟩ := hfits.complete hstatus
        replace hempty := List.isEmpty_iff.1 hempty
        rw [hqueue, hempty] at hall
        obtain ⟨rfl, rfl⟩ := Prod.mk.inj (Except.ok.inj hall)
        cases hcallback : m.callback with
        | false =>
          simp only [hcomplete] at hstep
          rw [if_neg (by rw [hcallback]; decide), stop, SetMap.update_eq hm] at hstep
          cases hstep
          exact .stopped id m hnone hm hcallback
        | true =>
          simp only [hcomplete, hcallback, if_true, hconsume, AList.lookup_insert, AList.insert_insert] at hstep
          cases hstep
          exact .calledBack id m tracked entries hnone hm hrunning hcallback hid hentries ⟨hempty, hqueue⟩
            hanswers

theorem moves_locking (h : r.forget.Ordered) {a : CurlAction} (hlocks : a.locks = true)
    (hstep : r.step a = some t) : r.Moves a t := by
  unfold CurlRun.step at hstep
  split at hstep
  · cases hstep
  next hgo =>
  have hnone : r.calling = none := by
    rw [hlocks, Bool.true_and, Bool.or_eq_true, not_or, Bool.not_eq_true, Bool.not_eq_true] at hgo
    exact Option.isSome_eq_false_iff.1 hgo.2 |> Option.isNone_iff_eq_none.1
  have hquiet (id : ℕ) : ¬ r.forget.CallsBack id := not_callsBack (r := r.forget) hnone id
  cases a with
  | submit rs callback performs =>
    cases hstep
    unfold CurlRun.submit
    dsimp only
    by_cases hid : r.client.requests.size ∈ r.client.requests
    · rw [if_pos hid]
      exact .clashed rs callback performs hnone hid
    · have hnew : r.client.requests.size ∉ r.client.responses := fun hmem => hid (h.responses _ hmem)
      rw [if_neg hid, if_neg hnew]
      cases performs with
      | false => exact .refused rs callback hnone hid
      | true => exact .submitted rs callback hnone hid
  | transfer id i reply =>
    simp only [CurlRun.transfer, Option.bind_eq_bind, Option.bind_eq_some_iff] at hstep
    obtain ⟨tracked, hid, easy, hfind, hstep⟩ := hstep
    obtain ⟨entries, hentries, -⟩ := h.fits id tracked (hquiet id) hid
    replace hentries : r.client.responses.lookup id = some entries := hentries
    simp only [hentries, Option.bind_eq_some_iff] at hstep
    obtain ⟨e, he, heq⟩ := hstep
    cases heq
    exact .ended id i reply tracked easy entries e hnone hid hfind hentries he
  | poll id => exact moves_poll h hnone hstep
  | callbackReturn | callbackThrow | nestedSubmit | erase => cases hlocks

/-- The steps that do not lock: the end of a callback, what it must not do, and `erase`. -/
theorem moves_unlocked (h : r.forget.Ordered) {a : CurlAction} (hlocks : a.locks = false)
    (hstep : r.step a = some t) : r.Moves a t := by
  unfold CurlRun.step at hstep
  split at hstep
  · cases hstep
  cases a with
  | submit | transfer | poll => cases hlocks
  | callbackReturn =>
    obtain ⟨call, hcalling, rfl⟩ := Option.map_eq_some_iff.1 hstep
    obtain ⟨m, -, hm, -, hcallback, -⟩ := h.calling call hcalling
    replace hm : r.client.monitorThreads.lookup call.id = some m := hm
    rw [CurlRun.callbackReturn, stop, SetMap.update_eq hm]
    exact .returned call m hcalling hm hcallback
  | callbackThrow =>
    obtain ⟨-, -, rfl⟩ := Option.map_eq_some_iff.1 hstep
    exact .faulted .callbackThrow rfl id
  | nestedSubmit rs =>
    obtain ⟨-, -, rfl⟩ := Option.map_eq_some_iff.1 hstep
    exact .faulted (.nestedSubmit rs) rfl id
  | erase id =>
    cases hstep
    unfold CurlRun.erase
    split
    next hbad =>
      refine .faulted (.erase id) rfl ?_
      rintro ⟨m, hm, hended⟩
      rw [hm, Option.all_some, hended] at hbad
      cases hbad
    next hgood =>
      cases hm : r.client.monitorThreads.lookup id with
      | none =>
        rw [hm] at hgood
        exact absurd rfl hgood
      | some m =>
        rw [hm, Option.all_some, Bool.not_eq_true] at hgood
        exact .erased id m hm hgood

theorem moves (h : r.forget.Ordered) {a : CurlAction} (hstep : r.step a = some t) : r.Moves a t := by
  cases hlocks : a.locks with
  | true => exact moves_locking h hlocks hstep
  | false => exact moves_unlocked h hlocks hstep

theorem Ordered.not_calling (h : r.forget.Ordered) {id : ℕ} {m : MonitorThread}
    (hm : r.client.monitorThreads.lookup id = some m) (hended : m.running = false) (call : Callback)
    (hcall : r.calling = some call) : call.id ≠ id := by
  rintro rfl
  obtain ⟨m', -, hm', hrunning, -⟩ := h.calling call hcall
  obtain rfl := Option.some.inj (hm'.symm.trans hm)
  rw [hended] at hrunning
  cases hrunning

theorem Moves.ordered {a : CurlAction} (hmove : r.Moves a t) (h : r.forget.Ordered) :
    t.forget.Ordered := by
  cases hmove with
  | clashed rs callback performs hnone hid => exact (h.more rs).forget
  | refused rs callback hnone hid =>
    exact ((h.more rs).insert hnone hid ⟨rs, {}⟩ _ (Fits.new rs [] (Or.inl rfl)) _
      fun id' m hm _ => Or.inl hm).forget
  | submitted rs callback hnone hid =>
    refine ((h.more rs).insert hnone hid ⟨rs, { running := easySetup rs }⟩ _
      (Fits.new rs _ (Or.inr rfl)) _ fun id' m hm _ => ?_).forget
    obtain ⟨rfl, rfl⟩ | ⟨-, hold⟩ := SetMap.of_insert hm
    · exact Or.inr ⟨rfl, List.getElem?_concat_length⟩
    · exact Or.inl hold
  | ended id i reply tracked easy entries e hnone hid hfind hentries he =>
    exact (h.ended hnone reply hid hfind hentries he).forget
  | consumed id m tracked entries entries' running hnone hm hrunning hid hentries hall =>
    have hquiet : ¬ r.forget.CallsBack id := not_callsBack (r := r.forget) hnone id
    obtain ⟨running₁, entries₁, hall₁, -, hfits⟩ := h.consumeMsgs hquiet hid hentries
    obtain ⟨rfl, rfl⟩ := Prod.mk.inj (Except.ok.inj (hall.symm.trans hall₁))
    exact (h.put hnone hid _ _ hfits).forget
  | calledBack id m tracked entries hnone hm hrunning hcallback hid hentries hidle hanswers =>
    exact (h.handOver hnone hm hrunning hcallback hid).forget
  | stopped id m hnone hm hcallback => exact (h.stopped hnone).forget
  | returned call m hcalling hm hcallback =>
    refine (h.remove call.id _ none (fun id' m' hm' hrunning' => ?_)
      (fun id' m' hne hm' => (AList.lookup_insert_ne hne).trans hm') (fun id' hne hcalls => ?_) nofun).forget
    · obtain ⟨rfl, rfl⟩ | ⟨hne, hold⟩ := SetMap.of_insert hm'
      · cases hrunning'
      · exact ⟨hne, hold⟩
    · obtain ⟨call', hcall', hid'⟩ := hcalls
      obtain rfl := Option.some.inj (hcalling.symm.trans hcall')
      exact absurd hid'.symm hne
  | erased id m hm hended =>
    exact (h.remove id _ r.calling (fun id' m' hm' _ => SetMap.of_erase hm')
      (fun id' m' hne hm' => (AList.lookup_erase_ne hne).trans hm') (fun id' _ hcalls => hcalls)
      fun call hcall => ⟨hcall, h.not_calling hm hended call hcall⟩).forget
  | faulted a hlocks hfree => exact h

theorem Moves.keeps {a : CurlAction} (hmove : r.Moves a t) (h : r.Ordered) (hfree : r.Free a) :
    KeepsSets t.submissions t.history := by
  cases hmove with
  | clashed rs callback performs hnone hid => exact absurd hid hfree
  | refused rs callback hnone hid => exact h.keeps.submit rs
  | submitted rs callback hnone hid =>
    exact (h.keeps.submit rs).submitted _ _ _ fun hmem => hid (AList.mem_keys.2 hmem)
  | calledBack id m tracked entries hnone hm hrunning hcallback hid hentries hidle hanswers =>
    obtain ⟨tracked', hid', hnumber⟩ := h.threads id m hm hrunning
    obtain rfl := Option.some.inj (hid'.symm.trans hid)
    exact h.keeps.calledBack _ _ _ hnumber hanswers
  | ended | consumed | stopped | returned | erased | faulted => exact h.keeps

theorem Moves.defined {a : CurlAction} (hmove : r.Moves a t) (h : r.Ordered) (hfree : r.Free a) :
    t.fault = false := by
  cases hmove with
  | submitted rs callback hnone hid =>
    -- a thread that were running would watch a set that is held
    rw [← Bool.not_eq_true, Option.any_eq_true]
    rintro ⟨m, hm, hrunning⟩
    obtain ⟨tracked, hheld, -⟩ := h.threads _ m hm hrunning
    exact hid (SetMap.mem_of_lookup hheld)
  | faulted a hlocks hbad => exact absurd hfree hbad
  | clashed | refused | ended | consumed | calledBack | stopped | returned | erased => exact h.defined

theorem Ordered.step (h : r.Ordered) (a : CurlAction) (hfree : r.Free a) (hstep : r.step a = some t) :
    t.Ordered := by
  have hmove := moves h.forget hstep
  have hnext := hmove.ordered h.forget
  exact {
    keeps := hmove.keeps h hfree
    responses := hnext.responses
    fits := hnext.fits
    threads := hnext.threads
    calling := hnext.calling
    defined := hmove.defined h hfree }

end CurlRun

/-- In a run in which the number of held sets is a free id at every submission, no set is erased
before its thread has ended, and callbacks return and submit nothing. -/
theorem CurlRun.run_ordered (r : CurlRun) (h : Steps CurlRun.step CurlRun.Free {} r) : r.Ordered := by
  refine h.invariant CurlRun.Ordered (fun r a t hr hfree hstep => hr.step a hfree hstep) ?_
  exact {
    keeps := KeepsSets.nothing _
    responses := fun id hid => absurd hid (AList.notMem_empty id)
    fits := fun id tracked _ hid => by rw [AList.lookup_empty] at hid; cases hid
    threads := fun id m hm => by rw [AList.lookup_empty] at hm; cases hm
    calling := nofun
    defined := rfl }

end Ravl.Http
