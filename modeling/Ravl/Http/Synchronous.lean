import Ravl.Http.Responses
import Ravl.Lib.Transition

/-!
# The synchronous client (http_client.cpp, http_client_curl.cpp:118-170)

The server is a function of all requests it got. `submit` executes the requests one after another
and calls back; the callback may call the client again, so a run of the client stops there.
-/

namespace Ravl.Http
open ByteLib FallibleLib TransitionLib

/-- The reply to the first of these requests, the newest, within a time limit, or curl's error. -/
abbrev Server := ℕ → List HTTPRequest → Except ℕ Reply

section
variable (server : Server)

/-! ### `execute_synchronous` -/

/-- The loop, with so many attempts left; all attempts share the response. -/
def attempt (timeout : ℕ) (request : HTTPRequest) (tooMany : String) :
    ℕ → HTTPResponse → List HTTPRequest → Result HTTPResponse × List HTTPRequest
  | 0, _, asked => (.error (.exception tooMany), asked)
  | n + 1, response, asked =>
    match server timeout (request :: asked) with
    | .error code => (.error (.exception ("curl error: " ++ toString code)), request :: asked)
    | .ok reply =>
      let r := mustRetry (perform response reply) reply.status
      if r.1 then attempt timeout request tooMany n r.2 (request :: asked)
      else (.ok r.2, request :: asked)

def executeSynchronous (request : HTTPRequest) (timeout maxAttempts : ℕ) (asked : List HTTPRequest) :
    Result HTTPResponse × List HTTPRequest :=
  attempt server timeout request ("maxmimum number (" ++ toString maxAttempts ++
    ") of URL request retries exceeded for " ++ str request.url) maxAttempts {} asked

/-! ### The client -/

structure SynchronousHTTPClient where
  requestTimeout : ℕ := 0
  maxAttempts : ℕ := 5
  requestSets : SetMap HTTPRequests := ∅
  responseSets : SetMap (List Entry) := ∅

def executeSet (timeout maxAttempts : ℕ) :
    HTTPRequests → ℕ → List Entry → List HTTPRequest → Result Unit × List Entry × List HTTPRequest
  | [], _, entries, asked => (.ok (), entries, asked)
  | request :: requests, i, entries, asked =>
    match executeSynchronous server request timeout maxAttempts asked with
    | (.error e, asked) => (.error e, entries, asked)
    | (.ok response, asked) =>
      if i < entries.length then
        let entries := entries.set i ⟨response, some request.url⟩
        if response.status ≠ 200 then
          (.error (.exception ("unexpected HTTP status " ++ toString response.status)), entries, asked)
        else executeSet timeout maxAttempts requests (i + 1) entries asked
      else (.error (.undefined "index into the response set"), entries, asked)

namespace SynchronousHTTPClient
variable (c : SynchronousHTTPClient)

/-- `submit` up to the callback: the id and what the callback gets. -/
def execute (rs : HTTPRequests) (asked : List HTTPRequest) :
    Result (ℕ × List Entry) × SynchronousHTTPClient × List HTTPRequest :=
  let id := c.requestSets.size
  let c := { c with requestSets := c.requestSets.emplace id rs }
  if id ∈ c.responseSets then (.error (.exception "std::bad_alloc"), c, asked)
  else
    let stored := (c.requestSets.lookup id).getD []
    match executeSet server c.requestTimeout c.maxAttempts stored 0
        (List.replicate rs.length {}) asked with
    | (.error e, entries, asked) =>
      (.error e, { c with responseSets := c.responseSets.insert id entries }, asked)
    | (.ok (), entries, asked) =>
      (.ok (id, entries), { c with responseSets := c.responseSets.insert id [] }, asked)

/-- What is left of `submit` behind the callback -/
def finish (id : ℕ) : SynchronousHTTPClient := { c with responseSets := c.responseSets.erase id }

def erase (id : ℕ) : SynchronousHTTPClient :=
  { c with requestSets := c.requestSets.erase id, responseSets := c.responseSets.erase id }

end SynchronousHTTPClient

/-! ### Runs -/

/-- A `submit` in its callback. -/
structure Call where
  number : ℕ
  id : ℕ
  /-- the set has been erased, and the iterator to its responses with it -/
  erased : Bool := false

structure SyncRun where
  client : SynchronousHTTPClient := {}
  asked : List HTTPRequest := []
  calls : List Call := []
  submissions : List HTTPRequests := []
  history : List Event := []
  undefined : Bool := false

inductive SyncAction
  | submit (rs : HTTPRequests)
  | callbackReturn
  | callbackThrow
  | erase (id : ℕ)

def SyncRun.submit (r : SyncRun) (rs : HTTPRequests) : SyncRun :=
  let number := r.submissions.length
  let id := r.client.requestSets.size
  let done := r.client.execute server rs r.asked
  let next := { r with
    client := done.2.1, asked := done.2.2, submissions := r.submissions ++ [rs] }
  match done.1 with
  | .error (.undefined _) => { next with undefined := true }
  | .error (.exception _) =>
    if id ∈ r.client.responseSets then { next with history := .clashed number id :: r.history } else next
  | .ok (id, entries) => { next with
      calls := ⟨number, id, false⟩ :: r.calls
      history := .calledBack number entries ::
        .submitted number id r.client.requestSets.keys :: r.history }

def SyncRun.callbackReturn (r : SyncRun) : Option SyncRun :=
  match r.calls with
  | [] => none
  | call :: calls =>
    if call.erased then some { r with calls, undefined := true }
    else some { r with calls, client := r.client.finish call.id }

def SyncRun.erase (r : SyncRun) (id : ℕ) : SyncRun :=
  { r with
    client := r.client.erase id
    calls := r.calls.map fun call => { call with erased := call.erased || call.id = id } }

def SyncRun.step (r : SyncRun) (a : SyncAction) : Option SyncRun :=
  if r.undefined then none
  else
    match a with
    | .submit rs => some (r.submit server rs)
    | .callbackReturn => r.callbackReturn
    | .callbackThrow => if r.calls = [] then none else some { r with calls := r.calls.tail }
    | .erase id => some (r.erase id)

/-- The number of sets is free as an id; no set is erased in its own callback. -/
def SyncRun.Free (r : SyncRun) : SyncAction → Prop
  | .submit _ => r.client.requestSets.size ∉ r.client.requestSets
  | .erase id => ∀ call ∈ r.calls, call.id ≠ id
  | _ => True

/-! ### Executing a set -/

theorem attempt_throws (timeout : ℕ) (request : HTTPRequest) (tooMany : String) (n : ℕ)
    (response : HTTPResponse) (asked : List HTTPRequest) (e : Error)
    (h : (attempt server timeout request tooMany n response asked).1 = .error e) :
    ∃ what, e = .exception what := by
  induction n generalizing response asked with
  | zero => exact ⟨_, (Except.error.inj h).symm⟩
  | succ n ih =>
    unfold attempt at h
    split at h
    · exact ⟨_, (Except.error.inj h).symm⟩
    · dsimp only at h
      split at h
      · exact ih _ _ h
      · cases h

theorem executeSet_answers (timeout maxAttempts : ℕ) (rs : HTTPRequests) (i : ℕ)
    (entries : List Entry) (asked : List HTTPRequest) (hlen : entries.length = i + rs.length) :
    (∀ what, (executeSet server timeout maxAttempts rs i entries asked).1 ≠ .error (.undefined what)) ∧
      ((executeSet server timeout maxAttempts rs i entries asked).1 = .ok () →
        (executeSet server timeout maxAttempts rs i entries asked).2.1.map Entry.url =
          (entries.take i).map Entry.url ++ rs.map fun request => some request.url) := by
  induction rs generalizing i entries asked with
  | nil =>
    refine ⟨nofun, fun _ => ?_⟩
    rw [List.length_nil, Nat.add_zero] at hlen
    rw [← hlen, List.take_length, List.map_nil, List.append_nil]
    rfl
  | cons request rs ih =>
    rw [List.length_cons] at hlen
    unfold executeSet
    cases hexecute : executeSynchronous server request timeout maxAttempts asked with
    | mk result asked' =>
      cases result with
      | error e =>
        refine ⟨fun what hw => ?_, nofun⟩
        obtain ⟨_, rfl⟩ := attempt_throws server _ _ _ _ _ _ e (congrArg Prod.fst hexecute)
        cases hw
      | ok response =>
        dsimp only
        rw [if_pos (by omega)]
        by_cases hstatus : response.status ≠ 200
        · rw [if_pos hstatus]
          exact ⟨nofun, nofun⟩
        · rw [if_neg hstatus]
          have hrest := ih (i + 1) (entries.set i ⟨response, some request.url⟩) asked'
            (by rw [List.length_set]; omega)
          refine ⟨hrest.1, fun hok => ?_⟩
          have hi : i < (entries.set i ⟨response, some request.url⟩).length := by
            rw [List.length_set]
            omega
          rw [hrest.2 hok, List.take_add_one, List.getElem?_eq_getElem hi, List.getElem_set_self,
            List.take_set_of_le (le_refl i), List.map_append, List.map_cons, List.append_assoc]
          rfl

/-! ### What a run keeps -/

structure SyncRun.Ordered (r : SyncRun) : Prop where
  keeps : KeepsSets r.submissions r.history
  responses : ∀ id ∈ r.client.responseSets, id ∈ r.client.requestSets
  calls : ∀ call ∈ r.calls, call.erased = false ∧ call.id ∈ r.client.responseSets
  distinct : (r.calls.map Call.id).Nodup
  defined : r.undefined = false

variable {server}

theorem execute_free (c : SynchronousHTTPClient) (rs : HTTPRequests) (asked : List HTTPRequest)
    (hfree : c.requestSets.size ∉ c.requestSets)
    (hresponses : ∀ id ∈ c.responseSets, id ∈ c.requestSets) :
    (c.execute server rs asked).2.1.requestSets = c.requestSets.insert c.requestSets.size rs ∧
      (∃ v, (c.execute server rs asked).2.1.responseSets = c.responseSets.insert c.requestSets.size v) ∧
      ((∃ what, (c.execute server rs asked).1 = .error (.exception what)) ∨
        ∃ entries, (c.execute server rs asked).1 = .ok (c.requestSets.size, entries) ∧
          Answers rs entries) := by
  have hnew : c.requestSets.size ∉ c.responseSets := fun h => hfree (hresponses _ h)
  have hemplace : c.requestSets.emplace c.requestSets.size rs =
      c.requestSets.insert c.requestSets.size rs := if_neg hfree
  have hstored : ((c.requestSets.emplace c.requestSets.size rs).lookup c.requestSets.size).getD [] =
      rs := by
    rw [hemplace, AList.lookup_insert]
    rfl
  obtain ⟨hdefined, hanswers⟩ := executeSet_answers server c.requestTimeout c.maxAttempts rs 0
    (List.replicate rs.length {}) asked (by rw [List.length_replicate, Nat.zero_add])
  unfold SynchronousHTTPClient.execute
  rw [if_neg hnew]
  dsimp only
  rw [hstored]
  cases hset : executeSet server c.requestTimeout c.maxAttempts rs 0
      (List.replicate rs.length {}) asked with
  | mk result rest =>
    rw [hset] at hdefined hanswers
    cases result with
    | error e =>
      refine ⟨hemplace, ⟨_, rfl⟩, Or.inl ?_⟩
      cases e with
      | exception what => exact ⟨what, rfl⟩
      | undefined what => exact absurd rfl (hdefined what)
    | ok u => exact ⟨hemplace, ⟨_, rfl⟩, Or.inr ⟨rest.1, rfl, hanswers rfl⟩⟩

theorem SyncRun.Ordered.submit {r : SyncRun} (h : r.Ordered)
    (hfree : r.client.requestSets.size ∉ r.client.requestSets) (rs : HTTPRequests) :
    (r.submit server rs).Ordered := by
  obtain ⟨hrequests, ⟨v, hresponses⟩, houtcome⟩ :=
    execute_free r.client rs r.asked hfree h.responses
  have hnew : r.client.requestSets.size ∉ r.client.responseSets := fun hmem => hfree (h.responses _ hmem)
  have hinside (id : ℕ) (hid : id ∈ r.client.responseSets.insert r.client.requestSets.size v) :
      id ∈ r.client.requestSets.insert r.client.requestSets.size rs := by
    rw [AList.mem_insert] at hid ⊢
    exact hid.imp_right (h.responses id)
  have hcalls (call : Call) (hcall : call ∈ r.calls) : call.erased = false ∧
      call.id ∈ r.client.responseSets.insert r.client.requestSets.size v :=
    ⟨(h.calls call hcall).1, (AList.mem_insert _).2 (Or.inr (h.calls call hcall).2)⟩
  obtain ⟨what, hthrows⟩ | ⟨entries, hok, hanswers⟩ := houtcome
  · have hform : r.submit server rs = { r with
        client := (r.client.execute server rs r.asked).2.1
        asked := (r.client.execute server rs r.asked).2.2
        submissions := r.submissions ++ [rs] } := by
      unfold SyncRun.submit
      dsimp only
      rw [hthrows]
      dsimp only
      rw [if_neg hnew]
    rw [hform]
    exact {
      keeps := h.keeps.submit rs
      responses := by
        dsimp only
        rw [hrequests, hresponses]
        exact hinside
      calls := by
        dsimp only
        rw [hresponses]
        exact hcalls
      distinct := h.distinct
      defined := h.defined }
  · have hform : r.submit server rs = { r with
        client := (r.client.execute server rs r.asked).2.1
        asked := (r.client.execute server rs r.asked).2.2
        submissions := r.submissions ++ [rs]
        calls := ⟨r.submissions.length, r.client.requestSets.size, false⟩ :: r.calls
        history := .calledBack r.submissions.length entries ::
          .submitted r.submissions.length r.client.requestSets.size r.client.requestSets.keys ::
            r.history } := by
      unfold SyncRun.submit
      dsimp only
      rw [hok]
    rw [hform]
    exact {
      keeps := ((h.keeps.submit rs).submitted _ _ _ (fun hmem => hfree (AList.mem_keys.2 hmem))).calledBack
        _ rs entries (by simp) hanswers
      responses := by
        dsimp only
        rw [hrequests, hresponses]
        exact hinside
      calls := by
        dsimp only
        rw [hresponses]
        intro call hcall
        obtain rfl | hcall := List.mem_cons.1 hcall
        · exact ⟨rfl, (AList.mem_insert _).2 (Or.inl rfl)⟩
        · exact hcalls call hcall
      distinct := by
        rw [List.map_cons, List.nodup_cons]
        refine ⟨fun hmem => ?_, h.distinct⟩
        obtain ⟨call, hcall, heq⟩ := List.mem_map.1 hmem
        have hid : call.id = r.client.requestSets.size := heq
        exact hnew (hid ▸ (h.calls call hcall).2)
      defined := h.defined }

theorem SyncRun.Ordered.step {r t : SyncRun} (h : r.Ordered) (a : SyncAction) (hfree : r.Free a)
    (hstep : r.step server a = some t) : t.Ordered := by
  unfold SyncRun.step at hstep
  rw [h.defined, if_neg (by simp)] at hstep
  cases a with
  | submit rs =>
    cases hstep
    exact h.submit hfree rs
  | callbackReturn =>
    simp only [SyncRun.callbackReturn] at hstep
    cases hcalls : r.calls with
    | nil =>
      rw [hcalls] at hstep
      cases hstep
    | cons call calls =>
      have hcall := h.calls call (by rw [hcalls]; exact List.mem_cons_self)
      have hdistinct := h.distinct
      rw [hcalls, List.map_cons, List.nodup_cons] at hdistinct
      rw [hcalls] at hstep
      dsimp only at hstep
      rw [hcall.1, if_neg (by simp)] at hstep
      cases hstep
      exact {
        keeps := h.keeps
        responses := fun id hid => h.responses id (AList.mem_erase.1 hid).2
        calls := fun other hother => by
          have hmem := h.calls other (by rw [hcalls]; exact List.mem_cons_of_mem _ hother)
          refine ⟨hmem.1, AList.mem_erase.2 ⟨fun heq => hdistinct.1 ?_, hmem.2⟩⟩
          exact heq ▸ List.mem_map_of_mem hother
        distinct := hdistinct.2
        defined := h.defined }
  | callbackThrow =>
    simp only at hstep
    split at hstep
    · cases hstep
    · cases hstep
      exact {
        keeps := h.keeps
        responses := h.responses
        calls := fun call hcall => h.calls call (List.mem_of_mem_tail hcall)
        distinct := by
          dsimp only
          rw [List.map_tail]
          exact h.distinct.tail
        defined := rfl }
  | erase id =>
    cases hstep
    have hother (call : Call) (hcall : call ∈ r.calls) :
        ({ call with erased := call.erased || call.id = id } : Call) = call := by
      have hne : call.id ≠ id := hfree call hcall
      cases call
      simp_all
    have hsame : r.calls.map (fun call => ({ call with erased := call.erased || call.id = id } : Call)) =
        r.calls := by
      rw [List.map_congr_left hother, List.map_id']
    unfold SyncRun.erase
    rw [hsame]
    exact {
      keeps := h.keeps
      responses := fun id' hid => by
        have hmem := AList.mem_erase.1 hid
        exact AList.mem_erase.2 ⟨hmem.1, h.responses id' hmem.2⟩
      calls := fun call hcall =>
        ⟨(h.calls call hcall).1, AList.mem_erase.2 ⟨hfree call hcall, (h.calls call hcall).2⟩⟩
      distinct := h.distinct
      defined := h.defined }

/-- In a run in which the number of held sets is a free id at every submission. -/
theorem SyncRun.run_ordered (client : SynchronousHTTPClient) (r : SyncRun)
    (hnew : client.requestSets = ∅ ∧ client.responseSets = ∅)
    (h : Steps (SyncRun.step server) SyncRun.Free { client := client } r) : r.Ordered := by
  refine h.invariant SyncRun.Ordered (fun r a t hr hfree hstep => hr.step a hfree hstep) ?_
  exact {
    keeps := KeepsSets.nothing _
    responses := by
      dsimp only
      rw [hnew.2]
      exact fun id hid => absurd hid (AList.notMem_empty id)
    calls := nofun
    distinct := List.nodup_nil
    defined := rfl }

end

end Ravl.Http
