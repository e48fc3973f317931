import Ravl.Http.Synchronous

/-!
# What a server can make the synchronous client deliver

The responses of a set are those that its servers' last replies make of an empty response, all
with status 200; every list of such replies is delivered by some server.
-/

namespace Ravl.Http
open ByteLib FallibleLib

/-- Responses that some server makes a new client deliver for these requests -/
def Deliverable (maxAttempts : ℕ) (rs : HTTPRequests) (responses : HTTPResponses) : Prop :=
  (rs ≠ [] → 0 < maxAttempts) ∧ ∃ replies : List Reply, replies.length = rs.length ∧
    (∀ reply ∈ replies, reply.status = 200) ∧ responses = replies.map Reply.response

section
variable (server : Server)

theorem attempt_response (timeout : ℕ) (request : HTTPRequest) (tooMany : String) (n : ℕ)
    (asked : List HTTPRequest) (response : HTTPResponse)
    (h : (attempt server timeout request tooMany n {} asked).1 = .ok response) :
    0 < n ∧ ∃ reply : Reply, response = reply.response := by
  induction n generalizing asked with
  | zero => cases h
  | succ n ih =>
    refine ⟨Nat.succ_pos n, ?_⟩
    unfold attempt at h
    split at h
    · cases h
    next reply _ =>
      dsimp only at h
      obtain hretry | hdone := mustRetry_cases (perform {} reply) reply.status
      · rw [hretry] at h
        exact (ih (request :: asked) h).2
      · rw [hdone] at h
        exact ⟨reply, (Except.ok.inj h).symm⟩

theorem executeSet_deliverable (timeout maxAttempts : ℕ) (rs : HTTPRequests) (i : ℕ)
    (entries : List Entry) (asked : List HTTPRequest) (hlen : entries.length = i + rs.length)
    (hok : (executeSet server timeout maxAttempts rs i entries asked).1 = .ok ()) :
    ∃ responses, Deliverable maxAttempts rs responses ∧
      (executeSet server timeout maxAttempts rs i entries asked).2.1.map Entry.response =
        (entries.take i).map Entry.response ++ responses := by
  induction rs generalizing i entries asked with
  | nil =>
    rw [List.length_nil, Nat.add_zero] at hlen
    refine ⟨[], ⟨fun h => absurd rfl h, [], rfl, nofun, rfl⟩, ?_⟩
    rw [← hlen, List.take_length, List.append_nil]
    rfl
  | cons request rs ih =>
    rw [List.length_cons] at hlen
    unfold executeSet at hok ⊢
    cases hexecute : executeSynchronous server request timeout maxAttempts asked with
    | mk result asked' =>
      rw [hexecute] at hok
      cases result with
      | error e => cases hok
      | ok response =>
        dsimp only at hok ⊢
        have hi : i < entries.length := by omega
        rw [if_pos hi] at hok ⊢
        by_cases hstatus : response.status ≠ 200
        · rw [if_pos hstatus] at hok
          cases hok
        · rw [if_neg hstatus] at hok ⊢
          rw [not_not] at hstatus
          obtain ⟨hattempts, reply, rfl⟩ := attempt_response server _ _ _ _ _ _
            (congrArg Prod.fst hexecute)
          obtain ⟨_, ⟨-, replies, hlength, hreplies, rfl⟩, hmap⟩ :=
            ih (i + 1) (entries.set i ⟨reply.response, some request.url⟩) asked'
              (by rw [List.length_set]; omega) hok
          refine ⟨(reply :: replies).map Reply.response,
            ⟨fun _ => hattempts, reply :: replies, congrArg (· + 1) hlength, ?_, rfl⟩, ?_⟩
          · intro r hr
            obtain rfl | hr := List.mem_cons.1 hr
            · exact hstatus
            · exact hreplies r hr
          · have hset : i < (entries.set i ⟨reply.response, some request.url⟩).length := by
              rw [List.length_set]
              exact hi
            rw [hmap, List.take_add_one, List.getElem?_eq_getElem hset, List.getElem_set_self,
              List.take_set_of_le (le_refl i), List.map_append, List.append_assoc]
            rfl

end

/-! ### A server with a list of replies -/

/-- It answers the n-th request with the n-th reply, and hangs up behind the last one. -/
def scripted (replies : List Reply) : Server := fun _ asked =>
  match replies[asked.length - 1]? with
  | some reply => .ok reply
  | none => .error 52

theorem mustRetry_good (response : HTTPResponse) :
    mustRetry response 200 = (false, { response with status := 200 }) := rfl

theorem executeSet_scripted (timeout maxAttempts : ℕ) (hattempts : 0 < maxAttempts)
    (before replies : List Reply) (rs : HTTPRequests) (entries : List Entry)
    (asked : List HTTPRequest) (hasked : asked.length = before.length)
    (hlen : entries.length = before.length + rs.length) (hreplies : replies.length = rs.length)
    (hgood : ∀ reply ∈ replies, reply.status = 200) :
    (executeSet (scripted (before ++ replies)) timeout maxAttempts rs before.length entries asked).1 =
        .ok () ∧
      (executeSet (scripted (before ++ replies)) timeout maxAttempts rs before.length entries
        asked).2.1.map Entry.response =
        (entries.take before.length).map Entry.response ++ replies.map Reply.response := by
  induction rs generalizing before replies entries asked with
  | nil =>
    cases replies with
    | cons reply replies => cases hreplies
    | nil =>
      rw [List.length_nil, Nat.add_zero] at hlen
      refine ⟨rfl, ?_⟩
      rw [List.take_of_length_le (le_of_eq hlen), List.map_nil]
      exact (List.append_nil _).symm
  | cons request rs ih =>
    cases replies with
    | nil => cases hreplies
    | cons reply replies =>
      rw [List.length_cons] at hlen
      have hstatus : reply.status = 200 := hgood reply (List.mem_cons_self ..)
      have hanswer : scripted (before ++ reply :: replies) timeout (request :: asked) = .ok reply := by
        have hindex : (request :: asked).length - 1 = before.length := hasked
        rw [scripted, hindex, List.getElem?_append_right (le_refl _), Nat.sub_self]
        rfl
      have hexecute : executeSynchronous (scripted (before ++ reply :: replies)) request timeout
          maxAttempts asked = (.ok reply.response, request :: asked) := by
        obtain ⟨n, rfl⟩ := Nat.exists_eq_succ_of_ne_zero (Nat.pos_iff_ne_zero.1 hattempts)
        unfold executeSynchronous attempt
        rw [hanswer]
        dsimp only
        rw [hstatus, mustRetry_good, if_neg Bool.false_ne_true, Reply.response, hstatus]
      have hi : before.length < entries.length := by omega
      have hset : before.length <
          (entries.set before.length ⟨reply.response, some request.url⟩).length := by
        rw [List.length_set]
        exact hi
      have hresponse : ¬ reply.response.status ≠ 200 := not_not.2 hstatus
      have hrest := ih (before ++ [reply]) replies
        (entries.set before.length ⟨reply.response, some request.url⟩) (request :: asked)
        (by rw [List.length_append, List.length_cons, hasked]; rfl)
        (by rw [List.length_set, List.length_append, List.length_singleton]; omega)
        (Nat.succ.inj hreplies) (fun r hr => hgood r (List.mem_cons_of_mem _ hr))
      rw [List.append_assoc, List.singleton_append, List.length_append, List.length_singleton] at hrest
      unfold executeSet
      rw [hexecute]
      dsimp only
      rw [if_pos hi, if_neg hresponse]
      refine ⟨hrest.1, ?_⟩
      rw [hrest.2, List.take_add_one, List.getElem?_eq_getElem hset, List.getElem_set_self,
        List.take_set_of_le (le_refl _), List.map_append, List.append_assoc]
      rfl

/-! ### A new client -/

def newClient (timeout maxAttempts : ℕ) : SynchronousHTTPClient where
  requestTimeout := timeout
  maxAttempts := maxAttempts

theorem execute_new (server : Server) (timeout maxAttempts : ℕ) (rs : HTTPRequests) :
    ((newClient timeout maxAttempts).execute server rs []).1 =
      match executeSet server timeout maxAttempts rs 0 (List.replicate rs.length {}) [] with
      | (.error e, _, _) => .error e
      | (.ok (), entries, _) => .ok (0, entries) := by
  have hnew : ¬ 0 ∈ (newClient timeout maxAttempts).responseSets := AList.notMem_empty _
  have hstored : (((newClient timeout maxAttempts).requestSets.emplace
      (newClient timeout maxAttempts).requestSets.size rs).lookup
        (newClient timeout maxAttempts).requestSets.size).getD [] = rs := rfl
  unfold SynchronousHTTPClient.execute
  refine (congrArg Prod.fst (if_neg hnew)).trans ?_
  rw [hstored]
  dsimp only [newClient]
  cases executeSet server timeout maxAttempts rs 0 (List.replicate rs.length {}) [] with
  | mk result rest =>
    cases result <;> rfl

theorem execute_deliverable (timeout maxAttempts : ℕ) (rs : HTTPRequests) (responses : HTTPResponses) :
    (∃ server id entries, ((newClient timeout maxAttempts).execute server rs []).1 = .ok (id, entries) ∧
      entries.map Entry.response = responses) ↔ Deliverable maxAttempts rs responses := by
  constructor
  · intro ⟨server, id, entries, hexecute, hresponses⟩
    rw [execute_new] at hexecute
    split at hexecute
    next => cases hexecute
    next entries' asked' hset =>
      cases hexecute
      obtain ⟨responses', hdeliverable, hmap⟩ := executeSet_deliverable server timeout maxAttempts rs 0
        (List.replicate rs.length {}) [] (by rw [List.length_replicate, Nat.zero_add])
        (congrArg Prod.fst hset)
      rw [hset, List.take_zero, List.map_nil, List.nil_append] at hmap
      rw [← hresponses, hmap]
      exact hdeliverable
  · intro ⟨hattempts, replies, hlength, hgood, hresponses⟩
    by_cases hne : rs = []
    · subst hne
      obtain rfl := List.length_eq_zero_iff.1 hlength
      exact ⟨scripted [], 0, [], rfl, hresponses.symm⟩
    · obtain ⟨hok, hmap⟩ := executeSet_scripted timeout maxAttempts (hattempts hne) [] replies rs
        (List.replicate rs.length {}) [] rfl (by rw [List.length_replicate, List.length_nil, Nat.zero_add])
        hlength hgood
      rw [List.nil_append, List.length_nil] at hok hmap
      rw [List.take_zero, List.map_nil, List.nil_append, ← hresponses] at hmap
      refine ⟨scripted replies, 0, _, ?_, hmap⟩
      rw [execute_new]
      cases hset : executeSet (scripted replies) timeout maxAttempts rs 0
          (List.replicate rs.length {}) [] with
      | mk result rest =>
        rw [hset] at hok
        cases hok
        rfl

theorem execute_unreachable (timeout maxAttempts : ℕ) (rs : HTTPRequests) (hne : rs ≠ []) :
    ∃ e, ((newClient timeout maxAttempts).execute (scripted []) rs []).1 = .error e := by
  rw [execute_new]
  cases rs with
  | nil => exact absurd rfl hne
  | cons request rs =>
    cases maxAttempts with
    | zero => exact ⟨_, rfl⟩
    | succ n => exact ⟨_, rfl⟩

end Ravl.Http
