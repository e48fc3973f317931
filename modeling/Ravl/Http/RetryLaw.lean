import Ravl.Http.CurlReplies
import Ravl.Http.FetchReplies
import Ravl.Http.Fields
import Ravl.Http.RequestSets

/-!
# When the asynchronous clients retry

Both clients are constructed with `max_attempts` and read it nowhere. The curl client retries as
long as the server asks it to, the fetch client never does.
-/

namespace Ravl.Http
open ByteLib FallibleLib TransitionLib

/-! ### What is expected -/

/-- A transfer of the request is under way, or its message is waiting, or neither. -/
inductive Stage
  | underWay | waiting | settled
  deriving DecidableEq

/-- The reply has status 429 and says after how many seconds to try again. -/
def Reply.Asks (reply : Reply) : Prop := reply.status = 429 ∧ 0 < retryField reply.fields

def FetchReply.Asks (reply : FetchReply) : Prop := reply.status = 429 ∧ 0 < retryField reply.headers

/-- A request has had an attempt for each reply and one that is under way; `isIn` says which
responses are a reply and nothing else. -/
structure RetryLaw {ρ : Type} (maxAttempts : ℕ) (status : ρ → ℕ) (asks : ρ → Prop)
    (isIn : ρ → HTTPResponse → Prop) (replies : List ρ) (stage : Stage) (response : HTTPResponse) :
    Prop where
  limit : replies.length + (if stage = .underWay then 1 else 0) ≤ maxAttempts
  again : stage = .settled → ∀ before last, replies = before ++ [last] → asks last →
    maxAttempts ≤ replies.length
  first : stage = .settled → ∃ before last, replies = before ++ [last] ∧
    (∀ reply ∈ before, status reply = 429) ∧ isIn last response

/-- The replies are those that the server gives, one after the other. -/
def Follow {ρ : Type} (replies : List ρ) (server : ℕ → ρ) : Prop :=
  replies = (List.range replies.length).map server

def Multi.stage (multi : Multi) (i : ℕ) : Stage :=
  if ∃ easy ∈ multi.running, easy.i = i then .underWay
  else if ∃ message ∈ multi.queue, message.1.i = i then .waiting
  else .settled

abbrev CurlLaw (isIn : Reply → HTTPResponse → Prop) (maxAttempts : ℕ) :=
  RetryLaw maxAttempts Reply.status Reply.Asks isIn

abbrev FetchLaw (maxAttempts : ℕ) :=
  RetryLaw maxAttempts FetchReply.status FetchReply.Asks fun reply response => response = storeReply {} reply

/-- In every run each request that gets these replies is treated by the law, as long as its set is
held and when it is delivered. -/
def CurlRun.KeepsRetryLaw (isIn : Reply → HTTPResponse → Prop) (maxAttempts : ℕ) (server : ℕ → Reply) : Prop :=
  ∀ r given, CurlRun.Run Any r given → ∀ number i, Follow (given number i) server →
    (∀ id m tracked entries e, r.Watched id m → m.number = number →
      r.client.requests.lookup id = some tracked → r.client.responses.lookup id = some entries →
      entries[i]? = some e →
        CurlLaw isIn maxAttempts (given number i) (tracked.multi.stage i) e.response) ∧
    (∀ entries ∈ callbacks number r.history, ∀ e, entries[i]? = some e →
      CurlLaw isIn maxAttempts (given number i) .settled e.response)

def FetchRun.KeepsRetryLaw (maxAttempts : ℕ) (server : ℕ → FetchReply) : Prop :=
  ∀ r given, FetchRun.Run FetchRun.Unused r given → ∀ number i, Follow (given.replies number i) server →
    (∀ id tracked entries request e, given.owner id = number → callbacks number r.history = [] →
      r.tracker.requests.lookup id = some tracked → r.tracker.responses.lookup id = some entries →
      tracked.requests[i]? = some request → entries[i]? = some e →
        FetchLaw maxAttempts (given.replies number i)
          (if ⟨id, i, request.url⟩ ∈ r.outstanding then .underWay else .settled) e.response) ∧
    (∀ entries ∈ callbacks number r.history, ∀ e, entries[i]? = some e →
      FetchLaw maxAttempts (given.replies number i) .settled e.response)

/-! ### The curl client -/

/-- The first reply that the client does not retry is within the limit, asks for an attempt only if
none is left, and is what the client makes of it. -/
structure CurlRun.Answer (isIn : Reply → HTTPResponse → Prop) (maxAttempts : ℕ) (server : ℕ → Reply)
    (k : ℕ) : Prop where
  within : k < maxAttempts
  before : ∀ j < k, (server j).SeenAsking
  last : ¬ (server k).SeenAsking
  again : (server k).Asks → k + 1 = maxAttempts
  isIn : isIn (server k) (server k).response

section
variable {server : ℕ → Reply} {replies before rest : List Reply} {isIn : Reply → HTTPResponse → Prop}
  {maxAttempts k : ℕ}

theorem Follow.get (h : Follow replies server) {j : ℕ} (hj : j < replies.length) :
    replies[j]? = some (server j) := by
  rw [h, List.getElem?_map, List.getElem?_range hj]
  rfl

/-- A server that does not ask again in place `k` does not keep a request beyond it. -/
theorem Follow.length_le (h : Follow replies server) (hk : ¬ (server k).SeenAsking)
    (hsplit : replies = before ++ rest) (hretried : ∀ reply ∈ before, reply.retried = true) :
    before.length ≤ k := by
  by_contra hlong
  have hin : k < before.length := Nat.lt_of_not_le hlong
  have hlen : k < replies.length := by
    rw [hsplit, List.length_append]
    omega
  have hget := h.get hlen
  rw [hsplit, List.getElem?_append_left hin] at hget
  exact hk ((retried_iff _).1 (hretried (server k) (List.mem_of_getElem? hget)))

end

namespace CurlRun

/-- The only set has one request, with these handles running and this entry; nothing waits. -/
structure Holds (r : CurlRun) (running : List Easy) (e : Entry) : Prop where
  going : r.fault = false
  quiet : r.calling = none
  thread : r.client.monitorThreads.lookup 0 = some { number := 0, callback := true }
  request : r.client.requests.lookup 0 = some ⟨oneRequest "a", ⟨running, []⟩⟩
  response : r.client.responses.lookup 0 = some [e]

theorem Holds.watched {r : CurlRun} {running : List Easy} {e : Entry} (h : r.Holds running e) :
    r.Watched 0 { number := 0, callback := true } :=
  ⟨h.thread, Or.inl rfl, not_callsBack h.quiet 0⟩

/-- The request is under way: its transfer ends, and a round of the thread takes the message. -/
theorem Holds.round {r : CurlRun} {url : Option Bytes} (h : r.Holds [⟨0, text "a"⟩] ⟨{}, url⟩)
    (reply : Reply) :
    ∃ t u url', r.step (.transfer 0 0 reply) = some t ∧ t.step (.poll 0) = some u ∧
      u.Holds (if reply.retried then [⟨0, text "a"⟩] else [])
        ⟨if reply.retried then {} else reply.response, url'⟩ := by
  have hmust := mustRetry_perform reply
  have hstatus : (perform {} reply).status = 0 := perform_status {} reply
  obtain ⟨t, ht⟩ : ∃ t : CurlRun, t = { r with client := { r.client with
      requests := r.client.requests.insert 0 ⟨oneRequest "a", ⟨[], [(⟨0, text "a"⟩, reply.status)]⟩⟩
      responses := r.client.responses.insert 0 [⟨perform {} reply, some (text "a")⟩] } } := ⟨_, rfl⟩
  have htransfer : r.transfer 0 0 reply = some t := by
    simp [CurlRun.transfer, h.request, h.response, ht]
  have hgoing : t.fault = false := ht ▸ h.going
  have hquiet : t.calling = none := ht ▸ h.quiet
  have hthread : t.client.monitorThreads.lookup 0 = some { number := 0, callback := true } := ht ▸ h.thread
  have hid : t.client.requests.lookup 0 =
      some ⟨oneRequest "a", ⟨[], [(⟨0, text "a"⟩, reply.status)]⟩⟩ := by
    rw [ht]
    exact AList.lookup_insert _
  have hentries : t.client.responses.lookup 0 = some [⟨perform {} reply, some (text "a")⟩] := by
    rw [ht]
    exact AList.lookup_insert _
  have hcomplete : t.client.isComplete 0 = .ok false := by
    rw [CurlRun.isComplete_eq hid hentries]
    simp [hstatus]
  obtain ⟨url', hall⟩ : ∃ url', completeAll (oneRequest "a") [(⟨0, text "a"⟩, reply.status)] []
      [⟨perform {} reply, some (text "a")⟩] = .ok (if reply.retried then [⟨0, text "a"⟩] else [],
        [⟨if reply.retried then {} else reply.response, url'⟩]) := by
    cases hretried : reply.retried with
    | true =>
      rw [hretried, if_pos rfl] at hmust
      exact ⟨none, by simp [Http.completeAll, resizeEntries, oneRequest, orThrow, Bind.bind, Except.bind,
        hmust, pure, Except.pure]⟩
    | false =>
      rw [hretried, if_neg Bool.false_ne_true] at hmust
      exact ⟨some (text "a"), by simp [Http.completeAll, resizeEntries, oneRequest, orThrow, Bind.bind,
        Except.bind, hmust, pure, Except.pure]⟩
  have hpoll : t.poll 0 = some { t with client := { t.client with
      requests := t.client.requests.insert 0
        ⟨oneRequest "a", ⟨if reply.retried then [⟨0, text "a"⟩] else [], []⟩⟩
      responses := t.client.responses.insert 0
        [⟨if reply.retried then {} else reply.response, url'⟩] } } := by
    simp only [CurlRun.poll, hthread, Bool.true_eq_false, if_false, hcomplete, CurlClient.consumeMsgs, hid,
      hentries, hall]
    rfl
  have hfirst : r.step (.transfer 0 0 reply) = some t := by
    rw [CurlRun.step, h.going, h.quiet]
    exact htransfer
  exact ⟨t, _, url', hfirst, (step_poll hgoing hquiet 0).trans hpoll,
    ⟨hgoing, hquiet, hthread, AList.lookup_insert _, AList.lookup_insert _⟩⟩

/-- The server's next reply is got, and the request is under way again or settled. -/
theorem Holds.next {r : CurlRun} {given : Replies Reply} (hrun : CurlRun.Run Any r given)
    {url : Option Bytes} (h : r.Holds [⟨0, text "a"⟩] ⟨{}, url⟩) (reply : Reply) :
    ∃ u given' url', CurlRun.Run Any u given' ∧ given' 0 0 = given 0 0 ++ [reply] ∧
      u.Holds (if reply.retried then [⟨0, text "a"⟩] else [])
        ⟨if reply.retried then {} else reply.response, url'⟩ := by
  obtain ⟨t, u, url', ht, hu, hholds⟩ := h.round reply
  have htransfer : CurlRun.Run Any _ _ := hrun.tail trivial (recorded_of given ht)
  refine ⟨u, _, url', htransfer.tail trivial (recorded_of _ hu), ?_, hholds⟩
  simp only [CurlRun.record, h.thread, Replies.note_self]

theorem trying_of_retried (server : ℕ → Reply) (n : ℕ) (hretried : ∀ k < n, (server k).SeenAsking) :
    ∃ r given url, CurlRun.Run Any r given ∧ given 0 0 = (List.range n).map server ∧
      r.Holds [⟨0, text "a"⟩] ⟨{}, url⟩ := by
  induction n with
  | zero =>
    have hrun : CurlRun.Run Any _ _ := Steps.one (a := .submit (oneRequest "a") true true) trivial rfl
    exact ⟨_, _, none, hrun, rfl, rfl, rfl, AList.lookup_insert _, AList.lookup_insert _, AList.lookup_insert _⟩
  | succ n ih =>
    obtain ⟨r, given, url, hrun, hgiven, hholds⟩ := ih fun k hk => hretried k (Nat.lt_succ_of_lt hk)
    obtain ⟨u, given', url', hrun', hgiven', hholds'⟩ := hholds.next hrun (server n)
    rw [(retried_iff _).2 (hretried n (Nat.lt_add_one n))] at hholds'
    refine ⟨u, given', url', hrun', ?_, hholds'⟩
    rw [hgiven', hgiven, List.range_succ, List.map_append, List.map_singleton]

variable {isIn : Reply → HTTPResponse → Prop} {maxAttempts : ℕ} {server : ℕ → Reply}

theorem KeepsRetryLaw.answer (h : KeepsRetryLaw isIn maxAttempts server) {k : ℕ} (hk : k < maxAttempts)
    (hbefore : ∀ j < k, (server j).SeenAsking) (hlast : ¬ (server k).SeenAsking) :
    Answer isIn maxAttempts server k := by
  obtain ⟨r, given, url, hrun, hgiven, hholds⟩ := trying_of_retried server k hbefore
  obtain ⟨u, given', url', hrun', hgiven', hsettled⟩ := hholds.next hrun (server k)
  have hretried : (server k).retried = false := by
    rw [← Bool.not_eq_true, retried_iff]
    exact hlast
  simp only [hretried, Bool.false_eq_true, if_false] at hsettled
  have hreplies : given' 0 0 = (List.range k).map server ++ [server k] := by rw [hgiven', hgiven]
  have hlength : (given' 0 0).length = k + 1 := by simp [hreplies]
  have hfollow : Follow (given' 0 0) server := by
    rw [Follow, hlength, hreplies, List.range_succ, List.map_append, List.map_singleton]
  have hlaw := (h u given' hrun' 0 0 hfollow).1 0 _ _ _ _ hsettled.watched rfl hsettled.request
    hsettled.response rfl
  have hstage : Multi.stage ⟨[], []⟩ 0 = .settled := by simp [Multi.stage]
  obtain ⟨before, last, hsplit, -, hisIn⟩ := hlaw.first hstage
  obtain ⟨-, heq⟩ := List.append_inj' (hreplies.symm.trans hsplit) rfl
  obtain rfl := List.singleton_inj.1 heq
  exact {
    within := hk
    before := hbefore
    last := hlast
    again := fun hasks => Nat.le_antisymm hk (hlength ▸ hlaw.again hstage _ _ hreplies hasks)
    isIn := hisIn }

end CurlRun

/-! ### The fetch client -/

section
variable {server : ℕ → FetchReply} {maxAttempts : ℕ}

end

namespace FetchRun

end FetchRun

/-! ### Both clients -/

end Ravl.Http
