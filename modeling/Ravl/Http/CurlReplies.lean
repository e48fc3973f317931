import Ravl.Http.Curl

/-!
# What the curl client does with the replies it gets

A run is taken together with the replies that the transfers of each request have ended with. What
a request has got says where its handle is and what its response object holds.
-/

namespace Ravl.Http
open ByteLib FallibleLib TransitionLib

/-! ### Where a request is -/

/-- The replies are over: all but the last are retried ones, and the response holds the last. -/
def Settled (replies : List Reply) (response : HTTPResponse) : Prop :=
  ∃ before last, replies = before ++ [last] ∧ (∀ reply ∈ before, reply.retried = true) ∧
    last.retried = false ∧ response = last.response

/-- The handle of a request, the replies it has got, and its response object. -/
inductive Progress (multi : Multi) (i : ℕ) : List Reply → HTTPResponse → Prop
  | running {replies : List Reply} (hhandle : ∃ easy ∈ multi.running, easy.i = i)
    (hretried : ∀ reply ∈ replies, reply.retried = true) : Progress multi i replies {}
  | queued {before : List Reply} {last : Reply}
    (hhandle : ∃ easy, (easy, last.status) ∈ multi.queue ∧ easy.i = i)
    (hretried : ∀ reply ∈ before, reply.retried = true) :
    Progress multi i (before ++ [last]) (perform {} last)
  | settled {replies : List Reply} {response : HTTPResponse}
    (hrunning : ∀ easy ∈ multi.running, easy.i ≠ i)
    (hqueue : ∀ easy status, (easy, status) ∈ multi.queue → easy.i ≠ i)
    (hsettled : Settled replies response) : Progress multi i replies response

theorem Progress.frame {multi multi' : Multi} {i : ℕ} {replies : List Reply} {response : HTTPResponse}
    (h : Progress multi i replies response)
    (hrunning : ∀ easy : Easy, easy.i = i → (easy ∈ multi'.running ↔ easy ∈ multi.running))
    (hqueue : ∀ (easy : Easy) (status : ℕ), easy.i = i →
      ((easy, status) ∈ multi'.queue ↔ (easy, status) ∈ multi.queue)) :
    Progress multi' i replies response := by
  cases h with
  | running hhandle hretried =>
    obtain ⟨easy, hmem, hi⟩ := hhandle
    exact .running ⟨easy, (hrunning easy hi).2 hmem, hi⟩ hretried
  | queued hhandle hretried =>
    obtain ⟨easy, hmem, hi⟩ := hhandle
    exact .queued ⟨easy, (hqueue easy _ hi).2 hmem, hi⟩ hretried
  | settled hrunning' hqueue' hsettled =>
    refine .settled (fun easy hmem hi => ?_) (fun easy status hmem hi => ?_) hsettled
    · exact hrunning' easy ((hrunning easy hi).1 hmem) hi
    · exact hqueue' easy status ((hqueue easy status hi).1 hmem) hi

/-- A message about the request is waiting: the last reply is in the response object. -/
theorem Progress.of_front {requests : HTTPRequests} {running : List Easy} {queue : List (Easy × ℕ)}
    {entries : List Entry} {easy : Easy} {status : ℕ} {replies : List Reply} {response : HTTPResponse}
    (hfits : Fits requests ⟨running, (easy, status) :: queue⟩ entries)
    (h : Progress ⟨running, (easy, status) :: queue⟩ easy.i replies response) :
    ∃ before last, replies = before ++ [last] ∧ (∀ reply ∈ before, reply.retried = true) ∧
      last.status = status ∧ response = perform {} last := by
  obtain ⟨hrunning, hqueue, -, -⟩ := hfits.front
  cases h with
  | running hhandle hretried =>
    obtain ⟨other, hmem, hi⟩ := hhandle
    exact absurd hi (hrunning other hmem)
  | @queued before last hhandle hretried =>
    obtain ⟨other, hmem, hi⟩ := hhandle
    obtain heq | hmem := List.mem_cons.1 hmem
    · exact ⟨before, last, rfl, hretried, (Prod.mk.inj heq).2, rfl⟩
    · exact absurd hi (hqueue other _ hmem)
  | settled hrunning' hqueue' hsettled => exact absurd rfl (hqueue' easy status List.mem_cons_self)

/-- A handle of the request is running: every reply so far was a retried one. -/
theorem Progress.of_running {requests : HTTPRequests} {multi : Multi} {entries : List Entry} {easy : Easy}
    {replies : List Reply} {response : HTTPResponse} (hfits : Fits requests multi entries)
    (heasy : easy ∈ multi.running) (h : Progress multi easy.i replies response) :
    (∀ reply ∈ replies, reply.retried = true) ∧ response = {} := by
  cases h with
  | running hhandle hretried => exact ⟨hretried, rfl⟩
  | queued hhandle hretried =>
    obtain ⟨other, hmem, hi⟩ := hhandle
    have hdistinct := hfits.distinct
    rw [List.map_append] at hdistinct
    exact absurd hi.symm ((List.nodup_append.1 hdistinct).2.2 easy.i (List.mem_map_of_mem heasy) other.i
      (List.mem_map_of_mem (List.mem_map_of_mem hmem)))
  | settled hrunning hqueue hsettled => exact absurd rfl (hrunning easy heasy)

theorem Progress.of_idle {i : ℕ} {replies : List Reply} {response : HTTPResponse}
    (h : Progress ⟨[], []⟩ i replies response) : Settled replies response := by
  cases h with
  | running hhandle hretried =>
    obtain ⟨easy, hmem, -⟩ := hhandle
    cases hmem
  | queued hhandle hretried =>
    obtain ⟨easy, hmem, -⟩ := hhandle
    cases hmem
  | settled hrunning hqueue hsettled => exact hsettled

/-- Every message is taken for what it is: a reply to retry empties the response object and gives
the handle back, any other one stays. -/
theorem Progress.completeAll {requests : HTTPRequests} {replies : ℕ → List Reply}
    {running' : List Easy} {entries' : List Entry} (queue : List (Easy × ℕ)) (running : List Easy)
    (entries : List Entry) (hfits : Fits requests ⟨running, queue⟩ entries)
    (h : ∀ (i : ℕ) (e : Entry), entries[i]? = some e → Progress ⟨running, queue⟩ i (replies i) e.response)
    (hall : completeAll requests queue running entries = .ok (running', entries')) (i : ℕ) (e : Entry)
    (he : entries'[i]? = some e) : Progress ⟨running', []⟩ i (replies i) e.response := by
  induction queue generalizing running entries with
  | nil =>
    obtain ⟨rfl, rfl⟩ := Prod.mk.inj (Except.ok.inj hall)
    exact h i e he
  | cons message queue ih =>
    obtain ⟨easy, status⟩ := message
    obtain ⟨-, e₀, -, -, he₀, -⟩ := hfits.queued easy status List.mem_cons_self
    obtain ⟨before, last, hreplies, hretried, rfl, hresponse⟩ := (h easy.i e₀ he₀).of_front hfits
    have hsize : resizeEntries entries requests.length = entries := by
      rw [← hfits.length, resizeEntries_self]
    have hi : easy.i < entries.length := (List.getElem?_eq_some_iff.1 he₀).1
    obtain ⟨hrunning, hqueue, -, -⟩ := hfits.front
    have hmust := mustRetry_perform last
    rw [← hresponse] at hmust
    simp only [Http.completeAll, hsize, he₀, orThrow, Option.elim_some] at hall
    cases hlast : last.retried with
    | true =>
      rw [hlast, if_pos rfl] at hmust
      simp only [Bind.bind, Except.bind, hmust, if_true] at hall
      have hstatus := mustRetry_status e₀.response last.status (by rw [hmust])
      rw [hmust] at hstatus
      refine ih _ _ (hfits.retry {} hstatus) (fun j e' he' => ?_) hall
      by_cases hj : j = easy.i
      · subst hj
        rw [List.getElem?_set_self hi] at he'
        cases he'
        refine .running ⟨easy, by simp, rfl⟩ fun reply hreply => ?_
        rw [hreplies] at hreply
        obtain hreply | hreply := List.mem_append.1 hreply
        · exact hretried reply hreply
        · exact List.mem_singleton.1 hreply ▸ hlast
      · rw [List.getElem?_set_ne (Ne.symm hj)] at he'
        refine (h j e' he').frame (fun other hother => ?_) (fun other s hother => ?_)
        · have hne : other ≠ easy := fun heq => hj (heq ▸ hother.symm)
          simp [hne]
        · have hne : other ≠ easy := fun heq => hj (heq ▸ hother.symm)
          simp [hne]
    | false =>
      rw [hlast, if_neg (by simp)] at hmust
      simp only [Bind.bind, Except.bind, hmust, Bool.false_eq_true, if_false] at hall
      refine ih _ _ (hfits.done he₀ last.response) (fun j e' he' => ?_) hall
      by_cases hj : j = easy.i
      · subst hj
        rw [List.getElem?_set_self hi] at he'
        cases he'
        exact .settled hrunning hqueue ⟨before, last, hreplies, hretried, hlast, rfl⟩
      · rw [List.getElem?_set_ne (Ne.symm hj)] at he'
        refine (h j e' he').frame (fun other hother => Iff.rfl) (fun other s hother => ?_)
        have hne : other ≠ easy := fun heq => hj (heq ▸ hother.symm)
        simp [hne]

/-! ### What a run keeps -/

namespace CurlRun

/-- The thread of the set runs and has not come to the callback, or it ended and left the set to the
caller. -/
def Watched (r : CurlRun) (id : ℕ) (m : MonitorThread) : Prop :=
  r.client.monitorThreads.lookup id = some m ∧ (m.running = true ∨ m.callback = false) ∧
    ¬ r.CallsBack id

def record (r : CurlRun) (given : Replies Reply) : CurlAction → Replies Reply
  | .transfer id i reply =>
    match r.client.monitorThreads.lookup id with
    | none => given
    | some m => given.note m.number i reply
  | _ => given

abbrev Run (ok : CurlRun → CurlAction → Prop) (r : CurlRun) (given : Replies Reply) : Prop :=
  Steps (recorded step record) (fun s a => ok s.1 a) ({}, fun _ _ => []) (r, given)

structure Tracks (r : CurlRun) (given : Replies Reply) : Prop where
  held : ∀ id m, r.Watched id m → ∃ tracked, r.client.requests.lookup id = some tracked ∧
    r.submissions[m.number]? = some tracked.requests
  watched : ∀ id tracked, r.client.requests.lookup id = some tracked → tracked.multi.running ≠ [] →
    ∃ m, r.Watched id m
  numbers : ∀ id m, r.client.monitorThreads.lookup id = some m → m.number < r.submissions.length
  apart : ∀ id id' m m', r.client.monitorThreads.lookup id = some m →
    r.client.monitorThreads.lookup id' = some m' → m.number = m'.number → id = id'
  pending : ∀ id m, r.Watched id m → callbacks m.number r.history = []
  once : ∀ number, (callbacks number r.history).length ≤ 1
  fresh : ∀ number, r.submissions.length ≤ number →
    callbacks number r.history = [] ∧ ∀ i, given number i = []
  progress : ∀ id m tracked entries, r.Watched id m → r.client.requests.lookup id = some tracked →
    r.client.responses.lookup id = some entries → ∀ (i : ℕ) (e : Entry), entries[i]? = some e →
      Progress tracked.multi i (given m.number i) e.response
  delivered : ∀ number, ∀ entries ∈ callbacks number r.history, ∀ (i : ℕ) (e : Entry),
    entries[i]? = some e → Settled (given number i) e.response

variable {r t : CurlRun} {given : Replies Reply}

namespace Tracks

theorem start : Tracks {} fun _ _ => [] where
  held id m h := by cases h.1
  watched id tracked h := by cases h
  numbers id m h := by cases h
  apart id id' m m' h := by cases h
  pending id m h := by cases h.1
  once number := Nat.zero_le _
  fresh number h := ⟨rfl, fun i => rfl⟩
  progress id m tracked entries h := by cases h.1
  delivered number entries h := by cases h

theorem put (h : r.Tracks given) {id : ℕ} {m : MonitorThread} {tracked : TrackedRequests}
    (hm : r.Watched id m) (hid : r.client.requests.lookup id = some tracked) (multi : Multi)
    (entries : List Entry) (given' : Replies Reply)
    (hothers : ∀ number, number ≠ m.number → given' number = given number)
    (hprogress : ∀ (i : ℕ) (e : Entry), entries[i]? = some e →
      Progress multi i (given' m.number i) e.response) :
    CurlRun.Tracks { r with client := { r.client with
      requests := r.client.requests.insert id { tracked with multi }
      responses := r.client.responses.insert id entries } } given' where
  held id' m' hm' := by
    obtain ⟨tracked', hid', hnumber⟩ := h.held id' m' hm'
    by_cases heq : id' = id
    · subst heq
      obtain rfl := Option.some.inj (hid'.symm.trans hid)
      exact ⟨_, AList.lookup_insert _, hnumber⟩
    · exact ⟨tracked', (AList.lookup_insert_ne heq).trans hid', hnumber⟩
  watched id' tracked' hid' hrunning := by
    obtain ⟨rfl, -⟩ | ⟨-, hold⟩ := SetMap.of_insert hid'
    · exact ⟨m, hm⟩
    · exact h.watched id' tracked' hold hrunning
  numbers := h.numbers
  apart := h.apart
  pending := h.pending
  once := h.once
  fresh number hnumber := by
    have hne : number ≠ m.number := fun heq => absurd (h.numbers id m hm.1) (by
      rw [← heq]
      exact Nat.not_lt_of_le hnumber)
    rw [hothers number hne]
    exact h.fresh number hnumber
  progress id' m' tracked' entries' hm' hid' hentries' := by
    by_cases heq : id' = id
    · subst heq
      obtain rfl := Option.some.inj (hm'.1.symm.trans hm.1)
      rw [AList.lookup_insert] at hid' hentries'
      cases hid'
      cases hentries'
      exact hprogress
    · have hne : m'.number ≠ m.number := fun hsame => heq (h.apart id' id m' m hm'.1 hm.1 hsame)
      rw [hothers m'.number hne]
      exact h.progress id' m' tracked' entries' hm' ((AList.lookup_insert_ne heq).symm.trans hid')
        ((AList.lookup_insert_ne heq).symm.trans hentries')
  delivered number entries' hmem := by
    have hne : number ≠ m.number := by
      rintro rfl
      rw [h.pending id m hm] at hmem
      cases hmem
    rw [hothers number hne]
    exact h.delivered number entries' hmem

theorem remove (h : r.Tracks given) (id : ℕ) (threads : SetMap MonitorThread) (calling : Option Callback)
    (hkept : ∀ id' m', threads.lookup id' = some m' →
      ∃ m, r.client.monitorThreads.lookup id' = some m ∧ m.number = m'.number)
    (hwatched : ∀ id' m', (r.without id threads calling).Watched id' m' → id' ≠ id ∧ r.Watched id' m')
    (hothers : ∀ id' m', id' ≠ id → r.Watched id' m' → (r.without id threads calling).Watched id' m') :
    (r.without id threads calling).Tracks given where
  held id' m' hm' := by
    obtain ⟨hne, hold⟩ := hwatched id' m' hm'
    obtain ⟨tracked, hid', hnumber⟩ := h.held id' m' hold
    exact ⟨tracked, (AList.lookup_erase_ne hne).trans hid', hnumber⟩
  watched id' tracked' hid' hrunning := by
    obtain ⟨hne, hold⟩ := SetMap.of_erase hid'
    obtain ⟨m, hm⟩ := h.watched id' tracked' hold hrunning
    exact ⟨m, hothers id' m hne hm⟩
  numbers id' m' hm' := by
    obtain ⟨m, hold, hnumber⟩ := hkept id' m' hm'
    exact hnumber ▸ h.numbers id' m hold
  apart id₁ id₂ m₁ m₂ h₁ h₂ hsame := by
    obtain ⟨m, hold, hnumber⟩ := hkept id₁ m₁ h₁
    obtain ⟨m', hold', hnumber'⟩ := hkept id₂ m₂ h₂
    exact h.apart id₁ id₂ m m' hold hold' (hnumber.trans (hsame.trans hnumber'.symm))
  pending id' m' hm' := h.pending id' m' (hwatched id' m' hm').2
  once := h.once
  fresh := h.fresh
  progress id' m' tracked entries hm' hid' hentries := by
    obtain ⟨hne, hold⟩ := hwatched id' m' hm'
    exact h.progress id' m' tracked entries hold ((AList.lookup_erase_ne hne).symm.trans hid')
      ((AList.lookup_erase_ne hne).symm.trans hentries)
  delivered := h.delivered

theorem calledBack (h : r.Tracks given) (number : ℕ) (entries : List Entry)
    (hnumber : number < r.submissions.length) (hnone : callbacks number r.history = [])
    (hunwatched : ∀ id m, r.Watched id m → m.number ≠ number)
    (hsettled : ∀ (i : ℕ) (e : Entry), entries[i]? = some e → Settled (given number i) e.response) :
    CurlRun.Tracks { r with history := .calledBack number entries :: r.history } given where
  held := h.held
  watched := h.watched
  numbers := h.numbers
  apart := h.apart
  pending id m hm := by
    rw [callbacks_calledBack, if_neg (Ne.symm (hunwatched id m hm))]
    exact h.pending id m hm
  once n := by
    rw [callbacks_calledBack]
    split
    next heq =>
      subst heq
      rw [hnone]
      exact le_refl 1
    next => exact h.once n
  fresh n hn := by
    have hne : number ≠ n := Nat.ne_of_lt (Nat.lt_of_lt_of_le hnumber hn)
    rw [callbacks_calledBack, if_neg hne]
    exact h.fresh n hn
  progress := h.progress
  delivered n entries' hmem := by
    rw [callbacks_calledBack] at hmem
    split at hmem
    next heq =>
      subst heq
      rw [hnone] at hmem
      obtain rfl := List.mem_singleton.1 hmem
      exact hsettled
    next => exact h.delivered n entries' hmem

theorem more (h : r.Tracks given) (rs : HTTPRequests) (history : List Event)
    (hsame : ∀ number, callbacks number history = callbacks number r.history) :
    CurlRun.Tracks { r with submissions := r.submissions ++ [rs], history } given where
  held id m hm := by
    obtain ⟨tracked, hid, hnumber⟩ := h.held id m hm
    exact ⟨tracked, hid, (List.getElem?_append_left (h.numbers id m hm.1)).trans hnumber⟩
  watched := h.watched
  numbers id m hm := by
    rw [List.length_append]
    exact Nat.lt_add_right _ (h.numbers id m hm)
  apart := h.apart
  pending id m hm := (hsame m.number).trans (h.pending id m hm)
  once number := hsame number ▸ h.once number
  fresh number hnumber := by
    rw [List.length_append] at hnumber
    exact hsame number ▸ h.fresh number (Nat.le_of_add_right_le hnumber)
  progress := h.progress
  delivered number entries hmem := h.delivered number entries (hsame number ▸ hmem)

theorem unwatched (h : r.Tracks given) {id : ℕ} (hid : id ∉ r.client.requests) (id' : ℕ)
    (m : MonitorThread) (hm : r.Watched id' m) : id' ≠ id := by
  rintro rfl
  obtain ⟨tracked, hheld, -⟩ := h.held id' m hm
  exact hid (SetMap.mem_of_lookup hheld)

/-- A set that `submit` leaves behind when it throws; no thread watches it. -/
theorem refused (h : r.Tracks given) (rs : HTTPRequests) {id : ℕ} (hid : id ∉ r.client.requests) :
    CurlRun.Tracks { r with client := { r.client with
      requests := r.client.requests.insert id ⟨rs, {}⟩
      responses := r.client.responses.insert id (List.replicate rs.length {}) } } given where
  held id' m hm := by
    obtain ⟨tracked, hheld, hnumber⟩ := h.held id' m hm
    exact ⟨tracked, (AList.lookup_insert_ne (h.unwatched hid id' m hm)).trans hheld, hnumber⟩
  watched id' tracked hid' hrunning := by
    obtain ⟨rfl, rfl⟩ | ⟨-, hold⟩ := SetMap.of_insert hid'
    · exact absurd rfl hrunning
    · exact h.watched id' tracked hold hrunning
  numbers := h.numbers
  apart := h.apart
  pending := h.pending
  once := h.once
  fresh := h.fresh
  progress id' m tracked entries hm hid' hentries := by
    have hne := h.unwatched hid id' m hm
    exact h.progress id' m tracked entries hm ((AList.lookup_insert_ne hne).symm.trans hid')
      ((AList.lookup_insert_ne hne).symm.trans hentries)
  delivered := h.delivered

/-- A set under a free id, with a thread that is the first to have its number. -/
theorem submitted (h : r.Tracks given) (hquiet : r.calling = none) {rs : HTTPRequests} {number : ℕ}
    (callback fault : Bool) {id : ℕ} (hid : id ∉ r.client.requests) (hnumber : r.submissions[number]? = some rs)
    (hnone : callbacks number r.history = []) (hgiven : ∀ i, given number i = [])
    (hfirst : ∀ id' m, r.client.monitorThreads.lookup id' = some m → m.number ≠ number) :
    CurlRun.Tracks { r with
      client := {
        requests := r.client.requests.insert id ⟨rs, { running := easySetup rs }⟩
        responses := r.client.responses.insert id (List.replicate rs.length {})
        monitorThreads := r.client.monitorThreads.insert id { number, callback } }
      fault } given := by
  exact {
    held := by
      intro id' m ⟨hlookup, hstate, hquiet⟩
      obtain ⟨rfl, rfl⟩ | ⟨hne, hm⟩ := SetMap.of_insert hlookup
      · exact ⟨_, AList.lookup_insert _, hnumber⟩
      · obtain ⟨tracked, hheld, hnumber'⟩ := h.held id' m ⟨hm, hstate, hquiet⟩
        exact ⟨tracked, (AList.lookup_insert_ne hne).trans hheld, hnumber'⟩
    watched := by
      intro id' tracked hid' hrunning
      obtain ⟨rfl, -⟩ | ⟨hne, hold⟩ := SetMap.of_insert hid'
      · exact ⟨{ number, callback }, AList.lookup_insert _, Or.inl rfl, not_callsBack hquiet _⟩
      · obtain ⟨m, hm, hstate⟩ := h.watched id' tracked hold hrunning
        exact ⟨m, (AList.lookup_insert_ne hne).trans hm, hstate⟩
    numbers := by
      intro id' m hlookup
      obtain ⟨rfl, rfl⟩ | ⟨-, hm⟩ := SetMap.of_insert hlookup
      · exact (List.getElem?_eq_some_iff.1 hnumber).1
      · exact h.numbers id' m hm
    apart := by
      intro id₁ id₂ m₁ m₂ h₁ h₂ hsame
      obtain ⟨heq₁, rfl⟩ | ⟨-, hm₁⟩ := SetMap.of_insert h₁
      · obtain ⟨heq₂, -⟩ | ⟨-, hm₂⟩ := SetMap.of_insert h₂
        · exact heq₁.trans heq₂.symm
        · exact absurd hsame.symm (hfirst id₂ m₂ hm₂)
      · obtain ⟨-, rfl⟩ | ⟨-, hm₂⟩ := SetMap.of_insert h₂
        · exact absurd hsame (hfirst id₁ m₁ hm₁)
        · exact h.apart id₁ id₂ m₁ m₂ hm₁ hm₂ hsame
    pending := by
      intro id' m ⟨hlookup, hstate, hquiet⟩
      obtain ⟨rfl, rfl⟩ | ⟨-, hm⟩ := SetMap.of_insert hlookup
      · exact hnone
      · exact h.pending id' m ⟨hm, hstate, hquiet⟩
    once := h.once
    fresh := h.fresh
    progress := by
      intro id' m tracked entries ⟨hlookup, hstate, hquiet⟩ hid' hentries i e he
      obtain ⟨rfl, rfl⟩ | ⟨hne, hm⟩ := SetMap.of_insert hlookup
      · rw [AList.lookup_insert] at hid' hentries
        cases hid'
        cases hentries
        obtain ⟨hi, heq⟩ := List.getElem?_eq_some_iff.1 he
        rw [List.getElem_replicate] at heq
        rw [List.length_replicate] at hi
        cases heq
        refine .running ⟨⟨i, rs[i].url⟩, List.mem_mapIdx.2 ⟨i, hi, rfl⟩, rfl⟩ ?_
        rw [hgiven i]
        nofun
      · exact h.progress id' m tracked entries ⟨hm, hstate, hquiet⟩ ((AList.lookup_insert_ne hne).symm.trans hid')
          ((AList.lookup_insert_ne hne).symm.trans hentries) i e he
    delivered := h.delivered }

/-- A thread without a callback ends, and its set stays. -/
theorem stopped (h : r.Tracks given) (hquiet : r.calling = none) {id : ℕ} {m : MonitorThread}
    (hm : r.client.monitorThreads.lookup id = some m) (hcallback : m.callback = false) :
    CurlRun.Tracks { r with client := { r.client with
      monitorThreads := r.client.monitorThreads.insert id { m with running := false } } } given := by
  have hold (id' : ℕ) (m' : MonitorThread)
      (hm' : (r.client.monitorThreads.insert id { m with running := false }).lookup id' = some m') :
      ∃ m₀, r.client.monitorThreads.lookup id' = some m₀ ∧ m₀.number = m'.number ∧
        (m'.running = true ∨ m'.callback = false → m₀.running = true ∨ m₀.callback = false) := by
    obtain ⟨rfl, rfl⟩ | ⟨-, hold⟩ := SetMap.of_insert hm'
    · exact ⟨m, hm, rfl, fun _ => Or.inr hcallback⟩
    · exact ⟨m', hold, rfl, fun hstate => hstate⟩
  exact {
    held := by
      intro id' m' hm'
      obtain ⟨m₀, hm₀, hnumber, hstate⟩ := hold id' m' hm'.1
      exact hnumber ▸ h.held id' m₀ ⟨hm₀, hstate hm'.2.1, hm'.2.2⟩
    watched := by
      intro id' tracked hid' hrunning
      obtain ⟨m', hm', hstate⟩ := h.watched id' tracked hid' hrunning
      by_cases heq : id' = id
      · subst heq
        exact ⟨{ m with running := false }, AList.lookup_insert _, Or.inr hcallback, not_callsBack hquiet _⟩
      · exact ⟨m', (AList.lookup_insert_ne heq).trans hm', hstate⟩
    numbers := by
      intro id' m' hm'
      obtain ⟨m₀, hm₀, hnumber, -⟩ := hold id' m' hm'
      exact hnumber ▸ h.numbers id' m₀ hm₀
    apart := by
      intro id₁ id₂ m₁ m₂ h₁ h₂ hsame
      obtain ⟨m₀, hm₀, hnumber, -⟩ := hold id₁ m₁ h₁
      obtain ⟨m₀', hm₀', hnumber', -⟩ := hold id₂ m₂ h₂
      exact h.apart id₁ id₂ m₀ m₀' hm₀ hm₀' (hnumber.trans (hsame.trans hnumber'.symm))
    pending := by
      intro id' m' hm'
      obtain ⟨m₀, hm₀, hnumber, hstate⟩ := hold id' m' hm'.1
      exact hnumber ▸ h.pending id' m₀ ⟨hm₀, hstate hm'.2.1, hm'.2.2⟩
    once := h.once
    fresh := h.fresh
    progress := by
      intro id' m' tracked entries hm'
      obtain ⟨m₀, hm₀, hnumber, hstate⟩ := hold id' m' hm'.1
      exact hnumber ▸ h.progress id' m₀ tracked entries ⟨hm₀, hstate hm'.2.1, hm'.2.2⟩
    delivered := h.delivered }

theorem ended (h : r.Tracks given) (hord : r.forget.Ordered) (hnone : r.calling = none) {id i : ℕ}
    (reply : Reply)
    {tracked : TrackedRequests} {easy : Easy} {entries : List Entry} {e : Entry}
    (hid : r.client.requests.lookup id = some tracked)
    (hfind : tracked.multi.running.find? (·.i = i) = some easy)
    (hentries : r.client.responses.lookup id = some entries) (he : entries[i]? = some e) :
    CurlRun.Tracks { r with client := { r.client with
      requests := r.client.requests.insert id { tracked with
        multi := ⟨tracked.multi.running.erase easy, tracked.multi.queue ++ [(easy, reply.status)]⟩ }
      responses := r.client.responses.insert id
        (entries.set i ⟨perform e.response reply, some easy.url⟩) } }
      (r.record given (.transfer id i reply)) := by
  have heasy := List.mem_of_find?_eq_some hfind
  have hindex : easy.i = i := by simpa using List.find?_some hfind
  subst hindex
  obtain ⟨m, hm⟩ := h.watched id tracked hid (List.ne_nil_of_mem heasy)
  obtain ⟨entries₀, hentries₀, hfits⟩ := hord.fits id tracked (not_callsBack (r := r.forget) hnone id) hid
  obtain rfl := Option.some.inj (hentries₀.symm.trans hentries)
  have hprogress := h.progress id m tracked entries₀ hm hid hentries
  obtain ⟨hretried, hempty⟩ := (hprogress easy.i e he).of_running hfits heasy
  have hi : easy.i < entries₀.length := (List.getElem?_eq_some_iff.1 he).1
  have hrecord : r.record given (.transfer id easy.i reply) = given.note m.number easy.i reply := by
    simp only [record, hm.1]
  rw [hrecord]
  refine h.put hm hid _ _ _ (fun number hne => ?_) (fun j e' he' => ?_)
  · funext j
    exact Replies.note_number hne
  · by_cases hj : j = easy.i
    · subst hj
      rw [List.getElem?_set_self hi] at he'
      cases he'
      rw [Replies.note_self, hempty]
      exact .queued ⟨easy, List.mem_append_right _ (List.mem_singleton.2 rfl), rfl⟩ hretried
    · rw [List.getElem?_set_ne (Ne.symm hj)] at he'
      rw [Replies.note_index hj]
      refine (hprogress j e' he').frame (fun other hother => ?_) (fun other status hother => ?_)
      · have hne : other ≠ easy := fun heq => hj (heq ▸ hother.symm)
        exact List.mem_erase_of_ne hne
      · have hne : other ≠ easy := fun heq => hj (heq ▸ hother.symm)
        simp [hne]

theorem watched_handOver (hquiet : r.calling = none) (id number : ℕ) (tracked : TrackedRequests) (id' : ℕ)
    (m : MonitorThread) : (r.handOver id number tracked).Watched id' m ↔ id' ≠ id ∧ r.Watched id' m := by
  constructor
  · intro hm
    exact ⟨fun heq => hm.2.2 ⟨_, rfl, heq.symm⟩, hm.1, hm.2.1, not_callsBack hquiet id'⟩
  · intro ⟨hne, hm⟩
    refine ⟨hm.1, hm.2.1, fun hcalls => ?_⟩
    obtain ⟨call, hcall, hid⟩ := hcalls
    obtain rfl := Option.some.inj hcall
    exact hne hid.symm

/-- A set that is called back for is no longer watched. -/
theorem handOver (h : r.Tracks given) (hquiet : r.calling = none) (id number : ℕ)
    (tracked : TrackedRequests) : (r.handOver id number tracked).Tracks given where
  held id' m' hm' := by
    obtain ⟨hne, hold⟩ := (watched_handOver hquiet id number tracked id' m').1 hm'
    obtain ⟨tracked', hid', hnumber⟩ := h.held id' m' hold
    exact ⟨tracked', (AList.lookup_insert_ne hne).trans hid', hnumber⟩
  watched id' tracked' hid' hrunning := by
    obtain ⟨rfl, rfl⟩ | ⟨hne, hold⟩ := SetMap.of_insert hid'
    · exact absurd rfl hrunning
    · obtain ⟨m', hm'⟩ := h.watched id' tracked' hold hrunning
      exact ⟨m', (watched_handOver hquiet id number tracked id' m').2 ⟨hne, hm'⟩⟩
  numbers := h.numbers
  apart := h.apart
  pending id' m' hm' := h.pending id' m' ((watched_handOver hquiet id number tracked id' m').1 hm').2
  once := h.once
  fresh := h.fresh
  progress id' m' tracked' entries' hm' hid' hentries' := by
    obtain ⟨hne, hold⟩ := (watched_handOver hquiet id number tracked id' m').1 hm'
    exact h.progress id' m' tracked' entries' hold ((AList.lookup_insert_ne hne).symm.trans hid')
      ((AList.lookup_insert_ne hne).symm.trans hentries')
  delivered := h.delivered

theorem delivers (h : r.Tracks given) (hquiet : r.calling = none) {id : ℕ} {m : MonitorThread}
    {tracked : TrackedRequests} {entries : List Entry}
    (hm : r.client.monitorThreads.lookup id = some m) (hrunning : m.running = true)
    (hid : r.client.requests.lookup id = some tracked)
    (hentries : r.client.responses.lookup id = some entries)
    (hidle : tracked.multi.running = [] ∧ tracked.multi.queue = []) :
    CurlRun.Tracks { r.handOver id m.number tracked with
      history := .calledBack m.number entries :: r.history } given := by
  have hwatched : r.Watched id m := ⟨hm, Or.inl hrunning, not_callsBack hquiet id⟩
  have hprogress := h.progress id m tracked entries hwatched hid hentries
  have hmulti : tracked.multi = ⟨[], []⟩ := by
    rw [← hidle.1, ← hidle.2]
  rw [hmulti] at hprogress
  refine (h.handOver hquiet id m.number tracked).calledBack m.number entries (h.numbers id m hm)
    (h.pending id m hwatched) (fun id' m' hm' hsame => ?_) fun i e he => (hprogress i e he).of_idle
  have hid' := h.apart id' id m' m hm'.1 hm hsame
  exact hm'.2.2 ⟨_, rfl, hid'.symm⟩

theorem returned (h : r.Tracks given) {call : Callback} {m : MonitorThread} (hcalling : r.calling = some call)
    (hm : r.client.monitorThreads.lookup call.id = some m) (hcallback : m.callback = true) :
    (r.without call.id (r.client.monitorThreads.insert call.id { m with running := false }) none).Tracks
      given := by
  refine h.remove call.id _ none (fun id' m' hm' => ?_) (fun id' m' hm' => ?_) fun id' m' hne hm' => ?_
  · obtain ⟨rfl, rfl⟩ | ⟨-, hold⟩ := SetMap.of_insert hm'
    · exact ⟨m, hm, rfl⟩
    · exact ⟨m', hold, rfl⟩
  · obtain ⟨rfl, rfl⟩ | ⟨hne, hold⟩ := SetMap.of_insert hm'.1
    · obtain hrunning | hnone := hm'.2.1
      · cases hrunning
      · rw [hcallback] at hnone
        cases hnone
    · refine ⟨hne, hold, hm'.2.1, fun hcalls => ?_⟩
      obtain ⟨call', hcall', rfl⟩ := hcalls
      obtain rfl := Option.some.inj (hcalling.symm.trans hcall')
      exact hne rfl
  · exact ⟨(AList.lookup_insert_ne hne).trans hm'.1, hm'.2.1, not_callsBack rfl id'⟩

theorem faulted (h : r.Tracks given) : CurlRun.Tracks { r with fault := true } given where
  held := h.held
  watched := h.watched
  numbers := h.numbers
  apart := h.apart
  pending := h.pending
  once := h.once
  fresh := h.fresh
  progress := h.progress
  delivered := h.delivered

theorem step (h : r.Tracks given) (hord : r.forget.Ordered) {a : CurlAction} (hmove : r.Moves a t) :
    t.Tracks (r.record given a) := by
  cases hmove with
  | clashed rs callback performs => exact h.more rs _ fun _ => rfl
  | refused rs callback hnone hid => exact (h.more rs r.history fun _ => rfl).refused rs hid
  | submitted rs callback hnone hid =>
    have hnew := h.fresh r.submissions.length (le_refl _)
    have hnumber : (r.submissions ++ [rs])[r.submissions.length]? = some rs := by simp
    refine (h.more rs (.submitted r.submissions.length r.client.requests.size r.client.requests.keys ::
      r.history) fun _ => rfl).submitted hnone callback _ hid hnumber hnew.1 hnew.2 ?_
    exact fun id' m hm => Nat.ne_of_lt (h.numbers id' m hm)
  | ended id i reply tracked easy entries e hnone hid hfind hentries he =>
    exact h.ended hord hnone reply hid hfind hentries he
  | consumed id m tracked entries entries' running hnone hm hrunning hid hentries hall =>
    have hwatched : r.Watched id m := ⟨hm, Or.inl hrunning, not_callsBack hnone id⟩
    obtain ⟨entries₀, hentries₀, hfits⟩ := hord.fits id tracked (not_callsBack (r := r.forget) hnone id) hid
    obtain rfl := Option.some.inj (hentries₀.symm.trans hentries)
    exact h.put hwatched hid _ _ given (fun _ _ => rfl) (Progress.completeAll _ _ _ hfits
      (h.progress id m tracked entries₀ hwatched hid hentries) hall)
  | calledBack id m tracked entries hnone hm hrunning hcallback hid hentries hidle hanswers =>
    exact h.delivers hnone hm hrunning hid hentries hidle
  | stopped id m hnone hm hcallback => exact h.stopped hnone hm hcallback
  | returned call m hcalling hm hcallback => exact h.returned hcalling hm hcallback
  | erased id m hm hended =>
    exact h.remove id _ r.calling (fun id' m' hm' => ⟨m', (SetMap.of_erase hm').2, rfl⟩)
      (fun id' m' hm' => ⟨(SetMap.of_erase hm'.1).1, (SetMap.of_erase hm'.1).2, hm'.2⟩)
      fun id' m' hne hm' => ⟨(AList.lookup_erase_ne hne).trans hm'.1, hm'.2⟩
  | faulted a hlocks hfree =>
    cases a with
    | submit | transfer | poll => cases hlocks
    | callbackReturn | callbackThrow | nestedSubmit | erase => exact h.faulted

end Tracks

/-- In every run, whatever is submitted and however the transfers end. -/
theorem run_tracks {ok : CurlRun → CurlAction → Prop} (h : Run ok r given) :
    r.forget.Ordered ∧ r.Tracks given := by
  refine h.invariant (fun s => s.1.forget.Ordered ∧ s.1.Tracks s.2) (fun s a t hs _ hstep => ?_)
    ⟨?_, Tracks.start⟩
  · obtain ⟨hnext, hrecord⟩ := recorded_some hstep
    have hmove := moves hs.1 hnext
    rw [hrecord]
    exact ⟨hmove.ordered hs.1, hs.2.step hs.1 hmove⟩
  · exact (run_ordered {} .refl).forget

end CurlRun

end Ravl.Http
