import Ravl.Http.Fetch

/-!
# What the fetch client does with the replies it gets

A run is taken together with the replies that the fetches of each request have ended with, and with
the submission that each id was last given to. A fetch ends once, and a reply with status 429
leaves its request behind: `must_retry` looks for the header in a response that is still empty.
-/

namespace Ravl.Http
open ByteLib FallibleLib TransitionLib

/-! ### What a step does -/

theorem fetchMustRetry_empty (status : ℕ) : (status = 429 → ∃ e, fetchMustRetry {} status = .error e) ∧
    (status ≠ 429 → fetchMustRetry {} status = .ok false) := by
  refine ⟨fun h => ?_, fun h => ?_⟩
  · rw [fetchMustRetry, if_pos h]
    exact ⟨_, rfl⟩
  · rw [fetchMustRetry, if_neg h]
    rfl

structure FetchRecord where
  /-- the submission that the id was last given to -/
  owner : ℕ → ℕ := fun _ => 0
  replies : Replies FetchReply := fun _ _ => []

namespace FetchRun

/-- What is written down: whom a set belongs to, and the reply that a fetch of it ended with. -/
def record (r : FetchRun) (given : FetchRecord) : FetchAction → FetchRecord
  | .submit _ _ =>
    if r.tracker.requests.size ∈ r.tracker.requests then given
    else { given with
      owner := Function.update given.owner r.tracker.requests.size r.submissions.length }
  | .complete fetch reply =>
    if fetch.id ∈ r.tracker.requests then
      { given with replies := given.replies.note (given.owner fetch.id) fetch.i reply }
    else given
  | _ => given

/-- A run with what is written down about it. -/
abbrev Run (ok : FetchRun → FetchAction → Prop) (r : FetchRun) (given : FetchRecord) : Prop :=
  Steps (recorded step record) (fun s a => ok s.1 a) ({}, {}) (r, given)

/-- No set gets an id for which a fetch of an erased set is still under way. -/
def Unused (r : FetchRun) : FetchAction → Prop
  | .submit _ _ => r.tracker.requests.size ∉ r.tracker.requests →
    ∀ fetch ∈ r.outstanding, fetch.id ≠ r.tracker.requests.size
  | _ => True

/-- Where the fetch for a request is: the pointer to it, the entry of the request, and what the
request has got. -/
inductive Progress (outstanding : List Fetch) (fetch : Fetch) : Bool → Entry → List FetchReply → Prop
  | underWay (hfetch : fetch ∈ outstanding) : Progress outstanding fetch true {} []
  | lost {reply : FetchReply} (hfetch : fetch ∉ outstanding) (h429 : reply.status = 429) :
    Progress outstanding fetch true {} [reply]
  | stored {reply : FetchReply} (hfetch : fetch ∉ outstanding) (hstatus : reply.status ≠ 429) :
    Progress outstanding fetch false ⟨storeReply {} reply, some fetch.url⟩ [reply]

theorem Progress.frame {outstanding outstanding' : List Fetch} {fetch : Fetch} {flag : Bool} {e : Entry}
    {replies : List FetchReply} (h : Progress outstanding fetch flag e replies)
    (hsame : fetch ∈ outstanding' ↔ fetch ∈ outstanding) : Progress outstanding' fetch flag e replies := by
  cases h with
  | underWay hfetch => exact .underWay (hsame.2 hfetch)
  | lost hfetch h429 => exact .lost (fun hmem => hfetch (hsame.1 hmem)) h429
  | stored hfetch hstatus => exact .stored (fun hmem => hfetch (hsame.1 hmem)) hstatus

theorem Progress.of_outstanding {outstanding : List Fetch} {fetch : Fetch} {flag : Bool} {e : Entry}
    {replies : List FetchReply} (h : Progress outstanding fetch flag e replies) (hfetch : fetch ∈ outstanding) :
    flag = true ∧ e = {} ∧ replies = [] := by
  cases h with
  | underWay _ => exact ⟨rfl, rfl, rfl⟩
  | lost hnot _ => exact absurd hfetch hnot
  | stored hnot _ => exact absurd hfetch hnot

theorem Progress.of_cleared {outstanding : List Fetch} {fetch : Fetch} {flag : Bool} {e : Entry}
    {replies : List FetchReply} (h : Progress outstanding fetch flag e replies) (hflag : (! flag) = true) :
    ∃ reply, replies = [reply] ∧ reply.status ≠ 429 ∧ e = ⟨storeReply {} reply, some fetch.url⟩ := by
  cases h with
  | underWay _ => cases hflag
  | lost _ _ => cases hflag
  | @stored reply _ hstatus => exact ⟨reply, rfl, hstatus, rfl⟩

theorem Progress.of_set {outstanding : List Fetch} {fetch : Fetch} {e : Entry} {replies : List FetchReply}
    (h : Progress outstanding fetch true e replies) :
    replies = [] ∨ ∃ reply, replies = [reply] ∧ reply.status = 429 := by
  cases h with
  | underWay _ => exact Or.inl rfl
  | @lost reply _ h429 => exact Or.inr ⟨reply, rfl, h429⟩

theorem Progress.of_stuck {fetch : Fetch} {e : Entry} {replies : List FetchReply}
    (h : Progress [] fetch true e replies) : ∃ reply, replies = [reply] ∧ reply.status = 429 := by
  cases h with
  | underWay hfetch => cases hfetch
  | @lost reply _ h429 => exact ⟨reply, rfl, h429⟩

theorem Progress.length_le {outstanding : List Fetch} {fetch : Fetch} {flag : Bool} {e : Entry}
    {replies : List FetchReply} (h : Progress outstanding fetch flag e replies) : replies.length ≤ 1 := by
  cases h with
  | underWay _ => exact Nat.zero_le 1
  | lost _ _ => exact le_refl 1
  | stored _ _ => exact le_refl 1

/-! ### What a run keeps -/

structure Tracks (r : FetchRun) (given : FetchRecord) : Prop where
  responses : ∀ id ∈ r.tracker.responses, id ∈ r.tracker.requests
  sets : ∀ id tracked, r.tracker.requests.lookup id = some tracked →
    ∃ entries, r.tracker.responses.lookup id = some entries ∧
      tracked.fetches.length = tracked.requests.length ∧
      r.submissions[given.owner id]? = some tracked.requests ∧
      (∀ number, tracked.callback = some number → number = given.owner id) ∧
      (callbacks (given.owner id) r.history = [] → entries.length = tracked.requests.length)
  apart : ∀ id id', id ∈ r.tracker.requests → id' ∈ r.tracker.requests →
    given.owner id = given.owner id' → id = id'
  distinct : r.outstanding.Nodup
  known : ∀ fetch ∈ r.outstanding, ∀ tracked, r.tracker.requests.lookup fetch.id = some tracked →
    callbacks (given.owner fetch.id) r.history = [] ∧
      ∃ request : HTTPRequest, tracked.requests[fetch.i]? = some request ∧ fetch.url = request.url
  progress : ∀ id tracked entries, r.tracker.requests.lookup id = some tracked →
    r.tracker.responses.lookup id = some entries → callbacks (given.owner id) r.history = [] →
      ∀ (i : ℕ) (request : HTTPRequest) (flag : Bool) (e : Entry), tracked.requests[i]? = some request →
        tracked.fetches[i]? = some flag → entries[i]? = some e →
          Progress r.outstanding ⟨id, i, request.url⟩ flag e (given.replies (given.owner id) i)
  calling : ∀ call, r.calling = some call → call.id ∈ r.tracker.requests ∧
    given.owner call.id = call.number ∧ callbacks call.number r.history ≠ []
  once : ∀ number, (callbacks number r.history).length ≤ 1
  fresh : ∀ number, r.submissions.length ≤ number →
    callbacks number r.history = [] ∧ ∀ i, given.replies number i = []
  delivered : ∀ number, ∀ entries ∈ callbacks number r.history, ∃ rs, r.submissions[number]? = some rs ∧
    entries.length = rs.length ∧ ∀ (i : ℕ) (request : HTTPRequest), rs[i]? = some request →
      ∃ reply, given.replies number i = [reply] ∧ reply.status ≠ 429 ∧
        entries[i]? = some ⟨storeReply {} reply, some request.url⟩

namespace Tracks
variable {r : FetchRun} {given : FetchRecord}

theorem start : Tracks {} {} where
  responses id h := absurd h (AList.notMem_empty id)
  sets id tracked h := by cases h
  apart id id' h := absurd h (AList.notMem_empty id)
  distinct := List.nodup_nil
  known := nofun
  progress id tracked entries h := by cases h
  calling := nofun
  once number := Nat.zero_le _
  fresh number h := ⟨rfl, fun i => rfl⟩
  delivered number entries h := by cases h

theorem owner_lt (h : r.Tracks given) {id : ℕ} (hid : id ∈ r.tracker.requests) :
    given.owner id < r.submissions.length := by
  obtain ⟨tracked, hlookup⟩ := Option.isSome_iff_exists.1 (AList.lookup_isSome.2 hid)
  obtain ⟨-, -, -, hnumber, -⟩ := h.sets id tracked hlookup
  exact (List.getElem?_eq_some_iff.1 hnumber).1

theorem owner_ne (h : r.Tracks given) {id id' : ℕ} (hid : id ∈ r.tracker.requests)
    (hid' : id' ∈ r.tracker.requests) (hne : id' ≠ id) : given.owner id' ≠ given.owner id :=
  fun hsame => hne (h.apart id' id hid' hid hsame)

theorem ne_owner (h : r.Tracks given) {id number : ℕ} (hid : id ∈ r.tracker.requests)
    (hnumber : r.submissions.length ≤ number) : number ≠ given.owner id :=
  fun heq => absurd (h.owner_lt hid) (heq ▸ Nat.not_lt_of_le hnumber)

theorem place (h : r.Tracks given) {id i : ℕ} {tracked : FetchRequests} {entries : List Entry}
    {request : HTTPRequest} (hid : r.tracker.requests.lookup id = some tracked)
    (hentries : r.tracker.responses.lookup id = some entries)
    (hopen : callbacks (given.owner id) r.history = []) (hrequest : tracked.requests[i]? = some request) :
    ∃ flag e, tracked.fetches[i]? = some flag ∧ entries[i]? = some e ∧
      Progress r.outstanding ⟨id, i, request.url⟩ flag e (given.replies (given.owner id) i) := by
  obtain ⟨entries₀, hentries₀, hfetches, -, -, hlength⟩ := h.sets id tracked hid
  obtain rfl := Option.some.inj (hentries₀.symm.trans hentries)
  have hi : i < tracked.requests.length := (List.getElem?_eq_some_iff.1 hrequest).1
  have hflag := List.getElem?_eq_getElem (hfetches.symm ▸ hi : i < tracked.fetches.length)
  have he := List.getElem?_eq_getElem (hlength hopen ▸ hi : i < entries₀.length)
  exact ⟨_, _, hflag, he, h.progress id tracked entries₀ hid hentries₀ hopen i request _ _ hrequest hflag he⟩

/-- A fetch that is under way for a set that is held: its request has got nothing yet. -/
theorem underWay (h : r.Tracks given) {fetch : Fetch} {tracked : FetchRequests} {entries : List Entry}
    (hfetch : fetch ∈ r.outstanding) (hid : r.tracker.requests.lookup fetch.id = some tracked)
    (hentries : r.tracker.responses.lookup fetch.id = some entries) :
    ∃ request : HTTPRequest, tracked.requests[fetch.i]? = some request ∧ fetch.url = request.url ∧
      tracked.fetches[fetch.i]? = some true ∧ entries[fetch.i]? = some {} ∧
      given.replies (given.owner fetch.id) fetch.i = [] := by
  obtain ⟨hopen, request, hrequest, hurl⟩ := h.known fetch hfetch tracked hid
  obtain ⟨flag, e, hflag, he, hprogress⟩ := h.place hid hentries hopen hrequest
  rw [← hurl] at hprogress
  obtain ⟨rfl, rfl, hnone⟩ := hprogress.of_outstanding hfetch
  exact ⟨request, hrequest, hurl, hflag, he, hnone⟩

theorem clashed (h : r.Tracks given) (rs : HTTPRequests) (history : List Event)
    (hsame : ∀ number, callbacks number history = callbacks number r.history) :
    FetchRun.Tracks { r with submissions := r.submissions ++ [rs], history } given where
  responses := h.responses
  sets id tracked hid := by
    obtain ⟨entries, hentries, hfetches, hnumber, hcallback, hlength⟩ := h.sets id tracked hid
    exact ⟨entries, hentries, hfetches,
      (List.getElem?_append_left (List.getElem?_eq_some_iff.1 hnumber).1).trans hnumber, hcallback,
      fun hopen => hlength ((hsame _).symm.trans hopen)⟩
  apart := h.apart
  distinct := h.distinct
  known fetch hfetch tracked hid := by
    obtain ⟨hopen, hrequest⟩ := h.known fetch hfetch tracked hid
    exact ⟨(hsame _).trans hopen, hrequest⟩
  progress id tracked entries hid hentries hopen :=
    h.progress id tracked entries hid hentries ((hsame _).symm.trans hopen)
  calling call hcall := by
    obtain ⟨hid, howner, hcalled⟩ := h.calling call hcall
    exact ⟨hid, howner, fun hnone => hcalled ((hsame _).symm.trans hnone)⟩
  once number := hsame number ▸ h.once number
  fresh number hnumber := by
    rw [List.length_append] at hnumber
    exact hsame number ▸ h.fresh number (Nat.le_of_add_right_le hnumber)
  delivered number entries hmem := by
    obtain ⟨rs', hrs, hrest⟩ := h.delivered number entries (hsame number ▸ hmem)
    exact ⟨rs', (List.getElem?_append_left (List.getElem?_eq_some_iff.1 hrs).1).trans hrs, hrest⟩

/-- A set under a free id, for the submission `number` that nothing is written down about. -/
theorem submitted (h : r.Tracks given) {rs : HTTPRequests} {number id : ℕ} (callback : Option ℕ)
    (hid : id ∉ r.tracker.requests) (hunused : ∀ fetch ∈ r.outstanding, fetch.id ≠ id)
    (hnumber : r.submissions[number]? = some rs) (hcallback : ∀ n, callback = some n → n = number)
    (hnone : callbacks number r.history = []) (hgiven : ∀ i, given.replies number i = [])
    (hfirst : ∀ id' ∈ r.tracker.requests, given.owner id' ≠ number) :
    FetchRun.Tracks { r with
      tracker := r.tracker.put id {
        requests := rs
        fetches := List.replicate rs.length true
        callback } (List.replicate rs.length {})
      outstanding := r.outstanding ++ makeFetches id rs }
      { given with owner := Function.update given.owner id number } where
  responses := SetMap.insert_mono h.responses id _ _
  sets id' tracked hlookup := by
    obtain ⟨rfl, rfl⟩ | ⟨hne, hold⟩ := SetMap.of_insert hlookup
    · refine ⟨_, AList.lookup_insert _, List.length_replicate, ?_, ?_, fun _ => List.length_replicate⟩
      · simp only [Function.update_self]
        exact hnumber
      · simp only [Function.update_self]
        exact hcallback
    · obtain ⟨entries, hentries, hrest⟩ := h.sets id' tracked hold
      simp only [Function.update_of_ne hne]
      exact ⟨entries, (AList.lookup_insert_ne hne).trans hentries, hrest⟩
  apart id₁ id₂ h₁ h₂ hsame := by
    obtain heq₁ | hold₁ := (AList.mem_insert _).1 h₁
    · obtain heq₂ | hold₂ := (AList.mem_insert _).1 h₂
      · exact heq₁.trans heq₂.symm
      · have hne₂ : id₂ ≠ id := fun heq => hid (heq ▸ hold₂)
        simp only [heq₁, Function.update_self, Function.update_of_ne hne₂] at hsame
        exact absurd hsame.symm (hfirst id₂ hold₂)
    · have hne₁ : id₁ ≠ id := fun heq => hid (heq ▸ hold₁)
      obtain heq₂ | hold₂ := (AList.mem_insert _).1 h₂
      · simp only [heq₂, Function.update_self, Function.update_of_ne hne₁] at hsame
        exact absurd hsame (hfirst id₁ hold₁)
      · have hne₂ : id₂ ≠ id := fun heq => hid (heq ▸ hold₂)
        simp only [Function.update_of_ne hne₁, Function.update_of_ne hne₂] at hsame
        exact h.apart id₁ id₂ hold₁ hold₂ hsame
  distinct := by
    refine List.nodup_append.2 ⟨h.distinct, ?_, ?_⟩
    · refine List.nodup_iff_getElem?_ne_getElem?.2 fun i j hij hj => ?_
      simp only [makeFetches, List.length_mapIdx] at hj
      simp [makeFetches, hj, hij.trans hj, Nat.ne_of_lt hij]
    · intro fetch hfetch other hother heq
      obtain ⟨i, hi, rfl⟩ := List.mem_mapIdx.1 hother
      exact hunused fetch hfetch (by rw [heq])
  known fetch hfetch tracked hlookup := by
    obtain hfetch | hfetch := List.mem_append.1 hfetch
    · simp only [FetchTracker.put, AList.lookup_insert_ne (hunused fetch hfetch)] at hlookup
      simp only [Function.update_of_ne (hunused fetch hfetch)]
      exact h.known fetch hfetch tracked hlookup
    · obtain ⟨i, hi, rfl⟩ := List.mem_mapIdx.1 hfetch
      simp only [FetchTracker.put, AList.lookup_insert] at hlookup
      cases hlookup
      simp only [Function.update_self]
      exact ⟨hnone, rs[i], List.getElem?_eq_getElem hi, rfl⟩
  progress id' tracked entries hlookup hentries hopen i request flag e hrequest hflag he := by
    by_cases heq : id' = id
    · subst heq
      simp only [FetchTracker.put, AList.lookup_insert] at hlookup hentries
      cases hlookup
      cases hentries
      obtain ⟨hi, hget⟩ := List.getElem?_eq_some_iff.1 hrequest
      rw [List.getElem?_replicate_of_lt hi] at hflag he
      cases hflag
      cases he
      simp only [Function.update_self, hgiven i]
      refine .underWay (List.mem_append_right _ (List.mem_mapIdx.2 ⟨i, hi, ?_⟩))
      rw [hget]
    · simp only [FetchTracker.put, AList.lookup_insert_ne heq] at hlookup hentries
      simp only [Function.update_of_ne heq] at hopen ⊢
      refine (h.progress id' tracked entries hlookup hentries hopen i request flag e hrequest hflag
        he).frame ?_
      refine ⟨fun hmem => ?_, List.mem_append_left _⟩
      obtain hmem | hmem := List.mem_append.1 hmem
      · exact hmem
      · obtain ⟨j, hj, hfetch⟩ := List.mem_mapIdx.1 hmem
        exact absurd (congrArg Fetch.id hfetch).symm heq
  calling call hcall := by
    obtain ⟨hheld, howner, hcalled⟩ := h.calling call hcall
    have hne : call.id ≠ id := fun heq => hid (heq ▸ hheld)
    exact ⟨(AList.mem_insert _).2 (Or.inr hheld), (Function.update_of_ne hne _ _).trans howner, hcalled⟩
  once := h.once
  fresh := h.fresh
  delivered := h.delivered

/-- A fetch for a set that is held ends, and its request is lost or stored. -/
theorem ended (h : r.Tracks given) {fetch : Fetch} {tracked : FetchRequests} {entries : List Entry}
    {reply : FetchReply} {flag : Bool} {e : Entry} (hfetch : fetch ∈ r.outstanding)
    (hid : r.tracker.requests.lookup fetch.id = some tracked)
    (hentries : r.tracker.responses.lookup fetch.id = some entries)
    (hprogress : Progress (r.outstanding.erase fetch) fetch flag e [reply]) :
    FetchRun.Tracks { r with
      tracker := r.tracker.put fetch.id { tracked with fetches := tracked.fetches.set fetch.i flag }
        (entries.set fetch.i e)
      outstanding := r.outstanding.erase fetch }
      { given with replies := given.replies.note (given.owner fetch.id) fetch.i reply } := by
  obtain ⟨entries₀, hentries₀, hfetches, hnumber, hcallback, hlength⟩ := h.sets fetch.id tracked hid
  obtain rfl := Option.some.inj (hentries₀.symm.trans hentries)
  have hheld : fetch.id ∈ r.tracker.requests := SetMap.mem_of_lookup hid
  obtain ⟨hopen, -⟩ := h.known fetch hfetch tracked hid
  obtain ⟨request, hrequest, hurl, hset, hempty, hnone⟩ := h.underWay hfetch hid hentries
  have herase (other : Fetch) (hne : other ≠ fetch) :
      other ∈ r.outstanding.erase fetch ↔ other ∈ r.outstanding := List.mem_erase_of_ne hne
  exact {
    responses := SetMap.insert_mono h.responses _ _ _
    sets := by
      intro id' tracked' hlookup
      obtain ⟨rfl, rfl⟩ | ⟨hne, hold⟩ := SetMap.of_insert hlookup
      · exact ⟨_, AList.lookup_insert _, by rw [List.length_set, hfetches], hnumber, hcallback,
          fun _ => by rw [List.length_set, hlength hopen]⟩
      · obtain ⟨entries', hentries', hrest⟩ := h.sets id' tracked' hold
        exact ⟨entries', (AList.lookup_insert_ne hne).trans hentries', hrest⟩
    apart := fun id₁ id₂ h₁ h₂ => h.apart id₁ id₂ (SetMap.mem_of_replaced hheld h₁)
      (SetMap.mem_of_replaced hheld h₂)
    distinct := h.distinct.erase fetch
    known := by
      intro other hmem' tracked' hlookup
      have hthere := List.mem_of_mem_erase hmem'
      obtain ⟨heq, rfl⟩ | ⟨-, hold⟩ := SetMap.of_insert hlookup
      · exact h.known other hthere tracked (heq ▸ hid)
      · exact h.known other hthere tracked' hold
    progress := by
      intro id' tracked' entries' hlookup hentries' hopen' i request' flag' e' hrequest' hflag' he'
      by_cases heq : id' = fetch.id
      · subst heq
        simp only [FetchTracker.put, AList.lookup_insert] at hlookup hentries'
        cases hlookup
        cases hentries'
        by_cases hsame : i = fetch.i
        · subst hsame
          rw [List.getElem?_set_self (List.getElem?_eq_some_iff.1 hset).1] at hflag'
          rw [List.getElem?_set_self (List.getElem?_eq_some_iff.1 hempty).1] at he'
          cases hflag'
          cases he'
          obtain rfl := Option.some.inj (hrequest.symm.trans hrequest')
          simp only [Replies.note_self, hnone, ← hurl]
          exact hprogress
        · rw [List.getElem?_set_ne (Ne.symm hsame)] at hflag' he'
          simp only [Replies.note_index hsame]
          exact (h.progress fetch.id tracked entries₀ hid hentries₀ hopen i request' flag' e' hrequest'
            hflag' he').frame (herase _ fun heq => hsame (congrArg Fetch.i heq))
      · simp only [FetchTracker.put, AList.lookup_insert_ne heq] at hlookup hentries'
        simp only [Replies.note_number (h.owner_ne hheld (SetMap.mem_of_lookup hlookup) heq)]
        exact (h.progress id' tracked' entries' hlookup hentries' hopen' i request' flag' e' hrequest'
          hflag' he').frame (herase _ fun hsame => heq (congrArg Fetch.id hsame))
    calling := by
      intro call hcall
      obtain ⟨hcalled, hrest⟩ := h.calling call hcall
      exact ⟨(AList.mem_insert _).2 (Or.inr hcalled), hrest⟩
    once := h.once
    fresh := by
      intro number hlarge
      refine ⟨(h.fresh number hlarge).1, fun i => ?_⟩
      simp only [Replies.note_number (h.ne_owner hheld hlarge)]
      exact (h.fresh number hlarge).2 i
    delivered := by
      intro number entries' hdelivered
      have hne : number ≠ given.owner fetch.id := by
        rintro rfl
        rw [hopen] at hdelivered
        cases hdelivered
      obtain ⟨rs, hrs, hlen, hall⟩ := h.delivered number entries' hdelivered
      refine ⟨rs, hrs, hlen, fun i request' hrequest' => ?_⟩
      simp only [Replies.note_number hne]
      exact hall i request' hrequest' }

theorem late (h : r.Tracks given) {fetch : Fetch} (hid : fetch.id ∉ r.tracker.requests) :
    FetchRun.Tracks { r with outstanding := r.outstanding.erase fetch } given where
  responses := h.responses
  sets := h.sets
  apart := h.apart
  distinct := h.distinct.erase fetch
  known other hother := h.known other (List.mem_of_mem_erase hother)
  progress id tracked entries hlookup hentries hopen i request flag e hrequest hflag he := by
    refine (h.progress id tracked entries hlookup hentries hopen i request flag e hrequest hflag he).frame ?_
    exact List.mem_erase_of_ne fun heq => hid (heq ▸ SetMap.mem_of_lookup hlookup)
  calling := h.calling
  once := h.once
  fresh := h.fresh
  delivered := h.delivered

theorem remove (h : r.Tracks given) (id : ℕ) (calling : Option Callback)
    (hcalling : ∀ call, calling = some call → r.calling = some call ∧ call.id ≠ id) :
    FetchRun.Tracks { r with
      tracker := ⟨r.tracker.requests.erase id, r.tracker.responses.erase id⟩
      calling := calling } given where
  responses id' hid' := by
    obtain ⟨hne, hmem⟩ := AList.mem_erase.1 hid'
    exact AList.mem_erase.2 ⟨hne, h.responses id' hmem⟩
  sets id' tracked hlookup := by
    obtain ⟨hne, hold⟩ := SetMap.of_erase hlookup
    obtain ⟨entries, hentries, hrest⟩ := h.sets id' tracked hold
    exact ⟨entries, (AList.lookup_erase_ne hne).trans hentries, hrest⟩
  apart id₁ id₂ h₁ h₂ := h.apart id₁ id₂ (AList.mem_erase.1 h₁).2 (AList.mem_erase.1 h₂).2
  distinct := h.distinct
  known fetch hfetch tracked hlookup := h.known fetch hfetch tracked (SetMap.of_erase hlookup).2
  progress id' tracked entries hlookup hentries :=
    h.progress id' tracked entries (SetMap.of_erase hlookup).2 (SetMap.of_erase hentries).2
  calling call hcall := by
    obtain ⟨hold, hne⟩ := hcalling call hcall
    obtain ⟨hheld, hrest⟩ := h.calling call hold
    exact ⟨AList.mem_erase.2 ⟨hne, hheld⟩, hrest⟩
  once := h.once
  fresh := h.fresh
  delivered := h.delivered

theorem threw (h : r.Tracks given) : FetchRun.Tracks { r with calling := none } given where
  responses := h.responses
  sets := h.sets
  apart := h.apart
  distinct := h.distinct
  known := h.known
  progress := h.progress
  calling := nofun
  once := h.once
  fresh := h.fresh
  delivered := h.delivered

/-- A set of which no fetch is under way is called back for; its responses go to the callback. -/
theorem calledBack (h : r.Tracks given) (entries : List Entry) {id : ℕ} {tracked : FetchRequests}
    (hid : r.tracker.requests.lookup id = some tracked)
    (hnone : callbacks (given.owner id) r.history = []) (hover : ∀ fetch ∈ r.outstanding, fetch.id ≠ id)
    (hlength : entries.length = tracked.requests.length)
    (hall : ∀ (i : ℕ) (request : HTTPRequest), tracked.requests[i]? = some request →
      ∃ reply, given.replies (given.owner id) i = [reply] ∧ reply.status ≠ 429 ∧
        entries[i]? = some ⟨storeReply {} reply, some request.url⟩) :
    FetchRun.Tracks { r with
      tracker := r.tracker.put id tracked []
      calling := some ⟨given.owner id, id⟩
      history := .calledBack (given.owner id) entries :: r.history } given := by
  obtain ⟨-, -, hfetches, hrs, hcallback, -⟩ := h.sets id tracked hid
  have hheld := SetMap.mem_of_lookup hid
  have hown : callbacks (given.owner id) (.calledBack (given.owner id) entries :: r.history) ≠ [] := by
    rw [callbacks_calledBack, if_pos rfl]
    exact List.cons_ne_nil _ _
  have hsame (n : ℕ) (hn : n ≠ given.owner id) :
      callbacks n (.calledBack (given.owner id) entries :: r.history) = callbacks n r.history := by
    rw [callbacks_calledBack, if_neg (Ne.symm hn)]
  exact {
    responses := SetMap.insert_mono h.responses _ _ _
    sets := by
      intro id' tracked' hlookup
      obtain ⟨rfl, rfl⟩ | ⟨hne, hold⟩ := SetMap.of_insert hlookup
      · exact ⟨[], AList.lookup_insert _, hfetches, hrs, hcallback, fun hopen => absurd hopen hown⟩
      · obtain ⟨entries', hentries', hfetches', hrs', hcallback', hlength'⟩ := h.sets id' tracked' hold
        refine ⟨entries', (AList.lookup_insert_ne hne).trans hentries', hfetches', hrs', hcallback', ?_⟩
        dsimp only
        rw [hsame _ (h.owner_ne hheld (SetMap.mem_of_lookup hold) hne)]
        exact hlength'
    apart := fun id₁ id₂ h₁ h₂ => h.apart id₁ id₂ (SetMap.mem_of_replaced hheld h₁)
      (SetMap.mem_of_replaced hheld h₂)
    distinct := h.distinct
    known := by
      intro fetch hfetch tracked' hlookup
      obtain ⟨heq, -⟩ | ⟨hne, hold⟩ := SetMap.of_insert hlookup
      · exact absurd heq (hover fetch hfetch)
      · dsimp only
        rw [hsame _ (h.owner_ne hheld (SetMap.mem_of_lookup hold) hne)]
        exact h.known fetch hfetch tracked' hold
    progress := by
      intro id' tracked' entries' hlookup hentries' hopen
      by_cases heq : id' = id
      · subst heq
        exact absurd hopen hown
      · simp only [FetchTracker.put, AList.lookup_insert_ne heq] at hlookup hentries'
        rw [hsame _ (h.owner_ne hheld (SetMap.mem_of_lookup hlookup) heq)] at hopen
        exact h.progress id' tracked' entries' hlookup hentries' hopen
    calling := by
      intro call hcall
      obtain rfl := Option.some.inj hcall
      exact ⟨(AList.mem_insert _).2 (Or.inl rfl), rfl, hown⟩
    once := by
      intro n
      by_cases hn : n = given.owner id
      · rw [hn, callbacks_calledBack, if_pos rfl, hnone]
        exact le_refl 1
      · dsimp only
        rw [hsame n hn]
        exact h.once n
    fresh := by
      intro n hn
      dsimp only
      rw [hsame n (h.ne_owner hheld hn)]
      exact h.fresh n hn
    delivered := by
      intro n entries' hdelivered
      by_cases hn : n = given.owner id
      · subst hn
        rw [callbacks_calledBack, if_pos rfl, hnone] at hdelivered
        obtain rfl := List.mem_singleton.1 hdelivered
        exact ⟨_, hrs, hlength, hall⟩
      · dsimp only at hdelivered
        rw [hsame n hn] at hdelivered
        exact h.delivered n entries' hdelivered }

end Tracks

/-- The end of a fetch whose set is held: it is taken for an error and nothing changes but that
the fetch is over, or its response is stored, and the last one of a set calls back. -/
inductive Completes (r : FetchRun) (fetch : Fetch) (reply : FetchReply) (tracked : FetchRequests)
    (entries : List Entry) : FetchRun → Prop
  | lost (h429 : reply.status = 429) : Completes r fetch reply tracked entries { r with
      tracker := r.tracker.put fetch.id { tracked with fetches := tracked.fetches.set fetch.i true }
        (entries.set fetch.i {})
      outstanding := r.outstanding.erase fetch }
  | stored (hstatus : reply.status ≠ 429)
    (hopen : tracked.callback = none ∨ (tracked.fetches.set fetch.i false).all (! ·) = false) :
    Completes r fetch reply tracked entries { r with
      tracker := r.tracker.put fetch.id { tracked with fetches := tracked.fetches.set fetch.i false }
        (entries.set fetch.i ⟨storeReply {} reply, some fetch.url⟩)
      outstanding := r.outstanding.erase fetch }
  | calledBack (number : ℕ) (hstatus : reply.status ≠ 429) (hcallback : tracked.callback = some number)
    (hall : (tracked.fetches.set fetch.i false).all (! ·) = true) :
    Completes r fetch reply tracked entries { r with
      tracker := r.tracker.put fetch.id { tracked with fetches := tracked.fetches.set fetch.i false } []
      outstanding := r.outstanding.erase fetch
      calling := some ⟨number, fetch.id⟩
      history := .calledBack number (entries.set fetch.i ⟨storeReply {} reply, some fetch.url⟩) ::
        r.history }

variable {r t : FetchRun} {given : FetchRecord}

/-- What a fetch under way finds of its set when it ends. -/
theorem Tracks.finds (h : r.Tracks given) {fetch : Fetch} (hfetch : fetch ∈ r.outstanding)
    {tracked : FetchRequests} {entries : List Entry}
    (hid : r.tracker.requests.lookup fetch.id = some tracked)
    (hentries : r.tracker.responses.lookup fetch.id = some entries) :
    ¬ tracked.requests.length ≤ fetch.i ∧ resizeEntries entries tracked.requests.length = entries ∧
      tracked.fetches.set fetch.i true = tracked.fetches ∧ entries.set fetch.i {} = entries ∧
      entries.getD fetch.i {} = {} := by
  obtain ⟨entries₀, hentries₀, -, -, -, hlength⟩ := h.sets fetch.id tracked hid
  obtain rfl := Option.some.inj (hentries₀.symm.trans hentries)
  obtain ⟨hopen, -⟩ := h.known fetch hfetch tracked hid
  obtain ⟨request, hrequest, -, hset, hempty, -⟩ := h.underWay hfetch hid hentries
  refine ⟨Nat.not_le_of_lt (List.getElem?_eq_some_iff.1 hrequest).1, ?_, ?_, ?_, ?_⟩
  · rw [← hlength hopen, resizeEntries_self]
  · obtain ⟨hi, hflag⟩ := List.getElem?_eq_some_iff.1 hset
    rw [← hflag, List.set_getElem_self]
  · obtain ⟨hi, he⟩ := List.getElem?_eq_some_iff.1 hempty
    rw [← he, List.set_getElem_self]
  · rw [List.getD_eq_getElem?_getD, hempty]
    rfl

/-- A response is stored; it is the last one of a set that waits for its callback, or it is not. -/
theorem Tracks.complete_stored (h : r.Tracks given) {fetch : Fetch} {reply : FetchReply}
    (hfetch : fetch ∈ r.outstanding) {tracked : FetchRequests} {entries : List Entry}
    (hid : r.tracker.requests.lookup fetch.id = some tracked)
    (hentries : r.tracker.responses.lookup fetch.id = some entries) (hstatus : reply.status ≠ 429) :
    (∃ number, tracked.callback = some number ∧ (tracked.fetches.set fetch.i false).all (! ·) = true ∧
      r.tracker.complete fetch reply =
        (r.tracker.put fetch.id { tracked with fetches := tracked.fetches.set fetch.i false } [], [],
          some (number, entries.set fetch.i ⟨storeReply {} reply, some fetch.url⟩))) ∨
    ((tracked.callback = none ∨ (tracked.fetches.set fetch.i false).all (! ·) = false) ∧
      r.tracker.complete fetch reply =
        (r.tracker.put fetch.id { tracked with fetches := tracked.fetches.set fetch.i false }
          (entries.set fetch.i ⟨storeReply {} reply, some fetch.url⟩), [], none)) := by
  obtain ⟨hin, hsize, -, -, hget⟩ := h.finds hfetch hid hentries
  have hstored := (fetchMustRetry_empty reply.status).2 hstatus
  simp only [FetchTracker.complete, hid, if_neg hin, hentries, hsize, hget, hstored]
  split
  next number hcallback hall => exact Or.inl ⟨number, hcallback, hall, rfl⟩
  next hwaits =>
    refine Or.inr ⟨?_, rfl⟩
    refine (Option.eq_none_or_eq_some tracked.callback).imp_right fun ⟨number, hcallback⟩ => ?_
    exact Bool.eq_false_iff.2 (hwaits number hcallback)

theorem Tracks.completes (h : r.Tracks given) {fetch : Fetch} (reply : FetchReply)
    (hfetch : fetch ∈ r.outstanding) {tracked : FetchRequests} {entries : List Entry}
    (hid : r.tracker.requests.lookup fetch.id = some tracked)
    (hentries : r.tracker.responses.lookup fetch.id = some entries) :
    r.Completes fetch reply tracked entries (r.complete fetch reply) := by
  by_cases h429 : reply.status = 429
  · obtain ⟨hin, hsize, hflags, hkept, hget⟩ := h.finds hfetch hid hentries
    obtain ⟨e, herror⟩ := (fetchMustRetry_empty reply.status).1 h429
    have hlost : r.Completes fetch reply tracked entries _ := .lost h429
    rw [hflags, hkept] at hlost
    simp only [FetchRun.complete, FetchTracker.complete, hid, if_neg hin, hentries, hsize, hget, herror,
      List.append_nil]
    exact hlost
  · obtain ⟨number, hcallback, hall, hdone⟩ | ⟨hwaits, hdone⟩ := h.complete_stored hfetch hid hentries h429
    · simp only [FetchRun.complete, hdone, List.append_nil]
      exact .calledBack number h429 hcallback hall
    · simp only [FetchRun.complete, hdone, List.append_nil]
      exact .stored h429 hwaits

theorem Completes.tracks (h : r.Tracks given) {fetch : Fetch} {reply : FetchReply}
    (hfetch : fetch ∈ r.outstanding) {tracked : FetchRequests} {entries : List Entry}
    (hid : r.tracker.requests.lookup fetch.id = some tracked)
    (hentries : r.tracker.responses.lookup fetch.id = some entries)
    (hcompletes : r.Completes fetch reply tracked entries t) :
    t.Tracks { given with replies := given.replies.note (given.owner fetch.id) fetch.i reply } := by
  have hover : fetch ∉ r.outstanding.erase fetch := h.distinct.not_mem_erase
  cases hcompletes with
  | lost h429 => exact h.ended hfetch hid hentries (.lost hover h429)
  | stored hstatus hopen => exact h.ended hfetch hid hentries (.stored hover hstatus)
  | calledBack number hstatus hcallback hall =>
    have hended := h.ended hfetch hid hentries (.stored hover hstatus)
    obtain ⟨entries₀, hentries₀, -, -, hnumber, hlength⟩ := h.sets fetch.id tracked hid
    obtain rfl := Option.some.inj (hentries₀.symm.trans hentries)
    obtain rfl := hnumber number hcallback
    obtain ⟨hnone, -⟩ := h.known fetch hfetch tracked hid
    have hcleared {i : ℕ} {flag : Bool} (hflag : (tracked.fetches.set fetch.i false)[i]? = some flag) :
        (! flag) = true := List.all_eq_true.1 hall flag (List.mem_of_getElem? hflag)
    have hdone := hended.calledBack (entries₀.set fetch.i ⟨storeReply {} reply, some fetch.url⟩)
      (AList.lookup_insert _) hnone (fun other hother heq => ?_) (by rw [List.length_set, hlength hnone])
      fun i request hrequest => ?_
    · simp only [FetchTracker.put, AList.insert_insert] at hdone
      exact hdone
    · -- another fetch of the set would have its pointer set
      obtain ⟨id, i, url⟩ := other
      obtain rfl : id = fetch.id := heq
      obtain ⟨-, -, -, hset, -⟩ :=
        hended.underWay hother (AList.lookup_insert _) (AList.lookup_insert _)
      cases hcleared hset
    · -- every pointer of the set is cleared, so every response of it is stored
      obtain ⟨flag, e, hflag, he, hprogress⟩ :=
        hended.place (AList.lookup_insert _) (AList.lookup_insert _) hnone hrequest
      obtain ⟨last, hgot, hlast, rfl⟩ := hprogress.of_cleared (hcleared hflag)
      exact ⟨last, hgot, hlast, he⟩

theorem Tracks.complete (h : r.Tracks given) {fetch : Fetch} (reply : FetchReply)
    (hfetch : fetch ∈ r.outstanding) :
    (r.complete fetch reply).Tracks (r.record given (.complete fetch reply)) := by
  cases hid : r.tracker.requests.lookup fetch.id with
  | none =>
    have hunheld : fetch.id ∉ r.tracker.requests := AList.lookup_eq_none.1 hid
    rw [record, if_neg hunheld]
    have hdone : r.complete fetch reply = { r with outstanding := r.outstanding.erase fetch } := by
      simp only [FetchRun.complete, FetchTracker.complete, hid, List.append_nil]
    rw [hdone]
    exact h.late hunheld
  | some tracked =>
    obtain ⟨entries, hentries, -⟩ := h.sets fetch.id tracked hid
    rw [record, if_pos (SetMap.mem_of_lookup hid)]
    exact (h.completes reply hfetch hid hentries).tracks h hfetch hid hentries

theorem Tracks.submit (h : r.Tracks given) (rs : HTTPRequests) (callback : Bool)
    (hunused : r.Unused (.submit rs callback)) :
    (r.submit rs callback).Tracks (r.record given (.submit rs callback)) := by
  unfold FetchRun.submit
  dsimp only [record]
  by_cases hid : r.tracker.requests.size ∈ r.tracker.requests
  · rw [if_pos hid, if_pos hid]
    exact h.clashed rs _ fun _ => rfl
  · have hnew : r.tracker.requests.size ∉ r.tracker.responses := fun hmem => hid (h.responses _ hmem)
    rw [if_neg hid, if_neg hnew, if_neg hid]
    have hfresh := h.fresh r.submissions.length (le_refl _)
    have hnumber : (r.submissions ++ [rs])[r.submissions.length]? = some rs := by simp
    refine (h.clashed rs (.submitted r.submissions.length r.tracker.requests.size
      r.tracker.requests.keys :: r.history) fun _ => rfl).submitted _ hid (hunused hid) hnumber ?_ hfresh.1
        hfresh.2 fun id hheld => Nat.ne_of_lt (h.owner_lt hheld)
    intro n hn
    cases callback with
    | false => cases hn
    | true => exact (Option.some.inj hn).symm

theorem Tracks.step (h : r.Tracks given) {a : FetchAction} (hunused : r.Unused a)
    (hstep : r.step a = some t) : t.Tracks (r.record given a) := by
  unfold FetchRun.step at hstep
  split at hstep
  · cases hstep
  cases a with
  | submit rs callback =>
    cases hstep
    exact h.submit rs callback hunused
  | complete fetch reply =>
    dsimp only at hstep
    split at hstep
    next hfetch =>
      cases hstep
      exact h.complete reply hfetch.2
    next => cases hstep
  | callbackReturn =>
    obtain ⟨call, -, rfl⟩ := Option.map_eq_some_iff.1 hstep
    exact h.remove call.id none nofun
  | callbackThrow =>
    obtain ⟨-, -, rfl⟩ := Option.map_eq_some_iff.1 hstep
    exact h.threw
  | erase id =>
    cases hstep
    unfold FetchRun.erase
    split
    next => exact { h with }
    next hother =>
      refine h.remove id r.calling fun call hcall => ⟨hcall, fun heq => hother ?_⟩
      rw [hcall, Option.any_some]
      exact decide_eq_true heq

theorem run_tracks (h : Run Unused r given) : r.Tracks given := by
  refine h.invariant (fun s => s.1.Tracks s.2) (fun s a t hs hunused hstep => ?_) Tracks.start
  obtain ⟨hnext, hrecord⟩ := recorded_some hstep
  rw [hrecord]
  exact hs.step hunused hnext

/-! ### Runs in which the ids are free -/

theorem Free.unused {a : FetchAction} (h : r.Free a) : r.Unused a := by
  cases a with
  | submit rs callback => exact fun _ => h.2
  | complete | callbackReturn | callbackThrow | erase => trivial

theorem Tracks.answers (h : r.Tracks given) {number : ℕ} {entries : List Entry}
    (hmem : .calledBack number entries ∈ r.history) :
    ∃ rs, r.submissions[number]? = some rs ∧ Answers rs entries := by
  obtain ⟨rs, hrs, hlength, hall⟩ := h.delivered number entries (mem_callbacks.2 hmem)
  refine ⟨rs, hrs, List.ext_getElem? fun i => ?_⟩
  rw [List.getElem?_map, List.getElem?_map]
  by_cases hi : i < rs.length
  · obtain ⟨reply, -, -, hentry⟩ := hall i rs[i] (List.getElem?_eq_getElem hi)
    rw [List.getElem?_eq_getElem hi, hentry]
    rfl
  · rw [List.getElem?_eq_none (hlength ▸ Nat.le_of_not_lt hi),
      List.getElem?_eq_none (Nat.le_of_not_lt hi)]
    rfl

/-- `complete` goes on as before, or calls back. -/
theorem complete_calls (r : FetchRun) (fetch : Fetch) (reply : FetchReply) :
    (r.complete fetch reply).submissions = r.submissions ∧ (r.complete fetch reply).undefined = r.undefined ∧
      ((r.complete fetch reply).history = r.history ∧ (r.complete fetch reply).calling = r.calling ∨
        ∃ number entries, (r.complete fetch reply).history = .calledBack number entries :: r.history ∧
          (r.complete fetch reply).calling = some ⟨number, fetch.id⟩) := by
  unfold FetchRun.complete
  dsimp only
  split
  next => exact ⟨rfl, rfl, Or.inl ⟨rfl, rfl⟩⟩
  next number entries _ => exact ⟨rfl, rfl, Or.inr ⟨number, entries, rfl, rfl⟩⟩

theorem Tracks.keeps (h : r.Tracks given) {a : FetchAction} (hkeeps : KeepsSets r.submissions r.history)
    (hfree : r.Free a) (hstep : r.step a = some t) : KeepsSets t.submissions t.history := by
  have hnext := h.step hfree.unused hstep
  unfold FetchRun.step at hstep
  split at hstep
  · cases hstep
  cases a with
  | submit rs callback =>
    cases hstep
    have hid : r.tracker.requests.size ∉ r.tracker.requests := hfree.1
    unfold FetchRun.submit
    dsimp only
    rw [if_neg hid, if_neg fun hmem => hid (h.responses _ hmem)]
    exact (hkeeps.submit rs).submitted _ _ _ fun hmem => hid (AList.mem_keys.2 hmem)
  | complete fetch reply =>
    dsimp only at hstep
    split at hstep
    next =>
      cases hstep
      obtain ⟨hsubmissions, -, ⟨hsame, -⟩ | ⟨number, entries, hcalled, -⟩⟩ := complete_calls r fetch reply
      · rw [hsubmissions, hsame]
        exact hkeeps
      · obtain ⟨rs, hrs, hanswers⟩ := hnext.answers (hcalled ▸ List.mem_cons_self)
        rw [hsubmissions, hcalled]
        exact hkeeps.calledBack number rs entries (hsubmissions ▸ hrs) hanswers
    next => cases hstep
  | callbackReturn | callbackThrow =>
    obtain ⟨-, -, rfl⟩ := Option.map_eq_some_iff.1 hstep
    exact hkeeps
  | erase id =>
    cases hstep
    unfold FetchRun.erase
    split
    · exact hkeeps
    · exact hkeeps

theorem Free.defined {a : FetchAction} (hfree : r.Free a) (hstep : r.step a = some t) :
    t.undefined = false := by
  unfold FetchRun.step at hstep
  split at hstep
  · cases hstep
  next hgo =>
  rw [Bool.not_eq_true] at hgo
  cases a with
  | submit rs callback =>
    cases hstep
    unfold FetchRun.submit
    dsimp only
    split
    · exact hgo
    · split
      · exact hgo
      · exact hgo
  | complete fetch reply =>
    dsimp only at hstep
    split at hstep
    next =>
      cases hstep
      exact (complete_calls r fetch reply).2.1.trans hgo
    next => cases hstep
  | callbackReturn | callbackThrow =>
    obtain ⟨-, -, rfl⟩ := Option.map_eq_some_iff.1 hstep
    exact hgo
  | erase id =>
    cases hstep
    unfold FetchRun.erase
    split
    next hown =>
      obtain ⟨call, hcall, heq⟩ := (Option.any_eq_true _ _).1 hown
      exact absurd (of_decide_eq_true heq) (hfree call hcall)
    next => exact hgo

end FetchRun

end Ravl.Http
