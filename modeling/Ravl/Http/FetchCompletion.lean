import Ravl.Http.FetchReplies
import Ravl.Http.RequestSets

/-!
# When a set of the fetch client is complete

As long as no reply has status 429, the callback of a set is called in the step in which its last
fetch ends, whatever the order in which they and those of other sets do; the set is given up when the
callback returns.
-/

namespace Ravl.Http
open ByteLib FallibleLib TransitionLib

namespace FetchRun

/-- Non-empty sets under free ids, with a callback that returns; fetches that end with any status
but 429. -/
def Plain (r : FetchRun) : FetchAction → Prop
  | .submit rs callback => r.tracker.requests.size ∉ r.tracker.requests ∧ rs ≠ [] ∧ callback = true
  | .complete _ reply => reply.status ≠ 429
  | .callbackReturn => True
  | .callbackThrow => False
  | .erase _ => False

structure Collects (r : FetchRun) (given : FetchRecord) : Prop where
  accounted : ∀ number < r.submissions.length,
    (∃ id ∈ r.tracker.requests, given.owner id = number) ∨ callbacks number r.history ≠ []
  opened : ∀ id tracked, r.tracker.requests.lookup id = some tracked →
    callbacks (given.owner id) r.history = [] →
      tracked.callback ≠ none ∧ ∃ i : ℕ, tracked.fetches[i]? = some true
  /-- a set that was called back for is held until the callback returns -/
  calling : ∀ id ∈ r.tracker.requests, callbacks (given.owner id) r.history ≠ [] →
    ∃ call, r.calling = some call ∧ call.id = id
  outstanding : ∀ fetch ∈ r.outstanding, fetch.id ∈ r.tracker.requests
  statuses : ∀ number i, ∀ reply ∈ given.replies number i, reply.status ≠ 429

namespace Collects
variable {r t : FetchRun} {given : FetchRecord}

theorem start : Collects {} {} where
  accounted := nofun
  opened id tracked h := by cases h
  calling id h := absurd h (AList.notMem_empty id)
  outstanding := nofun
  statuses := nofun

theorem submit (h : r.Collects given) (htracks : r.Tracks given) (rs : HTTPRequests)
    (hid : r.tracker.requests.size ∉ r.tracker.requests) (hne : rs ≠ []) :
    (r.submit rs true).Collects (r.record given (.submit rs true)) := by
  have hnew : r.tracker.requests.size ∉ r.tracker.responses := fun hmem => hid (htracks.responses _ hmem)
  obtain ⟨hfresh, -⟩ := htracks.fresh r.submissions.length (le_refl _)
  have hother {id : ℕ} (hmem : id ∈ r.tracker.requests) : id ≠ r.tracker.requests.size :=
    fun heq => hid (heq ▸ hmem)
  unfold FetchRun.submit
  dsimp only [record]
  rw [if_neg hid, if_neg hnew, if_neg hid]
  exact {
    accounted := by
      intro number hnumber
      rw [List.length_append] at hnumber
      obtain rfl | hlt := Nat.eq_or_lt_of_le (Nat.le_of_lt_succ hnumber)
      · exact Or.inl ⟨_, (AList.mem_insert _).2 (Or.inl rfl), Function.update_self _ _ _⟩
      · obtain ⟨id, hmem, howner⟩ | hcalled := h.accounted number hlt
        · exact Or.inl ⟨id, (AList.mem_insert _).2 (Or.inr hmem),
            (Function.update_of_ne (hother hmem) _ _).trans howner⟩
        · exact Or.inr hcalled
    opened := by
      intro id tracked hlookup hopen
      obtain ⟨rfl, rfl⟩ | ⟨hne', hold⟩ := SetMap.of_insert hlookup
      · exact ⟨nofun, 0, List.getElem?_replicate_of_lt (List.length_pos_of_ne_nil hne)⟩
      · simp only [Function.update_of_ne hne'] at hopen
        exact h.opened id tracked hold hopen
    calling := by
      intro id hmem hcalled
      obtain rfl | hmem := (AList.mem_insert _).1 hmem
      · simp only [Function.update_self] at hcalled
        exact absurd hfresh hcalled
      · simp only [Function.update_of_ne (hother hmem)] at hcalled
        exact h.calling id hmem hcalled
    outstanding := by
      intro fetch hfetch
      obtain hfetch | hfetch := List.mem_append.1 hfetch
      · exact (AList.mem_insert _).2 (Or.inr (h.outstanding fetch hfetch))
      · obtain ⟨i, hi, rfl⟩ := List.mem_mapIdx.1 hfetch
        exact (AList.mem_insert _).2 (Or.inl rfl)
    statuses := h.statuses }

/-- While no callback is in progress, every set that is held waits for a reply. -/
theorem waits (h : r.Collects given) (hnone : r.calling = none) {id : ℕ} (hid : id ∈ r.tracker.requests) :
    callbacks (given.owner id) r.history = [] := by
  by_contra hcalled
  obtain ⟨call, hcall, -⟩ := h.calling id hid hcalled
  rw [hnone] at hcall
  cases hcall

theorem completes (h : r.Collects given) (htracks : r.Tracks given) {fetch : Fetch} {reply : FetchReply}
    (hstatus : reply.status ≠ 429) (hnone : r.calling = none) {tracked : FetchRequests} {entries : List Entry}
    (hid : r.tracker.requests.lookup fetch.id = some tracked)
    (hcompletes : r.Completes fetch reply tracked entries t) :
    t.Collects { given with replies := given.replies.note (given.owner fetch.id) fetch.i reply } := by
  have hheld := SetMap.mem_of_lookup hid
  have hkept {tracked' : FetchRequests} {id : ℕ} (hmem : id ∈ r.tracker.requests) :
      id ∈ r.tracker.requests.insert fetch.id tracked' := (AList.mem_insert _).2 (Or.inr hmem)
  have hstatuses (number i : ℕ) (other : FetchReply)
      (hother : other ∈ given.replies.note (given.owner fetch.id) fetch.i reply number i) :
      other.status ≠ 429 := by
    obtain hother | rfl := Replies.mem_note hother
    · exact h.statuses number i other hother
    · exact hstatus
  cases hcompletes with
  | lost h429 => exact absurd h429 hstatus
  | stored _ hopen =>
    exact {
      accounted := fun number hnumber =>
        (h.accounted number hnumber).imp_left fun ⟨id, hmem, howner⟩ => ⟨id, hkept hmem, howner⟩
      opened := by
        intro id tracked' hlookup hwaits
        obtain ⟨rfl, rfl⟩ | ⟨-, hold⟩ := SetMap.of_insert hlookup
        · obtain ⟨hcallback, -⟩ := h.opened fetch.id tracked hid hwaits
          refine ⟨hcallback, ?_⟩
          -- not every pointer is cleared, or the callback would have been called
          obtain ⟨flag, hmem, hflag⟩ := List.all_eq_false.1 (hopen.resolve_left hcallback)
          obtain ⟨i, hi⟩ := List.mem_iff_getElem?.1 hmem
          have htrue : flag = true := by simpa using hflag
          exact ⟨i, htrue ▸ hi⟩
        · exact h.opened id tracked' hold hwaits
      calling := fun id hmem hcalled => h.calling id (SetMap.mem_of_replaced hheld hmem) hcalled
      outstanding := fun other hother => hkept (h.outstanding other (List.mem_of_mem_erase hother))
      statuses := hstatuses }
  | calledBack number _ hcallback hall =>
    obtain ⟨-, -, -, -, hnumber, -⟩ := htracks.sets fetch.id tracked hid
    obtain rfl := hnumber number hcallback
    exact {
      accounted := by
        intro number hlt
        rw [callbacks_calledBack]
        by_cases heq : given.owner fetch.id = number
        · rw [if_pos heq]
          exact Or.inr (List.cons_ne_nil _ _)
        · rw [if_neg heq]
          exact (h.accounted number hlt).imp_left fun ⟨id, hmem, howner⟩ => ⟨id, hkept hmem, howner⟩
      opened := by
        intro id tracked' hlookup hwaits
        rw [callbacks_calledBack] at hwaits
        obtain ⟨rfl, rfl⟩ | ⟨hne, hold⟩ := SetMap.of_insert hlookup
        · rw [if_pos rfl] at hwaits
          cases hwaits
        · rw [if_neg (htracks.owner_ne hheld (SetMap.mem_of_lookup hold) hne).symm] at hwaits
          exact h.opened id tracked' hold hwaits
      calling := by
        intro id hmem hcalled
        by_cases heq : id = fetch.id
        · exact ⟨_, rfl, heq.symm⟩
        · replace hmem := SetMap.mem_of_replaced hheld hmem
          rw [callbacks_calledBack, if_neg (htracks.owner_ne hheld hmem heq).symm] at hcalled
          exact absurd (h.waits hnone hmem) hcalled
      outstanding := fun other hother => hkept (h.outstanding other (List.mem_of_mem_erase hother))
      statuses := hstatuses }

theorem returned (h : r.Collects given) (htracks : r.Tracks given) {call : Callback}
    (hcalling : r.calling = some call) : (r.callbackReturn call).Collects given where
  accounted number hlt := by
    obtain ⟨id, hmem, howner⟩ | hcalled := h.accounted number hlt
    · by_cases heq : id = call.id
      · obtain ⟨-, hnumber, hcalled⟩ := htracks.calling call hcalling
        rw [← hnumber, ← heq, howner] at hcalled
        exact Or.inr hcalled
      · exact Or.inl ⟨id, AList.mem_erase.2 ⟨heq, hmem⟩, howner⟩
    · exact Or.inr hcalled
  opened id tracked hlookup := h.opened id tracked (SetMap.of_erase hlookup).2
  calling id hmem hcalled := by
    obtain ⟨hne, hold⟩ := AList.mem_erase.1 hmem
    obtain ⟨call', hcall', hid⟩ := h.calling id hold hcalled
    obtain rfl := Option.some.inj (hcall'.symm.trans hcalling)
    exact absurd hid.symm hne
  outstanding fetch hfetch := by
    have hheld := h.outstanding fetch hfetch
    refine AList.mem_erase.2 ⟨fun heq => ?_, hheld⟩
    -- nothing is under way for a set that was called back for
    obtain ⟨tracked, hid⟩ := Option.isSome_iff_exists.1 (AList.lookup_isSome.2 hheld)
    obtain ⟨hopen, -⟩ := htracks.known fetch hfetch tracked hid
    obtain ⟨-, hnumber, hcalled⟩ := htracks.calling call hcalling
    rw [← hnumber, ← heq] at hcalled
    exact hcalled hopen
  statuses := h.statuses

theorem step (h : r.Collects given) (htracks : r.Tracks given) {a : FetchAction} (hplain : r.Plain a)
    (hstep : r.step a = some t) : t.Collects (r.record given a) := by
  unfold FetchRun.step at hstep
  split at hstep
  · cases hstep
  cases a with
  | submit rs callback =>
    obtain ⟨hid, hne, rfl⟩ := hplain
    cases hstep
    exact h.submit htracks rs hid hne
  | complete fetch reply =>
    dsimp only at hstep
    split at hstep
    next hfetch =>
      cases hstep
      obtain ⟨hnone, hfetch⟩ := hfetch
      have hheld := h.outstanding fetch hfetch
      obtain ⟨tracked, hid⟩ := Option.isSome_iff_exists.1 (AList.lookup_isSome.2 hheld)
      obtain ⟨entries, hentries, -⟩ := htracks.sets fetch.id tracked hid
      rw [record, if_pos hheld]
      exact h.completes htracks hplain hnone hid (htracks.completes reply hfetch hid hentries)
    next => cases hstep
  | callbackReturn =>
    obtain ⟨call, hcalling, rfl⟩ := Option.map_eq_some_iff.1 hstep
    exact h.returned htracks hcalling
  | callbackThrow | erase => exact hplain.elim

end Collects

/-- A set that waits has got one reply at most to each request, and to one of them none. -/
theorem Collects.waiting {r : FetchRun} {given : FetchRecord} (h : r.Collects given) (htracks : r.Tracks given)
    {id number : ℕ} {rs : HTTPRequests} (hid : id ∈ r.tracker.requests) (howner : given.owner id = number)
    (hopen : callbacks number r.history = []) (hrs : r.submissions[number]? = some rs) :
    (∀ (i : ℕ) (request : HTTPRequest), rs[i]? = some request → (given.replies number i).length ≤ 1) ∧
      ∃ (i : ℕ) (request : HTTPRequest), rs[i]? = some request ∧ given.replies number i = [] := by
  subst howner
  obtain ⟨tracked, hlookup⟩ := Option.isSome_iff_exists.1 (AList.lookup_isSome.2 hid)
  obtain ⟨entries, hentries, hfetches, hnumber, -⟩ := htracks.sets id tracked hlookup
  obtain rfl := Option.some.inj (hnumber.symm.trans hrs)
  refine ⟨fun i request hrequest => ?_, ?_⟩
  · obtain ⟨flag, e, -, -, hprogress⟩ := htracks.place hlookup hentries hopen hrequest
    exact hprogress.length_le
  · obtain ⟨-, i, hset⟩ := h.opened id tracked hlookup hopen
    have hi : i < tracked.requests.length := hfetches ▸ (List.getElem?_eq_some_iff.1 hset).1
    have hrequest := List.getElem?_eq_getElem hi
    obtain ⟨flag, e, hflag, -, hprogress⟩ := htracks.place hlookup hentries hopen hrequest
    obtain rfl := Option.some.inj (hset.symm.trans hflag)
    obtain hnone | ⟨reply, hgot, h429⟩ := hprogress.of_set
    · exact ⟨i, _, hrequest, hnone⟩
    · exact absurd h429 (h.statuses _ i reply (by rw [hgot]; simp))

end FetchRun

end Ravl.Http
