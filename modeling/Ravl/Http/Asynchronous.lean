import Ravl.Http.CurlReplies
import Ravl.Http.FetchReplies

/-!
# Clients that call back later

What the curl client and the fetch client have in common for whoever submits request sets to them:
a set is accepted or refused when it is submitted, an accepted one is called back for once at most,
and the callback gets, for each request in order, what the last reply to it leaves. They call back
for one set at a time, and whoever was called decides when and how the callback ends.
-/

namespace Ravl.Http
open ByteLib FallibleLib TransitionLib

/-- The set was accepted: `submit` returned its id. -/
def Accepted (number : ℕ) (history : List Event) : Prop := ∃ id held, .submitted number id held ∈ history

theorem Accepted.cons {number : ℕ} {e : Event} {history : List Event} (h : Accepted number history) :
    Accepted number (e :: history) := by
  obtain ⟨id, held, hmem⟩ := h
  exact ⟨id, held, List.mem_cons_of_mem e hmem⟩

/-- The id that `submit` returned, or none when it threw. -/
def acceptedId (number : ℕ) : List Event → Option ℕ
  | [] => none
  | .submitted n id _ :: history => if n = number then some id else acceptedId number history
  | _ :: history => acceptedId number history

theorem acceptedId_none {number : ℕ} {history : List Event} (h : acceptedId number history = none) :
    ¬ Accepted number history := by
  induction history with
  | nil => exact fun ⟨_, _, hmem⟩ => absurd hmem List.not_mem_nil
  | cons e history ih =>
    intro haccepted
    obtain ⟨id, held, hmem⟩ := haccepted
    cases e with
    | submitted n id' held' =>
      by_cases hn : n = number
      · rw [acceptedId, if_pos hn] at h
        cases h
      · rw [acceptedId, if_neg hn] at h
        obtain heq | hmem := List.mem_cons.1 hmem
        · exact hn (Event.submitted.inj heq).1.symm
        · exact ih h ⟨id, held, hmem⟩
    | clashed n id' => exact ih h ⟨id, held, List.mem_of_ne_of_mem (fun heq => by cases heq) hmem⟩
    | calledBack n entries => exact ih h ⟨id, held, List.mem_of_ne_of_mem (fun heq => by cases heq) hmem⟩

theorem accepted_of_acceptedId {number id : ℕ} {history : List Event}
    (h : acceptedId number history = some id) : Accepted number history := by
  induction history with
  | nil => cases h
  | cons e history ih =>
    have hlater (hold : acceptedId number history = some id) : Accepted number (e :: history) := (ih hold).cons
    cases e with
    | submitted n id' held =>
      by_cases hn : n = number
      · exact ⟨id', held, hn ▸ List.mem_cons_self ..⟩
      · rw [acceptedId, if_neg hn] at h
        exact hlater h
    | clashed n id' => exact hlater h
    | calledBack n entries => exact hlater h

/-- What a submission adds to the history: it is accepted, or it clashes, or `submit` throws for
another reason. -/
inductive Taken (number : ℕ) (history : List Event) : List Event → Prop
  | refused : Taken number history history
  | clashed (id : ℕ) : Taken number history (.clashed number id :: history)
  | accepted (id : ℕ) (held : List ℕ) : Taken number history (.submitted number id held :: history)

/-- What any other step adds to it. -/
inductive Answered (history : List Event) : List Event → Prop
  | quiet : Answered history history
  | calledBack (number : ℕ) (entries : List Entry) (haccepted : Accepted number history)
    (hfirst : callbacks number history = []) :
    Answered history (.calledBack number entries :: history)

theorem Taken.callbacks_eq {number : ℕ} {history history' : List Event} (h : Taken number history history')
    (n : ℕ) : callbacks n history' = callbacks n history := by
  cases h with
  | refused => rfl
  | clashed id => rfl
  | accepted id held => rfl

theorem Taken.keeps_accepted {number : ℕ} {history history' : List Event} (h : Taken number history history')
    {n : ℕ} (hn : Accepted n history) : Accepted n history' := by
  cases h with
  | refused => exact hn
  | clashed id => exact hn.cons
  | accepted id held => exact hn.cons

theorem Taken.accepted_iff {number : ℕ} {history history' : List Event} (h : Taken number history history')
    {n : ℕ} (hn : n ≠ number) : Accepted n history' ↔ Accepted n history := by
  refine ⟨fun ⟨id, held, hmem⟩ => ?_, h.keeps_accepted⟩
  cases h with
  | refused => exact ⟨id, held, hmem⟩
  | clashed id' => exact ⟨id, held, List.mem_of_ne_of_mem (fun heq => by cases heq) hmem⟩
  | accepted id' held' =>
    obtain heq | hmem := List.mem_cons.1 hmem
    · exact absurd (Event.submitted.inj heq).1 hn
    · exact ⟨id, held, hmem⟩

theorem Answered.of_calledBack {history : List Event} {number : ℕ} {entries : List Entry}
    (h : Answered history (.calledBack number entries :: history)) :
    Accepted number history ∧ callbacks number history = [] := by
  generalize hnext : (Event.calledBack number entries :: history) = next at h
  cases h with
  | quiet => exact absurd hnext (List.cons_ne_self _ _)
  | calledBack n es haccepted hfirst =>
    cases hnext
    exact ⟨haccepted, hfirst⟩

theorem Answered.accepted_iff {history history' : List Event} (h : Answered history history') (n : ℕ) :
    Accepted n history' ↔ Accepted n history := by
  cases h with
  | quiet => exact Iff.rfl
  | calledBack number entries =>
    refine ⟨fun ⟨id, held, hmem⟩ => ⟨id, held, ?_⟩, Accepted.cons⟩
    exact List.mem_of_ne_of_mem (fun heq => by cases heq) hmem

theorem Answered.callbacks_nil {history history' : List Event} (h : Answered history history') {n : ℕ}
    (hn : callbacks n history' = []) : callbacks n history = [] := by
  cases h with
  | quiet => exact hn
  | calledBack number entries =>
    rw [callbacks_calledBack] at hn
    split at hn
    · cases hn
    · exact hn

/-- How a client reads the replies to a request, and what the last one leaves. -/
structure Reading (ρ : Type) where
  retried : ρ → Bool
  response : ρ → HTTPResponse

/-- Each entry, in order, comes from the request's URL and from the last reply to the request. -/
def Reading.Fulfils {ρ : Type} (reading : Reading ρ) (given : ℕ → List ρ) (rs : HTTPRequests)
    (entries : List Entry) : Prop :=
  entries.length = rs.length ∧ ∀ (i : ℕ) (request : HTTPRequest), rs[i]? = some request →
    ∃ before last, given i = before ++ [last] ∧ (∀ reply ∈ before, reading.retried reply = true) ∧
      reading.retried last = false ∧ entries[i]? = some ⟨reading.response last, some request.url⟩

/-- A client that calls back later, by its runs: `given` is what is written down about the replies,
`Kept` is what every step keeps. -/
structure AsyncClient (σ γ α ρ : Type) where
  first : σ
  noRecord : γ
  step : σ → α → Option σ
  record : σ → γ → α → γ
  Allowed : σ → α → Prop
  /-- the set that a step submits, and whether with a callback -/
  submission : α → Option (HTTPRequests × Bool)
  /-- the step in which the callback in progress returns or throws -/
  ends (threw : Bool) : α
  ending : α → Bool
  submissions : σ → List HTTPRequests
  history : σ → List Event
  /-- the submission whose callback is in progress -/
  calling : σ → Option ℕ
  /-- something undefined has happened, or the program was terminated -/
  stopped : σ → Bool
  replies : γ → Replies ρ
  reading : Reading ρ
  Kept : σ → γ → Prop
  kept_first : Kept first noRecord
  kept_step : ∀ s given a t, Kept s given → Allowed s a → step s a = some t → Kept t (record s given a)
  first_submissions : submissions first = []
  first_history : history first = []
  first_calling : calling first = none
  submitted : ∀ s given a t rs callback, Kept s given → step s a = some t →
    submission a = some (rs, callback) → submissions t = submissions s ++ [rs] ∧
      Taken (submissions s).length (history s) (history t)
  other : ∀ s given a t, Kept s given → step s a = some t → submission a = none →
    submissions t = submissions s ∧ Answered (history s) (history t)
  unsubmitted : ∀ s given number, Kept s given → (submissions s).length ≤ number →
    callbacks number (history s) = []
  fulfils : ∀ s given number entries, Kept s given → entries ∈ callbacks number (history s) →
    ∃ rs, (submissions s)[number]? = some rs ∧ reading.Fulfils (replies given number) rs entries
  calls : ∀ s given a t, Kept s given → step s a = some t →
    (∃ number entries, history t = .calledBack number entries :: history s ∧ calling s = none ∧
      calling t = some number) ∨
    (∀ number entries, history t ≠ .calledBack number entries :: history s) ∧
      (ending a = false → calling t = calling s)
  called : ∀ s given number, Kept s given → calling s = some number → number < (submissions s).length
  goes : ∀ s a t, step s a = some t → stopped s = false
  ending_ends : ∀ threw, ending (ends threw) = true
  ending_submits : ∀ a, ending a = true → submission a = none
  ends_allowed : ∀ s threw, Allowed s (ends threw)
  ends_enabled : ∀ s number threw, calling s = some number → stopped s = false →
    ∃ t, step s (ends threw) = some t
  ended : ∀ s a t, step s a = some t → ending a = true →
    history t = history s ∧ (calling t = none ∨ stopped t = true)

/-! ### The curl client -/

namespace CurlRun
variable {r t : CurlRun} {given : Replies Reply}

def submission : CurlAction → Option (HTTPRequests × Bool)
  | .submit rs callback _ => some (rs, callback)
  | _ => none

def ending : CurlAction → Bool
  | .callbackReturn => true
  | .callbackThrow => true
  | _ => false

/-- Every thread is that of an accepted set, and whoever was called back got all responses. -/
structure Kept (r : CurlRun) (given : Replies Reply) : Prop where
  ordered : r.forget.Ordered
  tracks : r.Tracks given
  accepted : ∀ id m, r.client.monitorThreads.lookup id = some m → Accepted m.number r.history
  answers : ∀ number, ∀ entries ∈ callbacks number r.history, ∃ rs, r.submissions[number]? = some rs ∧
    Answers rs entries
  calling : ∀ call, r.calling = some call → call.number < r.submissions.length

theorem Moves.taken {rs : HTTPRequests} {callback performs : Bool}
    (hmove : r.Moves (.submit rs callback performs) t) :
    t.submissions = r.submissions ++ [rs] ∧ Taken r.submissions.length r.history t.history := by
  cases hmove with
  | clashed => exact ⟨rfl, .clashed _⟩
  | refused => exact ⟨rfl, .refused⟩
  | submitted => exact ⟨rfl, .accepted _ _⟩
  | faulted _ hlocks => cases hlocks

theorem Moves.answered {a : CurlAction} (hmove : r.Moves a t) (h : r.Kept given)
    (ha : submission a = none) : t.submissions = r.submissions ∧ Answered r.history t.history := by
  cases hmove with
  | clashed | refused | submitted => cases ha
  | ended | consumed | stopped | returned | erased | faulted => exact ⟨rfl, .quiet⟩
  | calledBack id m tracked entries hnone hm hrunning =>
    exact ⟨rfl, .calledBack m.number entries (h.accepted id m hm)
      (h.tracks.pending id m ⟨hm, Or.inl hrunning, not_callsBack hnone id⟩)⟩

theorem Moves.threads {a : CurlAction} (hmove : r.Moves a t) (h : r.Kept given) (id : ℕ)
    (m : MonitorThread) (hm : t.client.monitorThreads.lookup id = some m) : Accepted m.number t.history := by
  have hended (id' : ℕ) (m' : MonitorThread) (hm' : r.client.monitorThreads.lookup id' = some m')
      (hlookup : (r.client.monitorThreads.insert id' { m' with running := false }).lookup id = some m) :
      Accepted m.number r.history := by
    obtain ⟨rfl, rfl⟩ | ⟨-, hold⟩ := SetMap.of_insert hlookup
    · exact h.accepted id m' hm'
    · exact h.accepted id m hold
  cases hmove with
  | clashed | calledBack => exact (h.accepted id m hm).cons
  | submitted rs callback hnone hid =>
    obtain ⟨rfl, rfl⟩ | ⟨-, hold⟩ := SetMap.of_insert hm
    · exact ⟨_, _, List.mem_cons_self ..⟩
    · exact (h.accepted id m hold).cons
  | stopped id' m' hnone hm' => exact hended id' m' hm' hm
  | returned call m' hcalling hm' => exact hended call.id m' hm' hm
  | erased id' => exact h.accepted id m (SetMap.of_erase hm).2
  | refused | ended | consumed | faulted => exact h.accepted id m hm

theorem Moves.answers {a : CurlAction} (hmove : r.Moves a t) (h : r.Kept given) (number : ℕ)
    (entries : List Entry) (hmem : entries ∈ callbacks number t.history) :
    ∃ rs, t.submissions[number]? = some rs ∧ Answers rs entries := by
  have hmore (rs : HTTPRequests) (hold : entries ∈ callbacks number r.history) :
      ∃ rs', (r.submissions ++ [rs])[number]? = some rs' ∧ Answers rs' entries := by
    obtain ⟨rs', hrs', hanswers⟩ := h.answers number entries hold
    refine ⟨rs', ?_, hanswers⟩
    rw [List.getElem?_append_left (List.getElem?_eq_some_iff.1 hrs').1, hrs']
  cases hmove with
  | clashed rs => exact hmore rs hmem
  | refused rs => exact hmore rs hmem
  | submitted rs => exact hmore rs hmem
  | calledBack id m tracked entries' hnone hm hrunning hcallback hid hentries hidle hanswers =>
    rw [callbacks_calledBack] at hmem
    split at hmem
    next hnumber =>
      obtain rfl | hold := List.mem_cons.1 hmem
      · obtain ⟨tracked', hid', hsubmitted⟩ := h.tracks.held id m ⟨hm, Or.inl hrunning, not_callsBack hnone id⟩
        obtain rfl := Option.some.inj (hid'.symm.trans hid)
        exact ⟨_, hnumber ▸ hsubmitted, hanswers⟩
      · exact h.answers number entries hold
    next => exact h.answers number entries hmem
  | ended | consumed | stopped | returned | erased | faulted => exact h.answers number entries hmem

theorem Moves.calling {a : CurlAction} (hmove : r.Moves a t) (h : r.Kept given) (call : Callback)
    (hcall : t.calling = some call) : call.number < t.submissions.length := by
  have hno (hnone : r.calling = none) (hsame : r.calling = some call) : call.number < t.submissions.length := by
    rw [hnone] at hsame
    cases hsame
  cases hmove with
  | calledBack id m tracked entries hnone hm =>
    obtain rfl := Option.some.inj hcall
    exact h.tracks.numbers id m hm
  | returned => cases hcall
  | erased | faulted => exact h.calling call hcall
  | clashed rs callback performs hnone => exact hno hnone hcall
  | refused rs callback hnone | submitted rs callback hnone => exact hno hnone hcall
  | ended id i reply tracked easy entries e hnone => exact hno hnone hcall
  | consumed id m tracked entries entries' running hnone => exact hno hnone hcall
  | stopped id m hnone => exact hno hnone hcall

/-- A step that calls back finds no callback in progress, and no other step but the end of a callback
changes which one is. -/
theorem Moves.calls {a : CurlAction} (hmove : r.Moves a t) :
    (∃ number entries id, t.history = .calledBack number entries :: r.history ∧ r.calling = none ∧
      t.calling = some ⟨number, id⟩) ∨
    (∀ number entries, t.history ≠ .calledBack number entries :: r.history) ∧
      (ending a = false → t.calling = r.calling) := by
  have hquiet (number : ℕ) (entries : List Entry) : r.history ≠ .calledBack number entries :: r.history :=
    (List.cons_ne_self _ _).symm
  cases hmove with
  | calledBack id m tracked entries hnone => exact Or.inl ⟨_, _, _, rfl, hnone, rfl⟩
  | clashed | submitted =>
    refine Or.inr ⟨fun number entries heq => ?_, fun _ => rfl⟩
    cases (List.cons.inj heq).1
  | refused | ended | consumed | stopped | erased | faulted => exact Or.inr ⟨hquiet, fun _ => rfl⟩
  | returned => exact Or.inr ⟨hquiet, nofun⟩

theorem step_fault {a : CurlAction} (hstep : r.step a = some t) : r.fault = false := by
  unfold CurlRun.step at hstep
  split at hstep
  · cases hstep
  next hno =>
    rw [Bool.or_eq_true, not_or] at hno
    exact Bool.eq_false_iff.2 hno.1

theorem ended {a : CurlAction} (hstep : r.step a = some t) (ha : ending a = true) :
    t.history = r.history ∧ (t.calling = none ∨ t.fault = true) := by
  unfold CurlRun.step at hstep
  split at hstep
  · cases hstep
  cases a with
  | callbackReturn =>
    obtain ⟨call, -, rfl⟩ := Option.map_eq_some_iff.1 hstep
    exact ⟨rfl, Or.inl rfl⟩
  | callbackThrow =>
    obtain ⟨call, -, rfl⟩ := Option.map_eq_some_iff.1 hstep
    exact ⟨rfl, Or.inr rfl⟩
  | submit | transfer | poll | nestedSubmit | erase => cases ha

def ends (threw : Bool) : CurlAction := if threw then .callbackThrow else .callbackReturn

theorem ends_enabled {call : Callback} (hcall : r.calling = some call) (hgood : r.fault = false)
    (threw : Bool) : ∃ t, r.step (ends threw) = some t := by
  cases threw with
  | false => exact ⟨_, by simp [ends, CurlRun.step, CurlAction.locks, hgood, hcall]; rfl⟩
  | true => exact ⟨_, by simp [ends, CurlRun.step, CurlAction.locks, hgood, hcall]; rfl⟩

theorem Kept.step (h : r.Kept given) {a : CurlAction} (hstep : r.step a = some t) :
    t.Kept (r.record given a) := by
  have hmove := moves h.ordered hstep
  exact ⟨hmove.ordered h.ordered, h.tracks.step h.ordered hmove, hmove.threads h, hmove.answers h,
    hmove.calling h⟩

theorem Kept.fulfils (h : r.Kept given) (number : ℕ) (entries : List Entry)
    (hmem : entries ∈ callbacks number r.history) : ∃ rs, r.submissions[number]? = some rs ∧
      Reading.Fulfils ⟨Reply.retried, Reply.response⟩ (given number) rs entries := by
  obtain ⟨rs, hrs, hanswers⟩ := h.answers number entries hmem
  have hlength : entries.length = rs.length := by
    have hmap := congrArg List.length hanswers
    rwa [List.length_map, List.length_map] at hmap
  refine ⟨rs, hrs, hlength, fun i request hrequest => ?_⟩
  have hi : i < entries.length := hlength ▸ (List.getElem?_eq_some_iff.1 hrequest).1
  have he := List.getElem?_eq_getElem hi
  obtain ⟨before, last, hgiven, hbefore, hlast, hresponse⟩ := h.tracks.delivered number entries hmem i _ he
  have hurl := congrArg (fun urls => urls[i]?) hanswers
  simp only [List.getElem?_map, he, hrequest, Option.map_some, Option.some.injEq] at hurl
  refine ⟨before, last, hgiven, hbefore, hlast, ?_⟩
  rw [he, ← hurl]
  exact congrArg (fun response => some (Entry.mk response entries[i].url)) hresponse

end CurlRun

def curl : AsyncClient CurlRun (Replies Reply) CurlAction Reply where
  first := {}
  noRecord _ _ := []
  step := CurlRun.step
  record := CurlRun.record
  Allowed _ _ := True
  submission := CurlRun.submission
  ends := CurlRun.ends
  ending := CurlRun.ending
  submissions := CurlRun.submissions
  history := CurlRun.history
  calling r := r.calling.map Callback.number
  stopped := CurlRun.fault
  replies := id
  reading := ⟨Reply.retried, Reply.response⟩
  Kept := CurlRun.Kept
  kept_first := {
    ordered := (CurlRun.run_ordered {} .refl).forget
    tracks := .start
    accepted id m h := by cases h
    answers number entries h := absurd h List.not_mem_nil
    calling := nofun }
  kept_step _ _ _ _ h _ hstep := h.step hstep
  first_submissions := rfl
  first_history := rfl
  first_calling := rfl
  submitted s given a t rs callback h hstep ha := by
    cases a with
    | submit rs' callback' performs =>
      obtain ⟨rfl, -⟩ := Prod.mk.inj (Option.some.inj ha)
      exact (CurlRun.moves h.ordered hstep).taken
    | transfer | poll | callbackReturn | callbackThrow | nestedSubmit | erase => cases ha
  other _ _ _ _ h hstep ha := (CurlRun.moves h.ordered hstep).answered h ha
  unsubmitted _ _ number h hlate := (h.tracks.fresh number hlate).1
  fulfils _ _ number entries h hmem := h.fulfils number entries hmem
  calls r given a t h hstep := by
    obtain ⟨number, entries, id, hhistory, hnone, hcalling⟩ | ⟨hquiet, hsame⟩ :=
      (CurlRun.moves h.ordered hstep).calls
    · exact Or.inl ⟨number, entries, hhistory, by rw [hnone]; rfl, by rw [hcalling]; rfl⟩
    · exact Or.inr ⟨hquiet, fun ha => by rw [hsame ha]⟩
  called r given number h hcalling := by
    obtain ⟨call, hcall, rfl⟩ := Option.map_eq_some_iff.1 hcalling
    exact h.calling call hcall
  goes _ _ _ hstep := CurlRun.step_fault hstep
  ending_ends threw := by cases threw <;> rfl
  ending_submits a ha := by
    cases a with
    | callbackReturn | callbackThrow => rfl
    | submit | transfer | poll | nestedSubmit | erase => cases ha
  ends_allowed _ _ := trivial
  ends_enabled r number threw hcalling hgood := by
    obtain ⟨call, hcall, -⟩ := Option.map_eq_some_iff.1 hcalling
    exact CurlRun.ends_enabled hcall hgood threw
  ended r a t hstep ha :=
    (CurlRun.ended hstep ha).imp_right fun hover => hover.imp_left fun hnone => by rw [hnone]; rfl

/-! ### The fetch client -/

namespace FetchRun
variable {r t : FetchRun} {given : FetchRecord}

def submission : FetchAction → Option (HTTPRequests × Bool)
  | .submit rs callback => some (rs, callback)
  | _ => none

def ending : FetchAction → Bool
  | .callbackReturn => true
  | .callbackThrow => true
  | _ => false

def ends (threw : Bool) : FetchAction := if threw then .callbackThrow else .callbackReturn

structure Kept (r : FetchRun) (given : FetchRecord) : Prop where
  tracks : r.Tracks given
  accepted : ∀ id tracked number, r.tracker.requests.lookup id = some tracked →
    tracked.callback = some number → Accepted number r.history

theorem taken (h : r.Tracks given) (rs : HTTPRequests) (callback : Bool) :
    (r.submit rs callback).submissions = r.submissions ++ [rs] ∧
      Taken r.submissions.length r.history (r.submit rs callback).history := by
  unfold FetchRun.submit
  dsimp only
  by_cases hid : r.tracker.requests.size ∈ r.tracker.requests
  · rw [if_pos hid]
    exact ⟨rfl, .clashed _⟩
  · have hnew : r.tracker.requests.size ∉ r.tracker.responses := fun hmem => hid (h.responses _ hmem)
    rw [if_neg hid, if_neg hnew]
    exact ⟨rfl, .accepted _ _⟩

theorem Kept.submit (h : r.Kept given) (rs : HTTPRequests) (callback : Bool) (id number : ℕ)
    (tracked : FetchRequests) (hlookup : (r.submit rs callback).tracker.requests.lookup id = some tracked)
    (hcallback : tracked.callback = some number) : Accepted number (r.submit rs callback).history := by
  unfold FetchRun.submit at hlookup ⊢
  dsimp only at hlookup ⊢
  by_cases hid : r.tracker.requests.size ∈ r.tracker.requests
  · rw [if_pos hid] at hlookup ⊢
    exact (h.accepted id tracked number hlookup hcallback).cons
  · have hnew : r.tracker.requests.size ∉ r.tracker.responses := fun hmem => hid (h.tracks.responses _ hmem)
    rw [if_neg hid, if_neg hnew] at hlookup ⊢
    obtain ⟨rfl, rfl⟩ | ⟨-, hold⟩ := SetMap.of_insert hlookup
    · cases callback with
      | false => cases hcallback
      | true =>
        obtain rfl := Option.some.inj hcallback
        exact ⟨_, _, List.mem_cons_self ..⟩
    · exact (h.accepted id tracked number hold hcallback).cons

theorem complete_unheld (fetch : Fetch) (reply : FetchReply) (hid : r.tracker.requests.lookup fetch.id = none) :
    r.complete fetch reply = { r with outstanding := r.outstanding.erase fetch } := by
  simp only [FetchRun.complete, FetchTracker.complete, hid, List.append_nil]

theorem Kept.complete (h : r.Kept given) (fetch : Fetch) (reply : FetchReply) (hfetch : fetch ∈ r.outstanding) :
    (r.complete fetch reply).submissions = r.submissions ∧
      Answered r.history (r.complete fetch reply).history ∧
      ∀ id tracked number, (r.complete fetch reply).tracker.requests.lookup id = some tracked →
        tracked.callback = some number → Accepted number (r.complete fetch reply).history := by
  cases hid : r.tracker.requests.lookup fetch.id with
  | none =>
    rw [complete_unheld fetch reply hid]
    exact ⟨rfl, .quiet, h.accepted⟩
  | some tracked =>
    obtain ⟨entries, hentries, -⟩ := h.tracks.sets fetch.id tracked hid
    have hput (fetches : List Bool) (id number : ℕ) (tracked' : FetchRequests)
        (hlookup : (r.tracker.requests.insert fetch.id { tracked with fetches }).lookup id = some tracked')
        (hcallback : tracked'.callback = some number) : Accepted number r.history := by
      obtain ⟨rfl, rfl⟩ | ⟨-, hold⟩ := SetMap.of_insert hlookup
      · exact h.accepted fetch.id tracked number hid hcallback
      · exact h.accepted id tracked' number hold hcallback
    have hcompletes := h.tracks.completes reply hfetch hid hentries
    generalize r.complete fetch reply = done at hcompletes ⊢
    cases hcompletes with
    | lost h429 => exact ⟨rfl, .quiet, fun id tracked' number => hput _ id number tracked'⟩
    | stored hstatus hopen => exact ⟨rfl, .quiet, fun id tracked' number => hput _ id number tracked'⟩
    | calledBack number hstatus hcallback hall =>
      have haccepted := h.accepted fetch.id tracked number hid hcallback
      obtain ⟨-, -, -, -, howner, -⟩ := h.tracks.sets fetch.id tracked hid
      obtain ⟨hfirst, -⟩ := h.tracks.known fetch hfetch tracked hid
      rw [← howner number hcallback] at hfirst
      exact ⟨rfl, .calledBack number _ haccepted hfirst,
        fun id tracked' n hlookup hn => (hput _ id n tracked' hlookup hn).cons⟩

theorem Kept.step (h : r.Kept given) {a : FetchAction} (hunused : r.Unused a) (hstep : r.step a = some t) :
    t.Kept (r.record given a) := by
  refine ⟨h.tracks.step hunused hstep, fun id tracked number hlookup hcallback => ?_⟩
  unfold FetchRun.step at hstep
  split at hstep
  · cases hstep
  cases a with
  | submit rs callback =>
    cases hstep
    exact h.submit rs callback id number tracked hlookup hcallback
  | complete fetch reply =>
    dsimp only at hstep
    split at hstep
    next hready =>
      cases hstep
      exact (h.complete fetch reply hready.2).2.2 id tracked number hlookup hcallback
    next => cases hstep
  | callbackReturn =>
    obtain ⟨call, -, rfl⟩ := Option.map_eq_some_iff.1 hstep
    exact h.accepted id tracked number (SetMap.of_erase hlookup).2 hcallback
  | callbackThrow =>
    obtain ⟨call, -, rfl⟩ := Option.map_eq_some_iff.1 hstep
    exact h.accepted id tracked number hlookup hcallback
  | erase id' =>
    cases hstep
    unfold FetchRun.erase at hlookup ⊢
    split at hlookup
    next hown =>
      rw [if_pos hown]
      exact h.accepted id tracked number hlookup hcallback
    next hother =>
      rw [if_neg hother]
      exact h.accepted id tracked number (SetMap.of_erase hlookup).2 hcallback

/-- A step that is no submission leaves the history as it is, or calls back while no callback is in
progress. -/
theorem Kept.other (h : r.Kept given) {a : FetchAction} (hstep : r.step a = some t)
    (ha : submission a = none) : t.submissions = r.submissions ∧ Answered r.history t.history ∧
      (t.history = r.history ∧ (ending a = false → t.calling = r.calling) ∨
        ∃ number entries id, t.history = .calledBack number entries :: r.history ∧ r.calling = none ∧
          t.calling = some ⟨number, id⟩) := by
  unfold FetchRun.step at hstep
  split at hstep
  · cases hstep
  cases a with
  | submit rs callback => cases ha
  | complete fetch reply =>
    dsimp only at hstep
    split at hstep
    next hready =>
      cases hstep
      obtain ⟨hsubmissions, hanswered, -⟩ := h.complete fetch reply hready.2
      obtain ⟨-, -, ⟨hsame, hcalling⟩ | ⟨number, entries, hcalled, hcalling⟩⟩ := complete_calls r fetch reply
      · exact ⟨hsubmissions, hanswered, Or.inl ⟨hsame, fun _ => hcalling⟩⟩
      · exact ⟨hsubmissions, hanswered, Or.inr ⟨number, entries, fetch.id, hcalled, hready.1, hcalling⟩⟩
    next => cases hstep
  | callbackReturn | callbackThrow =>
    obtain ⟨call, -, rfl⟩ := Option.map_eq_some_iff.1 hstep
    exact ⟨rfl, .quiet, Or.inl ⟨rfl, nofun⟩⟩
  | erase id =>
    cases hstep
    unfold FetchRun.erase
    split
    · exact ⟨rfl, .quiet, Or.inl ⟨rfl, fun _ => rfl⟩⟩
    · exact ⟨rfl, .quiet, Or.inl ⟨rfl, fun _ => rfl⟩⟩

theorem submit_calling (rs : HTTPRequests) (callback : Bool) :
    (r.submit rs callback).calling = r.calling ∧
      ∀ number entries, (r.submit rs callback).history ≠ .calledBack number entries :: r.history := by
  unfold FetchRun.submit
  dsimp only
  split
  · exact ⟨rfl, fun number entries heq => by cases (List.cons.inj heq).1⟩
  · split
    · exact ⟨rfl, fun number entries heq => by cases (List.cons.inj heq).1⟩
    · exact ⟨rfl, fun number entries heq => by cases (List.cons.inj heq).1⟩

theorem step_submit {a : FetchAction} {rs : HTTPRequests} {callback : Bool}
    (ha : submission a = some (rs, callback)) (hstep : r.step a = some t) :
    a = .submit rs callback ∧ t = r.submit rs callback := by
  unfold FetchRun.step at hstep
  split at hstep
  · cases hstep
  cases a with
  | submit rs' callback' =>
    obtain ⟨rfl, rfl⟩ := Prod.mk.inj (Option.some.inj ha)
    exact ⟨rfl, (Option.some.inj hstep).symm⟩
  | complete | callbackReturn | callbackThrow | erase => cases ha

theorem Kept.calls (h : r.Kept given) {a : FetchAction} (hstep : r.step a = some t) :
    (∃ number entries id, t.history = .calledBack number entries :: r.history ∧ r.calling = none ∧
      t.calling = some ⟨number, id⟩) ∨
    (∀ number entries, t.history ≠ .calledBack number entries :: r.history) ∧
      (ending a = false → t.calling = r.calling) := by
  cases ha : submission a with
  | some submitted =>
    obtain ⟨rs, callback⟩ := submitted
    obtain ⟨-, rfl⟩ := step_submit ha hstep
    exact Or.inr ⟨(submit_calling rs callback).2, fun _ => (submit_calling rs callback).1⟩
  | none =>
    obtain ⟨-, -, ⟨hsame, hcalling⟩ | hcalled⟩ := h.other hstep ha
    · refine Or.inr ⟨fun number entries heq => ?_, hcalling⟩
      exact List.cons_ne_self _ _ (heq.symm.trans hsame)
    · exact Or.inl hcalled

theorem ended {a : FetchAction} (hstep : r.step a = some t) (ha : ending a = true) :
    t.history = r.history ∧ t.calling = none := by
  unfold FetchRun.step at hstep
  split at hstep
  · cases hstep
  cases a with
  | callbackReturn | callbackThrow =>
    obtain ⟨call, -, rfl⟩ := Option.map_eq_some_iff.1 hstep
    exact ⟨rfl, rfl⟩
  | submit | complete | erase => cases ha

theorem ends_enabled {call : Callback} (hcall : r.calling = some call) (hgood : r.undefined = false)
    (threw : Bool) : ∃ t, r.step (ends threw) = some t := by
  cases threw with
  | false => exact ⟨_, by simp [ends, FetchRun.step, hgood, hcall]; rfl⟩
  | true => exact ⟨_, by simp [ends, FetchRun.step, hgood, hcall]; rfl⟩

theorem Kept.fulfils (h : r.Kept given) (number : ℕ) (entries : List Entry)
    (hmem : entries ∈ callbacks number r.history) : ∃ rs, r.submissions[number]? = some rs ∧
      Reading.Fulfils ⟨fun reply => reply.status = 429, storeReply {}⟩ (given.replies number) rs entries := by
  obtain ⟨rs, hrs, hlength, hall⟩ := h.tracks.delivered number entries hmem
  refine ⟨rs, hrs, hlength, fun i request hrequest => ?_⟩
  obtain ⟨reply, hgiven, hstatus, he⟩ := hall i request hrequest
  exact ⟨[], reply, hgiven, fun _ hnot => absurd hnot List.not_mem_nil, decide_eq_false hstatus, he⟩

end FetchRun

def fetch : AsyncClient FetchRun FetchRecord FetchAction FetchReply where
  first := {}
  noRecord := {}
  step := FetchRun.step
  record := FetchRun.record
  Allowed := FetchRun.Unused
  submission := FetchRun.submission
  ends := FetchRun.ends
  ending := FetchRun.ending
  submissions := FetchRun.submissions
  history := FetchRun.history
  calling r := r.calling.map Callback.number
  stopped := FetchRun.undefined
  replies := FetchRecord.replies
  reading := ⟨fun reply => reply.status = 429, storeReply {}⟩
  Kept := FetchRun.Kept
  kept_first := ⟨.start, fun id tracked number h => by cases h⟩
  kept_step _ _ _ _ h hunused hstep := h.step hunused hstep
  first_submissions := rfl
  first_history := rfl
  first_calling := rfl
  submitted s given a t rs callback h hstep ha := by
    obtain ⟨-, rfl⟩ := FetchRun.step_submit ha hstep
    exact FetchRun.taken h.tracks rs callback
  other s given a t h hstep ha := by
    obtain ⟨hsubmissions, hanswered, -⟩ := h.other hstep ha
    exact ⟨hsubmissions, hanswered⟩
  unsubmitted _ _ number h hlate := (h.tracks.fresh number hlate).1
  fulfils _ _ number entries h hmem := h.fulfils number entries hmem
  calls r given a t h hstep := by
    obtain ⟨number, entries, id, hhistory, hnone, hcalling⟩ | ⟨hquiet, hsame⟩ := h.calls hstep
    · exact Or.inl ⟨number, entries, hhistory, by rw [hnone]; rfl, by rw [hcalling]; rfl⟩
    · exact Or.inr ⟨hquiet, fun ha => by rw [hsame ha]⟩
  called r given number h hcalling := by
    obtain ⟨call, hcall, rfl⟩ := Option.map_eq_some_iff.1 hcalling
    obtain ⟨hheld, howner, -⟩ := h.tracks.calling call hcall
    exact howner ▸ h.tracks.owner_lt hheld
  goes r a t hstep := by
    unfold FetchRun.step at hstep
    split at hstep
    · cases hstep
    next hgo => exact Bool.eq_false_iff.2 hgo
  ending_ends threw := by cases threw <;> rfl
  ending_submits a ha := by
    cases a with
    | callbackReturn | callbackThrow => rfl
    | submit | complete | erase => cases ha
  ends_allowed _ threw := by cases threw <;> trivial
  ends_enabled r number threw hcalling hgood := by
    obtain ⟨call, hcall, -⟩ := Option.map_eq_some_iff.1 hcalling
    exact FetchRun.ends_enabled hcall hgood threw
  ended r a t hstep ha := (FetchRun.ended hstep ha).imp_right fun hnone => Or.inl (by rw [hnone]; rfl)

end Ravl.Http
