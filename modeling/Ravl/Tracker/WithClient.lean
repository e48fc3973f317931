import Ravl.EntryPoints
import Ravl.Http.Asynchronous
import Ravl.Tracker.Interleaving
import Ravl.Tracker.Outward

/-!
# The tracker and a client that calls back later

The tracker's runs take any client for granted that calls back at most once and throws only before
that. Here the client is the real one, and its steps and those of the tracker come in any order. A
call of `submit` that is in progress in the tracker makes the client's step, later it returns, and
what the client does when it calls back for a set is the tracker's delivery for the request that the
set was submitted for. The lambda runs inside the client's callback: that ends with the step of the
tracker in which the lambda returns or throws. Others may submit sets to the same client.
-/

namespace Ravl.Tracker
open ByteLib FallibleLib TransitionLib
open Http (AsyncClient Accepted acceptedId Taken Answered Entry callbacks)

structure Joint (Claims σ γ : Type) where
  tracker : Config Claims := {}
  client : σ
  given : γ
  /-- for each set that the client was given, the request that it was submitted for -/
  owners : List (Option ℕ) := []

inductive JointAction (Claims α : Type)
  /-- a step of the tracker that is not the client's -/
  | tracker (l : Label Claims)
  /-- `submit` of the client, called by `prepare_endorsements` -/
  | request (id : ℕ) (a : α)
  /-- that call returns, or throws -/
  | returned (id number : ℕ)
  /-- a step of the client, or somebody else's call of `submit` -/
  | client (a : α)

/-- The action with which the lambda returns to the client, and does not throw. -/
def Action.returns {Claims : Type} : Action Claims → Bool
  | .proceed 0 _ => true
  | _ => false

def returnAction {Claims : Type} : Option ℕ → Action Claims
  | some set => .clientReturn set
  | none => .clientThrow

/-- The callback that a step called. -/
def calledBack (before after : List Http.Event) : Option (ℕ × List Entry) :=
  if after.length = before.length then none
  else
    match after with
    | .calledBack number entries :: _ => some (number, entries)
    | _ => none

section
variable {Claims σ γ α ρ : Type} (C : AsyncClient σ γ α ρ)

def Joint.start : Joint Claims σ γ where
  client := C.first
  given := C.noRecord

/-- The client makes a step; if it calls back, it calls the lambda of the owner. -/
def Joint.clientStep (s : Joint Claims σ γ) (owner : Option ℕ) (a : α) : Option (Joint Claims σ γ) := do
  let client ← C.step s.client a
  let next := { s with
    client
    given := C.record s.client s.given a
    owners := if (C.submission a).isSome then s.owners ++ [owner] else s.owners }
  match calledBack (C.history s.client) (C.history client) with
  | none => some next
  | some (number, entries) =>
    match s.owners[number]?.join with
    | none => some next
    | some id => do
      let tracker ← s.tracker.step ⟨id, .deliver (entries.map Entry.response)⟩
      some { next with tracker }

/-- The request whose lambda the client has called. -/
def Joint.callee (s : Joint Claims σ γ) : Option ℕ :=
  (C.calling s.client).bind fun number => s.owners[number]?.join

/-- The lambda has ended in a step of the tracker. -/
def Joint.LambdaEnds (s : Joint Claims σ γ) (id : ℕ) (tracker : Config Claims) : Prop :=
  tracker.stopped = false ∧ s.callee C = some id ∧ lambdaFrames (tracker.frames id) = 0

instance (s : Joint Claims σ γ) (id : ℕ) (tracker : Config Claims) : Decidable (s.LambdaEnds C id tracker) :=
  inferInstanceAs (Decidable (_ ∧ _))

def Joint.step (s : Joint Claims σ γ) : JointAction Claims α → Option (Joint Claims σ γ)
  | .tracker l =>
    if l.action.isClients then none
    else do
      let tracker ← s.tracker.step l
      let next := { s with tracker }
      if s.LambdaEnds C l.id tracker then next.clientStep C none (C.ends (! l.action.returns)) else some next
  | .request id a =>
    if s.tracker.stopped = false ∧ .client ∈ s.tracker.frames id ∧ some id ∉ s.owners ∧
        C.submission a = some (requestedIn (s.tracker.history id), true) then
      s.clientStep C (some id) a
    else none
  | .returned id number =>
    if s.owners[number]? = some (some id) then
      (s.tracker.step ⟨id, returnAction (acceptedId number (C.history s.client))⟩).map fun tracker =>
        { s with tracker }
    else none
  | .client a =>
    -- a lambda ends when the tracker says so
    if s.tracker.stopped = false ∧ (C.ending a = true → s.callee C = none) then s.clientStep C none a
    else none

/-- The client's own condition on its steps. -/
def Joint.Allowed (s : Joint Claims σ γ) : JointAction Claims α → Prop
  | .request _ a => C.Allowed s.client a
  | .client a => C.Allowed s.client a
  | _ => True

/-- Every state that the tracker and the client get into together. -/
abbrev Joint.Reached (s : Joint Claims σ γ) : Prop :=
  Steps (Joint.step C) (Joint.Allowed C) (.start C) s

/-! ### What a step of the client does -/

theorem calledBack_taken {number : ℕ} {before after : List Http.Event} (h : Taken number before after) :
    calledBack before after = none := by
  cases h <;> simp [calledBack]

theorem calledBack_answered {before after : List Http.Event} (h : Answered before after) :
    (calledBack before after = none ∧ after = before) ∨ ∃ number entries,
      calledBack before after = some (number, entries) ∧ after = .calledBack number entries :: before := by
  cases h with
  | quiet => exact Or.inl ⟨by simp [calledBack], rfl⟩
  | calledBack number entries => exact Or.inr ⟨number, entries, by simp [calledBack], rfl⟩

inductive Joint.ClientMoves (s : Joint Claims σ γ) (owner : Option ℕ) (a : α) : Joint Claims σ γ → Prop
  | submitted (rs : HTTPRequests) (callback : Bool) (client : σ) (hstep : C.step s.client a = some client)
    (ha : C.submission a = some (rs, callback)) : ClientMoves s owner a { s with
      client, given := C.record s.client s.given a, owners := s.owners ++ [owner] }
  | quiet (client : σ) (hstep : C.step s.client a = some client) (ha : C.submission a = none)
    (hhistory : C.history client = C.history s.client) : ClientMoves s owner a { s with
      client, given := C.record s.client s.given a }
  | theirs (client : σ) (number : ℕ) (entries : List Entry) (hstep : C.step s.client a = some client)
    (ha : C.submission a = none)
    (hhistory : C.history client = .calledBack number entries :: C.history s.client)
    (howner : ∀ id, s.owners[number]? ≠ some (some id)) : ClientMoves s owner a { s with
      client, given := C.record s.client s.given a }
  | ours (client : σ) (number : ℕ) (entries : List Entry) (id : ℕ) (tracker : Config Claims)
    (hstep : C.step s.client a = some client) (ha : C.submission a = none)
    (hhistory : C.history client = .calledBack number entries :: C.history s.client)
    (howner : s.owners[number]? = some (some id))
    (hdeliver : s.tracker.step ⟨id, .deliver (entries.map Entry.response)⟩ = some tracker) :
    ClientMoves s owner a { s with client, given := C.record s.client s.given a, tracker }

theorem join_eq {o : Option (Option ℕ)} {id : ℕ} : o.join = some id ↔ o = some (some id) := by
  cases o with
  | none => simp
  | some owner => simp

theorem Joint.clientStep_moves {s t : Joint Claims σ γ} (h : C.Kept s.client s.given) {owner : Option ℕ}
    {a : α} (hstep : s.clientStep C owner a = some t) : s.ClientMoves C owner a t := by
  simp only [Joint.clientStep, Option.bind_eq_bind, Option.bind_eq_some_iff] at hstep
  obtain ⟨client, hclient, hstep⟩ := hstep
  cases ha : C.submission a with
  | some submitted =>
    obtain ⟨rs, callback⟩ := submitted
    rw [calledBack_taken (C.submitted _ _ _ _ rs callback h hclient ha).2, ha] at hstep
    obtain rfl := Option.some.inj hstep
    exact .submitted rs callback client hclient ha
  | none =>
    obtain ⟨hquiet, hhistory⟩ | ⟨number, entries, hcalled, hhistory⟩ :=
      calledBack_answered (C.other _ _ _ _ h hclient ha).2
    · rw [hquiet, ha] at hstep
      obtain rfl := Option.some.inj hstep
      exact .quiet client hclient ha hhistory
    · rw [hcalled, ha] at hstep
      dsimp only at hstep
      cases howner : s.owners[number]?.join with
      | none =>
        rw [howner] at hstep
        obtain rfl := Option.some.inj hstep
        refine .theirs client number entries hclient ha hhistory fun id hid => ?_
        rw [hid] at howner
        cases howner
      | some id =>
        rw [howner] at hstep
        simp only [Option.bind_eq_some_iff] at hstep
        obtain ⟨tracker, hdeliver, hstep⟩ := hstep
        obtain rfl := Option.some.inj hstep
        exact .ours client number entries id tracker hclient ha hhistory (join_eq.1 howner) hdeliver

/-- The end of a callback calls nobody back. -/
theorem Joint.clientStep_ends {s t : Joint Claims σ γ} {a : α} (ha : C.ending a = true)
    (hstep : s.clientStep C none a = some t) : ∃ client, C.step s.client a = some client ∧
      C.history client = C.history s.client ∧ (C.calling client = none ∨ C.stopped client = true) ∧
      t = { s with client, given := C.record s.client s.given a } := by
  simp only [Joint.clientStep, Option.bind_eq_bind, Option.bind_eq_some_iff] at hstep
  obtain ⟨client, hclient, hstep⟩ := hstep
  obtain ⟨hhistory, hover⟩ := C.ended _ _ _ hclient ha
  rw [hhistory, C.ending_submits a ha] at hstep
  simp only [calledBack, if_true, Option.isSome_none, Bool.false_eq_true, if_false, Option.some.injEq] at hstep
  exact ⟨client, hclient, hhistory, hover, hstep.symm⟩

theorem Joint.ClientMoves.ends (s : Joint Claims σ γ) (c : Config Claims) {a : α} {client : σ}
    (ha : C.ending a = true) (hstep : C.step s.client a = some client)
    (hhistory : C.history client = C.history s.client) : Joint.ClientMoves C { s with tracker := c } none a
      { s with tracker := c, client, given := C.record s.client s.given a } :=
  .quiet client hstep (C.ending_submits a ha) hhistory

/-- A step is one of the tracker, with which the client's callback may end, or one of the client, for
a request that calls `submit` or else. -/
inductive Joint.Moves (s : Joint Claims σ γ) : JointAction Claims α → Joint Claims σ γ → Prop
  | own (l : Label Claims) (c : Config Claims) (hown : l.action.isClients = false)
    (hc : s.tracker.step l = some c) (hgoes : ¬ s.LambdaEnds C l.id c) :
    Moves s (.tracker l) { s with tracker := c }
  | ended (l : Label Claims) (c : Config Claims) (a : α) (client : σ) (hown : l.action.isClients = false)
    (hc : s.tracker.step l = some c) (hends : s.LambdaEnds C l.id c) (ha : C.ending a = true)
    (hallowed : C.Allowed s.client a) (hstep : C.step s.client a = some client)
    (hhistory : C.history client = C.history s.client)
    (hover : C.calling client = none ∨ C.stopped client = true) :
    Moves s (.tracker l) { s with tracker := c, client, given := C.record s.client s.given a }
  | returned (id number : ℕ) (c : Config Claims) (hmine : s.owners[number]? = some (some id))
    (hc : s.tracker.step ⟨id, returnAction (acceptedId number (C.history s.client))⟩ = some c) :
    Moves s (.returned id number) { s with tracker := c }
  | client (a : JointAction Claims α) (owner : Option ℕ) (b : α) (t : Joint Claims σ γ)
    (hallowed : s.Allowed C a → C.Allowed s.client b) (hfree : C.ending b = true → s.callee C = none)
    (howner : ∀ id, owner = some id → .client ∈ s.tracker.frames id ∧ some id ∉ s.owners ∧
      C.submission b = some (requestedIn (s.tracker.history id), true))
    (hmoves : s.ClientMoves C owner b t) : Moves s a t

theorem Joint.moves {s t : Joint Claims σ γ} (h : C.Kept s.client s.given) {a : JointAction Claims α}
    (hstep : s.step C a = some t) : s.Moves C a t := by
  cases a with
  | tracker l =>
    simp only [Joint.step] at hstep
    split at hstep
    next => cases hstep
    next hown =>
      rw [Bool.not_eq_true] at hown
      obtain ⟨c, hc, hstep⟩ := Option.bind_eq_some_iff.1 hstep
      split at hstep
      next hends =>
        obtain ⟨client, hclient, hhistory, hover, rfl⟩ :=
          Joint.clientStep_ends C (C.ending_ends (! l.action.returns)) hstep
        exact .ended l c _ client hown hc hends (C.ending_ends _) (C.ends_allowed _ _) hclient hhistory hover
      next hgoes =>
        obtain rfl := Option.some.inj hstep
        exact .own l c hown hc hgoes
  | request id a =>
    simp only [Joint.step] at hstep
    split at hstep
    next hgo =>
      obtain ⟨-, hclient, hnew, ha⟩ := hgo
      refine .client _ (some id) a t (fun h => h) (fun hends => ?_) (fun id' hid => ?_)
        (Joint.clientStep_moves C h hstep)
      · rw [C.ending_submits a hends] at ha
        cases ha
      · obtain rfl := Option.some.inj hid
        exact ⟨hclient, hnew, ha⟩
    next => cases hstep
  | returned id number =>
    simp only [Joint.step] at hstep
    split at hstep
    next hmine =>
      obtain ⟨c, hc, rfl⟩ := Option.map_eq_some_iff.1 hstep
      exact .returned id number c hmine hc
    next => cases hstep
  | client a =>
    simp only [Joint.step] at hstep
    split at hstep
    next hgo => exact .client _ none a t (fun h => h) hgo.2 nofun (Joint.clientStep_moves C h hstep)
    next => cases hstep

end

/-! ### What a run keeps, for one request -/

section
variable {Claims : Type}

/-- The client has not called back for the request, and it will or it may still throw. -/
def Owes (owners : List (Option ℕ)) (history : List Http.Event) (id : ℕ) (s : Slot Claims) : Prop :=
  (∀ number, owners[number]? = some (some id) → callbacks number history = []) ∧
    (.client ∈ s.frames ∨ ∃ number, owners[number]? = some (some id) ∧ Accepted number history)

/-- What the client did for the request is what the tracker knows of it. -/
structure Concerns (owners : List (Option ℕ)) (submissions : List HTTPRequests)
    (history : List Http.Event) (id : ℕ) (s : Slot Claims) : Prop where
  prepared : ∀ rs, .requested rs ∈ s.history → ∃ options api,
    .submitted options (some api) ∈ s.history ∧ api.prepareEndorsements options = .ok (some rs)
  requested : ∀ number : ℕ, owners[number]? = some (some id) →
    ∃ rs, submissions[number]? = some rs ∧ .requested rs ∈ s.history
  calls : s.frames.count .client ≤ 1
  async : s.Async
  asked : .client ∈ s.frames → ∃ rs, .requested rs ∈ s.history
  owed : Owes owners history id s → s.pending = true
  delivered : ∀ responses, .delivered responses ∈ s.history ↔ ∃ (number : ℕ) (entries : List Entry),
    owners[number]? = some (some id) ∧ entries ∈ callbacks number history ∧
      responses = entries.map Entry.response
  refused : .clientThrew ∈ s.history → ∃ number : ℕ, owners[number]? = some (some id) ∧ ¬ Accepted number history

namespace Concerns
variable {owners : List (Option ℕ)} {submissions : List HTTPRequests} {history history' : List Http.Event}
  {id : ℕ} {s t : Slot Claims}

theorem blank (h : ∀ number : ℕ, owners[number]? ≠ some (some id)) :
    Concerns owners submissions history id ({} : Slot Claims) where
  prepared rs hmem := absurd hmem List.not_mem_nil
  requested number hid := absurd hid (h number)
  calls := Nat.zero_le 1
  async f hf := absurd hf List.not_mem_nil
  asked hmem := absurd hmem List.not_mem_nil
  owed howes := by
    obtain ⟨-, hmem | ⟨number, hid, -⟩⟩ := howes
    · cases hmem
    · exact absurd hid (h number)
  delivered responses := by
    refine ⟨fun hmem => absurd hmem List.not_mem_nil, fun hex => ?_⟩
    obtain ⟨number, entries, hid, -⟩ := hex
    exact absurd hid (h number)
  refused hmem := absurd hmem List.not_mem_nil

theorem submit (h : Concerns owners submissions history id ({} : Slot Claims)) (options : Options)
    (attestation : Option (AttestationApi Claims)) (httpClient callback : Bool) :
    Concerns owners submissions history id
      (({} : Slot Claims).submit options attestation httpClient callback) := by
  have hasks := Slot.submit_asks options attestation httpClient callback
  have hnew (number : ℕ) : owners[number]? ≠ some (some id) := by
    intro hid
    obtain ⟨_, -, hmem⟩ := h.requested number hid
    cases hmem
  have hsubmitted := (Slot.submit_history ({} : Slot Claims) options attestation httpClient callback).mem
    (List.mem_cons_self ..)
  exact {
    prepared := by
      intro rs hmem
      obtain ⟨api, rfl, hprepare⟩ := hasks.prepared rs hmem
      exact ⟨options, api, hsubmitted, hprepare⟩
    requested := fun number hid => absurd hid (hnew number)
    calls := hasks.calls
    async := hasks.async
    asked := hasks.asked
    owed := fun howes => howes.2.elim hasks.owed fun ⟨number, hid, _⟩ => absurd hid (hnew number)
    delivered := fun responses => ⟨fun hmem => absurd hmem (hasks.undelivered responses),
      fun ⟨number, entries, hid, _⟩ => absurd hid (hnew number)⟩
    refused := fun hmem => absurd hmem hasks.unrefused }

theorem apart (h : Concerns owners submissions history id s) (hapart : s.Apart t)
    (hgrows : s.history <:+ t.history) : Concerns owners submissions history id t := by
  have hclient (hmem : .client ∈ t.frames) : .client ∈ s.frames :=
    List.count_pos_iff.1 ((List.count_pos_iff.2 hmem).trans_le hapart.calls)
  exact {
    prepared := by
      intro rs hmem
      obtain ⟨options, api, hsubmitted, hprepare⟩ := h.prepared rs (hapart.outward _ hmem rfl)
      exact ⟨options, api, hgrows.mem hsubmitted, hprepare⟩
    requested := by
      intro number hid
      obtain ⟨rs, hrs, hmem⟩ := h.requested number hid
      exact ⟨rs, hrs, hgrows.mem hmem⟩
    calls := hapart.calls.trans h.calls
    async := hapart.async h.async
    asked := by
      intro hmem
      obtain ⟨rs, hrs⟩ := h.asked (hclient hmem)
      exact ⟨rs, hgrows.mem hrs⟩
    owed := by
      intro howes
      rw [hapart.pending]
      exact h.owed ⟨howes.1, howes.2.imp_left hclient⟩
    delivered := fun responses => Iff.trans
      ⟨fun hmem => hapart.outward _ hmem rfl, fun hmem => hgrows.mem hmem⟩ (h.delivered responses)
    refused := fun hmem => h.refused (hapart.outward _ hmem rfl) }

theorem taken (h : Concerns owners submissions history id s) (hlength : owners.length = submissions.length)
    (htaken : Taken submissions.length history history') (hearly : callbacks submissions.length history = [])
    (rs : HTTPRequests) (owner : Option ℕ)
    (hown : owner = some id → .client ∈ s.frames ∧ .requested rs ∈ s.history ∧ s.pending = true ∧
      ∀ number : ℕ, owners[number]? ≠ some (some id)) :
    Concerns (owners ++ [owner]) (submissions ++ [rs]) history' id s := by
  have hold {number : ℕ} (hid : owners[number]? = some (some id)) :
      (owners ++ [owner])[number]? = some (some id) ∧ number ≠ submissions.length := by
    have hlt := (List.getElem?_eq_some_iff.1 hid).1
    rw [List.getElem?_append_left hlt]
    exact ⟨hid, by omega⟩
  have hcases {number : ℕ} (hid : (owners ++ [owner])[number]? = some (some id)) :
      owners[number]? = some (some id) ∧ number ≠ submissions.length ∨
        number = submissions.length ∧ owner = some id := by
    by_cases hlt : number < owners.length
    · rw [List.getElem?_append_left hlt] at hid
      exact Or.inl ⟨hid, by omega⟩
    · rw [List.getElem?_append_right (by omega)] at hid
      obtain ⟨hzero, hget⟩ := List.getElem?_eq_some_iff.1 hid
      have hzero : number - owners.length = 0 := Nat.lt_one_iff.1 hzero
      simp only [hzero, List.getElem_cons_zero] at hget
      exact Or.inr ⟨by omega, hget⟩
  exact {
    prepared := h.prepared
    requested := by
      intro number hid
      obtain ⟨hid, -⟩ | ⟨rfl, hmine⟩ := hcases hid
      · obtain ⟨rs', hrs', hmem⟩ := h.requested number hid
        exact ⟨rs', by rw [List.getElem?_append_left (List.getElem?_eq_some_iff.1 hrs').1, hrs'], hmem⟩
      · exact ⟨rs, by simp, (hown hmine).2.1⟩
    calls := h.calls
    async := h.async
    asked := h.asked
    owed := by
      intro ⟨hnone, hmay⟩
      by_cases hmine : owner = some id
      · exact (hown hmine).2.2.1
      · refine h.owed ⟨fun number hid => ?_, hmay.imp_right ?_⟩
        · rw [← htaken.callbacks_eq]
          exact hnone number (hold hid).1
        · intro ⟨number, hid, haccepted⟩
          obtain ⟨hid, hne⟩ | ⟨-, hmine'⟩ := hcases hid
          · exact ⟨number, hid, (htaken.accepted_iff hne).1 haccepted⟩
          · exact absurd hmine' hmine
    delivered := by
      intro responses
      rw [h.delivered]
      refine ⟨fun ⟨number, entries, hid, hmem, heq⟩ => ⟨number, entries, (hold hid).1, ?_, heq⟩,
        fun ⟨number, entries, hid, hmem, heq⟩ => ?_⟩
      · rw [htaken.callbacks_eq]
        exact hmem
      · rw [htaken.callbacks_eq] at hmem
        obtain ⟨hid, -⟩ | ⟨rfl, -⟩ := hcases hid
        · exact ⟨number, entries, hid, hmem, heq⟩
        · rw [hearly] at hmem
          cases hmem
    refused := by
      intro hmem
      obtain ⟨number, hid, hnot⟩ := h.refused hmem
      exact ⟨number, (hold hid).1, fun haccepted => hnot ((htaken.accepted_iff (hold hid).2).1 haccepted)⟩ }

theorem theirs (h : Concerns owners submissions history id s) (number : ℕ) (entries : List Entry)
    (hother : owners[number]? ≠ some (some id)) :
    Concerns owners submissions (.calledBack number entries :: history) id s := by
  have hsame {n : ℕ} (hid : owners[n]? = some (some id)) :
      callbacks n (.calledBack number entries :: history) = callbacks n history := by
    have hne : number ≠ n := fun heq => hother (heq ▸ hid)
    rw [Http.callbacks_calledBack, if_neg hne]
  have haccepted {n : ℕ} : Accepted n (.calledBack number entries :: history) ↔ Accepted n history :=
    ⟨fun ⟨set, held, hmem⟩ => ⟨set, held, List.mem_of_ne_of_mem (by simp) hmem⟩, Accepted.cons⟩
  exact {
    prepared := h.prepared
    requested := h.requested
    calls := h.calls
    async := h.async
    asked := h.asked
    owed := by
      intro ⟨hnone, hmay⟩
      refine h.owed ⟨fun n hid => hsame hid ▸ hnone n hid, hmay.imp_right ?_⟩
      intro ⟨n, hid, hn⟩
      exact ⟨n, hid, haccepted.1 hn⟩
    delivered := by
      intro responses
      rw [h.delivered]
      exact ⟨fun ⟨n, es, hid, hmem, heq⟩ => ⟨n, es, hid, hsame hid ▸ hmem, heq⟩,
        fun ⟨n, es, hid, hmem, heq⟩ => ⟨n, es, hid, hsame hid ▸ hmem, heq⟩⟩
    refused := by
      intro hmem
      obtain ⟨n, hid, hnot⟩ := h.refused hmem
      exact ⟨n, hid, fun hn => hnot (haccepted.1 hn)⟩ }

/-- The client calls back for the request: the tracker is waiting for it. -/
theorem ours (h : Concerns owners submissions history id s) (hs : s.core.Sound) (number : ℕ)
    (entries : List Entry) (hmine : owners[number]? = some (some id))
    (honce : ∀ n : ℕ, owners[n]? = some (some id) → n = number) (haccepted : Accepted number history)
    (hfirst : callbacks number history = []) :
    s.pending = true ∧ Concerns owners submissions (.calledBack number entries :: history) id
      (s.deliver (entries.map Entry.response) false) := by
  have hpending : s.pending = true := by
    refine h.owed ⟨fun n hid => ?_, Or.inr ⟨number, hmine, haccepted⟩⟩
    rw [honce n hid]
    exact hfirst
  have hnow : callbacks number (.calledBack number entries :: history) = [entries] := by
    rw [Http.callbacks_calledBack, if_pos rfl, hfirst]
  refine ⟨hpending, ?_⟩
  rw [s.deliver_eq _ false hs hpending]
  have hmem {e : Event Claims} (he : e ∈ s.history) :
      e ∈ (.delivered (entries.map Entry.response) :: s.history : List (Event Claims)) :=
    List.mem_cons_of_mem _ he
  exact {
    prepared := by
      intro rs hrs
      obtain ⟨options, api, hsubmitted, hprepare⟩ := h.prepared rs (List.mem_of_ne_of_mem (by simp) hrs)
      exact ⟨options, api, hmem hsubmitted, hprepare⟩
    requested := by
      intro n hid
      obtain ⟨rs, hrs, hrequested⟩ := h.requested n hid
      exact ⟨rs, hrs, hmem hrequested⟩
    calls := by
      show List.count Frame.client (.delivery 2 false :: s.frames) ≤ 1
      rw [List.count_cons_of_ne (by simp)]
      exact h.calls
    async := by
      intro f hf
      obtain rfl | hf := List.mem_cons.1 hf
      · rfl
      · exact h.async f hf
    asked := by
      intro hclient
      obtain ⟨rs, hrs⟩ := h.asked (List.mem_of_ne_of_mem (by simp) hclient)
      exact ⟨rs, hmem hrs⟩
    owed := by
      intro howes
      have hnone := howes.1 number hmine
      rw [hnow] at hnone
      cases hnone
    delivered := by
      intro responses
      constructor
      · intro hdelivered
        obtain heq | hold := List.mem_cons.1 hdelivered
        · cases heq
          exact ⟨number, entries, hmine, by rw [hnow]; exact List.mem_cons_self .., rfl⟩
        · obtain ⟨n, es, hid, hes, -⟩ := (h.delivered responses).1 hold
          rw [honce n hid, hfirst] at hes
          cases hes
      · intro ⟨n, es, hid, hes, heq⟩
        rw [honce n hid, hnow] at hes
        rw [heq, List.mem_singleton.1 hes]
        exact List.mem_cons_self ..
    refused := by
      intro hthrew
      obtain ⟨n, hid, hnot⟩ := h.refused (List.mem_of_ne_of_mem (by simp) hthrew)
      rw [honce n hid] at hnot
      exact absurd haccepted hnot }

theorem clientReturn (h : Concerns owners submissions history id s) (set : ℕ) :
    Concerns owners submissions history id ((s.leave .client).clientReturn set) := by
  refine (h.apart (.leave s .client) List.suffix_rfl).apart ?_ ?_
  · unfold Slot.clientReturn
    split
    next => exact (Slot.Apart.refl _).fail _
    next => exact (Slot.Apart.refl _).setRequest _
  · unfold Slot.clientReturn
    split <;> exact List.suffix_rfl

/-- `submit` throws: the client knows nothing of the set, and no callback is owed any more. -/
theorem clientThrow (h : Concerns owners submissions history id s)
    (number : ℕ) (hmine : owners[number]? = some (some id))
    (honce : ∀ n : ℕ, owners[n]? = some (some id) → n = number) (hrefused : ¬ Accepted number history) :
    Concerns owners submissions history id
      ({ s.leave .client with pending := false }.note .clientThrew).catchException := by
  have hgone : .client ∉ s.frames.erase .client := by
    have hcount := h.calls
    rw [← List.count_eq_zero, List.count_erase_self]
    omega
  have hleft : Concerns owners submissions history id
      ({ s.leave .client with pending := false }.note .clientThrew) := {
    prepared := by
      intro rs hrs
      obtain ⟨options, api, hsubmitted, hprepare⟩ := h.prepared rs (List.mem_of_ne_of_mem (by simp) hrs)
      exact ⟨options, api, List.mem_cons_of_mem _ hsubmitted, hprepare⟩
    requested := by
      intro n hid
      obtain ⟨rs, hrs, hrequested⟩ := h.requested n hid
      exact ⟨rs, hrs, List.mem_cons_of_mem _ hrequested⟩
    calls := (List.erase_sublist.count_le _).trans h.calls
    async := fun f hf => h.async f (List.mem_of_mem_erase hf)
    asked := fun hmem => absurd hmem hgone
    owed := by
      intro howes
      obtain hmem | ⟨n, hid, haccepted⟩ := howes.2
      · exact absurd hmem hgone
      · rw [honce n hid] at haccepted
        exact absurd haccepted hrefused
    delivered := fun responses => Iff.trans
      ⟨fun hmem => List.mem_of_ne_of_mem (by simp) hmem, List.mem_cons_of_mem _⟩ (h.delivered responses)
    refused := fun _ => ⟨number, hmine, hrefused⟩ }
  refine hleft.apart (.catchException _) ?_
  rw [Slot.catchException_history]

end Concerns

end

/-! ### In every run -/

section
variable {Claims σ γ α ρ : Type} {C : AsyncClient σ γ α ρ}

theorem requestedIn_mem {h : List (Event Claims)} (hex : ∃ rs, .requested rs ∈ h) :
    .requested (requestedIn h) ∈ h := by
  induction h with
  | nil =>
    obtain ⟨rs, hmem⟩ := hex
    cases hmem
  | cons e h ih =>
    cases e with
    | requested rs => exact List.mem_cons_self ..
    | _ =>
      obtain ⟨rs, hmem⟩ := hex
      exact List.mem_cons_of_mem _ (ih ⟨rs, List.mem_of_ne_of_mem (by simp) hmem⟩)

theorem Config.step_slot {c c' : Config Claims} (h : Reachable c) {l : Label Claims}
    (hstep : c.step l = some c') : (c.slot l.id).step false l.action = some (c'.slot l.id) ∧
      ∀ id, id ≠ l.id → c'.slot id = c.slot id := by
  obtain ⟨-, -, t, ht, rfl⟩ := c.step_some c' l hstep
  rw [(reachable_numbered h).httpClient] at ht
  exact ⟨by rw [Config.slot_put_self]; exact ht, fun id hne => Config.slot_put_other _ _ _ _ hne⟩

/-- A request is submitted under an id that nothing is known of; any other action is a later one. -/
theorem Config.step_submitted {c c' : Config Claims} (h : Reachable c) {l : Label Claims}
    (hstep : c.step l = some c') :
    (∃ o att k cb, c.slot l.id = {} ∧ c'.slot l.id = ({} : Slot Claims).submit o att k cb) ∨
      ∀ o att k cb, l.action ≠ .submit o att k cb := by
  obtain ⟨hslot, -⟩ := Config.step_slot h hstep
  obtain ⟨-, hallow, -⟩ := c.step_some c' l hstep
  by_cases hsubmit : ∃ o att k cb, l.action = .submit o att k cb
  · obtain ⟨o, att, k, cb, haction⟩ := hsubmit
    simp only [Config.allows, haction, decide_eq_true_eq] at hallow
    have hblank := (reachable_numbered h).unused l.id (Nat.le_of_eq hallow.symm)
    rw [hblank, haction] at hslot
    exact .inl ⟨o, att, k, cb, hblank, (Option.some.inj hslot).symm⟩
  · exact .inr fun o att k cb haction => hsubmit ⟨o, att, k, cb, haction⟩

structure Joint.Linked (C : AsyncClient σ γ α ρ) (s : Joint Claims σ γ) : Prop where
  reachable : Reachable s.tracker
  kept : C.Kept s.client s.given
  length : s.owners.length = (C.submissions s.client).length
  once : ∀ (n m id : ℕ), s.owners[n]? = some (some id) → s.owners[m]? = some (some id) → n = m
  called : ∀ number, callbacks number (C.history s.client) = [] ∨
    Accepted number (C.history s.client) ∧ ∃ entries, callbacks number (C.history s.client) = [entries]
  concerns : ∀ id, Concerns s.owners (C.submissions s.client) (C.history s.client) id (s.tracker.slot id)

namespace Joint.Linked
variable {s t : Joint Claims σ γ}

theorem start : (Joint.start C : Joint Claims σ γ).Linked C where
  reachable := .refl
  kept := C.kept_first
  length := by
    show 0 = (C.submissions C.first).length
    rw [C.first_submissions]
    rfl
  once n m id h := by cases h
  called number := by
    show callbacks number (C.history C.first) = [] ∨ _
    rw [C.first_history]
    exact Or.inl rfl
  concerns id := .blank fun number h => by cases h

theorem tracker (h : s.Linked C) (l : Label Claims) (hown : l.action.isClients = false)
    {c : Config Claims} (hstep : s.tracker.step l = some c) : Joint.Linked C { s with tracker := c } where
  reachable := h.reachable.tail trivial hstep
  kept := h.kept
  length := h.length
  once := h.once
  called := h.called
  concerns id := by
    obtain ⟨hslot, hothers⟩ := Config.step_slot h.reachable hstep
    by_cases hid : id = l.id
    · subst hid
      show Concerns _ _ _ _ (c.slot l.id)
      obtain ⟨o, att, k, cb, hblank, hnew⟩ | hlater := Config.step_submitted h.reachable hstep
      · have hconcerns := h.concerns l.id
        rw [hblank] at hconcerns
        rw [hnew]
        exact hconcerns.submit o att k cb
      · have hsound := (reachable_consistent h.reachable l.id).2
        exact (h.concerns l.id).apart
          (Slot.step_apart _ _ l.action hown hlater hsound (h.concerns l.id).async hslot)
          (Slot.step_history _ _ l.action hslot)
    · show Concerns _ _ _ _ (c.slot id)
      rw [hothers id hid]
      exact h.concerns id

theorem early (h : s.Linked C) : callbacks (C.submissions s.client).length (C.history s.client) = [] :=
  C.unsubmitted _ _ _ h.kept (Nat.le_refl _)

theorem once_append (h : s.Linked C) (owner : Option ℕ)
    (hnew : ∀ id, owner = some id → ∀ number : ℕ, s.owners[number]? ≠ some (some id)) (n m id : ℕ)
    (hn : (s.owners ++ [owner])[n]? = some (some id)) (hm : (s.owners ++ [owner])[m]? = some (some id)) :
    n = m := by
  have hlast {k : ℕ} (hk : (s.owners ++ [owner])[k]? = some (some id)) (hlt : ¬ k < s.owners.length) :
      k = s.owners.length ∧ owner = some id := by
    have hle : k < (s.owners ++ [owner]).length := (List.getElem?_eq_some_iff.1 hk).1
    rw [List.length_append, List.length_singleton] at hle
    obtain rfl : k = s.owners.length := by omega
    rw [List.getElem?_concat_length] at hk
    exact ⟨rfl, Option.some.inj hk⟩
  by_cases hltn : n < s.owners.length
  · rw [List.getElem?_append_left hltn] at hn
    by_cases hltm : m < s.owners.length
    · rw [List.getElem?_append_left hltm] at hm
      exact h.once n m id hn hm
    · exact absurd hn (hnew id (hlast hm hltm).2 n)
  · by_cases hltm : m < s.owners.length
    · rw [List.getElem?_append_left hltm] at hm
      exact absurd hm (hnew id (hlast hn hltn).2 m)
    · exact (hlast hn hltn).1.trans (hlast hm hltm).1.symm

theorem called_taken (h : s.Linked C) {n : ℕ} {after : List Http.Event}
    (htaken : Taken n (C.history s.client) after) (number : ℕ) :
    callbacks number after = [] ∨ Accepted number after ∧ ∃ entries, callbacks number after = [entries] := by
  rw [htaken.callbacks_eq]
  exact (h.called number).imp_right fun ⟨haccepted, hentries⟩ => ⟨htaken.keeps_accepted haccepted, hentries⟩

theorem called_answered (h : s.Linked C) {after : List Http.Event}
    (hanswered : Answered (C.history s.client) after) (number : ℕ) :
    callbacks number after = [] ∨ Accepted number after ∧ ∃ entries, callbacks number after = [entries] := by
  have hold := h.called number
  generalize C.history s.client = before at hanswered hold
  cases hanswered with
  | quiet => exact hold
  | calledBack n entries haccepted hfirst =>
    rw [Http.callbacks_calledBack]
    by_cases hn : n = number
    · subst hn
      rw [if_pos rfl, hfirst]
      exact Or.inr ⟨haccepted.cons, entries, rfl⟩
    · rw [if_neg hn]
      exact hold.imp_right fun ⟨haccepted, hentries⟩ => ⟨haccepted.cons, hentries⟩

theorem client (h : s.Linked C) {owner : Option ℕ} {a : α} (hallowed : C.Allowed s.client a)
    (hown : ∀ id, owner = some id → .client ∈ (s.tracker.slot id).frames ∧
      (∀ number : ℕ, s.owners[number]? ≠ some (some id)) ∧
      C.submission a = some (requestedIn (s.tracker.slot id).history, true))
    (hmoves : s.ClientMoves C owner a t) : t.Linked C := by
  cases hmoves with
  | submitted rs callback client hstep ha =>
    obtain ⟨hsubmissions, htaken⟩ := C.submitted _ _ _ _ rs callback h.kept hstep ha
    refine ⟨h.reachable, C.kept_step _ _ _ _ h.kept hallowed hstep, ?_, ?_, ?_, fun id => ?_⟩
    · rw [hsubmissions, List.length_append, List.length_append, h.length]
      rfl
    · exact h.once_append owner fun id hid => (hown id hid).2.1
    · exact h.called_taken htaken
    · show Concerns _ (C.submissions client) (C.history client) id (s.tracker.slot id)
      rw [hsubmissions]
      refine (h.concerns id).taken h.length htaken h.early rs owner fun hid => ?_
      obtain ⟨hclient, hnew, hrs⟩ := hown id hid
      obtain ⟨rfl, -⟩ := Prod.mk.inj (Option.some.inj (ha.symm.trans hrs))
      exact ⟨hclient, requestedIn_mem ((h.concerns id).asked hclient),
        (h.concerns id).owed ⟨fun number hmine => absurd hmine (hnew number), Or.inl hclient⟩, hnew⟩
  | quiet client hstep ha hhistory =>
    obtain ⟨hsubmissions, hanswered⟩ := C.other _ _ _ _ h.kept hstep ha
    refine ⟨h.reachable, C.kept_step _ _ _ _ h.kept hallowed hstep, ?_, h.once,
      h.called_answered hanswered, fun id => ?_⟩
    · rw [hsubmissions]
      exact h.length
    · show Concerns _ (C.submissions client) (C.history client) id (s.tracker.slot id)
      rw [hsubmissions, hhistory]
      exact h.concerns id
  | theirs client number entries hstep ha hhistory howner =>
    obtain ⟨hsubmissions, hanswered⟩ := C.other _ _ _ _ h.kept hstep ha
    refine ⟨h.reachable, C.kept_step _ _ _ _ h.kept hallowed hstep, ?_, h.once,
      h.called_answered hanswered, fun id => ?_⟩
    · rw [hsubmissions]
      exact h.length
    · show Concerns _ (C.submissions client) (C.history client) id (s.tracker.slot id)
      rw [hsubmissions, hhistory]
      exact (h.concerns id).theirs number entries (howner id)
  | ours client number entries id tracker hstep ha hhistory howner hdeliver =>
    obtain ⟨hsubmissions, hanswered⟩ := C.other _ _ _ _ h.kept hstep ha
    refine ⟨h.reachable.tail trivial hdeliver, C.kept_step _ _ _ _ h.kept hallowed hstep, ?_, h.once,
      h.called_answered hanswered, fun id' => ?_⟩
    · rw [hsubmissions]
      exact h.length
    · show Concerns _ (C.submissions client) (C.history client) id' (tracker.slot id')
      obtain ⟨hslot, hothers⟩ := Config.step_slot h.reachable hdeliver
      rw [hsubmissions, hhistory]
      by_cases hid : id' = id
      · subst hid
        rw [hhistory] at hanswered
        obtain ⟨haccepted, hfirst⟩ := hanswered.of_calledBack
        obtain ⟨-, hdelivered⟩ := (h.concerns id').ours (reachable_consistent h.reachable id').2 number
          entries howner (fun n hn => h.once n number id' hn howner) haccepted hfirst
        obtain ⟨-, heq⟩ := (guarded_some _ _ _).1 hslot
        rw [← heq]
        exact hdelivered
      · rw [hothers id' hid]
        refine (h.concerns id').theirs number entries fun hmine => hid ?_
        rw [howner] at hmine
        exact (Option.some.inj (Option.some.inj hmine)).symm

theorem returned (h : s.Linked C) {id number : ℕ} (hmine : s.owners[number]? = some (some id))
    {c : Config Claims}
    (hstep : s.tracker.step ⟨id, returnAction (acceptedId number (C.history s.client))⟩ = some c) :
    Joint.Linked C { s with tracker := c } where
  reachable := h.reachable.tail trivial hstep
  kept := h.kept
  length := h.length
  once := h.once
  called := h.called
  concerns id' := by
    obtain ⟨hslot, hothers⟩ := Config.step_slot h.reachable hstep
    by_cases hid : id' = id
    · subst hid
      show Concerns _ _ _ _ (c.slot id')
      cases haccepted : acceptedId number (C.history s.client) with
      | some set =>
        rw [haccepted] at hslot
        obtain ⟨-, heq⟩ := (guarded_some _ _ _).1 hslot
        rw [← heq]
        exact (h.concerns id').clientReturn set
      | none =>
        rw [haccepted] at hslot
        obtain ⟨-, heq⟩ := (guarded_some _ _ _).1 hslot
        rw [← heq]
        exact (h.concerns id').clientThrow number hmine (fun n hn => h.once n number id' hn hmine)
          (Http.acceptedId_none haccepted)
    · show Concerns _ _ _ _ (c.slot id')
      rw [hothers id' hid]
      exact h.concerns id'

theorem step (h : s.Linked C) {a : JointAction Claims α} (hallowed : s.Allowed C a)
    (hstep : s.step C a = some t) : t.Linked C := by
  cases Joint.moves C h.kept hstep with
  | own l c hown hc hgoes => exact h.tracker l hown hc
  | ended l c b client hown hc hends hb hallowed' hclient hhistory hover =>
    exact (h.tracker l hown hc).client hallowed' (fun id hid => by cases hid)
      (.ends C s c hb hclient hhistory)
  | returned id number c hmine hc => exact h.returned hmine hc
  | client _ owner b t hb hfree howner hmoves =>
    refine h.client (hb hallowed) (fun id hid => ?_) hmoves
    obtain ⟨hcall, hnew, hsubmission⟩ := howner id hid
    exact ⟨hcall, fun number hmine => hnew (List.mem_of_getElem? hmine), hsubmission⟩

end Joint.Linked

/-- The tracker's part of a step -/
theorem Joint.Linked.tracker_step {s t : Joint Claims σ γ} (h : s.Linked C) {a : JointAction Claims α}
    (hstep : s.step C a = some t) : t.tracker = s.tracker ∨ ∃ l, s.tracker.step l = some t.tracker := by
  cases Joint.moves C h.kept hstep with
  | own l c hown hc | ended l c b client hown hc | returned id number c hmine hc => exact Or.inr ⟨_, hc⟩
  | client _ owner b t hb hfree howner hmoves =>
    cases hmoves with
    | ours client number entries id tracker hstep ha hhistory howner hdeliver => exact Or.inr ⟨_, hdeliver⟩
    | submitted | quiet | theirs => exact Or.inl rfl

/-- What has happened under an id stays in its history. -/
theorem Joint.Linked.stays {s t : Joint Claims σ γ} (h : s.Linked C)
    (hsteps : Steps (Joint.step C) (Joint.Allowed C) s t) (id : ℕ) {e : Event Claims}
    (he : e ∈ s.tracker.history id) : e ∈ t.tracker.history id := by
  refine hsteps.invariant_with (Joint.Linked C) (fun s => e ∈ s.tracker.history id)
    (fun _ _ _ hs hallowed hstep => hs.step hallowed hstep) (fun s a t hs he _ hstep => ?_) h he
  obtain hsame | ⟨l, hl⟩ := hs.tracker_step hstep
  · rw [hsame]
    exact he
  · obtain ⟨hslot, hothers⟩ := Config.step_slot hs.reachable hl
    show e ∈ (t.tracker.slot id).history
    by_cases hid : id = l.id
    · subst hid
      exact (Slot.step_history _ _ _ hslot).mem he
    · rw [hothers id hid]
      exact he

theorem Joint.Reached.linked {s : Joint Claims σ γ} (h : s.Reached C) : s.Linked C :=
  Steps.invariant (Joint.Linked C) (fun _ _ _ hs hallowed hstep => hs.step hallowed hstep) h .start

end

end Ravl.Tracker
