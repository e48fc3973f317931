import Ravl.HttpClient
import Ravl.Options
import Ravl.Lib.Transition
import Mathlib.Logic.Function.Basic

/-!
# The request tracker (request_tracker.h, request_tracker_impl.h)

One step is one operation of the tracker, from its call to its return or to the
point where it calls code outside: the HTTP client's `submit` and the completion
callback. What is left of the operation is then a frame of the request, and any
other step, of this request or of another, may come before the frame is resumed.
The maps are those of the tracker (`requests`, `http_responses`) and of the HTTP
client (the request sets it holds); `history` records, newest first, what
happened under an id. A step through a reference to an erased record, or through
a null pointer, is a fault, after which nothing is known and no step follows.
-/

namespace Ravl.Tracker
open ByteLib FallibleLib TransitionLib

inductive RequestState
  | submitted
  | waitingForEndorsements
  | haveEndorsements
  | finished
  | error
  deriving DecidableEq

/-- The two virtual functions of an attestation that the tracker calls. -/
structure AttestationApi (Claims : Type) where
  prepareEndorsements : Options → Result (Option HTTPRequests)
  verify : Options → Option HTTPResponses → Result Claims

structure Request (Claims : Type) where
  state : RequestState
  options : Options
  attestation : Option (AttestationApi Claims)
  claims : Option Claims := none
  httpClient : Bool
  callback : Bool
  httpRequestSetId : Option ℕ := none

/-- Who called `advance`: a user or `submit`, or the lambda that the HTTP client calls. The
lambda has `left` calls of `advance` to go; `sync` says that the client's `submit` called it. -/
inductive Caller
  | user
  | lambda (left : ℕ) (sync : Bool)
  deriving DecidableEq

/-- A call in progress: `submit` in the HTTP client, the lambda between two calls of
`advance`, or `advance` in the completion callback. -/
inductive Frame
  | client
  | delivery (left : ℕ) (sync : Bool)
  | callback (caller : Caller)
  deriving DecidableEq

/-- What a caller has before it when `advance` returns. -/
def Caller.rest : Caller → List Frame
  | .user => []
  | .lambda left sync => [.delivery left sync]

inductive Fault
  | nullClient
  | erasedRecord
  | undefinedAttestation
  deriving DecidableEq

inductive Event (Claims : Type)
  | submitted (options : Options) (attestation : Option (AttestationApi Claims))
  | requested (requests : HTTPRequests)
  | clientThrew
  | advanced
  | delivered (responses : HTTPResponses)
  | notFound
  | verified (responses : HTTPResponses) (claims : Option Claims)
  | calledBack
  | callbackThrew
  | erased

/-- What the tracker, the HTTP client and the calls in progress keep under one id. -/
structure Slot (Claims : Type) where
  /-- the record in `requests` -/
  request : Option (Request Claims) := none
  /-- the entry in `http_responses` -/
  responses : Option HTTPResponses := none
  /-- the client holds the request set -/
  held : Bool := false
  /-- the client has not called back yet -/
  pending : Bool := false
  frames : List Frame := []
  fault : Option Fault := none
  history : List (Event Claims) := []

section
variable {Claims : Type}

/-! ### The operations on one request -/

def Slot.setRequest (s : Slot Claims) (r : Request Claims) : Slot Claims := { s with request := some r }
def Slot.note (s : Slot Claims) (e : Event Claims) : Slot Claims := { s with history := e :: s.history }
def Slot.enter (s : Slot Claims) (f : Frame) : Slot Claims := { s with frames := f :: s.frames }
def Slot.leave (s : Slot Claims) (f : Frame) : Slot Claims := { s with frames := s.frames.erase f }
def Slot.fail (s : Slot Claims) (f : Fault) : Slot Claims := { s with fault := some f }

/-- `advance` returns. -/
def Slot.back (s : Slot Claims) (caller : Caller) : Slot Claims :=
  { s with frames := caller.rest ++ s.frames }

/-- `catch (std::exception& ex)` in `advance`: the record is written. -/
def Slot.catchException (s : Slot Claims) : Slot Claims :=
  match s.request with
  | none => s.fail .erasedRecord
  | some r => s.setRequest { r with state := .error }

theorem Slot.catchException_none (s : Slot Claims) (hr : s.request = none) :
    s.catchException = s.fail .erasedRecord := by
  unfold Slot.catchException
  rw [hr]

/-- `return req.state` -/
def Slot.readState (s : Slot Claims) : Slot Claims :=
  match s.request with
  | none => s.fail .erasedRecord
  | some _ => s

/-- The case HAVE_ENDORSEMENTS of `advance`: `verify` (request_tracker_impl.h:264-302), then
FINISHED and the completion callback. -/
def Slot.verify (s : Slot Claims) (r : Request Claims) (caller : Caller) : Slot Claims :=
  match r.attestation with
  | none => (s.setRequest { r with state := .error }).back caller
  | some attestation =>
    let responses := s.responses.getD []
    match attestation.verify r.options (some responses) with
    | .ok claims =>
      let s := ({ s with responses := none }.setRequest
        { r with claims := some claims, state := .finished }).note (.verified responses (some claims))
      if r.callback then (s.note .calledBack).enter (.callback caller) else s.back caller
    | .error (.exception _) =>
      (({ s with responses := none }.setRequest { r with state := .error }).note
        (.verified responses none)).back caller
    | .error (.undefined _) => s.fail .undefinedAttestation

/-- The case SUBMITTED of `advance`: `prepare_endorsements` (request_tracker_impl.h:200-262) and,
if nothing is to be downloaded, the next case. Only `submit` finds a request in this state. -/
def Slot.prepareEndorsements (s : Slot Claims) (r : Request Claims) (caller : Caller) :
    Slot Claims :=
  let r := { r with state := .waitingForEndorsements }
  let s := s.setRequest r
  match r.attestation with
  | none => (s.setRequest { r with state := .error }).back caller
  | some attestation =>
    match attestation.prepareEndorsements r.options with
    | .error (.exception _) => (s.setRequest { r with state := .error }).back caller
    | .error (.undefined _) => s.fail .undefinedAttestation
    | .ok none =>
      let r := { r with state := .haveEndorsements }
      (s.setRequest r).verify r caller
    | .ok (some requests) =>
      let s := s.note (.requested requests)
      if r.httpClient then { s with held := true, pending := true }.enter .client
      else s.fail .nullClient

/-- `advance(id, req)` (request_tracker_impl.h:107-145) -/
def Slot.advance (s : Slot Claims) (r : Request Claims) (caller : Caller) : Slot Claims :=
  match r.state with
  | .error => (s.setRequest { r with state := .error }).back caller
  | .submitted => s.prepareEndorsements r caller
  | .waitingForEndorsements => (s.setRequest { r with state := .haveEndorsements }).back caller
  | .haveEndorsements => s.verify r caller
  | .finished => s.back caller

/-- `submit` (request_tracker_impl.h:63-92) of a new id -/
def Slot.submit (s : Slot Claims) (options : Options) (attestation : Option (AttestationApi Claims))
    (httpClient callback : Bool) : Slot Claims :=
  let r : Request Claims := { state := .submitted, options, attestation, httpClient, callback }
  ((s.setRequest r).note (.submitted options attestation)).advance r .user

/-- The public `advance(id)` (request_tracker_impl.h:186-198); an unknown id throws. -/
def Slot.publicAdvance (s : Slot Claims) : Slot Claims :=
  match s.request with
  | none => s
  | some r => (s.note .advanced).advance r .user

/-- `erase` (request_tracker_impl.h:173-184); `trackerClient` is the tracker's own HTTP client. -/
def Slot.erase (trackerClient : Bool) (s : Slot Claims) : Slot Claims :=
  match s.request with
  | none => s
  | some r =>
    let s := if trackerClient ∧ r.httpRequestSetId ≠ none then
      { s with held := false, pending := false } else s
    { s with request := none }.note .erased

/-- An exception leaves the lambda. Called by the client's `submit`, it goes on to `advance`,
which catches a `std::exception`; else it is the client's. -/
def Slot.lambdaThrows (s : Slot Claims) (isStd sync : Bool) : Slot Claims :=
  if sync ∧ isStd then s.catchException else s

/-- The lambda (request_tracker_impl.h:247-256) up to its first call of `advance` -/
def Slot.deliver (s : Slot Claims) (responses : HTTPResponses) (sync : Bool) : Slot Claims :=
  let s := { s with pending := false }.note (.delivered responses)
  match s.responses with
  | some _ => s.lambdaThrows true sync
  | none => { s with responses := some responses }.enter (.delivery 2 sync)

/-- The lambda goes on: it advances, or it returns to the client. An asynchronous client then
drops the request set, a synchronous one goes on in `submit`. -/
def Slot.proceed (s : Slot Claims) (left : ℕ) (sync : Bool) : Slot Claims :=
  match left with
  | 0 => if sync then s.enter .client else { s with held := false }
  | left + 1 =>
    match s.request with
    | none => (s.note .notFound).lambdaThrows true sync
    | some r => s.advance r (.lambda left sync)

/-- The client's `submit` returned: `request.http_request_set_id = ...; return req.state;` -/
def Slot.clientReturn (s : Slot Claims) (set : ℕ) : Slot Claims :=
  match s.request with
  | none => s.fail .erasedRecord
  | some r => s.setRequest { r with httpRequestSetId := some set }

/-- The completion callback throws: `advance` catches a `std::exception` and returns to its
caller, anything else goes through both. -/
def Slot.callbackThrow (s : Slot Claims) (caller : Caller) : Bool → Slot Claims
  | true => (s.note .callbackThrew).catchException.back caller
  | false =>
    match caller with
    | .user => s
    | .lambda _ sync => s.lambdaThrows false sync

/-! ### Steps -/

inductive Action (Claims : Type)
  | submit (options : Options) (attestation : Option (AttestationApi Claims))
      (httpClient callback : Bool)
  | advance
  | erase
  | deliver (responses : HTTPResponses)
  | clientDeliver (responses : HTTPResponses)
  | clientReturn (set : ℕ)
  | clientThrow
  | proceed (left : ℕ) (sync : Bool)
  | callbackReturn (caller : Caller)
  | callbackThrow (caller : Caller) (isStd : Bool)

def guarded {α : Type} (c : Prop) [Decidable c] (a : α) : Option α := if c then some a else none

theorem guarded_some {α : Type} (c : Prop) [Decidable c] (a b : α) :
    guarded c a = some b ↔ c ∧ a = b := by
  unfold guarded
  split <;> simp_all

/-- One step of one request. The client calls back once; its `submit` throws only before that. -/
def Slot.step (trackerClient : Bool) (s : Slot Claims) : Action Claims → Option (Slot Claims)
  | .submit options attestation httpClient callback =>
    some (s.submit options attestation httpClient callback)
  | .advance => some s.publicAdvance
  | .erase => some (s.erase trackerClient)
  | .deliver responses => guarded (s.pending = true) (s.deliver responses false)
  | .clientDeliver responses => guarded (s.pending = true ∧ .client ∈ s.frames)
      ((s.leave .client).deliver responses true)
  | .clientReturn set => guarded (.client ∈ s.frames) ((s.leave .client).clientReturn set)
  | .clientThrow => guarded (s.pending = true ∧ .client ∈ s.frames)
      ({ s.leave .client with pending := false }.note .clientThrew).catchException
  | .proceed left sync => guarded (.delivery left sync ∈ s.frames)
      ((s.leave (.delivery left sync)).proceed left sync)
  | .callbackReturn caller => guarded (.callback caller ∈ s.frames)
      ((s.leave (.callback caller)).readState.back caller)
  | .callbackThrow caller isStd => guarded (.callback caller ∈ s.frames)
      ((s.leave (.callback caller)).callbackThrow caller isStd)

/-! ### The tracker -/

structure Config (Claims : Type) where
  requests : ℕ → Option (Request Claims) := fun _ => none
  /-- never assigned in the source -/
  httpClient : Bool := false
  nextRequestId : ℕ := 0
  httpResponses : ℕ → Option HTTPResponses := fun _ => none
  held : ℕ → Bool := fun _ => false
  pending : ℕ → Bool := fun _ => false
  frames : ℕ → List Frame := fun _ => []
  fault : ℕ → Option Fault := fun _ => none
  history : ℕ → List (Event Claims) := fun _ => []
  stopped : Bool := false

def Config.slot (c : Config Claims) (id : ℕ) : Slot Claims where
  request := c.requests id
  responses := c.httpResponses id
  held := c.held id
  pending := c.pending id
  frames := c.frames id
  fault := c.fault id
  history := c.history id

def Config.put (c : Config Claims) (id : ℕ) (s : Slot Claims) : Config Claims :=
  { c with
    requests := Function.update c.requests id s.request
    httpResponses := Function.update c.httpResponses id s.responses
    held := Function.update c.held id s.held
    pending := Function.update c.pending id s.pending
    frames := Function.update c.frames id s.frames
    fault := Function.update c.fault id s.fault
    history := Function.update c.history id s.history
    stopped := s.fault.isSome }

@[simp] theorem Config.slot_put_self (c : Config Claims) (id : ℕ) (s : Slot Claims) :
    (c.put id s).slot id = s := by
  simp [Config.slot, Config.put]

theorem Config.slot_put_other (c : Config Claims) (id id' : ℕ) (s : Slot Claims)
    (h : id' ≠ id) : (c.put id s).slot id' = c.slot id' := by
  simp [Config.slot, Config.put, Function.update_of_ne h]

structure Label (Claims : Type) where
  id : ℕ
  action : Action Claims

/-- The id that a step uses up: `next_request_id++`. -/
def Config.nextAfter (c : Config Claims) : Action Claims → ℕ
  | .submit _ _ _ _ => c.nextRequestId + 1
  | _ => c.nextRequestId

/-- `submit` gets the next id, every other step may be about any id. -/
def Config.allows (c : Config Claims) (l : Label Claims) : Bool :=
  match l.action with
  | .submit _ _ _ _ => l.id = c.nextRequestId
  | _ => true

def Config.step (c : Config Claims) (l : Label Claims) : Option (Config Claims) :=
  if c.stopped = false ∧ c.allows l then
    ((c.slot l.id).step c.httpClient l.action).map fun s =>
      { c with nextRequestId := c.nextAfter l.action }.put l.id s
  else none

/-- `state(id)` (request_tracker_impl.h:94-103) -/
def stateOf : Option (Request Claims) → RequestState
  | none => .error
  | some r => r.state

/-- `result(id)` (request_tracker_impl.h:158-171) -/
def resultOf : Option (Request Claims) → Result Claims
  | none => throw (.exception "no such attestation verification request")
  | some r => do
    refuse (r.state ≠ .finished) (.exception "attestation verification request not finished")
    orThrow r.claims (.exception "claim extraction failed")

def Config.state (c : Config Claims) (id : ℕ) : RequestState := stateOf (c.requests id)
def Config.result (c : Config Claims) (id : ℕ) : Result Claims := resultOf (c.requests id)

/-- Every configuration a new tracker gets into. -/
def Reachable (c : Config Claims) : Prop := Steps Config.step Any {} c

end

end Ravl.Tracker
