import Ravl.Http.Responses
import Ravl.Lib.Transition

/-!
# The fetch client (wasm/http_client_fetch.cpp)

A step is a submission, the end of one fetch up to the callback, the end of that callback, or an
erasure. A fetch knows the id and the index it was made for, and nothing stops it: it ends also
after its set was erased. The build has no threads (wasm/CMakeLists.txt), so the lock holds nothing
up: a callback may submit and erase sets, and no fetch ends meanwhile.
-/

namespace Ravl.Http
open ByteLib FallibleLib TransitionLib

/-- What a fetch ends with, its headers taken apart. -/
structure FetchReply where
  status : ℕ
  headers : List (Bytes × Bytes) := []
  data : Bytes := []
  deriving DecidableEq

structure Fetch where
  id : ℕ
  i : ℕ
  url : Bytes
  deriving DecidableEq

structure FetchRequests where
  requests : HTTPRequests
  /-- whether the pointer is set -/
  fetches : List Bool := []
  /-- the submission whose callback it is -/
  callback : Option ℕ := none
  deriving DecidableEq

structure FetchTracker where
  requests : SetMap FetchRequests := ∅
  responses : SetMap (List Entry) := ∅

/-- `response.headers[key] = value` -/
def setHeader (r : HTTPResponse) (header : Bytes × Bytes) : HTTPResponse :=
  { r with headers := header :: r.headers.filter fun h => h.1 ≠ header.1 }

/-- What a fetch that is not retried leaves in the response -/
def storeReply (r : HTTPResponse) (reply : FetchReply) : HTTPResponse :=
  { reply.headers.foldl setHeader { r with status := reply.status } with body := reply.data }

/-- `must_retry`, which looks for the header in what is stored -/
def fetchMustRetry (r : HTTPResponse) (status : ℕ) : Result Bool :=
  if status = 429 then do
    let _ ← r.getHeaderData (text "Retry-After") false
    pure true
  else pure false

/-- The fetches that are made for a set, in order. -/
def makeFetches (id : ℕ) (rs : HTTPRequests) : List Fetch :=
  rs.mapIdx fun i request => ⟨id, i, request.url⟩

namespace FetchTracker
variable (c : FetchTracker)

def put (id : ℕ) (tracked : FetchRequests) (entries : List Entry) : FetchTracker where
  requests := c.requests.insert id tracked
  responses := c.responses.insert id entries

/-- `complete` up to the callback: the tracker as it is then, the fetches it makes, and whom it calls
back with what. An exception ends it where it is thrown. -/
def complete (fetch : Fetch) (reply : FetchReply) :
    FetchTracker × List Fetch × Option (ℕ × List Entry) :=
  match c.requests.lookup fetch.id with
  | none => (c, [], none)
  | some tracked =>
    -- `reqs.at(i)`
    if tracked.requests.length ≤ fetch.i then (c, [], none)
    else
      match c.responses.lookup fetch.id with
      | none => (c, [], none)
      | some entries =>
        let entries := resizeEntries entries tracked.requests.length
        let e := entries.getD fetch.i {}
        match fetchMustRetry e.response reply.status with
        | .error _ => (c.put fetch.id tracked entries, [], none)
        | .ok true =>
          (c.put fetch.id { tracked with fetches := tracked.fetches.set fetch.i true }
            (entries.set fetch.i {}), [fetch], none)
        | .ok false =>
          let fetches := tracked.fetches.set fetch.i false
          let entries := entries.set fetch.i ⟨storeReply e.response reply, some fetch.url⟩
          match tracked.callback, fetches.all (! ·) with
          | some number, true =>
            -- `rs.swap(rsit->second)`
            (c.put fetch.id { tracked with fetches } [], [], some (number, entries))
          | _, _ => (c.put fetch.id { tracked with fetches } entries, [], none)

end FetchTracker

/-! ### Runs -/

structure FetchRun where
  tracker : FetchTracker := {}
  outstanding : List Fetch := []
  /-- the callback that `complete` is in -/
  calling : Option Callback := none
  submissions : List HTTPRequests := []
  history : List Event := []
  undefined : Bool := false

inductive FetchAction
  | submit (rs : HTTPRequests) (callback : Bool)
  | complete (fetch : Fetch) (reply : FetchReply)
  | callbackReturn
  | callbackThrow
  | erase (id : ℕ)

namespace FetchRun
variable (r : FetchRun)

def submit (rs : HTTPRequests) (callback : Bool) : FetchRun :=
  let c := r.tracker
  let number := r.submissions.length
  let id := c.requests.size
  let next := { r with submissions := r.submissions ++ [rs] }
  if id ∈ c.requests then { next with history := .clashed number id :: r.history }
  else if id ∈ c.responses then { next with
    tracker := { c with requests := c.requests.insert id { requests := rs } }
    history := .clashed number id :: r.history }
  else { next with
    tracker := c.put id {
      requests := rs
      fetches := List.replicate rs.length true
      callback := if callback then some number else none } (List.replicate rs.length {})
    outstanding := r.outstanding ++ makeFetches id rs
    history := .submitted number id c.requests.keys :: r.history }

def complete (fetch : Fetch) (reply : FetchReply) : FetchRun :=
  let done := r.tracker.complete fetch reply
  let next := { r with
    tracker := done.1
    outstanding := r.outstanding.erase fetch ++ done.2.1 }
  match done.2.2 with
  | none => next
  | some (number, entries) => { next with
    calling := some ⟨number, fetch.id⟩
    history := .calledBack number entries :: r.history }

/-- What is left of `complete` behind the callback -/
def callbackReturn (call : Callback) : FetchRun :=
  { r with
    tracker := ⟨r.tracker.requests.erase call.id, r.tracker.responses.erase call.id⟩
    calling := none }

/-- `erase`; the record of a set holds the callback, so it must not be destroyed in it. -/
def erase (id : ℕ) : FetchRun :=
  if r.calling.any (·.id = id) then { r with undefined := true }
  else { r with tracker := ⟨r.tracker.requests.erase id, r.tracker.responses.erase id⟩ }

def step (a : FetchAction) : Option FetchRun :=
  if r.undefined then none
  else
    match a with
    | .submit rs callback => some (r.submit rs callback)
    | .complete fetch reply =>
      if r.calling = none ∧ fetch ∈ r.outstanding then some (r.complete fetch reply) else none
    | .callbackReturn => r.calling.map r.callbackReturn
    -- the exception leaves `complete`, and the set is kept
    | .callbackThrow => r.calling.map fun _ => { r with calling := none }
    | .erase id => some (r.erase id)

/-- The number of sets is free as an id, and no fetch made for that id is under way; no set is
erased in its own callback. -/
def Free : FetchAction → Prop
  | .submit _ _ => r.tracker.requests.size ∉ r.tracker.requests ∧
    ∀ fetch ∈ r.outstanding, fetch.id ≠ r.tracker.requests.size
  | .erase id => ∀ call, r.calling = some call → call.id ≠ id
  | _ => True

end FetchRun

end Ravl.Http
