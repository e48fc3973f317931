import Ravl.Http.Synchronous
import Ravl.Platforms
import Ravl.Tracker.Request

/-!
# The two synchronous entry points (ravl_impl.h)

`verify_synchronous` is straight-line code. `verify_synchronized` gives the same work to a new
tracker, whose `submit` re-enters the tracker through the HTTP client's callback, and polls the
state of the request. The calls in progress are the frames of the tracker's model; here they are
resumed one after the other, the innermost first.
-/

namespace Ravl
open ByteLib FallibleLib Tracker
open Http (Server SynchronousHTTPClient Entry)

def clientFor (options : Options) : SynchronousHTTPClient where
  requestTimeout := options.httpTimeout
  maxAttempts := options.httpMaxAttempts

section
variable {X509 Crl Pkey : Type} (p : Platform X509 Crl Pkey) (server : Server)

def verifySynchronous (attestation : AttestationObject) (options : Options) : Result PlatformClaims :=
  match attestation.prepareEndorsements p options with
  | (.error e, _) => .error e
  | (.ok none, attestation) => (attestation.verify p options none).1
  | (.ok (some requests), attestation) =>
    match ((clientFor options).execute server requests []).1 with
    | .error e => .error e
    | .ok (_, entries) => (attestation.verify p options (some (entries.map Entry.response))).1

/-! ### `verify_synchronized` -/

/-- The attestation as the tracker calls it: `verify` finds the object as `prepare_endorsements`
left it. -/
def AttestationObject.api (attestation : AttestationObject) : AttestationApi PlatformClaims where
  prepareEndorsements options := (attestation.prepareEndorsements p options).1
  verify options httpResponses :=
    ((attestation.prepareEndorsements p options).2.verify p options httpResponses).1

variable {Claims : Type}

/-- The requests that the HTTP client was given last -/
def requestedIn : List (Event Claims) → HTTPRequests
  | [] => []
  | .requested requests :: _ => requests
  | _ :: older => requestedIn older

def Event.isAdvanced : Event Claims → Bool
  | .advanced => true
  | _ => false

/-- What the innermost call in progress does next. The client executes the requests before it
calls back; the completion callback calls `advance` once. -/
def nextAction (client : SynchronousHTTPClient) (s : Slot Claims) : Option (Action Claims) :=
  match s.frames with
  | [] => none
  | .client :: _ =>
    if s.pending then
      match (client.execute server (requestedIn s.history) []).1 with
      | .ok (_, entries) => some (.clientDeliver (entries.map Entry.response))
      | .error (.exception _) => some .clientThrow
      | .error (.undefined _) => none
    else some (.clientReturn client.requestSets.size)
  | .delivery left sync :: _ => some (.proceed left sync)
  | .callback caller :: _ =>
    if s.history.countP Event.isAdvanced < callbackCalls s.history then some .advance
    else some (.callbackReturn caller)

/-- The calls in progress for the tracker's first request are resumed until none is left;
`some (none)` is undefined behaviour. -/
def settle (client : SynchronousHTTPClient) : ℕ → Config Claims → Option (Option (Config Claims))
  | 0, _ => none
  | fuel + 1, c =>
    if c.stopped then some none
    else if c.frames 0 = [] then some (some c)
    else
      match (nextAction server client (c.slot 0)).bind fun action => c.step ⟨0, action⟩ with
      | none => some none
      | some c => settle client fuel c

/-- The polling loop; nothing changes the state while it sleeps. -/
def poll : ℕ → Config Claims → Option (Config Claims)
  | 0, _ => none
  | fuel + 1, c => if c.state 0 = .finished ∨ c.state 0 = .error then some c else poll fuel c

/-- `none`: not ended after so many rounds. The `erase` at the end removes the record of a tracker
that nobody uses any more; it is left out. -/
def verifySynchronized (attestation : AttestationObject) (options : Options)
    (client : SynchronousHTTPClient) (fuel : ℕ) : Option (Result PlatformClaims) := do
  let submitted ← ({} : Config PlatformClaims).step
    ⟨0, .submit options (some (attestation.api p)) true true⟩
  match ← settle server client fuel submitted with
  | none => some (.error (.undefined "submit"))
  | some c => do
    let c ← poll fuel c
    if c.state 0 = .error then some (.error (.exception "error"))
    else some (c.result 0)

/-! ### The calls in progress, seen from the request -/

/-- `settle`, for the slot of the request alone -/
def settleSlot (client : SynchronousHTTPClient) :
    ℕ → Slot Claims → Option (Option (Slot Claims))
  | 0, _ => none
  | fuel + 1, s =>
    if s.fault.isSome then some none
    else if s.frames = [] then some (some s)
    else
      match (nextAction server client s).bind (s.step false) with
      | none => some none
      | some s => settleSlot client fuel s

theorem nextAction_no_submit (client : SynchronousHTTPClient) (s : Slot Claims) (a : Action Claims)
    (h : nextAction server client s = some a) (options : Options)
    (attestation : Option (AttestationApi Claims)) (httpClient callback : Bool) :
    a ≠ .submit options attestation httpClient callback := by
  intro heq
  subst heq
  unfold nextAction at h
  split at h
  · cases h
  · split at h
    · split at h <;> cases h
    · cases h
  · cases h
  · split at h <;> cases h

theorem settle_slot (client : SynchronousHTTPClient) (fuel : ℕ) (c : Config Claims)
    (hclient : c.httpClient = false) (hstopped : c.stopped = (c.slot 0).fault.isSome) :
    (settle server client fuel c).map (·.map (·.slot 0)) = settleSlot server client fuel (c.slot 0) := by
  induction fuel generalizing c with
  | zero => rfl
  | succ fuel ih =>
    unfold settle settleSlot
    rw [← hstopped]
    cases hstop : c.stopped with
    | true =>
      rw [if_pos rfl, if_pos rfl]
      rfl
    | false =>
      rw [if_neg Bool.false_ne_true, if_neg Bool.false_ne_true]
      have hframes : (c.slot 0).frames = c.frames 0 := rfl
      rw [hframes]
      by_cases hidle : c.frames 0 = []
      · rw [if_pos hidle, if_pos hidle]
        rfl
      · rw [if_neg hidle, if_neg hidle]
        cases hnext : nextAction server client (c.slot 0) with
        | none => rfl
        | some a =>
          have hno := nextAction_no_submit server client (c.slot 0) a hnext
          have hallows : c.allows ⟨0, a⟩ = true := by
            cases a with
            | submit o t k b => exact absurd rfl (hno o t k b)
            | _ => rfl
          have hconfig : c.step ⟨0, a⟩ = ((c.slot 0).step c.httpClient a).map fun s =>
              { c with nextRequestId := c.nextAfter a }.put 0 s := if_pos ⟨hstop, hallows⟩
          have hslot : (c.slot 0).step c.httpClient a = (c.slot 0).step false a := by rw [hclient]
          rw [Option.bind_some, Option.bind_some, hconfig, hslot]
          cases hstep : (c.slot 0).step false a with
          | none => rfl
          | some s =>
            dsimp only [Option.map_some]
            have hrest := ih ({ c with nextRequestId := c.nextAfter a }.put 0 s) hclient (by
              rw [Config.slot_put_self]
              rfl)
            rw [Config.slot_put_self] at hrest
            exact hrest

theorem settleSlot_step (client : SynchronousHTTPClient) {s t : Slot Claims} {a : Action Claims}
    (hfault : s.fault = none) (hbusy : s.frames ≠ []) (hnext : nextAction server client s = some a)
    (hstep : s.step false a = some t) (fuel : ℕ) :
    settleSlot server client (fuel + 1) s = settleSlot server client fuel t := by
  rw [settleSlot, hfault, if_neg (by simp), if_neg hbusy, hnext, Option.bind_some, hstep]

theorem settleSlot_idle (client : SynchronousHTTPClient) {s : Slot Claims} (hfault : s.fault = none)
    (hidle : s.frames = []) (fuel : ℕ) : settleSlot server client (fuel + 1) s = some (some s) := by
  rw [settleSlot, hfault, if_neg (by simp), if_pos hidle]

theorem settleSlot_fault (client : SynchronousHTTPClient) {s : Slot Claims}
    (hfault : s.fault.isSome = true) (fuel : ℕ) :
    settleSlot server client (fuel + 1) s = some none := by
  rw [settleSlot, if_pos hfault]

theorem settleSlot_callback (client : SynchronousHTTPClient) {s : Slot Claims} {r : Request Claims}
    {caller : Caller} (hfault : s.fault = none) (hrequest : s.request = some r)
    (hfinished : r.state = .finished) (hframes : s.frames = [.callback caller])
    (hadvanced : s.history.countP Event.isAdvanced = 0) (hcalled : callbackCalls s.history = 1)
    (fuel : ℕ) :
    settleSlot server client (fuel + 2) s = settleSlot server client fuel
      { s with history := .advanced :: s.history, frames := caller.rest } := by
  have hfirst : nextAction server client s = some .advance := by
    unfold nextAction
    rw [hframes]
    dsimp only
    rw [hadvanced, hcalled, if_pos Nat.zero_lt_one]
  have hadvance : s.step false .advance = some { s with history := .advanced :: s.history } := by
    simp only [Slot.step, Slot.publicAdvance, hrequest, Slot.advance, hfinished, Slot.note, Slot.back,
      Caller.rest, List.nil_append]
  have hsecond : nextAction server client { s with history := .advanced :: s.history } =
      some (.callbackReturn caller) := by
    unfold nextAction
    dsimp only
    rw [hframes]
    dsimp only
    have hmore : (Event.advanced :: s.history).countP Event.isAdvanced = 1 := by
      rw [List.countP_cons, hadvanced]
      rfl
    have hsame : callbackCalls (Event.advanced :: s.history) = 1 := by
      rw [← hcalled, callbackCalls, callbackCalls, List.countP_cons]
      rfl
    rw [hmore, hsame, if_neg (lt_irrefl 1)]
  have hreturn : Slot.step false { s with history := .advanced :: s.history } (.callbackReturn caller) =
      some { s with history := .advanced :: s.history, frames := caller.rest } := by
    simp [Slot.step, guarded, Slot.leave, Slot.readState, Slot.back, hframes, hrequest]
  rw [settleSlot_step server client hfault (by rw [hframes]; exact List.cons_ne_nil _ _) hfirst hadvance,
    settleSlot_step server client (s := { s with history := .advanced :: s.history }) hfault
      (by dsimp only; rw [hframes]; exact List.cons_ne_nil _ _) hsecond hreturn]

/-- The calls ended with what straight-line code would have returned: the claims are in the
request, or the request is in error (or the behaviour undefined). -/
def Settled (out : Option (Slot Claims)) : Result Claims → Prop
  | .ok claims => ∃ s r, out = some s ∧ s.request = some r ∧ r.state = .finished ∧
      r.claims = some claims
  | .error _ => out = none ∨ ∃ s r, out = some s ∧ s.request = some r ∧ r.state = .error

theorem settleSlot_return (client : SynchronousHTTPClient) {s : Slot Claims} {r : Request Claims}
    (caller : Caller) (hfault : s.fault = none) (hrequest : s.request = some r)
    (hpending : s.pending = false) (hframes : s.frames = caller.rest)
    (hcaller : caller = .user ∨ caller = .lambda 0 true) :
    ∃ t r', (∀ fuel, settleSlot server client (fuel + 3) s = some (some t)) ∧
      t.request = some r' ∧ r'.state = r.state ∧ r'.claims = r.claims := by
  obtain rfl | rfl := hcaller
  · exact ⟨s, r, fun fuel => settleSlot_idle server client hfault hframes _, hrequest, rfl, rfl⟩
  · have hnext : nextAction server client s = some (.proceed 0 true) := by
      unfold nextAction
      rw [hframes]
      rfl
    have hproceed : s.step false (.proceed 0 true) = some { s with frames := [.client] } := by
      simp [Slot.step, guarded, Slot.leave, Slot.proceed, Slot.enter, hframes, Caller.rest]
    have hlast : nextAction server client { s with frames := [.client] } =
        some (.clientReturn client.requestSets.size) := by
      simp [nextAction, hpending]
    have hreturn : Slot.step false { s with frames := [.client] }
        (.clientReturn client.requestSets.size) = some { s with
          frames := []
          request := some { r with httpRequestSetId := some client.requestSets.size } } := by
      simp [Slot.step, guarded, Slot.leave, Slot.clientReturn, Slot.setRequest, hrequest]
    refine ⟨{ s with
      frames := []
      request := some { r with httpRequestSetId := some client.requestSets.size } }, _, fun fuel => ?_,
      rfl, rfl, rfl⟩
    rw [settleSlot_step server client hfault (by rw [hframes]; exact List.cons_ne_nil _ _) hnext hproceed,
      settleSlot_step server client (s := { s with frames := [.client] }) hfault
        (List.cons_ne_nil _ _) hlast hreturn]
    exact settleSlot_idle server client (s := { s with
      frames := []
      request := some { r with httpRequestSetId := some client.requestSets.size } }) hfault rfl fuel

theorem Slot.verify_ok {s : Slot Claims} {r : Request Claims} {api : AttestationApi Claims}
    {caller : Caller} {claims : Claims} (hattestation : r.attestation = some api)
    (hcallback : r.callback = true)
    (hverify : api.verify r.options (some (s.responses.getD [])) = .ok claims) :
    s.verify r caller = { s with
      responses := none
      request := some { r with claims := some claims, state := .finished }
      history := .calledBack :: .verified (s.responses.getD []) (some claims) :: s.history
      frames := .callback caller :: s.frames } := by
  unfold Slot.verify
  rw [hattestation]
  dsimp only
  rw [hverify]
  exact if_pos hcallback

theorem Slot.verify_exception {s : Slot Claims} {r : Request Claims} {api : AttestationApi Claims}
    {caller : Caller} {what : String} (hattestation : r.attestation = some api)
    (hverify : api.verify r.options (some (s.responses.getD [])) = .error (.exception what)) :
    s.verify r caller = { s with
      responses := none
      request := some { r with state := .error }
      history := .verified (s.responses.getD []) none :: s.history
      frames := caller.rest ++ s.frames } := by
  unfold Slot.verify
  rw [hattestation]
  dsimp only
  rw [hverify]
  rfl

theorem Slot.verify_undefined {s : Slot Claims} {r : Request Claims} {api : AttestationApi Claims}
    {caller : Caller} {what : String} (hattestation : r.attestation = some api)
    (hverify : api.verify r.options (some (s.responses.getD [])) = .error (.undefined what)) :
    s.verify r caller = s.fail .undefinedAttestation := by
  unfold Slot.verify
  rw [hattestation]
  dsimp only
  rw [hverify]

theorem settleSlot_verify (client : SynchronousHTTPClient) {s : Slot Claims} {r : Request Claims}
    {api : AttestationApi Claims} (caller : Caller) (hfault : s.fault = none)
    (hpending : s.pending = false) (hframes : s.frames = [])
    (hattestation : r.attestation = some api) (hcallback : r.callback = true)
    (hcaller : caller = .user ∨ caller = .lambda 0 true)
    (hadvanced : s.history.countP Event.isAdvanced = 0) (hcalled : callbackCalls s.history = 0) :
    ∃ out, (∀ fuel, settleSlot server client (fuel + 5) (s.verify r caller) = some out) ∧
      Settled out (api.verify r.options (some (s.responses.getD []))) := by
  cases hverify : api.verify r.options (some (s.responses.getD [])) with
  | ok claims =>
    rw [Slot.verify_ok hattestation hcallback hverify, hframes]
    obtain ⟨t, r', hsettle, hrequest, hstate, hclaims⟩ := settleSlot_return server client caller
      (s := { s with
        responses := none
        request := some { r with claims := some claims, state := .finished }
        history := .advanced :: .calledBack ::
          .verified (s.responses.getD []) (some claims) :: s.history
        frames := caller.rest }) hfault rfl hpending rfl hcaller
    refine ⟨some t, fun fuel => ?_, t, r', rfl, hrequest, hstate, hclaims⟩
    have hcallbackCalls : callbackCalls (.calledBack ::
        .verified (s.responses.getD []) (some claims) :: s.history) = 1 := by
      unfold callbackCalls at hcalled ⊢
      rw [List.countP_cons, List.countP_cons, hcalled]
      rfl
    have hadvances : (Event.calledBack ::
        .verified (s.responses.getD []) (some claims) :: s.history).countP Event.isAdvanced = 0 := by
      rw [List.countP_cons, List.countP_cons, hadvanced]
      rfl
    have hcallbacks := settleSlot_callback server client (s := { s with
        responses := none
        request := some { r with claims := some claims, state := .finished }
        history := .calledBack :: .verified (s.responses.getD []) (some claims) :: s.history
        frames := [.callback caller] }) hfault rfl rfl rfl hadvances hcallbackCalls (fuel + 3)
    exact hcallbacks.trans (hsettle fuel)
  | error e =>
    cases e with
    | exception what =>
      rw [Slot.verify_exception hattestation hverify, hframes, List.append_nil]
      obtain ⟨t, r', hsettle, hrequest, hstate, -⟩ := settleSlot_return server client caller
        (s := { s with
          responses := none
          request := some { r with state := .error }
          history := .verified (s.responses.getD []) none :: s.history
          frames := caller.rest }) hfault rfl hpending rfl hcaller
      exact ⟨some t, fun fuel => hsettle (fuel + 2), Or.inr ⟨t, r', rfl, hrequest, hstate⟩⟩
    | undefined what =>
      rw [Slot.verify_undefined hattestation hverify]
      exact ⟨none, fun fuel => settleSlot_fault server client rfl _, Or.inl rfl⟩

/-- The same work in straight-line code, except that no responses are passed as an empty list. -/
def workThrough (client : SynchronousHTTPClient) (api : AttestationApi Claims) (options : Options) :
    Result Claims :=
  match api.prepareEndorsements options with
  | .error e => .error e
  | .ok none => api.verify options (some [])
  | .ok (some requests) =>
    match (client.execute server requests []).1 with
    | .error e => .error e
    | .ok (_, entries) => api.verify options (some (entries.map Entry.response))

/-- The record of the request in its states before the last one. -/
def awaited (state : RequestState) (options : Options) (api : AttestationApi Claims) :
    Request Claims where
  state := state
  options := options
  attestation := some api
  httpClient := true
  callback := true

/-- `submit` has called the HTTP client. -/
def awaiting (options : Options) (api : AttestationApi Claims) (requests : HTTPRequests) :
    Slot Claims where
  request := some (awaited .waitingForEndorsements options api)
  held := true
  pending := true
  frames := [.client]
  history := [.requested requests, .submitted options (some api)]

def delivering (state : RequestState) (options : Options) (api : AttestationApi Claims)
    (requests : HTTPRequests) (responses : HTTPResponses) (frames : List Frame) : Slot Claims where
  request := some (awaited state options api)
  responses := some responses
  held := true
  frames := frames
  history := [.delivered responses, .requested requests, .submitted options (some api)]

theorem settleSlot_download (client : SynchronousHTTPClient) (api : AttestationApi Claims)
    (options : Options) (requests : HTTPRequests) :
    ∃ out, (∀ fuel, settleSlot server client (fuel + 9) (awaiting options api requests) = some out) ∧
      Settled out (match (client.execute server requests []).1 with
        | .error e => .error e
        | .ok (_, entries) => api.verify options (some (entries.map Entry.response))) := by
  cases hexecute : (client.execute server requests []).1 with
  | error e =>
    cases e with
    | exception what =>
      have hnext : nextAction server client (awaiting options api requests) = some .clientThrow := by
        simp only [nextAction, awaiting, requestedIn, if_true, hexecute]
      refine ⟨_, fun fuel => (settleSlot_step server client rfl (List.cons_ne_nil _ _) hnext rfl _).trans
        (settleSlot_idle server client rfl rfl _), Or.inr ⟨_, _, rfl, rfl, rfl⟩⟩
    | undefined what =>
      have hnext : nextAction server client (awaiting options api requests) = none := by
        simp only [nextAction, awaiting, requestedIn, if_true, hexecute]
      refine ⟨none, fun fuel => ?_, Or.inl rfl⟩
      rw [settleSlot, hnext]
      rfl
  | ok delivered =>
    obtain ⟨id, entries⟩ := delivered
    have hnext : nextAction server client (awaiting options api requests) =
        some (.clientDeliver (entries.map Entry.response)) := by
      simp only [nextAction, awaiting, requestedIn, if_true, hexecute]
    -- the two calls of `advance` in the lambda; the second one verifies
    obtain ⟨out, hout, hsettled⟩ := settleSlot_verify server client (.lambda 0 true)
      (s := delivering .haveEndorsements options api requests (entries.map Entry.response) [])
      (r := awaited .haveEndorsements options api) rfl rfl rfl rfl rfl
      (Or.inr rfl) rfl rfl
    refine ⟨out, fun fuel => ?_, hsettled⟩
    have hdeliver := settleSlot_step server client rfl (List.cons_ne_nil _ _) hnext rfl (fuel + 8)
    have hfirst := settleSlot_step server client
      (s := delivering .waitingForEndorsements options api requests (entries.map Entry.response)
        [.delivery 2 true])
      (a := .proceed 2 true) rfl (List.cons_ne_nil _ _) rfl rfl (fuel + 7)
    have hsecond := settleSlot_step server client
      (s := delivering .haveEndorsements options api requests (entries.map Entry.response)
        [.delivery 1 true])
      (a := .proceed 1 true) rfl (List.cons_ne_nil _ _) rfl rfl (fuel + 6)
    exact hdeliver.trans (hfirst.trans (hsecond.trans (hout (fuel + 1))))

theorem settleSlot_submit (client : SynchronousHTTPClient) (api : AttestationApi Claims)
    (options : Options) :
    ∃ out, (∀ fuel, settleSlot server client (fuel + 9)
        (({} : Slot Claims).submit options (some api) true true) = some out) ∧
      Settled out (workThrough server client api options) := by
  have hsubmit : ({} : Slot Claims).submit options (some api) true true =
      Slot.prepareEndorsements
        { request := some (awaited .submitted options api), history := [.submitted options (some api)] }
        (awaited .submitted options api) .user := rfl
  rw [hsubmit]
  unfold workThrough Slot.prepareEndorsements
  dsimp only [awaited]
  cases hprepare : api.prepareEndorsements options with
  | error e =>
    cases e with
    | exception what =>
      exact ⟨_, fun fuel => settleSlot_idle server client rfl rfl _, Or.inr ⟨_, _, rfl, rfl, rfl⟩⟩
    | undefined what => exact ⟨none, fun fuel => settleSlot_fault server client rfl _, Or.inl rfl⟩
  | ok requests =>
    cases requests with
    | none =>
      obtain ⟨out, hout, hsettled⟩ := settleSlot_verify server client .user
        (s := { request := some (awaited .haveEndorsements options api),
                history := [.submitted options (some api)] })
        (r := awaited .haveEndorsements options api) rfl rfl rfl rfl rfl (Or.inl rfl)
        rfl rfl
      exact ⟨out, fun fuel => hout (fuel + 4), hsettled⟩
    | some requests =>
      exact settleSlot_download server client api options requests

/-! ### The two entry points agree -/

/-- What `verify_synchronized` makes of the request it has settled. -/
def endOf : Option (Slot Claims) → Result Claims
  | none => .error (.undefined "submit")
  | some s => if stateOf s.request = .error then .error (.exception "error") else resultOf s.request

theorem Settled.endOf_toOption {out : Option (Slot Claims)} {r : Result Claims} (h : Settled out r) :
    (endOf out).toOption = r.toOption := by
  cases r with
  | ok claims =>
    obtain ⟨s, r, rfl, hrequest, hstate, hclaims⟩ := h
    have hended : endOf (some s) = .ok claims := by
      unfold endOf
      dsimp only
      rw [hrequest, stateOf, hstate, if_neg (by decide), resultOf, hstate, hclaims]
      rfl
    rw [hended]
  | error e =>
    obtain rfl | ⟨s, r, rfl, hrequest, hstate⟩ := h
    · rfl
    · have hended : endOf (some s) = .error (.exception "error") := by
        unfold endOf
        dsimp only
        rw [hrequest, stateOf, hstate, if_pos rfl]
      rw [hended]
      rfl

theorem Settled.completed {s : Slot Claims} {r : Result Claims} (h : Settled (some s) r) :
    stateOf s.request = .finished ∨ stateOf s.request = .error := by
  cases r with
  | ok claims =>
    obtain ⟨t, r, hs, hrequest, hstate, -⟩ := h
    cases hs
    left
    rw [hrequest, stateOf, hstate]
  | error e =>
    obtain hs | ⟨t, r, hs, hrequest, hstate⟩ := h
    · cases hs
    · cases hs
      right
      rw [hrequest, stateOf, hstate]

theorem workThrough_synchronous (attestation : AttestationObject) (options : Options) :
    workThrough server (clientFor options) (attestation.api p) options =
      verifySynchronous p server attestation options := by
  unfold workThrough verifySynchronous AttestationObject.api
  dsimp only
  have hnil := attestation.verify_some_nil (p := p) options
  cases hprepare : attestation.prepareEndorsements p options with
  | mk prepared left =>
    rw [hprepare] at hnil
    cases prepared with
    | error e => rfl
    | ok requests =>
      cases requests with
      | none => exact hnil rfl
      | some requests => rfl

theorem verify_synchronized_agrees (attestation : AttestationObject) (options : Options) :
    ∃ n r, (∀ fuel, verifySynchronized p server attestation options (clientFor options) (fuel + n) =
        some r) ∧
      r.toOption = (verifySynchronous p server attestation options).toOption := by
  obtain ⟨out, hout, hsettled⟩ :=
    settleSlot_submit server (clientFor options) (attestation.api p) options
  rw [workThrough_synchronous] at hsettled
  refine ⟨9, endOf out, fun fuel => ?_, hsettled.endOf_toOption⟩
  let submitted : Slot PlatformClaims := ({} : Slot PlatformClaims).submit options
    (some (attestation.api p)) true true
  let c : Config PlatformClaims := { nextRequestId := 1 : Config PlatformClaims }.put 0 submitted
  have hsubmit : ({} : Config PlatformClaims).step
      ⟨0, .submit options (some (attestation.api p)) true true⟩ = some c := rfl
  have hslot : c.slot 0 = submitted := Config.slot_put_self _ _ _
  have hmap := settle_slot server (clientFor options) (fuel + 9) c rfl (by rw [hslot]; rfl)
  rw [hslot, hout fuel, Option.map_eq_some_iff] at hmap
  obtain ⟨settled, hsettle, hend⟩ := hmap
  unfold verifySynchronized
  rw [hsubmit, Option.bind_eq_bind, Option.bind_some, hsettle, Option.bind_eq_bind, Option.bind_some]
  cases settled with
  | none =>
    cases hend
    rfl
  | some d =>
    cases hend
    have hdone : d.state 0 = .finished ∨ d.state 0 = .error := hsettled.completed
    have hpoll : poll (fuel + 9) d = some d := if_pos hdone
    dsimp only
    rw [hpoll, Option.bind_some]
    exact (apply_ite some _ _ _).symm

end

end Ravl
