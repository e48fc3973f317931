import Ravl.Tracker.Soundness
import Ravl.Sgx.Soundness
import Ravl.Sgx.Requests
import Ravl.SevSnp

/-!
# What the tracker's results are

`verify` and the completion callback are called at most once for a request, and
the result of a finished request is what `verify` returned for the request's own
attestation and options and for the responses delivered by then.
-/

namespace Ravl.Tracker
open ByteLib FallibleLib TransitionLib

section
variable {Claims : Type}

theorem Slot.Consistent.finished {s : Slot Claims} (hs : s.Consistent)
    (hf : stateOf s.request = .finished) : ∃ newer older options attestation responses claims,
      s.history = newer ++ .verified responses (some claims) :: older ∧
        .submitted options (some attestation) ∈ older ∧
        responses = (deliveredIn older).getD [] ∧
        attestation.verify options (some responses) = .ok claims ∧
        resultOf s.request = .ok claims := by
  cases hr : s.request with
  | none =>
    rw [hr] at hf
    cases hf
  | some r =>
    rw [hr] at hf
    have hstate : r.state = .finished := hf
    obtain ⟨responses, claims, hclaims, hmem⟩ := hs.2.finished r hr hf
    obtain ⟨newer, older, hsplit⟩ := List.append_of_mem hmem
    have hsuffix : .verified responses (some claims) :: older <:+ s.core.history := by
      rw [hsplit]
      exact List.suffix_append _ _
    obtain ⟨-, hresponses, options, attestation, hsubmitted, hverify⟩ :=
      hs.2.lawful _ _ hsuffix
    have hok : attestation.verify options (some responses) = .ok claims := by
      cases hv : attestation.verify options (some responses) with
      | error e =>
        rw [hv] at hverify
        cases hverify
      | ok v =>
        rw [hv] at hverify
        cases hverify
        rfl
    have hresult : resultOf (some r) = .ok claims := by
      simp only [resultOf, bind_ok, refuse_ok, orThrow_ok]
      exact ⟨(), not_not.2 hstate, hclaims⟩
    exact ⟨newer, older, options, attestation, responses, claims, hsplit, hsubmitted, hresponses,
      hok, hresult⟩

theorem finished_of_result (request : Option (Request Claims)) (claims : Claims)
    (h : resultOf request = .ok claims) : stateOf request = .finished := by
  cases request with
  | none => simp [resultOf, throw_ok] at h
  | some r =>
    simp only [resultOf, bind_ok, refuse_ok, not_not] at h
    obtain ⟨_, hstate, -⟩ := h
    exact hstate

theorem Slot.Consistent.callback {s : Slot Claims} (hs : s.Consistent)
    (newer older : List (Event Claims)) (h : s.history = newer ++ .calledBack :: older) :
    ∃ responses claims, .verified responses (some claims) ∈ older := by
  have hsuffix : .calledBack :: older <:+ s.core.history := by
    show .calledBack :: older <:+ s.history
    rw [h]
    exact List.suffix_append _ _
  exact (hs.2.lawful _ _ hsuffix).2

theorem results_correct (c : Config Claims) (h : Reachable c) (id : ℕ) :
    verifyCalls (c.history id) ≤ 1 ∧ callbackCalls (c.history id) ≤ 1 ∧
    (∀ newer older, c.history id = newer ++ .calledBack :: older →
      ∃ responses claims, .verified responses (some claims) ∈ older) ∧
    (c.state id = .finished → ∃ newer older options attestation responses claims,
      c.history id = newer ++ .verified responses (some claims) :: older ∧
        .submitted options (some attestation) ∈ older ∧
        responses = (deliveredIn older).getD [] ∧
        attestation.verify options (some responses) = .ok claims ∧ c.result id = .ok claims) ∧
    (∀ claims, c.result id = .ok claims → c.state id = .finished) := by
  have hs := reachable_consistent h id
  exact ⟨hs.2.lawful.verifyCalls_le, hs.2.lawful.callbackCalls_le,
    fun newer older hsplit => hs.callback newer older hsplit, fun hf => hs.finished hf,
    fun claims hresult => finished_of_result (c.requests id) claims hresult⟩

/-! ### A request that needs no download -/

/-- The slot when `submit` has verified the attestation and is in the completion callback. -/
def calledBackSlot (options : Options) (attestation : AttestationApi Claims) (claims : Claims) :
    Slot Claims where
  request := some {
    state := .finished, options, attestation := some attestation, claims := some claims
    httpClient := false, callback := true }
  frames := [.callback .user]
  history := [.calledBack, .verified [] (some claims), .submitted options (some attestation)]

theorem submit_calledBack (options : Options) (attestation : AttestationApi Claims)
    (claims : Claims) (hprepare : attestation.prepareEndorsements options = .ok none)
    (hverify : attestation.verify options (some []) = .ok claims) :
    ({} : Slot Claims).submit options (some attestation) false true =
      calledBackSlot options attestation claims := by
  simp [Slot.submit, Slot.advance, Slot.prepareEndorsements, Slot.verify, Slot.setRequest,
    Slot.note, Slot.enter, hprepare, hverify, calledBackSlot]

def submitLabel (options : Options) (attestation : AttestationApi Claims)
    (httpClient callback : Bool) : Label Claims :=
  ⟨0, .submit options (some attestation) httpClient callback⟩

def firstConfig (s : Slot Claims) : Config Claims :=
  ({ nextRequestId := 1 } : Config Claims).put 0 s

theorem step_submit (options : Options) (attestation : AttestationApi Claims)
    (httpClient callback : Bool) :
    Config.step {} (submitLabel options attestation httpClient callback) = some (firstConfig
      (({} : Slot Claims).submit options (some attestation) httpClient callback)) := rfl

theorem firstConfig_step (s t : Slot Claims) (a : Action Claims) (hfault : s.fault = none)
    (hlater : ∀ o att k cb, a ≠ .submit o att k cb) (h : s.step false a = some t) :
    (firstConfig s).step ⟨0, a⟩ = some (firstConfig t) := by
  have hnext : (firstConfig s).nextAfter a = 1 := by
    cases a with
    | submit o att k cb => exact absurd rfl (hlater o att k cb)
    | _ => rfl
  have hallows : (firstConfig s).allows ⟨0, a⟩ = true := by
    cases a with
    | submit o att k cb => exact absurd rfl (hlater o att k cb)
    | _ => rfl
  have hrunning : (firstConfig s).stopped = false := by
    show s.fault.isSome = false
    rw [hfault]
    rfl
  have hslot : (firstConfig s).slot 0 = s := Config.slot_put_self _ 0 s
  have hput : ({ firstConfig s with nextRequestId := 1 } : Config Claims).put 0 t =
      firstConfig t := by
    simp [firstConfig, Config.put, Function.update_idem]
  unfold Config.step
  rw [if_pos ⟨hrunning, hallows⟩, hslot, hnext]
  show (s.step false a).map _ = _
  rw [h, Option.map_some, hput]

end

/-! ### SGX and SEV/SNP attestations -/

section
variable {X509 Crl Pkey : Type} (ssl : OpenSsl X509 Crl Pkey) (host : Host)

def sgxApi (a : Attestation) : AttestationApi Sgx.Claims where
  prepareEndorsements := Sgx.prepareEndorsements ssl host a
  verify := Sgx.verify ssl host a

def sevSnpApi (a : Attestation) : AttestationApi SevSnp.Claims where
  prepareEndorsements := SevSnp.prepareEndorsements ssl host a
  verify := SevSnp.verify ssl host a

end

def partialOptions : Options := { isPartial := true }

def sampleApi : AttestationApi Sgx.Claims := sgxApi Sgx.lenientSsl plainHost Sgx.sampleAttestation

theorem sample_verified : ∃ claims, sampleApi.verify partialOptions (some []) = .ok claims := by
  apply ok_of_isSome
  have hevidence : Sgx.sampleAttestation.evidence = Sgx.sampleEvidence := rfl
  have hverify : sampleApi.verify partialOptions (some []) = Sgx.verify Sgx.lenientSsl plainHost
    Sgx.sampleAttestation partialOptions (some []) := rfl
  rw [hverify, Sgx.verify, Sgx.verifyRun, if_pos (by decide), Sgx.partialVerifyRun]
  simp only [hevidence, Sgx.sampleEvidence_quote, Sgx.sampleEvidence_parse]
  decide +kernel

theorem sample_callback : ∃ claims,
    Reachable (firstConfig (calledBackSlot partialOptions sampleApi claims)) := by
  obtain ⟨claims, hclaims⟩ := sample_verified
  refine ⟨claims, ?_⟩
  rw [← submit_calledBack partialOptions sampleApi claims rfl hclaims]
  exact Steps.one trivial (step_submit partialOptions sampleApi false true)

theorem results_correct_sample : ∃ c : Config Sgx.Claims, c.state 0 = .finished ∧
    verifyCalls (c.history 0) ≤ 1 ∧ callbackCalls (c.history 0) ≤ 1 ∧
    (∀ newer older, c.history 0 = newer ++ .calledBack :: older →
      ∃ responses claims, .verified responses (some claims) ∈ older) ∧
    (c.state 0 = .finished → ∃ newer older options attestation responses claims,
      c.history 0 = newer ++ .verified responses (some claims) :: older ∧
        .submitted options (some attestation) ∈ older ∧
        responses = (deliveredIn older).getD [] ∧
        attestation.verify options (some responses) = .ok claims ∧ c.result 0 = .ok claims) ∧
    (∀ claims, c.result 0 = .ok claims → c.state 0 = .finished) := by
  obtain ⟨claims, hreachable⟩ := sample_callback
  exact ⟨firstConfig (calledBackSlot partialOptions sampleApi claims), rfl,
    results_correct _ hreachable 0⟩

/-! ### A request that waits for its download -/

section
variable {Claims : Type}

theorem Slot.submit_requested (options : Options) (attestation : AttestationApi Claims)
    (requests : HTTPRequests) (h : attestation.prepareEndorsements options = .ok (some requests))
    (httpClient callback : Bool) :
    let s : Slot Claims := {
      request := some {
        state := .waitingForEndorsements, options, attestation := some attestation
        httpClient, callback }
      history := [.requested requests, .submitted options (some attestation)] }
    ({} : Slot Claims).submit options (some attestation) httpClient callback =
      if httpClient then { s with held := true, pending := true, frames := [.client] }
      else { s with fault := some .nullClient } := by
  simp [Slot.submit, Slot.advance, Slot.prepareEndorsements, Slot.setRequest, Slot.note, Slot.enter,
    Slot.fail, h]

def requestedSlot (options : Options) (attestation : AttestationApi Claims)
    (requests : HTTPRequests) : Slot Claims where
  request := some {
    state := .waitingForEndorsements, options, attestation := some attestation
    httpClient := true, callback := true }
  held := true
  pending := true
  frames := [.client]
  history := [.requested requests, .submitted options (some attestation)]

end

def downloadApi : AttestationApi Sgx.Claims := sgxApi Sgx.lenientSsl plainHost Sgx.bareAttestation

theorem sample_requested : ∃ requests,
    downloadApi.prepareEndorsements {} = .ok (some requests) ∧
      Reachable (firstConfig (requestedSlot {} downloadApi requests)) := by
  obtain ⟨requests, hrequests⟩ := Sgx.prepareEndorsements_bare {} (Or.inl rfl)
  refine ⟨requests, hrequests, ?_⟩
  have hslot := Slot.submit_requested {} downloadApi requests hrequests true true
  have hstep := step_submit {} downloadApi true true
  rw [hslot] at hstep
  exact Steps.one trivial hstep

end Ravl.Tracker
