import Ravl.CApi
import Ravl.Sgx.Soundness
import Ravl.Tracker.Delivery
import Ravl.Uvm.Soundness

/-!
# What claims stand for, at every interface

`Attested` says of an attestation object and of claims what has been checked when `verify` returns
them. Whoever hands out claims, the request tracker in any run, the synchronous entry point or the
C interface, hands out attested ones.
-/

namespace Ravl
open ByteLib FallibleLib TransitionLib Tracker
open Http (Server Entry)

/-! ### SGX -/

namespace Sgx

section
variable {X509 Crl Pkey : Type} (ssl : OpenSsl X509 Crl Pkey) (host : Host)

/-- TCB info and QE identity are accepted under the very store that the PCK chain was. -/
structure SameStore (a : Attestation) (options : Options) (httpResponses : Option HTTPResponses)
    (leaf : X509) : Prop where
  accepted : ∃ pem before store chain c ext level,
    pemOf ssl (certificationDataOf a.evidence) = .ok pem ∧
    verifyPem ssl pem before options.certificateVerification false options.verbosity =
      .ok (chain, store) ∧ chain.head? = some leaf ∧
    usedCollateral a options httpResponses = .ok (some c) ∧
    CertificateExtension.ofCertificate ssl leaf = .ok ext ∧
    verifyTcb ssl host c.tcbInfoIssuerChain c.tcbInfo ext store options = .ok level ∧
    verifyQeId ssl host c.qeIdentityIssuerChain c.qeIdentity
      (decodeReportBody (sub a.evidence 564 384)) store options = .ok true

structure Attested (a : Attestation) (options : Options) (httpResponses : Option HTTPResponses)
    (claims : Claims) : Prop where
  header : leVal (sub a.evidence 0 2) = 3 ∧ leVal (sub a.evidence 2 2) = 2
  decoded : Decoded a.evidence claims
  accepted : ∃ leaf, ChainAccepted ssl a.evidence options leaf ∧
    SignaturesVerified ssl a.evidence leaf ∧
    (options.isPartial = false → SameStore ssl host a options httpResponses leaf)

theorem verify_attested (a : Attestation) (options : Options) (httpResponses : Option HTTPResponses)
    (claims : Claims) (h : verify ssl host a options httpResponses = .ok claims) :
    Attested ssl host a options httpResponses claims := by
  simp only [verify, bind_ok, pure_ok] at h
  obtain ⟨r, hr, rfl⟩ := h
  cases hmode : options.isPartial with
  | true =>
    obtain ⟨run⟩ := verifyRun_partial ssl host a options httpResponses r hmode hr
    have hplaced := SignatureData.parse_ok ssl _ _ _ run.signatureData
    have hlen := (placed_certificationData ssl a.evidence host.beyond run.sd hplaced).1
    obtain ⟨hchain, hsigned⟩ := quote_accepted ssl host a options run.quote run.sd run.pckCertChain
      run.pckLeaf _ _ _ run.parsed run.signatureData run.chain run.checked
    refine ⟨parseQuote_header host a run.quote run.parsed, ?_, run.pckLeaf, hchain, hsigned,
      fun hfull => absurd (hmode.symm.trans hfull) (by decide)⟩
    rw [run.claims]
    exact makeClaims_decoded host a run.sd hlen
  | false =>
    obtain ⟨run⟩ := verifyRun_full ssl host a options httpResponses r hmode hr
    have hplaced := SignatureData.parse_ok ssl _ _ _ run.signatureData
    obtain ⟨hlen, -, hpem⟩ := placed_certificationData ssl a.evidence host.beyond run.sd hplaced
    obtain ⟨hchain, hsigned⟩ := quote_accepted ssl host a options run.quote run.sd run.pckCertChain
      run.pckLeaf _ _ _ run.parsed run.signatureData run.chain run.checked
    obtain ⟨⟨_, hleaf, -⟩, -⟩ := verifyQuote_ok ssl _ _ _ _ _ _ run.checked
    have hdecoded := makeClaims_decoded host a run.sd hlen
    have hqe := run.qeId
    rw [hplaced.report, readReportBody_eq a.evidence host.beyond 564 (by omega)] at hqe
    refine ⟨parseQuote_header host a run.quote run.parsed, ?_, run.pckLeaf, hchain, hsigned, fun _ =>
      ⟨run.sd.certificationData, run.trusting, r.store, run.pckCertChain, run.c, run.pckExt, run.level,
        hpem, run.chain, hleaf, run.used, run.extension, run.tcb, hqe⟩⟩
    rw [run.claims]
    exact { hdecoded with }

end

end Sgx

/-! ### Open Enclave -/

namespace Oe

section
variable {X509 Crl Pkey : Type} (ssl : OpenSsl X509 Crl Pkey) (host : Host)

/-- The quote in the evidence is attested; the custom claims are what stands behind it. -/
structure Attested (evidence endorsements : Bytes) (options : Options)
    (httpResponses : Option HTTPResponses) (claims : Claims) : Prop where
  extracted : ∃ sgx customClaims, extractSgxAttestation host evidence endorsements =
      .ok (sgx, customClaims) ∧
    Sgx.Attested ssl host sgx options httpResponses claims.sgxClaims ∧
    extractCustomClaims host customClaims [] = .ok claims.customClaims

theorem verifyExtracted_ok (sgx : Ravl.Attestation) (customClaims : Bytes) (options : Options)
    (httpResponses : Option HTTPResponses) (claims : Claims)
    (h : verifyExtracted ssl host sgx customClaims options httpResponses = .ok claims) :
    Sgx.Attested ssl host sgx options httpResponses claims.sgxClaims ∧
      extractCustomClaims host customClaims [] = .ok claims.customClaims := by
  simp only [verifyExtracted, bind_ok, pure_ok] at h
  obtain ⟨sgxClaims, hsgx, map, hmap, rfl⟩ := h
  exact ⟨Sgx.verify_attested ssl host sgx options httpResponses sgxClaims hsgx, hmap⟩

theorem verify_attested (object : Attestation) (options : Options)
    (httpResponses : Option HTTPResponses) (claims : Claims) (hfresh : object.sgxAttestation = none)
    (h : (object.verify ssl host options httpResponses).1 = .ok claims) :
    Attested ssl host object.evidence object.endorsements options httpResponses claims := by
  unfold Attestation.verify at h
  rw [hfresh] at h
  dsimp only at h
  split at h
  · cases h
  · split at h
    · cases h
    next sgx customClaims hextract =>
      exact ⟨sgx, customClaims, hextract, verifyExtracted_ok ssl host _ _ _ _ claims h⟩

theorem prepared_attested (object : Attestation) (options : Options)
    (httpResponses : Option HTTPResponses) (claims : Claims) (hfresh : object.sgxAttestation = none)
    (h : ((object.prepareEndorsements ssl host options).2.verify ssl host options httpResponses).1 =
      .ok claims) :
    Attested ssl host object.evidence object.endorsements options httpResponses claims := by
  unfold Attestation.prepareEndorsements at h
  split at h
  · exact verify_attested ssl host object options httpResponses claims hfresh h
  next sgx customClaims hextract =>
    exact ⟨sgx, customClaims, hextract, verifyExtracted_ok ssl host _ _ _ _ claims h⟩

end

end Oe

/-! ### Every platform -/

section
variable {X509 Crl Pkey RsaKey Ctx : Type} (ssl : OpenSsl X509 Crl Pkey) (host : Host)
  (lib : Uvm.Libraries RsaKey Ctx) (roots : List UVMEndorsements)

/-- For SEV/SNP the evidence is as long as what is read of it. -/
def Attested (a : AttestationObject) (options : Options) (httpResponses : Option HTTPResponses) :
    PlatformClaims → Prop
  | .sgx claims => ∃ evidence endorsements, a = .sgx evidence endorsements ∧
      Sgx.Attested ssl host ⟨.sgx, evidence, endorsements⟩ options httpResponses claims
  | .openEnclave claims => ∃ object, a = .openEnclave object ∧
      Oe.Attested ssl host object.evidence object.endorsements options httpResponses claims
  | .sevSnp claims =>
    (∃ evidence endorsements, a = .sevSnp evidence endorsements ∧ (816 ≤ evidence.length →
      SevSnp.Accepted ssl ⟨.sevSnp, evidence, endorsements⟩ options httpResponses ∧
        SevSnp.Decoded evidence claims)) ∨
    ∃ evidence endorsements uvmEndorsements, a = .aci evidence endorsements uvmEndorsements ∧
      (816 ≤ evidence.length →
        SevSnp.Accepted ssl ⟨.aci, evidence, endorsements⟩ options httpResponses ∧
          SevSnp.Decoded evidence claims ∧
          ∃ e, Uvm.Endorsed ssl lib roots uvmEndorsements (sub (Uvm.signedPart evidence) 144 48) e)

theorem AttestationObject.verify_attested (a : AttestationObject) (options : Options)
    (httpResponses : Option HTTPResponses) (claims : PlatformClaims) (hfresh : a.Fresh)
    (h : (a.verify (Uvm.platform ssl lib roots host) options httpResponses).1 = .ok claims) :
    Attested ssl host lib roots a options httpResponses claims := by
  cases a with
  | sgx evidence endorsements =>
    obtain ⟨c, hc, rfl⟩ := map_ok.1 h
    exact ⟨evidence, endorsements, rfl, Sgx.verify_attested ssl host _ options httpResponses c hc⟩
  | sevSnp evidence endorsements =>
    obtain ⟨c, hc, rfl⟩ := map_ok.1 h
    exact Or.inl ⟨evidence, endorsements, rfl, fun hlen =>
      SevSnp.verify_attested ssl host _ options httpResponses c hlen hc⟩
  | openEnclave object =>
    obtain ⟨c, hc, rfl⟩ := map_ok.1 h
    exact ⟨object, rfl, Oe.verify_attested ssl host object options httpResponses c
      (hfresh object rfl) hc⟩
  | aci evidence endorsements uvmEndorsements =>
    obtain ⟨c, hc, rfl⟩ := map_ok.1 h
    exact Or.inr ⟨evidence, endorsements, uvmEndorsements, rfl, fun hlen =>
      Uvm.verifyAci_attested ssl host lib roots _ _ _ options httpResponses c hlen hc⟩

theorem AttestationObject.api_attested (a : AttestationObject) (options : Options)
    (httpResponses : Option HTTPResponses) (claims : PlatformClaims) (hfresh : a.Fresh)
    (h : (a.api (Uvm.platform ssl lib roots host)).verify options httpResponses = .ok claims) :
    Attested ssl host lib roots a options httpResponses claims := by
  cases a with
  | openEnclave object =>
    obtain ⟨c, hc, rfl⟩ := map_ok.1 h
    exact ⟨object, rfl, Oe.prepared_attested ssl host object options httpResponses c
      (hfresh object rfl) hc⟩
  | _ => exact AttestationObject.verify_attested ssl host lib roots _ options httpResponses claims hfresh h

/-! ### The request tracker -/

theorem mem_of_deliveredIn {Claims : Type} {h : List (Event Claims)} {responses : HTTPResponses}
    (hdelivered : deliveredIn h = some responses) : .delivered responses ∈ h := by
  induction h with
  | nil => cases hdelivered
  | cons e h ih =>
    cases e with
    | delivered rs =>
      obtain rfl := Option.some.inj hdelivered
      exact List.mem_cons_self ..
    | _ => exact List.mem_cons_of_mem _ (ih hdelivered)

/-- The result of a request, in any run of the tracker with any number of other requests, is
attested for the object and the options it was submitted with. -/
theorem tracker_result_attested (c : Config PlatformClaims) (h : Reachable c) (id : ℕ)
    (a : AttestationObject) (hfresh : a.Fresh) (options : Options)
    (hsubmitted : .submitted options (some (a.api (Uvm.platform ssl lib roots host))) ∈ c.history id)
    (claims : PlatformClaims) (hresult : c.result id = .ok claims) :
    ∃ responses, .verified responses (some claims) ∈ c.history id ∧
      (responses = [] ∨ .delivered responses ∈ c.history id) ∧
      Attested ssl host lib roots a options (some responses) claims := by
  have hs := reachable_consistent h id
  have hfinished := finished_of_result (c.requests id) claims hresult
  obtain ⟨newer, older, options', api, responses, claims', hhistory, hsubmitted', hresponses, hverify,
    hresult'⟩ := hs.finished hfinished
  obtain rfl : claims' = claims := by
    have heq := hresult'.symm.trans hresult
    cases heq
    rfl
  have hhistory : c.history id = newer ++ .verified responses (some claims') :: older := hhistory
  have hearlier (e : Event PlatformClaims) (he : e ∈ older) : e ∈ c.history id := by
    rw [hhistory]
    exact List.mem_append_right _ (List.mem_cons_of_mem _ he)
  have hlawful : Lawful (c.history id) := hs.2.lawful
  obtain ⟨rfl, heq⟩ := hlawful.submitted_unique hsubmitted (hearlier _ hsubmitted')
  obtain rfl := Option.some.inj heq
  refine ⟨responses, ?_, ?_, AttestationObject.api_attested ssl host lib roots a options _ _ hfresh hverify⟩
  · rw [hhistory]
    simp
  · cases hdelivered : deliveredIn older with
    | none =>
      rw [hdelivered] at hresponses
      exact Or.inl hresponses
    | some rs =>
      rw [hdelivered] at hresponses
      obtain rfl : responses = rs := hresponses
      exact Or.inr (hearlier _ (mem_of_deliveredIn hdelivered))

end

/-! ### A container that is submitted -/

def samplePlatform : Platform Bytes Bytes Bytes :=
  Uvm.platform OpenSsl.lenient Uvm.sampleLibraries uvmRootsOfTrust plainHost

def sampleObject : AttestationObject :=
  .aci SevSnp.fullReport SevSnp.fullAttestation.endorsements Uvm.sampleMessage

theorem sampleObject_fresh : sampleObject.Fresh := by
  intro object h
  cases h

theorem api_verify {X509 Crl Pkey : Type} (p : Platform X509 Crl Pkey) (a : AttestationObject)
    (options : Options) (httpResponses : Option HTTPResponses) : (a.api p).verify options httpResponses =
      ((a.prepareEndorsements p options).2.verify p options httpResponses).1 := rfl

theorem api_aci {X509 Crl Pkey : Type} (p : Platform X509 Crl Pkey)
    (evidence endorsements uvmEndorsements : Bytes) (options : Options)
    (httpResponses : Option HTTPResponses) :
    ((AttestationObject.aci evidence endorsements uvmEndorsements).api p).verify options httpResponses =
      (verifyAci p evidence endorsements uvmEndorsements options httpResponses).map .sevSnp := rfl

theorem sampleObject_verified (httpResponses : Option HTTPResponses) : ∃ claims,
    (sampleObject.api samplePlatform).verify {} httpResponses = .ok claims := by
  obtain ⟨claims, hclaims⟩ := Uvm.sampleContainer_verified httpResponses
  have hdecoded := (SevSnp.verify_attested OpenSsl.lenient plainHost Uvm.sampleContainer {} _ claims
    Uvm.sampleContainer_length hclaims).2
  have hendorsed := Uvm.sampleContainer_endorsed
  rw [Uvm.measurement_signed _ Uvm.sampleContainer_length] at hendorsed
  have hmeasurement : claims.measurement = sub SevSnp.fullReport 144 48 := hdecoded.measurement
  rw [← hmeasurement] at hendorsed
  have haci := (Uvm.verifyAci_ok_iff OpenSsl.lenient plainHost Uvm.sampleLibraries uvmRootsOfTrust _ _
    Uvm.sampleMessage {} httpResponses claims).2 ⟨hclaims, _, hendorsed⟩
  refine ⟨.sevSnp claims, ?_⟩
  rw [sampleObject, api_aci, map_ok]
  exact ⟨claims, haci, rfl⟩

theorem sampleObject_prepared :
    (sampleObject.prepareEndorsements samplePlatform {}).1 = .ok none := by decide +kernel

/-! ### The tracker and a client that calls back later -/

section
variable {X509 Crl Pkey RsaKey Ctx : Type} (ssl : OpenSsl X509 Crl Pkey) (host : Host)
  (lib : Uvm.Libraries RsaKey Ctx) (roots : List UVMEndorsements)

/-- In every run of the tracker with the client, whoever else uses the client, the result of a
request is attested for its own object and options, without any downloads or with the replies to
the requests that the object prepared. -/
theorem asynchronous_attested {σ γ α ρ : Type} {C : Http.AsyncClient σ γ α ρ}
    {s : Joint PlatformClaims σ γ} (h : s.Reached C) (id : ℕ) (a : AttestationObject) (hfresh : a.Fresh)
    (options : Options)
    (hsubmitted : .submitted options (some (a.api (Uvm.platform ssl lib roots host))) ∈ s.tracker.history id)
    (claims : PlatformClaims) (hresult : s.tracker.result id = .ok claims) :
    ∃ responses, Attested ssl host lib roots a options (some responses) claims ∧
      (responses = [] ∨ ∃ number entries rs, s.owners[number]? = some (some id) ∧
        (a.prepareEndorsements (Uvm.platform ssl lib roots host) options).1 = .ok (some rs) ∧
        C.reading.Fulfils (C.replies s.given number) rs entries ∧
        responses = entries.map Entry.response) := by
  have hlinked := h.linked
  obtain ⟨responses, -, hdelivered, hattested⟩ := tracker_result_attested ssl host lib roots s.tracker
    hlinked.reachable id a hfresh options hsubmitted claims hresult
  refine ⟨responses, hattested, hdelivered.imp_right fun hmem => ?_⟩
  obtain ⟨number, entries, hmine, hcalled, heq⟩ := ((hlinked.concerns id).delivered responses).1 hmem
  obtain ⟨-, options', api, hreplied⟩ := hlinked.replied hmine hcalled
  obtain ⟨rs, hprepare, -, hfulfils⟩ := hreplied.replies
  obtain ⟨rfl, hapi⟩ := (reachable_consistent hlinked.reachable id).2.lawful.submitted_unique
    hreplied.submitted hsubmitted
  obtain rfl := Option.some.inj hapi
  exact ⟨number, entries, rs, hmine, hprepare, hfulfils, heq⟩

end

def downloadPlatform : Platform Bytes Bytes Bytes :=
  Uvm.platform SevSnp.contentSsl Uvm.sampleLibraries uvmRootsOfTrust plainHost

def downloadObject : AttestationObject := .sevSnp SevSnp.fullReport []

def downloadRequests : HTTPRequests :=
  match (downloadObject.prepareEndorsements downloadPlatform {}).1 with
  | .ok (some requests) => requests
  | _ => []

/-- The key distribution service answers all three requests. -/
def downloaded : List (JointAction PlatformClaims Http.CurlAction) := [
  .request 0 (.submit downloadRequests true true), .returned 0 0,
  .client (.transfer 0 2 ⟨200, [], [text "crl"]⟩), .client (.transfer 0 0 ⟨200, [], [text "vcek"]⟩),
  .client (.poll 0), .client (.transfer 0 1 ⟨200, [], [sampleChain]⟩), .client (.poll 0),
  .client (.poll 0), .tracker ⟨0, .proceed 2 false⟩, .tracker ⟨0, .proceed 1 false⟩]

def downloadStart : Joint PlatformClaims Http.CurlRun (Http.Replies Http.Reply) where
  tracker := firstConfig (({} : Slot PlatformClaims).submit {}
    (some (downloadObject.api downloadPlatform)) true false)
  client := Http.curl.first
  given := Http.curl.noRecord

theorem downloadStart_reached : downloadStart.Reached Http.curl := by
  refine Steps.one (a := .tracker (submitLabel {} (downloadObject.api downloadPlatform) true false)) trivial ?_
  simp only [Joint.step, submitLabel, Action.isClients, Bool.false_eq_true, if_false]
  refine Option.bind_eq_some_iff.2
    ⟨_, step_submit {} (downloadObject.api downloadPlatform) true false, if_neg fun hends => ?_⟩
  cases hends.2.1

theorem downloaded_verified : ∃ (s : Joint PlatformClaims Http.CurlRun (Http.Replies Http.Reply)) (claims : PlatformClaims),
    s.Reached Http.curl ∧ s.tracker.result 0 = .ok claims ∧
      .submitted {} (some (downloadObject.api downloadPlatform)) ∈ s.tracker.history 0 := by
  have hrun : (run (Joint.step Http.curl) downloadStart downloaded).map (fun s =>
      (s.tracker.result 0).toOption.isSome) = some true := by decide +kernel
  obtain ⟨s, hs, hresult⟩ := Option.map_eq_some_iff.1 hrun
  obtain ⟨claims, hclaims⟩ := ok_of_isSome hresult
  have hsteps : Steps (Joint.step Http.curl) (Joint.Allowed Http.curl) downloadStart s :=
    run_steps _ (fun a _ s => by cases a <;> trivial) hs
  have hsubmitted : .submitted {} (some (downloadObject.api downloadPlatform)) ∈
      downloadStart.tracker.history 0 := by
    show _ ∈ ((firstConfig _).slot 0).history
    rw [firstConfig, Config.slot_put_self]
    exact (Slot.submit_history {} {} _ true false).mem (List.mem_cons_self ..)
  exact ⟨s, claims, downloadStart_reached.trans hsteps, hclaims,
    downloadStart_reached.linked.stays hsteps 0 hsubmitted⟩

theorem asynchronous_attested_sample : ∃ (s : Joint PlatformClaims Http.CurlRun (Http.Replies Http.Reply))
    (claims : PlatformClaims) (responses : HTTPResponses), s.tracker.result 0 = .ok claims ∧
    Attested SevSnp.contentSsl plainHost Uvm.sampleLibraries uvmRootsOfTrust downloadObject {}
      (some responses) claims := by
  obtain ⟨s, claims, hs, hclaims, hsubmitted⟩ := downloaded_verified
  obtain ⟨responses, hattested, -⟩ := asynchronous_attested SevSnp.contentSsl plainHost
    Uvm.sampleLibraries uvmRootsOfTrust hs 0 downloadObject (fun _ h => by cases h) {} hsubmitted claims hclaims
  exact ⟨s, claims, responses, hclaims, hattested⟩

/-! ### The synchronous entry points -/

section
variable {X509 Crl Pkey RsaKey Ctx : Type} (ssl : OpenSsl X509 Crl Pkey) (host : Host)
  (lib : Uvm.Libraries RsaKey Ctx) (roots : List UVMEndorsements)

/-- What is verified with: nothing where no requests were prepared, otherwise one good response
for each of them. -/
def Fetched (a : AttestationObject) (options : Options) : Option HTTPResponses → Prop
  | none => (a.prepareEndorsements (Uvm.platform ssl lib roots host) options).1 = .ok none
  | some responses => ∃ requests,
      (a.prepareEndorsements (Uvm.platform ssl lib roots host) options).1 = .ok (some requests) ∧
      Http.Deliverable options.httpMaxAttempts requests responses

theorem synchronous_attested (server : Server) (a : AttestationObject) (hfresh : a.Fresh)
    (options : Options) (claims : PlatformClaims)
    (h : verifySynchronous (Uvm.platform ssl lib roots host) server a options = .ok claims) :
    ∃ httpResponses, Fetched ssl host lib roots a options httpResponses ∧
      Attested ssl host lib roots a options httpResponses claims := by
  obtain ⟨hnone, hverify⟩ | ⟨requests, id, entries, hprepare, hexecute, hverify⟩ :=
    (verifySynchronous_ok server a options claims).1 h
  · exact ⟨none, hnone,
      AttestationObject.api_attested ssl host lib roots a options none claims hfresh hverify⟩
  · have hdeliverable := (Http.execute_deliverable options.httpTimeout options.httpMaxAttempts requests
      (entries.map Entry.response)).1 ⟨server, id, entries, hexecute, rfl⟩
    exact ⟨some _, ⟨requests, hprepare, hdeliverable⟩,
      AttestationObject.api_attested ssl host lib roots a options _ claims hfresh hverify⟩

/-- RAVL_OK stands for an attestation that was parsed from the text, and for claims that are
attested without any download. -/
theorem capi_attested (codec : Codec) (json : Bytes) (options : Option RavlOptions)
    (message : Option String)
    (h : verifyAttestationJson codec (Uvm.platform ssl lib roots host) json options =
      .ok (.ok, message)) :
    ∃ a claims, parseAttestation codec host.doubles json = .ok a ∧
      Attested ssl host lib roots a (cppOptions options) none claims := by
  obtain ⟨a, claims, hparsed, hverify⟩ := (verifyParsed_ok (Uvm.platform ssl lib roots host)
    (parseAttestation codec host.doubles json) options).1 ⟨message, h⟩
  exact ⟨a, claims, hparsed, AttestationObject.verify_attested ssl host lib roots a _ none claims
    (parseAttestation_fresh codec host.doubles json a hparsed) hverify⟩

end

theorem synchronous_attested_sample : ∃ (claims : PlatformClaims) (httpResponses : Option HTTPResponses),
    verifySynchronous samplePlatform (Http.scripted []) sampleObject {} = .ok claims ∧
      Fetched OpenSsl.lenient plainHost Uvm.sampleLibraries uvmRootsOfTrust sampleObject {}
        httpResponses ∧
      Attested OpenSsl.lenient plainHost Uvm.sampleLibraries uvmRootsOfTrust sampleObject {}
        httpResponses claims := by
  obtain ⟨claims, hclaims⟩ := sampleObject_verified none
  rw [api_verify] at hclaims
  have hverify : verifySynchronous samplePlatform (Http.scripted []) sampleObject {} = .ok claims :=
    (verifySynchronous_ok _ _ _ _).2 (Or.inl ⟨sampleObject_prepared, hclaims⟩)
  obtain ⟨httpResponses, hattested⟩ := synchronous_attested OpenSsl.lenient plainHost
    Uvm.sampleLibraries uvmRootsOfTrust (Http.scripted []) sampleObject sampleObject_fresh {} claims hverify
  exact ⟨claims, httpResponses, hverify, hattested⟩

def containerJson : Bytes :=
  text "\x7b\"endorsements\":\"" ++ Base64Lib.encode SevSnp.fullAttestation.endorsements ++
    text "\",\"evidence\":\"" ++ Base64Lib.encode SevSnp.fullReport ++
    text "\",\"source\":\"aci\",\"uvm_endorsements\":\"" ++ Base64Lib.encode Uvm.sampleMessage ++
    text "\"\x7d"

theorem containerJson_ok : verifyAttestationJson reportCodec samplePlatform containerJson none =
    .ok (.ok, none) := by
  decide +kernel

theorem capi_attested_sample : ∃ (a : AttestationObject) (claims : PlatformClaims),
    parseAttestation reportCodec plainHost.doubles containerJson = .ok a ∧
      Attested OpenSsl.lenient plainHost Uvm.sampleLibraries uvmRootsOfTrust a (cppOptions none)
        none claims :=
  capi_attested OpenSsl.lenient plainHost Uvm.sampleLibraries uvmRootsOfTrust reportCodec containerJson
    none none containerJson_ok

end Ravl
