import Ravl.Codec
import Ravl.EntryPoints
import Ravl.Http.Replies
import Ravl.SevSnp.Soundness
import Ravl.Sgx.Requests

/-!
# The C interface (capi.h, capi.cpp)

It parses the attestation and calls `verify` on it, without `prepare_endorsements` and without
responses.
-/

namespace Ravl
open ByteLib FallibleLib
open Http (Server Reply Entry scripted execute_unreachable)

/-- `ravl_options_t`; a C string ends at its first NUL. -/
structure RavlOptions where
  verbosity : Fin 256
  ignoreTime : ℤ
  verificationTime : Option ℤ
  freshEndorsements : ℤ
  freshRootCaCertificate : ℤ
  rootCaCertificate : Option Bytes
  checkRootCertificateManufacturerKey : ℤ
  sgxEndorsementCacheUrlTemplate : Option Bytes
  sevSnpEndorsementCacheUrlTemplate : Option Bytes
  httpTimeout : ℕ
  httpMaxAttempts : ℕ
  historical : ℤ

inductive RavlStatus
  | ok
  | error
  deriving DecidableEq

/-- `verbosity` is not copied. -/
def cppOptions : Option RavlOptions → Options
  | none => {}
  | some options =>
    { certificateVerification :=
        { ignoreTime := options.ignoreTime ≠ 0, verificationTime := options.verificationTime }
      freshEndorsements := options.freshEndorsements ≠ 0
      freshRootCaCertificate := options.freshRootCaCertificate ≠ 0
      rootCaCertificate := options.rootCaCertificate.map cString
      checkRootCertificateManufacturerKey := options.checkRootCertificateManufacturerKey ≠ 0
      sgxEndorsementCacheUrlTemplate := options.sgxEndorsementCacheUrlTemplate.map cString
      sevSnpEndorsementCacheUrlTemplate := options.sevSnpEndorsementCacheUrlTemplate.map cString
      httpTimeout := options.httpTimeout
      httpMaxAttempts := options.httpMaxAttempts
      historical := options.historical ≠ 0 }

theorem cppOptions_full (options : Option RavlOptions) : (cppOptions options).isPartial = false := by
  cases options <;> rfl

section
variable {X509 Crl Pkey : Type} (codec : Codec) (p : Platform X509 Crl Pkey)

/-- The `try` block -/
def claimsOf (parsed : Result AttestationObject) (options : Option RavlOptions) :
    Result PlatformClaims := do
  let att ← parsed
  (att.verify p (cppOptions options) none).1

/-- The status and what `last_exception_message` then points to -/
def verifyParsed (parsed : Result AttestationObject) (options : Option RavlOptions) :
    Result (RavlStatus × Option String) :=
  match claimsOf p parsed options with
  | .ok _ => pure (.ok, none)
  | .error (.exception what) => pure (.error, some what)
  | .error (.undefined what) => throw (.undefined what)

def verifyAttestationJson (json : Bytes) (options : Option RavlOptions) :
    Result (RavlStatus × Option String) :=
  verifyParsed p (parseAttestation codec p.host.doubles json) options

def verifyAttestationCbor (cbor : Bytes) (options : Option RavlOptions) :
    Result (RavlStatus × Option String) :=
  verifyParsed p (parseAttestationCbor codec p.host.doubles cbor) options

theorem verifyParsed_ok (parsed : Result AttestationObject) (options : Option RavlOptions) :
    (∃ message, verifyParsed p parsed options = .ok (.ok, message)) ↔
      ∃ att claims, parsed = .ok att ∧ (att.verify p (cppOptions options) none).1 = .ok claims := by
  have hclaims (claims : PlatformClaims) : claimsOf p parsed options = .ok claims ↔
      ∃ att, parsed = .ok att ∧ (att.verify p (cppOptions options) none).1 = .ok claims :=
    bind_ok _ _ _
  constructor
  · intro ⟨message, h⟩
    unfold verifyParsed at h
    split at h
    next claims hrun =>
      obtain ⟨att, hparsed, hverify⟩ := (hclaims claims).1 hrun
      exact ⟨att, claims, hparsed, hverify⟩
    next => cases h
    next => cases h
  · intro ⟨att, claims, hparsed, hverify⟩
    have hrun := (hclaims claims).2 ⟨att, hparsed, hverify⟩
    refine ⟨none, ?_⟩
    unfold verifyParsed
    rw [hrun]
    rfl

/-! ### What is asked for, and of which object -/

variable {p}

theorem Sgx.prepareEndorsements_ne_nil (a : Attestation) (options : Options) :
    Sgx.prepareEndorsements p.ssl p.host a options ≠ .ok (some []) := by
  intro h
  obtain ⟨⟨ca, fmspc, hasks⟩, -⟩ := Sgx.prepareEndorsements_asks p.ssl p.host a options [] h
  have hnil := List.forall₂_nil_right_iff.1 hasks
  unfold Sgx.requestedDocuments at hnil
  split at hnil
  · cases hnil
  · have hlength := congrArg List.length hnil
    rw [List.length_append] at hlength
    cases hlength

theorem Sgx.prepareEndorsements_bare_ne_none (a : Attestation) (options : Options)
    (hbare : a.endorsements = []) (hfull : options.isPartial = false) :
    Sgx.prepareEndorsements p.ssl p.host a options ≠ .ok none := by
  intro h
  have hmissing : ¬ ((a.endorsements ≠ [] ∧ options.freshEndorsements = false ∧
      options.freshRootCaCertificate = false) ∨ options.isPartial = true) := by
    rw [hbare, hfull]
    simp
  have hnew : ¬ (a.endorsements ≠ [] ∧ options.freshEndorsements = false) := fun h => h.1 hbare
  unfold Sgx.prepareEndorsements at h
  rw [if_neg hmissing] at h
  simp only [bind_ok, if_neg hnew, pure_ok] at h
  obtain ⟨_, _, _, _, _, _, _, _, _, _, h⟩ := h
  cases h

theorem Oe.extractSgxAttestation_bare (evidence : Bytes) (sgx : Ravl.Attestation) (cc : Bytes)
    (h : Oe.extractSgxAttestation p.host evidence [] = .ok (sgx, cc)) : sgx.endorsements = [] := by
  unfold Oe.extractSgxAttestation at h
  simp only [bind_ok, pure_ok] at h
  obtain ⟨_, _, _, _, scollateral, hcollateral, h⟩ := h
  cases h
  exact (Except.ok.inj hcollateral).symm

theorem Oe.prepareEndorsements_ok (object : Oe.Attestation) (options : Options)
    (requests : Option HTTPRequests)
    (h : (object.prepareEndorsements p.ssl p.host options).1 = .ok requests) :
    ∃ sgx cc, Oe.extractSgxAttestation p.host object.evidence object.endorsements = .ok (sgx, cc) ∧
      Sgx.prepareEndorsements p.ssl p.host sgx options = .ok requests ∧
      (object.prepareEndorsements p.ssl p.host options).2 = object.fill sgx cc := by
  unfold Oe.Attestation.prepareEndorsements at h ⊢
  split at h
  next => cases h
  next sgx cc hextract => exact ⟨sgx, cc, hextract, h, rfl⟩

theorem Oe.verify_prepared (object : Oe.Attestation) (options : Options)
    (hnew : object.sgxAttestation = none) (hfull : options.isPartial = false)
    (hprepare : (object.prepareEndorsements p.ssl p.host options).1 = .ok none) :
    ((object.prepareEndorsements p.ssl p.host options).2.verify p.ssl p.host options none).1 =
      (object.verify p.ssl p.host options none).1 := by
  obtain ⟨sgx, cc, hextract, hnone, hfilled⟩ := Oe.prepareEndorsements_ok object options none hprepare
  have hendorsed : object.endorsements ≠ [] := by
    intro hbare
    rw [hbare] at hextract
    exact Sgx.prepareEndorsements_bare_ne_none sgx options
      (Oe.extractSgxAttestation_bare _ _ _ hextract) hfull hnone
  have hcached : ((object.fill sgx cc).verify p.ssl p.host options none).1 =
      Oe.verifyExtracted p.ssl p.host sgx cc options none := rfl
  rw [hfilled, hcached]
  unfold Oe.Attestation.verify
  rw [hnew, hextract]
  dsimp only
  rw [if_neg hendorsed]

namespace AttestationObject

theorem prepareEndorsements_ne_nil (a : AttestationObject) (options : Options) :
    (a.prepareEndorsements p options).1 ≠ .ok (some []) := by
  cases a with
  | sgx evidence endorsements => exact Sgx.prepareEndorsements_ne_nil _ options
  | sevSnp evidence endorsements => exact SevSnp.requests_ne_nil p.ssl p.host _ options
  | aci evidence endorsements uvmEndorsements => exact SevSnp.requests_ne_nil p.ssl p.host _ options
  | openEnclave object =>
    intro h
    obtain ⟨sgx, _, -, hnil, -⟩ := Oe.prepareEndorsements_ok object options _ h
    exact Sgx.prepareEndorsements_ne_nil sgx options hnil

/-- Nothing has been extracted from the object yet. -/
def Fresh (a : AttestationObject) : Prop :=
  ∀ object, a = openEnclave object → object.sgxAttestation = none

/-- Where nothing is asked for, it does not matter that nobody asked. -/
theorem verify_prepared (a : AttestationObject) (options : Options) (hfresh : a.Fresh)
    (hfull : options.isPartial = false) (hprepare : (a.prepareEndorsements p options).1 = .ok none) :
    ((a.prepareEndorsements p options).2.verify p options none).1 = (a.verify p options none).1 := by
  cases a with
  | openEnclave object =>
    exact congrArg (Except.map PlatformClaims.openEnclave)
      (Oe.verify_prepared object options (hfresh object rfl) hfull hprepare)
  | _ => rfl

end AttestationObject

theorem parseAttestation_fresh (dbl : Doubles) (json : Bytes) (a : AttestationObject)
    (h : parseAttestation codec dbl json = .ok a) : a.Fresh := by
  intro object ha
  subst ha
  unfold parseAttestation at h
  rw [bind_ok] at h
  obtain ⟨j, -, h⟩ := h
  rw [AttestationObject.parse, rethrow_ok] at h
  simp only [bind_ok] at h
  obtain ⟨source, -, evidence, -, evidence', -, endorsements, -, uvm, -, h⟩ := h
  split at h <;> cases h
  rfl

/-! ### Evidence that no endorsements help -/

variable (p) in
/-- The quote is not one that `parse_quote` and the constructor of `SignatureData` accept. -/
def Sgx.QuoteRefused (evidence : Bytes) : Prop :=
  ∀ quote sd, Sgx.parseQuote (mem evidence p.host.beyond) evidence.length = .ok quote →
    Sgx.SignatureData.parse p.ssl (mem evidence p.host.beyond) evidence.length ≠ .ok sd

theorem Sgx.verify_refused (a : Attestation) (h : Sgx.QuoteRefused p a.evidence) (options : Options)
    (httpResponses : Option HTTPResponses) (claims : Sgx.Claims) (hfull : options.isPartial = false) :
    Sgx.verify p.ssl p.host a options httpResponses ≠ .ok claims := by
  intro hverify
  rw [Sgx.verify, bind_ok] at hverify
  obtain ⟨r, hrun, -⟩ := hverify
  obtain ⟨run⟩ := Sgx.verifyRun_full p.ssl p.host a options httpResponses r hfull hrun
  exact h run.quote run.sd run.parsed run.signatureData

variable (p) in
/-- The report names another signature algorithm than the one that is checked. -/
def SevSnp.ReportRefused (evidence : Bytes) : Prop :=
  readLe (mem evidence p.host.beyond) SevSnp.signatureAlgoOff 4 ≠ SevSnp.ecdsaP384Sha384

theorem SevSnp.verify_refused (a : Attestation) (h : SevSnp.ReportRefused p a.evidence)
    (options : Options) (httpResponses : Option HTTPResponses) (claims : SevSnp.Claims) :
    SevSnp.verify p.ssl p.host a options httpResponses ≠ .ok claims := by
  intro hverify
  obtain ⟨vcek, ark, e, -, hreport, -⟩ :=
    (SevSnp.verify_ok_iff p.ssl p.host a options httpResponses claims).1 hverify
  exact h ((SevSnp.verifyReport_ok_iff p.ssl _ _ _ _ _).1 hreport).2.1

namespace AttestationObject

variable (p) in
/-- The evidence is refused whatever the endorsements: its quote cannot be split off or read, or
its report is not one of the signature algorithm expected. -/
def EvidenceRefused : AttestationObject → Prop
  | sgx evidence _ => Sgx.QuoteRefused p evidence
  | sevSnp evidence _ => SevSnp.ReportRefused p evidence
  | openEnclave object => ∀ sgx cc,
      Oe.extractSgxAttestation p.host object.evidence object.endorsements = .ok (sgx, cc) →
        Sgx.QuoteRefused p sgx.evidence
  | aci evidence _ _ => SevSnp.ReportRefused p evidence

theorem verifyExtracted_refused (sgx : Attestation) (cc : Bytes) (h : Sgx.QuoteRefused p sgx.evidence)
    (options : Options) (httpResponses : Option HTTPResponses) (claims : Oe.Claims)
    (hfull : options.isPartial = false) :
    Oe.verifyExtracted p.ssl p.host sgx cc options httpResponses ≠ .ok claims := by
  intro hverify
  rw [Oe.verifyExtracted, bind_ok] at hverify
  obtain ⟨sgxClaims, hsgx, -⟩ := hverify
  exact Sgx.verify_refused sgx h options httpResponses sgxClaims hfull hsgx

theorem verify_refused (a : AttestationObject) (hfresh : a.Fresh) (h : a.EvidenceRefused p)
    (options : Options) (httpResponses : Option HTTPResponses) (claims : PlatformClaims)
    (hfull : options.isPartial = false) : (a.verify p options httpResponses).1 ≠ .ok claims := by
  intro hverify
  cases a with
  | sgx evidence endorsements =>
    obtain ⟨claims', hverify, -⟩ := map_ok.1 hverify
    exact Sgx.verify_refused ⟨.sgx, evidence, endorsements⟩ h options httpResponses claims' hfull hverify
  | sevSnp evidence endorsements =>
    obtain ⟨claims', hverify, -⟩ := map_ok.1 hverify
    exact SevSnp.verify_refused ⟨.sevSnp, evidence, endorsements⟩ h options httpResponses claims' hverify
  | openEnclave object =>
    obtain ⟨claims', hverify, -⟩ := map_ok.1 hverify
    rw [Oe.Attestation.verify, hfresh object rfl] at hverify
    dsimp only at hverify
    split at hverify
    · cases hverify
    · split at hverify
      · cases hverify
      next sgx cc hextract =>
        exact verifyExtracted_refused sgx cc (h sgx cc hextract) options httpResponses claims' hfull hverify
  | aci evidence endorsements uvmEndorsements =>
    obtain ⟨claims', hverify, -⟩ := map_ok.1 hverify
    rw [verifyAci, bind_ok] at hverify
    obtain ⟨snpClaims, hverify, -⟩ := hverify
    exact SevSnp.verify_refused ⟨.aci, evidence, endorsements⟩ h options httpResponses snpClaims hverify

/-- The same of the object as `prepare_endorsements` leaves it. -/
theorem verify_refused_prepared (a : AttestationObject) (hfresh : a.Fresh) (h : a.EvidenceRefused p)
    (options : Options) (httpResponses : Option HTTPResponses) (claims : PlatformClaims)
    (hfull : options.isPartial = false) :
    ((a.prepareEndorsements p options).2.verify p options httpResponses).1 ≠ .ok claims := by
  cases a with
  | openEnclave object =>
    cases hextract : Oe.extractSgxAttestation p.host object.evidence object.endorsements with
    | error e =>
      have hleft : ((openEnclave object).prepareEndorsements p options).2 = openEnclave object := by
        simp only [AttestationObject.prepareEndorsements, Oe.Attestation.prepareEndorsements, hextract]
      rw [hleft]
      exact verify_refused _ hfresh h options httpResponses claims hfull
    | ok r =>
      have hleft : ((openEnclave object).prepareEndorsements p options).2 =
          openEnclave (object.fill r.1 r.2) := by
        simp only [AttestationObject.prepareEndorsements, Oe.Attestation.prepareEndorsements, hextract]
      intro hverify
      rw [hleft] at hverify
      obtain ⟨claims', hverify, -⟩ := map_ok.1 hverify
      exact verifyExtracted_refused r.1 r.2 (h r.1 r.2 hextract) options httpResponses claims' hfull hverify
  | _ => exact verify_refused _ hfresh h options httpResponses claims hfull

end AttestationObject

/-! ### The C interface and the C++ one -/

variable (p)

/-- RAVL_OK for the text means that it is an attestation which `verify_synchronous` verifies. -/
def AgreesWithCpp (server : Server) (json : Bytes) (options : Option RavlOptions) : Prop :=
  (∃ message, verifyAttestationJson codec p json options = .ok (.ok, message)) ↔
    ∃ a claims, parseAttestation codec p.host.doubles json = .ok a ∧
      verifySynchronous p server a (cppOptions options) = .ok claims

variable {codec p}

theorem verifySynchronous_ok (server : Server) (a : AttestationObject) (options : Options)
    (claims : PlatformClaims) :
    verifySynchronous p server a options = .ok claims ↔
      ((a.prepareEndorsements p options).1 = .ok none ∧
        ((a.prepareEndorsements p options).2.verify p options none).1 = .ok claims) ∨
      ∃ requests id entries, (a.prepareEndorsements p options).1 = .ok (some requests) ∧
        ((clientFor options).execute server requests []).1 = .ok (id, entries) ∧
        ((a.prepareEndorsements p options).2.verify p options
          (some (entries.map Entry.response))).1 = .ok claims := by
  unfold verifySynchronous
  cases a.prepareEndorsements p options with
  | mk prepared left =>
    cases prepared with
    | error e =>
      refine ⟨nofun, fun h => ?_⟩
      obtain ⟨hnone, -⟩ | ⟨_, _, _, hsome, -⟩ := h
      · cases hnone
      · cases hsome
    | ok requests =>
      cases requests with
      | none =>
        refine ⟨fun h => Or.inl ⟨rfl, h⟩, fun h => ?_⟩
        obtain ⟨-, hverify⟩ | ⟨_, _, _, hsome, -⟩ := h
        · exact hverify
        · cases hsome
      | some requests =>
        dsimp only
        cases hexecute : ((clientFor options).execute server requests []).1 with
        | error e =>
          refine ⟨nofun, fun h => ?_⟩
          obtain ⟨hnone, -⟩ | ⟨_, _, _, hsome, hok, -⟩ := h
          · cases hnone
          · cases hsome
            rw [hexecute] at hok
            cases hok
        | ok delivered =>
          refine ⟨fun h => Or.inr ⟨requests, _, _, rfl, hexecute, h⟩, fun h => ?_⟩
          obtain ⟨hnone, -⟩ | ⟨_, _, _, hsome, hok, hverify⟩ := h
          · cases hnone
          · cases hsome
            rw [hexecute] at hok
            cases hok
            exact hverify

/-- Some server makes `verify_synchronous` fail where something is asked for. -/
theorem verifySynchronous_unreachable (a : AttestationObject) (options : Options)
    (hneeds : (a.prepareEndorsements p options).1 ≠ .ok none) (claims : PlatformClaims) :
    verifySynchronous p (scripted []) a options ≠ .ok claims := by
  intro h
  obtain ⟨hnone, -⟩ | ⟨requests, id, entries, hprepare, hexecute, -⟩ :=
    (verifySynchronous_ok (scripted []) a options claims).1 h
  · exact hneeds hnone
  · have hne : requests ≠ [] := by
      intro heq
      subst heq
      exact a.prepareEndorsements_ne_nil options hprepare
    obtain ⟨e, he⟩ := execute_unreachable options.httpTimeout options.httpMaxAttempts requests hne
    have hfails : ((clientFor options).execute (scripted []) requests []).1 = .error e := he
    rw [hfails] at hexecute
    cases hexecute

theorem agreesWithCpp_iff (server : Server) (json : Bytes) (options : Option RavlOptions)
    (a : AttestationObject) (hparse : parseAttestation codec p.host.doubles json = .ok a) :
    AgreesWithCpp codec p server json options ↔
      ((∃ claims, (a.verify p (cppOptions options) none).1 = .ok claims) ↔
        ∃ claims, verifySynchronous p server a (cppOptions options) = .ok claims) := by
  unfold AgreesWithCpp verifyAttestationJson
  rw [verifyParsed_ok, hparse]
  simp

/-- Where something is asked for and not waited for, a server that sends nothing tells the two
apart. -/
theorem disagrees_unreachable (json : Bytes) (options : Option RavlOptions) (a : AttestationObject)
    (hparse : parseAttestation codec p.host.doubles json = .ok a)
    (hneeds : (a.prepareEndorsements p (cppOptions options)).1 ≠ .ok none) (claims : PlatformClaims)
    (hverify : (a.verify p (cppOptions options) none).1 = .ok claims) :
    ¬ AgreesWithCpp codec p (scripted []) json options := by
  rw [agreesWithCpp_iff (scripted []) json options a hparse]
  intro hagree
  obtain ⟨claims', h⟩ := hagree.1 ⟨claims, hverify⟩
  exact verifySynchronous_unreachable a _ hneeds claims' h

/-- Nothing is asked for: neither side asks. -/
theorem agrees_of_prepared (server : Server) (json : Bytes) (options : Option RavlOptions)
    (a : AttestationObject) (hparse : parseAttestation codec p.host.doubles json = .ok a)
    (hnothing : (a.prepareEndorsements p (cppOptions options)).1 = .ok none) :
    AgreesWithCpp codec p server json options := by
  have hverify := a.verify_prepared _ (parseAttestation_fresh codec _ json a hparse)
    (cppOptions_full options) hnothing
  have hcpp (claims : PlatformClaims) : verifySynchronous p server a (cppOptions options) = .ok claims ↔
      (a.verify p (cppOptions options) none).1 = .ok claims := by
    rw [verifySynchronous_ok, hnothing, hverify]
    simp
  rw [agreesWithCpp_iff server json options a hparse]
  simp only [hcpp]

/-- The evidence is refused: neither side gets any further, whatever is downloaded. -/
theorem agrees_of_refused (server : Server) (json : Bytes) (options : Option RavlOptions)
    (a : AttestationObject) (hparse : parseAttestation codec p.host.doubles json = .ok a)
    (hrefused : a.EvidenceRefused p) : AgreesWithCpp codec p server json options := by
  have hfresh := parseAttestation_fresh codec _ json a hparse
  have hfull := cppOptions_full options
  rw [agreesWithCpp_iff server json options a hparse]
  constructor
  · intro ⟨claims, hverify⟩
    exact absurd hverify (a.verify_refused hfresh hrefused _ none claims hfull)
  · intro ⟨claims, hverify⟩
    obtain ⟨-, hverify⟩ | ⟨requests, id, entries, -, -, hverify⟩ :=
      (verifySynchronous_ok server a _ claims).1 hverify
    · exact absurd hverify (a.verify_refused_prepared hfresh hrefused _ none claims hfull)
    · exact absurd hverify (a.verify_refused_prepared hfresh hrefused _ _ claims hfull)

/-- The two interfaces agree, whatever the server sends, where nothing is asked for or where the
evidence alone decides. -/
theorem c_api_agrees (server : Server) (json : Bytes) (options : Option RavlOptions)
    (h : ∀ a, parseAttestation codec p.host.doubles json = .ok a →
      (a.prepareEndorsements p (cppOptions options)).1 = .ok none ∨ a.EvidenceRefused p) :
    AgreesWithCpp codec p server json options := by
  cases hparse : parseAttestation codec p.host.doubles json with
  | error e =>
    unfold AgreesWithCpp verifyAttestationJson
    rw [verifyParsed_ok, hparse]
    simp
  | ok a =>
    obtain hnothing | hrefused := h a hparse
    · exact agrees_of_prepared server json options a hparse hnothing
    · exact agrees_of_refused server json options a hparse hrefused

end

def reportJson : Bytes :=
  text "\x7b\"evidence\":\"" ++ Base64Lib.encode SevSnp.fullReport ++ text "\",\"source\":\"sevsnp\"\x7d"

def reportCodec : Codec := oneValueCodec reportJson [] .null

def contentPlatform : Platform Bytes Bytes Bytes where
  ssl := SevSnp.contentSsl
  host := plainHost
  verifyUvmEndorsements _ _ := .ok ()

def vcekChain : Bytes := pemBegin ++ text "vcek" ++ pemEnd ++ sampleChain

/-- The same report with the chain of its VCEK certificate -/
def endorsedJson : Bytes :=
  text "\x7b\"endorsements\":\"" ++ Base64Lib.encode vcekChain ++ text "\",\"evidence\":\"" ++
    Base64Lib.encode SevSnp.fullReport ++ text "\",\"source\":\"sevsnp\"\x7d"

theorem c_api_agrees_endorsed : ∃ a claims,
    parseAttestation reportCodec contentPlatform.host.doubles endorsedJson = .ok a ∧
      verifySynchronous contentPlatform (scripted []) a (cppOptions none) = .ok claims := by
  have hparse : ∃ a, parseAttestation reportCodec contentPlatform.host.doubles endorsedJson = .ok a ∧
      a = .sevSnp SevSnp.fullReport vcekChain := ok_of_map (f := id) (by decide +kernel)
  have hverify : ∃ claims, ((AttestationObject.sevSnp SevSnp.fullReport vcekChain).verify contentPlatform
      (cppOptions none) none).1 = .ok claims := ok_of_isSome (by decide +kernel)
  obtain ⟨a, hparse, ha⟩ := hparse
  obtain ⟨claims, hclaims⟩ := hverify
  rw [← ha] at hclaims
  have hagree : AgreesWithCpp reportCodec contentPlatform (scripted []) endorsedJson none := by
    refine c_api_agrees (scripted []) endorsedJson none fun a' ha' => Or.inl ?_
    obtain rfl := Except.ok.inj (hparse.symm.trans ha')
    rw [ha]
    rfl
  have hc : ∃ message, verifyAttestationJson reportCodec contentPlatform endorsedJson none =
      .ok (.ok, message) :=
    (verifyParsed_ok contentPlatform (parseAttestation reportCodec contentPlatform.host.doubles endorsedJson)
      none).2 ⟨a, claims, hparse, hclaims⟩
  exact hagree.1 hc

def kdsServer : Server := scripted
  [⟨200, [], [text "vcek"]⟩, ⟨200, [], [sampleChain]⟩, ⟨200, [], [text "crl"]⟩]

theorem c_api_does_not_download :
    ¬ ∀ (codec : Codec) (p : Platform Bytes Bytes Bytes) (json : Bytes)
        (options : Option RavlOptions) (server : Server), AgreesWithCpp codec p server json options := by
  intro h
  have hagree := h reportCodec contentPlatform reportJson none kdsServer
  have hparse : ∃ a, parseAttestation reportCodec plainHost.doubles reportJson = .ok a ∧
      a = .sevSnp SevSnp.fullReport [] := ok_of_map (f := id) (by decide +kernel)
  have hcpp : ∃ claims, verifySynchronous contentPlatform kdsServer (.sevSnp SevSnp.fullReport [])
      (cppOptions none) = .ok claims := ok_of_isSome (by decide +kernel)
  have hc : ∃ r, verifyAttestationJson reportCodec contentPlatform reportJson none = .ok r ∧
      r = (.error, some "missing endorsements") := ok_of_map (f := id) (by decide +kernel)
  obtain ⟨a, ha, rfl⟩ := hparse
  obtain ⟨claims, hclaims⟩ := hcpp
  obtain ⟨message, hok⟩ := hagree.2 ⟨_, claims, ha, hclaims⟩
  obtain ⟨r, hr, rfl⟩ := hc
  rw [hr] at hok
  cases hok

end Ravl
