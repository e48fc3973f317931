import Ravl.Attestation
import Ravl.HttpClient
import Ravl.Sgx.Quote

/-!
# SGX collateral: its encoding, the requests for it and the responses
(sgx_impl.h:101-162, 279-357, 385-462, 1114-1152)

`prepare_endorsements` decides which documents are asked for and in which order;
`consume_url_responses` decides again which response is which document. The
second half of the module compares the two decisions.
-/

namespace Ravl.Sgx
open ByteLib FallibleLib

/-! ### `QL_QVE_Collateral` -/

structure QlQveCollateral where
  majorVersion : ℕ := 3
  minorVersion : ℕ := 1
  teeType : ℕ := 0
  rootCa : Bytes := []
  pckCrlIssuerChain : Bytes := []
  rootCaCrl : Bytes := []
  pckCrl : Bytes := []
  tcbInfoIssuerChain : Bytes := []
  tcbInfo : Bytes := []
  qeIdentityIssuerChain : Bytes := []
  qeIdentity : Bytes := []
  deriving DecidableEq

/-- A length of eight bytes and as many bytes. -/
def getBlock (w : ℕ) (data : Bytes) (pos : ℕ) : Result (Bytes × ℕ) := do
  let (n, pos) ← get w 8 data pos
  getN w data (n % 2 ^ w) pos

/-- The constructor from a buffer, for a `size_t` of `w` bits. -/
def QlQveCollateral.parse (w : ℕ) (data : Bytes) : Result QlQveCollateral := do
  let (majorVersion, pos) ← get w 2 data 0
  let (minorVersion, pos) ← get w 2 data pos
  let (teeType, pos) ← get w 4 data pos
  let (pckCrlIssuerChain, pos) ← getBlock w data pos
  let (rootCaCrl, pos) ← getBlock w data pos
  let (pckCrl, pos) ← getBlock w data pos
  let (tcbInfoIssuerChain, pos) ← getBlock w data pos
  let (tcbInfo, pos) ← getBlock w data pos
  let (qeIdentityIssuerChain, pos) ← getBlock w data pos
  let (qeIdentity, pos) ← getBlock w data pos
  refuse (pos ≠ data.length) (.exception "excess collateral data")
  pure {
    majorVersion, minorVersion, teeType, pckCrlIssuerChain, rootCaCrl, pckCrl, tcbInfoIssuerChain
    tcbInfo, qeIdentityIssuerChain, qeIdentity }

theorem QlQveCollateral.parse_rootCa (w : ℕ) (data : Bytes) (c : QlQveCollateral)
    (h : QlQveCollateral.parse w data = .ok c) : c.rootCa = [] := by
  simp only [QlQveCollateral.parse, bind_ok, pure_ok] at h
  obtain ⟨_, -, _, -, _, -, _, -, _, -, _, -, _, -, _, -, _, -, _, -, _, -, rfl⟩ := h
  rfl

/-- The collateral embedded in an attestation, if there is any. -/
def embeddedCollateral (endorsements : Bytes) : Result (Option QlQveCollateral) :=
  if endorsements = [] then pure none
  else do
    let c ← QlQveCollateral.parse 64 endorsements
    pure (some c)

theorem embeddedCollateral_parse (endorsements : Bytes) (c : QlQveCollateral)
    (h : embeddedCollateral endorsements = .ok (some c)) :
    endorsements ≠ [] ∧ QlQveCollateral.parse 64 endorsements = .ok c := by
  unfold embeddedCollateral at h
  split at h
  · simp [pure_ok] at h
  next hne =>
    simp only [bind_ok, pure_ok, Option.some.injEq] at h
    obtain ⟨c', hc, rfl⟩ := h
    exact ⟨hne, hc⟩

theorem embeddedCollateral_some (endorsements : Bytes) (c : QlQveCollateral)
    (h : embeddedCollateral endorsements = .ok (some c)) : endorsements ≠ [] ∧ c.rootCa = [] := by
  obtain ⟨hne, hparse⟩ := embeddedCollateral_parse endorsements c h
  exact ⟨hne, QlQveCollateral.parse_rootCa 64 endorsements c hparse⟩

theorem embeddedCollateral_none (endorsements : Bytes)
    (h : embeddedCollateral endorsements = .ok none) : endorsements = [] := by
  unfold embeddedCollateral at h
  split at h
  next he => exact he
  next =>
    simp only [bind_ok, pure_ok] at h
    obtain ⟨c', -, hc⟩ := h
    cases hc

/-! ### Requests (sgx_impl.h:279-357) -/

def intelCertificatesUrlBase : Bytes := text "https://certificates.trustedservices.intel.com"
def rootCaUrl : Bytes :=
  intelCertificatesUrlBase ++ text "/Intel_SGX_Provisioning_Certification_RootCA.pem"
def rootCrlUrl : Bytes := intelCertificatesUrlBase ++ text "/IntelSGXRootCA.crl"
def apiBaseUrl : Bytes := text "https://api.trustedservices.intel.com/sgx/certification/v3"
def tcbUrl : Bytes := apiBaseUrl ++ text "/tcb"
def pckCrlUrl : Bytes := apiBaseUrl ++ text "/pckcrl"
def qeIdentityUrl : Bytes := apiBaseUrl ++ text "/qe/identity"
def qveIdentityUrl : Bytes := apiBaseUrl ++ text "/qve/identity"

def downloadRootCaPem : HTTPRequests := [{ url := rootCaUrl }]

section
variable {X509 Crl Pkey : Type} (ssl : OpenSsl X509 Crl Pkey) (host : Host)

def downloadCollateral (ca fmspc : Bytes) (options : Options) (qve : Bool) :
    Result HTTPRequests := do
  let rootCa : HTTPRequests :=
    if options.rootCaCertificate = none then [{ url := rootCaUrl }] else []
  match options.sgxEndorsementCacheUrlTemplate with
  | none =>
    pure (rootCa ++ [
      { url := rootCrlUrl },
      { url := tcbUrl ++ text "?fmspc=" ++ fmspc },
      { url := pckCrlUrl ++ text "?ca=" ++ ca ++ text "&encoding=pem" },
      { url := if qve then qveIdentityUrl else qeIdentityUrl }])
  | some tmpl =>
    let rootCrl ← ssl.vformat tmpl [text "pckcrl", rootCrlUrl]
    let tcb ← ssl.vformat tmpl [text "tcb", tcbUrl ++ text "&fmspc=" ++ fmspc]
    let pckCrl ← ssl.vformat tmpl [text "pckcrl",
      intelCertificatesUrlBase ++ text "/intelsgxpck" ++ ca ++ text ".crl" ++ text "&encoding=pem"]
    let identity ← ssl.vformat tmpl
      (if qve then [text "qve/identity", qveIdentityUrl] else [text "qe/identity", qeIdentityUrl])
    pure (rootCa ++ [{ url := rootCrl }, { url := tcb }, { url := pckCrl }, { url := identity }])

/-- `Attestation::prepare_endorsements` (sgx_impl.h:1114-1152) -/
def prepareEndorsements (a : Attestation) (options : Options) : Result (Option HTTPRequests) :=
  if (a.endorsements ≠ [] ∧ options.freshEndorsements = false ∧
      options.freshRootCaCertificate = false) ∨ options.isPartial then pure none
  else do
    let m := mem a.evidence host.beyond
    let _ ← parseQuote m a.evidence.length
    let signatureData ← SignatureData.parse ssl m a.evidence.length
    if a.endorsements ≠ [] ∧ options.freshEndorsements = false then
      pure (if options.rootCaCertificate = none then some downloadRootCaPem else none)
    else do
      let pckLeaf ← ssl.pemX509 (extractPemCertificate signatureData.certificationData).1
      let pckExt ← CertificateExtension.ofCertificate ssl pckLeaf
      let havePid := pckExt.platformInstanceId.any fun id => !isAllZero id
      let caType := if havePid then text "platform" else text "processor"
      let requests ← downloadCollateral ssl caType (toHex pckExt.fmspc) options false
      pure (some requests)

end

/-! ### Responses (sgx_impl.h:385-462) -/

def checkHttp200 (response : HTTPResponse) (name : String) : Result Unit :=
  refuse (response.status ≠ 200) (.exception ("download of " ++ name ++ " failed"))

/-- `http_responses[i]` -/
def responseAt (rs : HTTPResponses) (i : ℕ) : Result HTTPResponse :=
  orThrow rs[i]? (.undefined "http_responses: index out of range")

def expectedResponses (options : Options) (collateral : Option QlQveCollateral) : ℕ :=
  (if collateral = none ∨
      ((collateral.any fun c => c.rootCa = []) ∧ options.rootCaCertificate = none) ∨
      options.freshRootCaCertificate then 1 else 0) +
    (if collateral = none ∨ options.freshEndorsements then 4 else 0)

def tcbInfoChainHeader : Bytes := text "SGX-TCB-Info-Issuer-Chain"
def pckCrlChainHeader : Bytes := text "SGX-PCK-CRL-Issuer-Chain"
def identityChainHeader : Bytes := text "SGX-Enclave-Identity-Issuer-Chain"

/-- The five documents from the `i`-th response on, less the root certificate. -/
def consumeDocuments (rs : HTTPResponses) (r : QlQveCollateral) (i : ℕ) (qve : Bool) :
    Result QlQveCollateral := do
  let crl ← responseAt rs i
  checkHttp200 crl "root CA CRL"
  let tcb ← responseAt rs (i + 1)
  checkHttp200 tcb "TCB info"
  let tcbChain ← tcb.getHeaderString tcbInfoChainHeader true
  let pck ← responseAt rs (i + 2)
  checkHttp200 pck "PCK CRL"
  let pckChain ← pck.getHeaderString pckCrlChainHeader true
  let identity ← responseAt rs (i + 3)
  checkHttp200 identity (if qve then "QVE identity" else "QE identity")
  let identityChain ← identity.getHeaderString identityChainHeader true
  pure { r with
    rootCaCrl := crl.body
    tcbInfo := tcb.body
    tcbInfoIssuerChain := tcbChain
    pckCrl := pck.body
    pckCrlIssuerChain := pckChain
    qeIdentity := identity.body
    qeIdentityIssuerChain := identityChain }

/-- The root certificate, and the index of the next response. -/
def consumeRootCa (options : Options) (rs : HTTPResponses) (r : QlQveCollateral) :
    Result (QlQveCollateral × ℕ) :=
  if options.rootCaCertificate = none then do
    let ca ← responseAt rs 0
    checkHttp200 ca "root CA certificate"
    pure ({ r with rootCa := ca.body }, 1)
  else pure (r, 0)

def consumeUrlResponses (options : Options) (rs : HTTPResponses)
    (collateral : Option QlQveCollateral) (qve : Bool) : Result QlQveCollateral := do
  refuse (rs.length ≠ expectedResponses options collateral)
    (.exception ("collateral download request set of unexpected size (" ++ toString rs.length ++
      " vs " ++ toString (expectedResponses options collateral) ++ ")"))
  let (r, i) ← consumeRootCa options rs (collateral.getD {})
  if 4 < rs.length then consumeDocuments rs r i qve else pure r

end Ravl.Sgx
