import Ravl.Sgx.Collateral
import Ravl.Sgx.TcbJson

/-!
# Verification of SGX attestations (sgx_impl.h:138-236, 1201-1446)

`verifyRun` and `partialVerifyRun` return, next to the claims, the store as they
leave it and the collateral they used, which the source keeps in local variables.
-/

namespace Ravl.Sgx
open ByteLib FallibleLib

structure Verified (X509 Crl : Type) where
  claims : Claims
  store : Store X509 Crl
  collateral : Option QlQveCollateral

section
variable {X509 Crl Pkey : Type} (ssl : OpenSsl X509 Crl Pkey) (host : Host)

/-- `make_claims` with collateral; the TCB info of the claims is its issuer chain. -/
def makeClaimsWith (m unset : Memory) (sd : SignatureData) (c : QlQveCollateral) : Claims :=
  { makeClaims m unset sd with
    endorsements := {
      majorVersion := c.majorVersion
      minorVersion := c.minorVersion
      teeType := c.teeType
      rootCa := c.rootCa
      pckCrlIssuerChain := c.pckCrlIssuerChain
      rootCaCrl := c.rootCaCrl
      pckCrl := c.pckCrl
      tcbInfoIssuerChain := c.tcbInfoIssuerChain
      tcbInfo := c.tcbInfoIssuerChain
      qeIdentityIssuerChain := c.qeIdentityIssuerChain
      qeIdentity := c.qeIdentity } }

def printChain (pem : Bytes) : Result Unit := do
  let stack ← ssl.pemStack pem
  printStack ssl stack

def printCrlPem (pem : Bytes) : Result Unit := do
  let crl ← ssl.pemCrl pem
  ssl.printCrl crl

/-- `QL_QVE_Collateral::to_string` for a verbosity above 0 (sgx_impl.h:170-234) -/
def QlQveCollateral.print (c : QlQveCollateral) : Result Unit := do
  printCrlPem ssl c.rootCaCrl
  printChain ssl c.pckCrlIssuerChain
  printCrlPem ssl c.pckCrl
  printChain ssl c.tcbInfoIssuerChain
  printChain ssl c.qeIdentityIssuerChain

/-- The checks of the PCK certificates, of both signatures and of the authentication hash,
which `verify` and `partial_verify` make in the same words; the PCK leaf is returned. -/
def verifyQuote (m : Memory) (quote : Span) (sd : SignatureData) (pckCertChain : List X509)
    (options : Options) : Result X509 := do
  let pckLeaf ← orThrow pckCertChain.head? (.exception "index into stack out of range")
  let pckRoot ← orThrow pckCertChain.getLast? (.exception "index into stack out of range")
  refuse (ssl.hasCommonName pckLeaf pckCertCommonName = false)
    (.exception "PCK certificate does not have expected common name")
  checkManufacturerKey ssl options pckRoot
    "root CA certificate does not have the expected Intel SGX public key"
  refuse (ssl.isCa pckRoot = false) (.exception "root certificate is not from a CA")
  let qeLeafPubkey ← ssl.pubkey pckLeaf
  let qeSigOk ← verifySignature ssl qeLeafPubkey (sd.report.read m) (sd.reportSignature.read m)
  refuse (qeSigOk = false) (.exception "QE signature verification failed")
  let quoteKey ← ssl.p256 (sd.publicKey.read m)
  let quoteSigOk ← verifySignature ssl quoteKey (quote.read m) (sd.quoteSignature.read m)
  refuse (quoteSigOk = false) (.exception "quote signature verification failed")
  refuse (verifyHashMatch ssl [sd.publicKey.read m, sd.authData.read m]
      (sub (sd.reportData.read m) 0 32) = false)
    (.exception "QE authentication message hash mismatch")
  pure pckLeaf

def crlCheckingFlags : Flags := crlCheck ||| crlCheckAll

/-- `partial_verify` (sgx_impl.h:1224-1287) -/
def partialVerifyRun (a : Attestation) (options : Options) : Result (Verified X509 Crl) := do
  let store : Store X509 Crl := ({} : Store X509 Crl).setFlags crlCheckingFlags
  let m := mem a.evidence host.beyond
  let quote ← parseQuote m a.evidence.length
  let sd ← SignatureData.parse ssl m a.evidence.length
  let (pckCertChain, store) ← verifyPem ssl sd.certificationData store
    options.certificateVerification true options.verbosity
  let _ ← verifyQuote ssl m quote sd pckCertChain options
  pure ⟨makeClaims m host.unset sd, store, none⟩

/-- The collateral the checks are made with (sgx_impl.h:1308-1314). -/
def usedCollateral (a : Attestation) (options : Options) (httpResponses : Option HTTPResponses) :
    Result (Option QlQveCollateral) := do
  let collateral ← embeddedCollateral a.endorsements
  match httpResponses with
  | some (r :: rs) =>
    let c ← consumeUrlResponses options (r :: rs) collateral false
    pure (some c)
  | _ => pure collateral

/-- The store with both revocation lists and the root certificate of the collateral, if it has
one; else the end of the first chain is going to be trusted. -/
def prepareStore (c : QlQveCollateral) : Result (Store X509 Crl × Bool) := do
  let store : Store X509 Crl := ({} : Store X509 Crl).setFlags crlCheckingFlags
  let store ← ssl.storeAddCrlPem store c.rootCaCrl
  let store ← ssl.storeAddCrlPem store c.pckCrl
  if c.rootCa ≠ [] then do
    let store ← ssl.storeAddPem store c.rootCa
    pure (store, false)
  else pure (store, true)

/-- What is logged about the root certificate. -/
def printRoot (c : QlQveCollateral) (trustedRoot : Bool) (chain : List X509) : Result Unit :=
  if trustedRoot then do
    let root ← orThrow chain.getLast? (.exception "index into stack out of range")
    ssl.printX509 root
  else do
    let root ← ssl.pemX509 c.rootCa
    ssl.printX509 root

/-- `verify` (sgx_impl.h:1289-1446) -/
def verifyRun (a : Attestation) (options : Options) (httpResponses : Option HTTPResponses) :
    Result (Verified X509 Crl) :=
  if options.isPartial then partialVerifyRun ssl host a options
  else do
    refuse (a.endorsements = [] ∧ httpResponses.getD [] = []) (.exception "missing endorsements")
    let collateral ← usedCollateral a options httpResponses
    let m := mem a.evidence host.beyond
    let quote ← parseQuote m a.evidence.length
    let sd ← SignatureData.parse ssl m a.evidence.length
    let c ← orThrow collateral (.undefined "null collateral")
    whenever (0 < options.verbosity) (c.print ssl)
    let (store, trustedRoot) ← prepareStore ssl c
    let (pckCrlIssuerChain, store) ← verifyPem ssl c.pckCrlIssuerChain store
      options.certificateVerification trustedRoot options.verbosity
    whenever (0 < options.verbosity) (printRoot ssl c trustedRoot pckCrlIssuerChain)
    let (pckCertChain, store) ← verifyPem ssl sd.certificationData store
      options.certificateVerification false options.verbosity
    let pckLeaf ← verifyQuote ssl m quote sd pckCertChain options
    let pckExt ← CertificateExtension.ofCertificate ssl pckLeaf
    let _ ← verifyTcb ssl host c.tcbInfoIssuerChain c.tcbInfo pckExt store options
    let _ ← verifyQeId ssl host c.qeIdentityIssuerChain c.qeIdentity
      (readReportBody m sd.report.off) store options
    pure ⟨makeClaimsWith m host.unset sd c, store, some c⟩

def verify (a : Attestation) (options : Options) (httpResponses : Option HTTPResponses) :
    Result Claims := do
  let r ← verifyRun ssl host a options httpResponses
  pure r.claims

/-! ### What a run that returned went through -/

/-- The steps of `partial_verify`, each with its result. -/
structure PartialRun (a : Attestation) (options : Options) (r : Verified X509 Crl) where
  quote : Span
  sd : SignatureData
  pckCertChain : List X509
  pckLeaf : X509
  parsed : parseQuote (mem a.evidence host.beyond) a.evidence.length = .ok quote
  signatureData : SignatureData.parse ssl (mem a.evidence host.beyond) a.evidence.length = .ok sd
  chain : verifyPem ssl sd.certificationData (({} : Store X509 Crl).setFlags crlCheckingFlags)
    options.certificateVerification true options.verbosity = .ok (pckCertChain, r.store)
  checked : verifyQuote ssl (mem a.evidence host.beyond) quote sd pckCertChain options = .ok pckLeaf
  claims : r.claims = makeClaims (mem a.evidence host.beyond) host.unset sd
  collateral : r.collateral = none

/-- The steps of `verify` in full mode. -/
structure FullRun (a : Attestation) (options : Options) (httpResponses : Option HTTPResponses)
    (r : Verified X509 Crl) where
  c : QlQveCollateral
  quote : Span
  sd : SignatureData
  store : Store X509 Crl
  trustedRoot : Bool
  pckCrlIssuerChain : List X509
  trusting : Store X509 Crl
  pckCertChain : List X509
  pckLeaf : X509
  pckExt : CertificateExtension
  level : TCBLevel
  present : ¬ (a.endorsements = [] ∧ httpResponses.getD [] = [])
  used : usedCollateral a options httpResponses = .ok (some c)
  parsed : parseQuote (mem a.evidence host.beyond) a.evidence.length = .ok quote
  signatureData : SignatureData.parse ssl (mem a.evidence host.beyond) a.evidence.length = .ok sd
  prepared : prepareStore ssl c = .ok (store, trustedRoot)
  crlChain : verifyPem ssl c.pckCrlIssuerChain store options.certificateVerification trustedRoot
    options.verbosity = .ok (pckCrlIssuerChain, trusting)
  chain : verifyPem ssl sd.certificationData trusting options.certificateVerification false
    options.verbosity = .ok (pckCertChain, r.store)
  checked : verifyQuote ssl (mem a.evidence host.beyond) quote sd pckCertChain options = .ok pckLeaf
  extension : CertificateExtension.ofCertificate ssl pckLeaf = .ok pckExt
  tcb : verifyTcb ssl host c.tcbInfoIssuerChain c.tcbInfo pckExt r.store options = .ok level
  qeId : verifyQeId ssl host c.qeIdentityIssuerChain c.qeIdentity
    (readReportBody (mem a.evidence host.beyond) sd.report.off) r.store options = .ok true
  claims : r.claims = makeClaimsWith (mem a.evidence host.beyond) host.unset sd c
  collateral : r.collateral = some c

theorem partialVerifyRun_ok (a : Attestation) (options : Options) (r : Verified X509 Crl)
    (h : partialVerifyRun ssl host a options = .ok r) :
    Nonempty (PartialRun ssl host a options r) := by
  simp only [partialVerifyRun, bind_ok, pure_ok] at h
  obtain ⟨quote, hquote, sd, hsd, ⟨chain, store⟩, hchain, leaf, hleaf, rfl⟩ := h
  exact ⟨⟨quote, sd, chain, leaf, hquote, hsd, hchain, hleaf, rfl, rfl⟩⟩

theorem verifyQeId_true (chain qeIdentity : Bytes) (report : ReportBody) (store : Store X509 Crl)
    (options : Options) (b : Bool)
    (h : verifyQeId ssl host chain qeIdentity report store options = .ok b) : b = true := by
  simp only [verifyQeId, bind_ok, pure_ok] at h
  obtain ⟨_, -, hb⟩ := h
  exact hb.symm

theorem verifyRun_full (a : Attestation) (options : Options) (httpResponses : Option HTTPResponses)
    (r : Verified X509 Crl) (hfull : options.isPartial = false)
    (h : verifyRun ssl host a options httpResponses = .ok r) :
    Nonempty (FullRun ssl host a options httpResponses r) := by
  unfold verifyRun at h
  rw [hfull] at h
  simp only [Bool.false_eq_true, if_false, bind_ok, pure_ok, refuse_ok, orThrow_ok,
    whenever_ok] at h
  obtain ⟨_, hpresent, collateral, hused, quote, hquote, sd, hsd, c, rfl, _, -, ⟨store, trusted⟩, hstore,
    ⟨chain₁, store₁⟩, hchain₁, _, -, ⟨chain₂, store₂⟩, hchain₂, leaf, hleaf, ext, hext, level, htcb,
    b, hqe, rfl⟩ := h
  rw [verifyQeId_true ssl host _ _ _ _ _ _ hqe] at hqe
  exact ⟨{
    c := c, quote := quote, sd := sd, store := store, trustedRoot := trusted
    pckCrlIssuerChain := chain₁, trusting := store₁, pckCertChain := chain₂, pckLeaf := leaf
    pckExt := ext, level := level, present := hpresent, used := hused, parsed := hquote
    signatureData := hsd, prepared := hstore, crlChain := hchain₁, chain := hchain₂
    checked := hleaf, extension := hext, tcb := htcb, qeId := hqe, claims := rfl
    collateral := rfl }⟩

theorem verifyRun_partial (a : Attestation) (options : Options)
    (httpResponses : Option HTTPResponses) (r : Verified X509 Crl)
    (hmode : options.isPartial = true) (h : verifyRun ssl host a options httpResponses = .ok r) :
    Nonempty (PartialRun ssl host a options r) := by
  unfold verifyRun at h
  rw [if_pos hmode] at h
  exact partialVerifyRun_ok ssl host a options r h

end

end Ravl.Sgx
