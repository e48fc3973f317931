import Ravl.Attestation
import Ravl.Crypto
import Ravl.HttpClient

/-!
# Verification of SEV/SNP attestations (sev_snp_impl.h)

The report is read through a pointer of type `snp::Attestation`: the offsets are
those of Table 21. As for SGX, `verifyRun` returns the store and the endorsements
next to the claims.
-/

namespace Ravl.SevSnp
open ByteLib FallibleLib

/-! ### The report -/

structure TCBVersion where
  bootLoader : Byte
  tee : Byte
  snp : Byte
  microcode : Byte
  deriving DecidableEq

def readTcbVersion (m : ℕ → Byte) (a : ℕ) : TCBVersion := ⟨m a, m (a + 1), m (a + 6), m (a + 7)⟩

structure Signature where
  r : Bytes
  s : Bytes
  deriving DecidableEq

def signatureSize : ℕ := 512
def signatureAlgoOff : ℕ := 0x34
def reportedTcbOff : ℕ := 0x180
def chipIdOff : ℕ := 0x1A0
def signatureOff : ℕ := 0x2A0
def ecdsaP384Sha384 : ℕ := 1

def readSignature (m : ℕ → Byte) : Signature :=
  ⟨readMem m signatureOff 72, readMem m (signatureOff + 72) 72⟩

def kdsUrl : Bytes := text "https://kdsintf.amd.com"

def amdMilanRootSigningPublicKey : Bytes := text ("-----BEGIN PUBLIC KEY-----\n" ++
  "MIICIjANBgkqhkiG9w0BAQEFAAOCAg8AMIICCgKCAgEA0Ld52RJOdeiJlqK2JdsV\n" ++
  "mD7FktuotWwX1fNgW41XY9Xz1HEhSUmhLz9Cu9DHRlvgJSNxbeYYsnJfvyjx1MfU\n" ++
  "0V5tkKiU1EesNFta1kTA0szNisdYc9isqk7mXT5+KfGRbfc4V/9zRIcE8jlHN61S\n" ++
  "1ju8X93+6dxDUrG2SzxqJ4BhqyYmUDruPXJSX4vUc01P7j98MpqOS95rORdGHeI5\n" ++
  "2Naz5m2B+O+vjsC060d37jY9LFeuOP4Meri8qgfi2S5kKqg/aF6aPtuAZQVR7u3K\n" ++
  "FYXP59XmJgtcog05gmI0T/OitLhuzVvpZcLph0odh/1IPXqx3+MnjD97A7fXpqGd\n" ++
  "/y8KxX7jksTEzAOgbKAeam3lm+3yKIcTYMlsRMXPcjNbIvmsBykD//xSniusuHBk\n" ++
  "gnlENEWx1UcbQQrs+gVDkuVPhsnzIRNgYvM48Y+7LGiJYnrmE8xcrexekBxrva2V\n" ++
  "9TJQqnN3Q53kt5viQi3+gCfmkwC0F0tirIZbLkXPrPwzZ0M9eNxhIySb2npJfgnq\n" ++
  "z55I0u33wh4r0ZNQeTGfw03MBUtyuzGesGkcw+loqMaq1qR4tjGbPYxCvpCq7+Og\n" ++
  "pCCoMNit2uLo9M18fHz10lOMT8nWAUvRZFzteXCm+7PHdYPlmQwUw3LvenJ/ILXo\n" ++
  "QPHfbkH0CyPfhl1jWhJFZasCAwEAAQ==\n" ++
  "-----END PUBLIC KEY-----\n")

/-! ### Endorsements -/

structure EndorsementsEtc (X509 Crl : Type) where
  rootCaCertificate : Option X509 := none
  vcekCertificateChain : List X509 := []
  vcekIssuerChainCrl : Option Crl := none

section
variable {X509 Crl Pkey : Type} (ssl : OpenSsl X509 Crl Pkey) (host : Host)

/-- `parse_root_cert`; the certificate goes through its PEM text. -/
def parseRootCert (urlResponses : HTTPResponses) : Result X509 :=
  match urlResponses with
  | [response] => do
    let stack ← ssl.pemStack response.body
    match stack with
    | [_, root] => ssl.pemX509 (ssl.x509Pem root)
    | _ => throw (.exception "unexpected size of issuer certificate chain")
  | _ => throw (.exception "collateral download request set failed")

/-- `EndorsementsEtc::to_string` for a verbosity above 0 -/
def EndorsementsEtc.print (e : EndorsementsEtc X509 Crl) : Result Unit := do
  printStack ssl e.vcekCertificateChain
  match e.vcekIssuerChainCrl with
  | none => pure ()
  | some crl => ssl.printCrl crl

def checkStatus (i : ℕ) : HTTPResponses → Result Unit
  | [] => pure ()
  | r :: rs => do
    refuse (r.status ≠ 200) (.exception ("endorsement download failed (request index " ++
      toString i ++ ": " ++ toString r.status ++ ")"))
    checkStatus (i + 1) rs

/-- The root certificate of the options, if there is one. -/
def optionRoot (options : Options) : Result (Option X509) :=
  match options.rootCaCertificate with
  | none => pure none
  | some pem => do
    let root ← ssl.pemX509 pem
    pure (some root)

/-- What a cache sends: the whole chain, then the revocation list. -/
def parseCached (e : EndorsementsEtc X509 Crl) (httpResponses : HTTPResponses) :
    Result (EndorsementsEtc X509 Crl) :=
  match httpResponses with
  | [issuerChain, issuerCrl] => do
    let stack ← ssl.pemStack issuerChain.body
    match stack with
    | [vcek, ask, ark] => do
      let crl ← ssl.derCrl issuerCrl.body
      pure { e with
        rootCaCertificate := some ark
        vcekCertificateChain := [vcek, ask, ark]
        vcekIssuerChainCrl := some crl }
    | _ => throw (.exception "unexpected size of issuer certificate chain")
  | _ => throw (.exception "unexpected number of URL responses")

/-- What AMD sends: the VCEK certificate, its issuers and the revocation list. -/
def parseDownloaded (e : EndorsementsEtc X509 Crl) (httpResponses : HTTPResponses) :
    Result (EndorsementsEtc X509 Crl) :=
  match httpResponses with
  | [vcekCert, issuerChain, issuerCrl] => do
    let stack ← ssl.pemStack issuerChain.body
    match stack with
    | [ask, ark] => do
      let (vcek, _) ← ssl.derX509 vcekCert.body
      let crl ← ssl.derCrl issuerCrl.body
      pure { e with
        rootCaCertificate := some ark
        vcekCertificateChain := [vcek, ask, ark]
        vcekIssuerChainCrl := some crl }
    | _ => throw (.exception "unexpected size of issuer certificate chain")
  | _ => throw (.exception "unexpected number of URL responses")

def parseUrlResponses (options : Options) (httpResponses : HTTPResponses) :
    Result (EndorsementsEtc X509 Crl) := do
  checkStatus 0 httpResponses
  let root ← optionRoot ssl options
  if options.sevSnpEndorsementCacheUrlTemplate ≠ none then
    parseCached ssl { rootCaCertificate := root } httpResponses
  else parseDownloaded ssl { rootCaCertificate := root } httpResponses

/-! ### Requests -/

def downloadRootCaPem (productName : Bytes) : HTTPRequests :=
  [{ url := kdsUrl ++ text "/vcek/v1/" ++ productName ++ text "/cert_chain" }]

/-- `{:08x}` -/
def hexNumber (n : ℕ) : Bytes :=
  let digits := (Nat.toDigits 16 n).map byte
  List.replicate (8 - digits.length) (byte '0') ++ digits

def decimal (b : Byte) : Bytes := text (toString b.val)

def downloadEndorsements (productName chipId : Bytes) (tcbVersion : TCBVersion) (tcbNumber : ℕ)
    (options : Options) : Result HTTPRequests := do
  let hwid := toHex chipId
  let vcek := kdsUrl ++ text "/vcek/v1/" ++ productName
  match options.sevSnpEndorsementCacheUrlTemplate with
  | some urlTemplate =>
    let chainUrl ← ssl.vformat urlTemplate [hwid, hexNumber tcbNumber]
    pure [{ url := chainUrl }, { url := vcek ++ text "/crl" }]
  | none =>
    let tcbParameters := text "blSPL=" ++ decimal tcbVersion.bootLoader ++ text "&teeSPL=" ++
      decimal tcbVersion.tee ++ text "&snpSPL=" ++ decimal tcbVersion.snp ++ text "&ucodeSPL=" ++
      decimal tcbVersion.microcode
    pure [{ url := vcek ++ text "/" ++ hwid ++ text "?" ++ tcbParameters },
      { url := vcek ++ text "/cert_chain" }, { url := vcek ++ text "/crl" }]

def prepareEndorsements (a : Attestation) (options : Options) : Result (Option HTTPRequests) := do
  let m := mem a.evidence host.beyond
  refuse (readLe m 0 4 ≠ 2) (.exception "unsupported attestation format version")
  let productName := text "Milan"
  if a.endorsements ≠ [] ∧ options.freshEndorsements = false then
    if options.rootCaCertificate = none ∧ options.freshRootCaCertificate then
      pure (some (downloadRootCaPem productName))
    else pure none
  else do
    let requests ← downloadEndorsements ssl productName (readMem m chipIdOff 64)
      (readTcbVersion m reportedTcbOff) (readLe m reportedTcbOff 8) options
    pure (some requests)

/-! ### Claims -/

structure Endorsements where
  rootCaCertificate : Bytes
  vcekCertificateChain : Bytes
  vcekIssuerChainCrl : Option Bytes
  deriving DecidableEq

structure Claims where
  version : ℕ
  guestSvn : ℕ
  policy : ℕ
  familyId : Bytes
  imageId : Bytes
  vmpl : ℕ
  signatureAlgo : ℕ
  platformVersion : TCBVersion
  platformInfo : ℕ
  flags : ℕ
  reportData : Bytes
  measurement : Bytes
  hostData : Bytes
  idKeyDigest : Bytes
  authorKeyDigest : Bytes
  reportId : Bytes
  reportIdMa : Bytes
  reportedTcb : TCBVersion
  chipId : Bytes
  committedTcb : TCBVersion
  currentMinor : Byte
  currentBuild : Byte
  currentMajor : Byte
  committedBuild : Byte
  committedMinor : Byte
  committedMajor : Byte
  launchTcb : TCBVersion
  signature : Signature
  endorsements : Endorsements
  deriving DecidableEq

def makeClaims (m : ℕ → Byte) (e : EndorsementsEtc X509 Crl) : Result Claims := do
  let root ← orThrow e.rootCaCertificate (.exception "Root CA certificate not saved")
  pure {
    version := readLe m 0 4
    guestSvn := readLe m 4 4
    policy := readLe m 8 8
    familyId := readMem m 0x10 16
    imageId := readMem m 0x20 16
    vmpl := readLe m 0x30 4
    signatureAlgo := readLe m signatureAlgoOff 4
    platformVersion := readTcbVersion m 0x38
    platformInfo := readLe m 0x40 8
    flags := readLe m 0x48 4
    reportData := readMem m 0x50 64
    measurement := readMem m 0x90 48
    hostData := readMem m 0xC0 32
    idKeyDigest := readMem m 0xE0 48
    authorKeyDigest := readMem m 0x110 48
    reportId := readMem m 0x140 32
    reportIdMa := readMem m 0x160 32
    reportedTcb := readTcbVersion m reportedTcbOff
    chipId := readMem m chipIdOff 64
    committedTcb := readTcbVersion m 0x1E0
    currentMinor := m 0x1E8
    currentBuild := m 0x1E9
    currentMajor := m 0x1EA
    committedBuild := m 0x1EC
    committedMinor := m 0x1ED
    committedMajor := m 0x1EE
    launchTcb := readTcbVersion m 0x1F0
    signature := readSignature m
    endorsements := {
      rootCaCertificate := ssl.x509Pem root
      vcekCertificateChain := e.vcekCertificateChain.flatMap ssl.x509Pem
      vcekIssuerChainCrl := e.vcekIssuerChainCrl.map ssl.crlPem } }

/-! ### `verify` -/

def verifySignature (pkey : Pkey) (message : Bytes) (signature : Signature) : Result Bool := do
  let sigDer ← ssl.signatureDer signature.r signature.s true
  ssl.verifyDigest pkey (ssl.sha384 message) sigDer

/-- The root certificate that goes with embedded endorsements. -/
def embeddedRoot (options : Options) (httpResponses : Option HTTPResponses) :
    Result (Option X509) :=
  if options.rootCaCertificate ≠ none then optionRoot ssl options
  else if options.freshRootCaCertificate then do
    let responses ← orThrow httpResponses (.undefined "value of an empty optional")
    let root ← parseRootCert ssl responses
    pure (some root)
  else pure none

/-- The endorsements the checks are made with (sev_snp_impl.h:558-573). -/
def usedEndorsements (a : Attestation) (options : Options) (httpResponses : Option HTTPResponses) :
    Result (EndorsementsEtc X509 Crl) :=
  if a.endorsements ≠ [] ∧ options.freshEndorsements = false then do
    let stack ← ssl.pemStack a.endorsements
    let root ← embeddedRoot ssl options httpResponses
    pure { rootCaCertificate := root, vcekCertificateChain := stack }
  else do
    let responses ← orThrow httpResponses (.exception "missing endorsements")
    parseUrlResponses ssl options responses

def addOptional (store : Store X509 Crl) : Option X509 → Store X509 Crl
  | none => store
  | some x509 => store.add x509

def addOptionalCrl (store : Store X509 Crl) : Option Crl → Store X509 Crl
  | none => store
  | some crl => store.addCrl crl

/-- The store with the revocation list and the root certificate, where there are any. -/
def prepareStore (e : EndorsementsEtc X509 Crl) : Store X509 Crl :=
  let store : Store X509 Crl := ({} : Store X509 Crl).setFlags (crlCheck ||| crlCheckAll)
  let store := addOptionalCrl store e.vcekIssuerChainCrl
  addOptional store e.rootCaCertificate

/-- The checks of the root certificate and of the report's signature. -/
def verifyReport (evidence : Bytes) (m : ℕ → Byte) (vcek ark : X509) (options : Options) :
    Result Unit := do
  if options.checkRootCertificateManufacturerKey then do
    let ok ← ssl.hasPublicKey ark amdMilanRootSigningPublicKey
    refuse (ok = false)
      (.exception "Root CA certificate does not have the expected AMD Milan public key")
  else pure ()
  refuse (ssl.isCa ark = false) (.exception "Root CA certificate is not a CA")
  refuse (readLe m signatureAlgoOff 4 ≠ ecdsaP384Sha384)
    (.exception "unexpected signature algorithm")
  -- the span's size wraps around for a shorter buffer
  refuse (evidence.length < signatureSize) (.undefined "span beyond the evidence")
  let message := evidence.take (evidence.length - signatureSize)
  let vcekPk ← ssl.pubkey vcek
  let ok ← verifySignature ssl vcekPk message (readSignature m)
  refuse (ok = false) (.exception "invalid VCEK signature")

structure Verified (X509 Crl : Type) where
  claims : Claims
  store : Store X509 Crl
  endorsements : EndorsementsEtc X509 Crl

def verifyRun (a : Attestation) (options : Options) (httpResponses : Option HTTPResponses) :
    Result (Verified X509 Crl) := do
  refuse (a.endorsements = [] ∧ httpResponses.getD [] = []) (.exception "missing endorsements")
  let m := mem a.evidence host.beyond
  let e ← usedEndorsements ssl a options httpResponses
  whenever (0 < options.verbosity) (e.print ssl)
  let trustedRoot := e.rootCaCertificate.isNone
  let (chain, store) ← verifyStack ssl e.vcekCertificateChain (prepareStore e)
    options.certificateVerification trustedRoot options.verbosity
  match chain with
  | [vcek, _, ark] => do
    verifyReport ssl a.evidence m vcek ark options
    let e := if trustedRoot then { e with rootCaCertificate := some ark } else e
    let claims ← makeClaims ssl m e
    pure ⟨claims, store, e⟩
  | _ => throw (.exception "unexpected certificate chain length")

def verify (a : Attestation) (options : Options) (httpResponses : Option HTTPResponses) :
    Result Claims := do
  let r ← verifyRun ssl host a options httpResponses
  pure r.claims

/-! ### What a run that returned went through -/

/-- The endorsements a run used and the store its chain was verified with. -/
structure Run (a : Attestation) (options : Options) (httpResponses : Option HTTPResponses)
    (r : Verified X509 Crl) where
  e : EndorsementsEtc X509 Crl
  chain : List X509
  used : usedEndorsements ssl a options httpResponses = .ok e
  verified : verifyStack ssl e.vcekCertificateChain (prepareStore e)
    options.certificateVerification e.rootCaCertificate.isNone options.verbosity =
      .ok (chain, r.store)
  vcekChain : r.endorsements.vcekCertificateChain = e.vcekCertificateChain
  crl : r.endorsements.vcekIssuerChainCrl = e.vcekIssuerChainCrl

theorem verifyRun_ok (a : Attestation) (options : Options) (httpResponses : Option HTTPResponses)
    (r : Verified X509 Crl) (h : verifyRun ssl host a options httpResponses = .ok r) :
    Nonempty (Run ssl a options httpResponses r) := by
  simp only [verifyRun, bind_ok, refuse_ok, whenever_ok] at h
  obtain ⟨_, -, e, hused, _, -, ⟨chain, store⟩, hchain, h⟩ := h
  split at h
  next =>
    simp only [bind_ok, pure_ok] at h
    obtain ⟨_, -, claims, -, rfl⟩ := h
    refine ⟨⟨e, chain, hused, hchain, ?_, ?_⟩⟩
    · dsimp only
      split <;> rfl
    · dsimp only
      split <;> rfl
  next => simp [throw_ok] at h

end

end Ravl.SevSnp
