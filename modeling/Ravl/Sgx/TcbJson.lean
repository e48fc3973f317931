import Ravl.Json
import Ravl.Lib.JsonPlaces
import Ravl.Sgx.Quote

/-!
# TCB info and QE identity (sgx_impl.h:359-390, 616-954)

Both documents are JSON objects of a signed value and a signature over the
value's text. The fields come from the parsed document; the text that is handed
to the signature check is cut out by a search for what should stand before and
behind it.
-/

namespace Ravl.Sgx
open ByteLib FallibleLib SearchLib JsonText

def pckCertCommonName : Bytes := text "Intel SGX PCK Certificate"

def intelRootPublicKeyPem : Bytes := text ("-----BEGIN PUBLIC KEY-----\n" ++
  "MFkwEwYHKoZIzj0CAQYIKoZIzj0DAQcDQgAEC6nEwMDIYZOj/iPWsCzaEKi71OiO\n" ++
  "SLRFhWGjbnBVJfVnkY4u3IjkDYYL0MxO4mqsyYjlBalTVYxFP2sJBK5zlA==\n" ++
  "-----END PUBLIC KEY-----\n")

def sgxEarliestTcbCrlDate : Bytes := text "2017-03-17T00:00:00Z"

section
variable {X509 Crl Pkey : Type} (ssl : OpenSsl X509 Crl Pkey) (host : Host)

/-! ### Signatures (sgx_impl.h:237-277) -/

def verifySignature (pkey : Pkey) (message signature : Bytes) : Result Bool := do
  let half := signature.length / 2
  let sigDer ← ssl.signatureDer (signature.take half) (sub signature half half) false
  ssl.verifyDigest pkey (ssl.sha256 message) sigDer

def verifyHashMatch (inputs : List Bytes) (expected : Bytes) : Bool :=
  ssl.sha256 inputs.flatten == expected

/-- The check made of the end of every chain when the option asks for it. -/
def checkManufacturerKey (options : Options) (root : X509) (message : String) : Result Unit :=
  if options.checkRootCertificateManufacturerKey then do
    let ok ← ssl.hasPublicKey root intelRootPublicKeyPem
    refuse (ok = false) (.exception message)
  else pure ()

/-! ### Fields (sgx_impl.h:359-390) -/

def jsonVectorEq (tcbinfo : Json) (key ref : Bytes) : Result Bool := do
  let vj ← indexConst tcbinfo key
  match vj with
  | .null => throw (.exception "missing json object")
  | vj =>
    let vv ← getString vj
    let v ← fromHex vv
    pure (v == ref)

def checkDatetime (date : Bytes) (name : String) : Result Unit := do
  let earliestPermitted ← parseTimePoint sgxEarliestTcbCrlDate
  let issueTimepoint ← parseTimePoint date
  refuse (issueTimepoint < earliestPermitted) (.exception (name ++ " earlier than permitted"))

/-- The text between the first `pre` and the last `post`, as start and end. -/
def signedRange (pre post s : Bytes) : Option (ℕ × ℕ) := do
  let l ← find pre s
  let r ← rfind post s
  some (l + pre.length, r)

/-! ### `verify_tcb_json` (sgx_impl.h:616-736) -/

structure TCBLevel where
  compSvn : Bytes := []
  pceSvn : ℕ := 0
  status : Bytes := []
  date : Bytes := []
  advisoryIds : List Bytes := []
  deriving DecidableEq

/-- `fmt::format("sgxtcbcomp{:02d}svn", i + 1)` -/
def svnName (i : ℕ) : Bytes :=
  text "sgxtcbcomp" ++ (if i + 1 < 10 then text "0" else []) ++ decimal (i + 1) ++ text "svn"

/-- The component SVNs of a level: `n` of them from the `i`-th on. -/
def levelCompSvns (tcb : Json) : ℕ → ℕ → Result Bytes
  | 0, _ => pure []
  | n + 1, i => do
    let v ← indexConst tcb (svnName i)
    let svn ← getUint host.doubles 8 v
    let svns ← levelCompSvns tcb n (i + 1)
    pure (Fin.ofNat 256 svn :: svns)

def readLevel (level : Json) : Result TCBLevel := do
  let date ← getString (← indexConst level (text "tcbDate"))
  let status ← getString (← indexConst level (text "tcbStatus"))
  let tcb ← indexConst level (text "tcb")
  let compSvn ← levelCompSvns host tcb 16 0
  let pceSvn ← getUint host.doubles 16 (← indexConst tcb (text "pcesvn"))
  pure { compSvn := compSvn, pceSvn := pceSvn, status := status, date := date }

/-- The platform's SVNs are all at least the level's. -/
def levelIsGood (pckExt : CertificateExtension) (level : TCBLevel) : Bool :=
  ((pckExt.tcb.compSvn.zip level.compSvn).all fun (p, l) => l ≤ p) &&
    level.pceSvn ≤ pckExt.tcb.pceSvn

def chooseLevel (pckExt : CertificateExtension) (platform level : TCBLevel) : TCBLevel :=
  if platform.status = [] ∧ levelIsGood pckExt level then level else platform

def tcbLevelsLoop (pckExt : CertificateExtension) : List Json → TCBLevel → Result TCBLevel
  | [], platform => pure platform
  | j :: js, platform => do
    let level ← readLevel host j
    tcbLevelsLoop pckExt js (chooseLevel pckExt platform level)

/-- The checks made of the value of `tcbInfo`. -/
def checkTcbInfo (pckExt : CertificateExtension) (tcbinfo : Json) : Result TCBLevel := do
  match findKey tcbinfo (text "version") with
  | none => throw (.exception "unsupported tcbInfo version")
  | some v =>
    let version ← getUint host.doubles 32 v
    refuse (version ≠ 2) (.exception "unsupported tcbInfo version")
  let id ← getString (← index tcbinfo (text "issueDate"))
  checkDatetime id "TCB issue date"
  let nu ← getString (← index tcbinfo (text "nextUpdate"))
  checkDatetime nu "TCB next update"
  let fmspcOk ← jsonVectorEq tcbinfo (text "fmspc") pckExt.fmspc
  refuse (fmspcOk = false) (.exception "fmspc mismatch")
  let pceidOk ← jsonVectorEq tcbinfo (text "pceId") pckExt.pceid
  refuse (pceidOk = false) (.exception "pceid mismatch")
  let tcbType ← getNumber host.doubles 64 (← index tcbinfo (text "tcbType"))
  refuse (tcbType ≠ 0) (.exception "tcbType not supported")
  let levels ← index tcbinfo (text "tcbLevels")
  let platform ← tcbLevelsLoop host pckExt (items levels) {}
  refuse (platform.status = []) (.exception "no matching TCB level found")
  pure platform

/-- The try block: the level and the signature. -/
def readTcbJson (tcbInfo : Bytes) (pckExt : CertificateExtension) : Result (TCBLevel × Bytes) := do
  let col ← jsonParse host.doubles tcbInfo
  let tcbinfo ← index col (text "tcbInfo")
  let platform ← checkTcbInfo host pckExt tcbinfo
  let sig ← getString (← index col (text "signature"))
  let signature ← fromHex sig
  pure (platform, signature)

def tcbPre : Bytes := text "\x7b\"tcbInfo\":"
def tcbPost : Bytes := text ",\"signature\""

/-- `verify_tcb_json`, with the range it hands to `verify_signature`. -/
def verifyTcbJsonRange (tcbInfo : Bytes) (pckExt : CertificateExtension) (signerPubkey : Pkey) :
    Result (TCBLevel × ℕ × ℕ) := do
  let (platform, signature) ←
    rethrow (Error.prefixed "incorrectly formatted SGX TCB: ") (readTcbJson host tcbInfo pckExt)
  let (start, stop) ← orThrow (signedRange tcbPre tcbPost tcbInfo)
    (.exception "tcbInfo does not contain signature")
  let ok ← verifySignature ssl signerPubkey (spanBytes host tcbInfo start stop) signature
  refuse (ok = false) (.exception "tcbInfo signature verification failed")
  pure (platform, start, stop)

def verifyTcbJson (tcbInfo : Bytes) (pckExt : CertificateExtension) (signerPubkey : Pkey) :
    Result TCBLevel := do
  let r ← verifyTcbJsonRange ssl host tcbInfo pckExt signerPubkey
  pure r.1

/-- `verify_tcb` (sgx_impl.h:738-776) -/
def verifyTcb (tcbInfoIssuerChain tcbInfo : Bytes) (pckExt : CertificateExtension)
    (store : Store X509 Crl) (options : Options) : Result TCBLevel := do
  let (chain, _) ← verifyPem ssl tcbInfoIssuerChain store options.certificateVerification false
    options.verbosity
  let leaf ← orThrow chain.head? (.exception "index into stack out of range")
  let root ← orThrow chain.getLast? (.exception "index into stack out of range")
  let leafPubkey ← ssl.pubkey leaf
  checkManufacturerKey ssl options root
    "TCB issuer root certificate does not use the expected Intel SGX public key"
  verifyTcbJson ssl host tcbInfo pckExt leafPubkey

/-! ### `verify_qe_id` (sgx_impl.h:778-954) -/

structure QeLevel where
  status : Bytes := []
  date : Bytes := []
  isvSvn : ℕ := 0

/-- One round of the loop over the levels: everything is read, and the first level that is
not above the report's SVN is kept. -/
def qeLevel (report : ReportBody) (found : QeLevel) (level : Json) : Result QeLevel := do
  let tcb ← indexConst level (text "tcb")
  let isvSvn ← getUint host.doubles 16 (← index tcb (text "isvsvn"))
  let tcbDate ← indexConst level (text "tcbDate")
  let status ← getString (← indexConst level (text "tcbStatus"))
  if found.status = [] ∧ isvSvn ≤ report.isvSvn then do
    let date ← getString tcbDate
    pure ⟨status, date, isvSvn⟩
  else pure found

def qeLevelsLoop (report : ReportBody) : List Json → QeLevel → Result QeLevel
  | [], found => pure found
  | j :: js, found => do
    let found ← qeLevel host report found j
    qeLevelsLoop report js found

def checkAttributes (report : ReportBody) (identity : Json) : Result Unit := do
  let attributes ← getString (← index identity (text "attributes"))
  let mask ← getString (← index identity (text "attributesMask"))
  refuse (attributes.length ≠ 32 ∨ mask.length ≠ 32)
    (.exception "unexpected attribute value sizes")
  let flags ← fromHexT 8 (attributes.take 16) true
  let xfrm ← fromHexT 8 (attributes.drop 16) true
  let flagsMask ← fromHexT 8 (mask.take 16) true
  let xfrmMask ← fromHexT 8 (mask.drop 16) true
  refuse (report.flags &&& flagsMask ≠ flags) (.exception "attribute flags mismatch")
  refuse (report.xfrm &&& xfrmMask ≠ xfrm) (.exception "attribute xfrm mismatch")
  refuse (report.flags &&& sgxFlagsDebug ≠ 0) (.exception "report purported to be from debug QE")

/-- The checks made of the value of `enclaveIdentity`. -/
def checkQeIdentity (report : ReportBody) (options : Options) (identity : Json) : Result Unit := do
  let version ← getNumber host.doubles 64 (← index identity (text "version"))
  refuse (version ≠ 2) (.exception "enclaveIdentity version not supported")
  let eid ← getString (← index identity (text "id"))
  refuse (eid ≠ text "QE" ∧ eid ≠ text "QVE") (.exception "QE identity type not supported")
  let levels ← index identity (text "tcbLevels")
  let found ← qeLevelsLoop host report (items levels) {}
  refuse (found.status = []) (.exception "no matching QE TCB level found")
  let id ← getString (← index identity (text "issueDate"))
  checkDatetime id "QE TCB issue date"
  let nu ← getString (← index identity (text "nextUpdate"))
  checkDatetime nu "QE TCB next update"
  let mrsigner ← fromHex (← getString (← index identity (text "mrsigner")))
  refuse (mrsigner ≠ report.mrSigner) (.exception "QE mrsigner mismatch")
  let isvprodid ← getUint host.doubles 16 (← index identity (text "isvprodid"))
  refuse (isvprodid ≠ report.isvProdId) (.exception "QE isv prod id mismatch")
  refuse (options.historical = false ∧ report.isvSvn ≤ found.isvSvn)
    (.exception "QE isv svn too small")
  let mselMask ← fromHexT 4 (← getString (← index identity (text "miscselectMask"))) true
  let msel ← fromHexT 4 (← getString (← index identity (text "miscselect"))) true
  refuse (report.miscSelect &&& mselMask ≠ msel) (.exception "misc select mismatch")
  checkAttributes report identity

/-- The try block: the signature. -/
def readQeIdentity (qeIdentity : Bytes) (report : ReportBody) (options : Options) :
    Result Bytes := do
  let col ← jsonParse host.doubles qeIdentity
  let identity ← index col (text "enclaveIdentity")
  checkQeIdentity host report options identity
  let sig ← getString (← index col (text "signature"))
  fromHex sig

def qePre : Bytes := text "\"enclaveIdentity\":"
def qePost : Bytes := text ",\"signature\":\""

/-- `verify_qe_id` for the report body its span is cast to, with the range it hands to
`verify_signature`. -/
def verifyQeIdRange (qeIdentityIssuerChain qeIdentity : Bytes) (report : ReportBody)
    (store : Store X509 Crl) (options : Options) : Result (ℕ × ℕ) := do
  let (chain, _) ← verifyPem ssl qeIdentityIssuerChain store options.certificateVerification false
    options.verbosity
  let leaf ← orThrow chain.head? (.exception "index into stack out of range")
  let root ← orThrow chain.getLast? (.exception "index into stack out of range")
  let leafPubkey ← ssl.pubkey leaf
  checkManufacturerKey ssl options root
    "QE identity issuer root certificate does not use the expected Intel SGX public key"
  let signature ← rethrow (Error.prefixed "incorrectly formatted SGX QE ID: ")
    (readQeIdentity host qeIdentity report options)
  let (start, stop) ← orThrow (signedRange qePre qePost qeIdentity)
    (.exception "QE identity does not contain signature")
  let ok ← verifySignature ssl leafPubkey (spanBytes host qeIdentity start stop) signature
  refuse (ok = false) (.exception "QE identity signature verification failed")
  pure (start, stop)

def verifyQeId (qeIdentityIssuerChain qeIdentity : Bytes) (report : ReportBody)
    (store : Store X509 Crl) (options : Options) : Result Bool := do
  let _ ← verifyQeIdRange ssl host qeIdentityIssuerChain qeIdentity report store options
  pure true

end

end Ravl.Sgx
