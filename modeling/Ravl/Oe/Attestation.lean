import Ravl.Oe.CustomClaims
import Ravl.Sgx.Verify

/-!
# Open Enclave attestations (oe.h, oe_impl.h:143-363, 463-474, 578-594)

An SGX quote with custom claims behind it, and collateral in a layout of its own. The SGX
attestation made of them is kept in the object: `prepare_endorsements` and `verify` return,
next to their result, the object as they leave it.
-/

namespace Ravl.Oe
open ByteLib FallibleLib

structure Claims where
  sgxClaims : Sgx.Claims
  customClaims : ClaimsMap
  deriving DecidableEq

structure Attestation where
  evidence : Bytes
  endorsements : Bytes
  /-- mutable: the SGX attestation extracted last -/
  sgxAttestation : Option Ravl.Attestation := none
  /-- mutable: the custom claims extracted with it -/
  customClaims : Bytes := []
  deriving DecidableEq

/-! ### Endorsements (oe_endorsements_t) -/

def endorsementsSize : ℕ := 16
/-- sizeof(oe_sgx_endorsements_t), packed -/
def sgxEndorsementsSize : ℕ := 9 * 12
def sgxEndorsementsVersion : ℕ := 1
def enclaveTypeSgx : ℕ := 2

/-- Item `i` of the endorsements; its size is kept in a `uint32_t`. -/
def setItem (m : ℕ → Byte) (i off size : ℕ) (col : Sgx.QlQveCollateral) :
    Result Sgx.QlQveCollateral :=
  let item := readMem m off (size % 2 ^ 32)
  match i with
  | 0 => do
    refuse (size ≠ 4 ∨ readLe m off 4 ≠ 1)
      (.exception "unsupported version of OE endorsements data structure")
    pure col
  | 1 => pure { col with tcbInfo := item }
  | 2 => pure { col with tcbInfoIssuerChain := item }
  | 3 => pure { col with pckCrl := item }
  | 4 => pure { col with rootCaCrl := item }
  | 5 => pure { col with pckCrlIssuerChain := item }
  | 6 => pure { col with qeIdentity := item }
  | 7 => pure { col with qeIdentityIssuerChain := item }
  | 8 => pure col
  | _ => throw (.exception "excess elements in OE endorsements data")

def itemOffset (m : ℕ → Byte) (i : ℕ) : ℕ := readLe m (endorsementsSize + 4 * i) 4

/-- The loop over the items (oe_impl.h:285-354), `n` of them from item `i` on. -/
def readItems (m : ℕ → Byte) (data dataSize : ℕ) :
    ℕ → ℕ → Sgx.QlQveCollateral → Result Sgx.QlQveCollateral
  | 0, _, col => pure col
  | n + 1, i, col => do
    let offset := itemOffset m i
    refuse (dataSize ≤ offset) (.exception "invalid endorsement item offset")
    let itemSize :=
      if n ≠ 0 then (itemOffset m (i + 1) + 2 ^ 32 - offset) % 2 ^ 32 else dataSize - offset
    let col ← setItem m i (data + offset) itemSize col
    readItems m data dataSize n (i + 1) col

/-- `put` of a size and the bytes -/
def putBlock (s : Bytes) : Bytes := beBytes 8 s.length ++ s

/-- The collateral as an SGX attestation has it (oe_impl.h:356-377). -/
def putCollateral (col : Sgx.QlQveCollateral) : Bytes :=
  beBytes 2 col.majorVersion ++ beBytes 2 col.minorVersion ++ beBytes 4 col.teeType ++
    putBlock col.pckCrlIssuerChain ++ putBlock col.rootCaCrl ++ putBlock col.pckCrl ++
    putBlock col.tcbInfoIssuerChain ++ putBlock col.tcbInfo ++
    putBlock col.qeIdentityIssuerChain ++ putBlock col.qeIdentity

def extractCollateral (host : Host) (endorsements : Bytes) : Result Bytes :=
  if endorsements = [] then pure []
  else do
    refuse (endorsements.length < endorsementsSize ∨ endorsements.length < sgxEndorsementsSize)
      (.exception "Unknown endorsements format: too small to contain OE/SGX endorsements")
    let m := mem endorsements host.beyond
    refuse (readLe m 0 4 ≠ sgxEndorsementsVersion)
      (.exception "unsupported version of OE endorsements data structure")
    refuse (readLe m 4 4 ≠ enclaveTypeSgx)
      (.exception "unsupported enclave type in OE endorsements")
    let bufferSize := readLe m 8 4
    let numElements := readLe m 12 4
    let offsetsSize := 4 * numElements
    let dataSize := (bufferSize + 2 ^ 64 - offsetsSize) % 2 ^ 64
    let col ← readItems m (endorsementsSize + offsetsSize) dataSize numElements 0 {}
    pure (putCollateral col)

/-! ### `extract_sgx_attestation` -/

/-- Quote and custom claims: what lies behind the quote's signature. -/
def splitEvidence (host : Host) (evidence : Bytes) : Bytes × Bytes :=
  let quoteAndSigLen := Sgx.sgxQuoteSize + readLe (mem evidence host.beyond) Sgx.signatureLenOff 4
  if quoteAndSigLen < evidence.length then
    (evidence.take quoteAndSigLen, evidence.drop quoteAndSigLen)
  else (evidence, [])

/-- The branch without a plugin header; the flag that asks for the other one is never set. -/
def extractSgxAttestation (host : Host) (evidence endorsements : Bytes) :
    Result (Ravl.Attestation × Bytes) := do
  refuse (evidence = []) (.exception "No evidence to verify")
  refuse (evidence.length < Sgx.sgxQuoteSize)
    (.exception "Unknown evidence format: too small to contain SGX quote")
  let (squote, claims) := splitEvidence host evidence
  let scollateral ← extractCollateral host endorsements
  pure ({ source := .sgx, evidence := squote, endorsements := scollateral }, claims)

/-! ### The object -/

section
variable {X509 Crl Pkey : Type} (ssl : OpenSsl X509 Crl Pkey) (host : Host)

def verifyExtracted (sgx : Ravl.Attestation) (customClaims : Bytes) (options : Options)
    (httpResponses : Option HTTPResponses) : Result Claims := do
  let sgxClaims ← Sgx.verify ssl host sgx options httpResponses
  let map ← extractCustomClaims host customClaims []
  pure ⟨sgxClaims, map⟩

def Attestation.fill (a : Attestation) (sgx : Ravl.Attestation) (customClaims : Bytes) :
    Attestation :=
  { a with sgxAttestation := some sgx, customClaims := customClaims }

def Attestation.prepareEndorsements (a : Attestation) (options : Options) :
    Result (Option HTTPRequests) × Attestation :=
  match extractSgxAttestation host a.evidence a.endorsements with
  | .error e => (.error e, a)
  | .ok (sgx, cc) => (Sgx.prepareEndorsements ssl host sgx options, a.fill sgx cc)

def Attestation.verify (a : Attestation) (options : Options)
    (httpResponses : Option HTTPResponses) : Result Claims × Attestation :=
  match a.sgxAttestation with
  | some sgx => (verifyExtracted ssl host sgx a.customClaims options httpResponses, a)
  | none =>
    if a.endorsements = [] then (.error (.exception "no endorsements"), a)
    else
      match extractSgxAttestation host a.evidence a.endorsements with
      | .error e => (.error e, a)
      | .ok (sgx, cc) => (verifyExtracted ssl host sgx cc options httpResponses, a.fill sgx cc)

end

end Ravl.Oe
