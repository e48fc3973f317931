import Ravl.Util

/-!
# OpenSSL as the program sees it (openssl.hpp)

Certificates, revocation lists and keys are opaque types. What OpenSSL computes
about them is a structure of functions, arbitrary in every result; what the
wrappers in openssl.hpp do with those functions is defined here. A wrapper that
throws keeps the text of the exception in its `Result`.
-/

namespace Ravl
open ByteLib FallibleLib

/-! ### Verification parameters and contexts -/

abbrev Flags := BitVec 64

def Flags.within (f g : Flags) : Prop := f &&& g = f

instance (f g : Flags) : Decidable (f.within g) := inferInstanceAs (Decidable (_ = _))

/-- X509_V_FLAG_* -/
def useCheckTime : Flags := 0x2
def crlCheck : Flags := 0x4
def crlCheckAll : Flags := 0x8
def x509Strict : Flags := 0x20
def checkSsSignature : Flags := 0x4000
def partialChain : Flags := 0x80000
def noCheckTime : Flags := 0x200000

/-- X509_VERIFY_PARAM -/
structure VerifyParam where
  flags : Flags := 0
  depth : ℤ := -1
  authLevel : ℤ := -1
  checkTime : ℤ := 0
  deriving DecidableEq

def VerifyParam.setFlags (p : VerifyParam) (f : Flags) : VerifyParam := { p with flags := p.flags ||| f }
def VerifyParam.setTime (p : VerifyParam) (t : ℤ) : VerifyParam :=
  { p with flags := p.flags ||| useCheckTime, checkTime := t }

/-- The explicit time under which certificates are checked, if there is one. -/
def VerifyParam.timeInForce (p : VerifyParam) : Option ℤ :=
  if useCheckTime.within p.flags then some p.checkTime else none

/-- X509_STORE: trust anchors, revocation lists and parameters. -/
structure Store (X509 Crl : Type) where
  anchors : List X509 := []
  crls : List Crl := []
  param : VerifyParam := {}

section Store
variable {X509 Crl : Type}

def Store.setFlags (s : Store X509 Crl) (f : Flags) : Store X509 Crl :=
  { s with param := s.param.setFlags f }
def Store.add (s : Store X509 Crl) (x509 : X509) : Store X509 Crl :=
  { s with anchors := s.anchors ++ [x509] }
def Store.addCrl (s : Store X509 Crl) (crl : Crl) : Store X509 Crl :=
  { s with crls := s.crls ++ [crl] }

@[simp] theorem Store.setFlags_anchors (s : Store X509 Crl) (f : Flags) :
    (s.setFlags f).anchors = s.anchors := rfl
@[simp] theorem Store.addCrl_anchors (s : Store X509 Crl) (crl : Crl) :
    (s.addCrl crl).anchors = s.anchors := rfl
@[simp] theorem Store.add_anchors (s : Store X509 Crl) (x509 : X509) :
    (s.add x509).anchors = s.anchors ++ [x509] := rfl

end Store

/-- X509_STORE_CTX; `verifyCb` says whether a verification callback is installed. -/
structure StoreCtx (X509 Crl : Type) where
  store : Store X509 Crl
  target : X509
  untrusted : List X509
  param : VerifyParam
  verifyCb : Bool := false

section StoreCtx
variable {X509 Crl : Type}

/-- X509_STORE_CTX_init: the context starts with a copy of the store's parameters. -/
def StoreCtx.init (store : Store X509 Crl) (target : X509) (chain : List X509) : StoreCtx X509 Crl :=
  ⟨store, target, chain, store.param, false⟩
def StoreCtx.setTime (c : StoreCtx X509 Crl) (t : ℤ) : StoreCtx X509 Crl :=
  { c with param := c.param.setTime t }
/-- X509_STORE_CTX_set0_param: the context's parameters are replaced. -/
def StoreCtx.setParam (c : StoreCtx X509 Crl) (p : VerifyParam) : StoreCtx X509 Crl :=
  { c with param := p }
def StoreCtx.setVerifyCb (c : StoreCtx X509 Crl) : StoreCtx X509 Crl :=
  { c with verifyCb := true }

end StoreCtx

/-! ### ASN.1 values -/

/-- The ASN1_TYPE values the program tells apart; the content of a sequence is
decoded when it is opened. -/
inductive Asn1
  | sequence (elements : List Asn1)
  | malformedSequence
  | object (oid : Bytes)
  | integer (value : ℤ)
  | enumerated (value : ℤ)
  | octetString (data : Bytes)
  | boolean (value : Bool)
  | other

/-! ### The library's functions -/

/-- The answer of X509_verify_cert, what the context then says about it and the chain it built. -/
structure VerifyAnswer (X509 : Type) where
  rc : ℤ
  error : Bytes := []
  depth : Bytes := []
  chain : List X509

structure OpenSsl (X509 Crl Pkey : Type) where
  /-- OPENSSL_VERSION_MAJOR >= 3 -/
  atLeast3 : Bool
  /-- text of the error queue -/
  errors : Bytes
  /-- PEM_read_bio_X509 -/
  pemX509 : Bytes → Result X509
  /-- d2i_X509_bio: the certificate and what is left in the BIO -/
  derX509 : Bytes → Result (X509 × Bytes)
  /-- PEM_X509_INFO_read_bio, all elements being certificates -/
  pemStack : Bytes → Result (List X509)
  x509Pem : X509 → Bytes
  pemCrl : Bytes → Result Crl
  derCrl : Bytes → Result Crl
  crlPem : Crl → Bytes
  isCa : X509 → Bool
  hasCommonName : X509 → Bytes → Bool
  /-- comparison with a public key in PEM format -/
  hasPublicKey : X509 → Bytes → Result Bool
  extension : X509 → Bytes → Option Asn1
  pubkey : X509 → Result Pkey
  /-- UqEVP_PKEY_P256: the key with these two coordinates -/
  p256 : Bytes → Result Pkey
  sha256 : Bytes → Bytes
  sha384 : Bytes → Bytes
  /-- i2d_ECDSA_SIG of the two coordinates; the flag says little endian -/
  signatureDer : Bytes → Bytes → Bool → Result Bytes
  verifyDigest : Pkey → Bytes → Bytes → Result Bool
  x509VerifyCert : StoreCtx X509 Crl → VerifyAnswer X509
  /-- printing for the log, which can throw but changes nothing -/
  printX509 : X509 → Result Unit
  printCrl : Crl → Result Unit
  /-- fmt::vformat: a template and its arguments -/
  vformat : Bytes → List Bytes → Result Bytes

section Wrappers
variable {X509 Crl Pkey : Type} (ssl : OpenSsl X509 Crl Pkey)

/-- UqX509_STORE_CTX::verify_cert returns the answer as a bool, which its caller takes as an int. -/
def OpenSsl.verifyCert (ctx : StoreCtx X509 Crl) : ℤ :=
  if (ssl.x509VerifyCert ctx).rc ≠ 0 then 1 else 0

/-- UqX509_STORE::add of a PEM text -/
def OpenSsl.storeAddPem (store : Store X509 Crl) (pem : Bytes) : Result (Store X509 Crl) := do
  let cert ← ssl.pemX509 pem
  pure (store.add cert)

/-- UqX509_STORE::add_crl of a PEM text, which is passed as a C string -/
def OpenSsl.storeAddCrlPem (store : Store X509 Crl) (pem : Bytes) : Result (Store X509 Crl) := do
  let crl ← ssl.pemCrl (cString pem)
  pure (store.addCrl crl)

/-- The wrappers throw exceptions and do nothing undefined. -/
structure OpenSsl.Throws : Prop where
  pemX509 : ∀ pem, FailsWith Thrown (ssl.pemX509 pem)
  derX509 : ∀ der, FailsWith Thrown (ssl.derX509 der)
  pemStack : ∀ pem, FailsWith Thrown (ssl.pemStack pem)
  pemCrl : ∀ pem, FailsWith Thrown (ssl.pemCrl pem)
  derCrl : ∀ der, FailsWith Thrown (ssl.derCrl der)
  hasPublicKey : ∀ x509 pem, FailsWith Thrown (ssl.hasPublicKey x509 pem)
  pubkey : ∀ x509, FailsWith Thrown (ssl.pubkey x509)
  p256 : ∀ coordinates, FailsWith Thrown (ssl.p256 coordinates)
  signatureDer : ∀ r s littleEndian, FailsWith Thrown (ssl.signatureDer r s littleEndian)
  verifyDigest : ∀ pkey digest der, FailsWith Thrown (ssl.verifyDigest pkey digest der)
  printX509 : ∀ x509, FailsWith Thrown (ssl.printX509 x509)
  printCrl : ∀ crl, FailsWith Thrown (ssl.printCrl crl)
  vformat : ∀ template args, FailsWith Thrown (ssl.vformat template args)

end Wrappers

end Ravl
