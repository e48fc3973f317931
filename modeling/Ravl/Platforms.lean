import Ravl.Oe.Attestation
import Ravl.SevSnp.Requests

/-!
# Attestation objects of every platform (attestation.h, sgx.h, sev_snp.h, oe.h, aci.h, aci_impl.h)

The two virtual functions return, next to their result, the object as they leave it: only Open
Enclave attestations change.
-/

namespace Ravl
open ByteLib FallibleLib

inductive PlatformClaims
  | sgx (claims : Sgx.Claims)
  | sevSnp (claims : SevSnp.Claims)
  | openEnclave (claims : Oe.Claims)
  deriving DecidableEq

inductive AttestationObject
  | sgx (evidence endorsements : Bytes)
  | sevSnp (evidence endorsements : Bytes)
  | openEnclave (object : Oe.Attestation)
  | aci (evidence endorsements uvmEndorsements : Bytes)
  deriving DecidableEq

/-- What the platforms rely on: OpenSSL, the machine, and the check of UVM endorsements against
a measurement (uvm_endorsements.h). -/
structure Platform (X509 Crl Pkey : Type) where
  ssl : OpenSsl X509 Crl Pkey
  host : Host
  verifyUvmEndorsements : Bytes → Bytes → Result Unit

section
variable {X509 Crl Pkey : Type} (p : Platform X509 Crl Pkey)

/-- `aci::Attestation::verify`, after that of its base class -/
def verifyAci (evidence endorsements uvmEndorsements : Bytes) (options : Options)
    (httpResponses : Option HTTPResponses) : Result SevSnp.Claims := do
  let snpClaims ← SevSnp.verify p.ssl p.host ⟨.aci, evidence, endorsements⟩ options httpResponses
  p.verifyUvmEndorsements uvmEndorsements snpClaims.measurement
  pure snpClaims

namespace AttestationObject

def prepareEndorsements (a : AttestationObject) (options : Options) :
    Result (Option HTTPRequests) × AttestationObject :=
  match a with
  | sgx evidence endorsements =>
    (Sgx.prepareEndorsements p.ssl p.host ⟨.sgx, evidence, endorsements⟩ options, a)
  | sevSnp evidence endorsements =>
    (SevSnp.prepareEndorsements p.ssl p.host ⟨.sevSnp, evidence, endorsements⟩ options, a)
  | openEnclave object =>
    let r := object.prepareEndorsements p.ssl p.host options
    (r.1, openEnclave r.2)
  | aci evidence endorsements _ =>
    (SevSnp.prepareEndorsements p.ssl p.host ⟨.aci, evidence, endorsements⟩ options, a)

def verify (a : AttestationObject) (options : Options) (httpResponses : Option HTTPResponses) :
    Result PlatformClaims × AttestationObject :=
  match a with
  | sgx evidence endorsements =>
    ((Sgx.verify p.ssl p.host ⟨.sgx, evidence, endorsements⟩ options httpResponses).map .sgx, a)
  | sevSnp evidence endorsements =>
    ((SevSnp.verify p.ssl p.host ⟨.sevSnp, evidence, endorsements⟩ options httpResponses).map .sevSnp, a)
  | openEnclave object =>
    let r := object.verify p.ssl p.host options httpResponses
    (r.1.map .openEnclave, openEnclave r.2)
  | aci evidence endorsements uvmEndorsements =>
    ((verifyAci p evidence endorsements uvmEndorsements options httpResponses).map .sevSnp, a)

end AttestationObject

variable {p}

/-! ### No responses and an empty list of them -/

theorem Sgx.verify_some_nil (a : Attestation) (options : Options) :
    Sgx.verify p.ssl p.host a options (some []) = Sgx.verify p.ssl p.host a options none := rfl

theorem SevSnp.verify_no_requests (a : Attestation) (options : Options)
    (r r' : Option HTTPResponses)
    (hprepare : SevSnp.prepareEndorsements p.ssl p.host a options = .ok none) :
    SevSnp.verify p.ssl p.host a options r = SevSnp.verify p.ssl p.host a options r' := by
  rw [SevSnp.verify, SevSnp.verify, verifyRun_no_requests p.ssl p.host a options r r' hprepare]

/-- An object that asks for nothing does not tell an empty list of responses from none. -/
theorem AttestationObject.verify_some_nil (a : AttestationObject) (options : Options)
    (hprepare : (a.prepareEndorsements p options).1 = .ok none) :
    ((a.prepareEndorsements p options).2.verify p options (some [])).1 =
      ((a.prepareEndorsements p options).2.verify p options none).1 := by
  cases a with
  | sgx evidence endorsements =>
    have hsame := Sgx.verify_some_nil (p := p)
      { evidence := evidence, endorsements := endorsements } options
    exact congrArg (Except.map PlatformClaims.sgx) hsame
  | sevSnp evidence endorsements =>
    have hsame := SevSnp.verify_no_requests _ options (some []) none hprepare
    exact congrArg (Except.map PlatformClaims.sevSnp) hsame
  | openEnclave object =>
    have hsame : ((object.prepareEndorsements p.ssl p.host options).2.verify p.ssl p.host options
        (some [])).1 = ((object.prepareEndorsements p.ssl p.host options).2.verify p.ssl p.host options
          none).1 := by
      unfold Oe.Attestation.verify Oe.verifyExtracted
      split
      · rfl
      · split
        · rfl
        · split <;> rfl
    exact congrArg (Except.map PlatformClaims.openEnclave) hsame
  | aci evidence endorsements uvmEndorsements =>
    have hsame := SevSnp.verify_no_requests _ options (some []) none hprepare
    show Except.map _ (verifyAci p evidence endorsements uvmEndorsements options (some [])) =
      Except.map _ (verifyAci p evidence endorsements uvmEndorsements options none)
    rw [verifyAci, verifyAci, hsame]

end

end Ravl
