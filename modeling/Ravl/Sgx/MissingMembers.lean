import Ravl.Sgx.TcbLevels
import Ravl.Sgx.QeLevels

/-!
# Members that are not there (sgx_impl.h:356-373, 633-717, 820-935)

The documents are walked before their signature is checked. Most members are looked up with
the `operator[]` that gives null for a missing key; inside of a level, and for `fmspc` and
`pceId`, it is the const one. Dates become time points, which do not reach further than the
year 2262. The text for the signature check is cut out by two searches.
-/

namespace Ravl.Sgx
open ByteLib FallibleLib SearchLib JsonText

/-! ### Values and dates -/

theorem earliestPermitted : parseTimePoint sgxEarliestTcbCrlDate = .ok 1489708800000000000 := by
  decide +kernel

section
variable (host : Host)

end

/-! ### The members of a level -/

theorem getString_ok_iff (j : Json) (s : Bytes) : getString j = .ok s ↔ j = .string s := by
  refine ⟨getString_ok j s, fun h => ?_⟩
  rw [h]
  rfl

section
variable (host : Host)

variable (pckExt : CertificateExtension)

end

/-! Members read with the other `operator[]` -/

section
variable (host : Host) (pckExt : CertificateExtension)

end

/-! ### The levels of a QE identity -/

section
variable (host : Host) (report : ReportBody) (options : Options)

end

/-! ### The documents -/

section
variable {X509 Crl Pkey : Type} (ssl : OpenSsl X509 Crl Pkey) (host : Host)

/-- The first text that should stand before the value ends before the last one that should stand
behind it. -/
def InOrder (pre post s : Bytes) : Prop :=
  ∀ l r, find pre s = some l → rfind post s = some r → l + pre.length ≤ r

section
variable (hssl : ssl.Throws)
include hssl

theorem verifySignature_fails (pkey : Pkey) (message signature : Bytes) :
    FailsWith Thrown (verifySignature ssl pkey message signature) :=
  FailsWith.bind (hssl.signatureDer _ _ _) fun _ _ => hssl.verifyDigest _ _ _

end

end

/-! ### Samples -/

end Ravl.Sgx
