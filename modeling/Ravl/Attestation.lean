import Ravl.Lib.Bytes

/-!
# Attestations (attestation.h)
-/

namespace Ravl
open ByteLib

inductive Source
  | sgx
  | sevSnp
  | openEnclave
  | aci
  | unknown
  deriving DecidableEq

/-- The data of an attestation; a class derived from it fixes the source. -/
structure Attestation where
  source : Source := .unknown
  evidence : Bytes
  endorsements : Bytes
  deriving DecidableEq

end Ravl
