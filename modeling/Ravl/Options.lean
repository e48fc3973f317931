import Ravl.Lib.Bytes

/-!
# Options (options.h, crypto_options.h)
-/

namespace Ravl
open ByteLib

structure CertificateValidationOptions where
  /-- Ignores certificate validity dates -/
  ignoreTime : Bool := false
  /-- Sets an explicit verification time (as opposed to current time) -/
  verificationTime : Option ℤ := none
  deriving DecidableEq

structure Options where
  verbosity : Fin 256 := 0
  certificateVerification : CertificateValidationOptions := {}
  /-- Downloads new endorsements -/
  freshEndorsements : Bool := false
  /-- Downloads a new root CA certificate -/
  freshRootCaCertificate : Bool := false
  /-- Optional root CA certificate (overrides fresh_endorsements and
  fresh_root_ca_certificate; PEM format) -/
  rootCaCertificate : Option Bytes := none
  checkRootCertificateManufacturerKey : Bool := true
  /-- Optional URL template for cached Intel SGX endorsements (DCAP) -/
  sgxEndorsementCacheUrlTemplate : Option Bytes := none
  /-- Optional URL template for cached AMD SEV/SNP endorsements -/
  sevSnpEndorsementCacheUrlTemplate : Option Bytes := none
  /-- Timeout for HTTP requests (in seconds; 0 = no limit) -/
  httpTimeout : ℕ := 90
  /-- Maximum number of attempts for HTTP requests -/
  httpMaxAttempts : ℕ := 5
  /-- Accept historical attestations where SVNs may be smaller than for fresh
  attestations -/
  historical : Bool := false
  /-- Partial verification: only critical fields in the attestation (e.g. when
  TCB info and others have been verified previously) -/
  isPartial : Bool := false
  deriving DecidableEq

end Ravl
