import Ravl.OpenSsl

/-!
# The SGX extension of a PCK certificate (sgx_impl.h:464-614, openssl.hpp:1543-1657)
-/

namespace Ravl.Sgx
open ByteLib FallibleLib

/-! ### `UqASN1_SEQUENCE` -/

def asn1FormatException (detail : String) : Error :=
  .exception ("incorrectly formatted ASN.1 structure: " ++ detail)

def openSequence : Asn1 → Result (List Asn1)
  | .sequence elements => pure elements
  | .malformedSequence =>
    throw (.exception "OpenSSL object creation failed because of OpenSSL error(s):")
  | _ => throw (asn1FormatException "ASN.1 object not a sequence")

/-- `get_obj_value`, up to the check of the value's type, which the getters make. -/
def getObjValue (seq : List Asn1) (i : ℕ) (expectedOid : Bytes) : Result Asn1 := do
  let element ← orThrow seq[i]? (.undefined "null element of a sequence")
  let ss ← openSequence element
  match ss with
  | [tt, tv] =>
    match tt with
    | .object oid =>
      refuse (oid ≠ expectedOid) (asn1FormatException "ASN.1 object with unexpected id")
      pure tv
    | _ => throw (asn1FormatException "ASN.1 object value of invalid type")
  | _ => throw (asn1FormatException "ASN.1 sequence of invalid size")

def unexpectedType : Error := asn1FormatException "ASN.1 value of unexpected type"

/-- BN_num_bytes -/
def numBytes (n : ℕ) : ℕ := (Nat.log2 n + 8) / 8 * (if n = 0 then 0 else 1)

def getUint8 (seq : List Asn1) (i : ℕ) (expectedOid : Bytes) : Result Byte := do
  match ← getObjValue seq i expectedOid with
  | .integer v =>
    refuse (numBytes v.natAbs ≠ 1 ∧ v ≠ 0) (asn1FormatException "ASN.1 integer value not a uint8_t")
    pure (Fin.ofNat 256 v.natAbs)
  | _ => throw unexpectedType

def getUint16 (seq : List Asn1) (i : ℕ) (expectedOid : Bytes) : Result ℕ := do
  match ← getObjValue seq i expectedOid with
  | .integer v =>
    let n := v.natAbs
    refuse (2 < numBytes n) (asn1FormatException "ASN.1 integer value not a uint16_t")
    -- two big-endian bytes, put together as `r[0] | r[1] << 8`
    pure (if numBytes n = 2 then n / 256 + 256 * (n % 256) else n)
  | _ => throw unexpectedType

def getEnum (seq : List Asn1) (i : ℕ) (expectedOid : Bytes) : Result ℤ := do
  match ← getObjValue seq i expectedOid with
  | .enumerated v =>
    refuse (v < -2 ^ 63 ∨ 2 ^ 63 ≤ v) (.exception "OpenSSL error(s):")
    pure v
  | _ => throw unexpectedType

def getOctetString (seq : List Asn1) (i : ℕ) (expectedOid : Bytes) : Result Bytes := do
  match ← getObjValue seq i expectedOid with
  | .octetString data => pure data
  | _ => throw unexpectedType

def getSeq (seq : List Asn1) (i : ℕ) (expectedOid : Bytes) : Result (List Asn1) := do
  match ← getObjValue seq i expectedOid with
  | .sequence elements => pure elements
  | .malformedSequence => openSequence .malformedSequence
  | _ => throw unexpectedType

def getBool (seq : List Asn1) (i : ℕ) (expectedOid : Bytes) : Result Bool := do
  match ← getObjValue seq i expectedOid with
  | .boolean b => pure b
  | _ => throw unexpectedType

/-! ### `CertificateExtension` -/

structure TCB where
  compSvn : Bytes
  compSvn_size : compSvn.length = 16
  pceSvn : ℕ
  cpuSvn : Bytes

structure Configuration where
  dynamicPlatform : Bool
  cachedKeys : Bool
  smtEnabled : Bool

structure CertificateExtension where
  ppid : Bytes
  tcb : TCB
  pceid : Bytes
  fmspc : Bytes
  sgxType : ℕ
  platformInstanceId : Option Bytes
  configuration : Option Configuration

def sgxExtOid : Bytes := text "1.2.840.113741.1.13.1"
def sgxExtPpidOid : Bytes := sgxExtOid ++ text ".1"
def sgxExtTcbOid : Bytes := sgxExtOid ++ text ".2"
def sgxExtPceidOid : Bytes := sgxExtOid ++ text ".3"
def sgxExtFmspcOid : Bytes := sgxExtOid ++ text ".4"
def sgxExtTypeOid : Bytes := sgxExtOid ++ text ".5"
def sgxExtPlatformInstanceOid : Bytes := sgxExtOid ++ text ".6"
def sgxExtConfigurationOid : Bytes := sgxExtOid ++ text ".7"
def dynamicPlatformOid : Bytes := sgxExtConfigurationOid ++ text ".1"
def cachedKeysOid : Bytes := sgxExtConfigurationOid ++ text ".2"
def smtEnabledOid : Bytes := sgxExtConfigurationOid ++ text ".3"

/-- `std::to_string` -/
def decimal (n : ℕ) : Bytes := text (toString n)

/-- The OID of entry `i` of the TCB sequence. -/
def tcbEntryOid (i : ℕ) : Bytes := sgxExtTcbOid ++ text "." ++ decimal (i + 1)

/-- The component SVNs: `n` entries from `i` on. -/
def compSvns (seq : List Asn1) : (n : ℕ) → (i : ℕ) → Result { bs : Bytes // bs.length = n }
  | 0, _ => pure ⟨[], rfl⟩
  | n + 1, i => do
    let b ← getUint8 seq i (tcbEntryOid i)
    let bs ← compSvns seq n (i + 1)
    pure ⟨b :: bs.1, congrArg (· + 1) bs.2⟩

def getTcbExt (seq : List Asn1) (i : ℕ) (expectedOid : Bytes) : Result TCB := do
  let sss ← getSeq seq i expectedOid
  refuse (sss.length ≠ 18) (.exception "SGX X509 TCB extension: sequence of invalid length")
  let svns ← compSvns sss 16 0
  let pceSvn ← getUint16 sss 16 (tcbEntryOid 16)
  let cpuSvn ← getOctetString sss 17 (tcbEntryOid 17)
  refuse (cpuSvn.length ≠ 16)
    (.exception "SGX X509 TCB extension: ASN.1 octet string of invalid size")
  pure ⟨svns.1, svns.2, pceSvn, cpuSvn⟩

/-- The constructor, given the extension's data where the certificate has it. -/
def CertificateExtension.ofExtension (sgxExt : Option Asn1) : Result CertificateExtension := do
  let data ← orThrow sgxExt
    (.exception "PCK certificate does not contain the SGX extension")
  let seq ← match data with
    | .sequence elements => (pure elements : Result (List Asn1))
    | _ => openSequence .malformedSequence
  refuse (seq.length ≠ 5 ∧ seq.length ≠ 7)
    (.exception "SGX X509 extension sequence has invalid size")
  let ppid ← getOctetString seq 0 sgxExtPpidOid
  let tcb ← getTcbExt seq 1 sgxExtTcbOid
  let pceid ← getOctetString seq 2 sgxExtPceidOid
  let fmspc ← getOctetString seq 3 sgxExtFmspcOid
  let sgxType ← getEnum seq 4 sgxExtTypeOid
  let ext : CertificateExtension :=
    ⟨ppid, tcb, pceid, fmspc, if sgxType ≠ 0 then 1 else 0, none, none⟩
  if seq.length ≤ 5 then pure ext
  else do
    let platformInstanceId ← getOctetString seq 5 sgxExtPlatformInstanceOid
    let configSeq ← getSeq seq 6 sgxExtConfigurationOid
    refuse (configSeq.length ≠ 3)
      (.exception "SGX X509 extension configuration sequence has invalid size")
    let dynPlatform ← getBool configSeq 0 dynamicPlatformOid
    let cachedKeys ← getBool configSeq 1 cachedKeysOid
    let smtEnabled ← getBool configSeq 2 smtEnabledOid
    pure { ext with
      platformInstanceId := some platformInstanceId
      configuration := some ⟨dynPlatform, cachedKeys, smtEnabled⟩ }

/-- The extension of a processor certificate in which every number is 0. -/
def zeroExtension : CertificateExtension :=
  ⟨[], ⟨List.replicate 16 0, rfl, 0, List.replicate 16 0⟩, [], [], 0, none, none⟩

def zeroAsn1 : Asn1 :=
  let entry (oid : Bytes) (value : Asn1) : Asn1 := .sequence [.object oid, value]
  .sequence [
    entry sgxExtPpidOid (.octetString []),
    entry sgxExtTcbOid (.sequence ((List.range 17).map (fun i => entry (tcbEntryOid i) (.integer 0)) ++
      [entry (tcbEntryOid 17) (.octetString (List.replicate 16 0))])),
    entry sgxExtPceidOid (.octetString []),
    entry sgxExtFmspcOid (.octetString []),
    entry sgxExtTypeOid (.enumerated 0)]

example : (CertificateExtension.ofExtension (some zeroAsn1)).toOption.map (·.tcb.compSvn) =
    some zeroExtension.tcb.compSvn := by decide +kernel

def CertificateExtension.ofCertificate {X509 Crl Pkey : Type} (ssl : OpenSsl X509 Crl Pkey)
    (certificate : X509) : Result CertificateExtension :=
  CertificateExtension.ofExtension (ssl.extension certificate sgxExtOid)

end Ravl.Sgx
