import Ravl.JsonSerializer
import Ravl.Sgx.Verify

/-!
# SGX claims as JSON (sgx.h:19-95, sgx_impl.h:31-82)

The lists of member names, and that every member is on one of them. The attributes of a report,
a structure of their own in the source, are two members of `ReportBody` here.
-/

namespace Ravl.Sgx
open ByteLib FallibleLib

variable (dbl : Doubles)

structure ReportAttributes where
  flags : ℕ
  xfrm : ℕ

def reportAttributesFields : List (Field ReportAttributes) :=
  [field "flags" (uint64Serializer dbl) (·.flags) fun v a => { a with flags := v },
    field "xfrm" (uint64Serializer dbl) (·.xfrm) fun v a => { a with xfrm := v }]

def reportBodyFields : List (Field ReportBody) :=
  [field "cpu_svn" (byteArraySerializer dbl 16) (·.cpuSvn) fun v b => { b with cpuSvn := v },
    field "misc_select" (uintSerializer dbl 32) (·.miscSelect) fun v b => { b with miscSelect := v },
    field "isv_ext_prod_id" (byteArraySerializer dbl 16) (·.isvExtProdId)
      fun v b => { b with isvExtProdId := v },
    field "attributes" (recordSerializer (reportAttributesFields dbl)) (fun b => ⟨b.flags, b.xfrm⟩)
      fun v b => { b with flags := v.flags, xfrm := v.xfrm },
    field "mr_enclave" (byteArraySerializer dbl 32) (·.mrEnclave) fun v b => { b with mrEnclave := v },
    field "mr_signer" (byteArraySerializer dbl 32) (·.mrSigner) fun v b => { b with mrSigner := v },
    field "config_id" (byteArraySerializer dbl 64) (·.configId) fun v b => { b with configId := v },
    field "isv_prod_id" (uintSerializer dbl 16) (·.isvProdId) fun v b => { b with isvProdId := v },
    field "isv_svn" (uintSerializer dbl 16) (·.isvSvn) fun v b => { b with isvSvn := v },
    field "config_svn" (uintSerializer dbl 16) (·.configSvn) fun v b => { b with configSvn := v },
    field "isv_family_id" (byteArraySerializer dbl 16) (·.isvFamilyId)
      fun v b => { b with isvFamilyId := v },
    field "report_data" (byteArraySerializer dbl 64) (·.reportData)
      fun v b => { b with reportData := v }]

def signatureDataFields : List (Field SignatureClaims) :=
  [field "signature" (byteArraySerializer dbl 64) (·.signature) fun v d => { d with signature := v },
    field "attest_pub_key" (byteArraySerializer dbl 64) (·.attestPubKey)
      fun v d => { d with attestPubKey := v },
    field "qe_report" (recordSerializer (reportBodyFields dbl)) (·.qeReport)
      fun v d => { d with qeReport := v },
    field "qe_report_sig" (byteArraySerializer dbl 64) (·.qeReportSig)
      fun v d => { d with qeReportSig := v },
    field "auth_data" (bytesSerializer dbl) (·.authData) fun v d => { d with authData := v }]

def endorsementsFields : List (Field Endorsements) :=
  [field "major_version" (uintSerializer dbl 16) (·.majorVersion) fun v e => { e with majorVersion := v },
    field "minor_version" (uintSerializer dbl 16) (·.minorVersion) fun v e => { e with minorVersion := v },
    field "tee_type" (uintSerializer dbl 32) (·.teeType) fun v e => { e with teeType := v },
    field "root_ca" stringSerializer (·.rootCa) fun v e => { e with rootCa := v },
    field "pck_crl_issuer_chain" stringSerializer (·.pckCrlIssuerChain)
      fun v e => { e with pckCrlIssuerChain := v },
    field "root_ca_crl" stringSerializer (·.rootCaCrl) fun v e => { e with rootCaCrl := v },
    field "pck_crl" stringSerializer (·.pckCrl) fun v e => { e with pckCrl := v },
    field "tcb_info_issuer_chain" stringSerializer (·.tcbInfoIssuerChain)
      fun v e => { e with tcbInfoIssuerChain := v },
    field "tcb_info" stringSerializer (·.tcbInfo) fun v e => { e with tcbInfo := v },
    field "qe_identity_issuer_chain" stringSerializer (·.qeIdentityIssuerChain)
      fun v e => { e with qeIdentityIssuerChain := v },
    field "qe_identity" stringSerializer (·.qeIdentity) fun v e => { e with qeIdentity := v }]

def claimsFields : List (Field Claims) :=
  [field "version" (uintSerializer dbl 16) (·.version) fun v c => { c with version := v },
    field "sign_type" (uintSerializer dbl 16) (·.signType) fun v c => { c with signType := v },
    field "epid_group_id" (byteArraySerializer dbl 4) (·.epidGroupId)
      fun v c => { c with epidGroupId := v },
    field "qe_svn" (uintSerializer dbl 16) (·.qeSvn) fun v c => { c with qeSvn := v },
    field "pce_svn" (uintSerializer dbl 16) (·.pceSvn) fun v c => { c with pceSvn := v },
    field "xeid" (uintSerializer dbl 32) (·.xeid) fun v c => { c with xeid := v },
    field "basename" (byteArraySerializer dbl 32) (·.basename) fun v c => { c with basename := v },
    field "report_body" (recordSerializer (reportBodyFields dbl)) (·.reportBody)
      fun v c => { c with reportBody := v },
    field "signature_data" (recordSerializer (signatureDataFields dbl)) (·.signatureData)
      fun v c => { c with signatureData := v },
    field "endorsements" (recordSerializer (endorsementsFields dbl)) (·.endorsements)
      fun v c => { c with endorsements := v }]

/-! The members have the types of sgx.h. -/

structure ReportBody.Fits (b : ReportBody) : Prop where
  cpuSvn : b.cpuSvn.length = 16
  miscSelect : b.miscSelect < 2 ^ 32
  isvExtProdId : b.isvExtProdId.length = 16
  flags : b.flags < 2 ^ 64
  xfrm : b.xfrm < 2 ^ 64
  mrEnclave : b.mrEnclave.length = 32
  mrSigner : b.mrSigner.length = 32
  configId : b.configId.length = 64
  isvProdId : b.isvProdId < 2 ^ 16
  isvSvn : b.isvSvn < 2 ^ 16
  configSvn : b.configSvn < 2 ^ 16
  isvFamilyId : b.isvFamilyId.length = 16
  reportData : b.reportData.length = 64

structure SignatureClaims.Fits (d : SignatureClaims) : Prop where
  signature : d.signature.length = 64
  attestPubKey : d.attestPubKey.length = 64
  qeReport : d.qeReport.Fits
  qeReportSig : d.qeReportSig.length = 64

structure Endorsements.Fits (e : Endorsements) : Prop where
  majorVersion : e.majorVersion < 2 ^ 16
  minorVersion : e.minorVersion < 2 ^ 16
  teeType : e.teeType < 2 ^ 32

structure Claims.Fits (c : Claims) : Prop where
  version : c.version < 2 ^ 16
  signType : c.signType < 2 ^ 16
  epidGroupId : c.epidGroupId.length = 4
  qeSvn : c.qeSvn < 2 ^ 16
  pceSvn : c.pceSvn < 2 ^ 16
  xeid : c.xeid < 2 ^ 32
  basename : c.basename.length = 32
  reportBody : c.reportBody.Fits
  signatureData : c.signatureData.Fits
  endorsements : c.endorsements.Fits

theorem readReportBody_fits (m : Memory) (a : ℕ) : (readReportBody m a).Fits where
  cpuSvn := readMem_length m _ _
  miscSelect := readLe_fits m _ 4 32 (by decide)
  isvExtProdId := readMem_length m _ _
  flags := readLe_fits m _ 8 64 (by decide)
  xfrm := readLe_fits m _ 8 64 (by decide)
  mrEnclave := readMem_length m _ _
  mrSigner := readMem_length m _ _
  configId := readMem_length m _ _
  isvProdId := readLe_fits m _ 2 16 (by decide)
  isvSvn := readLe_fits m _ 2 16 (by decide)
  configSvn := readLe_fits m _ 2 16 (by decide)
  isvFamilyId := readMem_length m _ _
  reportData := readMem_length m _ _

/-- What is read from evidence whose spans lie where they should has these types. -/
theorem makeClaims_fits (m unset : Memory) (sd : SignatureData) (hquote : sd.quoteSignature.size = 64)
    (hkey : sd.publicKey.size = 64) (hreport : sd.reportSignature.size = 64) :
    (makeClaims m unset sd).Fits where
  version := readLe_fits m _ 2 16 (by decide)
  signType := readLe_fits m _ 2 16 (by decide)
  epidGroupId := readMem_length m _ _
  qeSvn := readLe_fits m _ 2 16 (by decide)
  pceSvn := readLe_fits m _ 2 16 (by decide)
  xeid := readLe_fits m _ 4 32 (by decide)
  basename := readMem_length m _ _
  reportBody := readReportBody_fits m _
  signatureData := {
    signature := (readMem_length m _ _).trans hquote
    attestPubKey := (readMem_length m _ _).trans hkey
    qeReport := readReportBody_fits m _
    qeReportSig := (readMem_length m _ _).trans hreport }
  endorsements := {
    majorVersion := readLe_fits unset _ 2 16 (by decide)
    minorVersion := readLe_fits unset _ 2 16 (by decide)
    teeType := readLe_fits unset _ 4 32 (by decide) }

theorem reportAttributes_restores (a : ReportAttributes) (hflags : a.flags < 2 ^ 64)
    (hxfrm : a.xfrm < 2 ^ 64) : (recordSerializer (reportAttributesFields dbl)).Restores a := by
  have hnames : ((reportAttributesFields dbl).map (·.name)).Nodup := by
    simp only [reportAttributesFields, List.map_cons, List.map_nil, field_name]
    decide +kernel
  refine recordSerializer_restores _ hnames a ?_ fun _ => rfl
  simp only [reportAttributesFields, List.forall_mem_cons]
  exact ⟨field_restores (uint64Serializer_restores dbl _ hflags),
    field_restores (uint64Serializer_restores dbl _ hxfrm), List.forall_mem_nil _⟩

theorem reportBody_restores (b : ReportBody) (h : b.Fits) :
    (recordSerializer (reportBodyFields dbl)).Restores b := by
  have hnames : ((reportBodyFields dbl).map (·.name)).Nodup := by
    simp only [reportBodyFields, List.map_cons, List.map_nil, field_name]
    decide +kernel
  refine recordSerializer_restores _ hnames b ?_ ?_
  · have bytes {n : ℕ} {data : Bytes} (hlen : data.length = n) := byteArraySerializer_restores dbl hlen
    simp only [reportBodyFields, List.forall_mem_cons]
    exact ⟨field_restores (bytes h.cpuSvn), field_restores (uintSerializer_restores dbl _ _ h.miscSelect),
      field_restores (bytes h.isvExtProdId),
      field_restores (reportAttributes_restores dbl _ h.flags h.xfrm),
      field_restores (bytes h.mrEnclave), field_restores (bytes h.mrSigner),
      field_restores (bytes h.configId), field_restores (uintSerializer_restores dbl _ _ h.isvProdId),
      field_restores (uintSerializer_restores dbl _ _ h.isvSvn),
      field_restores (uintSerializer_restores dbl _ _ h.configSvn),
      field_restores (bytes h.isvFamilyId), field_restores (bytes h.reportData), List.forall_mem_nil _⟩
  · intro old
    simp only [reportBodyFields, List.foldl_cons, List.foldl_nil, field_copy]

theorem signatureData_restores (d : SignatureClaims) (h : d.Fits) :
    (recordSerializer (signatureDataFields dbl)).Restores d := by
  have hnames : ((signatureDataFields dbl).map (·.name)).Nodup := by
    simp only [signatureDataFields, List.map_cons, List.map_nil, field_name]
    decide +kernel
  refine recordSerializer_restores _ hnames d ?_ ?_
  · simp only [signatureDataFields, List.forall_mem_cons]
    exact ⟨field_restores (byteArraySerializer_restores dbl h.signature),
      field_restores (byteArraySerializer_restores dbl h.attestPubKey),
      field_restores (reportBody_restores dbl _ h.qeReport),
      field_restores (byteArraySerializer_restores dbl h.qeReportSig),
      field_restores (bytesSerializer_restores dbl _), List.forall_mem_nil _⟩
  · intro old
    simp only [signatureDataFields, List.foldl_cons, List.foldl_nil, field_copy]

theorem endorsements_restores (e : Endorsements) (h : e.Fits) :
    (recordSerializer (endorsementsFields dbl)).Restores e := by
  have hnames : ((endorsementsFields dbl).map (·.name)).Nodup := by
    simp only [endorsementsFields, List.map_cons, List.map_nil, field_name]
    decide +kernel
  refine recordSerializer_restores _ hnames e ?_ ?_
  · have string (name : String) (get : Endorsements → Bytes)
        (set : Bytes → Endorsements → Endorsements) : (field name stringSerializer get set).Restores e :=
      field_restores (stringSerializer_restores _)
    simp only [endorsementsFields, List.forall_mem_cons]
    exact ⟨field_restores (uintSerializer_restores dbl _ _ h.majorVersion),
      field_restores (uintSerializer_restores dbl _ _ h.minorVersion),
      field_restores (uintSerializer_restores dbl _ _ h.teeType), string _ _ _, string _ _ _,
      string _ _ _, string _ _ _, string _ _ _, string _ _ _, string _ _ _, string _ _ _,
      List.forall_mem_nil _⟩
  · intro old
    simp only [endorsementsFields, List.foldl_cons, List.foldl_nil, field_copy]

theorem claims_restores (c : Claims) (h : c.Fits) :
    (recordSerializer (claimsFields dbl)).Restores c := by
  have hnames : ((claimsFields dbl).map (·.name)).Nodup := by
    simp only [claimsFields, List.map_cons, List.map_nil, field_name]
    decide +kernel
  refine recordSerializer_restores _ hnames c ?_ ?_
  · simp only [claimsFields, List.forall_mem_cons]
    exact ⟨field_restores (uintSerializer_restores dbl _ _ h.version),
      field_restores (uintSerializer_restores dbl _ _ h.signType),
      field_restores (byteArraySerializer_restores dbl h.epidGroupId),
      field_restores (uintSerializer_restores dbl _ _ h.qeSvn),
      field_restores (uintSerializer_restores dbl _ _ h.pceSvn),
      field_restores (uintSerializer_restores dbl _ _ h.xeid),
      field_restores (byteArraySerializer_restores dbl h.basename),
      field_restores (reportBody_restores dbl _ h.reportBody),
      field_restores (signatureData_restores dbl _ h.signatureData),
      field_restores (endorsements_restores dbl _ h.endorsements), List.forall_mem_nil _⟩
  · intro old
    simp only [claimsFields, List.foldl_cons, List.foldl_nil, field_copy]

theorem roundTrips_iff (c : ClaimsObject Claims) (h : c.fields.Fits) :
    RoundTrips (recordSerializer (claimsFields dbl)) .sgx c ↔ c.source = .sgx := by
  rw [roundTrips_read _ _ c _ (claims_restores dbl c.fields h)]
  exact and_iff_right rfl

end Ravl.Sgx
