import Ravl.JsonSerializer
import Ravl.SevSnp

/-!
# SEV/SNP claims as JSON (sev_snp.h:19-76, sev_snp_impl.h:18-40, 211-252)

The lists of member names, and the converter for an optional string: no string is written as null,
and null is read as no string.
-/

namespace Ravl.SevSnp
open ByteLib FallibleLib
open JsonText (Json)

/-- ravl_json_serializer<std::optional<std::string>> -/
def optionalStringSerializer : Serializer (Option Bytes) where
  toJson
    | some x => .string x
    | none => .null
  fromJson j _ :=
    match j with
    | .null => pure none
    | j => do
      let x ← getString j
      pure (some x)

theorem optionalStringSerializer_restores (x : Option Bytes) : optionalStringSerializer.Restores x := by
  intro _
  cases x <;> rfl

section
variable (dbl : Doubles)

def tcbVersionFields : List (Field TCBVersion) :=
  [field "boot_loader" (byteSerializer dbl) (·.bootLoader) fun v t => { t with bootLoader := v },
    field "tee" (byteSerializer dbl) (·.tee) fun v t => { t with tee := v },
    field "snp" (byteSerializer dbl) (·.snp) fun v t => { t with snp := v },
    field "microcode" (byteSerializer dbl) (·.microcode) fun v t => { t with microcode := v }]

def signatureFields : List (Field Signature) :=
  [field "r" (byteArraySerializer dbl 72) (·.r) fun v s => { s with r := v },
    field "s" (byteArraySerializer dbl 72) (·.s) fun v s => { s with s := v }]

def endorsementsFields : List (Field Endorsements) :=
  [field "root_ca_certificate" stringSerializer (·.rootCaCertificate)
      fun v e => { e with rootCaCertificate := v },
    field "vcek_certificate_chain" stringSerializer (·.vcekCertificateChain)
      fun v e => { e with vcekCertificateChain := v },
    field "vcek_issuer_chain_crl" optionalStringSerializer (·.vcekIssuerChainCrl)
      fun v e => { e with vcekIssuerChainCrl := v }]

def claimsFields : List (Field Claims) :=
  [field "version" (uintSerializer dbl 32) (·.version) fun v c => { c with version := v },
    field "guest_svn" (uintSerializer dbl 32) (·.guestSvn) fun v c => { c with guestSvn := v },
    field "policy" (uint64Serializer dbl) (·.policy) fun v c => { c with policy := v },
    field "family_id" (byteArraySerializer dbl 16) (·.familyId) fun v c => { c with familyId := v },
    field "image_id" (byteArraySerializer dbl 16) (·.imageId) fun v c => { c with imageId := v },
    field "vmpl" (uintSerializer dbl 32) (·.vmpl) fun v c => { c with vmpl := v },
    field "signature_algo" (uintSerializer dbl 32) (·.signatureAlgo)
      fun v c => { c with signatureAlgo := v },
    field "platform_version" (recordSerializer (tcbVersionFields dbl)) (·.platformVersion)
      fun v c => { c with platformVersion := v },
    field "platform_info" (uint64Serializer dbl) (·.platformInfo) fun v c => { c with platformInfo := v },
    field "flags" (uintSerializer dbl 32) (·.flags) fun v c => { c with flags := v },
    field "report_data" (byteArraySerializer dbl 64) (·.reportData) fun v c => { c with reportData := v },
    field "measurement" (byteArraySerializer dbl 48) (·.measurement)
      fun v c => { c with measurement := v },
    field "host_data" (byteArraySerializer dbl 32) (·.hostData) fun v c => { c with hostData := v },
    field "id_key_digest" (byteArraySerializer dbl 48) (·.idKeyDigest)
      fun v c => { c with idKeyDigest := v },
    field "author_key_digest" (byteArraySerializer dbl 48) (·.authorKeyDigest)
      fun v c => { c with authorKeyDigest := v },
    field "report_id" (byteArraySerializer dbl 32) (·.reportId) fun v c => { c with reportId := v },
    field "report_id_ma" (byteArraySerializer dbl 32) (·.reportIdMa) fun v c => { c with reportIdMa := v },
    field "reported_tcb" (recordSerializer (tcbVersionFields dbl)) (·.reportedTcb)
      fun v c => { c with reportedTcb := v },
    field "chip_id" (byteArraySerializer dbl 64) (·.chipId) fun v c => { c with chipId := v },
    field "committed_tcb" (recordSerializer (tcbVersionFields dbl)) (·.committedTcb)
      fun v c => { c with committedTcb := v },
    field "current_minor" (byteSerializer dbl) (·.currentMinor) fun v c => { c with currentMinor := v },
    field "current_build" (byteSerializer dbl) (·.currentBuild) fun v c => { c with currentBuild := v },
    field "current_major" (byteSerializer dbl) (·.currentMajor) fun v c => { c with currentMajor := v },
    field "committed_build" (byteSerializer dbl) (·.committedBuild)
      fun v c => { c with committedBuild := v },
    field "committed_minor" (byteSerializer dbl) (·.committedMinor)
      fun v c => { c with committedMinor := v },
    field "committed_major" (byteSerializer dbl) (·.committedMajor)
      fun v c => { c with committedMajor := v },
    field "launch_tcb" (recordSerializer (tcbVersionFields dbl)) (·.launchTcb)
      fun v c => { c with launchTcb := v },
    field "signature" (recordSerializer (signatureFields dbl)) (·.signature)
      fun v c => { c with signature := v },
    field "endorsements" (recordSerializer endorsementsFields) (·.endorsements)
      fun v c => { c with endorsements := v }]

/-! The members have the types of sev_snp.h. -/

structure Signature.Fits (s : Signature) : Prop where
  r : s.r.length = 72
  s : s.s.length = 72

structure Claims.Fits (c : Claims) : Prop where
  version : c.version < 2 ^ 32
  guestSvn : c.guestSvn < 2 ^ 32
  policy : c.policy < 2 ^ 64
  familyId : c.familyId.length = 16
  imageId : c.imageId.length = 16
  vmpl : c.vmpl < 2 ^ 32
  signatureAlgo : c.signatureAlgo < 2 ^ 32
  platformInfo : c.platformInfo < 2 ^ 64
  flags : c.flags < 2 ^ 32
  reportData : c.reportData.length = 64
  measurement : c.measurement.length = 48
  hostData : c.hostData.length = 32
  idKeyDigest : c.idKeyDigest.length = 48
  authorKeyDigest : c.authorKeyDigest.length = 48
  reportId : c.reportId.length = 32
  reportIdMa : c.reportIdMa.length = 32
  chipId : c.chipId.length = 64
  signature : c.signature.Fits

theorem readClaims_fits {X509 Crl Pkey : Type} (ssl : OpenSsl X509 Crl Pkey) (m : ℕ → Byte)
    (e : EndorsementsEtc X509 Crl) (c : Claims) (h : makeClaims ssl m e = .ok c) : c.Fits := by
  simp only [makeClaims, bind_ok, pure_ok] at h
  obtain ⟨root, -, rfl⟩ := h
  exact {
    version := readLe_fits m _ 4 32 (by decide)
    guestSvn := readLe_fits m _ 4 32 (by decide)
    policy := readLe_fits m _ 8 64 (by decide)
    familyId := readMem_length m _ _
    imageId := readMem_length m _ _
    vmpl := readLe_fits m _ 4 32 (by decide)
    signatureAlgo := readLe_fits m _ 4 32 (by decide)
    platformInfo := readLe_fits m _ 8 64 (by decide)
    flags := readLe_fits m _ 4 32 (by decide)
    reportData := readMem_length m _ _
    measurement := readMem_length m _ _
    hostData := readMem_length m _ _
    idKeyDigest := readMem_length m _ _
    authorKeyDigest := readMem_length m _ _
    reportId := readMem_length m _ _
    reportIdMa := readMem_length m _ _
    chipId := readMem_length m _ _
    signature := ⟨readMem_length m _ _, readMem_length m _ _⟩ }

theorem tcbVersion_restores (t : TCBVersion) : (recordSerializer (tcbVersionFields dbl)).Restores t := by
  have hnames : ((tcbVersionFields dbl).map (·.name)).Nodup := by
    simp only [tcbVersionFields, List.map_cons, List.map_nil, field_name]
    decide +kernel
  refine recordSerializer_restores _ hnames t ?_ ?_
  · have byte (name : String) (get : TCBVersion → Byte) (set : Byte → TCBVersion → TCBVersion) :
        (field name (byteSerializer dbl) get set).Restores t :=
      field_restores (byteSerializer_restores dbl _)
    simp only [tcbVersionFields, List.forall_mem_cons]
    exact ⟨byte _ _ _, byte _ _ _, byte _ _ _, byte _ _ _, List.forall_mem_nil _⟩
  · intro old
    simp only [tcbVersionFields, List.foldl_cons, List.foldl_nil, field_copy]

theorem signature_restores (s : Signature) (h : s.Fits) :
    (recordSerializer (signatureFields dbl)).Restores s := by
  have hnames : ((signatureFields dbl).map (·.name)).Nodup := by
    simp only [signatureFields, List.map_cons, List.map_nil, field_name]
    decide +kernel
  refine recordSerializer_restores _ hnames s ?_ ?_
  · simp only [signatureFields, List.forall_mem_cons]
    exact ⟨field_restores (byteArraySerializer_restores dbl h.r),
      field_restores (byteArraySerializer_restores dbl h.s), List.forall_mem_nil _⟩
  · intro old
    simp only [signatureFields, List.foldl_cons, List.foldl_nil, field_copy]

theorem endorsements_restores (e : Endorsements) : (recordSerializer endorsementsFields).Restores e := by
  have hnames : (endorsementsFields.map (·.name)).Nodup := by
    simp only [endorsementsFields, List.map_cons, List.map_nil, field_name]
    decide +kernel
  refine recordSerializer_restores _ hnames e ?_ ?_
  · simp only [endorsementsFields, List.forall_mem_cons]
    exact ⟨field_restores (stringSerializer_restores _), field_restores (stringSerializer_restores _),
      field_restores (optionalStringSerializer_restores _), List.forall_mem_nil _⟩
  · intro old
    simp only [endorsementsFields, List.foldl_cons, List.foldl_nil, field_copy]

theorem claims_restores (c : Claims) (h : c.Fits) :
    (recordSerializer (claimsFields dbl)).Restores c := by
  have hnames : ((claimsFields dbl).map (·.name)).Nodup := by
    simp only [claimsFields, List.map_cons, List.map_nil, field_name]
    decide +kernel
  have number {bits n : ℕ} (hn : n < 2 ^ bits) := uintSerializer_restores dbl bits n hn
  have bytes {n : ℕ} {data : Bytes} (hlen : data.length = n) := byteArraySerializer_restores dbl hlen
  refine recordSerializer_restores _ hnames c ?_ ?_
  · simp only [claimsFields, List.forall_mem_cons]
    exact ⟨field_restores (number h.version), field_restores (number h.guestSvn),
      field_restores (uint64Serializer_restores dbl _ h.policy), field_restores (bytes h.familyId),
      field_restores (bytes h.imageId), field_restores (number h.vmpl),
      field_restores (number h.signatureAlgo), field_restores (tcbVersion_restores dbl _),
      field_restores (uint64Serializer_restores dbl _ h.platformInfo),
      field_restores (number h.flags), field_restores (bytes h.reportData),
      field_restores (bytes h.measurement), field_restores (bytes h.hostData),
      field_restores (bytes h.idKeyDigest), field_restores (bytes h.authorKeyDigest),
      field_restores (bytes h.reportId), field_restores (bytes h.reportIdMa),
      field_restores (tcbVersion_restores dbl _), field_restores (bytes h.chipId),
      field_restores (tcbVersion_restores dbl _), field_restores (byteSerializer_restores dbl _),
      field_restores (byteSerializer_restores dbl _), field_restores (byteSerializer_restores dbl _),
      field_restores (byteSerializer_restores dbl _), field_restores (byteSerializer_restores dbl _),
      field_restores (byteSerializer_restores dbl _), field_restores (tcbVersion_restores dbl _),
      field_restores (signature_restores dbl _ h.signature), field_restores (endorsements_restores _),
      List.forall_mem_nil _⟩
  · intro old
    simp only [claimsFields, List.foldl_cons, List.foldl_nil, field_copy]

theorem roundTrips_iff (c : ClaimsObject Claims) (h : c.fields.Fits) :
    RoundTrips (recordSerializer (claimsFields dbl)) .sevSnp c ↔ c.source = .sevSnp := by
  rw [roundTrips_read _ _ c _ (claims_restores dbl c.fields h)]
  exact and_iff_right rfl

end

end Ravl.SevSnp
