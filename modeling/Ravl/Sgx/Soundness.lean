import Ravl.Sgx.Verify
import Ravl.Sgx.SignedText

/-!
# Soundness of SGX verification

Whatever `verify` returns claims for is a quote whose bytes were all accounted
for: the chain, both signatures, the authentication hash and, in full mode, TCB
info and QE identity. The statements speak about the bytes `e` of the evidence,
not about spans and pointers.
-/

namespace Ravl.Sgx
open ByteLib FallibleLib

/-! ### Little-endian decoding -/

def decodeReportBody (e : Bytes) : ReportBody where
  cpuSvn := sub e 0 16
  miscSelect := leVal (sub e 16 4)
  isvExtProdId := sub e 32 16
  flags := leVal (sub e 48 8)
  xfrm := leVal (sub e 56 8)
  mrEnclave := sub e 64 32
  mrSigner := sub e 128 32
  configId := sub e 192 64
  isvProdId := leVal (sub e 256 2)
  isvSvn := leVal (sub e 258 2)
  configSvn := leVal (sub e 260 2)
  isvFamilyId := sub e 304 16
  reportData := sub e 320 64

theorem readReportBody_eq (e : Bytes) (beyond : Memory) (a : ℕ) (h : a + 384 ≤ e.length) :
    readReportBody (mem e beyond) a = decodeReportBody (sub e a 384) := by
  have hmem (i n : ℕ) (hi : i + n ≤ 384) :
      readMem (mem e beyond) (a + i) n = sub (sub e a 384) i n := by
    rw [sub_sub e a 384 i n hi]
    exact readMem_eq_sub e beyond (a + i) n (by omega)
  have hzero : readMem (mem e beyond) a 16 = sub (sub e a 384) 0 16 := hmem 0 16 (by omega)
  simp only [readReportBody, decodeReportBody, readLe, reportDataOff]
  rw [hzero, hmem 16 4, hmem 32 16, hmem 48 8, hmem 56 8, hmem 64 32, hmem 128 32, hmem 192 64,
    hmem 256 2, hmem 258 2, hmem 260 2, hmem 304 16, hmem 320 64] <;> omega

def authDataOf (e : Bytes) : Bytes := sub e 1014 (leVal (sub e 1012 2))

/-- The certification data of the evidence: type, size and bytes follow the authentication data. -/
def certificationDataOf (e : Bytes) : Bytes :=
  let cd := 1014 + leVal (sub e 1012 2)
  sub e (cd + 6) (leVal (sub e (cd + 2) 4))

/-- The fields of the claims that come from the quote. -/
structure Decoded (e : Bytes) (claims : Claims) : Prop where
  version : claims.version = leVal (sub e 0 2)
  signType : claims.signType = leVal (sub e 2 2)
  epidGroupId : claims.epidGroupId = sub e 4 4
  qeSvn : claims.qeSvn = leVal (sub e 8 2)
  pceSvn : claims.pceSvn = leVal (sub e 10 2)
  xeid : claims.xeid = leVal (sub e 12 4)
  basename : claims.basename = sub e 16 32
  reportBody : claims.reportBody = decodeReportBody (sub e 48 384)
  qeReport : claims.signatureData.qeReport = decodeReportBody (sub e 564 384)

section
variable {X509 Crl Pkey : Type} (ssl : OpenSsl X509 Crl Pkey) (host : Host)

/-- The certification data were accepted as a chain from `leaf`, as the options ask. -/
structure ChainAccepted (e : Bytes) (options : Options) (leaf : X509) : Prop where
  accepted : ∃ (pem : Bytes) (before after : Store X509 Crl) (trustedRoot : Bool)
      (chain : List X509) (root : X509),
    pemOf ssl (certificationDataOf e) = .ok pem ∧
    verifyPem ssl pem before options.certificateVerification trustedRoot options.verbosity =
      .ok (chain, after) ∧
    chain.head? = some leaf ∧ chain.getLast? = some root ∧ ssl.isCa root = true ∧
    (options.checkRootCertificateManufacturerKey = true →
      ssl.hasPublicKey root intelRootPublicKeyPem = .ok true)
  commonName : ssl.hasCommonName leaf pckCertCommonName = true

/-- Both signatures and the hash that binds the attestation key to the QE report. -/
structure SignaturesVerified (e : Bytes) (leaf : X509) : Prop where
  qeReport : ∃ key, ssl.pubkey leaf = .ok key ∧
    verifySignature ssl key (sub e 564 384) (sub e 948 64) = .ok true
  quote : ∃ key, ssl.p256 (sub e 500 64) = .ok key ∧
    verifySignature ssl key (sub e 0 432) (sub e 436 64) = .ok true
  keyHash : ssl.sha256 (sub e 500 64 ++ authDataOf e) = sub e 884 32

/-- TCB info and QE identity of the collateral that was used were both accepted. -/
def CollateralAccepted (a : Attestation) (options : Options)
    (httpResponses : Option HTTPResponses) (leaf : X509) : Prop :=
  ∃ (c : QlQveCollateral) (ext : CertificateExtension) (store : Store X509 Crl) (level : TCBLevel),
    usedCollateral a options httpResponses = .ok (some c) ∧
    CertificateExtension.ofCertificate ssl leaf = .ok ext ∧
    verifyTcb ssl host c.tcbInfoIssuerChain c.tcbInfo ext store options = .ok level ∧
    verifyQeId ssl host c.qeIdentityIssuerChain c.qeIdentity
      (decodeReportBody (sub a.evidence 564 384)) store options = .ok true

theorem checkManufacturerKey_ok (options : Options) (root : X509) (message : String) (u : Unit)
    (h : checkManufacturerKey ssl options root message = .ok u)
    (hcheck : options.checkRootCertificateManufacturerKey = true) :
    ssl.hasPublicKey root intelRootPublicKeyPem = .ok true := by
  unfold checkManufacturerKey at h
  rw [if_pos hcheck] at h
  simp only [bind_ok, refuse_ok, Bool.not_eq_false] at h
  obtain ⟨b, hkey, rfl⟩ := h
  exact hkey

theorem verifyQuote_ok (m : Memory) (quote : Span) (sd : SignatureData) (chain : List X509)
    (options : Options) (leaf : X509) (h : verifyQuote ssl m quote sd chain options = .ok leaf) :
    (∃ root, chain.head? = some leaf ∧ chain.getLast? = some root ∧ ssl.isCa root = true ∧
      (options.checkRootCertificateManufacturerKey = true →
        ssl.hasPublicKey root intelRootPublicKeyPem = .ok true)) ∧
    ssl.hasCommonName leaf pckCertCommonName = true ∧
    (∃ key, ssl.pubkey leaf = .ok key ∧
      verifySignature ssl key (sd.report.read m) (sd.reportSignature.read m) = .ok true) ∧
    (∃ key, ssl.p256 (sd.publicKey.read m) = .ok key ∧
      verifySignature ssl key (quote.read m) (sd.quoteSignature.read m) = .ok true) ∧
    ssl.sha256 (sd.publicKey.read m ++ sd.authData.read m) = sub (sd.reportData.read m) 0 32 := by
  simp only [verifyQuote, bind_ok, orThrow_ok, refuse_ok, pure_ok, Bool.not_eq_false] at h
  obtain ⟨leaf', hleaf, root, hroot, _, hname, u, hkey, _, hca, qeKey, hqeKey, qeOk, hqe, _, rfl,
    quoteKey, hquoteKey, quoteOk, hquote, _, rfl, _, hhash, rfl⟩ := h
  have hmatch : ssl.sha256 (sd.publicKey.read m ++ sd.authData.read m) =
      sub (sd.reportData.read m) 0 32 := by
    simpa [verifyHashMatch] using hhash
  exact ⟨⟨root, hleaf, hroot, hca, checkManufacturerKey_ok ssl options root _ u hkey⟩, hname,
    ⟨qeKey, hqeKey, hqe⟩, ⟨quoteKey, hquoteKey, hquote⟩, hmatch⟩

/-! ### From spans to bytes -/

theorem placed_certificationData (e : Bytes) (beyond : Memory) (sd : SignatureData)
    (h : sd.Placed ssl (mem e beyond) e.length) :
    1020 ≤ e.length ∧ sd.authData.read (mem e beyond) = authDataOf e ∧
      pemOf ssl (certificationDataOf e) = .ok sd.certificationData := by
  have hin := h.inside
  have hcd := h.cdRaw
  have hau : readLe (mem e beyond) 1012 2 = leVal (sub e 1012 2) :=
    readLe_eq_sub e beyond 1012 2 (by omega)
  have hsize : readLe (mem e beyond) (sd.cdRaw + 2) 4 = leVal (sub e (sd.cdRaw + 2) 4) :=
    readLe_eq_sub e beyond (sd.cdRaw + 2) 4 (by omega)
  have hpem := h.certificationData
  rw [hsize] at hin hpem
  rw [hau] at hcd
  rw [readMem_eq_sub e beyond _ _ hin, hcd] at hpem
  have hin' : 1014 + leVal (sub e 1012 2) ≤ e.length := by omega
  refine ⟨by omega, ?_, hpem⟩
  rw [h.authData, hau]
  exact readMem_eq_sub e beyond 1014 (leVal (sub e 1012 2)) hin'

theorem read_eq (e : Bytes) (beyond : Memory) (s : Span) (off size : ℕ) (hs : s = ⟨off, size⟩)
    (hin : off + size ≤ e.length) : s.read (mem e beyond) = sub e off size := by
  rw [hs]
  exact readMem_eq_sub e beyond off size hin

theorem quote_accepted (a : Attestation) (options : Options) (quote : Span) (sd : SignatureData)
    (chain : List X509) (leaf : X509) (before after : Store X509 Crl) (trustedRoot : Bool)
    (hquote : parseQuote (mem a.evidence host.beyond) a.evidence.length = .ok quote)
    (hsd : SignatureData.parse ssl (mem a.evidence host.beyond) a.evidence.length = .ok sd)
    (hchain : verifyPem ssl sd.certificationData before options.certificateVerification trustedRoot
      options.verbosity = .ok (chain, after))
    (hleaf : verifyQuote ssl (mem a.evidence host.beyond) quote sd chain options = .ok leaf) :
    ChainAccepted ssl a.evidence options leaf ∧ SignaturesVerified ssl a.evidence leaf := by
  obtain ⟨hq, -, -, -⟩ := parseQuote_ok _ _ _ hquote
  have hplaced := SignatureData.parse_ok ssl _ _ _ hsd
  obtain ⟨hlen, hauth, hpem⟩ := placed_certificationData ssl a.evidence host.beyond sd hplaced
  obtain ⟨⟨root, hhead, hlast, hca, hkey⟩, hname, ⟨qeKey, hqeKey, hqe⟩, ⟨qKey, hqKey, hqs⟩, hhash⟩ :=
    verifyQuote_ok ssl _ _ _ _ _ _ hleaf
  have hreport := read_eq a.evidence host.beyond sd.report 564 384 hplaced.report (by omega)
  have hreportSig := read_eq a.evidence host.beyond sd.reportSignature 948 64
    hplaced.reportSignature (by omega)
  have hpk := read_eq a.evidence host.beyond sd.publicKey 500 64 hplaced.publicKey (by omega)
  have hsigned := read_eq a.evidence host.beyond quote 0 432 hq (by omega)
  have hsig := read_eq a.evidence host.beyond sd.quoteSignature 436 64 hplaced.quoteSignature
    (by omega)
  have hdata := read_eq a.evidence host.beyond sd.reportData 884 64 hplaced.reportData (by omega)
  rw [hreport, hreportSig] at hqe
  rw [hpk] at hqKey
  rw [hsigned, hsig] at hqs
  rw [hpk, hauth, hdata, sub_sub a.evidence 884 64 0 32 (by omega)] at hhash
  exact ⟨⟨⟨sd.certificationData, before, after, trustedRoot, chain, root, hpem, hchain, hhead,
    hlast, hca, hkey⟩, hname⟩, ⟨qeKey, hqeKey, hqe⟩, ⟨qKey, hqKey, hqs⟩, hhash⟩

theorem makeClaims_decoded (a : Attestation) (sd : SignatureData) (hlen : 1020 ≤ a.evidence.length) :
    Decoded a.evidence (makeClaims (mem a.evidence host.beyond) host.unset sd) where
  version := readLe_eq_sub a.evidence host.beyond 0 2 (by omega)
  signType := readLe_eq_sub a.evidence host.beyond 2 2 (by omega)
  epidGroupId := readMem_eq_sub a.evidence host.beyond 4 4 (by omega)
  qeSvn := readLe_eq_sub a.evidence host.beyond 8 2 (by omega)
  pceSvn := readLe_eq_sub a.evidence host.beyond 10 2 (by omega)
  xeid := readLe_eq_sub a.evidence host.beyond 12 4 (by omega)
  basename := readMem_eq_sub a.evidence host.beyond 16 32 (by omega)
  reportBody := readReportBody_eq a.evidence host.beyond 48 (by omega)
  qeReport := readReportBody_eq a.evidence host.beyond 564 (by omega)

theorem parseQuote_header (a : Attestation) (quote : Span)
    (h : parseQuote (mem a.evidence host.beyond) a.evidence.length = .ok quote) :
    leVal (sub a.evidence 0 2) = 3 ∧ leVal (sub a.evidence 2 2) = 2 := by
  obtain ⟨-, hlen, hversion, htype⟩ := parseQuote_ok _ _ _ h
  rw [readLe_eq_sub a.evidence host.beyond 0 2 (by omega)] at hversion
  rw [readLe_eq_sub a.evidence host.beyond 2 2 (by omega)] at htype
  exact ⟨hversion, htype⟩

/-- Soundness, for all options and all origins of the collateral. -/
theorem verify_sound (a : Attestation) (options : Options) (httpResponses : Option HTTPResponses)
    (claims : Claims) (h : verify ssl host a options httpResponses = .ok claims) :
    leVal (sub a.evidence 0 2) = 3 ∧ leVal (sub a.evidence 2 2) = 2 ∧ Decoded a.evidence claims ∧
      ∃ leaf, ChainAccepted ssl a.evidence options leaf ∧ SignaturesVerified ssl a.evidence leaf ∧
        (options.isPartial = false → CollateralAccepted ssl host a options httpResponses leaf) := by
  simp only [verify, bind_ok, pure_ok] at h
  obtain ⟨r, hr, rfl⟩ := h
  cases hmode : options.isPartial with
  | true =>
    obtain ⟨run⟩ := verifyRun_partial ssl host a options httpResponses r hmode hr
    obtain ⟨hversion, htype⟩ := parseQuote_header host a run.quote run.parsed
    have hplaced := SignatureData.parse_ok ssl _ _ _ run.signatureData
    have hlen := (placed_certificationData ssl a.evidence host.beyond run.sd hplaced).1
    obtain ⟨hchain, hsigs⟩ := quote_accepted ssl host a options run.quote run.sd run.pckCertChain
      run.pckLeaf _ _ _ run.parsed run.signatureData run.chain run.checked
    refine ⟨hversion, htype, ?_, run.pckLeaf, hchain, hsigs, fun hf => by cases hf⟩
    rw [run.claims]
    exact makeClaims_decoded host a run.sd hlen
  | false =>
    obtain ⟨run⟩ := verifyRun_full ssl host a options httpResponses r hmode hr
    obtain ⟨hversion, htype⟩ := parseQuote_header host a run.quote run.parsed
    have hplaced := SignatureData.parse_ok ssl _ _ _ run.signatureData
    have hlen := (placed_certificationData ssl a.evidence host.beyond run.sd hplaced).1
    obtain ⟨hchain, hsigs⟩ := quote_accepted ssl host a options run.quote run.sd run.pckCertChain
      run.pckLeaf _ _ _ run.parsed run.signatureData run.chain run.checked
    have hdecoded := makeClaims_decoded host a run.sd hlen
    have hqe := run.qeId
    rw [hplaced.report, readReportBody_eq a.evidence host.beyond 564 (by omega)] at hqe
    refine ⟨hversion, htype, ?_, run.pckLeaf, hchain, hsigs, fun _ =>
      ⟨run.c, run.pckExt, r.store, run.level, run.used, run.extension, run.tcb, hqe⟩⟩
    rw [run.claims]
    exact ⟨hdecoded.version, hdecoded.signType, hdecoded.epidGroupId, hdecoded.qeSvn,
      hdecoded.pceSvn, hdecoded.xeid, hdecoded.basename, hdecoded.reportBody, hdecoded.qeReport⟩

end

/-- A length in eight bytes, for texts below 64 KiB, and the text. -/
def sampleBlock (data : Bytes) : Bytes :=
  List.replicate 6 0 ++ [Fin.ofNat 256 (data.length / 256), Fin.ofNat 256 data.length] ++ data

/-- Collateral with the given chain for the PCK revocation list. -/
def sampleCollateral (pckCrlIssuerChain : Bytes) : Bytes :=
  [0, 3, 0, 1, 0, 0, 0, 0] ++ sampleBlock pckCrlIssuerChain ++ sampleBlock [] ++ sampleBlock [] ++
    sampleBlock sampleChain ++ sampleBlock compactTcbInfo ++
    sampleBlock sampleChain ++ sampleBlock compactQeIdentity

def sampleAttestation : Attestation :=
  { source := .sgx, evidence := sampleEvidence, endorsements := sampleCollateral sampleChain }

/-- Accepts old dates, and asks for fresh endorsements. -/
def sampleOptions : Options := { historical := true, freshEndorsements := true }

/-- The sample quote with the sample collateral passes every check of the full mode. -/
theorem verifyRun_sample :
    ∃ r, verifyRun lenientSsl plainHost sampleAttestation sampleOptions none = .ok r := by
  apply ok_of_isSome
  have hevidence : sampleAttestation.evidence = sampleEvidence := rfl
  rw [verifyRun, if_neg (by decide)]
  simp only [hevidence, sampleEvidence_quote, sampleEvidence_parse]
  decide +kernel

theorem verify_sound_sample : ∃ claims,
    leVal (sub sampleEvidence 0 2) = 3 ∧ leVal (sub sampleEvidence 2 2) = 2 ∧
      Decoded sampleEvidence claims ∧
      ∃ leaf, ChainAccepted lenientSsl sampleEvidence sampleOptions leaf ∧
        SignaturesVerified lenientSsl sampleEvidence leaf ∧
        (sampleOptions.isPartial = false →
          CollateralAccepted lenientSsl plainHost sampleAttestation sampleOptions none leaf) := by
  obtain ⟨r, hr⟩ := verifyRun_sample
  have hverify : verify lenientSsl plainHost sampleAttestation sampleOptions none =
      .ok r.claims := by
    unfold verify
    rw [hr]
    rfl
  exact ⟨r.claims, verify_sound lenientSsl plainHost sampleAttestation sampleOptions none
    r.claims hverify⟩

end Ravl.Sgx
