import Ravl.Crypto
import Ravl.Sgx.PckExtension

/-!
# The SGX quote and its signature data (sgx_defs.h, sgx_impl.h:956-1062, 1154-1222)

A quote is read through pointers: `m` is the memory from the evidence's first
byte on. Offsets are those of the packed structures of sgx_defs.h.
-/

namespace Ravl.Sgx
open ByteLib FallibleLib

abbrev Memory := ℕ → Byte

structure Span where
  off : ℕ
  size : ℕ
  deriving DecidableEq

def Span.read (s : Span) (m : Memory) : Bytes := readMem m s.off s.size

/-! ### Layout (sgx_defs.h) -/

def sgxReportBodySize : ℕ := 384
def sgxQuoteSize : ℕ := 436
/-- minus signature_len -/
def sgxQuoteSignedSize : ℕ := 432
def signatureLenOff : ℕ := 432
def reportBodyOff : ℕ := 48

/-- offsets of sgx_ql_ecdsa_sig_data_t behind the quote -/
def sigOff : ℕ := sgxQuoteSize
def attestPubKeyOff : ℕ := sigOff + 64
def qeReportOff : ℕ := attestPubKeyOff + 64
def qeReportSigOff : ℕ := qeReportOff + sgxReportBodySize
def authCertificationDataOff : ℕ := qeReportSigOff + 64
def sigDataSize : ℕ := 576
def reportDataOff : ℕ := 320

def sgxQuoteVersion : ℕ := 3
def sgxQlAlgEcdsaP256 : ℕ := 2
def pckCertChain : ℕ := 5
def sgxFlagsDebug : ℕ := 2

/-- sgx_report_body_t, less the reserved bytes. -/
structure ReportBody where
  cpuSvn : Bytes
  miscSelect : ℕ
  isvExtProdId : Bytes
  flags : ℕ
  xfrm : ℕ
  mrEnclave : Bytes
  mrSigner : Bytes
  configId : Bytes
  isvProdId : ℕ
  isvSvn : ℕ
  configSvn : ℕ
  isvFamilyId : Bytes
  reportData : Bytes
  deriving DecidableEq

/-- The report body at address `a`; `make_report_body_claims` copies these fields. -/
def readReportBody (m : Memory) (a : ℕ) : ReportBody where
  cpuSvn := readMem m a 16
  miscSelect := readLe m (a + 16) 4
  isvExtProdId := readMem m (a + 32) 16
  flags := readLe m (a + 48) 8
  xfrm := readLe m (a + 56) 8
  mrEnclave := readMem m (a + 64) 32
  mrSigner := readMem m (a + 128) 32
  configId := readMem m (a + 192) 64
  isvProdId := readLe m (a + 256) 2
  isvSvn := readLe m (a + 258) 2
  configSvn := readLe m (a + 260) 2
  isvFamilyId := readMem m (a + 304) 16
  reportData := readMem m (a + reportDataOff) 64

/-! ### `parse_quote` -/

def parseQuote (m : Memory) (evidenceSize : ℕ) : Result Span := do
  let signatureLen := readLe m signatureLenOff 4
  refuse (evidenceSize < sgxQuoteSize + signatureLen)
    (.exception "Unknown evidence format: too small to contain an sgx_quote_t")
  verifyWithin 0 sgxQuoteSignedSize evidenceSize
  refuse (readLe m 0 2 ≠ sgxQuoteVersion)
    (.exception "Unknown evidence format: unsupported quote version")
  refuse (readLe m 2 2 ≠ sgxQlAlgEcdsaP256)
    (.exception "Unknown evidence format: unsupported signing type")
  pure ⟨0, sgxQuoteSignedSize⟩

theorem parseQuote_ok (m : Memory) (evidenceSize : ℕ) (quote : Span)
    (h : parseQuote m evidenceSize = .ok quote) :
    quote = ⟨0, 432⟩ ∧ 436 ≤ evidenceSize ∧ readLe m 0 2 = 3 ∧ readLe m 2 2 = 2 := by
  simp only [parseQuote, bind_ok, refuse_ok, pure_ok, not_not] at h
  obtain ⟨-, hsize, -, -, -, hversion, -, htype, hq⟩ := h
  have h436 : sgxQuoteSize = 436 := rfl
  exact ⟨hq.symm, by omega, hversion, htype⟩

/-! ### `SignatureData` -/

structure SignatureData where
  quoteSignature : Span
  publicKey : Span
  report : Span
  reportSignature : Span
  reportData : Span
  authData : Span
  /-- offset of the sgx_ql_certification_data_t -/
  cdRaw : ℕ
  /-- the bytes of the evidence, or the PEM copy made of them -/
  certificationData : Bytes
  deriving DecidableEq

/-- `strncmp((const char*)data, "-----", 5)` of more than five bytes is not 0. -/
def isDer (data : Bytes) : Bool := 5 < data.length && sub data 0 5 != text "-----"

section
variable {X509 Crl Pkey : Type} (ssl : OpenSsl X509 Crl Pkey)

/-- The loop that turns DER certificates into PEM (sgx_impl.h:1045-1055); a read that takes
nothing from the BIO would repeat for ever. -/
def derToPem : ℕ → Bytes → Result Bytes
  | 0, _ => throw (.undefined "endless loop")
  | fuel + 1, bio =>
    if bio.length ≤ 1 then pure []
    else do
      let (x509, rest) ← ssl.derX509 bio
      let pems ← derToPem fuel rest
      pure (ssl.x509Pem x509 ++ pems)

def pemOf (data : Bytes) : Result Bytes :=
  if isDer data then derToPem ssl (data.length + 1) data else pure data

/-- The checks on the fixed part (sgx_impl.h:993-1018). -/
def verifyFixedSpans (evidenceSize : ℕ) : Result Unit := do
  verifyWithin sigOff sigDataSize evidenceSize
  verifyWithin qeReportOff sgxReportBodySize evidenceSize
  verifyWithin qeReportSigOff 64 evidenceSize
  verifyWithin sigOff 64 evidenceSize
  verifyWithin attestPubKeyOff 64 evidenceSize
  verifyWithin (qeReportOff + reportDataOff) 64 evidenceSize

def SignatureData.parse (m : Memory) (evidenceSize : ℕ) : Result SignatureData := do
  verifyFixedSpans evidenceSize
  let authSize := readLe m authCertificationDataOff 2
  let authData : Span := ⟨authCertificationDataOff + 2, authSize⟩
  verifyWithin authData.off authData.size evidenceSize
  refuse (authSize = 0) (.exception "missing authentication data")
  let cdRaw := authCertificationDataOff + 2 + authSize
  let cdSize := readLe m (cdRaw + 2) 4
  refuse (cdSize = 0) (.exception "missing certification data")
  let certificationData : Span := ⟨cdRaw + 6, cdSize⟩
  verifyWithin certificationData.off certificationData.size evidenceSize
  refuse (readLe m cdRaw 2 ≠ pckCertChain)
    (.exception "unsupported certification data key type")
  let pem ← pemOf ssl (certificationData.read m)
  pure {
    quoteSignature := ⟨sigOff, 64⟩
    publicKey := ⟨attestPubKeyOff, 64⟩
    report := ⟨qeReportOff, sgxReportBodySize⟩
    reportSignature := ⟨qeReportSigOff, 64⟩
    reportData := ⟨qeReportOff + reportDataOff, 64⟩
    authData := authData
    cdRaw := cdRaw
    certificationData := pem }

/-- Where everything lies once the signature data were accepted. -/
structure SignatureData.Placed (sd : SignatureData) (m : Memory) (evidenceSize : ℕ) : Prop where
  quoteSignature : sd.quoteSignature = ⟨436, 64⟩
  publicKey : sd.publicKey = ⟨500, 64⟩
  report : sd.report = ⟨564, 384⟩
  reportSignature : sd.reportSignature = ⟨948, 64⟩
  reportData : sd.reportData = ⟨884, 64⟩
  authData : sd.authData = ⟨1014, readLe m 1012 2⟩
  authSize : 0 < readLe m 1012 2
  cdRaw : sd.cdRaw = 1014 + readLe m 1012 2
  certSize : 0 < readLe m (sd.cdRaw + 2) 4
  certType : readLe m sd.cdRaw 2 = 5
  inside : sd.cdRaw + 6 + readLe m (sd.cdRaw + 2) 4 ≤ evidenceSize
  certificationData : pemOf ssl (readMem m (sd.cdRaw + 6) (readLe m (sd.cdRaw + 2) 4)) =
    .ok sd.certificationData

theorem SignatureData.parse_ok (m : Memory) (evidenceSize : ℕ) (sd : SignatureData)
    (h : SignatureData.parse ssl m evidenceSize = .ok sd) : sd.Placed ssl m evidenceSize := by
  simp only [SignatureData.parse, bind_ok, refuse_ok, pure_ok, not_not] at h
  obtain ⟨_, -, _, -, -, hauth, -, hcert, _, hwithin, -, htype, pem, hpem, rfl⟩ := h
  have hcd := readLe_lt m (authCertificationDataOff + 2 + readLe m authCertificationDataOff 2 + 2) 4
  have hau := readLe_lt m authCertificationDataOff 2
  have hoff : authCertificationDataOff = 1012 := rfl
  have hinside := verifyWithin_ok _ _ _ (Nat.pos_of_ne_zero hcert) (by omega) hwithin
  exact {
    quoteSignature := rfl
    publicKey := rfl
    report := rfl
    reportSignature := rfl
    reportData := rfl
    authData := rfl
    authSize := Nat.pos_of_ne_zero hauth
    cdRaw := rfl
    certSize := Nat.pos_of_ne_zero hcert
    certType := htype
    inside := hinside
    certificationData := hpem }

end

/-! ### Evidence that is accepted -/

structure Carries (evidence : Bytes) (authSize : ℕ) (raw : Bytes) : Prop where
  version : leVal (sub evidence 0 2) = 3
  signType : leVal (sub evidence 2 2) = 2
  auth : leVal (sub evidence 1012 2) = authSize
  authPos : 0 < authSize
  certType : leVal (sub evidence (1014 + authSize) 2) = 5
  certSize : leVal (sub evidence (1016 + authSize) 4) = raw.length
  certPos : raw ≠ []
  cert : sub evidence (1020 + authSize) raw.length = raw

/-- The signature data of a quote with so many bytes of authentication data. -/
def placedData (authSize : ℕ) (pem : Bytes) : SignatureData where
  quoteSignature := ⟨436, 64⟩
  publicKey := ⟨500, 64⟩
  report := ⟨564, 384⟩
  reportSignature := ⟨948, 64⟩
  reportData := ⟨884, 64⟩
  authData := ⟨1014, authSize⟩
  cdRaw := 1014 + authSize
  certificationData := pem

theorem verifyFixedSpans_inside (size : ℕ) (h : 1012 ≤ size) : verifyFixedSpans size = .ok () := by
  have hwithin (off n : ℕ) (hn : 0 < n) (hoff : off + n ≤ 1012) : verifyWithin off n size = .ok () :=
    verifyWithin_inside _ _ _ (by omega) (by omega) (by omega)
  have h1 := hwithin sigOff sigDataSize (by decide) (by decide)
  have h2 := hwithin qeReportOff sgxReportBodySize (by decide) (by decide)
  have h3 := hwithin qeReportSigOff 64 (by decide) (by decide)
  have h4 := hwithin sigOff 64 (by decide) (by decide)
  have h5 := hwithin attestPubKeyOff 64 (by decide) (by decide)
  have h6 := hwithin (qeReportOff + reportDataOff) 64 (by decide) (by decide)
  simp only [verifyFixedSpans, bind_ok]
  exact ⟨_, h1, _, h2, _, h3, _, h4, _, h5, h6⟩

theorem parseQuote_of {evidence raw : Bytes} {authSize : ℕ} (hc : Carries evidence authSize raw)
    (beyond : ℕ → Byte) (hlen : 436 + readLe (mem evidence beyond) 432 4 ≤ evidence.length) :
    parseQuote (mem evidence beyond) evidence.length = .ok ⟨0, 432⟩ := by
  have hnot : ¬ evidence.length < sgxQuoteSize + readLe (mem evidence beyond) signatureLenOff 4 :=
    not_lt.2 hlen
  have hwithin : verifyWithin 0 sgxQuoteSignedSize evidence.length = .ok () :=
    verifyWithin_inside _ _ _ (by decide) (by omega) (by
      have h432 : sgxQuoteSignedSize = 432 := rfl
      omega)
  have hversion : readLe (mem evidence beyond) 0 2 = sgxQuoteVersion := by
    rw [readLe_eq_sub _ _ _ _ (by omega), hc.version]
    rfl
  have hsign : readLe (mem evidence beyond) 2 2 = sgxQlAlgEcdsaP256 := by
    rw [readLe_eq_sub _ _ _ _ (by omega), hc.signType]
    rfl
  simp only [parseQuote, bind_ok, refuse_ok, pure_ok, not_not]
  exact ⟨(), hnot, (), hwithin, (), hversion, (), hsign, rfl⟩

theorem SignatureData.parse_of {X509 Crl Pkey : Type} (ssl : OpenSsl X509 Crl Pkey)
    {evidence raw : Bytes} {authSize : ℕ} (hc : Carries evidence authSize raw) (beyond : ℕ → Byte)
    (hinside : 1020 + authSize + raw.length ≤ evidence.length) (pem : Bytes)
    (hpem : pemOf ssl raw = .ok pem) :
    SignatureData.parse ssl (mem evidence beyond) evidence.length = .ok (placedData authSize pem) := by
  have hpos := List.length_pos_of_ne_nil hc.certPos
  have hauthPos := hc.authPos
  have hle (off n : ℕ) (h : off + n ≤ evidence.length) :
      readLe (mem evidence beyond) off n = leVal (sub evidence off n) :=
    readLe_eq_sub _ _ _ _ h
  have hauth : readLe (mem evidence beyond) 1012 2 = authSize := by
    rw [hle _ _ (by omega), hc.auth]
  have hsize : readLe (mem evidence beyond) (1014 + authSize + 2) 4 = raw.length := by
    rw [hle _ _ (by omega), ← hc.certSize]
    congr 2
    omega
  have htype : readLe (mem evidence beyond) (1014 + authSize) 2 = 5 := by
    rw [hle _ _ (by omega), hc.certType]
  have hread : readMem (mem evidence beyond) (1014 + authSize + 6) raw.length = raw := by
    rw [readMem_eq_sub _ _ _ _ (by omega)]
    have hoff : 1014 + authSize + 6 = 1020 + authSize := by omega
    rw [hoff, hc.cert]
  have hfixed := verifyFixedSpans_inside evidence.length (by omega)
  have hauthIn : verifyWithin 1014 authSize evidence.length = .ok () :=
    verifyWithin_inside _ _ _ (by omega) (by omega) (by omega)
  have hcertIn : verifyWithin (1014 + authSize + 6) raw.length evidence.length = .ok () :=
    verifyWithin_inside _ _ _ (by omega) (by omega) (by omega)
  have hoff : authCertificationDataOff = 1012 := rfl
  simp only [SignatureData.parse, hoff, hauth, hsize, htype, Span.read, hread, hpem, bind_ok,
    refuse_ok, pure_ok, not_not]
  exact ⟨_, hfixed, _, hauthIn, (), by omega, (), by omega, _, hcertIn, (), rfl, _, rfl, rfl⟩

/-- One byte of authentication data, then the certification data. -/
theorem carries_of_form (rest raw tail : Bytes) (hrest : rest.length = 1008) (hne : raw ≠ [])
    (hsize : raw.length < 2 ^ 32) :
    Carries ([3, 0, 2, 0] ++ rest ++ ([1, 0, 0, 5, 0] ++ leBytes 4 raw.length ++ raw ++ tail)) 1 raw := by
  have hback (skip part after : Bytes) (off n : ℕ) (hoff : 1012 + skip.length = off)
      (hn : part.length = n) (h : [1, 0, 0, 5, 0] ++ leBytes 4 raw.length ++ raw ++ tail =
        skip ++ part ++ after) :
      sub ([3, 0, 2, 0] ++ rest ++ ([1, 0, 0, 5, 0] ++ leBytes 4 raw.length ++ raw ++ tail)) off n =
        part := by
    have hfront : ([3, 0, 2, 0] ++ rest ++ skip).length = off := by
      rw [List.length_append, List.length_append, hrest, ← hoff]
      rfl
    rw [h, List.append_assoc skip, ← List.append_assoc _ skip, ← List.append_assoc]
    exact sub_middle _ _ _ _ _ hfront hn
  have hcertSize := hback [1, 0, 0, 5, 0] (leBytes 4 raw.length) (raw ++ tail) 1017 4 rfl
    (leBytes_length 4 raw.length) (by rw [← List.append_assoc])
  have hcert := hback ([1, 0, 0, 5, 0] ++ leBytes 4 raw.length) raw tail 1021 raw.length
    (by rw [List.length_append, leBytes_length]; rfl) rfl rfl
  exact {
    version := congrArg leVal (sub_middle [] [3, 0] _ 0 2 rfl rfl)
    signType := congrArg leVal (sub_middle [3, 0] [2, 0] _ 2 2 rfl rfl)
    auth := congrArg leVal (hback [] [1, 0] _ 1012 2 rfl rfl rfl)
    authPos := Nat.one_pos
    certType := congrArg leVal (hback [1, 0, 0] [5, 0] _ 1015 2 rfl rfl rfl)
    certSize := (congrArg leVal hcertSize).trans (leVal_leBytes 4 raw.length hsize)
    certPos := hne
    cert := hcert }

/-! ### Claims (sgx.h:40-95, sgx_impl.h:1173-1222) -/

structure SignatureClaims where
  signature : Bytes
  attestPubKey : Bytes
  qeReport : ReportBody
  qeReportSig : Bytes
  authData : Bytes
  deriving DecidableEq

structure Endorsements where
  majorVersion : ℕ
  minorVersion : ℕ
  teeType : ℕ
  rootCa : Bytes := []
  pckCrlIssuerChain : Bytes := []
  rootCaCrl : Bytes := []
  pckCrl : Bytes := []
  tcbInfoIssuerChain : Bytes := []
  tcbInfo : Bytes := []
  qeIdentityIssuerChain : Bytes := []
  qeIdentity : Bytes := []
  deriving DecidableEq

structure Claims where
  version : ℕ
  signType : ℕ
  epidGroupId : Bytes
  qeSvn : ℕ
  pceSvn : ℕ
  xeid : ℕ
  basename : Bytes
  reportBody : ReportBody
  signatureData : SignatureClaims
  endorsements : Endorsements
  deriving DecidableEq

/-- The numbers of endorsements that nothing was assigned to -/
def Endorsements.unset (unset : Memory) : Endorsements where
  majorVersion := readLe unset 0 2
  minorVersion := readLe unset 2 2
  teeType := readLe unset 4 4

/-- `make_claims` of the raw quote at address 0. -/
def makeClaims (m unset : Memory) (sd : SignatureData) : Claims where
  version := readLe m 0 2
  signType := readLe m 2 2
  epidGroupId := readMem m 4 4
  qeSvn := readLe m 8 2
  pceSvn := readLe m 10 2
  xeid := readLe m 12 4
  basename := readMem m 16 32
  reportBody := readReportBody m reportBodyOff
  signatureData := {
    signature := sd.quoteSignature.read m
    attestPubKey := sd.publicKey.read m
    qeReport := readReportBody m qeReportOff
    qeReportSig := sd.reportSignature.read m
    authData := sd.authData.read m }
  endorsements := .unset unset

/-- A quote of zeros with the certificate chain of two. -/
def sampleEvidence : Bytes :=
  [3, 0, 2, 0] ++ List.replicate 432 0 ++ List.replicate 576 0 ++ [1, 0, 0] ++ [5, 0, 112, 0, 0, 0] ++
    sampleChain

/-- The lenient library, with the extension of zeros in every certificate. -/
def lenientSsl : OpenSsl Bytes Bytes Bytes := { OpenSsl.lenient with extension := fun _ _ => some zeroAsn1 }

theorem sampleEvidence_carries : Carries sampleEvidence 1 sampleChain := by
  have hcarries := carries_of_form (List.replicate 432 0 ++ List.replicate 576 0) sampleChain []
    (by rw [List.length_append, List.length_replicate, List.length_replicate]) (by decide) (by decide)
  have hform : sampleEvidence = [3, 0, 2, 0] ++ (List.replicate 432 0 ++ List.replicate 576 0) ++
      ([1, 0, 0, 5, 0] ++ leBytes 4 sampleChain.length ++ sampleChain ++ []) := by
    have hsize : leBytes 4 sampleChain.length = [112, 0, 0, 0] := by decide
    rw [hsize, sampleEvidence]
    simp only [List.append_assoc, List.append_nil]
    rfl
  rw [hform]
  exact hcarries

theorem sampleEvidence_length : sampleEvidence.length = 1133 := by
  have hchain : sampleChain.length = 112 := by decide
  simp only [sampleEvidence, List.length_append, List.length_replicate, List.length_cons,
    List.length_nil, hchain]

theorem sampleEvidence_quote :
    parseQuote (mem sampleEvidence plainHost.beyond) sampleEvidence.length = .ok ⟨0, 432⟩ := by
  apply parseQuote_of sampleEvidence_carries
  rw [sampleEvidence_length]
  decide +kernel

theorem sampleEvidence_parse : SignatureData.parse lenientSsl (mem sampleEvidence plainHost.beyond)
    sampleEvidence.length = .ok (placedData 1 sampleChain) := by
  apply SignatureData.parse_of lenientSsl sampleEvidence_carries
  · rw [sampleEvidence_length]
    decide
  · rfl

end Ravl.Sgx
