import Ravl.Compression
import Ravl.Lib.Traced

/-!
# Which bytes of a quote are touched (sgx_impl.h:956-1111, 1448-1471)

The fields of a quote are read through pointers before, between and after the
checks of the spans. The traced functions make the same steps as `parseQuote`,
`SignatureData.parse` and `compressPckCertificateChain` and record each access
to the evidence, with the size that the evidence has at that moment.
-/

namespace Ravl.Sgx
open ByteLib FallibleLib TracedLib Traced

section
variable {X509 Crl Pkey : Type} (io : CertificateIo X509 Crl Pkey) (host : Host)

/-! ### The accesses -/

/-- `parse_quote` -/
def tracedQuote (m : Memory) (size : ℕ) : Traced Access Error Span := do
  let signatureLen ← readField m size signatureLenOff 4
  quiet (refuse (size < sgxQuoteSize + signatureLen)
    (.exception "Unknown evidence format: too small to contain an sgx_quote_t"))
  quiet (verifyWithin 0 sgxQuoteSignedSize size)
  let version ← readField m size 0 2
  quiet (refuse (version ≠ sgxQuoteVersion)
    (.exception "Unknown evidence format: unsupported quote version"))
  let signType ← readField m size 2 2
  quiet (refuse (signType ≠ sgxQlAlgEcdsaP256)
    (.exception "Unknown evidence format: unsupported signing type"))
  pure ⟨0, sgxQuoteSignedSize⟩

/-- `strncmp` looks at five bytes; only DER data are read through a BIO here. -/
def tracedPem (m : Memory) (size : ℕ) (data : Span) : Traced Access Error Bytes := do
  eventIf (5 < data.size) ⟨data.off, 5, size⟩
  eventIf (isDer (data.read m) = true) ⟨data.off, data.size, size⟩
  quiet (pemOf io.toOpenSsl (data.read m))

/-- The constructor of `SignatureData`; the sizes that are read twice are recorded once. -/
def tracedSignatureData (m : Memory) (size : ℕ) : Traced Access Error SignatureData := do
  quiet (verifyFixedSpans size)
  let authSize ← readField m size authCertificationDataOff 2
  let authData : Span := ⟨authCertificationDataOff + 2, authSize⟩
  quiet (verifyWithin authData.off authData.size size)
  quiet (refuse (authSize = 0) (.exception "missing authentication data"))
  let cdRaw := authCertificationDataOff + 2 + authSize
  let cdSize ← readField m size (cdRaw + 2) 4
  quiet (refuse (cdSize = 0) (.exception "missing certification data"))
  let certificationData : Span := ⟨cdRaw + 6, cdSize⟩
  quiet (verifyWithin certificationData.off certificationData.size size)
  let certKeyType ← readField m size cdRaw 2
  quiet (refuse (certKeyType ≠ pckCertChain)
    (.exception "unsupported certification data key type"))
  let pem ← tracedPem io m size certificationData
  pure {
    quoteSignature := ⟨sigOff, 64⟩
    publicKey := ⟨attestPubKeyOff, 64⟩
    report := ⟨qeReportOff, sgxReportBodySize⟩
    reportSignature := ⟨qeReportSigOff, 64⟩
    reportData := ⟨qeReportOff + reportDataOff, 64⟩
    authData := authData
    cdRaw := cdRaw
    certificationData := pem }

/-- `parse_quote` followed by `SignatureData` -/
def tracedAccepted (evidence : Bytes) : Traced Access Error SignatureData := do
  let _ ← tracedQuote (mem evidence host.beyond) evidence.length
  tracedSignatureData io (mem evidence host.beyond) evidence.length

/-- Where the certification data lie in the evidence. -/
def rawSpan (evidence : Bytes) (sd : SignatureData) : Span :=
  ⟨sd.cdRaw + 6, readLe (mem evidence host.beyond) (sd.cdRaw + 2) 4⟩

/-- `SignatureData::compress_pck_certificate_chain`. DER data are no longer looked at: there is
a PEM copy of them. -/
def SignatureData.tracedCompress (sd : SignatureData) (evidence : Bytes) (resizeEvidence : Bool) :
    Traced Access Error (ℤ × Bytes) :=
  let raw := rawSpan host evidence sd
  let inPlace := isDer (raw.read (mem evidence host.beyond)) = false
  if evidence = [] then quiet (throw (.exception "empty evidence"))
  else do
    eventIf (inPlace ∧ 5 < raw.size) ⟨raw.off, 5, evidence.length⟩
    if isPem sd.certificationData then do
      eventIf inPlace ⟨raw.off, raw.size, evidence.length⟩
      let der ← quiet (pemToDer io (sd.certificationData.length + 1) sd.certificationData)
      event ⟨sd.cdRaw + 6, der.length, evidence.length⟩ ()
      event ⟨sd.cdRaw + 2, 4, evidence.length⟩ ()
      quiet (refuse (evidence.length < sd.cdRaw + 6 + der.length)
        (.undefined "write behind the evidence"))
      let written := writeChain evidence sd.cdRaw der
      let r : ℤ := (sd.certificationData.length : ℤ) - der.length
      if resizeEvidence then do
        let resized := resizeTo written ((written.length : ℤ) - r)
        quiet resized.1
        pure (r, resized.2)
      else pure (r, written)
    else pure (0, evidence)

/-- `sgx::Attestation::compress_pck_certificate_chain`; what is returned is the evidence. -/
def tracedCompression (evidence : Bytes) (resizeEvidence : Bool) : Traced Access Error Bytes := do
  let sd ← tracedAccepted io host evidence
  let r ← sd.tracedCompress io host evidence resizeEvidence
  let len := signatureLen host evidence
  eventIf (r.1 ≠ 0) ⟨signatureLenOff, 4, r.2.length⟩
  eventIf (0 < r.1 ∧ r.1 < len) ⟨signatureLenOff, 4, r.2.length⟩
  pure (if 0 < r.1 ∧ r.1 < len then patch r.2 signatureLenOff (leBytes 4 (len - r.1.toNat)) else r.2)

/-! The traced functions compute what the functions compute. -/

theorem tracedQuote_forget (m : Memory) (size : ℕ) : (tracedQuote m size).forget = parseQuote m size := by
  simp only [tracedQuote, forget_bind, forget_readField, forget_quiet, forget_pure, pure_bind,
    parseQuote]

theorem tracedPem_forget (m : Memory) (size : ℕ) (data : Span) :
    (tracedPem io m size data).forget = pemOf io.toOpenSsl (data.read m) := by
  simp only [tracedPem, forget_bind, forget_eventIf, forget_quiet, pure_bind]

theorem tracedSignatureData_forget (m : Memory) (size : ℕ) :
    (tracedSignatureData io m size).forget = SignatureData.parse io.toOpenSsl m size := by
  simp only [tracedSignatureData, forget_bind, forget_readField, forget_quiet, forget_pure,
    tracedPem_forget, pure_bind, SignatureData.parse]

theorem tracedAccepted_forget (evidence : Bytes) :
    (tracedAccepted io host evidence).forget = acceptedData io host evidence := by
  simp only [tracedAccepted, forget_bind, tracedQuote_forget, tracedSignatureData_forget, acceptedData]

theorem SignatureData.tracedCompress_forget (sd : SignatureData) (evidence : Bytes)
    (resizeEvidence : Bool) :
    (sd.tracedCompress io host evidence resizeEvidence).forget =
      (sd.compress io evidence resizeEvidence).1.map
        fun k => (k, (sd.compress io evidence resizeEvidence).2) := by
  unfold SignatureData.tracedCompress SignatureData.compress
  dsimp only
  by_cases hempty : evidence = []
  · rw [if_pos hempty, if_pos hempty]
    rfl
  rw [if_neg hempty, if_neg hempty]
  by_cases hpem : isPem sd.certificationData = true
  · rw [if_pos hpem, if_pos hpem]
    simp only [forget_bind, forget_eventIf, forget_event, forget_quiet, pure_bind]
    cases hder : pemToDer io (sd.certificationData.length + 1) sd.certificationData with
    | error e => rfl
    | ok der =>
      rw [ok_bind]
      dsimp only
      by_cases hbehind : evidence.length < sd.cdRaw + 6 + der.length
      · rw [if_pos hbehind, refuse, if_pos hbehind]
        rfl
      · rw [if_neg hbehind, refuse_of_not hbehind, ok_bind]
        cases resizeEvidence with
        | false => rfl
        | true =>
          simp only [if_true, forget_bind, forget_quiet, forget_pure]
          cases (resizeTo (writeChain evidence sd.cdRaw der) _).1 <;> rfl
  · rw [if_neg hpem, if_neg hpem]
    rfl

theorem tracedCompression_forget (evidence : Bytes) (resizeEvidence : Bool) :
    (tracedCompression io host evidence resizeEvidence).forget =
      (compressPckCertificateChain io host evidence resizeEvidence).1.map
        fun _ => (compressPckCertificateChain io host evidence resizeEvidence).2 := by
  unfold tracedCompression compressPckCertificateChain
  simp only [forget_bind, tracedAccepted_forget, SignatureData.tracedCompress_forget, forget_eventIf,
    forget_pure, pure_bind]
  cases acceptedData io host evidence with
  | error e => rfl
  | ok sd =>
    rw [ok_bind]
    dsimp only
    obtain ⟨result, changed⟩ := sd.compress io evidence resizeEvidence
    cases result with
    | error e => rfl
    | ok k =>
      dsimp only [Except.map]
      rw [ok_bind]
      by_cases hk : 0 < k ∧ k < signatureLen host evidence
      · rw [if_pos hk, if_pos hk]
        rfl
      · rw [if_neg hk, if_neg hk]
        rfl

/-! ### What is expected -/

/-- The spans of the signature data, and the certification data that were put into them. -/
structure SignatureData.SpansInside (sd : SignatureData) (m : Memory) (size : ℕ) : Prop where
  spans : ∀ s ∈ [sd.quoteSignature, sd.publicKey, sd.report, sd.reportSignature, sd.reportData,
    sd.authData], s.off + s.size ≤ size
  /-- a span of the evidence, or the PEM copy made of one -/
  certificationData : ∃ s : Span, s.off + s.size ≤ size ∧
    pemOf io.toOpenSsl (s.read m) = .ok sd.certificationData

/-- Both functions throw or complete, and touch no byte outside of the evidence. -/
structure KeepsInside (evidence : Bytes) (resizeEvidence : Bool) : Prop where
  parse : (tracedAccepted io host evidence).All Access.Inside
  parse_fails : FailsWith Thrown (acceptedData io host evidence)
  quote : ∀ quote, parseQuote (mem evidence host.beyond) evidence.length = .ok quote →
    quote.off + quote.size ≤ evidence.length
  spans : ∀ sd, acceptedData io host evidence = .ok sd →
    sd.SpansInside io (mem evidence host.beyond) evidence.length
  compress : (tracedCompression io host evidence resizeEvidence).All Access.Inside
  compress_fails : FailsWith Thrown (compressPckCertificateChain io host evidence resizeEvidence).1

/-! ### When it holds -/

/-- The header is one that `parse_quote` accepts. -/
structure QuoteHeader (evidence : Bytes) : Prop where
  long : 436 + leVal (sub evidence 432 4) ≤ evidence.length
  version : leVal (sub evidence 0 2) = 3
  signType : leVal (sub evidence 2 2) = 2

/-- Every field is there that is read before its span is checked, a DER chain that is written again
has room (BER may become longer by it), and the evidence is not cut off in front of the field
`signature_len`. -/
structure FieldsInside (evidence : Bytes) (resizeEvidence : Bool) : Prop where
  header : 436 ≤ evidence.length
  authSize : QuoteHeader evidence → 1012 ≤ evidence.length → 1014 ≤ evidence.length
  certificationData : QuoteHeader evidence → ∀ authSize, leVal (sub evidence 1012 2) = authSize →
    0 < authSize → 1014 + authSize ≤ evidence.length → 1020 + authSize ≤ evidence.length
  room : ∀ authSize raw chain, Carries evidence authSize raw → QuoteHeader evidence →
    1020 + authSize + raw.length ≤ evidence.length → isDer raw = true →
      certificatesIn io raw = .ok chain → 1020 + authSize + (chainDer io chain).length ≤ evidence.length
  chain : resizeEvidence = true → ∀ authSize raw chain, Carries evidence authSize raw →
    QuoteHeader evidence → 1020 + authSize + raw.length ≤ evidence.length → isDer raw = true →
      certificatesIn io raw = .ok chain →
        evidence.length + (chainDer io chain).length < (chainPem io chain).length ∨
          436 + (chainPem io chain).length ≤ evidence.length + (chainDer io chain).length

/-! ### The signature data -/

theorem tracedQuote_all (m : Memory) (size : ℕ) :
    (tracedQuote m size).All Access.Inside ↔ 436 ≤ size := by
  simp only [tracedQuote, all_bind, all_readField, all_quiet, all_pure, Access.inside_iff,
    forget_readField, forget_quiet, refuse_ok, true_and]
  constructor
  · intro h
    have hlen := h.1
    have h432 : signatureLenOff = 432 := rfl
    omega
  · intro h
    have h432 : signatureLenOff = 432 := rfl
    exact ⟨by omega, fun _ _ _ _ _ _ => ⟨by omega, fun _ _ _ _ => ⟨by omega, fun _ _ _ _ => trivial⟩⟩⟩

theorem tracedPem_all (m : Memory) (size : ℕ) (data : Span) (h : data.off + data.size ≤ size) :
    (tracedPem io m size data).All Access.Inside := by
  simp only [tracedPem, all_bind, all_eventIf, all_quiet, implies_true, and_true]
  exact ⟨fun hlong => Access.inside_of_le (by omega), fun _ _ _ => Access.inside_of_le h⟩

theorem verifyFixedSpans_iff (size : ℕ) : verifyFixedSpans size = .ok () ↔ 1012 ≤ size := by
  constructor
  · intro h
    simp only [verifyFixedSpans, bind_ok] at h
    obtain ⟨_, hall, -⟩ := h
    exact verifyWithin_ok sigOff sigDataSize size (by decide) (by decide) hall
  · exact verifyFixedSpans_inside size

theorem tracedSignatureData_all (m : Memory) (size : ℕ) :
    (tracedSignatureData io m size).All Access.Inside ↔
      (1012 ≤ size → 1014 ≤ size ∧
        (0 < readLe m 1012 2 → 1014 + readLe m 1012 2 ≤ size → 1020 + readLe m 1012 2 ≤ size)) := by
  obtain ⟨authSize, hauth⟩ : ∃ a, a = readLe m 1012 2 := ⟨_, rfl⟩
  have hsmall : authSize < 256 ^ 2 := hauth ▸ readLe_lt m 1012 2
  have hoff : authCertificationDataOff = 1012 := rfl
  have hauthIn (hpos : 0 < authSize) :
      verifyWithin 1014 authSize size = .ok () ↔ 1014 + authSize ≤ size :=
    verifyWithin_iff 1014 authSize size hpos (by omega)
  rw [← hauth]
  simp only [tracedSignatureData, all_bind, all_readField, all_quiet, all_pure, forget_readField,
    forget_quiet, refuse_ok, true_and, pure_ok, hoff, ← hauth, Access.inside_iff, forall_eq']
  constructor
  · intro h hlong
    obtain ⟨hsize, h⟩ := h () ((verifyFixedSpans_iff size).2 hlong)
    refine ⟨by omega, fun hpos hin => ?_⟩
    obtain ⟨hcert, -⟩ := h () ((hauthIn hpos).2 hin) () (by omega)
    omega
  · intro h _ hfixed
    obtain ⟨hsize, h⟩ := h ((verifyFixedSpans_iff size).1 hfixed)
    refine ⟨by omega, fun _ hwithin _ hne => ?_⟩
    have hpos : 0 < authSize := Nat.pos_of_ne_zero hne
    have hin := h hpos ((hauthIn hpos).1 hwithin)
    refine ⟨by omega, fun _ hcert _ hcertIn => ⟨by omega, fun _ _ => ⟨?_, fun _ _ => trivial⟩⟩⟩
    have hcd := readLe_lt m (1012 + 2 + authSize + 2) 4
    have hfit : 1012 + 2 + authSize + 6 + readLe m (1012 + 2 + authSize + 2) 4 ≤ 2 ^ 64 := by omega
    exact tracedPem_all io m size _ (verifyWithin_ok _ _ _ (Nat.pos_of_ne_zero hcert) hfit hcertIn)

theorem parseQuote_iff (evidence : Bytes) (hlen : 436 ≤ evidence.length) :
    parseQuote (mem evidence host.beyond) evidence.length = .ok ⟨0, 432⟩ ↔ QuoteHeader evidence := by
  have hsize : readLe (mem evidence host.beyond) signatureLenOff 4 = leVal (sub evidence 432 4) :=
    readLe_eq_sub _ _ _ _ hlen
  have hversion : readLe (mem evidence host.beyond) 0 2 = leVal (sub evidence 0 2) :=
    readLe_eq_sub _ _ _ _ (by omega)
  have htype : readLe (mem evidence host.beyond) 2 2 = leVal (sub evidence 2 2) :=
    readLe_eq_sub _ _ _ _ (by omega)
  have hwithin : verifyWithin 0 sgxQuoteSignedSize evidence.length = .ok () :=
    (verifyWithin_iff 0 432 _ (by decide) (by decide)).2 (by omega)
  simp only [parseQuote, hsize, hversion, htype, hwithin, bind_ok, refuse_ok, pure_ok, not_lt, not_not]
  constructor
  · intro h
    obtain ⟨_, hlong, _, -, _, hv, _, ht, -⟩ := h
    exact ⟨hlong, hv, ht⟩
  · intro h
    exact ⟨(), h.long, (), trivial, (), h.version, (), h.signType, rfl⟩

/-- The accesses up to the end of the constructor, in terms of the evidence. -/
theorem tracedAccepted_all (evidence : Bytes) :
    (tracedAccepted io host evidence).All Access.Inside ↔ 436 ≤ evidence.length ∧
      (QuoteHeader evidence → 1012 ≤ evidence.length → 1014 ≤ evidence.length ∧
        (0 < leVal (sub evidence 1012 2) → 1014 + leVal (sub evidence 1012 2) ≤ evidence.length →
          1020 + leVal (sub evidence 1012 2) ≤ evidence.length)) := by
  rw [tracedAccepted, all_bind, tracedQuote_all, tracedQuote_forget]
  refine and_congr_right fun hlen => ?_
  have hheader := parseQuote_iff host evidence hlen
  constructor
  · intro h hquote hlong
    obtain ⟨hauth, hcert⟩ := (tracedSignatureData_all io _ _).1 (h _ (hheader.2 hquote)) hlong
    rw [readLe_eq_sub _ _ _ _ hauth] at hcert
    exact ⟨hauth, hcert⟩
  · intro h quote hquote
    obtain ⟨rfl, -⟩ := parseQuote_ok _ _ _ hquote
    rw [tracedSignatureData_all]
    intro hlong
    obtain ⟨hauth, hcert⟩ := h (hheader.1 hquote) hlong
    rw [readLe_eq_sub _ _ _ _ hauth]
    exact ⟨hauth, hcert⟩

/-! ### What is thrown -/

theorem parseQuote_fails (m : Memory) (size : ℕ) : FailsWith Thrown (parseQuote m size) :=
  FailsWith.bind (FailsWith.refuse (thrown _)) fun _ _ =>
    FailsWith.bind (verifyWithin_fails _ _ _) fun _ _ =>
      FailsWith.bind (FailsWith.refuse (thrown _)) fun _ _ =>
        FailsWith.bind (FailsWith.refuse (thrown _)) fun _ _ => FailsWith.pure _ _

theorem verifyFixedSpans_fails (size : ℕ) : FailsWith Thrown (verifyFixedSpans size) :=
  FailsWith.bind (verifyWithin_fails _ _ _) fun _ _ =>
    FailsWith.bind (verifyWithin_fails _ _ _) fun _ _ =>
      FailsWith.bind (verifyWithin_fails _ _ _) fun _ _ =>
        FailsWith.bind (verifyWithin_fails _ _ _) fun _ _ =>
          FailsWith.bind (verifyWithin_fails _ _ _) fun _ _ => verifyWithin_fails _ _ _

variable {io}

/-- The loop over DER certificates ends, and what it throws is an exception. -/
theorem derToPem_fails (hl : io.Sound) (hder : ∀ bio, FailsWith Thrown (io.derX509 bio)) (fuel : ℕ)
    (bio : Bytes) (hfuel : bio.length < fuel) : FailsWith Thrown (derToPem io.toOpenSsl fuel bio) := by
  induction fuel generalizing bio with
  | zero => omega
  | succ fuel ih =>
    unfold derToPem
    split
    · exact FailsWith.pure _ _
    · refine FailsWith.bind (hder bio) fun r hread => FailsWith.bind (ih r.2 ?_) fun _ _ => FailsWith.pure _ _
      have hconsumes := hl.consumes bio r.1 r.2 hread
      omega

theorem acceptedData_fails (hl : io.Sound) (hder : ∀ bio, FailsWith Thrown (io.derX509 bio))
    (evidence : Bytes) : FailsWith Thrown (acceptedData io host evidence) := by
  have hpem (data : Bytes) : FailsWith Thrown (pemOf io.toOpenSsl data) := by
    unfold pemOf
    split
    · exact derToPem_fails hl hder _ _ (Nat.lt_succ_self _)
    · exact FailsWith.pure _ _
  exact FailsWith.bind (parseQuote_fails _ _) fun _ _ =>
    FailsWith.bind (verifyFixedSpans_fails _) fun _ _ =>
      FailsWith.bind (verifyWithin_fails _ _ _) fun _ _ =>
        FailsWith.bind (FailsWith.refuse (thrown _)) fun _ _ =>
          FailsWith.bind (FailsWith.refuse (thrown _)) fun _ _ =>
            FailsWith.bind (verifyWithin_fails _ _ _) fun _ _ =>
              FailsWith.bind (FailsWith.refuse (thrown _)) fun _ _ =>
                FailsWith.bind (hpem _) fun _ _ => FailsWith.pure _ _

/-- The chain found in the evidence can be written in its DER form without leaving the evidence. -/
def HasRoom (io : CertificateIo X509 Crl Pkey) (evidence : Bytes) (authSize : ℕ) (raw : Bytes) : Prop :=
  ∀ chain, 5 < raw.length → certificatesIn io raw = .ok chain →
    1020 + authSize + (chainDer io chain).length ≤ evidence.length

theorem compress_fails (hl : io.Sound) (hder : ∀ bio, FailsWith Thrown (io.derX509 bio))
    (evidence : Bytes) (resizeEvidence : Bool)
    (hroom : ∀ authSize raw, Carries evidence authSize raw → 436 + signatureLen host evidence ≤ evidence.length →
      1020 + authSize + raw.length ≤ evidence.length → HasRoom io evidence authSize raw) :
    FailsWith Thrown (compressPckCertificateChain io host evidence resizeEvidence).1 := by
  intro e h
  cases haccepted : acceptedData io host evidence with
  | error e' =>
    rw [compressPckCertificateChain, haccepted] at h
    obtain rfl := Except.error.inj h
    exact acceptedData_fails host hl hder evidence _ haccepted
  | ok sd =>
    obtain ⟨authSize, raw, pem, hc, hsigned, hinside, hpem, -⟩ := acceptedData_ok io host evidence sd haccepted
    by_cases hlong : 5 < raw.length
    · by_cases hfound : ∃ chain, certificatesIn io raw = .ok chain
      · obtain ⟨chain, hchain⟩ := hfound
        rw [compress_written host hl evidence resizeEvidence authSize raw pem chain hc hlong hsigned hinside
          (hroom authSize raw hc hsigned hinside chain hlong hchain) hpem hchain _ rfl] at h
        split at h
        · exact ⟨_, (Except.error.inj h).symm⟩
        · cases h
      · obtain ⟨e', hread, hcompress⟩ := compress_unreadable host hl evidence resizeEvidence authSize raw pem
          hc hlong hsigned hinside hpem fun chain hchain => hfound ⟨chain, hchain⟩
        rw [hcompress] at h
        obtain rfl := Except.error.inj h
        exact pemToDer_throws hl _ _ _ (Nat.lt_succ_self _) hread
    · rw [compress_short host evidence resizeEvidence authSize raw pem hc (by omega) hsigned hinside hpem] at h
      cases h

/-! ### The compression -/

/-- The accesses stay inside exactly where the DER form has room. -/
theorem tracedCompress_all (hl : io.Sound) (evidence : Bytes) (resizeEvidence : Bool) (authSize : ℕ)
    (raw pem : Bytes) (hc : Carries evidence authSize raw)
    (hinside : 1020 + authSize + raw.length ≤ evidence.length)
    (hpem : pemOf io.toOpenSsl raw = .ok pem) :
    ((placedData authSize pem).tracedCompress io host evidence resizeEvidence).All Access.Inside ↔
      HasRoom io evidence authSize raw := by
  have hne : evidence ≠ [] := List.ne_nil_of_length_pos (by omega)
  have hsize : (rawSpan host evidence (placedData authSize pem)).size = raw.length := by
    show readLe (mem evidence host.beyond) (1014 + authSize + 2) 4 = raw.length
    rw [readLe_eq_sub _ _ _ _ (by omega), ← hc.certSize]
    congr 2
    omega
  have hoff : (rawSpan host evidence (placedData authSize pem)).off = 1020 + authSize :=
    Nat.add_right_comm 1014 authSize 6
  have hcd : (placedData authSize pem).cdRaw = 1014 + authSize := rfl
  have hpos := List.length_pos_of_ne_nil hc.certPos
  unfold SignatureData.tracedCompress
  dsimp only
  rw [if_neg hne, hsize, hoff, hcd, all_bind, all_eventIf]
  by_cases hispem : isPem (placedData authSize pem).certificationData = true
  · have hlong : 5 < raw.length := by
      by_contra hshort
      have hplain : pemOf io.toOpenSsl raw = .ok raw := by
        rw [pemOf, if_neg (by simp [isDer, hshort])]
        rfl
      rw [hplain] at hpem
      obtain rfl := Except.ok.inj hpem
      simp [placedData, isPem, hshort] at hispem
    have hread := (pemOf_chain hl raw pem hlong hpem).2
    rw [if_pos hispem]
    simp only [all_bind, all_eventIf, all_event, all_quiet, forget_event, forget_quiet, refuse_ok,
      true_and]
    constructor
    · intro h chain _ hchain
      have hder := (hread (chainDer io chain)).2 ⟨chain, hchain, rfl⟩
      have hwritten := (h.2 () rfl).2 () rfl (chainDer io chain) hder
      by_cases hempty : (chainDer io chain).length = 0
      · omega
      · have hstop := Access.le_of_inside hwritten.1 (Nat.pos_of_ne_zero hempty)
        omega
    · intro hroom
      refine ⟨fun _ => Access.inside_of_le (by omega), fun _ _ => ⟨fun _ => Access.inside_of_le hinside,
        fun _ _ der hder => ⟨?_, fun _ _ => ⟨?_, ?_⟩⟩⟩⟩
      · obtain ⟨chain, hchain, rfl⟩ := (hread der).1 hder
        have hfits := hroom chain hlong hchain
        exact Access.inside_of_le (by omega)
      · exact Access.inside_of_le (by omega)
      · intro _ _ _ _
        split
        · simp only [all_bind, all_quiet, all_pure, implies_true, and_self]
        · exact all_pure _ _
  · rw [if_neg hispem]
    refine ⟨fun _ chain hlong _ => absurd (pemOf_chain hl raw pem hlong hpem).1 hispem, fun _ => ?_⟩
    exact ⟨fun hlong => Access.inside_of_le (by omega), fun _ _ => all_pure _ _⟩

section
variable (hl : io.Sound) (evidence : Bytes) (resizeEvidence : Bool) (authSize : ℕ) (raw pem : Bytes)
  (hpem : pemOf io.toOpenSsl raw = .ok pem)
include hl hpem

/-- A chain that was written in its other form leaves the evidence shorter by the difference. -/
theorem tracedCompress_chain (chain : List X509) (hlong : 5 < raw.length)
    (hchain : certificatesIn io raw = .ok chain) (hresize : resizeEvidence = true)
    (hfits : 1020 + authSize + (chainDer io chain).length ≤ evidence.length)
    (hroom : pem.length ≤ evidence.length + (chainDer io chain).length) :
    ∃ r, ((placedData authSize pem).tracedCompress io host evidence resizeEvidence).forget = .ok r ∧
      r.1 ≠ 0 ∧ r.2.length + pem.length = evidence.length + (chainDer io chain).length := by
  have hne : evidence ≠ [] := List.ne_nil_of_length_pos (by omega)
  have hwritten := writeChain_length evidence (1014 + authSize) (chainDer io chain)
  obtain ⟨-, hshort⟩ := certificatesIn_shorter hl raw pem chain hlong hpem hchain
  obtain ⟨k, hk⟩ : ∃ k, k = pem.length - (chainDer io chain).length := ⟨_, rfl⟩
  rw [SignatureData.tracedCompress_forget, SignatureData.compress_written hl evidence resizeEvidence authSize
    raw pem chain hne hlong hfits hpem hchain k hk, if_pos hresize, resizeTo, if_neg (by omega),
    if_pos (by omega)]
  refine ⟨_, rfl, ?_, ?_⟩
  · dsimp only
    omega
  · rw [List.length_take]
    omega

/-- Nothing else changes the evidence's length. -/
theorem tracedCompress_ok (hne : evidence ≠ []) (r : ℤ × Bytes)
    (h : ((placedData authSize pem).tracedCompress io host evidence resizeEvidence).forget = .ok r) :
    r.1 = 0 ∨ r.2.length = evidence.length ∨
      resizeEvidence = true ∧ ∃ chain, 5 < raw.length ∧ certificatesIn io raw = .ok chain ∧
        pem.length ≤ evidence.length + (chainDer io chain).length ∧
          r.2.length + pem.length = evidence.length + (chainDer io chain).length := by
  rw [SignatureData.tracedCompress_forget] at h
  by_cases hlong : 5 < raw.length
  · by_cases hfound : ∃ chain, certificatesIn io raw = .ok chain
    · obtain ⟨chain, hchain⟩ := hfound
      have hwritten := writeChain_length evidence (1014 + authSize) (chainDer io chain)
      obtain ⟨-, hshort⟩ := certificatesIn_shorter hl raw pem chain hlong hpem hchain
      by_cases hfits : 1020 + authSize + (chainDer io chain).length ≤ evidence.length
      · rw [SignatureData.compress_written hl evidence resizeEvidence authSize raw pem chain hne hlong hfits
          hpem hchain _ rfl] at h
        cases hresize : resizeEvidence with
        | false =>
          rw [hresize, if_neg (by simp)] at h
          obtain rfl := Except.ok.inj h
          exact Or.inr (Or.inl hwritten)
        | true =>
          rw [hresize, if_pos rfl] at h
          unfold resizeTo at h
          split at h
          · cases h
          next hnot =>
            rw [if_pos (by omega)] at h
            obtain rfl := Except.ok.inj h
            refine Or.inr (Or.inr ⟨rfl, chain, hlong, hchain, by omega, ?_⟩)
            rw [List.length_take]
            omega
      · rw [SignatureData.compress_behind hl evidence resizeEvidence authSize raw pem chain hne hlong
          (by omega) hpem hchain] at h
        cases h
    · obtain ⟨e, -, hcompress⟩ := SignatureData.compress_unreadable hl evidence resizeEvidence authSize raw
        pem hne hlong hpem fun chain hchain => hfound ⟨chain, hchain⟩
      rw [hcompress] at h
      cases h
  · rw [SignatureData.compress_short evidence resizeEvidence authSize raw pem hne hlong hpem] at h
    obtain rfl := Except.ok.inj h
    exact Or.inl rfl

end

/-- Behind the compression only the field `signature_len` is touched, where the chain was
written in its other form. -/
theorem tracedCompression_all (hl : io.Sound) (evidence : Bytes) (resizeEvidence : Bool) :
    (tracedCompression io host evidence resizeEvidence).All Access.Inside ↔
      (tracedAccepted io host evidence).All Access.Inside ∧
        ∀ authSize raw pem chain, Carries evidence authSize raw →
          436 + signatureLen host evidence ≤ evidence.length →
            1020 + authSize + raw.length ≤ evidence.length → pemOf io.toOpenSsl raw = .ok pem →
              5 < raw.length → certificatesIn io raw = .ok chain →
                1020 + authSize + (chainDer io chain).length ≤ evidence.length ∧
                  (resizeEvidence = true → evidence.length + (chainDer io chain).length < pem.length ∨
                    436 + pem.length ≤ evidence.length + (chainDer io chain).length) := by
  have hfour : signatureLenOff + 4 = 436 := rfl
  rw [tracedCompression, all_bind, tracedAccepted_forget]
  refine and_congr_right fun _ => ?_
  constructor
  · intro h authSize raw pem chain hc hsigned hinside hpem hlong hchain
    have haccepted := acceptedData_of io host evidence authSize raw pem hc hsigned hinside hpem
    obtain ⟨hcompress, hbehind⟩ := (all_bind _ _ _).1 (h _ haccepted)
    have hfits := (tracedCompress_all host hl evidence resizeEvidence authSize raw pem hc hinside hpem).1
      hcompress chain hlong hchain
    refine ⟨hfits, fun hresize => ?_⟩
    by_cases hroom : pem.length ≤ evidence.length + (chainDer io chain).length
    · obtain ⟨r, hr, hk, hlength⟩ := tracedCompress_chain host hl evidence resizeEvidence authSize raw pem
        hpem chain hlong hchain hresize hfits hroom
      have hall := hbehind r hr
      rw [all_bind, all_eventIf] at hall
      have hfield := Access.le_of_inside (hall.1 hk) (Nat.succ_pos 3)
      omega
    · exact Or.inl (Nat.lt_of_not_le hroom)
  · intro h sd haccepted
    obtain ⟨authSize, raw, pem, hc, hsigned, hinside, hpem, rfl⟩ := acceptedData_ok io host evidence sd haccepted
    rw [all_bind, tracedCompress_all host hl evidence resizeEvidence authSize raw pem hc hinside hpem]
    refine ⟨fun chain hlong hchain =>
      (h authSize raw pem chain hc hsigned hinside hpem hlong hchain).1, fun r hr => ?_⟩
    have hfield : r.1 ≠ 0 → 436 ≤ r.2.length := by
      intro hk
      obtain hzero | hsame | ⟨hresize, chain, hlong, hchain, hroom, hlength⟩ :=
        tracedCompress_ok host hl evidence resizeEvidence authSize raw pem hpem
          (ne_nil_of_signature host evidence hsigned) r hr
      · exact absurd hzero hk
      · omega
      · have hkept := (h authSize raw pem chain hc hsigned hinside hpem hlong hchain).2 hresize
        omega
    simp only [all_bind, all_eventIf, all_pure, implies_true, and_true]
    exact ⟨fun hk => Access.inside_of_le (hfield hk),
      fun _ _ hk => Access.inside_of_le (hfield (ne_of_gt hk.1))⟩

/-! ### Both directions -/

theorem pemOf_der {raw : Bytes} {chain : List X509} (hder : isDer raw = true)
    (hchain : certificatesIn io raw = .ok chain) : pemOf io.toOpenSsl raw = .ok (chainPem io chain) := by
  rw [certificatesIn, hder, if_pos rfl] at hchain
  rw [pemOf, hder, if_pos rfl]
  exact (derToPem_ok_iff io _ _ _).2 ⟨chain, hchain, rfl⟩

theorem acceptedData_spans (evidence : Bytes) (sd : SignatureData)
    (h : acceptedData io host evidence = .ok sd) :
    sd.SpansInside io (mem evidence host.beyond) evidence.length := by
  obtain ⟨authSize, raw, pem, hc, -, hinside, hpem, rfl⟩ := acceptedData_ok io host evidence sd h
  constructor
  · intro s hs
    simp only [placedData, List.mem_cons, List.not_mem_nil, or_false] at hs
    rcases hs with rfl | rfl | rfl | rfl | rfl | rfl <;> dsimp only <;> omega
  · refine ⟨⟨1020 + authSize, raw.length⟩, hinside, ?_⟩
    have hread : Span.read ⟨1020 + authSize, raw.length⟩ (mem evidence host.beyond) = raw :=
      (readMem_eq_sub _ _ _ _ hinside).trans hc.cert
    rw [hread]
    exact hpem

theorem keepsInside_iff (hl : io.Sound) (hder : ∀ bio, FailsWith Thrown (io.derX509 bio))
    (evidence : Bytes) (resizeEvidence : Bool) :
    KeepsInside io host evidence resizeEvidence ↔ FieldsInside io evidence resizeEvidence := by
  constructor
  · intro h
    obtain ⟨hlen, hfields⟩ := (tracedAccepted_all io host evidence).1 h.parse
    obtain ⟨-, hchain⟩ := (tracedCompression_all host hl evidence resizeEvidence).1 h.compress
    have hkept {authSize : ℕ} {raw : Bytes} {chain : List X509} (hc : Carries evidence authSize raw)
        (hheader : QuoteHeader evidence) (hinside : 1020 + authSize + raw.length ≤ evidence.length)
        (hisder : isDer raw = true) (hcerts : certificatesIn io raw = .ok chain) := by
      have hlong : 5 < raw.length := by
        simp only [isDer, Bool.and_eq_true, decide_eq_true_eq] at hisder
        exact hisder.1
      have hsigned := hheader.long
      rw [← signatureLen_eq host evidence hlen] at hsigned
      exact hchain authSize raw _ chain hc hsigned hinside (pemOf_der hisder hcerts) hlong hcerts
    refine ⟨hlen, fun hheader hlong => (hfields hheader hlong).1, ?_, ?_, ?_⟩
    · rintro hheader authSize rfl hpos hin
      exact (hfields hheader (by omega)).2 hpos hin
    · intro authSize raw chain hc hheader hinside hisder hcerts
      exact (hkept hc hheader hinside hisder hcerts).1
    · intro hresize authSize raw chain hc hheader hinside hisder hcerts
      exact (hkept hc hheader hinside hisder hcerts).2 hresize
  · intro h
    have hparse : (tracedAccepted io host evidence).All Access.Inside := by
      refine (tracedAccepted_all io host evidence).2 ⟨h.header, fun hheader hlong => ?_⟩
      exact ⟨h.authSize hheader hlong, h.certificationData hheader _ rfl⟩
    have hheader {authSize : ℕ} {raw : Bytes} (hc : Carries evidence authSize raw)
        (hsigned : 436 + signatureLen host evidence ≤ evidence.length) : QuoteHeader evidence :=
      ⟨by rwa [signatureLen_eq host evidence h.header] at hsigned, hc.version, hc.signType⟩
    have hroom : ∀ authSize raw, Carries evidence authSize raw →
        436 + signatureLen host evidence ≤ evidence.length →
          1020 + authSize + raw.length ≤ evidence.length → HasRoom io evidence authSize raw := by
      intro authSize raw hc hsigned hinside chain hlong hcerts
      cases hisder : isDer raw with
      | true => exact h.room authSize raw chain hc (hheader hc hsigned) hinside hisder hcerts
      | false =>
        have hfits := certificatesIn_pem_fits hl raw chain hisder hcerts
        omega
    refine ⟨hparse, acceptedData_fails host hl hder evidence, ?_, acceptedData_spans host evidence, ?_,
      compress_fails host hl hder evidence resizeEvidence hroom⟩
    · intro quote hquote
      obtain ⟨rfl, hlen, -⟩ := parseQuote_ok _ _ _ hquote
      dsimp only
      omega
    · refine (tracedCompression_all host hl evidence resizeEvidence).2 ⟨hparse, ?_⟩
      intro authSize raw pem chain hc hsigned hinside hpem hlong hcerts
      refine ⟨hroom authSize raw hc hsigned hinside chain hlong hcerts, fun hresize => ?_⟩
      cases hisder : isDer raw with
      | true =>
        rw [pemOf_der hisder hcerts] at hpem
        obtain rfl := Except.ok.inj hpem
        exact h.chain hresize authSize raw chain hc (hheader hc hsigned) hinside hisder hcerts
      | false =>
        rw [pemOf, hisder, if_neg (by simp)] at hpem
        obtain rfl := (pure_ok _ _).1 hpem
        exact Or.inr (by omega)

end

theorem readLetterDer_fails (bio : Bytes) : FailsWith Thrown (readLetterDer bio) := by
  intro e h
  unfold readLetterDer at h
  split at h
  · cases h
  · exact ⟨_, (Except.error.inj h).symm⟩

theorem letterEvidence_keepsInside : KeepsInside letterIo plainHost (letterEvidence 691) true := by
  have hlen := letterEvidence_length 691
  have hcarries := letterEvidence_carries 691 []
  rw [List.append_nil] at hcarries
  refine (keepsInside_iff plainHost letterIo_lawful.toSound readLetterDer_fails _ true).2 ?_
  refine ⟨by omega, fun _ _ => by omega, ?_, ?_, ?_⟩
  · rintro - authSize hauth - -
    rw [hcarries.auth] at hauth
    omega
  · intro authSize raw chain hc _ _ hisder
    obtain ⟨-, rfl⟩ := Oe.Carries.unique hcarries hc
    exact absurd hisder (by decide +kernel)
  · intro _ authSize raw chain hc _ _ hisder
    obtain ⟨-, rfl⟩ := Oe.Carries.unique hcarries hc
    exact absurd hisder (by decide +kernel)

/-- `signature_len` is read before anything is known about the evidence. -/
theorem empty_evidence_read : ¬ KeepsInside letterIo plainHost [] true := by
  intro h
  have hlen := ((tracedAccepted_all letterIo plainHost []).1 h.parse).1
  exact absurd hlen (by decide)

end Ravl.Sgx
