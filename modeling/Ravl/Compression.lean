import Ravl.Oe.Compression

/-!
# Compression of the PCK certificate chain, for both kinds of evidence

What a second compression does to compressed evidence, and what the first one preserves.
-/

namespace Ravl
open ByteLib FallibleLib Sgx

/-- The attestation classes with a `compress_pck_certificate_chain`. -/
inductive QuoteClass
  | sgx
  | openEnclave
  deriving DecidableEq

section
variable {X509 Crl Pkey : Type} (io : CertificateIo X509 Crl Pkey) (host : Host)

def QuoteClass.compress (c : QuoteClass) (evidence : Bytes) (resizeEvidence : Bool) :
    Result Unit × Bytes :=
  match c with
  | .sgx => Sgx.compressPckCertificateChain io host evidence resizeEvidence
  | .openEnclave => Oe.compressPckCertificateChain io host evidence resizeEvidence

end

/-! ### A library whose certificates are single bytes -/

def letterPem (c : Byte) : Bytes := pemBegin ++ c :: pemEnd

def readLetterPem (bio : Bytes) : Result (Byte × Bytes) :=
  match bio.drop pemBegin.length with
  | c :: rest =>
    if pemBegin.isPrefixOf bio && pemEnd.isPrefixOf rest then pure (c, rest.drop pemEnd.length)
    else throw (.exception "OpenSSL object creation failed because of OpenSSL error(s):")
  | [] => throw (.exception "OpenSSL object creation failed because of OpenSSL error(s):")

def readLetterDer (bio : Bytes) : Result (Byte × Bytes) :=
  match bio with
  | 0x30 :: 4 :: 4 :: 2 :: 0 :: c :: rest => pure (c, rest)
  | _ => throw (.exception "OpenSSL object creation failed because of OpenSSL error(s):")

def letterIo : CertificateIo Byte Bytes Bytes where
  atLeast3 := true
  errors := []
  pemX509 pem := (readLetterPem pem).map Prod.fst
  derX509 := readLetterDer
  pemStack pem := readChain readLetterPem (pem.length + 1) pem
  x509Pem := letterPem
  pemCrl := pure
  derCrl := pure
  crlPem := id
  isCa _ := true
  hasCommonName _ _ := true
  hasPublicKey _ _ := pure true
  extension _ _ := some zeroAsn1
  pubkey c := pure [c]
  p256 := pure
  sha256 _ := List.replicate 32 0
  sha384 _ := List.replicate 48 0
  signatureDer r s _ := pure (r ++ s)
  verifyDigest _ _ _ := pure true
  x509VerifyCert ctx := { rc := 1, chain := ctx.untrusted }
  printX509 _ := pure ()
  printCrl _ := pure ()
  vformat template _ := pure template
  readPem := readLetterPem
  x509Der c := [0x30, 4, 4, 2, 0, c]

theorem readLetterPem_letterPem (c : Byte) (rest : Bytes) :
    readLetterPem (letterPem c ++ rest) = .ok (c, rest) := by
  have hform : letterPem c ++ rest = pemBegin ++ (c :: (pemEnd ++ rest)) := by
    rw [letterPem, List.append_assoc, List.cons_append]
  have hbegin : pemBegin.isPrefixOf (pemBegin ++ (c :: (pemEnd ++ rest))) = true := by
    rw [List.isPrefixOf_iff_prefix]
    exact List.prefix_append _ _
  have hend : pemEnd.isPrefixOf (pemEnd ++ rest) = true := by
    rw [List.isPrefixOf_iff_prefix]
    exact List.prefix_append _ _
  rw [hform, readLetterPem, List.drop_left]
  simp only [hbegin, hend, Bool.and_self, if_true, List.drop_left]
  rfl

theorem readLetterPem_shorter (bio : Bytes) (c : Byte) (rest : Bytes)
    (h : readLetterPem bio = .ok (c, rest)) : 6 + rest.length < bio.length := by
  unfold readLetterPem at h
  split at h
  next b t ht =>
    split at h
    next hboth =>
      have hlength := congrArg List.length ht
      rw [List.length_drop, List.length_cons] at hlength
      have hrest : rest.length = t.length - pemEnd.length := by
        rw [← (Prod.mk.inj (Except.ok.inj h)).2, List.length_drop]
      have hbegin : pemBegin.length = 27 := by decide
      omega
    next => cases h
  next => cases h

theorem readLetterDer_ok (bio : Bytes) (c : Byte) (rest : Bytes) :
    readLetterDer bio = .ok (c, rest) ↔ bio = [0x30, 4, 4, 2, 0, c] ++ rest := by
  constructor
  · intro h
    unfold readLetterDer at h
    split at h
    next d t =>
      have hpair := Prod.mk.inj (Except.ok.inj h)
      rw [hpair.1, hpair.2]
      rfl
    next => cases h
  · intro heq
    subst heq
    rfl

theorem letterIo_lawful : letterIo.Lawful where
  readPem := readLetterPem_letterPem
  readDer c rest := (readLetterDer_ok _ c rest).2 rfl
  derOnly bio c rest h := (readLetterDer_ok bio c rest).1 h
  shorter := readLetterPem_shorter
  consumes bio c rest h := by
    rw [(readLetterDer_ok bio c rest).1 h, List.length_append]
    exact Nat.lt_add_of_pos_left (Nat.zero_lt_succ 5)
  readPem_throws bio e h := by
    have hthrows : readLetterPem bio = .error e := h
    unfold readLetterPem at hthrows
    split at hthrows
    · split at hthrows
      · cases hthrows
      · exact ⟨_, (Except.error.inj hthrows).symm⟩
    · exact ⟨_, (Except.error.inj hthrows).symm⟩
  derStart c := ⟨[4, 4, 2, 0, c], rfl, le_refl 5⟩
  pemStart c := ⟨pemBegin.drop 5 ++ c :: pemEnd, rfl⟩

/-- A quote of zeros with a chain of two letters, and the length its signature is said to have. -/
def letterEvidence (signatureLen : ℕ) : Bytes :=
  [3, 0, 2, 0] ++ List.replicate 428 0 ++ leBytes 4 signatureLen ++ List.replicate 576 0 ++ [1, 0, 0] ++
    [5, 0, 106, 0, 0, 0] ++ letterPem (byte 'a') ++ letterPem (byte 'b')

/-! ### Twice -/

section
variable {X509 Crl Pkey : Type} (io : CertificateIo X509 Crl Pkey) (host : Host)

/-- A second compression finds nothing to do. -/
def QuoteClass.SecondIdle (c : QuoteClass) (evidence : Bytes) (authSize : ℕ) (chain : List X509)
    (s : ChainSizes) (resize : Bool) : Prop :=
  match c with
  | .sgx => s.SecondIdle resize
  | .openEnclave => Oe.SecondIdle io host evidence authSize chain s resize

theorem compress_idempotent_iff (hl : io.Lawful) (c : QuoteClass) (host' : Host)
    (evidence e₁ : Bytes) (resize : Bool)
    (hfirst : c.compress io host evidence resize = (.ok (), e₁)) :
    (c.compress io host' e₁ resize).2 = e₁ ↔
      NoChain evidence ∨ ∃ authSize chain s, Measured io evidence authSize chain s ∧
        c.SecondIdle io host' evidence authSize chain s resize := by
  cases c with
  | sgx => exact Sgx.compress_twice_iff host hl host' evidence e₁ resize hfirst
  | openEnclave => exact Oe.compress_twice_iff host hl host' evidence e₁ resize hfirst

end

def letterChain : List Byte := [byte 'a', byte 'b']

theorem letterEvidence_form (n : ℕ) (tail : Bytes) : letterEvidence n ++ tail =
    [3, 0, 2, 0] ++ (List.replicate 428 0 ++ leBytes 4 n ++ List.replicate 576 0) ++
      ([1, 0, 0, 5, 0] ++ leBytes 4 (chainPem letterIo letterChain).length ++
        chainPem letterIo letterChain ++ tail) := by
  have hchain : chainPem letterIo letterChain = letterPem (byte 'a') ++ letterPem (byte 'b') := rfl
  have hsize : leBytes 4 (chainPem letterIo letterChain).length = [106, 0, 0, 0] := by decide
  rw [hsize, hchain, letterEvidence]
  simp only [List.append_assoc]
  rfl

theorem letterEvidence_length (n : ℕ) : (letterEvidence n).length = 1127 := by
  have hlength := congrArg List.length (letterEvidence_form n [])
  have htext : (chainPem letterIo letterChain).length = 106 := by decide
  simp only [List.append_nil, List.length_append, List.length_replicate, leBytes_length, htext,
    List.length_cons, List.length_nil] at hlength
  exact hlength

theorem letterEvidence_carries (n : ℕ) (tail : Bytes) :
    Carries (letterEvidence n ++ tail) 1 (chainPem letterIo letterChain) := by
  rw [letterEvidence_form]
  apply carries_of_form
  · simp only [List.length_append, List.length_replicate, leBytes_length]
  · exact List.cons_ne_nil _ _
  · decide

theorem letterEvidence_signed (n : ℕ) (h : n < 2 ^ 32) (tail : Bytes) :
    leVal (sub (letterEvidence n ++ tail) 432 4) = n := by
  have hlength : ([3, 0, 2, 0] ++ List.replicate 428 0 : Bytes).length = 432 := by
    rw [List.length_append, List.length_replicate]
    rfl
  have hform : letterEvidence n ++ tail = [3, 0, 2, 0] ++ List.replicate 428 0 ++ leBytes 4 n ++
      (List.replicate 576 0 ++ ([1, 0, 0, 5, 0] ++ leBytes 4 (chainPem letterIo letterChain).length ++
        chainPem letterIo letterChain ++ tail)) := by
    rw [letterEvidence_form]
    simp only [List.append_assoc]
  rw [hform, sub_middle _ _ _ _ _ hlength (leBytes_length 4 n), leVal_leBytes 4 n h]

theorem letterEvidence_signatureLen (n : ℕ) (h : n < 2 ^ 32) (tail : Bytes) :
    signatureLen plainHost (letterEvidence n ++ tail) = n := by
  have hlength : (letterEvidence n ++ tail).length = 1127 + tail.length := by
    rw [List.length_append, letterEvidence_length]
  rw [signatureLen_eq plainHost _ (by omega), letterEvidence_signed n h]

theorem letterEvidence_measured (n : ℕ) (h : n < 2 ^ 32) : Measured letterIo (letterEvidence n) 1 letterChain
    ⟨1127, n, 1021, 106, 12, 106⟩ := by
  have hcarries := letterEvidence_carries n []
  have hsigned := letterEvidence_signed n h []
  have htext : (chainPem letterIo letterChain).length = 106 := by decide
  have hder : (chainDer letterIo letterChain).length = 12 := by decide
  rw [List.append_nil] at hcarries hsigned
  refine ⟨chainPem letterIo letterChain, chainPem letterIo letterChain, hcarries, by decide, ?_,
    by decide +kernel, by decide +kernel, ?_⟩
  · rw [letterEvidence_length]
    decide
  · rw [letterEvidence_length, hsigned, htext, hder]

theorem letterEvidence_compresses (c : QuoteClass) (n : ℕ) (h : n ≤ 691) (tail : Bytes) (resize : Bool) :
    ∃ e₁, c.compress letterIo plainHost (letterEvidence n ++ tail) resize = (.ok (), e₁) := by
  have hlength : (letterEvidence n ++ tail).length = 1127 + tail.length := by
    rw [List.length_append, letterEvidence_length]
  have htext : (chainPem letterIo letterChain).length = 106 := by decide
  have hder : (chainDer letterIo letterChain).length = 12 := by decide
  have hsigned := letterEvidence_signatureLen n (by omega) tail
  have hcarries := letterEvidence_carries n tail
  cases c with
  | sgx =>
    have hcompress := Sgx.compress_chain plainHost letterIo_lawful _ resize 1 _
      (chainPem letterIo letterChain) letterChain hcarries (by decide) (by omega) (by omega)
      (by decide +kernel) (by decide +kernel) 94 (by rw [htext, hder])
    exact ⟨_, hcompress.trans (if_neg (by omega))⟩
  | openEnclave =>
    have hcompress := Oe.compress_chain plainHost letterIo_lawful _ resize 1 _
      (chainPem letterIo letterChain) letterChain hcarries (by decide) (by omega) (by omega)
      (by decide +kernel) (by decide +kernel) 94 (by rw [htext, hder])
    exact ⟨_, hcompress⟩

theorem compress_idempotent_sample :
    (QuoteClass.openEnclave.compress letterIo plainHost
      (QuoteClass.openEnclave.compress letterIo plainHost (letterEvidence 0) false).2 false).2 =
        (QuoteClass.openEnclave.compress letterIo plainHost (letterEvidence 0) false).2 := by
  obtain ⟨e₁, hfirst⟩ := letterEvidence_compresses .openEnclave 0 (Nat.zero_le _) [] false
  rw [List.append_nil] at hfirst
  have hidle : QuoteClass.openEnclave.SecondIdle letterIo plainHost (letterEvidence 0) 1 letterChain
      ⟨1127, 0, 1021, 106, 12, 106⟩ false :=
    ⟨fun _ => Nat.zero_le _, fun h => absurd h.1 (Nat.not_lt_zero _)⟩
  rw [hfirst]
  exact (compress_idempotent_iff letterIo plainHost letterIo_lawful .openEnclave plainHost (letterEvidence 0)
    e₁ false hfirst).2 (Or.inr ⟨1, letterChain, _, letterEvidence_measured 0 (by decide), hidle⟩)

theorem compress_twice_cuts :
    ¬ ∀ (io : CertificateIo Byte Bytes Bytes) (c : QuoteClass) (host host' : Host)
        (evidence e₁ : Bytes) (resize : Bool), io.Lawful →
        c.compress io host evidence resize = (.ok (), e₁) →
        (c.compress io host' e₁ resize).2 = e₁ := by
  intro h
  obtain ⟨e₁, hfirst⟩ := letterEvidence_compresses .sgx 691 (le_refl _) [] true
  rw [List.append_nil] at hfirst
  have hsecond := h letterIo .sgx plainHost plainHost (letterEvidence 691) e₁ true letterIo_lawful hfirst
  have hmeasured := letterEvidence_measured 691 (by decide)
  obtain hnone | ⟨authSize, chain, s, hs, hidle⟩ := (Sgx.compress_twice_iff plainHost letterIo_lawful
    plainHost (letterEvidence 691) e₁ true hfirst).1 hsecond
  · have hcarries := letterEvidence_carries 691 []
    rw [List.append_nil] at hcarries
    have hfew : leVal (sub (letterEvidence 691) (1016 + leVal (sub (letterEvidence 691) 1012 2)) 4) ≤ 5 :=
      hnone
    rw [hcarries.auth, hcarries.certSize] at hfew
    exact absurd hfew (by decide)
  · obtain ⟨-, -, rfl⟩ := hs.unique hmeasured
    unfold ChainSizes.SecondIdle at hidle
    exact absurd hidle (by decide)

/-! ### What the first compression preserves -/

section
variable {X509 Crl Pkey : Type} {io : CertificateIo X509 Crl Pkey} (host host' : Host)

/-- The certification data as the evidence holds them. -/
def rawCertificationData (evidence : Bytes) (sd : SignatureData) : Bytes :=
  readMem (mem evidence host.beyond) (sd.cdRaw + 6)
    (readLe (mem evidence host.beyond) (sd.cdRaw + 2) 4)

/-- The certification data are a PEM chain, which ends where the signature does. -/
structure PemChainAtEnd (evidence : Bytes) (sd : SignatureData) : Prop where
  pem : isPem (rawCertificationData host evidence sd) = true
  atEnd : sd.cdRaw + 6 + (rawCertificationData host evidence sd).length =
    436 + signatureLen host evidence

/-- Both pieces of evidence have the same bytes wherever the signature data point, the
certification data apart. -/
structure SameQuote (evidence e' : Bytes) (sd sd' : SignatureData) : Prop where
  quote : sub e' 0 432 = sub evidence 0 432
  quoteSignature : sd'.quoteSignature.read (mem e' host'.beyond) =
    sd.quoteSignature.read (mem evidence host.beyond)
  publicKey : sd'.publicKey.read (mem e' host'.beyond) = sd.publicKey.read (mem evidence host.beyond)
  report : sd'.report.read (mem e' host'.beyond) = sd.report.read (mem evidence host.beyond)
  reportSignature : sd'.reportSignature.read (mem e' host'.beyond) =
    sd.reportSignature.read (mem evidence host.beyond)
  authData : sd'.authData.read (mem e' host'.beyond) = sd.authData.read (mem evidence host.beyond)

/-- The loop over PEM certificates ends, and what it throws is an exception. -/
theorem pemToDer_throws (hl : io.Sound) (fuel : ℕ) (bio : Bytes) (e : Error)
    (hfuel : bio.length < fuel) (h : pemToDer io fuel bio = .error e) :
    ∃ what, e = .exception what := by
  induction fuel generalizing bio e with
  | zero => omega
  | succ fuel ih =>
    unfold pemToDer at h
    split at h
    · cases h
    · cases hread : io.readPem bio with
      | error e' =>
        rw [hread] at h
        obtain rfl := Except.error.inj h
        exact hl.readPem_throws bio _ hread
      | ok r =>
        have hshort := hl.shorter bio r.1 r.2 hread
        rw [hread] at h
        cases hders : pemToDer io fuel r.2 with
        | error e' =>
          have hsame : e' = e := by
            simpa [hders, Bind.bind, Except.bind] using h
          exact ih r.2 e (by omega) (hsame ▸ hders)
        | ok ders => simp [hders, Bind.bind, Except.bind, pure, Except.pure] at h

theorem isDer_of_isPem (data : Bytes) (h : isPem data = true) : isDer data = false := by
  simp only [isPem, Bool.and_eq_true, beq_iff_eq] at h
  simp [isDer, h.2]

theorem certificatesIn_chainPem (hl : io.Lawful) (chain : List X509) (hne : chain ≠ []) :
    certificatesIn io (chainPem io chain) = .ok chain := by
  have hfuel := length_le_flatMap io.x509Pem
    (fun c => by have h := hl.der_long c; have h' := hl.der_lt_pem c; omega) chain
  rw [certificatesIn, isDer_of_isPem _ (hl.isPem_chainPem chain hne), if_neg (by simp)]
  exact hl.read_chainPem chain _ (Nat.lt_succ_of_le hfuel)

theorem sameQuote_of_kept (evidence e' : Bytes) (authSize : ℕ) (pem pem' : Bytes)
    (hin : 1014 + authSize ≤ evidence.length) (hin' : 1014 + authSize ≤ e'.length)
    (hkept : ∀ o n, o + n ≤ 432 ∨ 436 ≤ o → o + n ≤ 1014 + authSize → sub e' o n = sub evidence o n) :
    SameQuote host host' evidence e' (placedData authSize pem) (placedData authSize pem') := by
  have hspan (o n : ℕ) (ho : 436 ≤ o) (hn : o + n ≤ 1014 + authSize) :
      Span.read ⟨o, n⟩ (mem e' host'.beyond) = Span.read ⟨o, n⟩ (mem evidence host.beyond) := by
    show readMem _ o n = readMem _ o n
    rw [readMem_eq_sub _ _ _ _ (by omega), readMem_eq_sub _ _ _ _ (by omega), hkept o n (Or.inr ho) hn]
  exact {
    quote := hkept 0 432 (by omega) (by omega)
    quoteSignature := hspan 436 64 (by omega) (by omega)
    publicKey := hspan 500 64 (by omega) (by omega)
    report := hspan 564 384 (by omega) (by omega)
    reportSignature := hspan 948 64 (by omega) (by omega)
    authData := hspan 1014 authSize (by omega) (by omega) }

variable (io)

/-- `e'` is a compressed form of the evidence: accepted, with the same quote and chain, and both
the evidence and its signature shorter by the difference of the chain's two forms. -/
def CompressedForm (evidence e' : Bytes) (sd : SignatureData) : Prop :=
  ∃ sd' chain k,
    certificatesIn io (rawCertificationData host evidence sd) = .ok chain ∧
    k + (chainDer io chain).length = (rawCertificationData host evidence sd).length ∧
    e'.length + k = evidence.length ∧ signatureLen host' e' + k = signatureLen host evidence ∧
    acceptedData io host' e' = .ok sd' ∧ SameQuote host host' evidence e' sd sd' ∧
    certificatesIn io (rawCertificationData host' e' sd') = .ok chain ∧
    certificatesIn io sd'.certificationData = certificatesIn io sd.certificationData

variable {io}

theorem rawCertificationData_placed (evidence raw pem : Bytes) (authSize : ℕ)
    (hc : Carries evidence authSize raw)
    (hinside : 1020 + authSize + raw.length ≤ evidence.length) :
    rawCertificationData host evidence (placedData authSize pem) = raw := by
  have hpos := List.length_pos_of_ne_nil hc.certPos
  have hoff : 1014 + authSize + 2 = 1016 + authSize := by omega
  have hoff' : 1014 + authSize + 6 = 1020 + authSize := by omega
  have hsize : readLe (mem evidence host.beyond) (1014 + authSize + 2) 4 = raw.length := by
    rw [hoff, readLe_eq_sub _ _ _ _ (by omega), hc.certSize]
  show readMem (mem evidence host.beyond) (1014 + authSize + 6)
    (readLe (mem evidence host.beyond) (1014 + authSize + 2) 4) = raw
  rw [hsize, hoff', readMem_eq_sub _ _ _ _ hinside, hc.cert]

theorem compressedForm_of (hl : io.Lawful) (evidence e' : Bytes) (authSize k : ℕ) (raw : Bytes)
    (chain : List X509) (hc : Carries evidence authSize raw)
    (hinside : 1020 + authSize + raw.length ≤ evidence.length)
    (hsigned : 436 + signatureLen host evidence ≤ evidence.length)
    (hne : chain ≠ []) (hchain : certificatesIn io raw = .ok chain)
    (hk : k + (chainDer io chain).length = raw.length) (hlength : e'.length + k = evidence.length)
    (hsig : signatureLen host' e' + k = signatureLen host evidence)
    (hc' : Carries e' authSize (chainDer io chain))
    (hkept : ∀ o n, o + n ≤ 432 ∨ 436 ≤ o → o + n ≤ 1014 + authSize → sub e' o n = sub evidence o n) :
    CompressedForm io host host' evidence e' (placedData authSize raw) := by
  obtain ⟨hpem', hread', -⟩ := hl.pemOf_chainDer chain hne
  have haccepted := acceptedData_of io host' e' authSize (chainDer io chain) (chainPem io chain) hc'
    (by omega) (by omega) hpem'
  have hraw := rawCertificationData_placed host evidence raw raw authSize hc hinside
  have hraw' := rawCertificationData_placed host' e' (chainDer io chain) (chainPem io chain) authSize hc'
    (by omega)
  refine ⟨placedData authSize (chainPem io chain), chain, k, ?_, ?_, hlength, hsig, haccepted, ?_, ?_, ?_⟩
  · rw [hraw, hchain]
  · rw [hraw, hk]
  · exact sameQuote_of_kept host host' evidence e' authSize raw _ (by omega) (by omega) hkept
  · rw [hraw', hread']
  · show certificatesIn io (chainPem io chain) = certificatesIn io raw
    rw [hchain, certificatesIn_chainPem hl chain hne]

theorem sgx_compressedForm (hl : io.Lawful) (evidence : Bytes) (authSize k : ℕ) (raw : Bytes)
    (chain : List X509) (hc : Carries evidence authSize raw) (hne : chain ≠ [])
    (hinside : 1020 + authSize + raw.length ≤ evidence.length)
    (hatEnd : 1020 + authSize + raw.length = 436 + signatureLen host evidence)
    (hchain : certificatesIn io raw = .ok chain)
    (hk : k + (chainDer io chain).length = raw.length) :
    CompressedForm io host host' evidence (afterCompression evidence (chainDer io chain) authSize
      (signatureLen host evidence) k (evidence.length - k)) (placedData authSize raw) := by
  have hder := (hl.pemOf_chainDer chain hne).2.2
  have hderne : chainDer io chain ≠ [] := List.ne_nil_of_length_pos (by omega)
  have hcut : evidence.length - k ≤ evidence.length := Nat.sub_le _ _
  have hfield : signatureLen host' evidence = signatureLen host evidence := by
    rw [signatureLen_eq host evidence (by omega), signatureLen_eq host' evidence (by omega)]
  have hsig := @signatureLen_afterCompression host' evidence (chainDer io chain) authSize _ k
    (evidence.length - k) (by omega) hcut hfield
  have hkl : k < signatureLen host evidence := by omega
  rw [if_pos hkl] at hsig
  refine compressedForm_of host host' hl evidence _ authSize k raw chain hc hinside (by omega) hne hchain
    hk ?_ (by omega) (carries_afterCompression hc hderne (by omega) (by omega) hcut) ?_
  · rw [afterCompression_length hcut]
    omega
  · intro o n hsigned hfront
    exact sub_afterCompression o n (by omega) hsigned (Or.inl (by omega))

theorem oe_compressedForm (hl : io.Lawful) (evidence : Bytes) (authSize k : ℕ) (raw : Bytes)
    (chain : List X509) (hc : Carries evidence authSize raw) (hne : chain ≠ [])
    (hinside : 1020 + authSize + raw.length ≤ evidence.length)
    (hatEnd : 1020 + authSize + raw.length = 436 + signatureLen host evidence)
    (hchain : certificatesIn io raw = .ok chain)
    (hk : k + (chainDer io chain).length = raw.length) :
    CompressedForm io host host' evidence (Oe.moved (writeChain evidence (1014 + authSize)
      (chainDer io chain)) (signatureLen host evidence) k true) (placedData authSize raw) := by
  have hder := (hl.pemOf_chainDer chain hne).2.2
  have hderne : chainDer io chain ≠ [] := List.ne_nil_of_length_pos (by omega)
  have hwlen := writeChain_length evidence (1014 + authSize) (chainDer io chain)
  have hkl : k < signatureLen host evidence := by omega
  have hlt : signatureLen host evidence < 256 ^ 4 := readLe_lt _ _ _
  have hlength := Oe.moved_length (writeChain evidence (1014 + authSize) (chainDer io chain))
    (signatureLen host evidence) k true
  rw [if_pos rfl, hwlen] at hlength
  have hwritten : Carries (writeChain evidence (1014 + authSize) (chainDer io chain)) authSize
      (chainDer io chain) := by
    rw [Oe.writeChain_eq_after]
    exact carries_afterCompression hc hderne (by omega) (by omega) (le_refl _)
  have hsig : signatureLen host' (Oe.moved (writeChain evidence (1014 + authSize) (chainDer io chain))
      (signatureLen host evidence) k true) = signatureLen host evidence - k := by
    rw [signatureLen_eq host' _ (by omega), Oe.sub_moved_signatureLen _ _ _ _ hkl (by omega),
      leVal_leBytes _ _ (by omega)]
  refine compressedForm_of host host' hl evidence _ authSize k raw chain hc hinside (by omega) hne hchain
    hk (by omega) (by omega)
    (Oe.carries_moved hwritten _ k true (by omega) (by omega) (by omega)) ?_
  intro o n hsigned hfront
  rw [Oe.sub_moved _ _ _ _ o n (by omega) (by omega) hsigned (by omega), Oe.writeChain_eq_after]
  exact sub_afterCompression o n (by omega) hsigned (Or.inl (by omega))

theorem splitEvidence_moved (evidence der : Bytes) (authSize k : ℕ)
    (hfits : 1020 + authSize + der.length + k = 436 + signatureLen host evidence)
    (hsigned : 436 + signatureLen host evidence ≤ evidence.length) :
    (Oe.splitEvidence host' (Oe.moved (writeChain evidence (1014 + authSize) der)
      (signatureLen host evidence) k true)).2 = (Oe.splitEvidence host evidence).2 := by
  obtain ⟨len, hlen⟩ : ∃ len, len = signatureLen host evidence := ⟨_, rfl⟩
  rw [← hlen] at hfits hsigned ⊢
  have hwlen := writeChain_length evidence (1014 + authSize) der
  have hlt : len < 256 ^ 4 := hlen ▸ readLe_lt _ _ _
  have hlength := Oe.moved_length (writeChain evidence (1014 + authSize) der) len k true
  rw [if_pos rfl, hwlen] at hlength
  have hsig : signatureLen host' (Oe.moved (writeChain evidence (1014 + authSize) der) len k true) =
      len - k := by
    rw [signatureLen_eq host' _ (by omega), Oe.sub_moved_signatureLen _ _ _ _ (by omega) (by omega),
      leVal_leBytes _ _ (by omega)]
  have htail := Oe.sub_moved_tail (writeChain evidence (1014 + authSize) der) len k true (by omega)
    (by omega)
  have hkept : (writeChain evidence (1014 + authSize) der).drop (436 + len) =
      evidence.drop (436 + len) := by
    have hsame := @sub_afterCompression evidence der authSize 0 0 evidence.length (436 + len)
      (evidence.length - (436 + len)) (by omega) (by omega) (Or.inr (by omega))
    rw [← Oe.writeChain_eq_after] at hsame
    unfold sub at hsame
    rw [List.take_of_length_le (by rw [List.length_drop]; omega),
      List.take_of_length_le (by rw [List.length_drop])] at hsame
    exact hsame
  have hdrop : (Oe.moved (writeChain evidence (1014 + authSize) der) len k true).drop (436 + (len - k)) =
      evidence.drop (436 + len) := by
    rw [← hkept, ← htail, sub, List.take_of_length_le (by rw [List.length_drop]; omega)]
    congr 1
    omega
  have hsplit (h : Host) (e : Bytes) : (Oe.splitEvidence h e).2 =
      if 436 + signatureLen h e < e.length then e.drop (436 + signatureLen h e) else [] := by
    show (if 436 + signatureLen h e < e.length then _ else _ : Bytes × Bytes).2 = _
    split <;> rfl
  rw [hsplit, hsplit, hsig, ← hlen, hdrop]
  by_cases hmore : 436 + len < evidence.length
  · rw [if_pos hmore, if_pos (by omega)]
  · rw [if_neg hmore, if_neg (by omega)]

theorem compress_preserves_meaning (hl : io.Lawful) (c : QuoteClass) (evidence : Bytes)
    (sd : SignatureData) (haccepted : acceptedData io host evidence = .ok sd)
    (hend : PemChainAtEnd host evidence sd) :
    (∃ what, c.compress io host evidence true = (.error (.exception what), evidence)) ∨
      ∃ e', c.compress io host evidence true = (.ok (), e') ∧
        CompressedForm io host host' evidence e' sd ∧
        (c = .openEnclave → (Oe.splitEvidence host' e').2 = (Oe.splitEvidence host evidence).2) := by
  obtain ⟨authSize, raw, pem, hc, hsigned, hinside, hpem, rfl⟩ :=
    acceptedData_ok io host evidence sd haccepted
  have hraw := rawCertificationData_placed host evidence raw pem authSize hc hinside
  have hispem : isPem raw = true := hraw ▸ hend.pem
  have hatEnd : 1020 + authSize + raw.length = 436 + signatureLen host evidence := by
    have h : 1014 + authSize + 6 + _ = _ := hend.atEnd
    rw [hraw] at h
    omega
  have hlong : 5 < raw.length := by
    simp only [isPem, Bool.and_eq_true, decide_eq_true_eq] at hispem
    exact hispem.1
  have hplain : pem = raw := by
    rw [pemOf, isDer_of_isPem raw hispem, if_neg (by simp)] at hpem
    exact ((pure_ok _ _).1 hpem).symm
  subst hplain
  by_cases hfound : ∃ chain, certificatesIn io pem = .ok chain
  · obtain ⟨chain, hchain⟩ := hfound
    obtain ⟨hne, hfits, hshort⟩ := certificatesIn_fits hl pem pem chain hlong hpem hchain
    obtain ⟨k, hk⟩ : ∃ k, k = pem.length - (chainDer io chain).length := ⟨_, rfl⟩
    have hkl : k < signatureLen host evidence := by omega
    right
    cases c with
    | sgx =>
      refine ⟨_, ?_, sgx_compressedForm host host' hl evidence authSize k pem chain hc hne hinside hatEnd
        hchain (by omega), fun h => QuoteClass.noConfusion h⟩
      show Sgx.compressPckCertificateChain io host evidence true = _
      have hwrap : ¬ (true = true ∧ evidence.length < k) := fun h => absurd h.2 (by omega)
      rw [Sgx.compress_chain host hl evidence true authSize pem pem chain hc hlong hsigned hinside hpem
        hchain k hk, if_neg hwrap]
      rfl
    | openEnclave =>
      refine ⟨_, ?_, oe_compressedForm host host' hl evidence authSize k pem chain hc hne hinside hatEnd
        hchain (by omega), fun _ => splitEvidence_moved host host' evidence _ authSize k (by omega)
        hsigned⟩
      show Oe.compressPckCertificateChain io host evidence true = _
      rw [Oe.compress_chain host hl evidence true authSize pem pem chain hc hlong hsigned hinside hpem
        hchain k hk, if_pos hkl]
  · left
    have hnone : ∀ chain, certificatesIn io pem ≠ .ok chain := fun chain h => hfound ⟨chain, h⟩
    obtain ⟨e, hder, hsgx⟩ := Sgx.compress_unreadable host hl.toSound evidence true authSize pem pem hc hlong
      hsigned hinside hpem hnone
    obtain ⟨what, rfl⟩ := pemToDer_throws hl.toSound _ _ e (Nat.lt_succ_self _) hder
    refine ⟨what, ?_⟩
    cases c with
    | sgx => exact hsgx
    | openEnclave =>
      obtain ⟨e', hder', hoe⟩ := (Oe.compress_no_chain host hl.toSound evidence true authSize pem pem hc hsigned
        hinside hpem (fun _ => hnone)).2 hlong
      rw [hder] at hder'
      obtain rfl := Except.error.inj hder'
      exact hoe

end

def claimsEvidence : Bytes := letterEvidence 691 ++ text "claims"

theorem compress_preserves_meaning_sample :
    ∃ e', QuoteClass.openEnclave.compress letterIo plainHost claimsEvidence true = (.ok (), e') ∧
      CompressedForm letterIo plainHost plainHost claimsEvidence e'
        (placedData 1 (chainPem letterIo letterChain)) ∧
      (Oe.splitEvidence plainHost e').2 = text "claims" := by
  have haccepted : acceptedData letterIo plainHost claimsEvidence =
      .ok (placedData 1 (chainPem letterIo letterChain)) :=
    acceptedData_of letterIo plainHost _ 1 _ _ (letterEvidence_carries 691 (text "claims"))
      (by decide +kernel) (by decide +kernel) (by decide +kernel)
  have hend : PemChainAtEnd plainHost claimsEvidence (placedData 1 (chainPem letterIo letterChain)) :=
    ⟨by decide +kernel, by decide +kernel⟩
  obtain ⟨e₁, hok⟩ := letterEvidence_compresses .openEnclave 691 (le_refl _) (text "claims") true
  have hsplit : (Oe.splitEvidence plainHost claimsEvidence).2 = text "claims" := by decide +kernel
  obtain ⟨what, hthrows⟩ | ⟨e', hcompress, hform, hclaims⟩ :=
    compress_preserves_meaning plainHost plainHost letterIo_lawful .openEnclave claimsEvidence _ haccepted hend
  · have hboth := hthrows.symm.trans hok
    cases hboth
  · exact ⟨e', hcompress, hform, (hclaims rfl).trans hsplit⟩

end Ravl
