import Ravl.Attestation
import Ravl.Sgx.Quote

/-!
# Compression of the PCK certificate chain (sgx_impl.h:1075-1111, 1448-1477)

A PEM chain in the certification data is written over with its DER form, and the sizes around
it are reduced. Differences of sizes are integers here: a negative one is a `size_t` that
wrapped around.
-/

namespace Ravl.Sgx
open ByteLib FallibleLib

/-- OpenSSL with what the compression needs besides. -/
structure CertificateIo (X509 Crl Pkey : Type) extends OpenSsl X509 Crl Pkey where
  /-- PEM_read_bio_X509: the certificate and what is left in the BIO -/
  readPem : Bytes → Result (X509 × Bytes)
  /-- i2d_X509 -/
  x509Der : X509 → Bytes

section
variable {X509 Crl Pkey : Type} (io : CertificateIo X509 Crl Pkey) (host : Host)

/-! ### The source -/

/-- The loop that turns PEM certificates into DER (sgx_impl.h:1089-1095) -/
def pemToDer : ℕ → Bytes → Result Bytes
  | 0, _ => throw (.undefined "endless loop")
  | fuel + 1, bio =>
    if bio.length ≤ 1 then pure []
    else do
      let (x509, rest) ← io.readPem bio
      let ders ← pemToDer fuel rest
      pure (io.x509Der x509 ++ ders)

/-- `evidence.resize(newSize)`; a size that wrapped around is beyond `max_size`, and a larger
vector may move away from under the quote pointer. -/
def resizeTo (evidence : Bytes) (newSize : ℤ) : Result Unit × Bytes :=
  if newSize < 0 then (.error (.exception "vector::_M_default_append"), evidence)
  else if newSize ≤ evidence.length then (.ok (), evidence.take newSize.toNat)
  else (.error (.undefined "quote pointer into a vector that has moved"), evidence)

/-- `strncmp((const char*)data, "-----", 5)` of more than five bytes is 0. -/
def isPem (data : Bytes) : Bool := 5 < data.length && sub data 0 5 == text "-----"

/-- The certificates and their size written into the evidence. -/
def writeChain (evidence : Bytes) (cdRaw : ℕ) (der : Bytes) : Bytes :=
  patch (patch evidence (cdRaw + 6) der) (cdRaw + 2) (leBytes 4 der.length)

/-- `SignatureData::compress_pck_certificate_chain`: the difference of the sizes, and the
evidence as it is left. -/
def SignatureData.compress (sd : SignatureData) (evidence : Bytes) (resizeEvidence : Bool) :
    Result ℤ × Bytes :=
  if evidence = [] then (.error (.exception "empty evidence"), evidence)
  else if isPem sd.certificationData then
    match pemToDer io (sd.certificationData.length + 1) sd.certificationData with
    | .error e => (.error e, evidence)
    | .ok der =>
      if evidence.length < sd.cdRaw + 6 + der.length then
        (.error (.undefined "write behind the evidence"), evidence)
      else
        let written := writeChain evidence sd.cdRaw der
        let r : ℤ := (sd.certificationData.length : ℤ) - der.length
        if resizeEvidence then
          let resized := resizeTo written ((written.length : ℤ) - r)
          (resized.1.map fun _ => r, resized.2)
        else (.ok r, written)
  else (.ok 0, evidence)

/-- The checks before the compression, the same as those of `parse_quote`, and the
signature data. -/
def acceptedData (evidence : Bytes) : Result SignatureData := do
  let m := mem evidence host.beyond
  let _ ← parseQuote m evidence.length
  SignatureData.parse io.toOpenSsl m evidence.length

def signatureLen (evidence : Bytes) : ℕ := readLe (mem evidence host.beyond) signatureLenOff 4

/-- `sgx::Attestation::compress_pck_certificate_chain`. The length is read again through the
quote pointer, from memory that was not written to. -/
def compressPckCertificateChain (evidence : Bytes) (resizeEvidence : Bool) :
    Result Unit × Bytes :=
  match acceptedData io host evidence with
  | .error e => (.error e, evidence)
  | .ok sd =>
    match sd.compress io evidence resizeEvidence with
    | (.error e, changed) => (.error e, changed)
    | (.ok k, changed) =>
      let len := signatureLen host evidence
      if 0 < k ∧ k < len then
        (.ok (), patch changed signatureLenOff (leBytes 4 (len - k.toNat)))
      else (.ok (), changed)

/-! ### Chains -/

/-- The certificates a loop over a BIO reads. -/
def readChain (read : Bytes → Result (X509 × Bytes)) : ℕ → Bytes → Result (List X509)
  | 0, _ => throw (.undefined "endless loop")
  | fuel + 1, bio =>
    if bio.length ≤ 1 then pure []
    else do
      let (x509, rest) ← read bio
      let chain ← readChain read fuel rest
      pure (x509 :: chain)

def chainPem (chain : List X509) : Bytes := chain.flatMap io.x509Pem
def chainDer (chain : List X509) : Bytes := chain.flatMap io.x509Der

theorem pemToDer_ok_iff (fuel : ℕ) (bio der : Bytes) :
    pemToDer io fuel bio = .ok der ↔
      ∃ chain, readChain io.readPem fuel bio = .ok chain ∧ chainDer io chain = der := by
  induction fuel generalizing bio der with
  | zero => simp [pemToDer, readChain, throw_ok]
  | succ fuel ih =>
    unfold pemToDer readChain
    by_cases hend : bio.length ≤ 1
    · simp only [if_pos hend, pure_ok]
      constructor
      · intro heq
        subst heq
        exact ⟨[], rfl, rfl⟩
      · rintro ⟨_, rfl, h⟩
        exact h
    · simp only [if_neg hend, bind_ok, pure_ok, ih]
      constructor
      · rintro ⟨⟨c, rest⟩, hread, ders, ⟨chain, hchain, rfl⟩, rfl⟩
        exact ⟨c :: chain, ⟨⟨c, rest⟩, hread, chain, hchain, rfl⟩, rfl⟩
      · rintro ⟨_, ⟨⟨c, rest⟩, hread, chain, hchain, rfl⟩, rfl⟩
        exact ⟨⟨c, rest⟩, hread, _, ⟨chain, hchain, rfl⟩, rfl⟩

theorem derToPem_ok_iff (fuel : ℕ) (bio pem : Bytes) :
    derToPem io.toOpenSsl fuel bio = .ok pem ↔
      ∃ chain, readChain io.derX509 fuel bio = .ok chain ∧ chainPem io chain = pem := by
  induction fuel generalizing bio pem with
  | zero => simp [derToPem, readChain, throw_ok]
  | succ fuel ih =>
    unfold derToPem readChain
    by_cases hend : bio.length ≤ 1
    · simp only [if_pos hend, pure_ok]
      constructor
      · intro heq
        subst heq
        exact ⟨[], rfl, rfl⟩
      · rintro ⟨_, rfl, h⟩
        exact h
    · simp only [if_neg hend, bind_ok, pure_ok, ih]
      constructor
      · rintro ⟨⟨c, rest⟩, hread, pems, ⟨chain, hchain, rfl⟩, rfl⟩
        exact ⟨c :: chain, ⟨⟨c, rest⟩, hread, chain, hchain, rfl⟩, rfl⟩
      · rintro ⟨_, ⟨⟨c, rest⟩, hread, chain, hchain, rfl⟩, rfl⟩
        exact ⟨⟨c, rest⟩, hread, _, ⟨chain, hchain, rfl⟩, rfl⟩

/-- What OpenSSL's conversions do: PEM and DER that it writes for a certificate are read back,
also in front of further ones, a certificate that is read takes up room, and its DER form is
shorter than any PEM text of it. -/
structure CertificateIo.Sound : Prop where
  readPem (c : X509) (rest : Bytes) : io.readPem (io.x509Pem c ++ rest) = .ok (c, rest)
  readDer (c : X509) (rest : Bytes) : io.derX509 (io.x509Der c ++ rest) = .ok (c, rest)
  shorter (bio : Bytes) (c : X509) (rest : Bytes) (h : io.readPem bio = .ok (c, rest)) :
    (io.x509Der c).length + rest.length < bio.length
  consumes (bio : Bytes) (c : X509) (rest : Bytes) (h : io.derX509 bio = .ok (c, rest)) :
    rest.length < bio.length
  /-- PEM_read_bio_X509 fails with an exception. -/
  readPem_throws (bio : Bytes) (e : Error) (h : io.readPem bio = .error e) :
    ∃ what, e = .exception what
  /-- a certificate is an ASN.1 sequence -/
  derStart (c : X509) : ∃ t, io.x509Der c = 0x30 :: t ∧ 5 ≤ t.length
  pemStart (c : X509) : ∃ t, io.x509Pem c = text "-----" ++ t

/-- The conversions are mutually inverse. d2i_X509 alone does not promise it: it reads BER too,
which i2d_X509 writes as DER again. -/
structure CertificateIo.Lawful : Prop extends io.Sound where
  derOnly (bio : Bytes) (c : X509) (rest : Bytes) (h : io.derX509 bio = .ok (c, rest)) :
    bio = io.x509Der c ++ rest

variable {io}

theorem readChain_flatMap (read : Bytes → Result (X509 × Bytes)) (enc : X509 → Bytes)
    (hread : ∀ c rest, read (enc c ++ rest) = .ok (c, rest)) (hlong : ∀ c, 2 ≤ (enc c).length)
    (chain : List X509) (fuel : ℕ) (hfuel : chain.length < fuel) :
    readChain read fuel (chain.flatMap enc) = .ok chain := by
  induction chain generalizing fuel with
  | nil =>
    obtain ⟨n, rfl⟩ := Nat.exists_eq_add_of_lt hfuel
    rfl
  | cons c chain ih =>
    obtain ⟨n, rfl⟩ : ∃ n, fuel = n + 1 := ⟨fuel - 1, by omega⟩
    have hc := hlong c
    have hmore : ¬ ((c :: chain).flatMap enc).length ≤ 1 := by
      rw [List.flatMap_cons, List.length_append]
      omega
    rw [readChain, if_neg hmore, List.flatMap_cons, hread]
    show (readChain read n (chain.flatMap enc) >>= _) = _
    rw [ih n (by rw [List.length_cons] at hfuel; omega)]
    rfl

theorem length_le_flatMap (enc : X509 → Bytes) (hlong : ∀ c, 2 ≤ (enc c).length)
    (chain : List X509) : chain.length ≤ (chain.flatMap enc).length := by
  induction chain with
  | nil => simp
  | cons c chain ih =>
    have hc := hlong c
    rw [List.flatMap_cons, List.length_append, List.length_cons]
    omega

/-- Data that are not at an end hold a certificate. -/
theorem readChain_ne_nil (read : Bytes → Result (X509 × Bytes)) (fuel : ℕ) (bio : Bytes)
    (chain : List X509) (hmore : 1 < bio.length) (h : readChain read fuel bio = .ok chain) :
    chain ≠ [] := by
  cases fuel with
  | zero => simp [readChain, throw_ok] at h
  | succ fuel =>
    rw [readChain, if_neg (by omega)] at h
    simp only [bind_ok, pure_ok] at h
    obtain ⟨_, -, chain', -, rfl⟩ := h
    exact List.cons_ne_nil _ _

namespace CertificateIo.Sound
variable (hl : io.Sound)
include hl

theorem der_long (c : X509) : 6 ≤ (io.x509Der c).length := by
  obtain ⟨t, ht, hlen⟩ := hl.derStart c
  rw [ht, List.length_cons]
  omega

theorem der_lt_pem (c : X509) : (io.x509Der c).length < (io.x509Pem c).length := by
  have hread := hl.readPem c []
  rw [List.append_nil] at hread
  exact hl.shorter _ c [] hread

theorem chainDer_le (fuel : ℕ) (bio : Bytes) (chain : List X509)
    (h : readChain io.readPem fuel bio = .ok chain) :
    (chainDer io chain).length ≤ bio.length ∧
      (1 < bio.length → chain ≠ [] ∧ (chainDer io chain).length < bio.length) := by
  induction fuel generalizing bio chain with
  | zero => simp [readChain, throw_ok] at h
  | succ fuel ih =>
    unfold readChain at h
    split at h
    next hend =>
      obtain rfl := (pure_ok _ _).1 h
      exact ⟨Nat.zero_le _, fun hmore => by omega⟩
    next =>
      simp only [bind_ok, pure_ok] at h
      obtain ⟨⟨c, rest⟩, hread, chain', hchain', rfl⟩ := h
      have hshort := hl.shorter bio c rest hread
      have hrest := (ih rest chain' hchain').1
      have hsum : (chainDer io (c :: chain')).length =
          (io.x509Der c).length + (chainDer io chain').length := by
        rw [chainDer, List.flatMap_cons, List.length_append]
        rfl
      rw [hsum]
      exact ⟨by omega, fun _ => ⟨List.cons_ne_nil _ _, by omega⟩⟩

theorem read_chainDer (chain : List X509) (fuel : ℕ) (hfuel : chain.length < fuel) :
    readChain io.derX509 fuel (chainDer io chain) = .ok chain :=
  readChain_flatMap io.derX509 io.x509Der hl.readDer
    (fun c => by have h := hl.der_long c; omega) chain fuel hfuel

theorem read_chainPem (chain : List X509) (fuel : ℕ) (hfuel : chain.length < fuel) :
    readChain io.readPem fuel (chainPem io chain) = .ok chain :=
  readChain_flatMap io.readPem io.x509Pem hl.readPem
    (fun c => by have h := hl.der_long c; have h' := hl.der_lt_pem c; omega) chain fuel hfuel

theorem isDer_chainDer (chain : List X509) (hne : chain ≠ []) :
    isDer (chainDer io chain) = true := by
  obtain ⟨c, cs, rfl⟩ := List.exists_cons_of_ne_nil hne
  obtain ⟨t, ht, hlen⟩ := hl.derStart c
  have hform : chainDer io (c :: cs) = 0x30 :: (t ++ chainDer io cs) := by
    rw [chainDer, List.flatMap_cons, ht]
    rfl
  have hlong : 5 < (chainDer io (c :: cs)).length := by
    rw [hform, List.length_cons, List.length_append]
    omega
  have hfirst : sub (chainDer io (c :: cs)) 0 5 ≠ text "-----" := by
    rw [hform]
    intro h
    have hhead := congrArg List.head? h
    simp only [sub, List.drop_zero, List.take_succ_cons, List.head?_cons] at hhead
    exact absurd (Option.some.inj hhead) (by decide)
  simp only [isDer, hlong, decide_true, Bool.true_and, bne_iff_ne, ne_eq]
  exact hfirst

theorem chainDer_lt_chainPem (chain : List X509) (hne : chain ≠ []) :
    (chainDer io chain).length < (chainPem io chain).length := by
  have hle (cs : List X509) : (chainDer io cs).length ≤ (chainPem io cs).length := by
    induction cs with
    | nil => exact Nat.le_refl _
    | cons c cs ih =>
      have hc := hl.der_lt_pem c
      simp only [chainDer, chainPem, List.flatMap_cons, List.length_append] at ih ⊢
      omega
  obtain ⟨c, cs, rfl⟩ := List.exists_cons_of_ne_nil hne
  have hc := hl.der_lt_pem c
  have hcs := hle cs
  simp only [chainDer, chainPem, List.flatMap_cons, List.length_append] at hcs ⊢
  omega

theorem isPem_chainPem (chain : List X509) (hne : chain ≠ []) :
    isPem (chainPem io chain) = true := by
  obtain ⟨c, cs, rfl⟩ := List.exists_cons_of_ne_nil hne
  obtain ⟨t, ht⟩ := hl.pemStart c
  have hshort := hl.der_lt_pem c
  have hder := hl.der_long c
  have hlong : 5 < (chainPem io (c :: cs)).length := by
    rw [chainPem, List.flatMap_cons, List.length_append]
    omega
  have hfirst : sub (chainPem io (c :: cs)) 0 5 = text "-----" := by
    rw [chainPem, List.flatMap_cons, ht, List.append_assoc]
    exact sub_middle [] (text "-----") _ 0 5 rfl rfl
  simp only [isPem, hlong, hfirst, decide_true, beq_self_eq_true, Bool.and_self]

end CertificateIo.Sound

theorem CertificateIo.Lawful.chainDer_of_readChain (hl : io.Lawful) (fuel : ℕ) (bio : Bytes) (chain : List X509)
    (h : readChain io.derX509 fuel bio = .ok chain) :
    ∃ rest, bio = chainDer io chain ++ rest ∧ rest.length ≤ 1 := by
  induction fuel generalizing bio chain with
  | zero => simp [readChain, throw_ok] at h
  | succ fuel ih =>
    unfold readChain at h
    split at h
    next hend =>
      obtain rfl := (pure_ok _ _).1 h
      exact ⟨bio, rfl, hend⟩
    next =>
      simp only [bind_ok, pure_ok] at h
      obtain ⟨⟨c, rest⟩, hread, chain', hchain', rfl⟩ := h
      obtain ⟨last, hlast, hlen⟩ := ih rest chain' hchain'
      refine ⟨last, ?_, hlen⟩
      rw [hl.derOnly bio c rest hread, hlast, chainDer, chainDer, List.flatMap_cons,
        List.append_assoc]

variable (io)

/-- The certificates of certification data in either form. -/
def certificatesIn (data : Bytes) : Result (List X509) :=
  readChain (if isDer data then io.derX509 else io.readPem) (data.length + 1) data

variable {io}

theorem pemOf_chain (hl : io.Sound) (raw pem : Bytes) (hlong : 5 < raw.length)
    (h : pemOf io.toOpenSsl raw = .ok pem) :
    isPem pem = true ∧ ∀ der, pemToDer io (pem.length + 1) pem = .ok der ↔
      ∃ chain, certificatesIn io raw = .ok chain ∧ chainDer io chain = der := by
  unfold pemOf at h
  unfold certificatesIn
  cases hder : isDer raw with
  | true =>
    rw [hder, if_pos rfl] at h
    obtain ⟨chain, hchain, rfl⟩ := (derToPem_ok_iff io _ _ _).1 h
    have hne := readChain_ne_nil _ _ _ _ (by omega) hchain
    refine ⟨hl.isPem_chainPem chain hne, fun der => ?_⟩
    have hfuel := length_le_flatMap io.x509Pem
      (fun c => by have h := hl.der_long c; have h' := hl.der_lt_pem c; omega) chain
    have hback := hl.read_chainPem chain ((chainPem io chain).length + 1) (by
      show chain.length < (chain.flatMap io.x509Pem).length + 1
      omega)
    rw [pemToDer_ok_iff, hback, if_pos rfl, hchain]
  | false =>
    rw [hder, if_neg (by simp)] at h
    obtain rfl := (pure_ok _ _).1 h
    have hstart : sub raw 0 5 = text "-----" := by
      simpa [isDer, hlong] using hder
    refine ⟨by simp [isPem, hlong, hstart], fun der => ?_⟩
    rw [pemToDer_ok_iff, if_neg (by simp)]

/-- The chain is there, and its DER form is shorter than the PEM copy. -/
theorem certificatesIn_shorter (hl : io.Sound) (raw pem : Bytes) (chain : List X509)
    (hlong : 5 < raw.length) (hpem : pemOf io.toOpenSsl raw = .ok pem)
    (h : certificatesIn io raw = .ok chain) :
    chain ≠ [] ∧ (chainDer io chain).length < pem.length := by
  unfold certificatesIn at h
  unfold pemOf at hpem
  cases hder : isDer raw with
  | true =>
    rw [hder, if_pos rfl] at h hpem
    obtain ⟨chain', hchain', rfl⟩ := (derToPem_ok_iff io _ _ _).1 hpem
    rw [h] at hchain'
    obtain rfl := Except.ok.inj hchain'
    have hne := readChain_ne_nil _ _ _ _ (by omega) h
    exact ⟨hne, hl.chainDer_lt_chainPem chain hne⟩
  | false =>
    rw [hder, if_neg (by simp)] at h hpem
    obtain rfl := (pure_ok _ _).1 hpem
    exact (hl.chainDer_le _ _ _ h).2 (by omega)

/-- The DER form of a PEM chain fits where the chain was. -/
theorem certificatesIn_pem_fits (hl : io.Sound) (raw : Bytes) (chain : List X509)
    (hpem : isDer raw = false) (h : certificatesIn io raw = .ok chain) :
    (chainDer io chain).length ≤ raw.length := by
  rw [certificatesIn, hpem, if_neg (by simp)] at h
  exact (hl.chainDer_le _ _ _ h).1

theorem certificatesIn_fits (hl : io.Lawful) (raw pem : Bytes) (chain : List X509)
    (hlong : 5 < raw.length) (hpem : pemOf io.toOpenSsl raw = .ok pem)
    (h : certificatesIn io raw = .ok chain) :
    chain ≠ [] ∧ (chainDer io chain).length ≤ raw.length ∧
      (chainDer io chain).length < pem.length := by
  obtain ⟨hne, hshort⟩ := certificatesIn_shorter hl.toSound raw pem chain hlong hpem h
  refine ⟨hne, ?_, hshort⟩
  cases hder : isDer raw with
  | true =>
    rw [certificatesIn, hder, if_pos rfl] at h
    obtain ⟨rest, hrest, -⟩ := hl.chainDer_of_readChain _ _ _ h
    rw [hrest, List.length_append]
    omega
  | false => exact certificatesIn_pem_fits hl.toSound raw chain hder h

/-! ### What the signature data are read from -/

theorem signatureLen_eq (evidence : Bytes) (h : 436 ≤ evidence.length) :
    signatureLen host evidence = leVal (sub evidence 432 4) :=
  readLe_eq_sub evidence host.beyond 432 4 h

variable (io)

theorem acceptedData_ok (evidence : Bytes) (sd : SignatureData)
    (h : acceptedData io host evidence = .ok sd) :
    ∃ authSize raw pem, Carries evidence authSize raw ∧
      436 + signatureLen host evidence ≤ evidence.length ∧
      1020 + authSize + raw.length ≤ evidence.length ∧
      pemOf io.toOpenSsl raw = .ok pem ∧ sd = placedData authSize pem := by
  simp only [acceptedData, bind_ok] at h
  obtain ⟨quote, hquote, hsd⟩ := h
  obtain ⟨-, hsize, hversion, htype⟩ := parseQuote_ok _ _ _ hquote
  have hp := SignatureData.parse_ok _ _ _ _ hsd
  have hlen : 436 + signatureLen host evidence ≤ evidence.length := by
    simp only [parseQuote, bind_ok, refuse_ok] at hquote
    obtain ⟨_, hnot, -⟩ := hquote
    exact not_lt.1 hnot
  have hcd := hp.cdRaw
  have hinside := hp.inside
  have hauth : readLe (mem evidence host.beyond) 1012 2 = leVal (sub evidence 1012 2) :=
    readLe_eq_sub _ _ _ _ (by omega)
  have hcdRaw : sd.cdRaw = 1014 + leVal (sub evidence 1012 2) := by rw [hcd, hauth]
  have hcertSize : readLe (mem evidence host.beyond) (sd.cdRaw + 2) 4 =
      leVal (sub evidence (1016 + leVal (sub evidence 1012 2)) 4) := by
    rw [readLe_eq_sub _ _ _ _ (by omega)]
    congr 2
    omega
  have hraw : readMem (mem evidence host.beyond) (sd.cdRaw + 6)
      (readLe (mem evidence host.beyond) (sd.cdRaw + 2) 4) =
        sub evidence (sd.cdRaw + 6) (readLe (mem evidence host.beyond) (sd.cdRaw + 2) 4) :=
    readMem_eq_sub _ _ _ _ hinside
  have hrawLen := sub_length evidence (sd.cdRaw + 6)
    (readLe (mem evidence host.beyond) (sd.cdRaw + 2) 4) hinside
  refine ⟨leVal (sub evidence 1012 2), _, sd.certificationData, ⟨?_, ?_, rfl, ?_, ?_, ?_, ?_, ?_⟩,
    hlen, ?_, hraw ▸ hp.certificationData, ?_⟩
  · rw [← readLe_eq_sub evidence host.beyond _ _ (by omega)]
    exact hversion
  · rw [← readLe_eq_sub evidence host.beyond _ _ (by omega)]
    exact htype
  · rw [← hauth]
    exact hp.authSize
  · rw [← hcdRaw, ← readLe_eq_sub evidence host.beyond _ _ (by omega)]
    exact hp.certType
  · rw [hrawLen, hcertSize]
  · intro hnil
    have hpos := hp.certSize
    rw [hnil] at hrawLen
    rw [← hrawLen] at hpos
    exact absurd hpos (by simp)
  · rw [hrawLen]
    congr 1
    omega
  · rw [hrawLen]
    omega
  · cases sd with
    | mk quoteSignature publicKey report reportSignature reportData authData cdRaw certificationData =>
      have h1 := hp.quoteSignature
      have h2 := hp.publicKey
      have h3 := hp.report
      have h4 := hp.reportSignature
      have h5 := hp.reportData
      have h6 := hp.authData
      simp only at h1 h2 h3 h4 h5 h6 hcdRaw
      rw [h1, h2, h3, h4, h5, h6, hcdRaw, hauth]
      rfl

theorem acceptedData_of (evidence : Bytes) (authSize : ℕ) (raw pem : Bytes)
    (hc : Carries evidence authSize raw)
    (hlen : 436 + signatureLen host evidence ≤ evidence.length)
    (hinside : 1020 + authSize + raw.length ≤ evidence.length)
    (hpem : pemOf io.toOpenSsl raw = .ok pem) :
    acceptedData io host evidence = .ok (placedData authSize pem) := by
  simp only [acceptedData, bind_ok]
  exact ⟨_, parseQuote_of hc host.beyond hlen,
    SignatureData.parse_of io.toOpenSsl hc host.beyond hinside pem hpem⟩

/-! ### One compression -/

/-- The signature's length reduced by `k`, if it is longer than that. -/
def shortenSignature (evidence : Bytes) (len k : ℕ) : Bytes :=
  if k < len then patch evidence signatureLenOff (leBytes 4 (len - k)) else evidence

theorem shortenSignature_length (evidence : Bytes) (len k : ℕ) :
    (shortenSignature evidence len k).length = evidence.length := by
  unfold shortenSignature
  split
  · exact patch_length _ _ _
  · rfl

theorem writeChain_length (evidence : Bytes) (cdRaw : ℕ) (der : Bytes) :
    (writeChain evidence cdRaw der).length = evidence.length := by
  rw [writeChain, patch_length, patch_length]

variable {io}

theorem SignatureData.compress_short (evidence : Bytes) (resize : Bool) (authSize : ℕ)
    (raw pem : Bytes) (hne : evidence ≠ []) (hshort : ¬ 5 < raw.length)
    (hpem : pemOf io.toOpenSsl raw = .ok pem) :
    (placedData authSize pem).compress io evidence resize = (.ok 0, evidence) := by
  have hraw : pem = raw := by
    simp only [pemOf, isDer, hshort, decide_false, Bool.false_and, Bool.false_eq_true, if_false] at hpem
    exact ((pure_ok _ _).1 hpem).symm
  have hplain : isPem pem = false := by
    rw [hraw, isPem, decide_eq_false hshort, Bool.false_and]
  rw [SignatureData.compress, if_neg hne]
  show (if isPem pem then _ else _) = _
  rw [hplain]
  rfl

theorem SignatureData.compress_written (hl : io.Sound) (evidence : Bytes) (resize : Bool)
    (authSize : ℕ) (raw pem : Bytes) (chain : List X509) (hne : evidence ≠ [])
    (hlong : 5 < raw.length)
    (hroom : 1020 + authSize + (chainDer io chain).length ≤ evidence.length)
    (hpem : pemOf io.toOpenSsl raw = .ok pem) (hchain : certificatesIn io raw = .ok chain)
    (k : ℕ) (hk : k = pem.length - (chainDer io chain).length) :
    (placedData authSize pem).compress io evidence resize =
      if resize then
        ((resizeTo (writeChain evidence (1014 + authSize) (chainDer io chain))
          ((evidence.length : ℤ) - k)).1.map fun _ => (k : ℤ),
        (resizeTo (writeChain evidence (1014 + authSize) (chainDer io chain))
          ((evidence.length : ℤ) - k)).2)
      else (.ok (k : ℤ), writeChain evidence (1014 + authSize) (chainDer io chain)) := by
  obtain ⟨hispem, hread⟩ := pemOf_chain hl raw pem hlong hpem
  have hder := (hread (chainDer io chain)).2 ⟨chain, hchain, rfl⟩
  obtain ⟨-, hshort⟩ := certificatesIn_shorter hl raw pem chain hlong hpem hchain
  have hin : ¬ evidence.length < 1014 + authSize + 6 + (chainDer io chain).length := by omega
  have hdiff : ((pem.length : ℤ) - (chainDer io chain).length) = (k : ℤ) := by omega
  have hwritten := writeChain_length evidence (1014 + authSize) (chainDer io chain)
  rw [SignatureData.compress, if_neg hne]
  show (if isPem pem then _ else _) = _
  rw [hispem, if_pos rfl]
  simp only [placedData, hder, if_neg hin, hdiff, hwritten]

/-- Where there is no room the chain is written behind the evidence. -/
theorem SignatureData.compress_behind (hl : io.Sound) (evidence : Bytes) (resize : Bool)
    (authSize : ℕ) (raw pem : Bytes) (chain : List X509) (hne : evidence ≠ [])
    (hlong : 5 < raw.length)
    (hroom : evidence.length < 1020 + authSize + (chainDer io chain).length)
    (hpem : pemOf io.toOpenSsl raw = .ok pem) (hchain : certificatesIn io raw = .ok chain) :
    (placedData authSize pem).compress io evidence resize =
      (.error (.undefined "write behind the evidence"), evidence) := by
  obtain ⟨hispem, hread⟩ := pemOf_chain hl raw pem hlong hpem
  have hder := (hread (chainDer io chain)).2 ⟨chain, hchain, rfl⟩
  have hbehind : evidence.length < 1014 + authSize + 6 + (chainDer io chain).length := by omega
  rw [SignatureData.compress, if_neg hne]
  show (if isPem pem then _ else _) = _
  rw [hispem, if_pos rfl]
  simp only [placedData, hder]
  exact if_pos hbehind

theorem SignatureData.compress_unreadable (hl : io.Sound) (evidence : Bytes) (resize : Bool)
    (authSize : ℕ) (raw pem : Bytes) (hne : evidence ≠ []) (hlong : 5 < raw.length)
    (hpem : pemOf io.toOpenSsl raw = .ok pem) (hchain : ∀ chain, certificatesIn io raw ≠ .ok chain) :
    ∃ e, pemToDer io (pem.length + 1) pem = .error e ∧
      (placedData authSize pem).compress io evidence resize = (.error e, evidence) := by
  obtain ⟨hispem, hread⟩ := pemOf_chain hl raw pem hlong hpem
  cases hder : pemToDer io (pem.length + 1) pem with
  | ok der =>
    obtain ⟨chain, h, -⟩ := (hread der).1 hder
    exact absurd h (hchain chain)
  | error e =>
    refine ⟨e, rfl, ?_⟩
    rw [SignatureData.compress, if_neg hne]
    show (if isPem pem then _ else _) = _
    rw [hispem, if_pos rfl]
    simp only [placedData, hder]

theorem ne_nil_of_signature (evidence : Bytes)
    (hlen : 436 + signatureLen host evidence ≤ evidence.length) : evidence ≠ [] := by
  apply List.ne_nil_of_length_pos
  omega

theorem compress_short (evidence : Bytes) (resize : Bool) (authSize : ℕ) (raw pem : Bytes)
    (hc : Carries evidence authSize raw) (hshort : raw.length ≤ 5)
    (hlen : 436 + signatureLen host evidence ≤ evidence.length)
    (hinside : 1020 + authSize + raw.length ≤ evidence.length)
    (hpem : pemOf io.toOpenSsl raw = .ok pem) :
    compressPckCertificateChain io host evidence resize = (.ok (), evidence) := by
  have haccepted := acceptedData_of io host evidence authSize raw pem hc hlen hinside hpem
  have hcompress := SignatureData.compress_short evidence resize authSize raw pem
    (ne_nil_of_signature host evidence hlen) (by omega) hpem
  rw [compressPckCertificateChain, haccepted]
  simp only [hcompress]
  rw [if_neg (by simp)]

theorem compress_written (hl : io.Sound) (evidence : Bytes) (resize : Bool) (authSize : ℕ)
    (raw pem : Bytes) (chain : List X509) (hc : Carries evidence authSize raw)
    (hlong : 5 < raw.length)
    (hlen : 436 + signatureLen host evidence ≤ evidence.length)
    (hinside : 1020 + authSize + raw.length ≤ evidence.length)
    (hroom : 1020 + authSize + (chainDer io chain).length ≤ evidence.length)
    (hpem : pemOf io.toOpenSsl raw = .ok pem) (hchain : certificatesIn io raw = .ok chain)
    (k : ℕ) (hk : k = pem.length - (chainDer io chain).length) :
    compressPckCertificateChain io host evidence resize =
      if resize = true ∧ evidence.length < k then
        (.error (.exception "vector::_M_default_append"),
          writeChain evidence (1014 + authSize) (chainDer io chain))
      else (.ok (), shortenSignature
        ((writeChain evidence (1014 + authSize) (chainDer io chain)).take
          (if resize then evidence.length - k else evidence.length))
        (signatureLen host evidence) k) := by
  have haccepted := acceptedData_of io host evidence authSize raw pem hc hlen hinside hpem
  have hcompress := SignatureData.compress_written hl evidence resize authSize raw pem chain
    (ne_nil_of_signature host evidence hlen) hlong hroom hpem hchain k hk
  obtain ⟨-, hshort⟩ := certificatesIn_shorter hl raw pem chain hlong hpem hchain
  have hwritten := writeChain_length evidence (1014 + authSize) (chainDer io chain)
  have hkpos : (0 : ℤ) < k := by omega
  have hfinish (changed : Bytes) :
      (if (0 : ℤ) < (k : ℤ) ∧ (k : ℤ) < (signatureLen host evidence : ℤ) then
        ((Except.ok () : Result Unit), patch changed signatureLenOff
          (leBytes 4 (signatureLen host evidence - (k : ℤ).toNat)))
      else (.ok (), changed)) =
        (.ok (), shortenSignature changed (signatureLen host evidence) k) := by
    unfold shortenSignature
    by_cases hkl : k < signatureLen host evidence
    · rw [if_pos hkl, if_pos ⟨hkpos, by omega⟩]
      rfl
    · rw [if_neg hkl, if_neg (fun h => hkl (by omega))]
  rw [compressPckCertificateChain, haccepted]
  simp only [hcompress]
  cases resize with
  | false =>
    simp only [Bool.false_eq_true, if_false, false_and]
    rw [hfinish]
    rw [List.take_of_length_le (Nat.le_of_eq hwritten)]
  | true =>
    simp only [if_true, true_and]
    by_cases hwrap : evidence.length < k
    · have hneg : ((evidence.length : ℤ) - k) < 0 := by omega
      simp only [resizeTo, if_pos hneg, if_pos hwrap, Except.map]
    · have hnonneg : ¬ ((evidence.length : ℤ) - k) < 0 := by omega
      have hshrinks : ((evidence.length : ℤ) - k) ≤
          ((writeChain evidence (1014 + authSize) (chainDer io chain)).length : ℤ) := by omega
      have hnat : ((evidence.length : ℤ) - k).toNat = evidence.length - k := by omega
      simp only [resizeTo, if_neg hnonneg, if_pos hshrinks, if_neg hwrap, Except.map, hnat]
      rw [hfinish]

theorem compress_chain (hl : io.Lawful) (evidence : Bytes) (resize : Bool) (authSize : ℕ)
    (raw pem : Bytes) (chain : List X509) (hc : Carries evidence authSize raw)
    (hlong : 5 < raw.length)
    (hlen : 436 + signatureLen host evidence ≤ evidence.length)
    (hinside : 1020 + authSize + raw.length ≤ evidence.length)
    (hpem : pemOf io.toOpenSsl raw = .ok pem) (hchain : certificatesIn io raw = .ok chain)
    (k : ℕ) (hk : k = pem.length - (chainDer io chain).length) :
    compressPckCertificateChain io host evidence resize =
      if resize = true ∧ evidence.length < k then
        (.error (.exception "vector::_M_default_append"),
          writeChain evidence (1014 + authSize) (chainDer io chain))
      else (.ok (), shortenSignature
        ((writeChain evidence (1014 + authSize) (chainDer io chain)).take
          (if resize then evidence.length - k else evidence.length))
        (signatureLen host evidence) k) := by
  obtain ⟨-, hfits, -⟩ := certificatesIn_fits hl raw pem chain hlong hpem hchain
  exact compress_written host hl.toSound evidence resize authSize raw pem chain hc hlong hlen hinside
    (by omega) hpem hchain k hk

theorem compress_unreadable (hl : io.Sound) (evidence : Bytes) (resize : Bool) (authSize : ℕ)
    (raw pem : Bytes) (hc : Carries evidence authSize raw) (hlong : 5 < raw.length)
    (hlen : 436 + signatureLen host evidence ≤ evidence.length)
    (hinside : 1020 + authSize + raw.length ≤ evidence.length)
    (hpem : pemOf io.toOpenSsl raw = .ok pem)
    (hchain : ∀ chain, certificatesIn io raw ≠ .ok chain) :
    ∃ e, pemToDer io (pem.length + 1) pem = .error e ∧
      compressPckCertificateChain io host evidence resize = (.error e, evidence) := by
  have haccepted := acceptedData_of io host evidence authSize raw pem hc hlen hinside hpem
  obtain ⟨e, hder, hcompress⟩ := SignatureData.compress_unreadable hl evidence resize authSize raw pem
    (ne_nil_of_signature host evidence hlen) hlong hpem hchain
  refine ⟨e, hder, ?_⟩
  rw [compressPckCertificateChain, haccepted]
  simp only [hcompress]

theorem compress_ok_cases (hl : io.Sound) (evidence e₁ : Bytes) (resize : Bool)
    (h : compressPckCertificateChain io host evidence resize = (.ok (), e₁)) :
    ∃ authSize raw pem, Carries evidence authSize raw ∧
      436 + signatureLen host evidence ≤ evidence.length ∧
      1020 + authSize + raw.length ≤ evidence.length ∧ pemOf io.toOpenSsl raw = .ok pem ∧
      (5 < raw.length → ∃ chain, certificatesIn io raw = .ok chain) := by
  cases haccepted : acceptedData io host evidence with
  | error e =>
    rw [compressPckCertificateChain, haccepted] at h
    cases (Prod.mk.inj h).1
  | ok sd =>
    obtain ⟨authSize, raw, pem, hc, hlen, hinside, hpem, -⟩ := acceptedData_ok io host evidence sd haccepted
    refine ⟨authSize, raw, pem, hc, hlen, hinside, hpem, fun hlong => ?_⟩
    by_contra hnone
    obtain ⟨e, -, hthrows⟩ := compress_unreadable host hl evidence resize authSize raw pem hc hlong hlen
      hinside hpem (fun chain hchain => hnone ⟨chain, hchain⟩)
    rw [hthrows] at h
    cases (Prod.mk.inj h).1

/-! ### The evidence after a compression -/

section After
variable (evidence der : Bytes) (authSize len k n : ℕ)

/-- The evidence with the chain written, cut to `n` bytes and with a shorter signature. -/
def afterCompression : Bytes :=
  shortenSignature ((writeChain evidence (1014 + authSize) der).take n) len k

variable {evidence der authSize len k n}

theorem afterCompression_length (hn : n ≤ evidence.length) :
    (afterCompression evidence der authSize len k n).length = n := by
  rw [afterCompression, shortenSignature_length, List.length_take, writeChain_length]
  omega

theorem sub_afterCompression (o j : ℕ) (hn : o + j ≤ n) (hlen : o + j ≤ 432 ∨ 436 ≤ o)
    (hplace : o + j ≤ 1016 + authSize ∨ 1020 + authSize + der.length ≤ o) :
    sub (afterCompression evidence der authSize len k n) o j = sub evidence o j := by
  have hkept : sub ((writeChain evidence (1014 + authSize) der).take n) o j = sub evidence o j := by
    rw [sub_take _ _ _ _ hn, writeChain, sub_patch_other _ _ _ _ _ (by rw [leBytes_length]; omega),
      sub_patch_other _ _ _ _ _ (by omega)]
  unfold afterCompression shortenSignature
  split
  · have hoff : signatureLenOff = 432 := rfl
    rw [sub_patch_other _ _ _ _ _ (by rw [leBytes_length, hoff]; omega), hkept]
  · exact hkept

theorem sub_afterCompression_size (hn : 1020 + authSize ≤ n) (he : n ≤ evidence.length) :
    sub (afterCompression evidence der authSize len k n) (1016 + authSize) 4 =
      leBytes 4 der.length := by
  have hwritten : sub ((writeChain evidence (1014 + authSize) der).take n) (1016 + authSize) 4 =
      leBytes 4 der.length := by
    have hoff : 1014 + authSize + 2 = 1016 + authSize := by omega
    have hsame := sub_patch_same (patch evidence (1014 + authSize + 6) der) (leBytes 4 der.length)
      (1016 + authSize) (by rw [leBytes_length, patch_length]; omega)
    rw [leBytes_length] at hsame
    rw [sub_take _ _ _ _ (by omega), writeChain, hoff, hsame]
  unfold afterCompression shortenSignature
  split
  · have hoff : signatureLenOff = 432 := rfl
    rw [sub_patch_other _ _ _ _ _ (by rw [leBytes_length, hoff]; omega), hwritten]
  · exact hwritten

theorem sub_afterCompression_chain (hn : 1020 + authSize + der.length ≤ n)
    (he : n ≤ evidence.length) :
    sub (afterCompression evidence der authSize len k n) (1020 + authSize) der.length = der := by
  have hwritten : sub ((writeChain evidence (1014 + authSize) der).take n) (1020 + authSize)
      der.length = der := by
    have hoff : 1014 + authSize + 6 = 1020 + authSize := by omega
    have hoff' : 1014 + authSize + 2 = 1016 + authSize := by omega
    rw [sub_take _ _ _ _ hn, writeChain, hoff, hoff',
      sub_patch_other _ _ _ _ _ (by rw [leBytes_length]; omega),
      sub_patch_same _ _ _ (by omega)]
  unfold afterCompression shortenSignature
  split
  · have hoff : signatureLenOff = 432 := rfl
    rw [sub_patch_other _ _ _ _ _ (by rw [leBytes_length, hoff]; omega), hwritten]
  · exact hwritten

theorem signatureLen_afterCompression (hn : 436 ≤ n) (he : n ≤ evidence.length)
    (hlen : signatureLen host evidence = len) :
    signatureLen host (afterCompression evidence der authSize len k n) =
      if k < len then len - k else len := by
  have hfield : len < 256 ^ 4 := hlen ▸ readLe_lt _ _ _
  rw [signatureLen_eq host _ (by rw [afterCompression_length he]; exact hn)]
  unfold afterCompression shortenSignature
  split
  · have hsame := sub_patch_same ((writeChain evidence (1014 + authSize) der).take n)
      (leBytes 4 (len - k)) signatureLenOff (by
        rw [leBytes_length, List.length_take, writeChain_length]
        have hoff : signatureLenOff = 432 := rfl
        omega)
    rw [leBytes_length] at hsame
    show leVal (sub _ signatureLenOff 4) = _
    rw [hsame, leVal_leBytes _ _ (by omega)]
  · rw [sub_take _ _ _ _ (by omega), writeChain,
      sub_patch_other _ _ _ _ _ (by rw [leBytes_length]; omega),
      sub_patch_other _ _ _ _ _ (by omega), ← signatureLen_eq host evidence (by omega), hlen]

theorem carries_afterCompression {raw : Bytes} (hc : Carries evidence authSize raw)
    (hne : der ≠ []) (hfits : der.length ≤ raw.length)
    (hn : 1020 + authSize + der.length ≤ n) (he : n ≤ evidence.length) :
    Carries (afterCompression evidence der authSize len k n) authSize der where
  version := by rw [sub_afterCompression 0 2 (by omega) (by omega) (by omega), hc.version]
  signType := by rw [sub_afterCompression 2 2 (by omega) (by omega) (by omega), hc.signType]
  auth := by rw [sub_afterCompression 1012 2 (by omega) (by omega) (by omega), hc.auth]
  authPos := hc.authPos
  certType := by
    rw [sub_afterCompression (1014 + authSize) 2 (by omega) (by omega) (by omega), hc.certType]
  certSize := by
    have hsize := leVal_lt (sub evidence (1016 + authSize) 4)
    rw [hc.certSize, sub_length _ _ _ (by omega)] at hsize
    rw [sub_afterCompression_size (by omega) he, leVal_leBytes _ _ (by omega)]
  certPos := hne
  cert := sub_afterCompression_chain hn he

end After

/-! ### A second compression -/

theorem CertificateIo.Lawful.pemOf_chainDer (hl : io.Lawful) (chain : List X509) (hne : chain ≠ []) :
    pemOf io.toOpenSsl (chainDer io chain) = .ok (chainPem io chain) ∧
      certificatesIn io (chainDer io chain) = .ok chain ∧ 5 < (chainDer io chain).length := by
  have hder := hl.isDer_chainDer chain hne
  have hfuel := length_le_flatMap io.x509Der (fun c => by have h := hl.der_long c; omega) chain
  have hread := hl.read_chainDer chain ((chainDer io chain).length + 1) (by
    show chain.length < (chain.flatMap io.x509Der).length + 1
    omega)
  refine ⟨?_, ?_, ?_⟩
  · rw [pemOf, hder, if_pos rfl, derToPem_ok_iff]
    exact ⟨chain, hread, rfl⟩
  · rw [certificatesIn, hder, if_pos rfl, hread]
  · simp only [isDer, Bool.and_eq_true, decide_eq_true_eq] at hder
    exact hder.1

theorem writeChain_self (evidence der : Bytes) (authSize : ℕ)
    (hc : Carries evidence authSize der)
    (hinside : 1020 + authSize + der.length ≤ evidence.length) :
    writeChain evidence (1014 + authSize) der = evidence := by
  have hoff : 1014 + authSize + 6 = 1020 + authSize := by omega
  have hoff' : 1014 + authSize + 2 = 1016 + authSize := by omega
  have hsize : sub evidence (1016 + authSize) 4 = leBytes 4 der.length := by
    have h := leBytes_leVal (sub evidence (1016 + authSize) 4)
    rw [sub_length _ _ _ (by omega), hc.certSize] at h
    exact h.symm
  rw [writeChain, hoff, hoff', patch_self evidence der _ hc.cert,
    patch_self _ _ _ (by rw [leBytes_length]; exact hsize)]

theorem shortenSignature_eq_self (evidence : Bytes) (k : ℕ) (h : 436 ≤ evidence.length)
    (hk : 0 < k) :
    shortenSignature evidence (signatureLen host evidence) k = evidence ↔
      signatureLen host evidence ≤ k := by
  unfold shortenSignature
  by_cases hlt : k < signatureLen host evidence
  · rw [if_pos hlt]
    refine ⟨fun hsame => ?_, fun hle => by omega⟩
    have hfield : signatureLen host evidence < 256 ^ 4 := readLe_lt _ _ _
    have hread := sub_patch_same evidence (leBytes 4 (signatureLen host evidence - k)) signatureLenOff
      (by rw [leBytes_length]; exact h)
    rw [hsame, leBytes_length] at hread
    have hvalue : signatureLen host evidence = signatureLen host evidence - k := by
      calc signatureLen host evidence = leVal (sub evidence 432 4) := signatureLen_eq host evidence h
        _ = leVal (leBytes 4 (signatureLen host evidence - k)) := congrArg leVal hread
        _ = signatureLen host evidence - k := leVal_leBytes _ _ (by omega)
    omega
  · rw [if_neg hlt]
    exact ⟨fun _ => by omega, fun _ => rfl⟩

/-- A compression of evidence whose chain is DER already: it changes something unless the
difference to the PEM copy is too large for the evidence or the signature's length. -/
theorem compress_der_unchanged_iff (hl : io.Lawful) (evidence : Bytes) (resize : Bool)
    (authSize : ℕ) (chain : List X509) (hne : chain ≠ [])
    (hc : Carries evidence authSize (chainDer io chain))
    (hlen : 436 + signatureLen host evidence ≤ evidence.length)
    (hinside : 1020 + authSize + (chainDer io chain).length ≤ evidence.length)
    (k : ℕ) (hk : k = (chainPem io chain).length - (chainDer io chain).length) :
    (compressPckCertificateChain io host evidence resize).2 = evidence ↔
      if resize then evidence.length < k else signatureLen host evidence ≤ k := by
  obtain ⟨hpem, hchain, hlong⟩ := hl.pemOf_chainDer chain hne
  have hshort := hl.chainDer_lt_chainPem chain hne
  rw [compress_chain host hl evidence resize authSize _ _ chain hc hlong hlen hinside hpem hchain k hk,
    writeChain_self evidence _ authSize hc hinside]
  cases resize with
  | false =>
    simp only [Bool.false_eq_true, false_and, if_false, List.take_length]
    exact shortenSignature_eq_self host evidence k (by omega) (by omega)
  | true =>
    simp only [true_and, if_true]
    by_cases hwrap : evidence.length < k
    · rw [if_pos hwrap]
      exact ⟨fun _ => hwrap, fun _ => rfl⟩
    · rw [if_neg hwrap]
      refine ⟨fun hsame => ?_, fun h => absurd h hwrap⟩
      have hlength := congrArg List.length hsame
      rw [shortenSignature_length, List.length_take] at hlength
      omega

/-- What the sizes of the evidence, of its signature and of its chain are. -/
structure ChainSizes where
  evidence : ℕ
  signatureLen : ℕ
  /-- offset of the certification data -/
  certOff : ℕ
  /-- the PEM text that is compressed: the certification data, or a copy made of them -/
  text : ℕ
  der : ℕ
  /-- the PEM text OpenSSL writes for the chain -/
  pem : ℕ
  deriving DecidableEq

namespace ChainSizes
variable (s : ChainSizes)

/-- by how much the first and the second call shorten -/
def first : ℕ := s.text - s.der
def second : ℕ := s.pem - s.der

/-- the signature's length behind the first call -/
def shortened : ℕ := if s.first < s.signatureLen then s.signatureLen - s.first else s.signatureLen

/-- A second call throws before it writes, or finds nothing long enough to shorten. -/
def SecondIdle (resize : Bool) : Prop :=
  if resize then
    s.evidence - s.first < 436 + s.shortened ∨ s.evidence - s.first < s.certOff + s.der ∨
      s.evidence - s.first < s.second
  else s.shortened ≤ s.second

end ChainSizes

variable (io)

/-- Evidence with this chain behind so many bytes of authentication data, and its sizes. -/
def Measured (evidence : Bytes) (authSize : ℕ) (chain : List X509) (s : ChainSizes) : Prop :=
  ∃ raw pem, Carries evidence authSize raw ∧ 5 < raw.length ∧
    1020 + authSize + raw.length ≤ evidence.length ∧ pemOf io.toOpenSsl raw = .ok pem ∧
    certificatesIn io raw = .ok chain ∧
    s = ⟨evidence.length, leVal (sub evidence 432 4), 1020 + authSize, pem.length,
      (chainDer io chain).length, (chainPem io chain).length⟩

/-- The certification data of accepted evidence are too short to be a chain. -/
def NoChain (evidence : Bytes) : Prop :=
  leVal (sub evidence (1016 + leVal (sub evidence 1012 2)) 4) ≤ 5

variable {io}

theorem accepted_afterCompression (evidence : Bytes) (authSize len k n : ℕ) (raw der : Bytes)
    (hc : Carries evidence authSize raw) (hfits : der.length ≤ raw.length)
    (he : n ≤ evidence.length) (hlen : signatureLen host evidence = len) (sd : SignatureData)
    (h : acceptedData io host (afterCompression evidence der authSize len k n) = .ok sd) :
    436 + (if k < len then len - k else len) ≤ n ∧ 1020 + authSize + der.length ≤ n := by
  obtain ⟨authSize', raw', pem', hc', hlen', hinside', -, -⟩ := acceptedData_ok io host _ sd h
  have hlength := @afterCompression_length evidence der authSize len k n he
  rw [hlength] at hlen' hinside'
  rw [signatureLen_afterCompression host (by omega) he hlen] at hlen'
  have hauth : authSize' = authSize := by
    rw [← hc'.auth, sub_afterCompression 1012 2 (by omega) (by omega) (by omega), hc.auth]
  subst hauth
  have hraw : raw'.length = der.length := by
    have hsize := leVal_lt (sub evidence (1016 + authSize') 4)
    rw [hc.certSize] at hsize
    have hbound : (sub evidence (1016 + authSize') 4).length ≤ 4 := by
      rw [sub, List.length_take]
      omega
    have hpow := Nat.pow_le_pow_right (show 0 < 256 by decide) hbound
    rw [← hc'.certSize, sub_afterCompression_size (by omega) he, leVal_leBytes _ _ (by omega)]
  exact ⟨hlen', by omega⟩

theorem Measured.unique {evidence : Bytes} {a a' : ℕ} {chain chain' : List X509}
    {s t : ChainSizes} (hs : Measured io evidence a chain s) (ht : Measured io evidence a' chain' t) :
    a = a' ∧ chain = chain' ∧ s = t := by
  obtain ⟨raw, pem, hc, -, -, hpem, hchain, rfl⟩ := hs
  obtain ⟨raw', pem', hc', -, -, hpem', hchain', rfl⟩ := ht
  obtain rfl : a' = a := by rw [← hc'.auth, hc.auth]
  have hlength : raw'.length = raw.length := by rw [← hc'.certSize, hc.certSize]
  obtain rfl : raw' = raw := by rw [← hc'.cert, hlength, hc.cert]
  rw [hpem] at hpem'
  rw [hchain] at hchain'
  obtain rfl := Except.ok.inj hpem'
  obtain rfl := Except.ok.inj hchain'
  exact ⟨rfl, rfl, rfl⟩

theorem afterCompression_unchanged_iff (hl : io.Lawful) (evidence : Bytes) (resize : Bool)
    (authSize len k k₂ n : ℕ) (raw : Bytes) (chain : List X509) (hne : chain ≠ [])
    (hc : Carries evidence authSize raw) (hfits : (chainDer io chain).length ≤ raw.length)
    (he : n ≤ evidence.length) (hlen : signatureLen host evidence = len)
    (hk₂ : k₂ = (chainPem io chain).length - (chainDer io chain).length) :
    (compressPckCertificateChain io host
        (afterCompression evidence (chainDer io chain) authSize len k n) resize).2 =
          afterCompression evidence (chainDer io chain) authSize len k n ↔
      n < 436 + (if k < len then len - k else len) ∨
        n < 1020 + authSize + (chainDer io chain).length ∨
        (if resize then n < k₂ else (if k < len then len - k else len) ≤ k₂) := by
  have hlength := @afterCompression_length evidence (chainDer io chain) authSize len k n he
  have hder := (hl.pemOf_chainDer chain hne).2.2
  have hderne : chainDer io chain ≠ [] := List.ne_nil_of_length_pos (by omega)
  by_cases hin : 436 + (if k < len then len - k else len) ≤ n ∧
      1020 + authSize + (chainDer io chain).length ≤ n
  · have hcarries := @carries_afterCompression evidence (chainDer io chain) authSize len k n raw hc hderne hfits
      hin.2 he
    have hsig := @signatureLen_afterCompression host evidence (chainDer io chain) authSize len k n
      (by omega) he hlen
    rw [compress_der_unchanged_iff host hl _ resize authSize chain hne hcarries (by omega) (by omega)
      k₂ hk₂, hsig, hlength]
    constructor
    · intro h
      exact Or.inr (Or.inr h)
    · intro hor
      obtain h | h | h := hor
      · omega
      · omega
      · exact h
  · have hrefused : ∃ e, acceptedData io host
        (afterCompression evidence (chainDer io chain) authSize len k n) = .error e := by
      cases haccepted : acceptedData io host
          (afterCompression evidence (chainDer io chain) authSize len k n) with
      | error e => exact ⟨e, rfl⟩
      | ok sd => exact absurd (accepted_afterCompression host evidence authSize len k n raw _ hc hfits
          he hlen sd haccepted) hin
    obtain ⟨e, he'⟩ := hrefused
    rw [compressPckCertificateChain, he']
    refine ⟨fun _ => ?_, fun _ => rfl⟩
    by_cases hsmall : n < 436 + (if k < len then len - k else len)
    · exact Or.inl hsmall
    · exact Or.inr (Or.inl (by omega))

theorem second_idle_iff (n len certOff text der pem k : ℕ) (resize : Bool) (hk : k = text - der)
    (hlen : 436 + len ≤ n) (hinside : certOff + der ≤ n) :
    ((if resize then n - k else n) < 436 + (if k < len then len - k else len) ∨
      (if resize then n - k else n) < certOff + der ∨
      (if resize then (if resize then n - k else n) < pem - der
        else (if k < len then len - k else len) ≤ pem - der)) ↔
      ChainSizes.SecondIdle ⟨n, len, certOff, text, der, pem⟩ resize := by
  have hshort : (if k < len then len - k else len) ≤ len := by split <;> omega
  cases resize with
  | true =>
    simp only [ChainSizes.SecondIdle, ChainSizes.shortened, ChainSizes.first, ChainSizes.second,
      if_true, ← hk]
  | false =>
    simp only [ChainSizes.SecondIdle, ChainSizes.shortened, ChainSizes.first, ChainSizes.second,
      Bool.false_eq_true, if_false, ← hk]
    constructor
    · intro hor
      obtain h | h | h := hor
      · omega
      · omega
      · exact h
    · intro h
      exact Or.inr (Or.inr h)

theorem compress_twice_iff (hl : io.Lawful) (host' : Host) (evidence e₁ : Bytes) (resize : Bool)
    (hfirst : compressPckCertificateChain io host evidence resize = (.ok (), e₁)) :
    (compressPckCertificateChain io host' e₁ resize).2 = e₁ ↔
      NoChain evidence ∨
        ∃ authSize chain s, Measured io evidence authSize chain s ∧ s.SecondIdle resize := by
  obtain ⟨authSize, raw, pem, hc, hlen, hinside, hpem, hreadable⟩ :=
    compress_ok_cases host hl.toSound evidence e₁ resize hfirst
  have hsize : leVal (sub evidence (1016 + leVal (sub evidence 1012 2)) 4) = raw.length := by
    rw [hc.auth, hc.certSize]
  by_cases hlong : 5 < raw.length
  · obtain ⟨chain, hchain⟩ := hreadable hlong
    have hfield : signatureLen host evidence = leVal (sub evidence 432 4) :=
      signatureLen_eq host evidence (by omega)
    have hfield' : signatureLen host' evidence = leVal (sub evidence 432 4) :=
      signatureLen_eq host' evidence (by omega)
    obtain ⟨hne, hfits, hshort⟩ := certificatesIn_fits hl raw pem chain hlong hpem hchain
    obtain ⟨k, hk⟩ : ∃ k, k = pem.length - (chainDer io chain).length := ⟨_, rfl⟩
    rw [compress_chain host hl evidence resize authSize raw pem chain hc hlong hlen hinside hpem hchain
      k hk] at hfirst
    split at hfirst
    · cases (Prod.mk.inj hfirst).1
    next hfitsIn =>
      have he₁ : e₁ = afterCompression evidence (chainDer io chain) authSize
          (leVal (sub evidence 432 4)) k (if resize then evidence.length - k else evidence.length) := by
        rw [← (Prod.mk.inj hfirst).2, afterCompression, hfield]
      have hmeasured : Measured io evidence authSize chain ⟨evidence.length,
          leVal (sub evidence 432 4), 1020 + authSize, pem.length, (chainDer io chain).length,
          (chainPem io chain).length⟩ := ⟨raw, pem, hc, hlong, hinside, hpem, hchain, rfl⟩
      have hcut : (if resize then evidence.length - k else evidence.length) ≤ evidence.length := by
        split <;> omega
      have hagain := afterCompression_unchanged_iff host' hl evidence resize authSize
        (leVal (sub evidence 432 4)) k _ _ raw chain hne hc hfits hcut hfield' rfl
      rw [he₁, hagain]
      have hno : ¬ NoChain evidence := by
        rw [NoChain, hsize]
        omega
      rw [second_idle_iff evidence.length (leVal (sub evidence 432 4)) (1020 + authSize) pem.length
        _ (chainPem io chain).length k resize hk (by omega) (by omega)]
      constructor
      · intro h
        exact Or.inr ⟨_, _, _, hmeasured, h⟩
      · intro hor
        obtain h | ⟨_, _, s, hs, h⟩ := hor
        · exact absurd h hno
        · exact (hs.unique hmeasured).2.2 ▸ h
  · rw [compress_short host evidence resize authSize raw pem hc (by omega) hlen hinside hpem] at hfirst
    obtain rfl := (Prod.mk.inj hfirst).2
    have hfield : signatureLen host' evidence = signatureLen host evidence := by
      rw [signatureLen_eq host evidence (by omega), signatureLen_eq host' evidence (by omega)]
    rw [compress_short host' evidence resize authSize raw pem hc (by omega) (by omega) hinside hpem]
    exact ⟨fun _ => Or.inl (by rw [NoChain, hsize]; omega), fun _ => rfl⟩

end

end Ravl.Sgx
