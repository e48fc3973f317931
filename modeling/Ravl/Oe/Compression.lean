import Ravl.Oe.Attestation
import Ravl.Sgx.Compression

/-!
# Compression of Open Enclave evidence (oe_impl.h:596-639)

Behind the quote there are custom claims, so the compression does not cut the evidence at its
end: it moves what follows the signature forward and cuts then. The second half of the module
compares a second compression with the first one, and the compressed evidence with the original.
-/

namespace Ravl.Oe
open ByteLib FallibleLib Sgx

section
variable {X509 Crl Pkey : Type} (io : CertificateIo X509 Crl Pkey) (host : Host)

/-! ### The source -/

/-- `evidence[i - k] = evidence[i]` for `n` bytes from `i` on. -/
def moveForward (k : ℕ) : ℕ → ℕ → Bytes → Bytes
  | 0, _, evidence => evidence
  | n + 1, i, evidence => moveForward k n (i + 1) (evidence.set (i - k) (evidence.getD i 0))

/-- `oe::Attestation::compress_pck_certificate_chain` -/
def compressPckCertificateChain (evidence : Bytes) (resizeEvidence : Bool) :
    Result Unit × Bytes :=
  if evidence = [] then (.error (.exception "empty evidence"), evidence)
  else
    match acceptedData io host evidence with
    | .error e => (.error e, evidence)
    | .ok sd =>
      match sd.compress io evidence false with
      | (.error e, changed) => (.error e, changed)
      | (.ok k, changed) =>
        let len := signatureLen host evidence
        if 0 < k ∧ k < len then
          let quoteAndSigLen := sgxQuoteSize + len
          let moved := moveForward k.toNat (changed.length - quoteAndSigLen) quoteAndSigLen changed
          let shortened := patch moved signatureLenOff (leBytes 4 (len - k.toNat))
          (.ok (), if resizeEvidence then shortened.take (shortened.length - k.toNat) else shortened)
        else (.ok (), changed)

/-! ### Moving the tail -/

theorem moveForward_getElem? (k n i j : ℕ) (evidence : Bytes) (hk : 0 < k) (hki : k ≤ i)
    (hn : i + n ≤ evidence.length) :
    (moveForward k n i evidence)[j]? =
      if i - k ≤ j ∧ j < i + n - k then evidence[j + k]? else evidence[j]? := by
  induction n generalizing i evidence with
  | zero =>
    rw [if_neg (by omega)]
    rfl
  | succ n ih =>
    rw [moveForward, ih _ _ (by omega) (by rw [List.length_set]; omega)]
    have hkept (j : ℕ) (hj : i - k ≠ j) :
        (evidence.set (i - k) (evidence.getD i 0))[j]? = evidence[j]? :=
      List.getElem?_set_ne hj
    by_cases hfirst : i - k = j
    · have hi : i < evidence.length := by omega
      have hj : j < evidence.length := by omega
      have hback : j + k = i := by omega
      have hset : (evidence.set j (evidence.getD i 0))[j]? = some (evidence.getD i 0) :=
        List.getElem?_set_self hj
      have hnot : ¬ (i + 1 - k ≤ j ∧ j < i + 1 + n - k) := by omega
      rw [if_neg hnot, if_pos (by omega), hfirst, hback, hset, List.getD_eq_getElem?_getD,
        List.getElem?_eq_getElem hi]
      rfl
    · by_cases hmoved : i - k ≤ j ∧ j < i + (n + 1) - k
      · have hrest : i + 1 - k ≤ j ∧ j < i + 1 + n - k := by omega
        rw [if_pos hmoved, if_pos hrest, hkept (j + k) (by omega)]
      · have hrest : ¬ (i + 1 - k ≤ j ∧ j < i + 1 + n - k) := by omega
        rw [if_neg hmoved, if_neg hrest, hkept j hfirst]

theorem moveForward_eq_patch (k start : ℕ) (evidence : Bytes) (hk : 0 < k) (hks : k ≤ start)
    (hs : start ≤ evidence.length) :
    moveForward k (evidence.length - start) start evidence =
      patch evidence (start - k) (evidence.drop start) := by
  apply List.ext_getElem?
  intro j
  rw [moveForward_getElem? k _ start j evidence hk hks (by omega)]
  by_cases hmoved : start - k ≤ j ∧ j < start + (evidence.length - start) - k
  · obtain ⟨i, rfl⟩ := Nat.exists_eq_add_of_le hmoved.1
    rw [if_pos hmoved, patch_getElem?_new _ _ _ _ (by rw [List.length_drop]; omega) (by omega),
      List.getElem?_drop]
    congr 1
    omega
  · rw [if_neg hmoved]
    by_cases hin : j < evidence.length
    · rw [patch_getElem?_old _ _ _ _ (by rw [List.length_drop]; omega)]
    · rw [List.getElem?_eq_none (by omega), List.getElem?_eq_none (by rw [patch_length]; omega)]

/-- The evidence with the tail moved forward by `k` and a signature shorter by `k`. -/
def moved (evidence : Bytes) (len k : ℕ) (resize : Bool) : Bytes :=
  (patch (patch evidence (436 + len - k) (evidence.drop (436 + len))) 432 (leBytes 4 (len - k))).take
    (if resize then evidence.length - k else evidence.length)

theorem moved_length (evidence : Bytes) (len k : ℕ) (resize : Bool) :
    (moved evidence len k resize).length =
      if resize then evidence.length - k else evidence.length := by
  rw [moved, List.length_take, patch_length, patch_length]
  split <;> omega

theorem sub_moved (evidence : Bytes) (len k : ℕ) (resize : Bool) (o n : ℕ)
    (hk : k ≤ len) (hlen : 436 + len ≤ evidence.length) (hsig : o + n ≤ 432 ∨ 436 ≤ o)
    (hfront : o + n ≤ 436 + len - k) :
    sub (moved evidence len k resize) o n = sub evidence o n := by
  rw [moved, sub_take _ _ _ _ (by split <;> omega),
    sub_patch_other _ _ _ _ _ (by rw [leBytes_length]; omega),
    sub_patch_other _ _ _ _ _ (by omega)]

theorem sub_moved_signatureLen (evidence : Bytes) (len k : ℕ) (resize : Bool) (hk : k < len)
    (hlen : 436 + len ≤ evidence.length) :
    sub (moved evidence len k resize) 432 4 = leBytes 4 (len - k) := by
  have hsame := sub_patch_same (patch evidence (436 + len - k) (evidence.drop (436 + len)))
    (leBytes 4 (len - k)) 432 (by rw [leBytes_length, patch_length]; omega)
  rw [leBytes_length] at hsame
  rw [moved, sub_take _ _ _ _ (by split <;> omega), hsame]

theorem sub_moved_tail (evidence : Bytes) (len k : ℕ) (resize : Bool) (hk : k < len)
    (hlen : 436 + len ≤ evidence.length) :
    sub (moved evidence len k resize) (436 + len - k) (evidence.length - (436 + len)) =
      evidence.drop (436 + len) := by
  have hsame := sub_patch_same evidence (evidence.drop (436 + len)) (436 + len - k)
    (by rw [List.length_drop]; omega)
  rw [List.length_drop] at hsame
  rw [moved, sub_take _ _ _ _ (by split <;> omega),
    sub_patch_other _ _ _ _ _ (by rw [leBytes_length]; omega), hsame]

variable {io}

/-! ### One compression -/

theorem compress_written (hl : io.Sound) (evidence : Bytes) (resize : Bool) (authSize : ℕ)
    (raw pem : Bytes) (chain : List X509) (hc : Carries evidence authSize raw)
    (hlong : 5 < raw.length)
    (hlen : 436 + signatureLen host evidence ≤ evidence.length)
    (hinside : 1020 + authSize + raw.length ≤ evidence.length)
    (hroom : 1020 + authSize + (chainDer io chain).length ≤ evidence.length)
    (hpem : pemOf io.toOpenSsl raw = .ok pem) (hchain : certificatesIn io raw = .ok chain)
    (k : ℕ) (hk : k = pem.length - (chainDer io chain).length) :
    compressPckCertificateChain io host evidence resize =
      (.ok (), if k < signatureLen host evidence then
        moved (writeChain evidence (1014 + authSize) (chainDer io chain))
          (signatureLen host evidence) k resize
      else writeChain evidence (1014 + authSize) (chainDer io chain)) := by
  have haccepted := acceptedData_of io host evidence authSize raw pem hc hlen hinside hpem
  have hne := Sgx.ne_nil_of_signature host evidence hlen
  obtain ⟨-, hshort⟩ := certificatesIn_shorter hl raw pem chain hlong hpem hchain
  have hkpos : 0 < k := by omega
  have hcompress := SignatureData.compress_written hl evidence false authSize raw pem chain hne hlong
    hroom hpem hchain k hk
  rw [if_neg Bool.false_ne_true] at hcompress
  have hwritten := writeChain_length evidence (1014 + authSize) (chainDer io chain)
  rw [compressPckCertificateChain, if_neg hne, haccepted]
  simp only [hcompress]
  by_cases hkl : k < signatureLen host evidence
  · have hmove := moveForward_eq_patch k (436 + signatureLen host evidence)
      (writeChain evidence (1014 + authSize) (chainDer io chain)) hkpos (by omega) (by omega)
    have hnat : (k : ℤ).toNat = k := Int.toNat_natCast k
    have hquote : sgxQuoteSize = 436 := rfl
    have hoff : signatureLenOff = 432 := rfl
    rw [if_pos hkl, if_pos ⟨by omega, by omega⟩, hnat, hquote, hoff, hmove, moved]
    cases resize with
    | true => simp only [if_true, patch_length]
    | false =>
      simp only [Bool.false_eq_true, if_false]
      rw [List.take_of_length_le (by rw [patch_length, patch_length])]
  · rw [if_neg hkl, if_neg (fun h => hkl (by omega))]

theorem compress_chain (hl : io.Lawful) (evidence : Bytes) (resize : Bool) (authSize : ℕ)
    (raw pem : Bytes) (chain : List X509) (hc : Carries evidence authSize raw)
    (hlong : 5 < raw.length)
    (hlen : 436 + signatureLen host evidence ≤ evidence.length)
    (hinside : 1020 + authSize + raw.length ≤ evidence.length)
    (hpem : pemOf io.toOpenSsl raw = .ok pem) (hchain : certificatesIn io raw = .ok chain)
    (k : ℕ) (hk : k = pem.length - (chainDer io chain).length) :
    compressPckCertificateChain io host evidence resize =
      (.ok (), if k < signatureLen host evidence then
        moved (writeChain evidence (1014 + authSize) (chainDer io chain))
          (signatureLen host evidence) k resize
      else writeChain evidence (1014 + authSize) (chainDer io chain)) := by
  obtain ⟨-, hfits, -⟩ := certificatesIn_fits hl raw pem chain hlong hpem hchain
  exact compress_written host hl.toSound evidence resize authSize raw pem chain hc hlong hlen hinside
    (by omega) hpem hchain k hk

theorem compress_no_chain (hl : io.Sound) (evidence : Bytes) (resize : Bool) (authSize : ℕ)
    (raw pem : Bytes) (hc : Carries evidence authSize raw)
    (hlen : 436 + signatureLen host evidence ≤ evidence.length)
    (hinside : 1020 + authSize + raw.length ≤ evidence.length)
    (hpem : pemOf io.toOpenSsl raw = .ok pem)
    (hnone : 5 < raw.length → ∀ chain, certificatesIn io raw ≠ .ok chain) :
    (compressPckCertificateChain io host evidence resize).2 = evidence ∧
      (5 < raw.length → ∃ e, pemToDer io (pem.length + 1) pem = .error e ∧
        compressPckCertificateChain io host evidence resize = (.error e, evidence)) := by
  have haccepted := acceptedData_of io host evidence authSize raw pem hc hlen hinside hpem
  have hne := Sgx.ne_nil_of_signature host evidence hlen
  rw [compressPckCertificateChain, if_neg hne, haccepted]
  by_cases hlong : 5 < raw.length
  · obtain ⟨e, hder, hcompress⟩ := SignatureData.compress_unreadable hl evidence false authSize raw pem
      hne hlong hpem (hnone hlong)
    simp only [hcompress]
    exact ⟨trivial, fun _ => ⟨e, hder, rfl⟩⟩
  · have hcompress := SignatureData.compress_short evidence false authSize raw pem hne hlong hpem
    simp only [hcompress]
    exact ⟨by rw [if_neg (by simp)], fun h => absurd h hlong⟩

theorem compress_refused (evidence : Bytes) (resize : Bool)
    (h : ∀ sd, acceptedData io host evidence ≠ .ok sd) :
    ∃ e, compressPckCertificateChain io host evidence resize = (.error e, evidence) := by
  unfold compressPckCertificateChain
  split
  · exact ⟨_, rfl⟩
  · cases haccepted : acceptedData io host evidence with
    | error e => exact ⟨e, rfl⟩
    | ok sd => exact absurd haccepted (h sd)

theorem compress_ok_cases (hl : io.Sound) (evidence e₁ : Bytes) (resize : Bool)
    (h : compressPckCertificateChain io host evidence resize = (.ok (), e₁)) :
    ∃ authSize raw pem, Carries evidence authSize raw ∧
      436 + signatureLen host evidence ≤ evidence.length ∧
      1020 + authSize + raw.length ≤ evidence.length ∧ pemOf io.toOpenSsl raw = .ok pem ∧
      (5 < raw.length → ∃ chain, certificatesIn io raw = .ok chain) := by
  by_cases haccepted : ∃ sd, acceptedData io host evidence = .ok sd
  · obtain ⟨sd, hsd⟩ := haccepted
    obtain ⟨authSize, raw, pem, hc, hlen, hinside, hpem, -⟩ := acceptedData_ok io host evidence sd hsd
    refine ⟨authSize, raw, pem, hc, hlen, hinside, hpem, fun hlong => ?_⟩
    by_contra hnone
    obtain ⟨e, -, hthrows⟩ := (compress_no_chain host hl evidence resize authSize raw pem hc hlen hinside
      hpem (fun _ chain hchain => hnone ⟨chain, hchain⟩)).2 hlong
    rw [hthrows] at h
    cases (Prod.mk.inj h).1
  · obtain ⟨e, hthrows⟩ := compress_refused host evidence resize (fun sd hsd => haccepted ⟨sd, hsd⟩)
    rw [hthrows] at h
    cases (Prod.mk.inj h).1

/-! ### A second compression -/

variable (io)

/-- Wherever a chain is found in the evidence, it is DER and has nothing behind it, and the
signature is too short for the difference to the PEM copy. -/
def Settled (evidence : Bytes) : Prop :=
  ∀ authSize raw pem chain, Carries evidence authSize raw → 5 < raw.length →
    436 + signatureLen host evidence ≤ evidence.length →
    1020 + authSize + raw.length ≤ evidence.length →
    pemOf io.toOpenSsl raw = .ok pem → certificatesIn io raw = .ok chain →
    raw = chainDer io chain ∧
      signatureLen host evidence ≤ pem.length - (chainDer io chain).length

variable {io}

theorem Carries.unique {evidence raw raw' : Bytes} {a a' : ℕ} (h : Carries evidence a raw)
    (h' : Carries evidence a' raw') : a' = a ∧ raw' = raw := by
  obtain rfl : a' = a := by rw [← h'.auth, h.auth]
  have hlength : raw'.length = raw.length := by rw [← h'.certSize, h.certSize]
  exact ⟨rfl, by rw [← h'.cert, hlength, h.cert]⟩

theorem settled_iff_of_chain {evidence raw : Bytes} {authSize : ℕ} (pem : Bytes)
    (chain : List X509) (hc : Carries evidence authSize raw) (hlong : 5 < raw.length)
    (hlen : 436 + signatureLen host evidence ≤ evidence.length)
    (hinside : 1020 + authSize + raw.length ≤ evidence.length)
    (hpem : pemOf io.toOpenSsl raw = .ok pem) (hchain : certificatesIn io raw = .ok chain) :
    Settled io host evidence ↔ raw = chainDer io chain ∧
      signatureLen host evidence ≤ pem.length - (chainDer io chain).length := by
  constructor
  · intro h
    exact h authSize raw pem chain hc hlong hlen hinside hpem hchain
  · intro h a raw' pem' chain' hc' _ _ _ hpem' hchain'
    obtain ⟨rfl, rfl⟩ := Carries.unique hc hc'
    rw [hpem] at hpem'
    rw [hchain] at hchain'
    obtain rfl := Except.ok.inj hpem'
    obtain rfl := Except.ok.inj hchain'
    exact h

theorem moved_ne (evidence der : Bytes) (authSize k : ℕ) (resize : Bool) (hkpos : 0 < k)
    (hkl : k < signatureLen host evidence)
    (hlen : 436 + signatureLen host evidence ≤ evidence.length) :
    moved (writeChain evidence (1014 + authSize) der) (signatureLen host evidence) k resize ≠
      evidence := by
  intro hsame
  have hfield : signatureLen host evidence < 256 ^ 4 := readLe_lt _ _ _
  have hread := sub_moved_signatureLen (writeChain evidence (1014 + authSize) der)
    (signatureLen host evidence) k resize hkl (by rw [writeChain_length]; exact hlen)
  rw [hsame] at hread
  have hvalue : signatureLen host evidence = signatureLen host evidence - k := by
    calc signatureLen host evidence = leVal (sub evidence 432 4) :=
          signatureLen_eq host evidence (by omega)
      _ = _ := congrArg leVal hread
      _ = _ := leVal_leBytes _ _ (by omega)
  omega

theorem writeChain_eq_after (evidence der : Bytes) (authSize : ℕ) :
    writeChain evidence (1014 + authSize) der =
      afterCompression evidence der authSize 0 0 evidence.length := by
  rw [afterCompression, shortenSignature, if_neg (lt_irrefl 0),
    List.take_of_length_le (by rw [writeChain_length])]

theorem writeChain_same {evidence raw : Bytes} {authSize : ℕ} (der : Bytes)
    (hc : Carries evidence authSize raw) (hfits : der.length ≤ raw.length)
    (hinside : 1020 + authSize + raw.length ≤ evidence.length)
    (hsame : writeChain evidence (1014 + authSize) der = evidence) : raw = der := by
  have hbound := leVal_lt (sub evidence (1016 + authSize) 4)
  rw [hc.certSize, sub_length _ _ _ (by omega)] at hbound
  have hafter : afterCompression evidence der authSize 0 0 evidence.length = evidence := by
    rw [← writeChain_eq_after, hsame]
  have hsize := @sub_afterCompression_size evidence der authSize 0 0 evidence.length (by omega)
    (le_refl _)
  have hplace := @sub_afterCompression_chain evidence der authSize 0 0 evidence.length (by omega)
    (le_refl _)
  rw [hafter] at hsize hplace
  have hlength : raw.length = der.length := by
    rw [← hc.certSize, hsize, leVal_leBytes _ _ (by omega)]
  rw [← hc.cert, hlength, hplace]

/-- Settled evidence is left as it is: DER that stands there is written over with itself. -/
theorem compress_settled (hl : io.Sound) (evidence : Bytes) (resize : Bool)
    (h : Settled io host evidence) : (compressPckCertificateChain io host evidence resize).2 = evidence := by
  by_cases haccepted : ∃ sd, acceptedData io host evidence = .ok sd
  · obtain ⟨sd, hsd⟩ := haccepted
    obtain ⟨authSize, raw, pem, hc, hlen, hinside, hpem, -⟩ := acceptedData_ok io host evidence sd hsd
    by_cases hfound : 5 < raw.length ∧ ∃ chain, certificatesIn io raw = .ok chain
    · obtain ⟨hlong, chain, hchain⟩ := hfound
      obtain ⟨hraw, hsigned⟩ := h authSize raw pem chain hc hlong hlen hinside hpem hchain
      have hroom : 1020 + authSize + (chainDer io chain).length ≤ evidence.length := hraw ▸ hinside
      rw [compress_written host hl evidence resize authSize raw pem chain hc hlong hlen hinside hroom hpem
        hchain _ rfl]
      simp only [if_neg (not_lt.2 hsigned)]
      rw [← hraw, writeChain_self evidence raw authSize hc hinside]
    · exact (compress_no_chain host hl evidence resize authSize raw pem hc hlen hinside hpem
        fun hlong chain hchain => hfound ⟨hlong, chain, hchain⟩).1
  · obtain ⟨e, hthrows⟩ := compress_refused host evidence resize (fun sd hsd => haccepted ⟨sd, hsd⟩)
    rw [hthrows]

theorem compress_unchanged_iff (hl : io.Lawful) (evidence : Bytes) (resize : Bool) :
    (compressPckCertificateChain io host evidence resize).2 = evidence ↔ Settled io host evidence := by
  refine ⟨fun hsame => ?_, compress_settled host hl.toSound evidence resize⟩
  intro authSize raw pem chain hc hlong hlen hinside hpem hchain
  obtain ⟨-, hfits, hshort⟩ := certificatesIn_fits hl raw pem chain hlong hpem hchain
  rw [compress_chain host hl evidence resize authSize raw pem chain hc hlong hlen hinside hpem hchain _ rfl]
    at hsame
  by_cases hkl : pem.length - (chainDer io chain).length < signatureLen host evidence
  · simp only [if_pos hkl] at hsame
    exact absurd hsame (moved_ne host evidence _ authSize _ resize (by omega) hkl hlen)
  · simp only [if_neg hkl] at hsame
    exact ⟨writeChain_same _ hc hfits hinside hsame, by omega⟩

theorem settled_der_iff (hl : io.Lawful) (evidence : Bytes) (authSize : ℕ) (chain : List X509)
    (hne : chain ≠ []) (hc : Carries evidence authSize (chainDer io chain))
    (hlen : 436 + signatureLen host evidence ≤ evidence.length)
    (hinside : 1020 + authSize + (chainDer io chain).length ≤ evidence.length) :
    Settled io host evidence ↔ signatureLen host evidence ≤
      (chainPem io chain).length - (chainDer io chain).length := by
  obtain ⟨hpem, hchain, hlong⟩ := hl.pemOf_chainDer chain hne
  rw [settled_iff_of_chain host _ chain hc hlong hlen hinside hpem hchain]
  exact ⟨fun h => h.2, fun h => ⟨rfl, h⟩⟩

theorem carries_moved {evidence raw : Bytes} {authSize : ℕ} (hc : Carries evidence authSize raw)
    (len k : ℕ) (resize : Bool) (hk : k ≤ len) (hlen : 436 + len ≤ evidence.length)
    (hfront : 1020 + authSize + raw.length ≤ 436 + len - k) :
    Carries (moved evidence len k resize) authSize raw := by
  have hkept (o n : ℕ) (hsig : o + n ≤ 432 ∨ 436 ≤ o) (ho : o + n ≤ 1020 + authSize + raw.length) :
      sub (moved evidence len k resize) o n = sub evidence o n :=
    sub_moved evidence len k resize o n hk hlen hsig (by omega)
  exact {
    version := by rw [hkept 0 2 (by omega) (by omega), hc.version]
    signType := by rw [hkept 2 2 (by omega) (by omega), hc.signType]
    auth := by rw [hkept 1012 2 (by omega) (by omega), hc.auth]
    authPos := hc.authPos
    certType := by rw [hkept (1014 + authSize) 2 (by omega) (by omega), hc.certType]
    certSize := by rw [hkept (1016 + authSize) 4 (by omega) (by omega), hc.certSize]
    certPos := hc.certPos
    cert := by rw [hkept (1020 + authSize) raw.length (by omega) (by omega), hc.cert] }

/-- The bytes that the first compression moves forward come to lie on the chain. -/
def Overlaps (s : ChainSizes) : Prop :=
  s.first < s.signatureLen ∧ 436 + s.signatureLen < s.first + s.certOff + s.der

variable (io)

/-- The second compression finds nothing long enough to shorten; where the first one moved the
tail over the chain, what lies there then is settled. -/
def SecondIdle (evidence : Bytes) (authSize : ℕ) (chain : List X509) (s : ChainSizes)
    (resize : Bool) : Prop :=
  (¬ Overlaps s → s.shortened ≤ s.second) ∧
  (Overlaps s → Settled io host (moved (writeChain evidence (1014 + authSize) (chainDer io chain))
    s.signatureLen s.first resize))

variable {io}

theorem settled_first_iff (hl : io.Lawful) (host' : Host) (evidence : Bytes) (resize : Bool)
    (authSize : ℕ) (raw pem : Bytes) (chain : List X509) (hc : Carries evidence authSize raw)
    (hlong : 5 < raw.length) (hlen : 436 + signatureLen host evidence ≤ evidence.length)
    (hinside : 1020 + authSize + raw.length ≤ evidence.length)
    (hpem : pemOf io.toOpenSsl raw = .ok pem) (hchain : certificatesIn io raw = .ok chain)
    (s : ChainSizes) (hs : s = ⟨evidence.length, leVal (sub evidence 432 4), 1020 + authSize,
      pem.length, (chainDer io chain).length, (chainPem io chain).length⟩) :
    Settled io host' (if s.first < s.signatureLen then
        moved (writeChain evidence (1014 + authSize) (chainDer io chain)) s.signatureLen s.first resize
      else writeChain evidence (1014 + authSize) (chainDer io chain)) ↔
      SecondIdle io host' evidence authSize chain s resize := by
  obtain ⟨hne, hfits, hshort⟩ := certificatesIn_fits hl raw pem chain hlong hpem hchain
  have hderLong := (hl.pemOf_chainDer chain hne).2.2
  have hderne : chainDer io chain ≠ [] := List.ne_nil_of_length_pos (by omega)
  have hfield : signatureLen host evidence = s.signatureLen := by
    rw [hs]
    exact signatureLen_eq host evidence (by omega)
  have hfield' : signatureLen host' evidence = s.signatureLen := by
    rw [hs]
    exact signatureLen_eq host' evidence (by omega)
  have hcertOff : s.certOff = 1020 + authSize := by rw [hs]
  have hder : s.der = (chainDer io chain).length := by rw [hs]
  have hsecond : s.second = (chainPem io chain).length - (chainDer io chain).length := by rw [hs]; rfl
  have hwlen := writeChain_length evidence (1014 + authSize) (chainDer io chain)
  have hwritten : Carries (writeChain evidence (1014 + authSize) (chainDer io chain)) authSize
      (chainDer io chain) := by
    rw [writeChain_eq_after]
    exact carries_afterCompression hc hderne hfits (by omega) (le_refl _)
  have hwsig : signatureLen host' (writeChain evidence (1014 + authSize) (chainDer io chain)) =
      s.signatureLen := by
    rw [signatureLen_eq host' _ (by omega), writeChain,
      sub_patch_other _ _ _ _ _ (by rw [leBytes_length]; omega),
      sub_patch_other _ _ _ _ _ (by omega), ← signatureLen_eq host' evidence (by omega), hfield']
  have hsigned : 436 + s.signatureLen ≤ evidence.length := by omega
  have hsmall : s.signatureLen < 256 ^ 4 := hfield ▸ readLe_lt _ _ _
  have hfirst : 0 < s.first := by
    rw [hs]
    show 0 < pem.length - (chainDer io chain).length
    omega
  unfold SecondIdle Overlaps ChainSizes.shortened
  rw [hcertOff, hder, hsecond]
  by_cases hkl : s.first < s.signatureLen
  · rw [if_pos hkl, if_pos hkl]
    by_cases hover : 436 + s.signatureLen < s.first + (1020 + authSize) + (chainDer io chain).length
    · exact ⟨fun h => ⟨fun hno => absurd ⟨hkl, hover⟩ hno, fun _ => h⟩, fun h => h.2 ⟨hkl, hover⟩⟩
    · have hnot : ¬ (s.first < s.signatureLen ∧
          436 + s.signatureLen < s.first + (1020 + authSize) + (chainDer io chain).length) :=
        fun h => hover h.2
      have hcarried := carries_moved hwritten s.signatureLen s.first resize (by omega) (by omega)
        (by omega)
      have hlength := moved_length (writeChain evidence (1014 + authSize) (chainDer io chain))
        s.signatureLen s.first resize
      have hin : 436 + (s.signatureLen - s.first) ≤
          (moved (writeChain evidence (1014 + authSize) (chainDer io chain)) s.signatureLen s.first
            resize).length := by
        rw [hlength]
        split <;> omega
      have hsig : signatureLen host' (moved (writeChain evidence (1014 + authSize) (chainDer io chain))
          s.signatureLen s.first resize) = s.signatureLen - s.first := by
        rw [signatureLen_eq host' _ (by omega),
          sub_moved_signatureLen _ _ _ _ hkl (by omega), leVal_leBytes _ _ (by omega)]
      rw [settled_der_iff host' hl _ authSize chain hne hcarried (by omega) (by omega), hsig]
      exact ⟨fun h => ⟨fun _ => h, fun ho => absurd ho hnot⟩, fun h => h.1 hnot⟩
  · have hnot : ¬ (s.first < s.signatureLen ∧
        436 + s.signatureLen < s.first + (1020 + authSize) + (chainDer io chain).length) :=
      fun h => hkl h.1
    rw [if_neg hkl, if_neg hkl,
      settled_der_iff host' hl _ authSize chain hne hwritten (by omega) (by omega), hwsig]
    exact ⟨fun h => ⟨fun _ => h, fun ho => absurd ho hnot⟩, fun h => h.1 hnot⟩

theorem compress_twice_iff (hl : io.Lawful) (host' : Host) (evidence e₁ : Bytes) (resize : Bool)
    (hfirst : compressPckCertificateChain io host evidence resize = (.ok (), e₁)) :
    (compressPckCertificateChain io host' e₁ resize).2 = e₁ ↔
      NoChain evidence ∨ ∃ authSize chain s, Measured io evidence authSize chain s ∧
        SecondIdle io host' evidence authSize chain s resize := by
  obtain ⟨authSize, raw, pem, hc, hlen, hinside, hpem, hreadable⟩ :=
    compress_ok_cases host hl.toSound evidence e₁ resize hfirst
  have hsize : leVal (sub evidence (1016 + leVal (sub evidence 1012 2)) 4) = raw.length := by
    rw [hc.auth, hc.certSize]
  rw [compress_unchanged_iff host' hl]
  by_cases hlong : 5 < raw.length
  · obtain ⟨chain, hchain⟩ := hreadable hlong
    obtain ⟨s, hs⟩ : ∃ s : ChainSizes, s = ⟨evidence.length, leVal (sub evidence 432 4),
      1020 + authSize, pem.length, (chainDer io chain).length, (chainPem io chain).length⟩ := ⟨_, rfl⟩
    have hmeasured : Measured io evidence authSize chain s :=
      ⟨raw, pem, hc, hlong, hinside, hpem, hchain, hs⟩
    have hfield : signatureLen host evidence = s.signatureLen := by
      rw [hs]
      exact signatureLen_eq host evidence (by omega)
    have hno : ¬ NoChain evidence := by
      rw [NoChain, hsize]
      omega
    rw [compress_chain host hl evidence resize authSize raw pem chain hc hlong hlen hinside hpem hchain
      s.first (by rw [hs]; rfl), hfield] at hfirst
    have hagain := settled_first_iff host hl host' evidence resize authSize raw pem chain hc hlong hlen
      hinside hpem hchain s hs
    rw [← (Prod.mk.inj hfirst).2, hagain]
    constructor
    · intro h
      exact Or.inr ⟨_, _, _, hmeasured, h⟩
    · intro hor
      obtain h | ⟨a, chain', t, ht, h⟩ := hor
      · exact absurd h hno
      · obtain ⟨rfl, rfl, rfl⟩ := ht.unique hmeasured
        exact h
  · have hsame := (compress_no_chain host hl.toSound evidence resize authSize raw pem hc hlen hinside hpem
      (fun h => absurd h hlong)).1
    rw [hfirst] at hsame
    obtain rfl : e₁ = evidence := hsame
    have hno : NoChain e₁ := by
      rw [NoChain, hsize]
      omega
    refine ⟨fun _ => Or.inl hno, fun _ => ?_⟩
    intro a raw' pem' chain' hc' hlong' _ _ _ _
    obtain ⟨rfl, rfl⟩ := Carries.unique hc hc'
    exact absurd hlong' hlong

end

end Ravl.Oe
