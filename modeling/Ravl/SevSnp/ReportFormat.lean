import Ravl.SevSnp.Soundness
import Ravl.Sgx.QuoteFormat

/-!
# The report format (sev_snp_impl.h:86-153)

The packed structures as lists of fields, in the order of the declarations. A report made of them is
verified for what it was made of, and the endorsements that it asks for are those of its chip.
-/

namespace Ravl.SevSnp
open ByteLib FallibleLib CursorLib
open Sgx (ByteArrayOf)

/-! ### TcbVersion -/

structure TcbLayout where
  version : TCBVersion
  reserved : ByteArrayOf 4

def TcbLayout.bytes (t : TcbLayout) : Bytes :=
  [t.version.bootLoader, t.version.tee] ++ t.reserved ++ [t.version.snp, t.version.microcode]

theorem TcbLayout.bytes_length (t : TcbLayout) : t.bytes.length = 8 := by
  simp only [TcbLayout.bytes, List.length_append, t.reserved.length, List.length_cons, List.length_nil]

/-- Found at `off`, it is read back. -/
theorem TcbLayout.decodeTcbVersion_eq (t : TcbLayout) {e : Bytes} {off : ℕ} (h : sub e off 8 = t.bytes) :
    decodeTcbVersion e off = t.version := by
  have hbyte (i : ℕ) (hi : i < 8) : byteAt e (off + i) = (t.bytes[i]?).getD 0 := by
    rw [byteAt, ← sub_getElem? e off 8 i hi, h]
  have hfront : ([t.version.bootLoader, t.version.tee] ++ t.reserved.val).length = 6 := by
    rw [List.length_append, t.reserved.length]
    rfl
  have hzero : byteAt e off = t.version.bootLoader := hbyte 0 (by decide)
  have hone : byteAt e (off + 1) = t.version.tee := hbyte 1 (by decide)
  have hsix : byteAt e (off + 6) = t.version.snp := by
    rw [hbyte 6 (by decide), TcbLayout.bytes, List.getElem?_append_right hfront.le, hfront]
    rfl
  have hseven : byteAt e (off + 7) = t.version.microcode := by
    rw [hbyte 7 (by decide), TcbLayout.bytes, List.getElem?_append_right (by omega), hfront]
    rfl
  rw [decodeTcbVersion, hzero, hone, hsix, hseven]

/-! ### Attestation -/

structure ReportLayout where
  version : Fin (2 ^ 32)
  guestSvn : Fin (2 ^ 32)
  policy : Fin (2 ^ 64)
  familyId : ByteArrayOf 16
  imageId : ByteArrayOf 16
  vmpl : Fin (2 ^ 32)
  signatureAlgo : Fin (2 ^ 32)
  platformVersion : TcbLayout
  platformInfo : Fin (2 ^ 64)
  flags : Fin (2 ^ 32)
  reserved0 : ByteArrayOf 4
  reportData : ByteArrayOf 64
  measurement : ByteArrayOf 48
  hostData : ByteArrayOf 32
  idKeyDigest : ByteArrayOf 48
  authorKeyDigest : ByteArrayOf 48
  reportId : ByteArrayOf 32
  reportIdMa : ByteArrayOf 32
  reportedTcb : TcbLayout
  reserved1 : ByteArrayOf 24
  chipId : ByteArrayOf 64
  committedTcb : TcbLayout
  currentMinor : Byte
  currentBuild : Byte
  currentMajor : Byte
  reserved2 : Byte
  committedBuild : Byte
  committedMinor : Byte
  committedMajor : Byte
  reserved3 : Byte
  launchTcb : TcbLayout
  reserved4 : ByteArrayOf 168
  r : ByteArrayOf 72
  s : ByteArrayOf 72
  reservedSignature : ByteArrayOf 368

namespace ReportLayout
variable (l : ReportLayout)

/-- All fields before the signature -/
def signedParts : List Bytes :=
  [leBytes 4 l.version, leBytes 4 l.guestSvn, leBytes 8 l.policy, l.familyId, l.imageId,
    leBytes 4 l.vmpl, leBytes 4 l.signatureAlgo, l.platformVersion.bytes, leBytes 8 l.platformInfo,
    leBytes 4 l.flags, l.reserved0, l.reportData, l.measurement, l.hostData, l.idKeyDigest,
    l.authorKeyDigest, l.reportId, l.reportIdMa, l.reportedTcb.bytes, l.reserved1, l.chipId,
    l.committedTcb.bytes, [l.currentMinor, l.currentBuild, l.currentMajor, l.reserved2],
    [l.committedBuild, l.committedMinor, l.committedMajor, l.reserved3], l.launchTcb.bytes, l.reserved4]

def signatureParts : List Bytes := [l.r, l.s, l.reservedSignature]

/-- The message that the VCEK signs -/
def message : Bytes := l.signedParts.flatten

def bytes : Bytes := l.message ++ l.signatureParts.flatten

theorem signedLengths : l.signedParts.map List.length =
    [4, 4, 8, 16, 16, 4, 4, 8, 8, 4, 4, 64, 48, 32, 48, 48, 32, 32, 8, 24, 64, 8, 4, 4, 8, 168] := by
  simp only [signedParts, List.map_cons, List.map_nil, leBytes_length, ByteArrayOf.length,
    TcbLayout.bytes_length, List.length_cons, List.length_nil]

theorem signatureLengths : l.signatureParts.map List.length = [72, 72, 368] := by
  simp only [signatureParts, List.map_cons, List.map_nil, ByteArrayOf.length]

theorem message_length : l.message.length = 672 := by
  rw [message, List.length_flatten, l.signedLengths]
  rfl

theorem bytes_length : l.bytes.length = 1184 := by
  rw [bytes, List.length_append, l.message_length, List.length_flatten, l.signatureLengths]
  rfl

/-- Part `i` is found at the sum of the lengths before it. -/
theorem sub_part (i : ℕ) {part : Bytes} {off n : ℕ} (hpart : l.signedParts[i]? = some part)
    (hoff : ([4, 4, 8, 16, 16, 4, 4, 8, 8, 4, 4, 64, 48, 32, 48, 48, 32, 32, 8, 24, 64, 8, 4, 4, 8,
      168].take i).sum = off) (hn : part.length = n) : sub l.bytes off n = part := by
  have hahead : Ahead l.bytes 0 (l.signedParts.flatten ++ l.signatureParts.flatten) := Ahead.start _
  refine (hahead.sub_field i hpart ?_ hn).2
  rw [Nat.zero_add, partOffset, List.map_take, l.signedLengths, hoff]

theorem sub_number (i : ℕ) {off n v : ℕ} (hpart : l.signedParts[i]? = some (leBytes n v))
    (hoff : ([4, 4, 8, 16, 16, 4, 4, 8, 8, 4, 4, 64, 48, 32, 48, 48, 32, 32, 8, 24, 64, 8, 4, 4, 8,
      168].take i).sum = off) (hv : v < 256 ^ n) : leVal (sub l.bytes off n) = v := by
  rw [l.sub_part i hpart hoff (leBytes_length n v), leVal_leBytes n v hv]

/-- The fields of the claims that come from the report. -/
structure ShownBy (claims : Claims) : Prop where
  version : claims.version = l.version
  guestSvn : claims.guestSvn = l.guestSvn
  policy : claims.policy = l.policy
  familyId : claims.familyId = l.familyId
  imageId : claims.imageId = l.imageId
  vmpl : claims.vmpl = l.vmpl
  signatureAlgo : claims.signatureAlgo = l.signatureAlgo
  platformVersion : claims.platformVersion = l.platformVersion.version
  platformInfo : claims.platformInfo = l.platformInfo
  flags : claims.flags = l.flags
  reportData : claims.reportData = l.reportData
  measurement : claims.measurement = l.measurement
  hostData : claims.hostData = l.hostData
  idKeyDigest : claims.idKeyDigest = l.idKeyDigest
  authorKeyDigest : claims.authorKeyDigest = l.authorKeyDigest
  reportId : claims.reportId = l.reportId
  reportIdMa : claims.reportIdMa = l.reportIdMa
  reportedTcb : claims.reportedTcb = l.reportedTcb.version
  chipId : claims.chipId = l.chipId
  committedTcb : claims.committedTcb = l.committedTcb.version
  currentVersion : (claims.currentMajor, claims.currentMinor, claims.currentBuild) =
    (l.currentMajor, l.currentMinor, l.currentBuild)
  committedVersion : (claims.committedMajor, claims.committedMinor, claims.committedBuild) =
    (l.committedMajor, l.committedMinor, l.committedBuild)
  launchTcb : claims.launchTcb = l.launchTcb.version
  signature : claims.signature = ⟨l.r, l.s⟩

theorem decodeTcb (i : ℕ) (t : TcbLayout) {off : ℕ} (hpart : l.signedParts[i]? = some t.bytes)
    (hoff : ([4, 4, 8, 16, 16, 4, 4, 8, 8, 4, 4, 64, 48, 32, 48, 48, 32, 32, 8, 24, 64, 8, 4, 4, 8,
      168].take i).sum = off) : decodeTcbVersion l.bytes off = t.version :=
  t.decodeTcbVersion_eq (l.sub_part i hpart hoff t.bytes_length)

theorem byteAt_part (i : ℕ) {part : Bytes} {off : ℕ} (hpart : l.signedParts[i]? = some part)
    (hoff : ([4, 4, 8, 16, 16, 4, 4, 8, 8, 4, 4, 64, 48, 32, 48, 48, 32, 32, 8, 24, 64, 8, 4, 4, 8,
      168].take i).sum = off) {k : ℕ} {b : Byte} (hk : part[k]? = some b) :
    byteAt l.bytes (off + k) = b := by
  have hlt : k < part.length := by
    by_contra hle
    rw [List.getElem?_eq_none (Nat.le_of_not_lt hle)] at hk
    cases hk
  rw [byteAt, ← sub_getElem? l.bytes off part.length k hlt, l.sub_part i hpart hoff rfl, hk]
  rfl

theorem signature_eq : signatureIn (sub l.bytes 672 512) = ⟨l.r, l.s⟩ := by
  have hahead : Ahead l.bytes 672 (l.signatureParts.flatten ++ []) := by
    rw [List.append_nil]
    exact ⟨l.message, rfl, l.message_length⟩
  have hoff : 672 + partOffset l.signatureParts 1 = 744 := by
    rw [partOffset, List.map_take, l.signatureLengths]
    rfl
  have hr : sub l.bytes 672 72 = l.r := (hahead.sub_field 0 rfl rfl l.r.length).2
  have hs : sub l.bytes 744 72 = l.s := (hahead.sub_field 1 rfl hoff l.s.length).2
  rw [signatureIn, sub_sub l.bytes 672 512 0 72 (by decide), sub_sub l.bytes 672 512 72 72 (by decide),
    hr, hs]

theorem signed_eq : l.bytes.take (l.bytes.length - 512) = l.message := by
  rw [l.bytes_length, bytes, List.take_left' l.message_length]

theorem current (k : ℕ) {b : Byte}
    (hk : [l.currentMinor, l.currentBuild, l.currentMajor, l.reserved2][k]? = some b) :
    byteAt l.bytes (488 + k) = b :=
  l.byteAt_part 22 rfl rfl hk

theorem committed (k : ℕ) {b : Byte}
    (hk : [l.committedBuild, l.committedMinor, l.committedMajor, l.reserved3][k]? = some b) :
    byteAt l.bytes (492 + k) = b :=
  l.byteAt_part 23 rfl rfl hk

theorem shown {claims : Claims} (h : Decoded l.bytes claims) : l.ShownBy claims where
  version := h.version.trans (l.sub_number 0 rfl rfl l.version.isLt)
  guestSvn := h.guestSvn.trans (l.sub_number 1 rfl rfl l.guestSvn.isLt)
  policy := h.policy.trans (l.sub_number 2 rfl rfl l.policy.isLt)
  familyId := h.familyId.trans (l.sub_part 3 rfl rfl l.familyId.length)
  imageId := h.imageId.trans (l.sub_part 4 rfl rfl l.imageId.length)
  vmpl := h.vmpl.trans (l.sub_number 5 rfl rfl l.vmpl.isLt)
  signatureAlgo := h.signatureAlgo.trans (l.sub_number 6 rfl rfl l.signatureAlgo.isLt)
  platformVersion := h.platformVersion.trans (l.decodeTcb 7 l.platformVersion rfl rfl)
  platformInfo := h.platformInfo.trans (l.sub_number 8 rfl rfl l.platformInfo.isLt)
  flags := h.flags.trans (l.sub_number 9 rfl rfl l.flags.isLt)
  reportData := h.reportData.trans (l.sub_part 11 rfl rfl l.reportData.length)
  measurement := h.measurement.trans (l.sub_part 12 rfl rfl l.measurement.length)
  hostData := h.hostData.trans (l.sub_part 13 rfl rfl l.hostData.length)
  idKeyDigest := h.idKeyDigest.trans (l.sub_part 14 rfl rfl l.idKeyDigest.length)
  authorKeyDigest := h.authorKeyDigest.trans (l.sub_part 15 rfl rfl l.authorKeyDigest.length)
  reportId := h.reportId.trans (l.sub_part 16 rfl rfl l.reportId.length)
  reportIdMa := h.reportIdMa.trans (l.sub_part 17 rfl rfl l.reportIdMa.length)
  reportedTcb := h.reportedTcb.trans (l.decodeTcb 18 l.reportedTcb rfl rfl)
  chipId := h.chipId.trans (l.sub_part 20 rfl rfl l.chipId.length)
  committedTcb := h.committedTcb.trans (l.decodeTcb 21 l.committedTcb rfl rfl)
  currentVersion := h.currentVersion.trans
    (Prod.ext (l.current 2 rfl) (Prod.ext (l.current 0 rfl) (l.current 1 rfl)))
  committedVersion := h.committedVersion.trans
    (Prod.ext (l.committed 2 rfl) (Prod.ext (l.committed 1 rfl) (l.committed 0 rfl)))
  launchTcb := h.launchTcb.trans (l.decodeTcb 24 l.launchTcb rfl rfl)
  signature := h.signature.trans l.signature_eq

section
variable {X509 Crl Pkey : Type} (ssl : OpenSsl X509 Crl Pkey) (host : Host)

/-- The VCEK has signed every field but the signature. -/
def Signed (vcek : X509) : Prop :=
  l.signatureAlgo.val = ecdsaP384Sha384 ∧ ∃ key, ssl.pubkey vcek = .ok key ∧
    verifySignature ssl key l.message ⟨l.r, l.s⟩ = .ok true

theorem signed_iff (vcek : X509) : SignatureVerified ssl l.bytes vcek ↔ l.Signed ssl vcek := by
  have halgo : leVal (sub l.bytes signatureAlgoOff 4) = l.signatureAlgo :=
    l.sub_number 6 rfl rfl l.signatureAlgo.isLt
  have hsigned := l.signed_eq
  constructor
  · intro h
    obtain ⟨hone, key, hkey, hok⟩ := h
    rw [halgo] at hone
    rw [hsigned, l.signature_eq] at hok
    exact ⟨hone, key, hkey, hok⟩
  · intro h
    obtain ⟨hone, key, hkey, hok⟩ := h
    refine ⟨halgo.trans hone, key, hkey, ?_⟩
    rw [hsigned, l.signature_eq]
    exact hok

theorem requests_eq (source : Source) (endorsements : Bytes) (options : Options)
    (hversion : l.version.val = 2)
    (hdownload : ¬ (endorsements ≠ [] ∧ options.freshEndorsements = false)) :
    prepareEndorsements ssl host ⟨source, l.bytes, endorsements⟩ options =
      (downloadEndorsements ssl (text "Milan") l.chipId l.reportedTcb.version
        (leVal l.reportedTcb.bytes) options).map some := by
  have hlen := l.bytes_length
  have hread (off n : ℕ) (hn : off + n ≤ 1184) :
      readMem (mem l.bytes host.beyond) off n = sub l.bytes off n :=
    readMem_eq_sub l.bytes host.beyond off n (by omega)
  have htwo : readLe (mem l.bytes host.beyond) 0 4 = 2 := by
    rw [readLe, hread 0 4 (by decide), ← hversion]
    exact l.sub_number 0 rfl rfl l.version.isLt
  have hchip : readMem (mem l.bytes host.beyond) chipIdOff 64 = l.chipId :=
    (hread _ _ (by decide)).trans (l.sub_part 20 rfl rfl l.chipId.length)
  have htcb : readTcbVersion (mem l.bytes host.beyond) reportedTcbOff = l.reportedTcb.version :=
    (readTcbVersion_eq l.bytes host.beyond 384 (by omega)).trans (l.decodeTcb 18 l.reportedTcb rfl rfl)
  have hnumber : readLe (mem l.bytes host.beyond) reportedTcbOff 8 = leVal l.reportedTcb.bytes :=
    congrArg leVal ((hread _ _ (by decide)).trans (l.sub_part 18 rfl rfl l.reportedTcb.bytes_length))
  unfold prepareEndorsements
  dsimp only
  rw [htwo, hchip, htcb, hnumber, if_neg hdownload, refuse_of_not (by decide), ok_bind]
  rfl

/-- Claims are returned exactly when the chain and its root are accepted and the VCEK has signed all
fields before the signature; they are these fields. What is asked for is named after the chip and its
reported TCB. -/
theorem report_round_trip (source : Source) (endorsements : Bytes) (options : Options)
    (httpResponses : Option HTTPResponses) :
    ((∃ claims, verify ssl host ⟨source, l.bytes, endorsements⟩ options httpResponses = .ok claims) ↔
      ∃ vcek ark, ChainAccepted ssl ⟨source, l.bytes, endorsements⟩ options httpResponses vcek ark ∧
        RootAccepted ssl options ark ∧ l.Signed ssl vcek) ∧
    (∀ claims, verify ssl host ⟨source, l.bytes, endorsements⟩ options httpResponses = .ok claims →
      l.ShownBy claims) ∧
    (l.version.val = 2 → ¬ (endorsements ≠ [] ∧ options.freshEndorsements = false) →
      prepareEndorsements ssl host ⟨source, l.bytes, endorsements⟩ options =
        (downloadEndorsements ssl (text "Milan") l.chipId l.reportedTcb.version
          (leVal l.reportedTcb.bytes) options).map some) := by
  have hlen : 816 ≤ l.bytes.length := by
    rw [l.bytes_length]
    decide
  refine ⟨⟨?_, ?_⟩, fun claims h => ?_, l.requests_eq ssl host source endorsements options⟩
  · intro hparts
    obtain ⟨claims, h⟩ := hparts
    obtain ⟨⟨vcek, ark, hchain, hroot, hsigned⟩, -⟩ := verify_attested ssl host _ _ _ claims hlen h
    exact ⟨vcek, ark, hchain, hroot, (l.signed_iff ssl vcek).1 hsigned⟩
  · intro hparts
    obtain ⟨vcek, ark, hchain, hroot, hsigned⟩ := hparts
    exact verify_complete ssl host _ _ _ hlen ⟨vcek, ark, hchain, hroot, (l.signed_iff ssl vcek).2 hsigned⟩
  · exact l.shown (verify_attested ssl host _ _ _ claims hlen h).2

end

end ReportLayout

end Ravl.SevSnp
