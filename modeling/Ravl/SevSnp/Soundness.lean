import Ravl.SevSnp.ReportAccess

/-!
# Soundness of SEV/SNP verification

For a report of full length `verify` returns claims exactly when the chain, its root and the
signature of the report are accepted, and the claims are what the bytes `e` of the report say.
-/

namespace Ravl.SevSnp
open ByteLib FallibleLib

/-! ### The report as bytes -/

def byteAt (e : Bytes) (i : ℕ) : Byte := (e[i]?).getD 0

def decodeTcbVersion (e : Bytes) (off : ℕ) : TCBVersion :=
  ⟨byteAt e off, byteAt e (off + 1), byteAt e (off + 6), byteAt e (off + 7)⟩

/-- All fields that come from the report, as Table 21 lays them out. -/
structure Decoded (e : Bytes) (claims : Claims) : Prop where
  version : claims.version = leVal (sub e 0 4)
  guestSvn : claims.guestSvn = leVal (sub e 4 4)
  policy : claims.policy = leVal (sub e 8 8)
  familyId : claims.familyId = sub e 16 16
  imageId : claims.imageId = sub e 32 16
  vmpl : claims.vmpl = leVal (sub e 48 4)
  signatureAlgo : claims.signatureAlgo = leVal (sub e 52 4)
  platformVersion : claims.platformVersion = decodeTcbVersion e 56
  platformInfo : claims.platformInfo = leVal (sub e 64 8)
  flags : claims.flags = leVal (sub e 72 4)
  reportData : claims.reportData = sub e 80 64
  measurement : claims.measurement = sub e 144 48
  hostData : claims.hostData = sub e 192 32
  idKeyDigest : claims.idKeyDigest = sub e 224 48
  authorKeyDigest : claims.authorKeyDigest = sub e 272 48
  reportId : claims.reportId = sub e 320 32
  reportIdMa : claims.reportIdMa = sub e 352 32
  reportedTcb : claims.reportedTcb = decodeTcbVersion e 384
  chipId : claims.chipId = sub e 416 64
  committedTcb : claims.committedTcb = decodeTcbVersion e 480
  currentVersion : (claims.currentMajor, claims.currentMinor, claims.currentBuild) =
    (byteAt e 490, byteAt e 488, byteAt e 489)
  committedVersion : (claims.committedMajor, claims.committedMinor, claims.committedBuild) =
    (byteAt e 494, byteAt e 493, byteAt e 492)
  launchTcb : claims.launchTcb = decodeTcbVersion e 496
  signature : claims.signature = signatureIn (sub e 672 512)

theorem mem_byteAt (e : Bytes) (beyond : ℕ → Byte) (i : ℕ) (hi : i < e.length) :
    mem e beyond i = byteAt e i := by
  rw [byteAt, ← mem_inside e beyond i hi, Option.getD_some]

theorem readTcbVersion_eq (e : Bytes) (beyond : ℕ → Byte) (off : ℕ) (h : off + 8 ≤ e.length) :
    readTcbVersion (mem e beyond) off = decodeTcbVersion e off := by
  rw [readTcbVersion, decodeTcbVersion, mem_byteAt e beyond off (by omega),
    mem_byteAt e beyond (off + 1) (by omega), mem_byteAt e beyond (off + 6) (by omega),
    mem_byteAt e beyond (off + 7) (by omega)]

section
variable {X509 Crl Pkey : Type} (ssl : OpenSsl X509 Crl Pkey) (host : Host)

/-- The report up to its signature field, which starts 512 bytes before the end, is signed with
the key of `vcek`; the two coordinates are read at a fixed place. -/
structure SignatureVerified (e : Bytes) (vcek : X509) : Prop where
  algorithm : leVal (sub e signatureAlgoOff 4) = ecdsaP384Sha384
  signed : ∃ key, ssl.pubkey vcek = .ok key ∧
    verifySignature ssl key (e.take (e.length - 512)) (signatureIn (sub e 672 512)) = .ok true

def Accepted (a : Attestation) (options : Options) (httpResponses : Option HTTPResponses) : Prop :=
  ∃ vcek ark, ChainAccepted ssl a options httpResponses vcek ark ∧ RootAccepted ssl options ark ∧
    SignatureVerified ssl a.evidence vcek

theorem makeClaims_fields (evidence : Bytes) (e : EndorsementsEtc X509 Crl) (claims : Claims)
    (hlen : 816 ≤ evidence.length) (h : makeClaims ssl (mem evidence host.beyond) e = .ok claims) :
    Decoded evidence claims := by
  simp only [makeClaims, bind_ok, pure_ok] at h
  obtain ⟨root, -, rfl⟩ := h
  have hle (off n : ℕ) (hn : off + n ≤ 816) :
      readLe (mem evidence host.beyond) off n = leVal (sub evidence off n) :=
    readLe_eq_sub evidence host.beyond off n (by omega)
  have hmem (off n : ℕ) (hn : off + n ≤ 816) :
      readMem (mem evidence host.beyond) off n = sub evidence off n :=
    readMem_eq_sub evidence host.beyond off n (by omega)
  have htcb (off : ℕ) (hn : off + 8 ≤ 816) :
      readTcbVersion (mem evidence host.beyond) off = decodeTcbVersion evidence off :=
    readTcbVersion_eq evidence host.beyond off (by omega)
  have hbyte (i : ℕ) (hi : i < 816) : mem evidence host.beyond i = byteAt evidence i :=
    mem_byteAt evidence host.beyond i (by omega)
  constructor
  case signature => exact readSignature_eq host evidence hlen
  case currentVersion =>
    rw [Prod.mk.injEq, Prod.mk.injEq]
    exact ⟨hbyte 490 (by omega), hbyte 488 (by omega), hbyte 489 (by omega)⟩
  case committedVersion =>
    rw [Prod.mk.injEq, Prod.mk.injEq]
    exact ⟨hbyte 494 (by omega), hbyte 493 (by omega), hbyte 492 (by omega)⟩
  all_goals first
    | exact hle _ _ (by decide)
    | exact hmem _ _ (by decide)
    | exact htcb _ (by decide)

/-- The endorsements in the claims: the end of a trusted chain is their root certificate. -/
def claimedEndorsements (e : EndorsementsEtc X509 Crl) (ark : X509) : EndorsementsEtc X509 Crl :=
  if e.rootCaCertificate.isNone then { e with rootCaCertificate := some ark } else e

theorem verify_ok_iff (a : Attestation) (options : Options) (httpResponses : Option HTTPResponses)
    (claims : Claims) : verify ssl host a options httpResponses = .ok claims ↔
    ∃ vcek ark e, ChainAccepted ssl a options httpResponses vcek ark ∧
      verifyReport ssl a.evidence (mem a.evidence host.beyond) vcek ark options = .ok () ∧
      usedEndorsements ssl a options httpResponses = .ok e ∧
      makeClaims ssl (mem a.evidence host.beyond) (claimedEndorsements e ark) = .ok claims := by
  simp only [verify, verifyRun, bind_ok, refuse_ok, whenever_ok, pure_ok]
  constructor
  · intro hparts
    obtain ⟨r, ⟨_, hpresent, e, hused, _, hprint, ⟨chain, store⟩, hchain, h⟩, rfl⟩ := hparts
    split at h
    next vcek ask ark hthree =>
      have hthree : chain = [vcek, ask, ark] := hthree
      rw [hthree] at hchain
      simp only [bind_ok, pure_ok] at h
      obtain ⟨_, hreport, claims, hclaims, rfl⟩ := h
      exact ⟨vcek, ark, e, ⟨hpresent, e, hused, hprint, ask, store, hchain⟩, hreport, hused, hclaims⟩
    next => simp [throw_ok] at h
  · intro hparts
    obtain ⟨vcek, ark, e, ⟨hpresent, e', hused', hprint, ask, store, hchain⟩, hreport, hused, hclaims⟩ := hparts
    obtain rfl : e' = e := by
      rw [hused] at hused'
      cases hused'
      rfl
    refine ⟨⟨claims, store, claimedEndorsements e' ark⟩,
      ⟨(), hpresent, e', hused, (), hprint, _, hchain, ?_⟩, rfl⟩
    simp only [bind_ok, pure_ok]
    exact ⟨(), hreport, claims, hclaims, rfl⟩

theorem makeClaims_claimed (m : ℕ → Byte) (e : EndorsementsEtc X509 Crl) (ark : X509) :
    ∃ claims, makeClaims ssl m (claimedEndorsements e ark) = .ok claims := by
  unfold claimedEndorsements
  split
  · exact makeClaims_ok ssl m _ ark rfl
  next hroot =>
    obtain ⟨root, hroot⟩ := Option.ne_none_iff_exists'.1 (mt Option.isNone_iff_eq_none.2 hroot)
    exact makeClaims_ok ssl m e root hroot

theorem signatureVerified_iff (evidence : Bytes) (vcek ark : X509) (options : Options)
    (hlen : 816 ≤ evidence.length) :
    verifyReport ssl evidence (mem evidence host.beyond) vcek ark options = .ok () ↔
      RootAccepted ssl options ark ∧ SignatureVerified ssl evidence vcek := by
  rw [verifyReport_ok_iff, readAlgo_eq host evidence (by omega), readSignature_eq host evidence hlen]
  constructor
  · intro h
    obtain ⟨hroot, hone, -, hsigned⟩ := h
    exact ⟨hroot, hone, hsigned⟩
  · intro h
    obtain ⟨hroot, hone, hsigned⟩ := h
    exact ⟨hroot, hone, by omega, hsigned⟩

theorem verify_attested (a : Attestation) (options : Options) (httpResponses : Option HTTPResponses)
    (claims : Claims) (hlen : 816 ≤ a.evidence.length)
    (h : verify ssl host a options httpResponses = .ok claims) :
    Accepted ssl a options httpResponses ∧ Decoded a.evidence claims := by
  obtain ⟨vcek, ark, e, hchain, hreport, -, hclaims⟩ := (verify_ok_iff ssl host a options _ claims).1 h
  obtain ⟨hroot, hsigned⟩ := (signatureVerified_iff ssl host a.evidence vcek ark options hlen).1 hreport
  exact ⟨⟨vcek, ark, hchain, hroot, hsigned⟩, makeClaims_fields ssl host a.evidence _ claims hlen hclaims⟩

theorem verify_complete (a : Attestation) (options : Options) (httpResponses : Option HTTPResponses)
    (hlen : 816 ≤ a.evidence.length) (h : Accepted ssl a options httpResponses) :
    ∃ claims, verify ssl host a options httpResponses = .ok claims := by
  obtain ⟨vcek, ark, hchain, hroot, hsigned⟩ := h
  obtain ⟨e, hused, -⟩ := hchain.2
  have hreport := (signatureVerified_iff ssl host a.evidence vcek ark options hlen).2 ⟨hroot, hsigned⟩
  obtain ⟨claims, hclaims⟩ := makeClaims_claimed ssl (mem a.evidence host.beyond) e ark
  exact ⟨claims, (verify_ok_iff ssl host a options _ claims).2
    ⟨vcek, ark, e, hchain, hreport, hused, hclaims⟩⟩

end

end Ravl.SevSnp
