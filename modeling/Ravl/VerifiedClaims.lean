import Ravl.ClaimsJson
import Ravl.Platforms
import Ravl.Sgx.Soundness

/-!
# The claims of a verification survive JSON

The numbers in them were read from fields of their widths, and the SGX claims in those of Open
Enclave are always there.
-/

namespace Ravl
open ByteLib FallibleLib

/-! ### SGX -/

namespace Sgx

/-- The numbers have the types of QL_QVE_Collateral. -/
structure QlQveCollateral.Fits (c : QlQveCollateral) : Prop where
  majorVersion : c.majorVersion < 2 ^ 16
  minorVersion : c.minorVersion < 2 ^ 16
  teeType : c.teeType < 2 ^ 32

theorem QlQveCollateral.fits_default : ({} : QlQveCollateral).Fits := ⟨by decide, by decide, by decide⟩

theorem get_lt (w n : ℕ) (data : Bytes) (pos : ℕ) (r : ℕ × ℕ) (h : get w n data pos = .ok r) :
    r.1 < 256 ^ n := by
  simp only [get, dataAt, bind_ok, refuse_ok, pure_ok] at h
  obtain ⟨-, -, bs, ⟨-, hinside, rfl⟩, rfl⟩ := h
  have hlt := beVal_lt (sub data pos n)
  rwa [sub_length _ _ _ (by omega)] at hlt

theorem QlQveCollateral.parse_fits (w : ℕ) (data : Bytes) (c : QlQveCollateral)
    (h : QlQveCollateral.parse w data = .ok c) : c.Fits := by
  simp only [QlQveCollateral.parse, bind_ok, pure_ok] at h
  obtain ⟨_, hmajor, _, hminor, _, htee, _, -, _, -, _, -, _, -, _, -, _, -, _, -, _, -, rfl⟩ := h
  exact ⟨get_lt w 2 data _ _ hmajor, get_lt w 2 data _ _ hminor, get_lt w 4 data _ _ htee⟩

/-- The responses replace texts only. -/
theorem consumeUrlResponses_fits (options : Options) (rs : HTTPResponses)
    (collateral : Option QlQveCollateral) (qve : Bool) (c : QlQveCollateral)
    (hfits : (collateral.getD {}).Fits)
    (h : consumeUrlResponses options rs collateral qve = .ok c) : c.Fits := by
  simp only [consumeUrlResponses, bind_ok] at h
  obtain ⟨_, -, ⟨r, i⟩, hca, h⟩ := h
  have hr : r.Fits := by
    unfold consumeRootCa at hca
    split at hca
    · simp only [bind_ok, pure_ok, Prod.mk.injEq] at hca
      obtain ⟨_, -, _, -, rfl, -⟩ := hca
      exact ⟨hfits.majorVersion, hfits.minorVersion, hfits.teeType⟩
    · simp only [pure_ok, Prod.mk.injEq] at hca
      obtain ⟨rfl, -⟩ := hca
      exact hfits
  split at h
  · simp only [consumeDocuments, bind_ok, pure_ok] at h
    obtain ⟨_, -, _, -, _, -, _, -, _, -, _, -, _, -, _, -, _, -, _, -, _, -, rfl⟩ := h
    exact ⟨hr.majorVersion, hr.minorVersion, hr.teeType⟩
  · rw [pure_ok] at h
    exact h ▸ hr

theorem usedCollateral_fits (a : Attestation) (options : Options)
    (httpResponses : Option HTTPResponses) (c : QlQveCollateral)
    (h : usedCollateral a options httpResponses = .ok (some c)) : c.Fits := by
  unfold usedCollateral at h
  simp only [bind_ok] at h
  obtain ⟨collateral, hembedded, h⟩ := h
  have hembeddedFits : ∀ c₀, collateral = some c₀ → c₀.Fits := by
    rintro c₀ rfl
    exact QlQveCollateral.parse_fits 64 _ c₀ (embeddedCollateral_parse _ c₀ hembedded).2
  obtain _ | _ | ⟨response, rs⟩ := httpResponses
  · exact hembeddedFits c ((pure_ok _ _).1 h)
  · exact hembeddedFits c ((pure_ok _ _).1 h)
  · simp only [bind_ok, pure_ok, Option.some.injEq] at h
    obtain ⟨c', hconsume, rfl⟩ := h
    refine consumeUrlResponses_fits options _ collateral false c' ?_ hconsume
    cases collateral with
    | none => exact QlQveCollateral.fits_default
    | some c₀ => exact hembeddedFits c₀ rfl

section
variable {X509 Crl Pkey : Type} (ssl : OpenSsl X509 Crl Pkey) (host : Host)

theorem parsedClaims_fits (m unset : Memory) (evidenceSize : ℕ) (sd : SignatureData)
    (h : SignatureData.parse ssl m evidenceSize = .ok sd) : (makeClaims m unset sd).Fits := by
  have hplaced := SignatureData.parse_ok ssl m evidenceSize sd h
  refine makeClaims_fits m unset sd ?_ ?_ ?_
  · rw [hplaced.quoteSignature]
  · rw [hplaced.publicKey]
  · rw [hplaced.reportSignature]

theorem verify_fits (a : Attestation) (options : Options) (httpResponses : Option HTTPResponses)
    (claims : Claims) (h : verify ssl host a options httpResponses = .ok claims) : claims.Fits := by
  simp only [verify, bind_ok, pure_ok] at h
  obtain ⟨r, hr, rfl⟩ := h
  by_cases hmode : options.isPartial = true
  · obtain ⟨run⟩ := verifyRun_partial ssl host a options httpResponses r hmode hr
    rw [run.claims]
    exact parsedClaims_fits ssl _ _ _ _ run.signatureData
  · obtain ⟨run⟩ := verifyRun_full ssl host a options httpResponses r (Bool.not_eq_true _ ▸ hmode) hr
    have hquote := parsedClaims_fits ssl _ host.unset _ _ run.signatureData
    have hcollateral := usedCollateral_fits a options httpResponses run.c run.used
    rw [run.claims]
    exact { hquote with
      endorsements := ⟨hcollateral.majorVersion, hcollateral.minorVersion, hcollateral.teeType⟩ }

end

end Sgx

/-! ### SEV/SNP -/

theorem SevSnp.verify_fits {X509 Crl Pkey : Type} (ssl : OpenSsl X509 Crl Pkey) (host : Host)
    (a : Attestation) (options : Options) (httpResponses : Option HTTPResponses)
    (claims : SevSnp.Claims) (h : SevSnp.verify ssl host a options httpResponses = .ok claims) :
    claims.Fits := by
  simp only [verify, verifyRun, bind_ok, pure_ok] at h
  obtain ⟨r, ⟨_, -, e, -, _, -, ⟨chain, store⟩, -, h⟩, rfl⟩ := h
  split at h
  · simp only [bind_ok, pure_ok] at h
    obtain ⟨_, -, claims, hclaims, rfl⟩ := h
    exact readClaims_fits ssl _ _ claims hclaims
  · cases h

/-! ### Open Enclave -/

namespace Oe

/-- The std::map of these pairs, which stand in the order in which they were put into it -/
def ClaimsMap.sortedMap (map : ClaimsMap) : CustomClaims :=
  map.foldl (fun sorted e => sorted.emplace e.1 e.2) .empty

theorem lookup_emplaceEntry (name value n : Bytes) (entries : List (Bytes × Bytes))
    (hsorted : entries.Pairwise fun a b => a.1 < b.1) :
    (emplaceEntry name value entries).lookup n = (entries.lookup n).or ([(name, value)].lookup n) := by
  have hself (v : Bytes) (es : List (Bytes × Bytes)) : ((n, v) :: es).lookup n = some v := by
    rw [List.lookup_cons, beq_self_eq_true]
  have hother (m v : Bytes) (es : List (Bytes × Bytes)) (hne : n ≠ m) :
      ((m, v) :: es).lookup n = es.lookup n := by
    rw [List.lookup_cons, beq_false_of_ne hne]
  induction entries with
  | nil => rfl
  | cons a entries ih =>
    obtain ⟨m, v⟩ := a
    obtain ⟨hfirst, hrest⟩ := List.pairwise_cons.1 hsorted
    rw [emplaceEntry]
    split
    next heq =>
      by_cases hn : n = m
      · rw [← hn, hself, Option.some_or]
      · rw [hother name value [] fun h => hn (h.trans heq.symm), List.lookup_nil, Option.or_none]
    next hne =>
      split
      next hlt =>
        by_cases hn : n = name
        · have habsent : ((m, v) :: entries).lookup name = none := by
            refine List.lookup_eq_none_iff.2 fun e he => bne_iff_ne.2 fun heq => ?_
            rcases List.mem_cons.1 he with rfl | he
            · exact hne heq.symm
            · have hgt : name < e.1 := List.lt_trans hlt (hfirst e he)
              rw [← heq] at hgt
              exact List.lt_irrefl name hgt
          subst hn
          rw [habsent, hself, hself]
          rfl
        · rw [hother _ _ _ hn, hother name value [] hn, List.lookup_nil, Option.or_none]
      next =>
        by_cases hn : n = m
        · rw [← hn, hself, hself, Option.some_or]
        · rw [hother _ _ _ hn, hother _ _ _ hn, ih hrest]

theorem lookup_sortedMap (map : ClaimsMap) (n : Bytes) :
    map.sortedMap.entries.lookup n = map.lookup n := by
  have hfold (sorted : CustomClaims) :
      (map.foldl (fun sorted e => sorted.emplace e.1 e.2) sorted).entries.lookup n =
        (sorted.entries.lookup n).or (map.lookup n) := by
    induction map generalizing sorted with
    | nil => exact Option.or_none.symm
    | cons e map ih =>
      have hcons : e :: map = [e] ++ map := rfl
      rw [List.foldl_cons, ih]
      show ((emplaceEntry e.1 e.2 sorted.entries).lookup n).or _ = _
      rw [lookup_emplaceEntry _ _ _ _ sorted.sorted, Option.or_assoc, hcons, List.lookup_append]
  exact hfold .empty

/-- The object behind the claims -/
def Claims.object (c : Claims) : ClaimsObject ClaimsFields :=
  ⟨.openEnclave, ⟨some ⟨.sgx, c.sgxClaims⟩, c.customClaims.sortedMap⟩⟩

theorem verifyExtracted_fits {X509 Crl Pkey : Type} (ssl : OpenSsl X509 Crl Pkey) (host : Host)
    (sgx : Ravl.Attestation) (customClaims : Bytes) (options : Options)
    (httpResponses : Option HTTPResponses) (claims : Claims)
    (h : verifyExtracted ssl host sgx customClaims options httpResponses = .ok claims) :
    claims.sgxClaims.Fits := by
  simp only [verifyExtracted, bind_ok, pure_ok] at h
  obtain ⟨sgxClaims, hsgx, map, -, rfl⟩ := h
  exact Sgx.verify_fits ssl host sgx options httpResponses sgxClaims hsgx

theorem verify_fits {X509 Crl Pkey : Type} (ssl : OpenSsl X509 Crl Pkey) (host : Host)
    (a : Attestation) (options : Options) (httpResponses : Option HTTPResponses) (claims : Claims)
    (h : (a.verify ssl host options httpResponses).1 = .ok claims) : claims.sgxClaims.Fits := by
  unfold Attestation.verify at h
  split at h
  · exact verifyExtracted_fits ssl host _ _ options httpResponses claims h
  · split at h
    · cases h
    · split at h
      · cases h
      · exact verifyExtracted_fits ssl host _ _ options httpResponses claims h

end Oe

/-! ### Every platform -/

section
variable (dbl : Doubles) (unset : Sgx.Claims)

/-- Written and read back, the claims are the same. -/
def PlatformClaims.Survive : PlatformClaims → Prop
  | sgx c => RoundTrips (recordSerializer (Sgx.claimsFields dbl)) .sgx ⟨.sgx, c⟩
  | sevSnp c => RoundTrips (recordSerializer (SevSnp.claimsFields dbl)) .sevSnp ⟨.sevSnp, c⟩
  | openEnclave c => RoundTrips (recordSerializer (Oe.claimsFields dbl unset)) .openEnclave c.object

theorem sgxClaims_survive (c : Sgx.Claims) (h : c.Fits) : (PlatformClaims.sgx c).Survive dbl unset :=
  (Sgx.roundTrips_iff dbl ⟨.sgx, c⟩ h).2 rfl

theorem sevSnpClaims_survive (c : SevSnp.Claims) (h : c.Fits) :
    (PlatformClaims.sevSnp c).Survive dbl unset :=
  (SevSnp.roundTrips_iff dbl ⟨.sevSnp, c⟩ h).2 rfl

theorem oeClaims_survive (c : Oe.Claims) (h : c.sgxClaims.Fits) :
    (PlatformClaims.openEnclave c).Survive dbl unset := by
  have hfits : c.object.fields.Fits := by
    intro sgx hsgx
    cases hsgx
    exact h
  exact (Oe.roundTrips_iff dbl unset c.object hfits).2 ⟨⟨_, rfl, rfl⟩, rfl⟩

/-- What a verification returns survives, on every platform. -/
theorem verifiedClaims_survive {X509 Crl Pkey : Type} (p : Platform X509 Crl Pkey)
    (a : AttestationObject) (options : Options) (httpResponses : Option HTTPResponses)
    (claims : PlatformClaims) (h : (a.verify p options httpResponses).1 = .ok claims) :
    claims.Survive dbl unset := by
  cases a with
  | sgx evidence endorsements =>
    obtain ⟨c, hc, rfl⟩ := map_ok.1 h
    exact sgxClaims_survive dbl unset c (Sgx.verify_fits p.ssl p.host _ options httpResponses c hc)
  | sevSnp evidence endorsements =>
    obtain ⟨c, hc, rfl⟩ := map_ok.1 h
    exact sevSnpClaims_survive dbl unset c (SevSnp.verify_fits p.ssl p.host _ options httpResponses c hc)
  | openEnclave object =>
    obtain ⟨c, hc, rfl⟩ := map_ok.1 h
    exact oeClaims_survive dbl unset c (Oe.verify_fits p.ssl p.host object options httpResponses c hc)
  | aci evidence endorsements uvmEndorsements =>
    obtain ⟨c, hc, rfl⟩ := map_ok.1 h
    simp only [verifyAci, bind_ok, pure_ok] at hc
    obtain ⟨snp, hsnp, _, -, rfl⟩ := hc
    exact sevSnpClaims_survive dbl unset snp (SevSnp.verify_fits p.ssl p.host _ options httpResponses snp hsnp)

end

def quotePlatform : Platform Bytes Bytes Bytes where
  ssl := Sgx.lenientSsl
  host := plainHost
  verifyUvmEndorsements _ _ := .ok ()

def quoteObject : AttestationObject :=
  .sgx Sgx.sampleAttestation.evidence Sgx.sampleAttestation.endorsements

theorem verifiedClaims_survive_sample : ∃ claims : PlatformClaims,
    (quoteObject.verify quotePlatform Sgx.sampleOptions none).1 = .ok claims ∧
      claims.Survive plainHost.doubles countedSgxClaims.fields := by
  have hobject (a : Attestation) (claims : Sgx.Claims)
      (h : Sgx.verify quotePlatform.ssl quotePlatform.host ⟨.sgx, a.evidence, a.endorsements⟩
        Sgx.sampleOptions none = .ok claims) :
      ((AttestationObject.sgx a.evidence a.endorsements).verify quotePlatform Sgx.sampleOptions
        none).1 = .ok (.sgx claims) :=
    map_ok.2 ⟨claims, h, rfl⟩
  obtain ⟨r, hr⟩ := Sgx.verifyRun_sample
  have hverify : Sgx.verify Sgx.lenientSsl plainHost Sgx.sampleAttestation Sgx.sampleOptions none =
      .ok r.claims := by
    rw [Sgx.verify, hr]
    rfl
  have hclaims : (quoteObject.verify quotePlatform Sgx.sampleOptions none).1 = .ok (.sgx r.claims) :=
    hobject Sgx.sampleAttestation r.claims hverify
  exact ⟨.sgx r.claims, hclaims, verifiedClaims_survive plainHost.doubles countedSgxClaims.fields
    quotePlatform quoteObject Sgx.sampleOptions none _ hclaims⟩

end Ravl
