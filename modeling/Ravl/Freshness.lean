import Ravl.SevSnp
import Ravl.Sgx.Soundness
import Ravl.Sgx.Requests

/-!
# Fresh endorsements

With `fresh_endorsements` set, an attestation that also carries endorsements
should be checked against the downloaded ones alone. A document comes from the
responses when it is the content of one of them and stays the same whatever
endorsements the attestation carries.
-/

namespace Ravl
open ByteLib FallibleLib

/-! ### SGX -/

section
variable {X509 Crl Pkey : Type} (ssl : OpenSsl X509 Crl Pkey) (host : Host)

/-- Every document of the collateral in use, with its issuer chain, comes from the responses;
the root certificate is not one of these documents. -/
structure Sgx.FromResponses (a : Attestation) (options : Options)
    (httpResponses : Option HTTPResponses) (c : Sgx.QlQveCollateral) : Prop where
  held : ∀ d, d ≠ Sgx.Document.rootCa →
    ∃ response ∈ httpResponses.getD [], Sgx.Holds c d response
  independent : ∀ endorsements c', endorsements ≠ [] →
    Sgx.usedCollateral { a with endorsements := endorsements } options httpResponses =
      .ok (some c') → ∀ d, d ≠ Sgx.Document.rootCa → Sgx.Kept c c' d

/-- The list is long enough for the consumer, and it may ask for as many. -/
def Sgx.ResponsesCount (options : Options) (httpResponses : Option HTTPResponses) : Prop :=
  httpResponses.getD [] ≠ [] ∧
    (options.rootCaCertificate = none ∨ options.freshRootCaCertificate = true)

theorem Sgx.usedCollateral_fresh (a : Attestation) (options : Options)
    (httpResponses : Option HTTPResponses) (c : Sgx.QlQveCollateral) (hne : a.endorsements ≠ [])
    (hfresh : options.freshEndorsements = true)
    (hcount : Sgx.ResponsesCount options httpResponses)
    (h : Sgx.usedCollateral a options httpResponses = .ok (some c)) (d : Sgx.Document)
    (hd : d ≠ .rootCa) :
    ∃ response, (httpResponses.getD [])[Sgx.responseIndex options d]? = some response ∧
      Sgx.Holds c d response := by
  simp only [Sgx.usedCollateral, bind_ok] at h
  obtain ⟨collateral, hcol, h⟩ := h
  obtain ⟨hsome, hask⟩ := hcount
  split at h
  next r rs =>
    simp only [bind_ok, pure_ok, Option.some.injEq] at h
    obtain ⟨c', hc, rfl⟩ := h
    have hlen := Sgx.consume_length options _ collateral c' hc
    have hfive : Sgx.expectedResponses options collateral = 5 := by
      cases collateral with
      | none => exact absurd (Sgx.embeddedCollateral_none _ hcol) hne
      | some e =>
        have he := (Sgx.embeddedCollateral_some _ e hcol).2
        rcases hask with hroot | hroot <;> simp [Sgx.expectedResponses, he, hroot, hfresh]
    exact Sgx.consume_many options _ collateral c' (by omega) hc d hd
  next hnone =>
    cases httpResponses with
    | none => exact absurd rfl hsome
    | some rs =>
      cases rs with
      | nil => exact absurd rfl hsome
      | cons r rs => exact absurd rfl (hnone r rs)

theorem Sgx.fromResponses_of_count (a : Attestation) (options : Options)
    (httpResponses : Option HTTPResponses) (c : Sgx.QlQveCollateral) (hne : a.endorsements ≠ [])
    (hfresh : options.freshEndorsements = true)
    (hcount : Sgx.ResponsesCount options httpResponses)
    (h : Sgx.usedCollateral a options httpResponses = .ok (some c)) :
    Sgx.FromResponses a options httpResponses c where
  held := by
    intro d hd
    obtain ⟨response, hresponse, hholds⟩ :=
      Sgx.usedCollateral_fresh a options httpResponses c hne hfresh hcount h d hd
    exact ⟨response, List.mem_of_getElem? hresponse, hholds⟩
  independent := by
    intro endorsements c' hne' h' d hd
    obtain ⟨response, hresponse, hholds⟩ :=
      Sgx.usedCollateral_fresh a options httpResponses c hne hfresh hcount h d hd
    obtain ⟨response', hresponse', hholds'⟩ :=
      Sgx.usedCollateral_fresh { a with endorsements := endorsements } options httpResponses c'
        hne' hfresh hcount h' d hd
    rw [hresponse] at hresponse'
    cases hresponse'
    exact Sgx.holds_kept c c' d response hholds hholds'

/-- Collateral that is empty but for the PCK revocation list. -/
def Sgx.blankCollateral (pckCrl : Bytes) : Bytes :=
  List.replicate 24 0 ++ Sgx.sampleBlock pckCrl ++ List.replicate 32 0

theorem Sgx.parse_blank (pckCrl : Bytes) (hshort : pckCrl = [] ∨ pckCrl = [0]) :
    Sgx.embeddedCollateral (Sgx.blankCollateral pckCrl) = .ok (some {
      majorVersion := 0, minorVersion := 0, pckCrl := pckCrl }) := by
  rcases hshort with rfl | rfl
  · decide +kernel
  · decide +kernel

/-- Four responses are accepted and not looked at: the embedded collateral shows through. -/
theorem Sgx.usedCollateral_four (a : Attestation) (options : Options) (r : HTTPResponse)
    (rs : HTTPResponses) (pem : Bytes) (e : Sgx.QlQveCollateral)
    (hroot : options.rootCaCertificate = some pem) (hfour : (r :: rs).length = 4)
    (hexpected : Sgx.expectedResponses options (some e) = 4)
    (hcol : Sgx.embeddedCollateral a.endorsements = .ok (some e)) :
    Sgx.usedCollateral a options (some (r :: rs)) = .ok (some e) := by
  simp only [Sgx.usedCollateral, bind_ok]
  refine ⟨some e, hcol, ?_⟩
  simp only [Sgx.consumeUrlResponses, Sgx.consumeRootCa, hroot, bind_ok, refuse_ok, pure_ok,
    reduceCtorEq, if_false]
  exact ⟨e, ⟨(), by simp [hfour, hexpected], (e, 0), rfl, by simp [hfour, pure_ok]⟩, rfl⟩

theorem Sgx.count_of_fromResponses (a : Attestation) (options : Options)
    (httpResponses : Option HTTPResponses) (c : Sgx.QlQveCollateral) (hne : a.endorsements ≠ [])
    (hfresh : options.freshEndorsements = true)
    (h : Sgx.usedCollateral a options httpResponses = .ok (some c))
    (hfrom : Sgx.FromResponses a options httpResponses c) :
    Sgx.ResponsesCount options httpResponses := by
  obtain ⟨response, hmem, -⟩ := hfrom.held .pckCrl (by simp)
  refine ⟨List.ne_nil_of_mem hmem, ?_⟩
  by_contra hask
  cases hroot : options.rootCaCertificate with
  | none => exact hask (Or.inl hroot)
  | some pem =>
    have hold : options.freshRootCaCertificate = false := by
      cases hf : options.freshRootCaCertificate with
      | false => rfl
      | true => exact absurd (Or.inr hf) hask
    have hexpected (e : Sgx.QlQveCollateral) : Sgx.expectedResponses options (some e) = 4 := by
      simp [Sgx.expectedResponses, hroot, hold, hfresh]
    cases httpResponses with
    | none => cases hmem
    | some rs =>
      cases rs with
      | nil => cases hmem
      | cons r rs =>
        simp only [Sgx.usedCollateral, bind_ok, pure_ok, Option.some.injEq] at h
        obtain ⟨collateral, hcol, c', hc, rfl⟩ := h
        have hfour : (r :: rs).length = 4 := by
          have hlen := Sgx.consume_length options _ collateral c' hc
          cases collateral with
          | none => exact absurd (Sgx.embeddedCollateral_none _ hcol) hne
          | some e => rw [hlen, hexpected]
        -- the list of the embedded endorsements is used, whichever it is
        have hpck (pckCrl : Bytes) (hshort : pckCrl = [] ∨ pckCrl = [0]) : pckCrl = c'.pckCrl := by
          have hused := Sgx.usedCollateral_four
            { a with endorsements := Sgx.blankCollateral pckCrl } options r rs pem _ hroot hfour
            (hexpected _) (Sgx.parse_blank pckCrl hshort)
          exact (hfrom.independent (Sgx.blankCollateral pckCrl) _ (by simp [Sgx.blankCollateral])
            hused .pckCrl (by simp)).1
        have hnil := hpck [] (Or.inl rfl)
        have hzero := hpck [0] (Or.inr rfl)
        rw [← hnil] at hzero
        cases hzero

theorem Sgx.fromResponses_iff (a : Attestation) (options : Options)
    (httpResponses : Option HTTPResponses) (r : Sgx.Verified X509 Crl) (hne : a.endorsements ≠ [])
    (hfresh : options.freshEndorsements = true)
    (h : Sgx.verifyRun ssl host a options httpResponses = .ok r) :
    (∀ c, r.collateral = some c → Sgx.FromResponses a options httpResponses c) ↔
      options.isPartial = true ∨ Sgx.ResponsesCount options httpResponses := by
  cases hmode : options.isPartial with
  | true =>
    obtain ⟨run⟩ := Sgx.verifyRun_partial ssl host a options httpResponses r hmode h
    simp [run.collateral]
  | false =>
    obtain ⟨run⟩ := Sgx.verifyRun_full ssl host a options httpResponses r hmode h
    rw [run.collateral]
    constructor
    · intro hall
      exact Or.inr (Sgx.count_of_fromResponses a options httpResponses run.c hne hfresh run.used
        (hall run.c rfl))
    · intro hcount c hc
      cases hc
      rcases hcount with hcount | hcount
      · cases hcount
      · exact Sgx.fromResponses_of_count a options httpResponses run.c hne hfresh hcount run.used

/-! ### SEV/SNP -/

/-- The VCEK chain and the revocation list come from the responses. -/
structure SevSnp.FromResponses (a : Attestation) (options : Options)
    (httpResponses : Option HTTPResponses) (e : SevSnp.EndorsementsEtc X509 Crl) : Prop where
  chain : ∀ cert ∈ e.vcekCertificateChain, ∃ response ∈ httpResponses.getD [],
    (∃ stack, ssl.pemStack response.body = .ok stack ∧ cert ∈ stack) ∨
      ∃ rest, ssl.derX509 response.body = .ok (cert, rest)
  crl : ∃ crl, e.vcekIssuerChainCrl = some crl ∧
    ∃ response ∈ httpResponses.getD [], ssl.derCrl response.body = .ok crl
  independent : ∀ endorsements,
    SevSnp.usedEndorsements ssl { a with endorsements := endorsements } options httpResponses =
      SevSnp.usedEndorsements ssl a options httpResponses

theorem SevSnp.parseUrlResponses_from (a : Attestation) (options : Options)
    (httpResponses : HTTPResponses) (e : SevSnp.EndorsementsEtc X509 Crl)
    (hfresh : options.freshEndorsements = true)
    (h : SevSnp.parseUrlResponses ssl options httpResponses = .ok e) :
    SevSnp.FromResponses ssl a options (some httpResponses) e := by
  have hindependent (endorsements : Bytes) :
      SevSnp.usedEndorsements ssl { a with endorsements := endorsements } options
        (some httpResponses) = SevSnp.usedEndorsements ssl a options (some httpResponses) := by
    simp [SevSnp.usedEndorsements, hfresh]
  simp only [SevSnp.parseUrlResponses, bind_ok] at h
  obtain ⟨_, -, root, -, h⟩ := h
  split at h
  · unfold SevSnp.parseCached at h
    split at h
    next issuerChain issuerCrl =>
      simp only [bind_ok] at h
      obtain ⟨stack, hstack, h⟩ := h
      split at h
      next vcek ask ark =>
        simp only [bind_ok, pure_ok] at h
        obtain ⟨crl, hcrl, rfl⟩ := h
        refine ⟨?_, ⟨crl, rfl, issuerCrl, by simp, hcrl⟩, hindependent⟩
        intro cert hcert
        exact ⟨issuerChain, by simp, Or.inl ⟨_, hstack, hcert⟩⟩
      next => simp [throw_ok] at h
    next => simp [throw_ok] at h
  · unfold SevSnp.parseDownloaded at h
    split at h
    next vcekCert issuerChain issuerCrl =>
      simp only [bind_ok] at h
      obtain ⟨stack, hstack, h⟩ := h
      split at h
      next ask ark =>
        simp only [bind_ok, pure_ok] at h
        obtain ⟨⟨vcek, rest⟩, hvcek, crl, hcrl, rfl⟩ := h
        refine ⟨?_, ⟨crl, rfl, issuerCrl, by simp, hcrl⟩, hindependent⟩
        intro cert hcert
        rcases List.mem_cons.1 hcert with rfl | hcert
        · exact ⟨vcekCert, by simp, Or.inr ⟨rest, hvcek⟩⟩
        · exact ⟨issuerChain, by simp, Or.inl ⟨_, hstack, hcert⟩⟩
      next => simp [throw_ok] at h
    next => simp [throw_ok] at h

theorem SevSnp.fromResponses (a : Attestation) (options : Options)
    (httpResponses : Option HTTPResponses) (r : SevSnp.Verified X509 Crl)
    (hfresh : options.freshEndorsements = true)
    (h : SevSnp.verifyRun ssl host a options httpResponses = .ok r) :
    SevSnp.FromResponses ssl a options httpResponses r.endorsements := by
  obtain ⟨run⟩ := SevSnp.verifyRun_ok ssl host a options httpResponses r h
  have hused := run.used
  unfold SevSnp.usedEndorsements at hused
  rw [if_neg (by simp [hfresh])] at hused
  simp only [bind_ok, orThrow_ok] at hused
  obtain ⟨responses, rfl, hparse⟩ := hused
  have hfrom := SevSnp.parseUrlResponses_from ssl a options responses run.e hfresh hparse
  exact {
    chain := by
      rw [run.vcekChain]
      exact hfrom.chain
    crl := by
      rw [run.crl]
      exact hfrom.crl
    independent := hfrom.independent }

/-- For SGX the documents of a full verification come from the responses exactly when there are
responses and the count the consumer expects exceeds four; for SEV/SNP they always do. -/
theorem fresh_fromResponses_iff (a : Attestation) (options : Options)
    (httpResponses : Option HTTPResponses) (hne : a.endorsements ≠ [])
    (hfresh : options.freshEndorsements = true) :
    (∀ r, Sgx.verifyRun ssl host a options httpResponses = .ok r →
      ((∀ c, r.collateral = some c → Sgx.FromResponses a options httpResponses c) ↔
        options.isPartial = true ∨ (httpResponses.getD [] ≠ [] ∧
          (options.rootCaCertificate = none ∨ options.freshRootCaCertificate = true)))) ∧
    (∀ r, SevSnp.verifyRun ssl host a options httpResponses = .ok r →
      SevSnp.FromResponses ssl a options httpResponses r.endorsements) :=
  ⟨fun r h => Sgx.fromResponses_iff ssl host a options httpResponses r hne hfresh h,
    fun r h => SevSnp.fromResponses ssl host a options httpResponses r hfresh h⟩

end

/-- The three certificates and a revocation list, as a cache sends them. -/
def SevSnp.sampleResponses : HTTPResponses :=
  [{ status := 200, body := pemBegin ++ text "vcek" ++ pemEnd ++ sampleChain }, { status := 200 }]

def SevSnp.freshSample : Attestation where
  source := .sevSnp
  evidence := List.replicate 0x34 0 ++ [1] ++ List.replicate 1131 0
  endorsements := sampleChain

def SevSnp.freshOptions : Options :=
  { freshEndorsements := true, sevSnpEndorsementCacheUrlTemplate := some [] }

theorem SevSnp.verifyRun_fresh : ∃ r, SevSnp.verifyRun OpenSsl.lenient plainHost
    SevSnp.freshSample SevSnp.freshOptions (some SevSnp.sampleResponses) = .ok r := by
  apply ok_of_isSome
  decide +kernel

theorem fresh_fromResponses_iff_sample :
    ∃ (r : Sgx.Verified Bytes Bytes) (s : SevSnp.Verified Bytes Bytes),
    ((∀ c, r.collateral = some c →
        Sgx.FromResponses Sgx.sampleAttestation Sgx.sampleOptions none c) ↔
      Sgx.sampleOptions.isPartial = true ∨ ((none : Option HTTPResponses).getD [] ≠ [] ∧
        (Sgx.sampleOptions.rootCaCertificate = none ∨
          Sgx.sampleOptions.freshRootCaCertificate = true))) ∧
    SevSnp.FromResponses OpenSsl.lenient SevSnp.freshSample SevSnp.freshOptions
      (some SevSnp.sampleResponses) s.endorsements := by
  obtain ⟨r, hr⟩ := Sgx.verifyRun_sample
  obtain ⟨s, hs⟩ := SevSnp.verifyRun_fresh
  exact ⟨r, s,
    (fresh_fromResponses_iff Sgx.lenientSsl plainHost Sgx.sampleAttestation Sgx.sampleOptions none
      (by decide) rfl).1 r hr,
    (fresh_fromResponses_iff OpenSsl.lenient plainHost SevSnp.freshSample SevSnp.freshOptions
      (some SevSnp.sampleResponses) (by decide) rfl).2 s hs⟩

/-- Fresh endorsements are asked for, none are there, and the embedded ones are used. -/
theorem fresh_not_fromResponses :
    ¬ ∀ (a : Attestation) (options : Options) (httpResponses : Option HTTPResponses)
        (r : Sgx.Verified Bytes Bytes), a.endorsements ≠ [] → options.freshEndorsements = true →
      Sgx.verifyRun Sgx.lenientSsl plainHost a options httpResponses = .ok r →
        ∀ c, r.collateral = some c → Sgx.FromResponses a options httpResponses c := by
  intro h
  obtain ⟨r, hr⟩ := Sgx.verifyRun_sample
  obtain ⟨run⟩ := Sgx.verifyRun_full Sgx.lenientSsl plainHost _ _ _ r rfl hr
  obtain ⟨response, hmem, -⟩ := (h Sgx.sampleAttestation Sgx.sampleOptions none r (by decide) rfl hr
    run.c run.collateral).held .pckCrl (by simp)
  cases hmem

end Ravl
