import Ravl.Sgx.Requests
import Ravl.Sgx.Soundness

/-!
# The collateral in the claims (sgx_impl.h:392-462, 1201-1222)

The claims have the fields of the collateral once more. One of them is copied from another one.
-/

namespace Ravl.Sgx
open ByteLib FallibleLib

/-- Every field of the collateral under its own name. -/
def QlQveCollateral.endorsements (c : QlQveCollateral) : Endorsements where
  majorVersion := c.majorVersion
  minorVersion := c.minorVersion
  teeType := c.teeType
  rootCa := c.rootCa
  pckCrlIssuerChain := c.pckCrlIssuerChain
  rootCaCrl := c.rootCaCrl
  pckCrl := c.pckCrl
  tcbInfoIssuerChain := c.tcbInfoIssuerChain
  tcbInfo := c.tcbInfo
  qeIdentityIssuerChain := c.qeIdentityIssuerChain
  qeIdentity := c.qeIdentity

section
variable {X509 Crl Pkey : Type} (ssl : OpenSsl X509 Crl Pkey) (host : Host)

/-- The claims have the collateral that the checks were made with; a partial verification makes
none of these checks. -/
def CarriesCollateral (r : Verified X509 Crl) : Prop :=
  ∀ c, r.collateral = some c → r.claims.endorsements = c.endorsements

/-- The TCB info that is going to be used is the same text as its issuer chain: in the response for
it, or in the attestation where the responses leave it as it is. -/
def TcbInfoIsChain (a : Attestation) (options : Options) (httpResponses : Option HTTPResponses) : Prop :=
  if 4 < (httpResponses.getD []).length then
    ∃ response, (httpResponses.getD [])[responseIndex options .tcbInfo]? = some response ∧
      response.getHeaderString tcbInfoChainHeader true = .ok response.body
  else ∃ c, embeddedCollateral a.endorsements = .ok (some c) ∧ c.tcbInfo = c.tcbInfoIssuerChain

theorem makeClaimsWith_endorsements (m unset : Memory) (sd : SignatureData) (c : QlQveCollateral) :
    (makeClaimsWith m unset sd c).endorsements = { c.endorsements with tcbInfo := c.tcbInfoIssuerChain } :=
  rfl

theorem endorsements_tcbInfo_iff (c : QlQveCollateral) :
    { c.endorsements with tcbInfo := c.tcbInfoIssuerChain } = c.endorsements ↔
      c.tcbInfo = c.tcbInfoIssuerChain := by
  constructor
  · intro h
    exact (congrArg Endorsements.tcbInfo h).symm
  · intro h
    rw [← h]
    rfl

/-- The TCB info and its chain in the collateral that is used come from one place. -/
theorem usedCollateral_tcbInfo (a : Attestation) (options : Options)
    (httpResponses : Option HTTPResponses) (c : QlQveCollateral)
    (h : usedCollateral a options httpResponses = .ok (some c)) :
    c.tcbInfo = c.tcbInfoIssuerChain ↔ TcbInfoIsChain a options httpResponses := by
  unfold usedCollateral at h
  simp only [bind_ok] at h
  obtain ⟨collateral, hembedded, h⟩ := h
  have hkeeps (hkept : Kept (collateral.getD {}) c .tcbInfo) (hsome : collateral ≠ none) :
      c.tcbInfo = c.tcbInfoIssuerChain ↔
        ∃ c, embeddedCollateral a.endorsements = .ok (some c) ∧ c.tcbInfo = c.tcbInfoIssuerChain := by
    obtain ⟨c₀, rfl⟩ := Option.ne_none_iff_exists'.1 hsome
    have htcb : c.tcbInfo = c₀.tcbInfo := hkept.1
    have hchain : c.tcbInfoIssuerChain = c₀.tcbInfoIssuerChain := hkept.2
    rw [hembedded, htcb, hchain]
    refine ⟨fun heq => ⟨c₀, rfl, heq⟩, fun ⟨c₁, hc, heq⟩ => ?_⟩
    cases hc
    exact heq
  obtain _ | _ | ⟨response, rs⟩ := httpResponses
  case some.cons =>
    simp only [bind_ok, pure_ok, Option.some.injEq] at h
    obtain ⟨c', hconsume, rfl⟩ := h
    have hgetD : (some (response :: rs)).getD [] = response :: rs := rfl
    by_cases hmany : 4 < (response :: rs).length
    · obtain ⟨tcb, htcb, hbody, hheader⟩ := consume_many options _ collateral c' hmany hconsume .tcbInfo (by decide)
      rw [TcbInfoIsChain, hgetD, if_pos hmany, htcb, hbody]
      constructor
      · intro heq
        refine ⟨tcb, rfl, ?_⟩
        rw [hheader, heq]
      · rintro ⟨tcb', htcb', hsame⟩
        cases htcb'
        exact Except.ok.inj (hsame.symm.trans hheader)
    · rw [TcbInfoIsChain, hgetD, if_neg hmany]
      refine hkeeps (consume_few options _ collateral c' hmany hconsume .tcbInfo (by decide)) ?_
      rintro rfl
      have hlength := consume_length options _ none c' hconsume
      have hfive : expectedResponses options none = 5 := by simp [expectedResponses]
      omega
  case some.nil =>
    have hnone : ¬ 4 < ((some [] : Option HTTPResponses).getD []).length := by decide
    rw [TcbInfoIsChain, if_neg hnone]
    obtain rfl := (pure_ok _ _).1 h
    exact hkeeps ⟨rfl, rfl⟩ (Option.some_ne_none _)
  case none =>
    have hnone : ¬ 4 < ((none : Option HTTPResponses).getD []).length := by decide
    rw [TcbInfoIsChain, if_neg hnone]
    obtain rfl := (pure_ok _ _).1 h
    exact hkeeps ⟨rfl, rfl⟩ (Option.some_ne_none _)

theorem carriesCollateral_iff (a : Attestation) (options : Options)
    (httpResponses : Option HTTPResponses) (r : Verified X509 Crl)
    (h : verifyRun ssl host a options httpResponses = .ok r) :
    CarriesCollateral r ↔ options.isPartial = true ∨ TcbInfoIsChain a options httpResponses := by
  by_cases hmode : options.isPartial = true
  · obtain ⟨run⟩ := verifyRun_partial ssl host a options httpResponses r hmode h
    refine ⟨fun _ => Or.inl hmode, fun _ c hc => ?_⟩
    rw [run.collateral] at hc
    cases hc
  · obtain ⟨run⟩ := verifyRun_full ssl host a options httpResponses r (Bool.not_eq_true _ ▸ hmode) h
    have hclaims : r.claims.endorsements =
        { run.c.endorsements with tcbInfo := run.c.tcbInfoIssuerChain } := by
      rw [run.claims, makeClaimsWith_endorsements]
    have hcarries : CarriesCollateral r ↔ run.c.tcbInfo = run.c.tcbInfoIssuerChain := by
      rw [← endorsements_tcbInfo_iff, ← hclaims, CarriesCollateral, run.collateral]
      exact ⟨fun hall => hall run.c rfl, fun heq c hc => Option.some.inj hc ▸ heq⟩
    rw [hcarries, usedCollateral_tcbInfo a options httpResponses run.c run.used]
    exact ⟨Or.inr, fun hor => hor.resolve_left hmode⟩

end

theorem sampleAttestation_carries : ∃ r,
    verifyRun lenientSsl plainHost sampleAttestation sampleOptions none = .ok r ∧
      (CarriesCollateral r ↔
        sampleOptions.isPartial = true ∨ TcbInfoIsChain sampleAttestation sampleOptions none) := by
  obtain ⟨r, hr⟩ := verifyRun_sample
  exact ⟨r, hr, carriesCollateral_iff lenientSsl plainHost sampleAttestation sampleOptions none r hr⟩

/-- The TCB info of the sample is not in its claims. -/
theorem sample_tcbInfo_lost : ∃ r,
    verifyRun lenientSsl plainHost sampleAttestation sampleOptions none = .ok r ∧
      ¬ CarriesCollateral r := by
  obtain ⟨r, hr⟩ := verifyRun_sample
  refine ⟨r, hr, fun hcarries => ?_⟩
  obtain ⟨run⟩ := verifyRun_full lenientSsl plainHost sampleAttestation sampleOptions none r rfl hr
  have hendorsements := hcarries run.c run.collateral
  rw [run.claims, makeClaimsWith_endorsements, endorsements_tcbInfo_iff] at hendorsements
  have hdiffer : (usedCollateral sampleAttestation sampleOptions none).toOption.map (fun c =>
      c.map fun c => decide (c.tcbInfo = c.tcbInfoIssuerChain)) = some (some false) := by decide +kernel
  rw [run.used] at hdiffer
  exact of_decide_eq_false (Option.some.inj (Option.some.inj hdiffer)) hendorsements

end Ravl.Sgx
