import Ravl.Compression
import Ravl.Lib.Transition

/-!
# The history of an Open Enclave attestation

`prepare_endorsements` and `verify` keep the SGX attestation they extract in the object. Nothing
removes it when the public fields change.
-/

namespace Ravl.Oe
open ByteLib FallibleLib TransitionLib

def construct (evidence endorsements : Bytes) : Attestation where
  evidence := evidence
  endorsements := endorsements

inductive Action
  | prepareEndorsements (options : Options)
  | verify (options : Options) (httpResponses : Option HTTPResponses)
  | compress (resizeEvidence : Bool)
  | setEvidence (evidence : Bytes)
  | setEndorsements (endorsements : Bytes)

section
variable {X509 Crl Pkey : Type} (io : Sgx.CertificateIo X509 Crl Pkey) (host : Host)

def step (a : Attestation) : Action → Option Attestation
  | .prepareEndorsements options => some (a.prepareEndorsements io.toOpenSsl host options).2
  | .verify options httpResponses => some (a.verify io.toOpenSsl host options httpResponses).2
  | .compress resizeEvidence =>
    some { a with evidence := (compressPckCertificateChain io host a.evidence resizeEvidence).2 }
  | .setEvidence evidence => some { a with evidence := evidence }
  | .setEndorsements endorsements => some { a with endorsements := endorsements }

/-- The actions after which the object is not ahead of or behind its public fields: endorsements
are there (or nothing can be extracted) when a request for some fills the object, and a filled
object keeps its evidence and the collateral in its endorsements. -/
def KeepsPace (a : Attestation) : Action → Prop
  | .prepareEndorsements _ => a.endorsements ≠ [] ∨ a.evidence.length < Sgx.sgxQuoteSize
  | .verify _ _ => True
  | .compress _ => a.sgxAttestation = none ∨ Settled io host a.evidence
  | .setEvidence evidence => a.sgxAttestation = none ∨ evidence = a.evidence
  | .setEndorsements endorsements => a.sgxAttestation = none ∨
      (endorsements ≠ [] ∧
        extractCollateral host endorsements = extractCollateral host a.endorsements)

/-- What the object holds, if anything, is what its public fields yield. -/
def Current (a : Attestation) : Prop :=
  a.sgxAttestation = none ∨ ∃ sgx, a.sgxAttestation = some sgx ∧ a.endorsements ≠ [] ∧
    extractSgxAttestation host a.evidence a.endorsements = .ok (sgx, a.customClaims)

/-- An object that holds nothing, as after its construction, or that has just been asked for
requests although its endorsements are there. -/
def Refreshed (a : Attestation) : Prop :=
  a.sgxAttestation = none ∨ ∃ (before : Attestation) (options : Options), before.endorsements ≠ [] ∧
    (∃ r, extractSgxAttestation host before.evidence before.endorsements = .ok r) ∧
    a = (before.prepareEndorsements io.toOpenSsl host options).2

variable {io host}

theorem extractSgxAttestation_length (evidence endorsements : Bytes) (r : Ravl.Attestation × Bytes)
    (h : extractSgxAttestation host evidence endorsements = .ok r) :
    Sgx.sgxQuoteSize ≤ evidence.length := by
  simp only [extractSgxAttestation, bind_ok, refuse_ok] at h
  obtain ⟨_, -, _, hsize, -⟩ := h
  omega

/-- The endorsements matter for the collateral only. -/
theorem extractSgxAttestation_congr (evidence endorsements endorsements' : Bytes)
    (h : extractCollateral host endorsements' = extractCollateral host endorsements) :
    extractSgxAttestation host evidence endorsements' =
      extractSgxAttestation host evidence endorsements := by
  unfold extractSgxAttestation
  rw [h]

theorem prepareEndorsements_current (a : Attestation) (options : Options)
    (r : Ravl.Attestation × Bytes) (hne : a.endorsements ≠ [])
    (h : extractSgxAttestation host a.evidence a.endorsements = .ok r) :
    Current host (a.prepareEndorsements io.toOpenSsl host options).2 := by
  have hfilled : (a.prepareEndorsements io.toOpenSsl host options).2 = a.fill r.1 r.2 := by
    rw [Attestation.prepareEndorsements, h]
  rw [hfilled]
  exact Or.inr ⟨r.1, rfl, hne, h⟩

theorem Refreshed.current {a : Attestation} (h : Refreshed io host a) : Current host a := by
  obtain hnone | ⟨before, options, hne, ⟨r, hr⟩, rfl⟩ := h
  · exact Or.inl hnone
  · exact prepareEndorsements_current before options r hne hr

theorem verify_current (a : Attestation) (options : Options)
    (httpResponses : Option HTTPResponses) (h : Current host a) :
    Current host (a.verify io.toOpenSsl host options httpResponses).2 := by
  cases hheld : a.sgxAttestation with
  | some sgx =>
    have hsame : (a.verify io.toOpenSsl host options httpResponses).2 = a := by
      simp only [Attestation.verify, hheld]
    rw [hsame]
    exact h
  | none =>
    simp only [Attestation.verify, hheld]
    by_cases hno : a.endorsements = []
    · rw [if_pos hno]
      exact h
    · rw [if_neg hno]
      cases hextract : extractSgxAttestation host a.evidence a.endorsements with
      | error e => exact h
      | ok r => exact Or.inr ⟨r.1, rfl, hno, hextract⟩

theorem current_step (hl : io.Sound) (a b : Attestation) (action : Action)
    (hc : Current host a) (hok : KeepsPace io host a action) (h : step io host a action = some b) :
    Current host b := by
  cases action with
  | prepareEndorsements options =>
    cases h
    cases hextract : extractSgxAttestation host a.evidence a.endorsements with
    | error e =>
      have hsame : (a.prepareEndorsements io.toOpenSsl host options).2 = a := by
        rw [Attestation.prepareEndorsements, hextract]
      rw [hsame]
      exact hc
    | ok r =>
      have hsize := extractSgxAttestation_length _ _ _ hextract
      have hne : a.endorsements ≠ [] := hok.resolve_right (not_lt.2 hsize)
      exact prepareEndorsements_current a options r hne hextract
  | verify options httpResponses =>
    cases h
    exact verify_current a options httpResponses hc
  | compress resizeEvidence =>
    cases h
    obtain hnone | hsettled := hok
    · exact Or.inl hnone
    · have hsame := compress_settled host hl a.evidence resizeEvidence hsettled
      rw [hsame]
      exact hc
  | setEvidence evidence =>
    cases h
    obtain hnone | rfl := hok
    · exact Or.inl hnone
    · exact hc
  | setEndorsements endorsements =>
    cases h
    obtain hnone | ⟨hne, hsame⟩ := hok
    · exact Or.inl hnone
    · obtain hnone | ⟨sgx, hsgx, -, hextract⟩ := hc
      · exact Or.inl hnone
      · refine Or.inr ⟨sgx, hsgx, hne, ?_⟩
        have hcongr := extractSgxAttestation_congr a.evidence a.endorsements endorsements hsame
        exact hcongr.trans hextract

theorem Current.verify_eq {a : Attestation} (h : Current host a) (options : Options)
    (httpResponses : Option HTTPResponses) :
    (a.verify io.toOpenSsl host options httpResponses).1 =
      ((construct a.evidence a.endorsements).verify io.toOpenSsl host options httpResponses).1 := by
  have hnew : (construct a.evidence a.endorsements).sgxAttestation = none := rfl
  obtain hnone | ⟨sgx, hsgx, hne, hextract⟩ := h
  · have hevidence : (construct a.evidence a.endorsements).evidence = a.evidence := rfl
    have hendorsements : (construct a.evidence a.endorsements).endorsements = a.endorsements := rfl
    simp only [Attestation.verify, hnone, hnew, hevidence, hendorsements]
    by_cases hempty : a.endorsements = []
    · rw [if_pos hempty, if_pos hempty]
    · rw [if_neg hempty, if_neg hempty]
      cases extractSgxAttestation host a.evidence a.endorsements <;> rfl
  · have hextract' : extractSgxAttestation host (construct a.evidence a.endorsements).evidence
        (construct a.evidence a.endorsements).endorsements = .ok (sgx, a.customClaims) := hextract
    have hne' : (construct a.evidence a.endorsements).endorsements ≠ [] := hne
    simp only [Attestation.verify, hsgx, hnew, if_neg hne', hextract']

variable (io) in
/-- Once filled, the object goes on verifying what it was filled with. -/
theorem verify_filled (a : Attestation) (r : Ravl.Attestation × Bytes) (evidence : Bytes)
    (options options' : Options) (httpResponses httpResponses' : Option HTTPResponses)
    (hnew : a.sgxAttestation = none) (hne : a.endorsements ≠ [])
    (hextract : extractSgxAttestation host a.evidence a.endorsements = .ok r) :
    (Attestation.verify io.toOpenSsl host
      { (a.verify io.toOpenSsl host options httpResponses).2 with evidence := evidence } options'
        httpResponses').1 = (a.verify io.toOpenSsl host options' httpResponses').1 := by
  have hfilled : (a.verify io.toOpenSsl host options httpResponses).2 = a.fill r.1 r.2 := by
    simp only [Attestation.verify, hnew, if_neg hne, hextract]
  rw [hfilled]
  simp only [Attestation.verify, Attestation.fill, hnew, if_neg hne, hextract]

/-- The object verifies like a new one wherever all actions since it was last refreshed kept pace. -/
theorem verify_history_independent (hl : io.Sound) (a b : Attestation)
    (hstart : Refreshed io host a) (hrun : Steps (step io host) (KeepsPace io host) a b)
    (options : Options) (httpResponses : Option HTTPResponses) :
    (b.verify io.toOpenSsl host options httpResponses).1 =
      ((construct b.evidence b.endorsements).verify io.toOpenSsl host options httpResponses).1 := by
  have hcurrent : Current host b := hrun.invariant (Current host)
    (fun a action c hc hok hnext => current_step hl a c action hc hok hnext) hstart.current
  exact hcurrent.verify_eq options httpResponses

end

def emptyEndorsements : Bytes := leBytes 4 1 ++ leBytes 4 2 ++ List.replicate 100 0

def letterAttestation : Attestation := construct (letterEvidence 691) emptyEndorsements

theorem letterAttestation_extracted : ∃ sgx, sgx.evidence = letterEvidence 691 ∧
    extractSgxAttestation plainHost letterAttestation.evidence letterAttestation.endorsements =
      .ok (sgx, []) := by
  obtain ⟨collateral, hcollateral⟩ : ∃ collateral, extractCollateral plainHost emptyEndorsements =
    .ok collateral := ok_of_isSome (by decide +kernel)
  have hlength := letterEvidence_length 691
  have hsigned : readLe (mem (letterEvidence 691) plainHost.beyond) Sgx.signatureLenOff 4 = 691 := by
    have h := letterEvidence_signatureLen 691 (by decide) []
    rwa [List.append_nil] at h
  have hsplit : splitEvidence plainHost (letterEvidence 691) = (letterEvidence 691, []) := by
    rw [splitEvidence, hsigned, hlength]
    exact if_neg (by decide)
  refine ⟨{ source := .sgx, evidence := letterEvidence 691, endorsements := collateral }, rfl, ?_⟩
  have hne : letterEvidence 691 ≠ [] := List.cons_ne_nil _ _
  have hlong : ¬ (letterEvidence 691).length < Sgx.sgxQuoteSize := by
    rw [hlength]
    decide
  show extractSgxAttestation plainHost (letterEvidence 691) emptyEndorsements = _
  simp only [extractSgxAttestation, bind_ok, refuse_ok, pure_ok, hsplit, hcollateral]
  exact ⟨(), hne, (), hlong, collateral, rfl, rfl⟩

theorem letterAttestation_verified : ((letterAttestation.verify letterIo.toOpenSsl plainHost
    { isPartial := true } none).1.toOption.isSome) = true := by
  obtain ⟨sgx, hevidence, hextract⟩ := letterAttestation_extracted
  have hnew : letterAttestation.sgxAttestation = none := rfl
  have hne : letterAttestation.endorsements ≠ [] := List.cons_ne_nil _ _
  have hlength := letterEvidence_length 691
  have hcarries := letterEvidence_carries 691 []
  have hsigned := letterEvidence_signatureLen 691 (by decide) []
  rw [List.append_nil] at hcarries hsigned
  have hinside : 436 + Sgx.signatureLen plainHost (letterEvidence 691) ≤ (letterEvidence 691).length := by
    omega
  have hquote := Sgx.parseQuote_of hcarries plainHost.beyond hinside
  have hparse := Sgx.SignatureData.parse_of letterIo.toOpenSsl hcarries plainHost.beyond
    (by rw [hlength]; decide) (Sgx.chainPem letterIo letterChain) rfl
  simp only [Attestation.verify, hnew, if_neg hne, hextract, verifyExtracted, Sgx.verify,
    Sgx.verifyRun, if_true, Sgx.partialVerifyRun, hevidence, hquote, hparse]
  decide +kernel

theorem verify_history_independent_sample :
    (((letterAttestation.verify letterIo.toOpenSsl plainHost { isPartial := true } none).2.verify
      letterIo.toOpenSsl plainHost { isPartial := true } none).1.toOption.isSome) = true := by
  obtain ⟨b, hb⟩ : ∃ b, b =
    (letterAttestation.verify letterIo.toOpenSsl plainHost { isPartial := true } none).2 := ⟨_, rfl⟩
  have hrun : Steps (step letterIo plainHost) (KeepsPace letterIo plainHost) letterAttestation b := by
    rw [hb]
    exact Steps.one (a := .verify { isPartial := true } none) trivial rfl
  have hfields : b.evidence = letterEvidence 691 ∧ b.endorsements = emptyEndorsements := by
    rw [hb]
    decide +kernel
  have hsame := verify_history_independent letterIo_lawful.toSound letterAttestation b (Or.inl rfl) hrun
    { isPartial := true } none
  rw [← hb, hsame, hfields.1, hfields.2]
  exact letterAttestation_verified

def emptied : Attestation :=
  { (letterAttestation.verify letterIo.toOpenSsl plainHost { isPartial := true } none).2 with
    evidence := [] }

theorem stale_claims :
    ¬ ∀ (io : Sgx.CertificateIo Byte Bytes Bytes) (host : Host) (evidence endorsements : Bytes)
        (actions : List Action) (b : Attestation) (options : Options)
        (httpResponses : Option HTTPResponses), io.Lawful →
        run (step io host) (construct evidence endorsements) actions = some b →
        (b.verify io.toOpenSsl host options httpResponses).1.toOption =
          ((construct b.evidence b.endorsements).verify io.toOpenSsl host options
            httpResponses).1.toOption := by
  intro h
  have hrun : run (step letterIo plainHost) (construct (letterEvidence 691) emptyEndorsements)
      [.verify { isPartial := true } none, .setEvidence []] = some emptied := by decide +kernel
  have hstale := h letterIo plainHost (letterEvidence 691) emptyEndorsements
    [.verify { isPartial := true } none, .setEvidence []] emptied { isPartial := true } none
    letterIo_lawful hrun
  obtain ⟨sgx, -, hextract⟩ := letterAttestation_extracted
  have hsame := verify_filled letterIo letterAttestation (sgx, []) [] { isPartial := true }
    { isPartial := true } none none rfl (List.cons_ne_nil _ _) hextract
  have hclaims : ((emptied.verify letterIo.toOpenSsl plainHost { isPartial := true }
      none).1.toOption).isSome = true := by
    rw [emptied, hsame]
    exact letterAttestation_verified
  have hfails : (((construct emptied.evidence emptied.endorsements).verify letterIo.toOpenSsl plainHost
      { isPartial := true } none).1.toOption).isSome = false := by decide +kernel
  rw [hstale, hfails] at hclaims
  cases hclaims

end Ravl.Oe
