import Ravl.CApi
import Ravl.Oe.History
import Ravl.Sgx.Locality

/-!
# What an attestation is verified without

Two pieces of evidence that differ in `signature_len` or behind the certification data only are
verified alike. For Open Enclave these decide where the custom claims start, and are the custom
claims: whatever stands there is returned next to the claims of the quote.
-/

namespace Ravl
open ByteLib FallibleLib
open Sgx (SameUsed Parses signatureLenOf usedSize)

section
variable {X509 Crl Pkey : Type} (p : Platform X509 Crl Pkey)

theorem Sgx.parses_of_synchronous {server : Http.Server} {evidence endorsements : Bytes} {options : Options}
    {claims : PlatformClaims}
    (h : verifySynchronous p server (.sgx evidence endorsements) options = .ok claims) :
    ∃ sd, Parses p.ssl p.host evidence sd := by
  obtain ⟨-, hverify⟩ | ⟨_, _, _, -, -, hverify⟩ := (verifySynchronous_ok server _ options claims).1 h
  · obtain ⟨c, hc, -⟩ := map_ok.1 hverify
    exact Sgx.parses_of_verify hc
  · obtain ⟨c, hc, -⟩ := map_ok.1 hverify
    exact Sgx.parses_of_verify hc

theorem Sgx.SameUsed.verifySynchronous_ok {a b : Bytes} (h : SameUsed a b)
    {sd : Sgx.SignatureData} (hparse : Parses p.ssl p.host a sd) (endorsements : Bytes)
    (server : Http.Server) (options : Options) (claims : PlatformClaims) :
    verifySynchronous p server (.sgx b endorsements) options = .ok claims ↔
      verifySynchronous p server (.sgx a endorsements) options = .ok claims := by
  have hprepare : ((AttestationObject.sgx b endorsements).prepareEndorsements p options).1 =
      ((AttestationObject.sgx a endorsements).prepareEndorsements p options).1 :=
    h.prepareEndorsements_eq (a := ⟨.sgx, a, endorsements⟩) (b := ⟨.sgx, b, endorsements⟩) hparse rfl
      options
  have hverify (httpResponses : Option HTTPResponses) :
      (((AttestationObject.sgx b endorsements).prepareEndorsements p options).2.verify p options
          httpResponses).1 =
        (((AttestationObject.sgx a endorsements).prepareEndorsements p options).2.verify p options
          httpResponses).1 :=
    congrArg (Except.map PlatformClaims.sgx) (h.verify_eq (a := ⟨.sgx, a, endorsements⟩)
      (b := ⟨.sgx, b, endorsements⟩) hparse rfl options httpResponses)
  simp only [Ravl.verifySynchronous_ok, hprepare, hverify]

/-- A quote that is verified goes on being verified, with the same claims, whatever becomes of its
`signature_len` and of what stands behind its certification data. -/
theorem sgx_verified_alike {a b : Bytes} (hsame : SameUsed a b) (endorsements : Bytes)
    (server : Http.Server) (options : Options) (claims : PlatformClaims)
    (h : verifySynchronous p server (.sgx a endorsements) options = .ok claims) :
    verifySynchronous p server (.sgx b endorsements) options = .ok claims := by
  obtain ⟨sd, hparse⟩ := Sgx.parses_of_synchronous p h
  exact (hsame.verifySynchronous_ok p hparse endorsements server options claims).2 h

/-! ### Open Enclave -/

theorem Oe.splitEvidence_inside (host : Host) {e : Bytes} (h : 436 + signatureLenOf e ≤ e.length) :
    Oe.splitEvidence host e = (e.take (436 + signatureLenOf e), e.drop (436 + signatureLenOf e)) := by
  have hread : readLe (mem e host.beyond) Sgx.signatureLenOff 4 = signatureLenOf e :=
    readLe_eq_sub e host.beyond 432 4 (by omega)
  have h436 : Sgx.sgxQuoteSize = 436 := rfl
  rw [Oe.splitEvidence, hread, h436]
  split
  next => rfl
  next hwhole =>
    rw [List.take_of_length_le (by omega), List.drop_eq_nil_of_le (by omega)]

/-- The quote that is extracted is verified only where `signature_len` stays inside. -/
theorem Oe.signatureLen_inside {host : Host} {e : Bytes} {sd : Sgx.SignatureData}
    {ssl : OpenSsl X509 Crl Pkey} (hsize : 436 ≤ e.length)
    (h : Parses ssl host (Oe.splitEvidence host e).1 sd) : 436 + signatureLenOf e ≤ e.length := by
  have hread : readLe (mem e host.beyond) Sgx.signatureLenOff 4 = signatureLenOf e :=
    readLe_eq_sub e host.beyond 432 4 hsize
  have h436 : Sgx.sgxQuoteSize = 436 := rfl
  rw [Oe.splitEvidence, hread, h436] at h
  split at h
  next hless => exact hless.le
  next => exact h.signatureLen

theorem Oe.sameUsed_extracted {host : Host} {a b : Bytes} {sd : Sgx.SignatureData}
    {ssl : OpenSsl X509 Crl Pkey} (hsame : SameUsed a b) (hused : usedSize a ≤ 436 + signatureLenOf b)
    (hparse : Parses ssl host (a.take (436 + signatureLenOf a)) sd) :
    SameUsed (a.take (436 + signatureLenOf a)) (b.take (436 + signatureLenOf b)) := by
  have hsize := hparse.usedSize_take
  have hin := hparse.used.2
  have hb := hsame.signatureLen
  have hlen : (b.take (436 + signatureLenOf b)).length = 436 + signatureLenOf b := by
    rw [List.length_take]
    omega
  have hquote : signatureLenOf (b.take (436 + signatureLenOf b)) = signatureLenOf b := by
    rw [signatureLenOf, sub_take b _ 432 4 (by omega)]
    rfl
  refine ⟨fun i hi haside => ?_, by omega, by omega⟩
  rw [hsize] at hi hin
  rw [List.length_take] at hin
  rw [List.getElem?_take_of_lt (by omega), List.getElem?_take_of_lt (by omega)]
  exact hsame.bytes i hi haside

theorem Oe.verifyExtracted_object_ok {ssl : OpenSsl X509 Crl Pkey} {host : Host} {sgx : Ravl.Attestation}
    {customClaims : Bytes} {options : Options} {httpResponses : Option HTTPResponses}
    {found : PlatformClaims} :
    (Oe.verifyExtracted ssl host sgx customClaims options httpResponses).map .openEnclave = .ok found ↔
      ∃ claims map, Sgx.verify ssl host sgx options httpResponses = .ok claims ∧
        Oe.extractCustomClaims host customClaims [] = .ok map ∧ found = .openEnclave ⟨claims, map⟩ := by
  simp only [map_ok, Oe.verifyExtracted, bind_ok, pure_ok]
  constructor
  · intro h
    obtain ⟨_, ⟨claims, hclaims, map, hmap, rfl⟩, rfl⟩ := h
    exact ⟨claims, map, hclaims, hmap, rfl⟩
  · intro h
    obtain ⟨claims, map, hclaims, hmap, rfl⟩ := h
    exact ⟨_, ⟨claims, hclaims, map, hmap, rfl⟩, rfl⟩

theorem Sgx.verify_object_ok {evidence endorsements : Bytes} {options : Options}
    {httpResponses : Option HTTPResponses} {claims : Sgx.Claims} :
    ((AttestationObject.sgx evidence endorsements).verify p options httpResponses).1 =
        .ok (.sgx claims) ↔
      Sgx.verify p.ssl p.host ⟨.sgx, evidence, endorsements⟩ options httpResponses = .ok claims := by
  refine map_ok.trans ⟨?_, fun h => ⟨claims, h, rfl⟩⟩
  intro hparts
  obtain ⟨c, hc, heq⟩ := hparts
  exact PlatformClaims.sgx.inj heq ▸ hc

/-- An Open Enclave attestation is verified as the quote in it, and its custom claims are read. -/
theorem Oe.verifySynchronous_ok {a : Oe.Attestation} {evidence endorsements customClaims : Bytes}
    (hextract : Oe.extractSgxAttestation p.host a.evidence a.endorsements =
      .ok (⟨.sgx, evidence, endorsements⟩, customClaims))
    (server : Http.Server) (options : Options) (found : PlatformClaims) :
    verifySynchronous p server (.openEnclave a) options = .ok found ↔
      ∃ claims map, verifySynchronous p server (.sgx evidence endorsements) options =
          .ok (.sgx claims) ∧
        Oe.extractCustomClaims p.host customClaims [] = .ok map ∧ found = .openEnclave ⟨claims, map⟩ := by
  have hprepare : (AttestationObject.openEnclave a).prepareEndorsements p options =
      (((AttestationObject.sgx evidence endorsements).prepareEndorsements p options).1,
        .openEnclave (a.fill ⟨.sgx, evidence, endorsements⟩ customClaims)) := by
    simp only [AttestationObject.prepareEndorsements, Oe.Attestation.prepareEndorsements, hextract]
  have hverify (httpResponses : Option HTTPResponses) :
      ((AttestationObject.openEnclave (a.fill ⟨.sgx, evidence, endorsements⟩ customClaims)).verify p
          options httpResponses).1 = .ok found ↔
        ∃ claims map, ((AttestationObject.sgx evidence endorsements).verify p options
            httpResponses).1 = .ok (.sgx claims) ∧
          Oe.extractCustomClaims p.host customClaims [] = .ok map ∧
          found = .openEnclave ⟨claims, map⟩ := by
    simp only [Sgx.verify_object_ok]
    exact Oe.verifyExtracted_object_ok
  have hobject : ((AttestationObject.sgx evidence endorsements).prepareEndorsements p options).2 =
      .sgx evidence endorsements := rfl
  simp only [Ravl.verifySynchronous_ok, hprepare, hverify, hobject]
  constructor
  · rintro (⟨hnone, claims, map, hclaims, hmap, rfl⟩ |
      ⟨requests, id, entries, hsome, hexecute, claims, map, hclaims, hmap, rfl⟩)
    · exact ⟨claims, map, Or.inl ⟨hnone, hclaims⟩, hmap, rfl⟩
    · exact ⟨claims, map, Or.inr ⟨requests, id, entries, hsome, hexecute, hclaims⟩, hmap, rfl⟩
  · intro h
    obtain ⟨claims, map, ⟨hnone, hclaims⟩ | ⟨requests, id, entries, hsome, hexecute, hclaims⟩, hmap,
      rfl⟩ := h
    · exact Or.inl ⟨hnone, claims, map, hclaims, hmap, rfl⟩
    · exact Or.inr ⟨requests, id, entries, hsome, hexecute, claims, map, hclaims, hmap, rfl⟩

theorem Oe.extracted_iff {host : Host} {e endorsements : Bytes} {r : Ravl.Attestation × Bytes} :
    Oe.extractSgxAttestation host e endorsements = .ok r ↔ 436 ≤ e.length ∧
      ∃ collateral, Oe.extractCollateral host endorsements = .ok collateral ∧
        r = (⟨.sgx, (Oe.splitEvidence host e).1, collateral⟩, (Oe.splitEvidence host e).2) := by
  have h436 : Sgx.sgxQuoteSize = 436 := rfl
  simp only [Oe.extractSgxAttestation, bind_ok, refuse_ok, pure_ok, h436, not_lt]
  constructor
  · intro h
    obtain ⟨_, -, _, hlen, collateral, hcollateral, rfl⟩ := h
    exact ⟨hlen, collateral, hcollateral, rfl⟩
  · intro h
    obtain ⟨hlen, collateral, hcollateral, rfl⟩ := h
    refine ⟨(), ?_, (), hlen, collateral, hcollateral, rfl⟩
    rintro rfl
    exact absurd hlen (by decide)

theorem Oe.extracted_of_synchronous {a : Oe.Attestation} {server : Http.Server} {options : Options}
    {found : PlatformClaims} (h : verifySynchronous p server (.openEnclave a) options = .ok found) :
    ∃ r, Oe.extractSgxAttestation p.host a.evidence a.endorsements = .ok r := by
  cases hextract : Oe.extractSgxAttestation p.host a.evidence a.endorsements with
  | ok r => exact ⟨r, rfl⟩
  | error e =>
    have hprepare : (AttestationObject.openEnclave a).prepareEndorsements p options =
        (.error e, .openEnclave a) := by
      simp only [AttestationObject.prepareEndorsements, Oe.Attestation.prepareEndorsements, hextract]
    rw [verifySynchronous, hprepare] at h
    cases h

/-- Whatever stands behind the quote is returned as custom claims, if only it can be read as such:
the claims of the quote are those of the attestation that was verified. -/
theorem custom_claims_unbound {a b : Bytes} (hsame : SameUsed a b)
    (hused : usedSize a ≤ 436 + signatureLenOf b) (endorsements : Bytes) (server : Http.Server)
    (options : Options) (claims : Oe.Claims)
    (h : verifySynchronous p server (.openEnclave { evidence := a, endorsements }) options =
      .ok (.openEnclave claims)) (found : Oe.Claims) :
    verifySynchronous p server (.openEnclave { evidence := b, endorsements }) options =
        .ok (.openEnclave found) ↔
      found.sgxClaims = claims.sgxClaims ∧
        Oe.extractCustomClaims p.host (b.drop (436 + signatureLenOf b)) [] = .ok found.customClaims := by
  obtain ⟨r, hextract⟩ := Oe.extracted_of_synchronous p h
  obtain ⟨hsize, collateral, hcollateral, rfl⟩ := Oe.extracted_iff.1 hextract
  obtain ⟨sgxClaims, map, hsgx, -, heq⟩ := (Oe.verifySynchronous_ok p hextract server options _).1 h
  obtain rfl := PlatformClaims.openEnclave.inj heq
  obtain ⟨sd, hparse⟩ := Sgx.parses_of_synchronous p hsgx
  have hinside := Oe.signatureLen_inside hsize hparse
  have hb := hsame.signatureLen
  have hextractB : Oe.extractSgxAttestation p.host b endorsements =
      .ok (⟨.sgx, b.take (436 + signatureLenOf b), collateral⟩, b.drop (436 + signatureLenOf b)) :=
    Oe.extracted_iff.2 ⟨by omega, collateral, hcollateral, by rw [Oe.splitEvidence_inside p.host hb]⟩
  rw [Oe.splitEvidence_inside p.host hinside] at hparse hsgx
  have hquote := Oe.sameUsed_extracted hsame hused hparse
  refine (Oe.verifySynchronous_ok p hextractB server options _).trans ?_
  simp only [hquote.verifySynchronous_ok p hparse, hsgx]
  constructor
  · intro hparts
    obtain ⟨c, map', hc, hmap, heq⟩ := hparts
    obtain rfl := PlatformClaims.openEnclave.inj heq
    exact ⟨(PlatformClaims.sgx.inj (Except.ok.inj hc)).symm, hmap⟩
  · intro hparts
    obtain ⟨hc, hmap⟩ := hparts
    exact ⟨sgxClaims, found.customClaims, rfl, hmap, by rw [← hc]⟩

end

/-! ### A quote of letters -/

def letterPlatform : Platform Byte Bytes Bytes where
  ssl := letterIo.toOpenSsl
  host := plainHost
  verifyUvmEndorsements _ _ := .ok ()

theorem letterEvidence_parses : Parses letterIo.toOpenSsl plainHost (letterEvidence 691)
    (Sgx.placedData 1 (Sgx.chainPem letterIo letterChain)) := by
  have hlength := letterEvidence_length 691
  have hcarries := letterEvidence_carries 691 []
  have hsigned := letterEvidence_signatureLen 691 (by decide) []
  rw [List.append_nil] at hcarries hsigned
  have hinside : 436 + Sgx.signatureLen plainHost (letterEvidence 691) ≤ (letterEvidence 691).length := by
    omega
  exact ⟨Sgx.parseQuote_of hcarries plainHost.beyond hinside,
    Sgx.SignatureData.parse_of letterIo.toOpenSsl hcarries plainHost.beyond (by rw [hlength]; decide) _ rfl⟩

theorem letterEvidence_verified (endorsements : Bytes) : ∃ claims, verifySynchronous letterPlatform
    (Http.scripted []) (.sgx (letterEvidence 691) endorsements) { isPartial := true } =
      .ok (.sgx claims) := by
  have hverify : ∃ claims, Sgx.verify letterIo.toOpenSsl plainHost
      ⟨.sgx, letterEvidence 691, endorsements⟩ { isPartial := true } none = .ok claims := by
    apply ok_of_isSome
    simp only [Sgx.verify, Sgx.verifyRun, if_true, Sgx.partialVerifyRun, letterEvidence_parses.quote,
      letterEvidence_parses.signatureData]
    decide +kernel
  obtain ⟨claims, hclaims⟩ := hverify
  have hprepare : ((AttestationObject.sgx (letterEvidence 691) endorsements).prepareEndorsements
      letterPlatform { isPartial := true }).1 = .ok none :=
    if_pos (Or.inr rfl)
  exact ⟨claims, (Ravl.verifySynchronous_ok _ _ _ _).2
    (Or.inl ⟨hprepare, (Sgx.verify_object_ok letterPlatform).2 hclaims⟩)⟩

/-- The quote with another `signature_len`, and a byte and a custom claim behind it. -/
def letterQuoteClaiming : Bytes :=
  patch (letterEvidence 691) 432 (leBytes 4 692) ++ [7] ++ Oe.customClaimsBytes [Oe.sampleClaim]

theorem letterQuoteClaiming_same : SameUsed (letterEvidence 691) letterQuoteClaiming := by
  rw [letterQuoteClaiming, List.append_assoc]
  refine letterEvidence_parses.sameUsed_patched (leBytes 4 692) _ (leBytes_length 4 692) ?_
  rw [leVal_leBytes 4 692 (by decide), letterEvidence_length]
  rw [List.length_append, List.length_singleton]
  omega

theorem sgx_verified_alike_sample : ∃ claims, verifySynchronous letterPlatform (Http.scripted [])
    (.sgx letterQuoteClaiming []) { isPartial := true } = .ok (.sgx claims) := by
  obtain ⟨claims, hclaims⟩ := letterEvidence_verified []
  exact ⟨claims, sgx_verified_alike letterPlatform letterQuoteClaiming_same [] (Http.scripted [])
    { isPartial := true } _ hclaims⟩

theorem letterQuoteClaiming_claims : (Oe.extractCustomClaims plainHost
    (letterQuoteClaiming.drop (436 + signatureLenOf letterQuoteClaiming)) []).toOption =
      some [(text "a", [1])] := by
  decide +kernel

theorem letterEvidence_openEnclave : ∃ claims, verifySynchronous letterPlatform (Http.scripted [])
    (.openEnclave Oe.letterAttestation) { isPartial := true } = .ok (.openEnclave ⟨claims, []⟩) := by
  obtain ⟨sgx, hevidence, hextract⟩ := Oe.letterAttestation_extracted
  obtain ⟨-, collateral, -, heq⟩ := Oe.extracted_iff.1 hextract
  obtain ⟨hsgx, -⟩ := Prod.mk.inj heq
  have hform : sgx = ⟨.sgx, letterEvidence 691, collateral⟩ := by
    rw [← hevidence, hsgx]
  rw [hform] at hextract
  obtain ⟨claims, hclaims⟩ := letterEvidence_verified collateral
  exact ⟨claims, (Oe.verifySynchronous_ok letterPlatform hextract _ _ _).2 ⟨claims, [], hclaims, rfl, rfl⟩⟩

theorem custom_claims_unbound_sample : ∃ claims, verifySynchronous letterPlatform (Http.scripted [])
    (.openEnclave { evidence := letterQuoteClaiming, endorsements := Oe.emptyEndorsements })
      { isPartial := true } = .ok (.openEnclave ⟨claims, [(text "a", [1])]⟩) := by
  obtain ⟨claims, hclaims⟩ := letterEvidence_openEnclave
  have hused : usedSize (letterEvidence 691) ≤ 436 + signatureLenOf letterQuoteClaiming := by
    have hin := letterEvidence_parses.used.2
    have hsigned : signatureLenOf letterQuoteClaiming = 692 := by decide +kernel
    rw [letterEvidence_length] at hin
    omega
  exact ⟨claims, (custom_claims_unbound letterPlatform letterQuoteClaiming_same hused Oe.emptyEndorsements
    (Http.scripted []) { isPartial := true } _ hclaims ⟨claims, _⟩).2
      ⟨rfl, toOption_eq_some.1 letterQuoteClaiming_claims⟩⟩

end Ravl
