import Ravl.SevSnp
import Ravl.Sgx.Soundness
import Ravl.Sgx.Requests

/-!
# Trust anchors under a root certificate given in the options

options.h says that `root_ca_certificate` overrides the download of a root
certificate. For SGX the option only switches the download off: the end of the
first chain is trusted instead. For SEV/SNP it is used with embedded endorsements
and overwritten by the end of the downloaded chain.
-/

namespace Ravl
open ByteLib FallibleLib

section
variable {X509 Crl Pkey : Type} (ssl : OpenSsl X509 Crl Pkey) (host : Host)

/-- The certificate of this PEM text is what the store trusts, and nothing else is. -/
def OnlyAnchor (pem : Bytes) (store : Store X509 Crl) : Prop :=
  ∃ cert, ssl.pemX509 pem = .ok cert ∧ store.anchors = [cert]

/-- The certificate of this PEM text is the last one of a chain. -/
def EndsWith (pem chain : Bytes) : Prop :=
  ∃ cert stack, ssl.pemX509 pem = .ok cert ∧ ssl.pemStack chain = .ok stack ∧
    stack.getLast? = some cert

theorem onlyAnchor_iff_endsWith (pem chain : Bytes) (store : Store X509 Crl) (stack : List X509)
    (c : X509) (hstack : ssl.pemStack chain = .ok stack) (hlast : stack.getLast? = some c)
    (hanchors : store.anchors = [c]) : OnlyAnchor ssl pem store ↔ EndsWith ssl pem chain := by
  constructor
  · intro ⟨cert, hcert, hstore⟩
    rw [hanchors] at hstore
    cases hstore
    exact ⟨c, stack, hcert, hstack, hlast⟩
  · intro ⟨cert, stack', hcert, hstack', hlast'⟩
    rw [hstack] at hstack'
    cases hstack'
    rw [hlast] at hlast'
    cases hlast'
    exact ⟨c, hcert, hanchors⟩

/-! ### SGX -/

/-- The issuer chain of the PCK revocation list, from five responses or else as embedded. -/
def Sgx.issuerChainOf (a : Attestation) (httpResponses : HTTPResponses) : Result Bytes :=
  match httpResponses with
  | _ :: _ :: pck :: _ :: _ :: _ => pck.getHeaderString Sgx.pckCrlChainHeader true
  | _ => do
    let c ← Sgx.QlQveCollateral.parse 64 a.endorsements
    pure c.pckCrlIssuerChain

/-- The chain whose end is trusted when no root certificate was downloaded. -/
def Sgx.trustedChain (a : Attestation) (options : Options) (httpResponses : HTTPResponses) :
    Result Bytes :=
  if options.isPartial then Sgx.pemOf ssl (Sgx.certificationDataOf a.evidence)
  else Sgx.issuerChainOf a httpResponses

theorem Sgx.usedCollateral_rootOption (a : Attestation) (options : Options)
    (httpResponses : Option HTTPResponses) (c : Sgx.QlQveCollateral)
    (hroot : options.rootCaCertificate ≠ none)
    (h : Sgx.usedCollateral a options httpResponses = .ok (some c)) :
    c.rootCa = [] ∧ Sgx.issuerChainOf a (httpResponses.getD []) = .ok c.pckCrlIssuerChain := by
  simp only [Sgx.usedCollateral, bind_ok] at h
  obtain ⟨collateral, hcol, h⟩ := h
  have hempty : (collateral.getD {}).rootCa = [] := by
    cases collateral with
    | none => rfl
    | some e => exact (Sgx.embeddedCollateral_some _ e hcol).2
  split at h
  next r rs =>
    simp only [bind_ok, pure_ok, Option.some.injEq] at h
    obtain ⟨c', hc, rfl⟩ := h
    have hca := Sgx.consume_keeps_rootCa options (r :: rs) collateral c' hroot hc
    refine ⟨hca.trans hempty, ?_⟩
    by_cases hmany : 4 < (r :: rs).length
    · obtain ⟨pck, hpck, -, hchain⟩ := Sgx.consume_many options _ collateral c' hmany hc .pckCrl
        (by simp)
      obtain _ | ⟨r₁, _ | ⟨r₂, _ | ⟨r₃, _ | ⟨r₄, rs⟩⟩⟩⟩ := rs
      all_goals simp at hmany
      simp only [Sgx.responseIndex, if_neg hroot] at hpck
      cases hpck
      exact hchain
    · have hkept := (Sgx.consume_few options _ collateral c' hmany hc .pckCrl (by simp)).2
      have hlen := Sgx.consume_length options _ collateral c' hc
      cases collateral with
      | none =>
        exfalso
        apply hmany
        rw [hlen]
        simp [Sgx.expectedResponses]
      | some e =>
        have hparse := (Sgx.embeddedCollateral_parse _ e hcol).2
        rw [hkept, Option.getD_some]
        unfold Sgx.issuerChainOf
        split
        next heq =>
          rw [heq] at hmany
          simp at hmany
        next =>
          simp only [bind_ok, pure_ok]
          exact ⟨e, hparse, rfl⟩
  next hnone =>
    simp only [pure_ok] at h
    rw [h] at hcol hempty
    have hparse := (Sgx.embeddedCollateral_parse _ c hcol).2
    refine ⟨hempty, ?_⟩
    unfold Sgx.issuerChainOf
    split
    next hr =>
      cases httpResponses with
      | none => cases hr
      | some rs => exact absurd (congrArg some hr) (hnone _ _)
    next =>
      simp only [bind_ok, pure_ok]
      exact ⟨c, hparse, rfl⟩

theorem Sgx.prepareStore_noRoot (c : Sgx.QlQveCollateral) (store : Store X509 Crl)
    (trustedRoot : Bool) (hempty : c.rootCa = [])
    (h : Sgx.prepareStore ssl c = .ok (store, trustedRoot)) :
    trustedRoot = true ∧ store.anchors = [] := by
  simp only [Sgx.prepareStore, OpenSsl.storeAddCrlPem, bind_ok, pure_ok, hempty, ne_eq,
    not_true_eq_false, if_false, Prod.mk.injEq] at h
  obtain ⟨_, ⟨crl₁, -, rfl⟩, _, ⟨crl₂, -, rfl⟩, rfl, rfl⟩ := h
  exact ⟨rfl, rfl⟩

theorem Sgx.onlyAnchor_iff (a : Attestation) (options : Options)
    (httpResponses : Option HTTPResponses) (pem : Bytes) (r : Sgx.Verified X509 Crl)
    (hroot : options.rootCaCertificate = some pem)
    (h : Sgx.verifyRun ssl host a options httpResponses = .ok r) :
    OnlyAnchor ssl pem r.store ↔ ∃ chain,
      Sgx.trustedChain ssl a options (httpResponses.getD []) = .ok chain ∧
        EndsWith ssl pem chain := by
  have hiff (chain : Bytes) (hchain : Sgx.trustedChain ssl a options (httpResponses.getD []) =
      .ok chain) (hend : OnlyAnchor ssl pem r.store ↔ EndsWith ssl pem chain) :
      OnlyAnchor ssl pem r.store ↔ ∃ chain,
        Sgx.trustedChain ssl a options (httpResponses.getD []) = .ok chain ∧
          EndsWith ssl pem chain := by
    rw [hend, hchain]
    simp
  cases hmode : options.isPartial with
  | true =>
    obtain ⟨run⟩ := Sgx.verifyRun_partial ssl host a options httpResponses r hmode h
    have hplaced := Sgx.SignatureData.parse_ok ssl _ _ _ run.signatureData
    have hpem := (Sgx.placed_certificationData ssl a.evidence host.beyond run.sd hplaced).2.2
    obtain ⟨stack, hstack, hverify⟩ := verifyPem_ok ssl _ _ _ _ _ _ run.chain
    obtain ⟨c, hlast, hanchors⟩ := verifyStack_trusted ssl _ _ _ _ _ _ hverify
    refine hiff run.sd.certificationData ?_ ?_
    · rw [Sgx.trustedChain, if_pos hmode]
      exact hpem
    · exact onlyAnchor_iff_endsWith ssl pem _ r.store stack c hstack hlast hanchors
  | false =>
    obtain ⟨run⟩ := Sgx.verifyRun_full ssl host a options httpResponses r hmode h
    obtain ⟨hempty, hissuer⟩ := Sgx.usedCollateral_rootOption a options httpResponses run.c
      (by simp [hroot]) run.used
    obtain ⟨htrusted, hnone⟩ := Sgx.prepareStore_noRoot ssl run.c _ _ hempty run.prepared
    have hcrl := run.crlChain
    rw [htrusted] at hcrl
    obtain ⟨stack, hstack, hverify⟩ := verifyPem_ok ssl _ _ _ _ _ _ hcrl
    obtain ⟨c, hlast, hanchors⟩ := verifyStack_trusted ssl _ _ _ _ _ _ hverify
    obtain ⟨_, -, hpck⟩ := verifyPem_ok ssl _ _ _ _ _ _ run.chain
    have hsame : r.store = run.trusting := verifyStack_untrusted ssl _ _ _ _ _ _ hpck
    rw [hnone, List.nil_append, ← hsame] at hanchors
    refine hiff run.c.pckCrlIssuerChain ?_ ?_
    · rw [Sgx.trustedChain, if_neg (by simp [hmode])]
      exact hissuer
    · exact onlyAnchor_iff_endsWith ssl pem _ r.store stack c hstack hlast hanchors

/-! ### SEV/SNP -/

/-- The response that brings the issuers' chain. -/
def SevSnp.chainResponse (options : Options) (httpResponses : HTTPResponses) :
    Option HTTPResponse :=
  if options.sevSnpEndorsementCacheUrlTemplate ≠ none then httpResponses[0]? else httpResponses[1]?

theorem SevSnp.parseUrlResponses_root (options : Options) (httpResponses : HTTPResponses)
    (e : SevSnp.EndorsementsEtc X509 Crl)
    (h : SevSnp.parseUrlResponses ssl options httpResponses = .ok e) :
    ∃ response stack ark, SevSnp.chainResponse options httpResponses = some response ∧
      ssl.pemStack response.body = .ok stack ∧ stack.getLast? = some ark ∧
      e.rootCaCertificate = some ark := by
  simp only [SevSnp.parseUrlResponses, bind_ok] at h
  obtain ⟨_, -, root, -, h⟩ := h
  unfold SevSnp.chainResponse
  split at h
  next hcache =>
    rw [if_pos hcache]
    unfold SevSnp.parseCached at h
    split at h
    next issuerChain issuerCrl =>
      simp only [bind_ok] at h
      obtain ⟨stack, hstack, h⟩ := h
      split at h
      next vcek ask ark =>
        simp only [bind_ok, pure_ok] at h
        obtain ⟨crl, -, rfl⟩ := h
        exact ⟨issuerChain, _, ark, rfl, hstack, rfl, rfl⟩
      next => simp [throw_ok] at h
    next => simp [throw_ok] at h
  next hplain =>
    rw [if_neg hplain]
    unfold SevSnp.parseDownloaded at h
    split at h
    next vcekCert issuerChain issuerCrl =>
      simp only [bind_ok] at h
      obtain ⟨stack, hstack, h⟩ := h
      split at h
      next ask ark =>
        simp only [bind_ok, pure_ok] at h
        obtain ⟨⟨vcek, _⟩, -, crl, -, rfl⟩ := h
        exact ⟨issuerChain, _, ark, rfl, hstack, rfl, rfl⟩
      next => simp [throw_ok] at h
    next => simp [throw_ok] at h

theorem SevSnp.store_anchors (a : Attestation) (options : Options)
    (httpResponses : Option HTTPResponses) (r : SevSnp.Verified X509 Crl)
    (run : SevSnp.Run ssl a options httpResponses r) (root : X509)
    (hroot : run.e.rootCaCertificate = some root) : r.store.anchors = [root] := by
  have hverify := run.verified
  rw [hroot, Option.isNone_some] at hverify
  rw [verifyStack_untrusted ssl _ _ _ _ _ _ hverify]
  unfold SevSnp.prepareStore
  rw [hroot]
  cases run.e.vcekIssuerChainCrl <;> rfl

theorem SevSnp.onlyAnchor_iff (a : Attestation) (options : Options)
    (httpResponses : Option HTTPResponses) (pem : Bytes) (r : SevSnp.Verified X509 Crl)
    (hroot : options.rootCaCertificate = some pem)
    (h : SevSnp.verifyRun ssl host a options httpResponses = .ok r) :
    OnlyAnchor ssl pem r.store ↔ (a.endorsements ≠ [] ∧ options.freshEndorsements = false) ∨
      ∃ response, SevSnp.chainResponse options (httpResponses.getD []) = some response ∧
        EndsWith ssl pem response.body := by
  obtain ⟨run⟩ := SevSnp.verifyRun_ok ssl host a options httpResponses r h
  have hused := run.used
  unfold SevSnp.usedEndorsements at hused
  split at hused
  next hembedded =>
    simp only [SevSnp.embeddedRoot, SevSnp.optionRoot, hroot, ne_eq, reduceCtorEq,
      not_false_eq_true, if_true, bind_ok, pure_ok] at hused
    obtain ⟨stack, -, root, ⟨cert, hcert, rfl⟩, he⟩ := hused
    have hanchors := SevSnp.store_anchors ssl a options httpResponses r run cert (by rw [← he])
    have honly : OnlyAnchor ssl pem r.store := ⟨cert, hcert, hanchors⟩
    exact iff_of_true honly (Or.inl hembedded)
  next hdownloaded =>
    simp only [bind_ok, orThrow_ok] at hused
    obtain ⟨responses, hresponses, hparse⟩ := hused
    obtain ⟨response, stack, ark, hresponse, hstack, hlast, hark⟩ :=
      SevSnp.parseUrlResponses_root ssl options responses run.e hparse
    have hanchors := SevSnp.store_anchors ssl a options httpResponses r run ark hark
    have hiff := onlyAnchor_iff_endsWith ssl pem response.body r.store stack ark hstack hlast
      hanchors
    rw [hiff, or_iff_right hdownloaded, hresponses, Option.getD_some, hresponse]
    simp

/-- With a root certificate in the options the store trusts exactly this certificate if and only
if the chain that is trusted in its place happens to end with it; for SEV/SNP embedded
endorsements are checked against it in any case. -/
theorem rootOption_onlyAnchor_iff (a : Attestation) (options : Options)
    (httpResponses : Option HTTPResponses) (pem : Bytes)
    (hroot : options.rootCaCertificate = some pem) :
    (∀ r, Sgx.verifyRun ssl host a options httpResponses = .ok r →
      (OnlyAnchor ssl pem r.store ↔ ∃ chain,
        Sgx.trustedChain ssl a options (httpResponses.getD []) = .ok chain ∧
          EndsWith ssl pem chain)) ∧
    (∀ r, SevSnp.verifyRun ssl host a options httpResponses = .ok r →
      (OnlyAnchor ssl pem r.store ↔ (a.endorsements ≠ [] ∧ options.freshEndorsements = false) ∨
        ∃ response, SevSnp.chainResponse options (httpResponses.getD []) = some response ∧
          EndsWith ssl pem response.body)) :=
  ⟨fun r h => Sgx.onlyAnchor_iff ssl host a options httpResponses pem r hroot h,
    fun r h => SevSnp.onlyAnchor_iff ssl host a options httpResponses pem r hroot h⟩

end

def otherRoot : Bytes := pemBegin ++ text "other" ++ pemEnd

/-- Trusts a certificate of the user's, with nothing but the quote checked. -/
def otherRootOptions : Options := { isPartial := true, rootCaCertificate := some otherRoot }

/-- A report of zeros under the right algorithm, with a chain of three. -/
def SevSnp.sampleAttestation : Attestation where
  source := .sevSnp
  evidence := List.replicate 0x34 0 ++ [1] ++ List.replicate 1131 0
  endorsements := pemBegin ++ text "vcek" ++ pemEnd ++ sampleChain

theorem Sgx.verifyRun_otherRoot : ∃ r,
    Sgx.verifyRun Sgx.lenientSsl plainHost Sgx.sampleAttestation otherRootOptions none = .ok r ∧
      r.store.anchors = [pemBegin ++ text "root" ++ pemEnd] := by
  apply ok_of_map
  have hevidence : Sgx.sampleAttestation.evidence = Sgx.sampleEvidence := rfl
  rw [Sgx.verifyRun, if_pos (by decide), Sgx.partialVerifyRun]
  simp only [hevidence, Sgx.sampleEvidence_quote, Sgx.sampleEvidence_parse]
  decide +kernel

theorem SevSnp.verifyRun_otherRoot : ∃ r,
    SevSnp.verifyRun Sgx.lenientSsl plainHost SevSnp.sampleAttestation otherRootOptions none =
      .ok r := by
  apply ok_of_isSome
  decide +kernel

theorem rootOption_onlyAnchor_iff_sample :
    ∃ (r : Sgx.Verified Bytes Bytes) (s : SevSnp.Verified Bytes Bytes),
    (OnlyAnchor Sgx.lenientSsl otherRoot r.store ↔ ∃ chain,
      Sgx.trustedChain Sgx.lenientSsl Sgx.sampleAttestation otherRootOptions [] = .ok chain ∧
        EndsWith Sgx.lenientSsl otherRoot chain) ∧
    (OnlyAnchor Sgx.lenientSsl otherRoot s.store ↔
      (SevSnp.sampleAttestation.endorsements ≠ [] ∧ otherRootOptions.freshEndorsements = false) ∨
        ∃ response, SevSnp.chainResponse otherRootOptions [] = some response ∧
          EndsWith Sgx.lenientSsl otherRoot response.body) := by
  obtain ⟨r, hr, -⟩ := Sgx.verifyRun_otherRoot
  obtain ⟨s, hs⟩ := SevSnp.verifyRun_otherRoot
  exact ⟨r, s,
    (rootOption_onlyAnchor_iff Sgx.lenientSsl plainHost Sgx.sampleAttestation otherRootOptions none
      otherRoot rfl).1 r hr,
    (rootOption_onlyAnchor_iff Sgx.lenientSsl plainHost SevSnp.sampleAttestation otherRootOptions
      none otherRoot rfl).2 s hs⟩

/-- The partial verification trusts the root of the quote's own chain. -/
theorem rootOption_not_anchor :
    ¬ ∀ (a : Attestation) (options : Options) (httpResponses : Option HTTPResponses) (pem : Bytes)
        (r : Sgx.Verified Bytes Bytes), options.rootCaCertificate = some pem →
      Sgx.verifyRun Sgx.lenientSsl plainHost a options httpResponses = .ok r →
        OnlyAnchor Sgx.lenientSsl pem r.store := by
  intro h
  obtain ⟨r, hr, hanchors⟩ := Sgx.verifyRun_otherRoot
  obtain ⟨cert, hcert, hstore⟩ := h Sgx.sampleAttestation otherRootOptions none otherRoot r rfl hr
  rw [hanchors] at hstore
  cases hstore
  revert hcert
  decide +kernel

end Ravl
