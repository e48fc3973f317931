import Mathlib.Data.List.Forall2
import Ravl.SevSnp

/-!
# Endorsement requests and what is made of their replies (sev_snp_impl.h:265-483, 558-573)

`prepareEndorsements` and `usedEndorsements` choose between three layouts of requests and
responses, each from the options and the attestation on its own. `documents` says what is
asked for in each layout.
-/

namespace Ravl.SevSnp
open ByteLib FallibleLib

inductive Document
  /-- the VCEK certificate (DER) -/
  | vcek
  /-- its issuers ASK and ARK (PEM) -/
  | issuerChain
  /-- the whole chain from a cache (PEM) -/
  | cachedChain
  /-- the revocation list (DER) -/
  | crl
  deriving DecidableEq

/-- The endorsements in the attestation are going to be used. -/
abbrev Embedded (a : Attestation) (options : Options) : Prop :=
  a.endorsements ≠ [] ∧ options.freshEndorsements = false

def documents (a : Attestation) (options : Options) : List Document :=
  if Embedded a options then
    if options.rootCaCertificate = none ∧ options.freshRootCaCertificate then [.issuerChain] else []
  else if options.sevSnpEndorsementCacheUrlTemplate ≠ none then [.cachedChain, .crl]
  else [.vcek, .issuerChain, .crl]

section
variable {X509 Crl Pkey : Type} (ssl : OpenSsl X509 Crl Pkey) (host : Host)

def vcekUrl (m : ℕ → Byte) : Bytes :=
  let tcbVersion := readTcbVersion m reportedTcbOff
  kdsUrl ++ text "/vcek/v1/" ++ text "Milan" ++ text "/" ++ toHex (readMem m chipIdOff 64) ++
    text "?" ++ (text "blSPL=" ++ decimal tcbVersion.bootLoader ++ text "&teeSPL=" ++
      decimal tcbVersion.tee ++ text "&snpSPL=" ++ decimal tcbVersion.snp ++ text "&ucodeSPL=" ++
      decimal tcbVersion.microcode)

def documentUrl (m : ℕ → Byte) (options : Options) : Document → Result Bytes
  | .vcek => pure (vcekUrl m)
  | .issuerChain => pure (kdsUrl ++ text "/vcek/v1/" ++ text "Milan" ++ text "/cert_chain")
  | .cachedChain => do
    let urlTemplate ← orThrow options.sevSnpEndorsementCacheUrlTemplate (.exception "no cache")
    ssl.vformat urlTemplate [toHex (readMem m chipIdOff 64), hexNumber (readLe m reportedTcbOff 8)]
  | .crl => pure (kdsUrl ++ text "/vcek/v1/" ++ text "Milan" ++ text "/crl")

def AsksFor (a : Attestation) (options : Options) (request : HTTPRequest) (d : Document) : Prop :=
  documentUrl ssl (mem a.evidence host.beyond) options d = .ok request.url

/-- The response is a good one and its body is such a document. -/
def Delivers (d : Document) (response : HTTPResponse) : Prop :=
  response.status = 200 ∧
  match d with
  | .vcek => ∃ vcek, ssl.derX509 response.body = .ok (vcek, [])
  | .issuerChain => ∃ ask ark, ssl.pemStack response.body = .ok [ask, ark]
  | .cachedChain => ∃ vcek ask ark, ssl.pemStack response.body = .ok [vcek, ask, ark]
  | .crl => ∃ crl, ssl.derCrl response.body = .ok crl

/-- The response is used as this document and as nothing else. With embedded endorsements the
issuers only supply the root candidate. -/
def UsedAs (a : Attestation) (options : Options) (e : EndorsementsEtc X509 Crl) (d : Document)
    (response : HTTPResponse) : Prop :=
  match d with
  | .vcek => ∃ vcek, ssl.derX509 response.body = .ok (vcek, []) ∧
      e.vcekCertificateChain.head? = some vcek
  | .issuerChain => ∃ ask ark, ssl.pemStack response.body = .ok [ask, ark] ∧
      e.rootCaCertificate = some ark ∧
      (¬ Embedded a options → e.vcekCertificateChain.tail = [ask, ark])
  | .cachedChain => ∃ vcek ask ark, ssl.pemStack response.body = .ok [vcek, ask, ark] ∧
      e.rootCaCertificate = some ark ∧ e.vcekCertificateChain = [vcek, ask, ark]
  | .crl => ∃ crl, ssl.derCrl response.body = .ok crl ∧ e.vcekIssuerChainCrl = some crl

/-- What is read besides the responses can be read. -/
structure Readable (a : Attestation) (options : Options) : Prop where
  optionRoot (pem : Bytes) (h : options.rootCaCertificate = some pem) :
    ∃ root, ssl.pemX509 pem = .ok root
  embedded (h : Embedded a options) : ∃ stack, ssl.pemStack a.endorsements = .ok stack

/-! ### The requests -/

theorem prepareEndorsements_ok (a : Attestation) (options : Options) (r : Option HTTPRequests)
    (h : prepareEndorsements ssl host a options = .ok r) :
    (Embedded a options ∧ (options.rootCaCertificate = none ∧ options.freshRootCaCertificate) ∧
      r = some (downloadRootCaPem (text "Milan"))) ∨
    (Embedded a options ∧ ¬ (options.rootCaCertificate = none ∧ options.freshRootCaCertificate) ∧
      r = none) ∨
    (¬ Embedded a options ∧ ∃ requests, r = some requests ∧
      downloadEndorsements ssl (text "Milan") (readMem (mem a.evidence host.beyond) chipIdOff 64)
        (readTcbVersion (mem a.evidence host.beyond) reportedTcbOff)
        (readLe (mem a.evidence host.beyond) reportedTcbOff 8) options = .ok requests) := by
  unfold prepareEndorsements at h
  simp only [bind_ok] at h
  obtain ⟨_, -, h⟩ := h
  by_cases hembedded : Embedded a options
  · rw [if_pos hembedded] at h
    by_cases hroot : options.rootCaCertificate = none ∧ options.freshRootCaCertificate
    · rw [if_pos hroot, pure_ok] at h
      exact Or.inl ⟨hembedded, hroot, h.symm⟩
    · rw [if_neg hroot, pure_ok] at h
      exact Or.inr (Or.inl ⟨hembedded, hroot, h.symm⟩)
  · rw [if_neg hembedded] at h
    simp only [bind_ok, pure_ok] at h
    obtain ⟨requests, hrequests, rfl⟩ := h
    exact Or.inr (Or.inr ⟨hembedded, requests, rfl, hrequests⟩)

theorem requests_ask (a : Attestation) (options : Options) (requests : HTTPRequests)
    (h : prepareEndorsements ssl host a options = .ok (some requests)) :
    List.Forall₂ (AsksFor ssl host a options) requests (documents a options) := by
  rcases prepareEndorsements_ok ssl host a options _ h with
    ⟨hembedded, hroot, hr⟩ | ⟨-, -, hr⟩ | ⟨hembedded, rs, hr, hdownload⟩
  · obtain rfl := Option.some.inj hr
    rw [documents, if_pos hembedded, if_pos hroot]
    exact .cons rfl .nil
  · cases hr
  · obtain rfl := Option.some.inj hr
    rw [documents, if_neg hembedded]
    unfold downloadEndorsements at hdownload
    cases htemplate : options.sevSnpEndorsementCacheUrlTemplate with
    | none =>
      rw [htemplate] at hdownload
      obtain rfl := (pure_ok _ _).1 hdownload
      rw [if_neg (fun h => h rfl)]
      exact .cons rfl (.cons rfl (.cons rfl .nil))
    | some urlTemplate =>
      rw [htemplate] at hdownload
      simp only [bind_ok, pure_ok] at hdownload
      obtain ⟨chainUrl, hurl, rfl⟩ := hdownload
      rw [if_pos (Option.some_ne_none _)]
      refine .cons ?_ (.cons rfl .nil)
      simp only [AsksFor, documentUrl, htemplate, orThrow, Option.elim]
      exact hurl

theorem requests_ne_nil (a : Attestation) (options : Options) :
    prepareEndorsements ssl host a options ≠ .ok (some []) := by
  intro h
  have hask := requests_ask ssl host a options [] h
  have hnil := List.forall₂_nil_left_iff.1 hask
  rcases prepareEndorsements_ok ssl host a options _ h with
    ⟨-, -, hr⟩ | ⟨-, -, hr⟩ | ⟨hembedded, -⟩
  · cases Option.some.inj hr
  · cases hr
  · rw [documents, if_neg hembedded] at hnil
    split at hnil <;> cases hnil

/-! ### The consumer -/

theorem checkStatus_delivered (ds : List Document) (responses : HTTPResponses) (i : ℕ)
    (h : List.Forall₂ (Delivers ssl) ds responses) : checkStatus i responses = .ok () := by
  induction h generalizing i with
  | nil => rfl
  | cons hd _ ih =>
    rw [checkStatus, refuse, if_neg (not_not.2 hd.1)]
    exact ih (i + 1)

theorem optionRoot_readable (a : Attestation) (options : Options) (h : Readable ssl a options) :
    ∃ root, optionRoot ssl options = .ok root := by
  unfold optionRoot
  cases hpem : options.rootCaCertificate with
  | none => exact ⟨none, rfl⟩
  | some pem =>
    obtain ⟨root, hroot⟩ := h.optionRoot pem hpem
    exact ⟨some root, by simp only [hroot]; rfl⟩

theorem used_root_only (a : Attestation) (options : Options) (responses : HTTPResponses)
    (hpem : ∀ c, ssl.pemX509 (ssl.x509Pem c) = .ok c) (hreadable : Readable ssl a options)
    (hembedded : Embedded a options)
    (hroot : options.rootCaCertificate = none ∧ options.freshRootCaCertificate)
    (h : List.Forall₂ (Delivers ssl) [.issuerChain] responses) :
    ∃ e, usedEndorsements ssl a options (some responses) = .ok e ∧
      List.Forall₂ (UsedAs ssl a options e) [.issuerChain] responses := by
  obtain ⟨response, _, ⟨-, ask, ark, hchain⟩, hnil, rfl⟩ := List.forall₂_cons_left_iff.1 h
  obtain rfl := List.forall₂_nil_left_iff.1 hnil
  obtain ⟨stack, hstack⟩ := hreadable.embedded hembedded
  refine ⟨{ rootCaCertificate := some ark, vcekCertificateChain := stack }, ?_, ?_⟩
  · have hnone : ¬ options.rootCaCertificate ≠ none := not_not.2 hroot.1
    have hparse : parseRootCert ssl [response] = .ok ark := by
      simp only [parseRootCert, hchain]
      exact hpem ark
    have hused : embeddedRoot ssl options (some [response]) = .ok (some ark) := by
      rw [embeddedRoot, if_neg hnone, if_pos hroot.2]
      show (parseRootCert ssl [response] >>= fun root => pure (some root)) = _
      rw [hparse]
      rfl
    rw [usedEndorsements, if_pos hembedded, hstack]
    show (embeddedRoot ssl options (some [response]) >>= _) = _
    rw [hused]
    rfl
  · exact .cons ⟨ask, ark, hchain, rfl, fun hno => absurd hembedded hno⟩ .nil

theorem used_cached (a : Attestation) (options : Options) (responses : HTTPResponses)
    (hreadable : Readable ssl a options) (hembedded : ¬ Embedded a options)
    (hcache : options.sevSnpEndorsementCacheUrlTemplate ≠ none)
    (h : List.Forall₂ (Delivers ssl) [.cachedChain, .crl] responses) :
    ∃ e, usedEndorsements ssl a options (some responses) = .ok e ∧
      List.Forall₂ (UsedAs ssl a options e) [.cachedChain, .crl] responses := by
  have hstatus := checkStatus_delivered ssl _ responses 0 h
  obtain ⟨issuerChain, _, ⟨-, vcek, ask, ark, hchain⟩, hcrls, rfl⟩ := List.forall₂_cons_left_iff.1 h
  obtain ⟨issuerCrl, _, ⟨-, crl, hcrl⟩, hnil, rfl⟩ := List.forall₂_cons_left_iff.1 hcrls
  obtain rfl := List.forall₂_nil_left_iff.1 hnil
  obtain ⟨root, hroot⟩ := optionRoot_readable ssl a options hreadable
  refine ⟨⟨some ark, [vcek, ask, ark], some crl⟩, ?_, ?_⟩
  · have hparse : parseCached ssl { rootCaCertificate := root } [issuerChain, issuerCrl] =
        .ok ⟨some ark, [vcek, ask, ark], some crl⟩ := by
      simp only [parseCached, hchain, hcrl]
      rfl
    rw [usedEndorsements, if_neg hembedded]
    show parseUrlResponses ssl options [issuerChain, issuerCrl] = _
    rw [parseUrlResponses, hstatus, hroot]
    show (if options.sevSnpEndorsementCacheUrlTemplate ≠ none then _ else _) = _
    rw [if_pos hcache]
    exact hparse
  · exact .cons ⟨vcek, ask, ark, hchain, rfl, rfl⟩ (.cons ⟨crl, hcrl, rfl⟩ .nil)

theorem used_downloaded (a : Attestation) (options : Options) (responses : HTTPResponses)
    (hreadable : Readable ssl a options) (hembedded : ¬ Embedded a options)
    (hcache : ¬ options.sevSnpEndorsementCacheUrlTemplate ≠ none)
    (h : List.Forall₂ (Delivers ssl) [.vcek, .issuerChain, .crl] responses) :
    ∃ e, usedEndorsements ssl a options (some responses) = .ok e ∧
      List.Forall₂ (UsedAs ssl a options e) [.vcek, .issuerChain, .crl] responses := by
  have hstatus := checkStatus_delivered ssl _ responses 0 h
  obtain ⟨vcekCert, _, ⟨-, vcek, hvcek⟩, hissuers, rfl⟩ := List.forall₂_cons_left_iff.1 h
  obtain ⟨issuerChain, _, ⟨-, ask, ark, hchain⟩, hcrls, rfl⟩ := List.forall₂_cons_left_iff.1 hissuers
  obtain ⟨issuerCrl, _, ⟨-, crl, hcrl⟩, hnil, rfl⟩ := List.forall₂_cons_left_iff.1 hcrls
  obtain rfl := List.forall₂_nil_left_iff.1 hnil
  obtain ⟨root, hroot⟩ := optionRoot_readable ssl a options hreadable
  refine ⟨⟨some ark, [vcek, ask, ark], some crl⟩, ?_, ?_⟩
  · have hparse : parseDownloaded ssl { rootCaCertificate := root }
        [vcekCert, issuerChain, issuerCrl] = .ok ⟨some ark, [vcek, ask, ark], some crl⟩ := by
      simp only [parseDownloaded, hvcek, hchain, hcrl]
      rfl
    rw [usedEndorsements, if_neg hembedded]
    show parseUrlResponses ssl options [vcekCert, issuerChain, issuerCrl] = _
    rw [parseUrlResponses, hstatus, hroot]
    show (if options.sevSnpEndorsementCacheUrlTemplate ≠ none then _ else _) = _
    rw [if_neg hcache]
    exact hparse
  · exact .cons ⟨vcek, hvcek, rfl⟩
      (.cons ⟨ask, ark, hchain, rfl, fun _ => rfl⟩ (.cons ⟨crl, hcrl, rfl⟩ .nil))

theorem replies_used (a : Attestation) (options : Options) (requests : HTTPRequests)
    (responses : HTTPResponses) (hpem : ∀ c, ssl.pemX509 (ssl.x509Pem c) = .ok c)
    (hreadable : Readable ssl a options)
    (hprepare : prepareEndorsements ssl host a options = .ok (some requests))
    (h : List.Forall₂ (Delivers ssl) (documents a options) responses) :
    ∃ e, usedEndorsements ssl a options (some responses) = .ok e ∧
      List.Forall₂ (UsedAs ssl a options e) (documents a options) responses := by
  rcases prepareEndorsements_ok ssl host a options _ hprepare with
    ⟨hembedded, hroot, -⟩ | ⟨-, -, hr⟩ | ⟨hembedded, -⟩
  · rw [documents, if_pos hembedded, if_pos hroot] at h ⊢
    exact used_root_only ssl a options responses hpem hreadable hembedded hroot h
  · cases hr
  · by_cases hcache : options.sevSnpEndorsementCacheUrlTemplate ≠ none
    · rw [documents, if_neg hembedded, if_pos hcache] at h ⊢
      exact used_cached ssl a options responses hreadable hembedded hcache h
    · rw [documents, if_neg hembedded, if_neg hcache] at h ⊢
      exact used_downloaded ssl a options responses hreadable hembedded hcache h

theorem verifyRun_no_requests (a : Attestation) (options : Options) (r r' : Option HTTPResponses)
    (hprepare : prepareEndorsements ssl host a options = .ok none) :
    verifyRun ssl host a options r = verifyRun ssl host a options r' := by
  rcases prepareEndorsements_ok ssl host a options _ hprepare with
    ⟨-, -, hr⟩ | ⟨hembedded, hroot, -⟩ | ⟨-, _, hr, -⟩
  · cases hr
  · have hpresent (s : Option HTTPResponses) : ¬ (a.endorsements = [] ∧ s.getD [] = []) :=
      fun h => hembedded.1 h.1
    have hused : usedEndorsements ssl a options r = usedEndorsements ssl a options r' := by
      rw [usedEndorsements, usedEndorsements, if_pos hembedded, if_pos hembedded]
      by_cases hoption : options.rootCaCertificate ≠ none
      · simp only [embeddedRoot, if_pos hoption]
      · have hfresh : ¬ options.freshRootCaCertificate = true :=
          fun hf => hroot ⟨not_not.1 hoption, hf⟩
        simp only [embeddedRoot, if_neg hoption, if_neg hfresh]
    simp only [verifyRun, refuse, if_neg (hpresent r), if_neg (hpresent r'), hused]
  · cases hr

/-- Requests and consumer agree in every layout: what is asked for in a place is used as that,
and without requests `verify` does not depend on the responses. -/
theorem requests_agree (hpem : ∀ c, ssl.pemX509 (ssl.x509Pem c) = .ok c) (a : Attestation)
    (options : Options) :
    (∀ requests, prepareEndorsements ssl host a options = .ok (some requests) →
      List.Forall₂ (AsksFor ssl host a options) requests (documents a options) ∧
      (Readable ssl a options → ∀ responses,
        List.Forall₂ (Delivers ssl) (documents a options) responses →
          ¬ (a.endorsements = [] ∧ responses = []) ∧
          ∃ e, usedEndorsements ssl a options (some responses) = .ok e ∧
            List.Forall₂ (UsedAs ssl a options e) (documents a options) responses)) ∧
    (prepareEndorsements ssl host a options = .ok none →
      ∀ r r', verify ssl host a options r = verify ssl host a options r') := by
  constructor
  · intro requests hprepare
    refine ⟨requests_ask ssl host a options requests hprepare, fun hreadable responses h => ?_⟩
    have hused := replies_used ssl host a options requests responses hpem hreadable hprepare h
    refine ⟨?_, hused⟩
    rintro ⟨-, rfl⟩
    have hask := requests_ask ssl host a options requests hprepare
    rw [List.forall₂_nil_right_iff.1 h] at hask
    rw [List.forall₂_nil_right_iff.1 hask] at hprepare
    exact requests_ne_nil ssl host a options hprepare
  · intro hprepare r r'
    rw [verify, verify, verifyRun_no_requests ssl host a options r r' hprepare]

end

/-! ### Samples -/

def pemContent (pem : Bytes) : Bytes :=
  sub pem pemBegin.length (pem.length - pemBegin.length - pemEnd.length)

/-- The lenient library, with certificates that are the text between the PEM lines. -/
def contentSsl : OpenSsl Bytes Bytes Bytes := { OpenSsl.lenient with
  x509Pem := fun c => pemBegin ++ c ++ pemEnd
  pemX509 := fun pem =>
    if pemBegin.isPrefixOf pem && pemEnd.isSuffixOf pem then pure (pemContent pem)
    else throw (.exception "OpenSSL object creation failed because of OpenSSL error(s):")
  pemStack := fun pem => pure ((extractPemCertificates pem).map pemContent) }

theorem contentSsl_pem (c : Bytes) : contentSsl.pemX509 (contentSsl.x509Pem c) = .ok c := by
  have hbegins : pemBegin.isPrefixOf (pemBegin ++ c ++ pemEnd) = true := by
    rw [List.isPrefixOf_iff_prefix, List.append_assoc]
    exact List.prefix_append _ _
  have hends : pemEnd.isSuffixOf (pemBegin ++ c ++ pemEnd) = true := by
    rw [List.isSuffixOf_iff_suffix]
    exact List.suffix_append _ _
  have hcontent : pemContent (pemBegin ++ c ++ pemEnd) = c := by
    refine sub_middle _ _ _ _ _ rfl ?_
    simp only [List.length_append]
    omega
  show (if pemBegin.isPrefixOf (pemBegin ++ c ++ pemEnd) && pemEnd.isSuffixOf (pemBegin ++ c ++ pemEnd)
    then pure (pemContent (pemBegin ++ c ++ pemEnd)) else _) = _
  rw [hbegins, hends, hcontent]
  rfl

/-- A report of version 2 with the signature algorithm 1. -/
def fullReport : Bytes :=
  leBytes 4 2 ++ List.replicate 48 0 ++ leBytes 4 1 ++ List.replicate 1128 0

def versionTwo : Attestation := { source := .sevSnp, evidence := fullReport, endorsements := [] }

def kdsReplies : HTTPResponses :=
  [{ status := 200, body := text "vcek" }, { status := 200, body := sampleChain },
    { status := 200, body := text "crl" }]

theorem kdsReplies_deliver :
    List.Forall₂ (Delivers contentSsl) [.vcek, .issuerChain, .crl] kdsReplies :=
  .cons ⟨rfl, text "vcek", rfl⟩ (.cons ⟨rfl, text "leaf", text "root", by decide +kernel⟩
    (.cons ⟨rfl, text "crl", rfl⟩ .nil))

theorem versionTwo_requests (options : Options) (h : options.sevSnpEndorsementCacheUrlTemplate = none) :
    ∃ requests, prepareEndorsements contentSsl plainHost versionTwo options = .ok (some requests) := by
  unfold prepareEndorsements downloadEndorsements
  rw [h]
  exact ⟨_, rfl⟩

theorem requests_agree_sample :
    ∃ e, usedEndorsements contentSsl versionTwo {} (some kdsReplies) = .ok e ∧
      List.Forall₂ (UsedAs contentSsl versionTwo {} e) (documents versionTwo {}) kdsReplies := by
  obtain ⟨requests, hprepare⟩ := versionTwo_requests {} rfl
  have hreadable : Readable contentSsl versionTwo {} :=
    ⟨fun pem h => (Option.some_ne_none pem h.symm).elim, fun h => absurd rfl h.1⟩
  have hagree := (requests_agree contentSsl plainHost contentSsl_pem versionTwo {}).1 requests hprepare
  exact (hagree.2 hreadable kdsReplies kdsReplies_deliver).2

/-- A root certificate in the options that cannot be read spoils good replies. -/
theorem malformed_root_option_fails :
    ¬ ∀ (ssl : OpenSsl Bytes Bytes Bytes) (host : Host) (a : Attestation) (options : Options)
        (requests : HTTPRequests) (responses : HTTPResponses),
        (∀ c, ssl.pemX509 (ssl.x509Pem c) = .ok c) →
        prepareEndorsements ssl host a options = .ok (some requests) →
        List.Forall₂ (Delivers ssl) (documents a options) responses →
        ∃ e, usedEndorsements ssl a options (some responses) = .ok e := by
  intro h
  obtain ⟨requests, hprepare⟩ := versionTwo_requests { rootCaCertificate := some [] } rfl
  obtain ⟨e, he⟩ := h contentSsl plainHost versionTwo { rootCaCertificate := some [] } requests
    kdsReplies contentSsl_pem hprepare kdsReplies_deliver
  have hfail : (usedEndorsements contentSsl versionTwo { rootCaCertificate := some [] }
      (some kdsReplies)).toOption.isNone := by decide +kernel
  rw [he] at hfail
  cases hfail

end Ravl.SevSnp
