import Ravl.Sgx.Collateral
import Mathlib.Data.List.Forall2

/-!
# Do the responses reach the documents they were asked for?

`prepare_endorsements` and `consume_url_responses` agree on the number and the
order of the documents exactly when no root certificate is given in the options:
with one, the request for the root certificate is left out, and the consumer
takes the other four documents only from a list of more than four.
-/

namespace Ravl.Sgx
open ByteLib FallibleLib

inductive Document
  | rootCa
  | rootCaCrl
  | tcbInfo
  | pckCrl
  | qeIdentity
  deriving DecidableEq

/-- The header that carries a document's issuer chain. -/
def Document.chainHeader : Document → Option Bytes
  | .rootCa => none
  | .rootCaCrl => none
  | .tcbInfo => some tcbInfoChainHeader
  | .pckCrl => some pckCrlChainHeader
  | .qeIdentity => some identityChainHeader

/-- A response as a server gives it to the request for `d`. -/
def Answers (d : Document) (response : HTTPResponse) : Prop :=
  response.status = 200 ∧
    ∀ name, d.chainHeader = some name → ∃ chain, response.getHeaderString name true = .ok chain

/-- The collateral `r` has document `d`, with its issuer chain, from this response. -/
def Holds (r : QlQveCollateral) (d : Document) (response : HTTPResponse) : Prop :=
  match d with
  | .rootCa => r.rootCa = response.body
  | .rootCaCrl => r.rootCaCrl = response.body
  | .tcbInfo => r.tcbInfo = response.body ∧
      response.getHeaderString tcbInfoChainHeader true = .ok r.tcbInfoIssuerChain
  | .pckCrl => r.pckCrl = response.body ∧
      response.getHeaderString pckCrlChainHeader true = .ok r.pckCrlIssuerChain
  | .qeIdentity => r.qeIdentity = response.body ∧
      response.getHeaderString identityChainHeader true = .ok r.qeIdentityIssuerChain

/-- Document `d` of `r` is that of `c`. -/
def Kept (c r : QlQveCollateral) (d : Document) : Prop :=
  match d with
  | .rootCa => r.rootCa = c.rootCa
  | .rootCaCrl => r.rootCaCrl = c.rootCaCrl
  | .tcbInfo => r.tcbInfo = c.tcbInfo ∧ r.tcbInfoIssuerChain = c.tcbInfoIssuerChain
  | .pckCrl => r.pckCrl = c.pckCrl ∧ r.pckCrlIssuerChain = c.pckCrlIssuerChain
  | .qeIdentity => r.qeIdentity = c.qeIdentity ∧ r.qeIdentityIssuerChain = c.qeIdentityIssuerChain

section
variable {X509 Crl Pkey : Type} (ssl : OpenSsl X509 Crl Pkey) (host : Host)

def documentUrl (options : Options) (ca fmspc : Bytes) (d : Document) : Result Bytes :=
  let cached (kind url : Bytes) : Result Bytes :=
    match options.sgxEndorsementCacheUrlTemplate with
    | none => pure url
    | some tmpl => ssl.vformat tmpl [kind, url]
  let plain := options.sgxEndorsementCacheUrlTemplate = none
  match d with
  | .rootCa => pure rootCaUrl
  | .rootCaCrl => cached (text "pckcrl") rootCrlUrl
  | .tcbInfo => cached (text "tcb") (tcbUrl ++ (if plain then text "?fmspc=" else text "&fmspc=") ++ fmspc)
  | .pckCrl => cached (text "pckcrl")
      (if plain then pckCrlUrl ++ text "?ca=" ++ ca ++ text "&encoding=pem"
       else intelCertificatesUrlBase ++ text "/intelsgxpck" ++ ca ++ text ".crl" ++ text "&encoding=pem")
  | .qeIdentity => cached (text "qe/identity") qeIdentityUrl

def Asks (options : Options) (ca fmspc : Bytes) (d : Document) (request : HTTPRequest) : Prop :=
  documentUrl ssl options ca fmspc d = .ok request.url

/-- The documents asked for, in the order of the requests. -/
def requestedDocuments (a : Attestation) (options : Options) : List Document :=
  if a.endorsements ≠ [] ∧ options.freshEndorsements = false then [.rootCa]
  else (if options.rootCaCertificate = none then [.rootCa] else []) ++
    [.rootCaCrl, .tcbInfo, .pckCrl, .qeIdentity]

theorem downloadCollateral_asks (ca fmspc : Bytes) (options : Options) (rs : HTTPRequests)
    (h : downloadCollateral ssl ca fmspc options false = .ok rs) :
    List.Forall₂ (Asks ssl options ca fmspc)
      ((if options.rootCaCertificate = none then [.rootCa] else []) ++
        [.rootCaCrl, .tcbInfo, .pckCrl, .qeIdentity]) rs := by
  have hroot : List.Forall₂ (Asks ssl options ca fmspc)
      (if options.rootCaCertificate = none then [Document.rootCa] else [])
      (if options.rootCaCertificate = none then [{ url := rootCaUrl }] else []) := by
    split
    · exact List.Forall₂.cons rfl List.Forall₂.nil
    · exact List.Forall₂.nil
  unfold downloadCollateral at h
  cases ht : options.sgxEndorsementCacheUrlTemplate with
  | none =>
    simp only [ht, pure_ok] at h
    rw [← h]
    refine List.rel_append hroot ?_
    simp [Asks, documentUrl, ht, pure_ok]
  | some tmpl =>
    simp only [ht, bind_ok, pure_ok] at h
    obtain ⟨rootCrl, h₁, tcb, h₂, pckCrl, h₃, identity, h₄, rfl⟩ := h
    refine List.rel_append hroot ?_
    simp only [Bool.false_eq_true, if_false] at h₄
    exact .cons (by simpa [Asks, documentUrl, ht] using h₁)
      (.cons (by simpa [Asks, documentUrl, ht] using h₂)
        (.cons (by simpa [Asks, documentUrl, ht] using h₃)
          (.cons (by simpa [Asks, documentUrl, ht] using h₄) .nil)))

theorem prepareEndorsements_asks (a : Attestation) (options : Options) (rs : HTTPRequests)
    (h : prepareEndorsements ssl host a options = .ok (some rs)) :
    (∃ ca fmspc, List.Forall₂ (Asks ssl options ca fmspc) (requestedDocuments a options) rs) ∧
      (a.endorsements ≠ [] → options.freshEndorsements = false → options.rootCaCertificate = none) := by
  unfold prepareEndorsements at h
  unfold requestedDocuments
  split at h
  · simp [pure_ok] at h
  · simp only [bind_ok] at h
    obtain ⟨_, -, sd, -, h⟩ := h
    split at h
    next hold =>
      rw [if_pos hold]
      simp only [pure_ok] at h
      split at h
      next hroot =>
        cases h
        exact ⟨⟨[], [], List.Forall₂.cons rfl List.Forall₂.nil⟩, fun _ _ => hroot⟩
      next => cases h
    next hnew =>
      rw [if_neg hnew]
      simp only [bind_ok, pure_ok, Option.some.injEq] at h
      obtain ⟨leaf, -, ext, -, rs', hrs, rfl⟩ := h
      exact ⟨⟨_, _, downloadCollateral_asks ssl _ _ _ _ hrs⟩, fun he hf => absurd ⟨he, hf⟩ hnew⟩

end

/-! ### The consumer -/

theorem consumeDocuments_ok (pre : HTTPResponses) (c : QlQveCollateral) (crl tcb pck identity : HTTPResponse)
    (hcrl : Answers .rootCaCrl crl) (htcb : Answers .tcbInfo tcb) (hpck : Answers .pckCrl pck)
    (hid : Answers .qeIdentity identity) :
    ∃ r, consumeDocuments (pre ++ [crl, tcb, pck, identity]) c pre.length false = .ok r ∧
      r.rootCa = c.rootCa ∧ Holds r .rootCaCrl crl ∧ Holds r .tcbInfo tcb ∧ Holds r .pckCrl pck ∧
      Holds r .qeIdentity identity := by
  obtain ⟨tcbChain, htcbChain⟩ := htcb.2 _ rfl
  obtain ⟨pckChain, hpckChain⟩ := hpck.2 _ rfl
  obtain ⟨idChain, hidChain⟩ := hid.2 _ rfl
  refine ⟨{ c with
    rootCaCrl := crl.body, tcbInfo := tcb.body, tcbInfoIssuerChain := tcbChain, pckCrl := pck.body
    pckCrlIssuerChain := pckChain, qeIdentity := identity.body
    qeIdentityIssuerChain := idChain }, ?_, rfl, rfl, ⟨rfl, htcbChain⟩, ⟨rfl, hpckChain⟩, ⟨rfl, hidChain⟩⟩
  simp only [consumeDocuments, bind_ok, pure_ok, checkHttp200, refuse_ok, responseAt, orThrow_ok]
  exact ⟨crl, by simp, (), not_not.2 hcrl.1, tcb, by simp, (), not_not.2 htcb.1, tcbChain, htcbChain,
    pck, by simp, (), not_not.2 hpck.1, pckChain, hpckChain, identity, by simp, (), not_not.2 hid.1,
    idChain, hidChain, rfl⟩

theorem consumeRootCa_ok (options : Options) (c : QlQveCollateral) (ca : HTTPResponse)
    (rs : HTTPResponses) (hroot : options.rootCaCertificate = none) (hca : Answers .rootCa ca) :
    consumeRootCa options (ca :: rs) c = .ok ({ c with rootCa := ca.body }, 1) := by
  unfold consumeRootCa
  rw [if_pos hroot]
  simp only [bind_ok, pure_ok, checkHttp200, refuse_ok, responseAt, orThrow_ok]
  exact ⟨ca, rfl, (), not_not.2 hca.1, rfl⟩

/-! ### What a consumed list was -/

def responseIndex (options : Options) (d : Document) : ℕ :=
  let first := if options.rootCaCertificate = none then 1 else 0
  match d with
  | .rootCa => 0
  | .rootCaCrl => first
  | .tcbInfo => first + 1
  | .pckCrl => first + 2
  | .qeIdentity => first + 3

theorem holds_kept (c c' : QlQveCollateral) (d : Document) (response : HTTPResponse)
    (h : Holds c d response) (h' : Holds c' d response) : Kept c c' d := by
  have hchain (x y : Result Bytes) (u v : Bytes) (hxy : x = y) (hx : x = .ok u) (hy : y = .ok v) :
      v = u := by
    rw [← hxy, hx] at hy
    exact (Except.ok.inj hy).symm
  cases d with
  | rootCa => exact h'.trans h.symm
  | rootCaCrl => exact h'.trans h.symm
  | tcbInfo => exact ⟨h'.1.trans h.1.symm, hchain _ _ _ _ rfl h.2 h'.2⟩
  | pckCrl => exact ⟨h'.1.trans h.1.symm, hchain _ _ _ _ rfl h.2 h'.2⟩
  | qeIdentity => exact ⟨h'.1.trans h.1.symm, hchain _ _ _ _ rfl h.2 h'.2⟩

theorem consumeRootCa_index (options : Options) (rs : HTTPResponses) (r r' : QlQveCollateral) (i : ℕ)
    (h : consumeRootCa options rs r = .ok (r', i)) :
    i = (if options.rootCaCertificate = none then 1 else 0) ∧
      (options.rootCaCertificate ≠ none → r' = r) ∧ ∀ d, d ≠ Document.rootCa → Kept r r' d := by
  have hkept : ∀ c : QlQveCollateral, ∀ d, d ≠ Document.rootCa →
      Kept c { c with rootCa := r'.rootCa } d := by
    intro c d hd
    cases d with
    | rootCa => exact absurd rfl hd
    | rootCaCrl => rfl
    | tcbInfo => exact ⟨rfl, rfl⟩
    | pckCrl => exact ⟨rfl, rfl⟩
    | qeIdentity => exact ⟨rfl, rfl⟩
  unfold consumeRootCa at h
  split at h
  next hroot =>
    simp only [bind_ok, pure_ok, Prod.mk.injEq] at h
    obtain ⟨ca, -, _, -, rfl, rfl⟩ := h
    exact ⟨(if_pos hroot).symm, fun hne => absurd hroot hne, hkept r⟩
  next hroot =>
    simp only [pure_ok, Prod.mk.injEq] at h
    obtain ⟨rfl, rfl⟩ := h
    exact ⟨(if_neg hroot).symm, fun _ => rfl, hkept r⟩

theorem consume_many (options : Options) (rs : HTTPResponses) (collateral : Option QlQveCollateral)
    (c : QlQveCollateral) (hmany : 4 < rs.length)
    (h : consumeUrlResponses options rs collateral false = .ok c) (d : Document)
    (hd : d ≠ .rootCa) :
    ∃ response, rs[responseIndex options d]? = some response ∧ Holds c d response := by
  unfold consumeUrlResponses at h
  simp only [bind_ok, if_pos hmany] at h
  obtain ⟨_, -, ⟨r, i⟩, hca, h⟩ := h
  obtain ⟨hi, -⟩ := consumeRootCa_index options rs _ r i hca
  simp only [consumeDocuments, bind_ok, pure_ok, responseAt, orThrow_ok] at h
  obtain ⟨crl, hcrl, _, -, tcb, htcb, _, -, tcbChain, htcbChain, pck, hpck, _, -, pckChain, hpckChain,
    identity, hid, _, -, idChain, hidChain, rfl⟩ := h
  rw [hi] at hcrl htcb hpck hid
  cases d with
  | rootCa => exact absurd rfl hd
  | rootCaCrl => exact ⟨crl, hcrl, rfl⟩
  | tcbInfo => exact ⟨tcb, htcb, rfl, htcbChain⟩
  | pckCrl => exact ⟨pck, hpck, rfl, hpckChain⟩
  | qeIdentity => exact ⟨identity, hid, rfl, hidChain⟩

theorem consume_few (options : Options) (rs : HTTPResponses) (collateral : Option QlQveCollateral)
    (c : QlQveCollateral) (hfew : ¬ 4 < rs.length)
    (h : consumeUrlResponses options rs collateral false = .ok c) (d : Document)
    (hd : d ≠ .rootCa) : Kept (collateral.getD {}) c d := by
  unfold consumeUrlResponses at h
  simp only [bind_ok, if_neg hfew, pure_ok] at h
  obtain ⟨_, -, ⟨r, i⟩, hca, rfl⟩ := h
  exact (consumeRootCa_index options rs _ r i hca).2.2 d hd

theorem consume_keeps_rootCa (options : Options) (rs : HTTPResponses)
    (collateral : Option QlQveCollateral) (c : QlQveCollateral)
    (hroot : options.rootCaCertificate ≠ none)
    (h : consumeUrlResponses options rs collateral false = .ok c) :
    c.rootCa = (collateral.getD {}).rootCa := by
  unfold consumeUrlResponses at h
  simp only [bind_ok] at h
  obtain ⟨_, -, ⟨r, i⟩, hca, h⟩ := h
  have hr : r = collateral.getD {} := (consumeRootCa_index options rs _ r i hca).2.1 hroot
  rw [← hr]
  split at h
  · simp only [consumeDocuments, bind_ok, pure_ok] at h
    obtain ⟨_, -, _, -, _, -, _, -, _, -, _, -, _, -, _, -, _, -, _, -, _, -, rfl⟩ := h
    rfl
  · rw [pure_ok] at h
    have hc : c.rootCa = r.rootCa := by rw [← h]
    exact hc

theorem consume_length (options : Options) (rs : HTTPResponses) (collateral : Option QlQveCollateral)
    (c : QlQveCollateral) (h : consumeUrlResponses options rs collateral false = .ok c) :
    rs.length = expectedResponses options collateral := by
  unfold consumeUrlResponses at h
  simp only [bind_ok, refuse_ok, not_not] at h
  obtain ⟨_, hlen, -⟩ := h
  exact hlen

def answering (body : Bytes) : HTTPResponse where
  status := 200
  headers := [(tcbInfoChainHeader, []), (pckCrlChainHeader, []), (identityChainHeader, [])]
  body := body

theorem answering_answers (d : Document) (body : Bytes) : Answers d (answering body) := by
  refine ⟨rfl, ?_⟩
  intro name hname
  have hfound : ∀ n ∈ [tcbInfoChainHeader, pckCrlChainHeader, identityChainHeader],
      (answering body).getHeaderString n true = .ok [] := by
    intro n hn
    simp only [List.mem_cons, List.not_mem_nil, or_false] at hn
    rcases hn with rfl | rfl | rfl <;> rfl
  cases d with
  | rootCa => cases hname
  | rootCaCrl => cases hname
  | tcbInfo => cases hname; exact ⟨[], hfound _ (by simp)⟩
  | pckCrl => cases hname; exact ⟨[], hfound _ (by simp)⟩
  | qeIdentity => cases hname; exact ⟨[], hfound _ (by simp)⟩

theorem consume_all (options : Options) (collateral : Option QlQveCollateral) (rs : HTTPResponses)
    (hroot : options.rootCaCertificate = none)
    (hempty : ∀ c, collateral = some c → c.rootCa = [] ∧ options.freshEndorsements = true)
    (hrs : List.Forall₂ Answers [.rootCa, .rootCaCrl, .tcbInfo, .pckCrl, .qeIdentity] rs) :
    ∃ r, consumeUrlResponses options rs collateral false = .ok r ∧
      List.Forall₂ (Holds r) [.rootCa, .rootCaCrl, .tcbInfo, .pckCrl, .qeIdentity] rs := by
  obtain _ | @⟨_, ca, _, _, hca, hrs⟩ := hrs
  obtain _ | @⟨_, crl, _, _, hcrl, hrs⟩ := hrs
  obtain _ | @⟨_, tcb, _, _, htcb, hrs⟩ := hrs
  obtain _ | @⟨_, pck, _, _, hpck, hrs⟩ := hrs
  obtain _ | @⟨_, identity, _, _, hid, hrs⟩ := hrs
  cases hrs
  have hexpected : expectedResponses options collateral = 5 := by
    cases collateral with
    | none => simp [expectedResponses]
    | some c =>
      obtain ⟨hc, hfresh⟩ := hempty c rfl
      simp [expectedResponses, hc, hroot, hfresh]
  obtain ⟨r, hr, hca', hcrl', htcb', hpck', hid'⟩ := consumeDocuments_ok [ca]
    { (collateral.getD {}) with rootCa := ca.body } crl tcb pck identity hcrl htcb hpck hid
  refine ⟨r, ?_, ?_⟩
  · unfold consumeUrlResponses
    simp only [bind_ok, refuse_ok]
    refine ⟨(), ?_, _, consumeRootCa_ok options _ ca _ hroot hca, ?_⟩
    · rw [hexpected]
      simp
    · rw [if_pos (by simp)]
      exact hr
  · exact .cons hca' (.cons hcrl' (.cons htcb' (.cons hpck' (.cons hid' .nil))))

theorem consume_rootCa (options : Options) (c : QlQveCollateral) (rs : HTTPResponses)
    (hroot : options.rootCaCertificate = none) (hempty : c.rootCa = [])
    (hold : options.freshEndorsements = false) (hrs : List.Forall₂ Answers [.rootCa] rs) :
    ∃ r, consumeUrlResponses options rs (some c) false = .ok r ∧
      List.Forall₂ (Holds r) [.rootCa] rs ∧ ∀ d, d ∉ [Document.rootCa] → Kept c r d := by
  obtain _ | @⟨_, ca, _, _, hca, hrs⟩ := hrs
  cases hrs
  refine ⟨{ c with rootCa := ca.body }, ?_, .cons rfl .nil, ?_⟩
  · unfold consumeUrlResponses
    simp only [bind_ok, refuse_ok]
    refine ⟨(), ?_, _, consumeRootCa_ok options _ ca _ hroot hca, ?_⟩
    · simp [expectedResponses, hempty, hroot, hold]
    · rw [if_neg (by simp)]
      rfl
  · intro d hd
    cases d with
    | rootCa => simp at hd
    | rootCaCrl => rfl
    | tcbInfo => exact ⟨rfl, rfl⟩
    | pckCrl => exact ⟨rfl, rfl⟩
    | qeIdentity => exact ⟨rfl, rfl⟩

/-- With a root certificate in the options four responses are either refused or left unused. -/
theorem consume_four (options : Options) (collateral : Option QlQveCollateral) (rs : HTTPResponses)
    (r : QlQveCollateral) (pem : Bytes) (hroot : options.rootCaCertificate = some pem)
    (hfour : rs.length = 4) (h : consumeUrlResponses options rs collateral false = .ok r) :
    r = collateral.getD {} := by
  unfold consumeUrlResponses consumeRootCa at h
  rw [hroot] at h
  simp only [reduceCtorEq, if_false, bind_ok, pure_ok] at h
  obtain ⟨_, -, _, rfl, h⟩ := h
  rw [hfour, if_neg (by omega), pure_ok] at h
  exact h.symm

/-- Every matching list of responses is consumed, each response as the document its request
asked for and all other documents kept, exactly when the options give no root certificate. -/
theorem responses_used_iff {X509 Crl Pkey : Type} (ssl : OpenSsl X509 Crl Pkey) (host : Host)
    (a : Attestation) (options : Options) (requests : HTTPRequests)
    (collateral : Option QlQveCollateral)
    (hprep : prepareEndorsements ssl host a options = .ok (some requests))
    (hcol : embeddedCollateral a.endorsements = .ok collateral) :
    (∃ ca fmspc, List.Forall₂ (Asks ssl options ca fmspc) (requestedDocuments a options) requests) ∧
    ((∀ responses, List.Forall₂ Answers (requestedDocuments a options) responses →
        ∃ r, consumeUrlResponses options responses collateral false = .ok r ∧
          List.Forall₂ (Holds r) (requestedDocuments a options) responses ∧
          ∀ d, d ∉ requestedDocuments a options → Kept (collateral.getD {}) r d) ↔
      options.rootCaCertificate = none) := by
  obtain ⟨hasks, hold⟩ := prepareEndorsements_asks ssl host a options requests hprep
  refine ⟨hasks, ?_, ?_⟩
  · intro h
    cases hroot : options.rootCaCertificate with
    | none => rfl
    | some pem =>
      exfalso
      have hnew : ¬ (a.endorsements ≠ [] ∧ options.freshEndorsements = false) := by
        intro ⟨he, hf⟩
        rw [hold he hf] at hroot
        cases hroot
      have hdocs : requestedDocuments a options = [.rootCaCrl, .tcbInfo, .pckCrl, .qeIdentity] := by
        simp [requestedDocuments, hnew, hroot]
      rw [hdocs] at h
      -- a CRL that is not the one at hand
      let crl := answering ((collateral.getD {}).rootCaCrl ++ [0])
      have hanswers : List.Forall₂ Answers [.rootCaCrl, .tcbInfo, .pckCrl, .qeIdentity]
          [crl, answering [], answering [], answering []] :=
        .cons (answering_answers _ _) (.cons (answering_answers _ _)
          (.cons (answering_answers _ _) (.cons (answering_answers _ _) .nil)))
      obtain ⟨r, hr, hholds, -⟩ := h _ hanswers
      have hkept := consume_four options collateral _ r pem hroot rfl hr
      have hcrl : r.rootCaCrl = crl.body := (List.forall₂_cons.1 hholds).1
      rw [hkept] at hcrl
      have hlen := congrArg List.length hcrl
      simp [crl, answering] at hlen
  · intro hroot responses hanswers
    by_cases hcase : a.endorsements ≠ [] ∧ options.freshEndorsements = false
    · have hdocs : requestedDocuments a options = [.rootCa] := by
        simp only [requestedDocuments, if_pos hcase]
      rw [hdocs] at hanswers ⊢
      cases collateral with
      | none => exact absurd (embeddedCollateral_none _ hcol) hcase.1
      | some c =>
        exact consume_rootCa options c responses hroot (embeddedCollateral_some _ c hcol).2 hcase.2
          hanswers
    · have hdocs : requestedDocuments a options =
          [.rootCa, .rootCaCrl, .tcbInfo, .pckCrl, .qeIdentity] := by
        simp [requestedDocuments, if_neg hcase, hroot]
      rw [hdocs] at hanswers ⊢
      have hempty : ∀ c, collateral = some c → c.rootCa = [] ∧ options.freshEndorsements = true := by
        rintro c rfl
        obtain ⟨he, hc⟩ := embeddedCollateral_some _ c hcol
        refine ⟨hc, ?_⟩
        by_contra hf
        exact hcase ⟨he, by simpa using hf⟩
      obtain ⟨r, hr, hholds⟩ := consume_all options collateral responses hroot hempty hanswers
      refine ⟨r, hr, hholds, ?_⟩
      intro d hd
      exfalso
      apply hd
      cases d <;> simp

theorem ok_some_of_isSome {α : Type} {r : Result (Option α)} (h : (r.toOption.getD none).isSome) :
    ∃ v, r = .ok (some v) := by
  cases r with
  | error e => cases h
  | ok o =>
    cases o with
    | none => cases h
    | some v => exact ⟨v, rfl⟩

def bareAttestation : Attestation := { source := .sgx, evidence := sampleEvidence, endorsements := [] }

theorem prepareEndorsements_bare (options : Options) (h : options = {} ∨
    options = { rootCaCertificate := some [] }) : ∃ requests,
      prepareEndorsements lenientSsl plainHost bareAttestation options = .ok (some requests) := by
  apply ok_some_of_isSome
  have hevidence : bareAttestation.evidence = sampleEvidence := rfl
  obtain rfl | rfl := h
  · rw [prepareEndorsements, if_neg (by decide)]
    simp only [hevidence, sampleEvidence_quote, sampleEvidence_parse]
    decide +kernel
  · rw [prepareEndorsements, if_neg (by decide)]
    simp only [hevidence, sampleEvidence_quote, sampleEvidence_parse]
    decide +kernel

theorem responses_used_iff_bare : ∃ requests,
    (∃ ca fmspc, List.Forall₂ (Asks lenientSsl {} ca fmspc)
      (requestedDocuments bareAttestation {}) requests) ∧
    ((∀ responses, List.Forall₂ Answers (requestedDocuments bareAttestation {}) responses →
        ∃ r, consumeUrlResponses {} responses none false = .ok r ∧
          List.Forall₂ (Holds r) (requestedDocuments bareAttestation {}) responses ∧
          ∀ d, d ∉ requestedDocuments bareAttestation {} → Kept {} r d) ↔
      ({} : Options).rootCaCertificate = none) := by
  obtain ⟨requests, hprep⟩ := prepareEndorsements_bare {} (Or.inl rfl)
  exact ⟨requests, responses_used_iff lenientSsl plainHost bareAttestation {} requests none hprep rfl⟩

theorem responses_refused :
    ¬ ∀ (a : Attestation) (options : Options) (requests : HTTPRequests)
        (collateral : Option QlQveCollateral),
      prepareEndorsements lenientSsl plainHost a options = .ok (some requests) →
      embeddedCollateral a.endorsements = .ok collateral →
      ∀ responses, List.Forall₂ Answers (requestedDocuments a options) responses →
        ∃ r, consumeUrlResponses options responses collateral false = .ok r := by
  intro h
  obtain ⟨requests, hprep⟩ := prepareEndorsements_bare { rootCaCertificate := some [] } (Or.inr rfl)
  obtain ⟨r, hr⟩ := h bareAttestation _ requests none hprep rfl
    [answering [], answering [], answering [], answering []]
    (.cons (answering_answers _ _) (.cons (answering_answers _ _)
      (.cons (answering_answers _ _) (.cons (answering_answers _ _) .nil))))
  cases hr

end Ravl.Sgx
