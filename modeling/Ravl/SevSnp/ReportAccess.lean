import Ravl.Lib.Traced
import Ravl.SevSnp.Requests

/-!
# What is read of a report and what is signed (sev_snp_impl.h:456-629)

The evidence is used as an `snp::Attestation` of 1184 bytes whatever its length is. The
signed message is all but the last 512 bytes of the evidence, the signature is the report's
field at a fixed offset.
-/

namespace Ravl.SevSnp
open ByteLib FallibleLib TracedLib Traced

/-! ### The accesses -/

inductive ReportEvent
  | read (a : Access)
  | checked (message : Bytes) (signature : Signature)

def reportSize : ℕ := 1184

def readEvent (size : ℕ) (field : ℕ × ℕ) : ReportEvent := .read ⟨field.1, field.2, size⟩

/-- The parts of the reported TCB version that go into the request. -/
def tcbFields (options : Options) : List (ℕ × ℕ) :=
  if options.sevSnpEndorsementCacheUrlTemplate ≠ none then [(reportedTcbOff, 8)]
  else [(reportedTcbOff, 1), (reportedTcbOff + 1, 1), (reportedTcbOff + 6, 1), (reportedTcbOff + 7, 1)]

/-- The fields that `make_claims` copies, with their sizes. -/
def claimFields : List (ℕ × ℕ) :=
  [(0, 4), (4, 4), (8, 8), (0x10, 16), (0x20, 16), (0x30, 4), (signatureAlgoOff, 4), (0x38, 8),
    (0x40, 8), (0x48, 4), (0x50, 64), (0x90, 48), (0xC0, 32), (0xE0, 48), (0x110, 48), (0x140, 32),
    (0x160, 32), (reportedTcbOff, 8), (chipIdOff, 64), (0x1E0, 8), (0x1E8, 1), (0x1E9, 1), (0x1EA, 1),
    (0x1EC, 1), (0x1ED, 1), (0x1EE, 1), (0x1F0, 8), (signatureOff, 72), (signatureOff + 72, 72)]

section
variable {X509 Crl Pkey : Type} (ssl : OpenSsl X509 Crl Pkey) (host : Host)

def tracedPrepare (a : Attestation) (options : Options) :
    Traced ReportEvent Error (Option HTTPRequests) := do
  let m := mem a.evidence host.beyond
  let size := a.evidence.length
  let version ← event (readEvent size (0, 4)) (readLe m 0 4)
  quiet (refuse (version ≠ 2) (.exception "unsupported attestation format version"))
  let productName := text "Milan"
  if a.endorsements ≠ [] ∧ options.freshEndorsements = false then
    if options.rootCaCertificate = none ∧ options.freshRootCaCertificate then
      pure (some (downloadRootCaPem productName))
    else pure none
  else do
    events (((chipIdOff, 64) :: tcbFields options).map (readEvent size))
    let requests ← quiet (downloadEndorsements ssl productName (readMem m chipIdOff 64)
      (readTcbVersion m reportedTcbOff) (readLe m reportedTcbOff 8) options)
    pure (some requests)

def tracedReport (evidence : Bytes) (m : ℕ → Byte) (vcek ark : X509) (options : Options) :
    Traced ReportEvent Error Unit := do
  let size := evidence.length
  quiet (if options.checkRootCertificateManufacturerKey then do
    let ok ← ssl.hasPublicKey ark amdMilanRootSigningPublicKey
    refuse (ok = false)
      (.exception "Root CA certificate does not have the expected AMD Milan public key")
  else pure ())
  quiet (refuse (ssl.isCa ark = false) (.exception "Root CA certificate is not a CA"))
  let algo ← event (readEvent size (signatureAlgoOff, 4)) (readLe m signatureAlgoOff 4)
  quiet (refuse (algo ≠ ecdsaP384Sha384) (.exception "unexpected signature algorithm"))
  quiet (refuse (size < signatureSize) (.undefined "span beyond the evidence"))
  let message := evidence.take (size - signatureSize)
  let vcekPk ← quiet (ssl.pubkey vcek)
  events [readEvent size (0, size - signatureSize), readEvent size (signatureOff, 72),
    readEvent size (signatureOff + 72, 72), .checked message (readSignature m)]
  let ok ← quiet (verifySignature ssl vcekPk message (readSignature m))
  quiet (refuse (ok = false) (.exception "invalid VCEK signature"))

def tracedVerify (a : Attestation) (options : Options) (httpResponses : Option HTTPResponses) :
    Traced ReportEvent Error Claims := do
  quiet (refuse (a.endorsements = [] ∧ httpResponses.getD [] = []) (.exception "missing endorsements"))
  let m := mem a.evidence host.beyond
  let e ← quiet (usedEndorsements ssl a options httpResponses)
  quiet (whenever (0 < options.verbosity) (e.print ssl))
  let trustedRoot := e.rootCaCertificate.isNone
  let (chain, _) ← quiet (verifyStack ssl e.vcekCertificateChain (prepareStore e)
    options.certificateVerification trustedRoot options.verbosity)
  match chain with
  | [vcek, _, ark] => do
    tracedReport ssl a.evidence m vcek ark options
    let e := if trustedRoot then { e with rootCaCertificate := some ark } else e
    events (claimFields.map (readEvent a.evidence.length))
    quiet (makeClaims ssl m e)
  | _ => quiet (throw (.exception "unexpected certificate chain length"))

theorem tracedPrepare_forget (a : Attestation) (options : Options) :
    (tracedPrepare ssl host a options).forget = prepareEndorsements ssl host a options := by
  unfold tracedPrepare prepareEndorsements
  simp only [forget_bind, forget_event, forget_quiet, pure_bind]
  split
  · split <;> rfl
  · simp only [forget_bind, forget_events, forget_quiet, forget_pure, pure_bind]

theorem tracedReport_forget (evidence : Bytes) (m : ℕ → Byte) (vcek ark : X509) (options : Options) :
    (tracedReport ssl evidence m vcek ark options).forget =
      verifyReport ssl evidence m vcek ark options := by
  unfold tracedReport verifyReport
  simp only [forget_bind, forget_event, forget_events, forget_quiet, pure_bind]
  split
  · rw [bind_assoc]
  · rw [pure_bind]

theorem tracedVerify_forget (a : Attestation) (options : Options)
    (httpResponses : Option HTTPResponses) :
    (tracedVerify ssl host a options httpResponses).forget = verify ssl host a options httpResponses := by
  unfold tracedVerify verify verifyRun
  simp only [forget_bind, forget_quiet, bind_assoc]
  refine bind_congr fun _ => bind_congr fun e => bind_congr fun _ => bind_congr fun r => ?_
  obtain ⟨chain, store⟩ := r
  obtain _ | ⟨vcek, _ | ⟨ask, _ | ⟨ark, _ | ⟨other, others⟩⟩⟩⟩ := chain
  case cons.cons.cons.nil =>
    simp only [forget_bind, tracedReport_forget, forget_events, forget_quiet, pure_bind, bind_assoc,
      bind_pure]
  all_goals rfl

/-! ### What is expected, and when it holds -/

def ReportEvent.Inside : ReportEvent → Prop
  | .read a => a.Inside
  | .checked _ _ => True

/-- The messages and signatures that were checked. -/
def checkedOf (trace : List ReportEvent) : List (Bytes × Signature) :=
  trace.filterMap fun
    | .checked message signature => some (message, signature)
    | .read _ => none

/-- The two coordinates at the start of a signature field -/
def signatureIn (field : Bytes) : Signature := ⟨sub field 0 72, sub field 72 72⟩

/-- Every field of the claims except for the signature and the endorsements is what these bytes
say, whatever lies behind them. -/
def DecodedFrom (message : Bytes) (claims : Claims) : Prop :=
  ∀ beyond, ∃ e, makeClaims ssl (mem message beyond) e =
    .ok { claims with signature := readSignature (mem message beyond) }

/-- Reads stay inside the evidence, nothing is left undefined, and claims go with a signature of
the whole report. -/
structure ReadsReport (a : Attestation) (options : Options) (httpResponses : Option HTTPResponses) :
    Prop where
  prepareInside : (tracedPrepare ssl host a options).All ReportEvent.Inside
  prepareFails : FailsWith Thrown (prepareEndorsements ssl host a options)
  verifyInside : (tracedVerify ssl host a options httpResponses).All ReportEvent.Inside
  verifyFails : FailsWith Thrown (verify ssl host a options httpResponses)
  signed : ∀ claims, verify ssl host a options httpResponses = .ok claims →
    reportSize ≤ a.evidence.length ∧
      checkedOf (tracedVerify ssl host a options httpResponses).trace =
        [(sub a.evidence 0 672, signatureIn (sub a.evidence 672 512))] ∧
      DecodedFrom ssl (sub a.evidence 0 672) claims

/-- The chain of the endorsements is accepted and has these two ends. -/
def ChainAccepted (a : Attestation) (options : Options) (httpResponses : Option HTTPResponses)
    (vcek ark : X509) : Prop :=
  ¬ (a.endorsements = [] ∧ httpResponses.getD [] = []) ∧
    ∃ e, usedEndorsements ssl a options httpResponses = .ok e ∧
      (0 < options.verbosity → e.print ssl = .ok ()) ∧
        ∃ ask store, verifyStack ssl e.vcekCertificateChain (prepareStore e)
          options.certificateVerification e.rootCaCertificate.isNone options.verbosity =
            .ok ([vcek, ask, ark], store)

def RootAccepted (options : Options) (ark : X509) : Prop :=
  (options.checkRootCertificateManufacturerKey = true →
    ssl.hasPublicKey ark amdMilanRootSigningPublicKey = .ok true) ∧ ssl.isCa ark = true

/-- A fresh root certificate goes with the embedded endorsements, and there are no responses. -/
def RootMissing (a : Attestation) (options : Options) (httpResponses : Option HTTPResponses) : Prop :=
  Embedded a options ∧ options.rootCaCertificate = none ∧ options.freshRootCaCertificate = true ∧
    (∃ stack, ssl.pemStack a.endorsements = .ok stack) ∧ httpResponses = none

/-- The evidence is as long as what is read of it, and a report with a good signature is all
there is. -/
structure ReportFits (a : Attestation) (options : Options) (httpResponses : Option HTTPResponses) :
    Prop where
  version : 4 ≤ a.evidence.length
  request : leVal (sub a.evidence 0 4) = 2 → ¬ Embedded a options → 480 ≤ a.evidence.length
  responses : ¬ RootMissing ssl a options httpResponses
  algo : ∀ vcek ark, ChainAccepted ssl a options httpResponses vcek ark → RootAccepted ssl options ark →
    56 ≤ a.evidence.length
  message : ∀ vcek ark, ChainAccepted ssl a options httpResponses vcek ark →
    RootAccepted ssl options ark → leVal (sub a.evidence signatureAlgoOff 4) = ecdsaP384Sha384 →
      512 ≤ a.evidence.length
  signature : ∀ vcek ark, ChainAccepted ssl a options httpResponses vcek ark →
    RootAccepted ssl options ark → leVal (sub a.evidence signatureAlgoOff 4) = ecdsaP384Sha384 →
      ∀ pkey, ssl.pubkey vcek = .ok pkey → 816 ≤ a.evidence.length ∧
        (verifySignature ssl pkey (a.evidence.take (a.evidence.length - 512))
          (signatureIn (sub a.evidence 672 512)) = .ok true → a.evidence.length = reportSize)

/-! ### Errors before the report is looked at -/

section
variable (hssl : ssl.Throws)
include hssl

theorem optionRoot_fails (options : Options) : FailsWith Thrown (optionRoot ssl options) := by
  unfold optionRoot
  split
  · exact FailsWith.pure _ _
  · exact FailsWith.bind (hssl.pemX509 _) fun _ _ => FailsWith.pure _ _

theorem parseRootCert_fails (responses : HTTPResponses) :
    FailsWith Thrown (parseRootCert ssl responses) := by
  unfold parseRootCert
  split
  · refine FailsWith.bind (hssl.pemStack _) fun stack _ => ?_
    split
    · exact hssl.pemX509 _
    · exact FailsWith.throw (thrown _)
  · exact FailsWith.throw (thrown _)

omit hssl in
theorem checkStatus_fails (i : ℕ) (responses : HTTPResponses) :
    FailsWith Thrown (checkStatus i responses) := by
  induction responses generalizing i with
  | nil => exact FailsWith.pure _ _
  | cons r rs ih => exact FailsWith.bind (FailsWith.refuse (thrown _)) fun _ _ => ih (i + 1)

theorem parseCached_fails (e : EndorsementsEtc X509 Crl) (responses : HTTPResponses) :
    FailsWith Thrown (parseCached ssl e responses) := by
  unfold parseCached
  split
  · refine FailsWith.bind (hssl.pemStack _) fun stack _ => ?_
    split
    · exact FailsWith.bind (hssl.derCrl _) fun _ _ => FailsWith.pure _ _
    · exact FailsWith.throw (thrown _)
  · exact FailsWith.throw (thrown _)

theorem parseDownloaded_fails (e : EndorsementsEtc X509 Crl) (responses : HTTPResponses) :
    FailsWith Thrown (parseDownloaded ssl e responses) := by
  unfold parseDownloaded
  split
  · refine FailsWith.bind (hssl.pemStack _) fun stack _ => ?_
    split
    · exact FailsWith.bind (hssl.derX509 _) fun _ _ =>
        FailsWith.bind (hssl.derCrl _) fun _ _ => FailsWith.pure _ _
    · exact FailsWith.throw (thrown _)
  · exact FailsWith.throw (thrown _)

theorem parseUrlResponses_fails (options : Options) (responses : HTTPResponses) :
    FailsWith Thrown (parseUrlResponses ssl options responses) := by
  refine FailsWith.bind (checkStatus_fails 0 responses) fun _ _ =>
    FailsWith.bind (optionRoot_fails ssl hssl options) fun _ _ => ?_
  split
  · exact parseCached_fails ssl hssl _ _
  · exact parseDownloaded_fails ssl hssl _ _

omit hssl in
theorem usedEndorsements_missing (a : Attestation) (options : Options)
    (httpResponses : Option HTTPResponses) (h : RootMissing ssl a options httpResponses) :
    usedEndorsements ssl a options httpResponses = .error (.undefined "value of an empty optional") := by
  obtain ⟨hembedded, hoption, hfresh, ⟨stack, hstack⟩, rfl⟩ := h
  rw [usedEndorsements, if_pos hembedded, hstack, ok_bind, embeddedRoot, if_neg (not_not.2 hoption),
    if_pos hfresh]
  rfl

theorem usedEndorsements_fails (a : Attestation) (options : Options)
    (httpResponses : Option HTTPResponses) (h : ¬ RootMissing ssl a options httpResponses) :
    FailsWith Thrown (usedEndorsements ssl a options httpResponses) := by
  unfold usedEndorsements
  split
  · next hembedded =>
    refine FailsWith.bind (hssl.pemStack _) fun stack hstack =>
      FailsWith.bind ?_ fun _ _ => FailsWith.pure _ _
    unfold embeddedRoot
    split
    · exact optionRoot_fails ssl hssl options
    · next hoption =>
      split
      · next hfresh =>
        refine FailsWith.bind ?_ fun responses _ =>
          FailsWith.bind (parseRootCert_fails ssl hssl responses) fun _ _ => FailsWith.pure _ _
        cases httpResponses with
        | none => exact absurd ⟨hembedded, not_not.1 hoption, hfresh, ⟨stack, hstack⟩, rfl⟩ h
        | some responses => exact FailsWith.pure _ _
      · exact FailsWith.pure _ _
  · exact FailsWith.bind (FailsWith.orThrow (thrown _)) fun responses _ =>
      parseUrlResponses_fails ssl hssl options responses

theorem print_fails (e : EndorsementsEtc X509 Crl) : FailsWith Thrown (e.print ssl) := by
  refine FailsWith.bind (printStack_fails ssl hssl _) fun _ _ => ?_
  split
  · exact FailsWith.pure _ _
  · exact hssl.printCrl _

omit hssl in
theorem makeClaims_ok (m : ℕ → Byte) (e : EndorsementsEtc X509 Crl) (root : X509)
    (h : e.rootCaCertificate = some root) : ∃ claims, makeClaims ssl m e = .ok claims := by
  rw [makeClaims, h]
  exact ⟨_, rfl⟩

/-! ### `verify`, past the chain -/

/-- What is left to do with the two ends of an accepted chain. -/
def tracedAfterChain (evidence : Bytes) (options : Options) (vcek ark : X509)
    (e : EndorsementsEtc X509 Crl) : Traced ReportEvent Error Claims := do
  tracedReport ssl evidence (mem evidence host.beyond) vcek ark options
  events (claimFields.map (readEvent evidence.length))
  quiet (makeClaims ssl (mem evidence host.beyond) e)

omit hssl in
theorem ChainAccepted.unique {a : Attestation} {options : Options}
    {httpResponses : Option HTTPResponses} {vcek ark vcek' ark' : X509}
    (h : ChainAccepted ssl a options httpResponses vcek ark)
    (h' : ChainAccepted ssl a options httpResponses vcek' ark') : vcek' = vcek ∧ ark' = ark := by
  obtain ⟨-, e, hused, -, ask, store, hchain⟩ := h
  obtain ⟨-, e', hused', -, ask', store', hchain'⟩ := h'
  obtain rfl := Except.ok.inj (hused.symm.trans hused')
  cases hchain.symm.trans hchain'
  exact ⟨rfl, rfl⟩

/-- Either `verify` fails before it looks at the report, or it goes on with the ends of the chain. -/
theorem tracedVerify_cases (a : Attestation) (options : Options)
    (httpResponses : Option HTTPResponses) :
    (∃ err, tracedVerify ssl host a options httpResponses = quiet (.error err) ∧
      (∀ vcek ark, ¬ ChainAccepted ssl a options httpResponses vcek ark) ∧
      (¬ RootMissing ssl a options httpResponses → Thrown err)) ∨
    ∃ vcek ark e root, ChainAccepted ssl a options httpResponses vcek ark ∧
      e.rootCaCertificate = some root ∧
      tracedVerify ssl host a options httpResponses = tracedAfterChain ssl host a.evidence options vcek ark e := by
  unfold tracedVerify
  by_cases hpresent : a.endorsements = [] ∧ httpResponses.getD [] = []
  · refine Or.inl ⟨_, ?_, fun _ _ h => h.1 hpresent, fun _ => thrown "missing endorsements"⟩
    rw [refuse, if_pos hpresent, quiet_error_bind]
  rw [refuse_of_not hpresent, quiet_ok_bind]
  dsimp only
  cases hused : usedEndorsements ssl a options httpResponses with
  | error err =>
    refine Or.inl ⟨err, quiet_error_bind _ _, ?_, fun h => usedEndorsements_fails ssl hssl _ _ _ h err hused⟩
    rintro vcek ark ⟨-, e, he, -⟩
    cases hused.symm.trans he
  | ok e =>
  rw [quiet_ok_bind]
  cases hprint : whenever (0 < options.verbosity) (e.print ssl) with
  | error err =>
    refine Or.inl ⟨err, quiet_error_bind _ _, ?_, fun _ =>
      FailsWith.whenever (print_fails ssl hssl e) err hprint⟩
    rintro vcek ark ⟨-, e', he', hshown, -⟩
    cases hused.symm.trans he'
    cases hprint.symm.trans ((whenever_ok _ _ ()).2 hshown)
  | ok u =>
  rw [quiet_ok_bind]
  cases hchain : verifyStack ssl e.vcekCertificateChain (prepareStore e) options.certificateVerification
      e.rootCaCertificate.isNone options.verbosity with
  | error err =>
    refine Or.inl ⟨err, quiet_error_bind _ _, ?_, fun _ => verifyStack_fails ssl hssl _ _ _ _ _ err hchain⟩
    rintro vcek ark ⟨-, e', he', -, ask, store, hchain'⟩
    cases hused.symm.trans he'
    cases hchain.symm.trans hchain'
  | ok r =>
  obtain ⟨chain, store⟩ := r
  rw [quiet_ok_bind]
  have hother (h : chain.length ≠ 3) :
      ∀ vcek ark, ¬ ChainAccepted ssl a options httpResponses vcek ark := by
    rintro vcek ark ⟨-, e', he', -, ask, store', hchain'⟩
    cases hused.symm.trans he'
    cases hchain.symm.trans hchain'
    exact h rfl
  obtain _ | ⟨vcek, _ | ⟨ask, _ | ⟨ark, _ | ⟨other, others⟩⟩⟩⟩ := chain
  case cons.cons.cons.nil =>
    have haccepted : ChainAccepted ssl a options httpResponses vcek ark :=
      ⟨hpresent, e, hused, (whenever_ok _ _ u).1 hprint, ask, store, hchain⟩
    cases hroot : e.rootCaCertificate with
    | none => exact Or.inr ⟨vcek, ark, { e with rootCaCertificate := some ark }, ark, haccepted, rfl, rfl⟩
    | some root => exact Or.inr ⟨vcek, ark, e, root, haccepted, hroot, rfl⟩
  all_goals exact Or.inl ⟨_, rfl, hother (by simp), fun _ => thrown _⟩

end

/-! ### The checks of the report -/

section
variable (evidence : Bytes) (vcek ark : X509) (options : Options)

/-- The check of the root's key, as a step of its own. -/
def checkRootKey : Result Unit :=
  if options.checkRootCertificateManufacturerKey then do
    let ok ← ssl.hasPublicKey ark amdMilanRootSigningPublicKey
    refuse (ok = false)
      (.exception "Root CA certificate does not have the expected AMD Milan public key")
  else pure ()

theorem checkRootKey_ok : checkRootKey ssl ark options = .ok () ↔
    (options.checkRootCertificateManufacturerKey = true →
      ssl.hasPublicKey ark amdMilanRootSigningPublicKey = .ok true) := by
  unfold checkRootKey
  split
  · next hcheck =>
    simp only [bind_ok, refuse_ok, Bool.not_eq_false, hcheck, true_imp_iff]
    constructor
    · rintro ⟨ok, hok, rfl⟩
      exact hok
    · exact fun h => ⟨true, h, rfl⟩
  · next hcheck => exact ⟨fun _ h => absurd h hcheck, fun _ => rfl⟩

theorem readSignature_eq (hlen : 816 ≤ evidence.length) :
    readSignature (mem evidence host.beyond) = signatureIn (sub evidence 672 512) := by
  have hr : readMem (mem evidence host.beyond) signatureOff 72 = sub (sub evidence 672 512) 0 72 := by
    rw [sub_sub _ _ _ _ _ (by omega)]
    exact readMem_eq_sub _ _ _ _ (by dsimp only [signatureOff]; omega)
  have hs : readMem (mem evidence host.beyond) (signatureOff + 72) 72 = sub (sub evidence 672 512) 72 72 := by
    rw [sub_sub _ _ _ _ _ (by omega)]
    exact readMem_eq_sub _ _ _ _ (by dsimp only [signatureOff]; omega)
  rw [readSignature, hr, hs]
  rfl

theorem readAlgo_eq (hlen : 56 ≤ evidence.length) :
    readLe (mem evidence host.beyond) signatureAlgoOff 4 = leVal (sub evidence signatureAlgoOff 4) :=
  readLe_eq_sub _ _ _ _ (by dsimp only [signatureAlgoOff]; omega)

theorem tracedReport_all :
    (tracedReport ssl evidence (mem evidence host.beyond) vcek ark options).All ReportEvent.Inside ↔
      (RootAccepted ssl options ark → 56 ≤ evidence.length ∧
        (leVal (sub evidence signatureAlgoOff 4) = ecdsaP384Sha384 → 512 ≤ evidence.length →
          ∀ pkey, ssl.pubkey vcek = .ok pkey → 816 ≤ evidence.length)) := by
  have halgo : signatureAlgoOff = 0x34 := rfl
  have hsignature : signatureOff = 672 := rfl
  have hsize : signatureSize = 512 := rfl
  have hroot : RootAccepted ssl options ark ↔
      checkRootKey ssl ark options = .ok () ∧ ssl.isCa ark = true :=
    and_congr (checkRootKey_ok ssl ark options).symm Iff.rfl
  have htraced : (tracedReport ssl evidence (mem evidence host.beyond) vcek ark options) =
      quiet (checkRootKey ssl ark options) >>= fun _ => _ := rfl
  rw [htraced, hroot]
  simp only [all_bind, all_quiet, all_event, all_events, forget_quiet, forget_event, refuse_ok, pure_ok,
    forall_eq', readEvent, ReportEvent.Inside, List.forall_mem_cons, List.not_mem_nil, Bool.not_eq_false,
    not_not, not_lt]
  constructor
  · rintro ⟨-, h⟩ ⟨hkey, hca⟩
    obtain ⟨hread, -, h⟩ := h () hkey |>.2 () hca
    have h56 := Access.le_of_inside hread (Nat.succ_pos 3)
    refine ⟨by omega, fun hone hlong pkey hpkey => ?_⟩
    rw [readAlgo_eq host evidence (by omega)] at h
    obtain ⟨⟨-, -, hs, -⟩, -⟩ := ((h () hone).2 () (by omega)).2 pkey hpkey
    have h816 := Access.le_of_inside hs (Nat.succ_pos 71)
    omega
  · intro h
    refine ⟨trivial, fun _ hkey => ⟨trivial, fun _ hca => ?_⟩⟩
    obtain ⟨h56, h⟩ := h ⟨hkey, hca⟩
    rw [readAlgo_eq host evidence h56]
    refine ⟨Access.inside_of_le (by omega), trivial, fun _ hone =>
      ⟨trivial, fun _ hlong => ⟨trivial, fun pkey hpkey => ?_⟩⟩⟩
    have h816 := h hone (by omega) pkey hpkey
    exact ⟨⟨Access.inside_of_le (by omega), Access.inside_of_le (by omega),
      Access.inside_of_le (by omega), trivial, by simp⟩, fun _ _ => ⟨trivial, fun _ _ => trivial⟩⟩

theorem verifyReport_eq (m : ℕ → Byte) : verifyReport ssl evidence m vcek ark options = (do
    checkRootKey ssl ark options
    refuse (ssl.isCa ark = false) (.exception "Root CA certificate is not a CA")
    refuse (readLe m signatureAlgoOff 4 ≠ ecdsaP384Sha384) (.exception "unexpected signature algorithm")
    refuse (evidence.length < signatureSize) (.undefined "span beyond the evidence")
    let vcekPk ← ssl.pubkey vcek
    let ok ← verifySignature ssl vcekPk (evidence.take (evidence.length - signatureSize)) (readSignature m)
    refuse (ok = false) (.exception "invalid VCEK signature")) := by
  unfold verifyReport checkRootKey
  split
  · rw [bind_assoc]
  · rw [pure_bind]

theorem verifyReport_ok_iff (m : ℕ → Byte) :
    verifyReport ssl evidence m vcek ark options = .ok () ↔
      RootAccepted ssl options ark ∧ readLe m signatureAlgoOff 4 = ecdsaP384Sha384 ∧
        512 ≤ evidence.length ∧ ∃ pkey, ssl.pubkey vcek = .ok pkey ∧
          verifySignature ssl pkey (evidence.take (evidence.length - 512)) (readSignature m) = .ok true := by
  have hsize : signatureSize = 512 := rfl
  rw [verifyReport_eq, RootAccepted, ← checkRootKey_ok]
  simp only [bind_ok, refuse_ok, Bool.not_eq_false, not_not, not_lt, hsize]
  constructor
  · rintro ⟨_, hkey, _, hca, _, hone, _, hlong, pkey, hpkey, ok, hok, rfl⟩
    exact ⟨⟨hkey, hca⟩, hone, hlong, pkey, hpkey, hok⟩
  · rintro ⟨⟨hkey, hca⟩, hone, hlong, pkey, hpkey, hok⟩
    exact ⟨(), hkey, (), hca, (), hone, (), hlong, pkey, hpkey, true, hok, rfl⟩

theorem verifyReport_fails (hssl : ssl.Throws) (m : ℕ → Byte)
    (h : RootAccepted ssl options ark → readLe m signatureAlgoOff 4 = ecdsaP384Sha384 →
      512 ≤ evidence.length) : FailsWith Thrown (verifyReport ssl evidence m vcek ark options) := by
  have hkeyFails : FailsWith Thrown (checkRootKey ssl ark options) := by
    unfold checkRootKey
    split
    · exact FailsWith.bind (hssl.hasPublicKey _ _) fun _ _ => FailsWith.refuse (thrown _)
    · exact FailsWith.pure _ _
  rw [verifyReport_eq]
  refine FailsWith.bind hkeyFails fun _ hkey => FailsWith.bind (FailsWith.refuse (thrown _)) fun _ hca =>
    FailsWith.bind (FailsWith.refuse (thrown _)) fun _ hone => FailsWith.bind ?_ fun _ _ =>
      FailsWith.bind (hssl.pubkey _) fun _ _ => FailsWith.bind ?_ fun _ _ => FailsWith.refuse (thrown _)
  · rw [refuse_ok, Bool.not_eq_false] at hca
    rw [refuse_ok, not_not] at hone
    have hlong := h ⟨(checkRootKey_ok ssl ark options).1 hkey, hca⟩ hone
    have hspan : ¬ evidence.length < signatureSize := not_lt.2 hlong
    rw [refuse_of_not hspan]
    exact FailsWith.pure _ _
  · exact FailsWith.bind (hssl.signatureDer _ _ _) fun _ _ => hssl.verifyDigest _ _ _

theorem verifyReport_short (m : ℕ → Byte) (hroot : RootAccepted ssl options ark)
    (hone : readLe m signatureAlgoOff 4 = ecdsaP384Sha384) (hshort : evidence.length < 512) :
    verifyReport ssl evidence m vcek ark options = .error (.undefined "span beyond the evidence") := by
  have hspan : evidence.length < signatureSize := hshort
  have hca : ¬ ssl.isCa ark = false := by simp [hroot.2]
  rw [verifyReport_eq, (checkRootKey_ok ssl ark options).2 hroot.1, ok_bind, refuse_of_not hca, ok_bind,
    refuse_of_not (not_not.2 hone), ok_bind, refuse, if_pos hspan]
  rfl

theorem tracedReport_checked (m : ℕ → Byte) (h : verifyReport ssl evidence m vcek ark options = .ok ()) :
    checkedOf (tracedReport ssl evidence m vcek ark options).trace =
      [(evidence.take (evidence.length - 512), readSignature m)] := by
  obtain ⟨⟨hkey, hca⟩, hone, hlong, pkey, hpkey, hok⟩ := (verifyReport_ok_iff ssl _ _ _ _ m).1 h
  have htraced : tracedReport ssl evidence m vcek ark options =
      quiet (checkRootKey ssl ark options) >>= fun _ => _ := rfl
  have hspan : ¬ evidence.length < signatureSize := not_lt.2 hlong
  rw [htraced, (checkRootKey_ok ssl ark options).2 hkey, quiet_ok_bind]
  simp only [trace_event_bind, trace_refuse_bind, hca, hone, hpkey, quiet_ok_bind, Bool.true_eq_false,
    if_false, ne_eq, not_true_eq_false, if_neg hspan]
  have hsigned : verifySignature ssl pkey (evidence.take (evidence.length - signatureSize))
      (readSignature m) = .ok true := hok
  rw [trace_bind _ _ () rfl, hsigned, quiet_ok_bind]
  rfl

end

/-! ### The claims -/

theorem makeClaims_congr (m m' : ℕ → Byte) (e : EndorsementsEtc X509 Crl) (claims : Claims)
    (hsame : ∀ i, i < 672 → m i = m' i) (h : makeClaims ssl m e = .ok claims) :
    makeClaims ssl m' e = .ok { claims with signature := readSignature m' } := by
  have hread (off n : ℕ) (hn : off + n ≤ 672) : readMem m off n = readMem m' off n := by
    refine List.map_congr_left fun i hi => hsame (off + i) ?_
    have hlt := List.mem_range.1 hi
    omega
  have hle (off n : ℕ) (hn : off + n ≤ 672) : readLe m off n = readLe m' off n :=
    congrArg leVal (hread off n hn)
  have htcb (off : ℕ) (hn : off + 8 ≤ 672) : readTcbVersion m off = readTcbVersion m' off := by
    rw [readTcbVersion, hsame _ (by omega), hsame _ (by omega), hsame _ (by omega), hsame _ (by omega)]
    rfl
  simp only [makeClaims, bind_ok, pure_ok] at h ⊢
  obtain ⟨root, hroot, rfl⟩ := h
  refine ⟨root, hroot, ?_⟩
  simp (disch := decide) only [hle, hread, htcb, hsame]

theorem makeClaims_decoded (evidence : Bytes) (e : EndorsementsEtc X509 Crl) (claims : Claims)
    (hlen : 672 ≤ evidence.length) (h : makeClaims ssl (mem evidence host.beyond) e = .ok claims) :
    DecodedFrom ssl (sub evidence 0 672) claims := by
  intro beyond
  refine ⟨e, makeClaims_congr ssl _ _ e claims (fun i hi => ?_) h⟩
  have hsub := mem_inside (sub evidence 0 672) beyond i (by rw [sub_length _ _ _ (by omega)]; exact hi)
  rw [sub_getElem? _ _ _ _ hi, Nat.zero_add, ← mem_inside evidence host.beyond i (by omega)] at hsub
  exact (Option.some.inj hsub).symm

theorem tracedPrepare_all (a : Attestation) (options : Options) :
    (tracedPrepare ssl host a options).All ReportEvent.Inside ↔ 4 ≤ a.evidence.length ∧
      (leVal (sub a.evidence 0 4) = 2 → ¬ Embedded a options → 480 ≤ a.evidence.length) := by
  have hchip : chipIdOff = 0x1A0 := rfl
  have htcb : reportedTcbOff = 0x180 := rfl
  have hfields : ∀ f ∈ tcbFields options, f.1 + f.2 ≤ 480 := by
    unfold tcbFields
    split <;> decide
  unfold tracedPrepare
  simp only [all_bind, all_event, all_quiet, forget_event, forget_quiet, refuse_ok, pure_ok, forall_eq',
    not_not, true_and]
  constructor
  · rintro ⟨hversion, h⟩
    have h4 := Access.le_of_inside hversion (Nat.succ_pos 3)
    rw [readLe_eq_sub _ _ _ _ (by omega)] at h
    refine ⟨by omega, fun htwo hdownload => ?_⟩
    have hrest := h () htwo
    rw [if_neg hdownload] at hrest
    simp only [all_bind, all_events, List.map_cons, List.forall_mem_cons] at hrest
    have h64 := Access.le_of_inside hrest.1.1 (Nat.succ_pos 63)
    omega
  · rintro ⟨h4, h⟩
    rw [readLe_eq_sub _ _ _ _ (by omega)]
    refine ⟨Access.inside_of_le (by omega), fun _ htwo => ?_⟩
    split
    · split <;> exact all_pure _ _
    · next hdownload =>
      have h480 := h htwo hdownload
      simp only [all_bind, all_events, all_quiet, all_pure, List.map_cons, List.forall_mem_cons,
        List.forall_mem_map, implies_true, and_true]
      refine ⟨Access.inside_of_le (by omega), fun f hf => ?_⟩
      have hend := hfields f hf
      exact Access.inside_of_le (by omega)

theorem prepareEndorsements_fails (hssl : ssl.Throws) (a : Attestation) (options : Options) :
    FailsWith Thrown (prepareEndorsements ssl host a options) := by
  refine FailsWith.bind (FailsWith.refuse (thrown _)) fun _ _ => ?_
  dsimp only
  split
  · split <;> exact FailsWith.pure _ _
  · refine FailsWith.bind ?_ fun _ _ => FailsWith.pure _ _
    unfold downloadEndorsements
    dsimp only
    split
    · exact FailsWith.bind (hssl.vformat _ _) fun _ _ => FailsWith.pure _ _
    · exact FailsWith.pure _ _

/-! ### The whole of `verify` -/

section
variable (evidence : Bytes) (options : Options) (vcek ark : X509) (e : EndorsementsEtc X509 Crl)

theorem tracedAfterChain_forget : (tracedAfterChain ssl host evidence options vcek ark e).forget = (do
    verifyReport ssl evidence (mem evidence host.beyond) vcek ark options
    makeClaims ssl (mem evidence host.beyond) e) := by
  simp only [tracedAfterChain, forget_bind, tracedReport_forget, forget_events, forget_quiet, pure_bind]

theorem tracedAfterChain_all :
    (tracedAfterChain ssl host evidence options vcek ark e).All ReportEvent.Inside ↔
      (RootAccepted ssl options ark → 56 ≤ evidence.length ∧
        (leVal (sub evidence signatureAlgoOff 4) = ecdsaP384Sha384 → 512 ≤ evidence.length →
          ∀ pkey, ssl.pubkey vcek = .ok pkey → 816 ≤ evidence.length)) := by
  have hfields : ∀ f ∈ claimFields, f.1 + f.2 ≤ 816 := by decide
  simp only [tracedAfterChain, all_bind, tracedReport_all, all_events, all_quiet, tracedReport_forget,
    List.forall_mem_map, implies_true, and_true]
  refine ⟨fun h => h.1, fun h => ⟨h, fun _ hreport f hf => ?_⟩⟩
  obtain ⟨hroot, hone, hlong, pkey, hpkey, -⟩ := (verifyReport_ok_iff ssl _ _ _ _ _).1 hreport
  obtain ⟨h56, h⟩ := h hroot
  rw [readAlgo_eq host evidence h56] at hone
  have h816 := h hone hlong pkey hpkey
  have hend := hfields f hf
  exact Access.inside_of_le (by omega)

theorem tracedAfterChain_checked
    (h : verifyReport ssl evidence (mem evidence host.beyond) vcek ark options = .ok ()) :
    checkedOf (tracedAfterChain ssl host evidence options vcek ark e).trace =
      [(evidence.take (evidence.length - 512), readSignature (mem evidence host.beyond))] := by
  have hforget := tracedReport_forget ssl evidence (mem evidence host.beyond) vcek ark options
  rw [h] at hforget
  rw [tracedAfterChain, trace_bind _ _ () hforget, trace_bind _ _ () rfl]
  have hsplit (s t : List ReportEvent) : checkedOf (s ++ t) = checkedOf s ++ checkedOf t :=
    List.filterMap_append
  have hclaims : checkedOf (claimFields.map (readEvent evidence.length)) = [] := rfl
  rw [hsplit, hsplit, tracedReport_checked ssl evidence vcek ark options _ h]
  show _ ++ (checkedOf (claimFields.map (readEvent evidence.length)) ++ []) = _
  rw [hclaims]
  rfl

end

theorem verify_missing (a : Attestation) (options : Options) (httpResponses : Option HTTPResponses)
    (h : RootMissing ssl a options httpResponses) :
    verify ssl host a options httpResponses = .error (.undefined "value of an empty optional") := by
  have hpresent : ¬ (a.endorsements = [] ∧ httpResponses.getD [] = []) := fun hnone => h.1.1 hnone.1
  rw [verify, verifyRun, refuse_of_not hpresent, ok_bind, usedEndorsements_missing ssl a options _ h]
  rfl

theorem verify_accepted (hssl : ssl.Throws) (a : Attestation) (options : Options)
    (httpResponses : Option HTTPResponses) (vcek ark : X509)
    (h : ChainAccepted ssl a options httpResponses vcek ark) :
    ∃ e root, e.rootCaCertificate = some root ∧
      tracedVerify ssl host a options httpResponses = tracedAfterChain ssl host a.evidence options vcek ark e := by
  obtain ⟨err, -, hnone, -⟩ | ⟨vcek', ark', e, root, haccepted, hroot, htraced⟩ :=
    tracedVerify_cases ssl host hssl a options httpResponses
  · exact absurd h (hnone vcek ark)
  · obtain ⟨rfl, rfl⟩ := haccepted.unique ssl h
    exact ⟨e, root, hroot, htraced⟩

theorem ReadsReport.fits (hssl : ssl.Throws) {a : Attestation} {options : Options}
    {httpResponses : Option HTTPResponses} (h : ReadsReport ssl host a options httpResponses) :
    ReportFits ssl a options httpResponses := by
  obtain ⟨hversion, hrequest⟩ := (tracedPrepare_all ssl host a options).1 h.prepareInside
  have hreport (vcek ark : X509) (haccepted : ChainAccepted ssl a options httpResponses vcek ark) :
      (RootAccepted ssl options ark → 56 ≤ a.evidence.length ∧
        (leVal (sub a.evidence signatureAlgoOff 4) = ecdsaP384Sha384 → 512 ≤ a.evidence.length →
          ∀ pkey, ssl.pubkey vcek = .ok pkey → 816 ≤ a.evidence.length)) := by
    obtain ⟨e, root, hroot, htraced⟩ := verify_accepted ssl host hssl a options httpResponses vcek ark haccepted
    have hinside := h.verifyInside
    rw [htraced] at hinside
    exact (tracedAfterChain_all ssl host a.evidence options vcek ark e).1 hinside
  have hverify (vcek ark : X509) (haccepted : ChainAccepted ssl a options httpResponses vcek ark) :
      ∃ e root, e.rootCaCertificate = some root ∧ verify ssl host a options httpResponses = (do
        verifyReport ssl a.evidence (mem a.evidence host.beyond) vcek ark options
        makeClaims ssl (mem a.evidence host.beyond) e) := by
    obtain ⟨e, root, hroot, htraced⟩ := verify_accepted ssl host hssl a options httpResponses vcek ark haccepted
    refine ⟨e, root, hroot, ?_⟩
    rw [← tracedVerify_forget, htraced, tracedAfterChain_forget]
  have hmessage (vcek ark : X509) (haccepted : ChainAccepted ssl a options httpResponses vcek ark)
      (hroot : RootAccepted ssl options ark)
      (hone : leVal (sub a.evidence signatureAlgoOff 4) = ecdsaP384Sha384) : 512 ≤ a.evidence.length := by
    by_contra hshort
    obtain ⟨h56, -⟩ := hreport vcek ark haccepted hroot
    obtain ⟨e, root, -, heq⟩ := hverify vcek ark haccepted
    rw [← readAlgo_eq host a.evidence h56] at hone
    rw [verifyReport_short ssl a.evidence vcek ark options _ hroot hone (not_le.1 hshort)] at heq
    exact not_thrown _ (h.verifyFails _ heq)
  refine ⟨hversion, hrequest, fun hmissing => ?_, fun vcek ark haccepted hroot =>
    (hreport vcek ark haccepted hroot).1, hmessage, fun vcek ark haccepted hroot hone pkey hpkey => ?_⟩
  · exact not_thrown _ (h.verifyFails _ (verify_missing ssl host a options httpResponses hmissing))
  · have hlong := hmessage vcek ark haccepted hroot hone
    obtain ⟨h56, hrest⟩ := hreport vcek ark haccepted hroot
    have h816 := hrest hone hlong pkey hpkey
    refine ⟨h816, fun hsigned => ?_⟩
    rw [← readSignature_eq host a.evidence h816] at hsigned
    have hok := (verifyReport_ok_iff ssl a.evidence vcek ark options (mem a.evidence host.beyond)).2
      ⟨hroot, (readAlgo_eq host a.evidence h56).trans hone, hlong, pkey, hpkey, hsigned⟩
    obtain ⟨e, root, heroot, htraced⟩ := verify_accepted ssl host hssl a options httpResponses vcek ark haccepted
    obtain ⟨claims, hclaims⟩ := makeClaims_ok ssl (mem a.evidence host.beyond) e root heroot
    have hverified : verify ssl host a options httpResponses = .ok claims := by
      rw [← tracedVerify_forget, htraced, tracedAfterChain_forget, hok, ok_bind, hclaims]
    obtain ⟨hsize, hchecked, -⟩ := h.signed claims hverified
    rw [htraced, tracedAfterChain_checked ssl host a.evidence options vcek ark e hok] at hchecked
    have hlength := congrArg (fun l => l.map fun c => c.1.length) hchecked
    have hreportSize : reportSize = 1184 := rfl
    simp only [List.map_cons, List.map_nil, List.length_take, List.cons.injEq, and_true,
      sub_length a.evidence 0 672 (by omega)] at hlength
    omega

theorem readsReport_iff (hssl : ssl.Throws) (a : Attestation) (options : Options)
    (httpResponses : Option HTTPResponses) :
    ReadsReport ssl host a options httpResponses ↔ ReportFits ssl a options httpResponses := by
  refine ⟨fun h => h.fits ssl host hssl, fun h => ?_⟩
  have hverify := tracedVerify_forget ssl host a options httpResponses
  refine ⟨(tracedPrepare_all ssl host a options).2 ⟨h.version, h.request⟩,
    prepareEndorsements_fails ssl host hssl a options, ?_, ?_, ?_⟩
  all_goals
    obtain ⟨err, htraced, -, hthrown⟩ | ⟨vcek, ark, e, root, haccepted, heroot, htraced⟩ :=
      tracedVerify_cases ssl host hssl a options httpResponses
  · rw [htraced]
    exact all_quiet _ _
  · rw [htraced, tracedAfterChain_all]
    exact fun hroot => ⟨h.algo vcek ark haccepted hroot, fun hone _ pkey hpkey =>
      (h.signature vcek ark haccepted hroot hone pkey hpkey).1⟩
  · rw [← hverify, htraced]
    intro err' herr
    cases herr
    exact hthrown h.responses
  · rw [← hverify, htraced, tracedAfterChain_forget]
    refine FailsWith.bind (verifyReport_fails ssl _ _ _ _ hssl _ fun hroot hone => ?_) fun _ _ => ?_
    · rw [readAlgo_eq host a.evidence (h.algo vcek ark haccepted hroot)] at hone
      exact h.message vcek ark haccepted hroot hone
    · exact FailsWith.bind (FailsWith.orThrow (thrown _)) fun _ _ => FailsWith.pure _ _
  · intro claims hclaims
    rw [← hverify, htraced] at hclaims
    cases hclaims
  · intro claims hclaims
    rw [← hverify, htraced, tracedAfterChain_forget, bind_ok] at hclaims
    obtain ⟨_, hreport, hclaims⟩ := hclaims
    obtain ⟨hroot, hone, hlong, pkey, hpkey, hsigned⟩ := (verifyReport_ok_iff ssl _ _ _ _ _).1 hreport
    rw [readAlgo_eq host a.evidence (h.algo vcek ark haccepted hroot)] at hone
    obtain ⟨h816, hexact⟩ := h.signature vcek ark haccepted hroot hone pkey hpkey
    have hsignature := readSignature_eq host a.evidence h816
    rw [hsignature] at hsigned
    have hsize := hexact hsigned
    have hreportSize : reportSize = 1184 := rfl
    refine ⟨hsize.ge, ?_, makeClaims_decoded ssl host a.evidence e claims (by omega) hclaims⟩
    rw [htraced, tracedAfterChain_checked ssl host a.evidence options vcek ark e hreport, hsignature, hsize]
    rfl

end

/-! ### Samples -/

theorem fullReport_length : fullReport.length = reportSize := by
  simp only [fullReport, List.length_append, leBytes_length, List.length_replicate]
  rfl

/-- A report of the right size with a chain of three certificates. -/
def fullAttestation : Attestation :=
  { source := .sevSnp, evidence := fullReport,
    endorsements := sampleChain ++ pemBegin ++ text "ark" ++ pemEnd }

theorem fullAttestation_reads :
    ReadsReport OpenSsl.lenient plainHost fullAttestation {} none ∧
      ∃ claims, verify OpenSsl.lenient plainHost fullAttestation {} none = .ok claims := by
  have hlen : fullAttestation.evidence.length = 1184 := fullReport_length
  have hfits : ReportFits OpenSsl.lenient fullAttestation {} none :=
    ⟨by omega, fun _ _ => by omega, fun h => Bool.false_ne_true h.2.2.1, fun _ _ _ _ => by omega,
      fun _ _ _ _ _ => by omega, fun _ _ _ _ _ _ _ => ⟨by omega, fun _ => hlen⟩⟩
  exact ⟨(readsReport_iff OpenSsl.lenient plainHost OpenSsl.lenient_throws fullAttestation {} none).2 hfits,
    ok_of_isSome (by decide +kernel)⟩

def shortAttestation : Attestation := { source := .sevSnp, evidence := [2, 0, 0, 0], endorsements := [] }

/-- Four bytes of evidence say that the report has version 2, and its chip id is read. -/
theorem short_report_read : ¬ ReadsReport OpenSsl.lenient plainHost shortAttestation {} none := by
  intro h
  have hinside := (tracedPrepare_all OpenSsl.lenient plainHost shortAttestation {}).1 h.prepareInside
  have hlong := hinside.2 (by decide) (by decide)
  exact absurd hlong (by decide)

end Ravl.SevSnp
