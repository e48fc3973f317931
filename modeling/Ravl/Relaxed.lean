import Ravl.CApi

/-!
# Options that ask for less

The verbosity, the check of the manufacturer's key, the acceptance of historical attestations and
the number of attempts at a download form an order. Further down in it, whatever was verified is
still verified, with the same claims.
-/

namespace Ravl
open ByteLib FallibleLib

/-- The second options log less, check less and try more often, and are the same otherwise. -/
structure Options.Relaxed (o o' : Options) : Prop where
  verbosity : o'.verbosity ≤ o.verbosity
  manufacturerKey : o'.checkRootCertificateManufacturerKey = true →
    o.checkRootCertificateManufacturerKey = true
  historical : o.historical = true → o'.historical = true
  attempts : o.httpMaxAttempts ≤ o'.httpMaxAttempts
  rest : o' = { o with
    verbosity := o'.verbosity
    checkRootCertificateManufacturerKey := o'.checkRootCertificateManufacturerKey
    historical := o'.historical
    httpMaxAttempts := o'.httpMaxAttempts }

section
variable {X509 Crl Pkey : Type} {ssl : OpenSsl X509 Crl Pkey} {host : Host} {o o' : Options}
  (h : o.Relaxed o')
include h

theorem Options.Relaxed.logs : 0 < o'.verbosity → 0 < o.verbosity :=
  fun hlog => Nat.lt_of_lt_of_le hlog h.verbosity

theorem Options.Relaxed.certificateVerification : o'.certificateVerification = o.certificateVerification := by
  rw [h.rest]

theorem Options.Relaxed.isPartial : o'.isPartial = o.isPartial := by
  rw [h.rest]

/-! ### Certificate chains -/

theorem Options.Relaxed.verifyStack (stack : List X509) (store : Store X509 Crl) (trustedRoot : Bool) :
    Within (verifyStack ssl stack store o.certificateVerification trustedRoot o.verbosity)
      (verifyStack ssl stack store o'.certificateVerification trustedRoot o'.verbosity) := by
  rw [h.certificateVerification]
  exact (Within.whenever h.logs _).bind fun _ => Within.refl _

theorem Options.Relaxed.verifyPem (pem : Bytes) (store : Store X509 Crl) (trustedRoot : Bool) :
    Within (verifyPem ssl pem store o.certificateVerification trustedRoot o.verbosity)
      (verifyPem ssl pem store o'.certificateVerification trustedRoot o'.verbosity) :=
  (Within.refl _).bind fun stack => h.verifyStack stack store trustedRoot

/-! ### SGX -/

theorem Options.Relaxed.checkManufacturerKey (root : X509) (message : String) :
    Within (Sgx.checkManufacturerKey ssl o root message) (Sgx.checkManufacturerKey ssl o' root message) := by
  intro u hu
  unfold Sgx.checkManufacturerKey at hu ⊢
  by_cases hcheck : o'.checkRootCertificateManufacturerKey = true
  · rw [if_pos hcheck]
    rwa [if_pos (h.manufacturerKey hcheck)] at hu
  · rw [if_neg hcheck]
    rfl

theorem Options.Relaxed.verifyQuote (m : Sgx.Memory) (quote : Sgx.Span) (sd : Sgx.SignatureData)
    (chain : List X509) :
    Within (Sgx.verifyQuote ssl m quote sd chain o) (Sgx.verifyQuote ssl m quote sd chain o') :=
  (Within.refl _).bind fun _ => (Within.refl _).bind fun root => (Within.refl _).bind fun _ =>
    (h.checkManufacturerKey root _).bind fun _ => Within.refl _

theorem Options.Relaxed.verifyTcb (chain tcbInfo : Bytes) (ext : Sgx.CertificateExtension)
    (store : Store X509 Crl) :
    Within (Sgx.verifyTcb ssl host chain tcbInfo ext store o)
      (Sgx.verifyTcb ssl host chain tcbInfo ext store o') :=
  (h.verifyPem chain store false).bind fun _ => (Within.refl _).bind fun _ =>
    (Within.refl _).bind fun root => (Within.refl _).bind fun _ =>
      (h.checkManufacturerKey root _).bind fun _ => Within.refl _

theorem Options.Relaxed.svnTooSmall {svn svn' : ℕ} :
    o'.historical = false ∧ svn ≤ svn' → o.historical = false ∧ svn ≤ svn' := by
  intro hparts
  obtain ⟨hhistorical, hsvn⟩ := hparts
  refine ⟨Bool.eq_false_iff.2 fun ho => ?_, hsvn⟩
  rw [h.historical ho] at hhistorical
  cases hhistorical

theorem Options.Relaxed.checkQeIdentity (report : Sgx.ReportBody) (identity : JsonText.Json) :
    Within (Sgx.checkQeIdentity host report o identity) (Sgx.checkQeIdentity host report o' identity) := by
  unfold Sgx.checkQeIdentity
  -- The options are looked at for the first time when the QE's SVN is compared.
  repeat refine (Within.refl _).bind fun _ => ?_
  exact (Within.refuse h.svnTooSmall _).bind fun _ => Within.refl _

theorem Options.Relaxed.readQeIdentity (qeIdentity : Bytes) (report : Sgx.ReportBody) :
    Within (Sgx.readQeIdentity host qeIdentity report o) (Sgx.readQeIdentity host qeIdentity report o') :=
  (Within.refl _).bind fun _ => (Within.refl _).bind fun identity =>
    (h.checkQeIdentity report identity).bind fun _ => Within.refl _

theorem Options.Relaxed.verifyQeId (chain qeIdentity : Bytes) (report : Sgx.ReportBody)
    (store : Store X509 Crl) :
    Within (Sgx.verifyQeId ssl host chain qeIdentity report store o)
      (Sgx.verifyQeId ssl host chain qeIdentity report store o') := by
  refine Within.bind ?_ fun _ => Within.refl _
  exact (h.verifyPem chain store false).bind fun _ => (Within.refl _).bind fun _ =>
    (Within.refl _).bind fun root => (Within.refl _).bind fun _ =>
      (h.checkManufacturerKey root _).bind fun _ =>
        ((h.readQeIdentity qeIdentity report).rethrow _).bind fun _ => Within.refl _

theorem Options.Relaxed.partialVerifyRun (a : Attestation) :
    Within (Sgx.partialVerifyRun ssl host a o) (Sgx.partialVerifyRun ssl host a o') :=
  (Within.refl _).bind fun quote => (Within.refl _).bind fun sd =>
    (h.verifyPem sd.certificationData _ true).bind fun r =>
      (h.verifyQuote _ quote sd r.1).bind fun _ => Within.refl _

theorem Options.Relaxed.usedCollateral (a : Attestation) (httpResponses : Option HTTPResponses) :
    Sgx.usedCollateral a o' httpResponses = Sgx.usedCollateral a o httpResponses := by
  rw [h.rest]
  rfl

theorem Options.Relaxed.verifyRun (a : Attestation) (httpResponses : Option HTTPResponses) :
    Within (Sgx.verifyRun ssl host a o httpResponses) (Sgx.verifyRun ssl host a o' httpResponses) := by
  unfold Sgx.verifyRun
  rw [h.isPartial, h.usedCollateral]
  split
  · exact h.partialVerifyRun a
  · refine (Within.refl _).bind fun _ => (Within.refl _).bind fun _ => (Within.refl _).bind fun quote =>
      (Within.refl _).bind fun sd => (Within.refl _).bind fun c => ?_
    refine (Within.whenever h.logs _).bind fun _ => (Within.refl _).bind fun r => ?_
    refine (h.verifyPem _ _ _).bind fun r => (Within.whenever h.logs _).bind fun _ => ?_
    refine (h.verifyPem _ _ _).bind fun r => (h.verifyQuote _ _ _ _).bind fun _ => ?_
    exact (Within.refl _).bind fun _ => (h.verifyTcb _ _ _ _).bind fun _ =>
      (h.verifyQeId _ _ _ _).bind fun _ => Within.refl _

theorem Options.Relaxed.sgxVerify (a : Attestation) (httpResponses : Option HTTPResponses) :
    Within (Sgx.verify ssl host a o httpResponses) (Sgx.verify ssl host a o' httpResponses) :=
  (h.verifyRun a httpResponses).bind fun _ => Within.refl _

/-! ### SEV/SNP -/

theorem Options.Relaxed.verifyReport (evidence : Bytes) (m : ℕ → Byte) (vcek ark : X509) :
    Within (SevSnp.verifyReport ssl evidence m vcek ark o)
      (SevSnp.verifyReport ssl evidence m vcek ark o') := by
  unfold SevSnp.verifyReport
  by_cases hcheck : o'.checkRootCertificateManufacturerKey = true
  · rw [if_pos hcheck, if_pos (h.manufacturerKey hcheck)]
    exact Within.refl _
  · rw [if_neg hcheck]
    split
    next =>
      intro u hu
      obtain ⟨_, -, hu⟩ := (bind_ok _ _ _).1 hu
      obtain ⟨_, -, hu⟩ := (bind_ok _ _ _).1 hu
      exact hu
    next => exact Within.refl _

theorem Options.Relaxed.usedEndorsements (a : Attestation) (httpResponses : Option HTTPResponses) :
    SevSnp.usedEndorsements ssl a o' httpResponses = SevSnp.usedEndorsements ssl a o httpResponses := by
  rw [h.rest]
  rfl

theorem Options.Relaxed.sevSnpVerify (a : Attestation) (httpResponses : Option HTTPResponses) :
    Within (SevSnp.verify ssl host a o httpResponses) (SevSnp.verify ssl host a o' httpResponses) := by
  refine Within.bind ?_ fun _ => Within.refl _
  unfold SevSnp.verifyRun
  rw [h.usedEndorsements]
  refine (Within.refl _).bind fun _ => (Within.refl _).bind fun e => ?_
  refine (Within.whenever h.logs _).bind fun _ => (h.verifyStack _ _ _).bind fun r => ?_
  obtain ⟨chain, store⟩ := r
  rcases chain with _ | ⟨vcek, _ | ⟨ask, _ | ⟨ark, _ | ⟨_, _⟩⟩⟩⟩
  · exact Within.refl _
  · exact Within.refl _
  · exact Within.refl _
  · exact (h.verifyReport _ _ vcek ark).bind fun _ => Within.refl _
  · exact Within.refl _

/-! ### Objects of every platform -/

theorem Options.Relaxed.verifyExtracted (sgx : Ravl.Attestation) (customClaims : Bytes)
    (httpResponses : Option HTTPResponses) :
    Within (Oe.verifyExtracted ssl host sgx customClaims o httpResponses)
      (Oe.verifyExtracted ssl host sgx customClaims o' httpResponses) :=
  (h.sgxVerify sgx httpResponses).bind fun _ => Within.refl _

theorem Options.Relaxed.oeVerify (a : Oe.Attestation) (httpResponses : Option HTTPResponses) :
    Within (a.verify ssl host o httpResponses).1 (a.verify ssl host o' httpResponses).1 := by
  unfold Oe.Attestation.verify
  split
  next => exact h.verifyExtracted _ _ _
  next =>
    split
    next => exact Within.refl _
    next =>
      split
      next => exact Within.refl _
      next => exact h.verifyExtracted _ _ _

theorem Options.Relaxed.verify (p : Platform X509 Crl Pkey) (a : AttestationObject)
    (httpResponses : Option HTTPResponses) :
    Within (a.verify p o httpResponses).1 (a.verify p o' httpResponses).1 := by
  cases a with
  | sgx evidence endorsements => exact (h.sgxVerify _ _).map _
  | sevSnp evidence endorsements => exact (h.sevSnpVerify _ _).map _
  | openEnclave object => exact (h.oeVerify object _).map _
  | aci evidence endorsements uvmEndorsements =>
    exact Within.map ((h.sevSnpVerify _ _).bind fun _ => Within.refl _) _

theorem Options.Relaxed.prepareEndorsements (p : Platform X509 Crl Pkey) (a : AttestationObject) :
    a.prepareEndorsements p o' = a.prepareEndorsements p o := by
  rw [h.rest]
  cases a <;> rfl

end

/-! ### The downloads -/

section
variable (server : Http.Server)

/-- An answer within fewer attempts is the answer within more, whatever their exhaustion throws. -/
theorem Http.attempt_more {timeout : ℕ} {request : HTTPRequest} {tooMany tooMany' : String}
    {n n' : ℕ} (hle : n ≤ n') {response r : HTTPResponse} {asked asked' : List HTTPRequest}
    (h : Http.attempt server timeout request tooMany n response asked = (.ok r, asked')) :
    Http.attempt server timeout request tooMany' n' response asked = (.ok r, asked') := by
  induction n generalizing n' response asked with
  | zero =>
    rw [Http.attempt] at h
    cases h
  | succ n ih =>
    obtain ⟨k, rfl⟩ := Nat.exists_eq_succ_of_ne_zero (Nat.ne_zero_of_lt hle)
    rw [Http.attempt] at h ⊢
    cases hreply : server timeout (request :: asked) with
    | error code =>
      rw [hreply] at h
      cases h
    | ok reply =>
      rw [hreply] at h
      dsimp only at h ⊢
      split at h
      next hretry =>
        rw [if_pos hretry]
        exact ih (Nat.le_of_succ_le_succ hle) h
      next hretry =>
        rw [if_neg hretry]
        exact h

theorem Http.executeSet_more {timeout n n' : ℕ} (hle : n ≤ n') {rs : HTTPRequests} {i : ℕ}
    {entries entries' : List Http.Entry} {asked asked' : List HTTPRequest}
    (h : Http.executeSet server timeout n rs i entries asked = (.ok (), entries', asked')) :
    Http.executeSet server timeout n' rs i entries asked = (.ok (), entries', asked') := by
  induction rs generalizing i entries asked with
  | nil => exact h
  | cons request rs ih =>
    rw [Http.executeSet] at h ⊢
    cases hrun : Http.executeSynchronous server request timeout n asked with
    | mk result after =>
      rw [hrun] at h
      cases result with
      | error e => cases h
      | ok response =>
        have hmore : Http.executeSynchronous server request timeout n' asked = (.ok response, after) :=
          Http.attempt_more server hle hrun
        rw [hmore]
        dsimp only at h ⊢
        split at h
        next hin =>
          rw [if_pos hin]
          split at h
          next => cases h
          next hgood =>
            rw [if_neg hgood]
            exact ih h
        next => cases h

theorem Http.execute_more {n : ℕ} (c : Http.SynchronousHTTPClient) (hle : c.maxAttempts ≤ n)
    {rs : HTTPRequests} {asked : List HTTPRequest} {r : ℕ × List Http.Entry}
    (h : (c.execute server rs asked).1 = .ok r) :
    (Http.SynchronousHTTPClient.execute server { c with maxAttempts := n } rs asked).1 = .ok r := by
  unfold Http.SynchronousHTTPClient.execute at h ⊢
  dsimp only at h ⊢
  split at h
  next => cases h
  next hnew =>
    rw [if_neg hnew]
    generalize hrun : Http.executeSet server c.requestTimeout c.maxAttempts _ 0 _ asked = run at h
    obtain ⟨result, entries, after⟩ := run
    cases result with
    | error e => cases h
    | ok u =>
      rw [Http.executeSet_more server hle hrun]
      exact h

/-- Whatever is verified is verified with the relaxed options, with the same claims. -/
theorem relaxed_verified {X509 Crl Pkey : Type} (p : Platform X509 Crl Pkey) {o o' : Options}
    (hrelaxed : o.Relaxed o') (a : AttestationObject) (claims : PlatformClaims)
    (h : verifySynchronous p server a o = .ok claims) :
    verifySynchronous p server a o' = .ok claims := by
  rw [verifySynchronous_ok, hrelaxed.prepareEndorsements p a]
  obtain ⟨hnone, hverify⟩ | ⟨requests, id, entries, hsome, hexecute, hverify⟩ :=
    (verifySynchronous_ok server a o claims).1 h
  · exact Or.inl ⟨hnone, hrelaxed.verify p _ _ claims hverify⟩
  · have htimeout : o'.httpTimeout = o.httpTimeout := by rw [hrelaxed.rest]
    have hclient : clientFor o' = { clientFor o with maxAttempts := o'.httpMaxAttempts } := by
      rw [clientFor, clientFor, htimeout]
    refine Or.inr ⟨requests, id, entries, hsome, ?_, hrelaxed.verify p _ _ claims hverify⟩
    rw [hclient]
    exact Http.execute_more server (clientFor o) hrelaxed.attempts hexecute

end

/-- Logs, checks the manufacturer's key and tries every download once. -/
def strictOptions : Options := { verbosity := 1, httpMaxAttempts := 1 }

/-- Does not log or check the key, and tries five times. -/
def laxOptions : Options := { checkRootCertificateManufacturerKey := false, historical := true }

theorem relaxed_verified_sample : ∃ claims, verifySynchronous contentPlatform kdsServer
    (.sevSnp SevSnp.fullReport []) laxOptions = .ok claims := by
  have hstrict : ∃ claims, verifySynchronous contentPlatform kdsServer (.sevSnp SevSnp.fullReport [])
      strictOptions = .ok claims := ok_of_isSome (by decide +kernel)
  obtain ⟨claims, hclaims⟩ := hstrict
  have hrelaxed : strictOptions.Relaxed laxOptions :=
    ⟨by decide, fun _ => rfl, fun _ => rfl, by decide, rfl⟩
  exact ⟨claims, relaxed_verified kdsServer contentPlatform hrelaxed (.sevSnp SevSnp.fullReport []) claims
    hclaims⟩

end Ravl
