import Ravl.OpenSsl
import Ravl.Options
import Ravl.Lib.Search

/-!
# Certificates, chains and signatures (crypto.h)
-/

namespace Ravl
open ByteLib FallibleLib SearchLib

/-! ### PEM texts (crypto.h:215-249) -/

def pemBegin : Bytes := text "-----BEGIN CERTIFICATE-----"
def pemEnd : Bytes := text "-----END CERTIFICATE-----"

/-- `data.find(pat, pos)` -/
def findFrom (pat data : Bytes) (pos : ℕ) : Option ℕ := (find pat (data.drop pos)).map (· + pos)

/-- The first certificate of a text and what is left of the view afterwards. -/
def extractPemCertificate (data : Bytes) : Bytes × Bytes :=
  match find pemBegin data with
  | none => ([], [])
  | some start =>
    match findFrom pemEnd data (start + pemBegin.length) with
    | none => ([], [])
    | some stop =>
      let stop := stop + pemEnd.length
      let rest := match findFrom pemBegin data stop with
        | none => []
        | some next => data.drop next
      (sub data start (stop - start), rest)

/-- `extract_pem_certificates`; every round shortens the view, so the fuel is never used up. -/
def extractPemCertificatesLoop : ℕ → Bytes → List Bytes
  | 0, _ => []
  | _, [] => []
  | fuel + 1, c :: data =>
    let r := extractPemCertificate (c :: data)
    if r.1 = [] then extractPemCertificatesLoop fuel r.2
    else r.1 :: extractPemCertificatesLoop fuel r.2

def extractPemCertificates (data : Bytes) : List Bytes :=
  extractPemCertificatesLoop data.length data

/-- A library that keeps a certificate as its PEM text and accepts every chain and signature. -/
def OpenSsl.lenient : OpenSsl Bytes Bytes Bytes where
  atLeast3 := true
  errors := []
  pemX509 pem := orThrow (extractPemCertificates pem).head?
    (.exception "OpenSSL object creation failed because of OpenSSL error(s):")
  derX509 der := pure (der, [])
  pemStack pem := pure (extractPemCertificates pem)
  x509Pem := id
  pemCrl := pure
  derCrl := pure
  crlPem := id
  isCa _ := true
  hasCommonName _ _ := true
  hasPublicKey _ _ := pure true
  extension _ _ := none
  pubkey := pure
  p256 := pure
  sha256 _ := List.replicate 32 0
  sha384 _ := List.replicate 48 0
  signatureDer r s _ := pure (r ++ s)
  verifyDigest _ _ _ := pure true
  x509VerifyCert ctx := { rc := 1, chain := ctx.untrusted }
  printX509 _ := pure ()
  printCrl _ := pure ()
  vformat template _ := pure template

theorem OpenSsl.lenient_throws : OpenSsl.lenient.Throws where
  pemX509 _ := FailsWith.orThrow (thrown _)
  derX509 _ := FailsWith.pure _ _
  pemStack _ := FailsWith.pure _ _
  pemCrl _ := FailsWith.pure _ _
  derCrl _ := FailsWith.pure _ _
  hasPublicKey _ _ := FailsWith.pure _ _
  pubkey _ := FailsWith.pure _ _
  p256 _ := FailsWith.pure _ _
  signatureDer _ _ _ := FailsWith.pure _ _
  verifyDigest _ _ _ := FailsWith.pure _ _
  printX509 _ := FailsWith.pure _ _
  printCrl _ := FailsWith.pure _ _
  vformat _ _ := FailsWith.pure _ _

def sampleChain : Bytes := pemBegin ++ text "leaf" ++ pemEnd ++ pemBegin ++ text "root" ++ pemEnd

section
variable {X509 Crl Pkey : Type} (ssl : OpenSsl X509 Crl Pkey)

/-- `cert_der_to_pem`: what stands behind the certificate stays in the BIO. -/
def certDerToPem (der : Bytes) : Result Bytes := do
  let (x509, _) ← ssl.derX509 der
  pure (ssl.x509Pem x509)

/-! ### Certificate chains (crypto.h:358-519) -/

def ownFlags (options : CertificateValidationOptions) : Flags :=
  x509Strict ||| checkSsSignature ||| partialChain |||
    (if options.ignoreTime then noCheckTime else 0)

/-- The parameter object built next to the context. -/
def chainParam (options : CertificateValidationOptions) : VerifyParam :=
  let param : VerifyParam := { depth := 2 ^ 31 - 1, authLevel := 0 }
  let param := param.setFlags x509Strict
  let param := param.setFlags checkSsSignature
  let param := param.setFlags partialChain
  if options.ignoreTime then param.setFlags noCheckTime else param

/-- The context X509_verify_cert is called with (crypto.h:379-401): `init`, `set_time`, `set_param`. -/
def chainCtx (store : Store X509 Crl) (target : X509) (stack : List X509)
    (options : CertificateValidationOptions) : StoreCtx X509 Crl :=
  let ctx := StoreCtx.init store target stack
  let ctx := match options.verificationTime with
    | some t => ctx.setTime t
    | none => ctx
  let ctx := ctx.setParam (chainParam options)
  if ssl.atLeast3 then ctx.setVerifyCb else ctx

/-- `if (trusted_root) store.add(stack.back());` -/
def trustEnd (store : Store X509 Crl) (back : X509) : Bool → Store X509 Crl
  | true => store.add back
  | false => store

/-- `verify_certificate_chain` (crypto.h:358-429): the chain OpenSSL built, and the store,
which has got the end of the stack as a trust anchor if that was asked for. -/
def verifyCertificateChain (store : Store X509 Crl) (stack : List X509)
    (options : CertificateValidationOptions) (trustedRoot : Bool) :
    Result (List X509 × Store X509 Crl) :=
  match stack with
  | target :: c :: cs =>
    let store := trustEnd store ((c :: cs).getLast (List.cons_ne_nil c cs)) trustedRoot
    let ctx := chainCtx ssl store target stack options
    let rc := ssl.verifyCert ctx
    let answer := ssl.x509VerifyCert ctx
    if rc = 1 then pure (answer.chain, store)
    else if rc = 0 then throw (.exception ("certificate chain verification failed: " ++
      str answer.error ++ " (depth: " ++ str answer.depth ++ ")"))
    else throw (.exception ("OpenSSL error(s):" ++ str ssl.errors))
  | _ => throw (.exception "certificate stack too small")

def printStack (stack : List X509) : Result Unit :=
  match stack with
  | [] => pure ()
  | c :: cs => do
    ssl.printX509 c
    printStack cs

/-- The variant for a stack that logs and asks for a chain of two (crypto.h:488-533). -/
def verifyStack (stack : List X509) (store : Store X509 Crl)
    (options : CertificateValidationOptions) (trustedRoot : Bool) (verbosity : Fin 256) :
    Result (List X509 × Store X509 Crl) := do
  whenever (0 < verbosity) (printStack ssl stack)
  let (chain, store) ← verifyCertificateChain ssl store stack options trustedRoot
  refuse (chain.length < 2) (.exception "certificate chain is too short")
  pure (chain, store)

/-- The variants for a PEM text (crypto.h:535-561). -/
def verifyPem (pem : Bytes) (store : Store X509 Crl) (options : CertificateValidationOptions)
    (trustedRoot : Bool) (verbosity : Fin 256) : Result (List X509 × Store X509 Crl) := do
  let stack ← ssl.pemStack pem
  verifyStack ssl stack store options trustedRoot verbosity

section Fails
variable (hssl : ssl.Throws)
include hssl

theorem certDerToPem_fails (der : Bytes) : FailsWith Thrown (certDerToPem ssl der) :=
  FailsWith.bind (hssl.derX509 der) fun _ _ => FailsWith.pure _ _

theorem printStack_fails (stack : List X509) : FailsWith Thrown (printStack ssl stack) := by
  induction stack with
  | nil => exact FailsWith.pure _ _
  | cons c cs ih => exact FailsWith.bind (hssl.printX509 c) fun _ _ => ih

omit hssl in
theorem verifyCertificateChain_fails (store : Store X509 Crl) (stack : List X509)
    (options : CertificateValidationOptions) (trustedRoot : Bool) :
    FailsWith Thrown (verifyCertificateChain ssl store stack options trustedRoot) := by
  unfold verifyCertificateChain
  split
  · dsimp only
    split
    · exact FailsWith.pure _ _
    · split <;> exact FailsWith.throw (thrown _)
  · exact FailsWith.throw (thrown _)

theorem verifyStack_fails (stack : List X509) (store : Store X509 Crl)
    (options : CertificateValidationOptions) (trustedRoot : Bool) (verbosity : Fin 256) :
    FailsWith Thrown (verifyStack ssl stack store options trustedRoot verbosity) :=
  FailsWith.bind (FailsWith.whenever (printStack_fails ssl hssl stack)) fun _ _ =>
    FailsWith.bind (verifyCertificateChain_fails ssl _ _ _ _) fun _ _ =>
      FailsWith.bind (FailsWith.refuse (thrown _)) fun _ _ => FailsWith.pure _ _

end Fails

/-- The anchors of a store after a chain was verified with it. -/
def anchorsAfter (store : Store X509 Crl) (stack : List X509) (trustedRoot : Bool) : List X509 :=
  if trustedRoot then store.anchors ++ stack.getLast?.toList else store.anchors

theorem verifyCertificateChain_ok (store store' : Store X509 Crl) (stack chain : List X509)
    (options : CertificateValidationOptions) (trustedRoot : Bool)
    (h : verifyCertificateChain ssl store stack options trustedRoot = .ok (chain, store')) :
    ∃ target, stack.head? = some target ∧ 2 ≤ stack.length ∧
      store'.anchors = anchorsAfter store stack trustedRoot ∧ store'.param = store.param ∧
      (trustedRoot = false → store' = store) ∧
      (ssl.x509VerifyCert (chainCtx ssl store' target stack options)).rc ≠ 0 ∧
      chain = (ssl.x509VerifyCert (chainCtx ssl store' target stack options)).chain := by
  unfold verifyCertificateChain at h
  split at h
  next target c cs =>
    dsimp only at h
    split at h
    next hrc =>
      simp only [pure, Except.pure, Except.ok.injEq, Prod.mk.injEq] at h
      obtain ⟨hchain, hstore⟩ := h
      rw [hstore] at hchain hrc
      have hne : (ssl.x509VerifyCert (chainCtx ssl store' target (target :: c :: cs) options)).rc ≠ 0 := by
        intro h0
        simp only [OpenSsl.verifyCert, h0, ne_eq, not_true_eq_false, if_false] at hrc
        omega
      refine ⟨target, rfl, by simp, ?_, ?_, ?_, hne, hchain.symm⟩
      · rw [← hstore]
        cases trustedRoot <;>
          simp [anchorsAfter, trustEnd, List.getLast?_eq_some_getLast]
      · rw [← hstore]
        cases trustedRoot <;> rfl
      · intro ht
        rw [← hstore, ht]
        rfl
    next =>
      split at h <;> simp [throw, throwThe, MonadExceptOf.throw] at h
  next => simp [throw, throwThe, MonadExceptOf.throw] at h

theorem verifyStack_untrusted (stack chain : List X509) (store store' : Store X509 Crl)
    (options : CertificateValidationOptions) (verbosity : Fin 256)
    (h : verifyStack ssl stack store options false verbosity = .ok (chain, store')) :
    store' = store := by
  simp only [verifyStack, bind_ok, refuse_ok, pure_ok] at h
  obtain ⟨_, -, ⟨chain', store''⟩, hverify, _, -, heq⟩ := h
  cases heq
  obtain ⟨_, -, -, -, -, hsame, -⟩ := verifyCertificateChain_ok ssl _ _ _ _ _ _ hverify
  exact hsame rfl

theorem verifyStack_trusted (stack chain : List X509) (store store' : Store X509 Crl)
    (options : CertificateValidationOptions) (verbosity : Fin 256)
    (h : verifyStack ssl stack store options true verbosity = .ok (chain, store')) :
    ∃ c, stack.getLast? = some c ∧ store'.anchors = store.anchors ++ [c] := by
  simp only [verifyStack, bind_ok, refuse_ok, pure_ok] at h
  obtain ⟨_, -, ⟨chain', store''⟩, hverify, _, -, heq⟩ := h
  cases heq
  obtain ⟨_, -, hlen, hanchors, -⟩ := verifyCertificateChain_ok ssl _ _ _ _ _ _ hverify
  have hne : stack ≠ [] := by
    intro heq
    subst heq
    simp at hlen
  have hlast := List.getLast?_eq_some_getLast hne
  refine ⟨stack.getLast hne, hlast, ?_⟩
  rw [hanchors, anchorsAfter, if_pos rfl, hlast]
  rfl

theorem verifyPem_ok (pem : Bytes) (store : Store X509 Crl) (options : CertificateValidationOptions)
    (trustedRoot : Bool) (verbosity : Fin 256) (r : List X509 × Store X509 Crl)
    (h : verifyPem ssl pem store options trustedRoot verbosity = .ok r) :
    ∃ stack, ssl.pemStack pem = .ok stack ∧
      verifyStack ssl stack store options trustedRoot verbosity = .ok r := by
  simp only [verifyPem, bind_ok] at h
  exact h

/-- X509_verify_cert returns 1, 0 or a negative number. -/
def AnswersAsDocumented : Prop :=
  ∀ ctx, (ssl.x509VerifyCert ctx).rc = 1 ∨ (ssl.x509VerifyCert ctx).rc = 0 ∨
    (ssl.x509VerifyCert ctx).rc < 0

/-- What a caller who put flags on the store and a time into the options may expect of the
call of X509_verify_cert with this context. -/
def CheckedAsAsked (store : Store X509 Crl) (options : CertificateValidationOptions)
    (ctx : StoreCtx X509 Crl) : Prop :=
  (ssl.x509VerifyCert ctx).rc = 1 ∧ store.param.flags.within ctx.param.flags ∧
    ∀ t, options.verificationTime = some t → ctx.param.timeInForce = some t

theorem chainCtx_param (store : Store X509 Crl) (target : X509) (stack : List X509)
    (options : CertificateValidationOptions) :
    (chainCtx ssl store target stack options).param = chainParam options := by
  unfold chainCtx
  cases ssl.atLeast3 <;> rfl

theorem chainParam_flags (options : CertificateValidationOptions) :
    (chainParam options).flags = ownFlags options := by
  unfold chainParam ownFlags
  cases options.ignoreTime <;> decide

theorem chainParam_time (options : CertificateValidationOptions) :
    (chainParam options).timeInForce = none := by
  have hflag : ¬ useCheckTime.within (ownFlags options) := by
    unfold ownFlags
    cases options.ignoreTime <;> decide
  unfold VerifyParam.timeInForce
  rw [chainParam_flags, if_neg hflag]

/-- A returned chain was checked with the caller's flags and time exactly when there was
nothing to lose: no flag beyond the function's own, no explicit time, and no negative answer. -/
theorem verifyCertificateChain_checked_iff (hssl : AnswersAsDocumented ssl)
    (store store' : Store X509 Crl) (target : X509) (stack chain : List X509)
    (options : CertificateValidationOptions) (trustedRoot : Bool)
    (h : verifyCertificateChain ssl store (target :: stack) options trustedRoot =
      .ok (chain, store')) :
    CheckedAsAsked ssl store options (chainCtx ssl store' target (target :: stack) options) ↔
      0 ≤ (ssl.x509VerifyCert (chainCtx ssl store' target (target :: stack) options)).rc ∧
        store.param.flags.within (ownFlags options) ∧ options.verificationTime = none := by
  obtain ⟨target', htarget, -, -, -, -, hne, -⟩ :=
    verifyCertificateChain_ok ssl store store' (target :: stack) chain options trustedRoot h
  cases htarget
  have hdoc := hssl (chainCtx ssl store' target (target :: stack) options)
  unfold CheckedAsAsked
  rw [chainCtx_param, chainParam_flags, chainParam_time]
  constructor
  · intro ⟨hrc, hflags, htime⟩
    refine ⟨by omega, hflags, ?_⟩
    cases hv : options.verificationTime with
    | none => rfl
    | some t => cases htime t hv
  · intro ⟨hrc, hflags, htime⟩
    refine ⟨by omega, hflags, ?_⟩
    intro t ht
    rw [htime] at ht
    cases ht

end

def twoCertificates : List Bytes := [text "leaf", text "root"]
def crlCheckingStore : Store Bytes Bytes := ({} : Store Bytes Bytes).setFlags (crlCheck ||| crlCheckAll)

theorem lenient_answers : AnswersAsDocumented OpenSsl.lenient := fun _ => Or.inl rfl

theorem verifyCertificateChain_checked_iff_plain :
    AnswersAsDocumented OpenSsl.lenient ∧
      (CheckedAsAsked OpenSsl.lenient {} {}
          (chainCtx OpenSsl.lenient {} (text "leaf") twoCertificates {}) ↔
        0 ≤ (OpenSsl.lenient.x509VerifyCert
            (chainCtx OpenSsl.lenient {} (text "leaf") twoCertificates {})).rc ∧
          ({} : Store Bytes Bytes).param.flags.within (ownFlags {}) ∧
          ({} : CertificateValidationOptions).verificationTime = none) :=
  ⟨lenient_answers, verifyCertificateChain_checked_iff OpenSsl.lenient lenient_answers {} {}
    (text "leaf") [text "root"] twoCertificates {} false rfl⟩

/-- The store asks for revocation checks, the chain is returned, and nothing was revoked-checked. -/
theorem verifyCertificateChain_drops_flags :
    ¬ ∀ (ssl : OpenSsl Bytes Bytes Bytes), AnswersAsDocumented ssl →
      ∀ (store store' : Store Bytes Bytes) (target : Bytes) (stack chain : List Bytes)
        (options : CertificateValidationOptions) (trustedRoot : Bool),
      verifyCertificateChain ssl store (target :: stack) options trustedRoot = .ok (chain, store') →
        CheckedAsAsked ssl store options (chainCtx ssl store' target (target :: stack) options) := by
  intro h
  have hbad := (h OpenSsl.lenient lenient_answers crlCheckingStore crlCheckingStore (text "leaf")
    [text "root"] twoCertificates {} false rfl).2.1
  rw [chainCtx_param, chainParam_flags] at hbad
  revert hbad
  decide

end Ravl
