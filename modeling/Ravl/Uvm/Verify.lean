import Ravl.ParsedSource
import Ravl.Platforms
import Ravl.Sgx.MissingMembers
import Ravl.UvmEndorsements
import Ravl.Uvm.CoseHeader
import Ravl.Uvm.Keys

/-!
# The check of UVM endorsements (uvm_endorsements.h:260-371, cose_verifier_impl.h)

A signed document says which measurement its issuer stands for. The issuer is a DID: the library
didx509 makes a document with the issuer's key out of it and the certificates in the header.
-/

namespace Ravl.Uvm
open ByteLib FallibleLib NumeralLib
open JsonText (Json)

/-- What is taken from other libraries. -/
structure Libraries (RsaKey Ctx : Type) where
  qcbor : Qcbor Ctx
  codec : Codec
  doubles : Doubles
  /-- didx509::resolve -/
  resolve : Bytes → Bytes → Result Bytes
  /-- the RSA key with this modulus and exponent -/
  rsaKey : ℕ → ℕ → Result RsaKey
  /-- t_cose_sign1_verify, with the tag required: the payload of a message that is accepted -/
  sign1Verify : RsaKey → Bytes → Option Bytes

structure UVMEndorsementsPayload where
  sevsnpvmGuestSvn : Bytes
  sevsnpvmLaunchMeasurement : Bytes
  deriving DecidableEq

def UVMEndorsementsPayload.fromJson (j : Json) : Result UVMEndorsementsPayload := do
  let guestSvn ← getString (← jsonAt j (text "x-ms-sevsnpvm-guestsvn"))
  let launchMeasurement ← getString (← jsonAt j (text "x-ms-sevsnpvm-launchmeasurement"))
  pure ⟨guestSvn, launchMeasurement⟩

section
variable {X509 Crl Pkey RsaKey Ctx : Type} (ssl : OpenSsl X509 Crl Pkey) (lib : Libraries RsaKey Ctx)

/-- The chain in PEM format -/
def pemChain : List Bytes → Result Bytes
  | [] => pure []
  | c :: cs => do
    let pem ← certDerToPem ssl c
    let pems ← pemChain cs
    pure (pem ++ pems)

/-- The try block: an exception keeps its text. -/
def readDocument (didDocumentStr : Bytes) : Result DIDDocument := do
  let j ← jsonParse lib.doubles didDocumentStr
  DIDDocument.fromJson j

/-- The key of the first method that the issuer controls -/
def findKey (did didDocumentStr : Bytes) (didDocument : DIDDocument) :
    Result JsonWebKeyRSAPublic := do
  refuse (didDocument.verificationMethod = [])
    (.exception ("Could not find verification method for DID document: " ++ str didDocumentStr))
  let vm ← orThrow (didDocument.verificationMethod.find? fun vm => vm.controller = did)
    (.exception ("Could not find matching public key for DID " ++ str did ++ " in " ++
      str didDocumentStr))
  pure vm.publicKeyJwk

/-- `verify_uvm_endorsements_signature`: the payload -/
def verifyUvmEndorsementsSignature (pubkey : JsonWebKeyRSAPublic) (uvmEndorsementsRaw : Bytes) :
    Result Bytes := do
  let rsaKey ← pubkey.key lib.codec lib.rsaKey
  orThrow (lib.sign1Verify rsaKey uvmEndorsementsRaw)
    (.exception "Signature verification failed")

variable (roots : List UVMEndorsements)

def verifyUvmEndorsements (uvmEndorsementsRaw uvmMeasurement : Bytes) : Result UVMEndorsements := do
  let phdr ← decodeProtectedHeader lib.qcbor uvmEndorsementsRaw
  refuse (phdr.contentType ≠ contentTypeApplicationJsonValue)
    (.exception ("Unexpected payload content type " ++ str phdr.contentType ++ ", expected " ++
      str contentTypeApplicationJsonValue))
  refuse (isRsaAlg phdr.alg = false)
    (.exception ("Signature algorithm " ++ toString phdr.alg ++ " is not expected RSA"))
  let chain ← pemChain ssl phdr.x5Chain
  let didDocumentStr ← lib.resolve chain phdr.iss
  let didDocument ← readDocument lib didDocumentStr
  let pubk ← findKey phdr.iss didDocumentStr didDocument
  let rawPayload ← verifyUvmEndorsementsSignature lib pubk uvmEndorsementsRaw
  let j ← jsonParse lib.doubles rawPayload
  let payload ← UVMEndorsementsPayload.fromJson j
  let uvmMeasurementHex := toHex uvmMeasurement
  refuse (payload.sevsnpvmLaunchMeasurement ≠ uvmMeasurementHex)
    (.exception ("Launch measurement in UVM endorsements payload " ++
      str payload.sevsnpvmLaunchMeasurement ++ " is not equal to UVM attestation measurement " ++
      str uvmMeasurementHex))
  let end_ : UVMEndorsements := ⟨phdr.iss, phdr.feed, payload.sevsnpvmGuestSvn⟩
  refuse (matchesUvmRootsOfTrust roots end_ = false)
    (.exception ("UVM endorsements did " ++ str end_.did ++ ", feed " ++ str end_.feed ++ ", svn " ++
      str end_.svn ++ " do not match any of the known UVM roots of trust"))
  pure end_

/-- The platforms with this check of UVM endorsements, whose result nobody uses -/
def platform (host : Host) : Platform X509 Crl Pkey where
  ssl := ssl
  host := host
  verifyUvmEndorsements uvmEndorsements measurement := do
    let _ ← verifyUvmEndorsements ssl lib roots uvmEndorsements measurement
    pure ()

/-! ### What is accepted -/

/-- The document that the issuer's certificates resolve to, and the key taken from it. -/
structure IssuerKey (phdr : UvmEndorsementsProtectedHeader) (key : RsaKey) : Prop where
  resolved : ∃ chain s j doc, pemChain ssl phdr.x5Chain = .ok chain ∧
    lib.resolve chain phdr.iss = .ok s ∧ jsonParse lib.doubles s = .ok j ∧
    DIDDocument.fromJson j = .ok doc ∧
    ∃ vm ∈ doc.verificationMethod.find? fun vm => vm.controller = phdr.iss,
      vm.publicKeyJwk.key lib.codec lib.rsaKey = .ok key

/-- The payload is a JSON value with this measurement and this SVN. -/
structure States (payload measurement svn : Bytes) : Prop where
  stated : ∃ j, jsonParse lib.doubles payload = .ok j ∧
    jsonAt j (text "x-ms-sevsnpvm-guestsvn") = .ok (.string svn) ∧
    jsonAt j (text "x-ms-sevsnpvm-launchmeasurement") = .ok (.string (toHex measurement))

/-- The message is signed with the key of its issuer, the payload states the measurement, and
the issuer, the feed and the stated SVN are accepted by one of the roots. -/
structure Endorsed (raw measurement : Bytes) (e : UVMEndorsements) : Prop where
  accepted : ∃ phdr key payload, decodeProtectedHeader lib.qcbor raw = .ok phdr ∧
    phdr.contentType = contentTypeApplicationJsonValue ∧ isRsaAlg phdr.alg = true ∧
    IssuerKey ssl lib phdr key ∧ lib.sign1Verify key raw = some payload ∧
    States lib payload measurement e.svn ∧ e.did = phdr.iss ∧ e.feed = phdr.feed
  root : ∃ root ∈ roots, root.did = e.did ∧ root.feed = e.feed ∧ Precedes root.svn e.svn

theorem payload_ok_iff (j : Json) (p : UVMEndorsementsPayload) :
    UVMEndorsementsPayload.fromJson j = .ok p ↔
      jsonAt j (text "x-ms-sevsnpvm-guestsvn") = .ok (.string p.sevsnpvmGuestSvn) ∧
      jsonAt j (text "x-ms-sevsnpvm-launchmeasurement") =
        .ok (.string p.sevsnpvmLaunchMeasurement) := by
  simp only [UVMEndorsementsPayload.fromJson, bind_ok, Sgx.getString_ok_iff, pure_ok]
  constructor
  · intro h
    obtain ⟨v, hv, svn, rfl, w, hw, m, rfl, rfl⟩ := h
    exact ⟨hv, hw⟩
  · intro h
    obtain ⟨hv, hw⟩ := h
    exact ⟨_, hv, _, rfl, _, hw, _, rfl, rfl⟩

theorem issuerKey_iff (phdr : UvmEndorsementsProtectedHeader) (key : RsaKey) :
    IssuerKey ssl lib phdr key ↔ ∃ chain, pemChain ssl phdr.x5Chain = .ok chain ∧
      ∃ s, lib.resolve chain phdr.iss = .ok s ∧ ∃ doc, readDocument lib s = .ok doc ∧
        ∃ pubk, findKey phdr.iss s doc = .ok pubk ∧ pubk.key lib.codec lib.rsaKey = .ok key := by
  simp only [readDocument, findKey, bind_ok, refuse_ok, orThrow_ok, pure_ok]
  constructor
  · intro h
    obtain ⟨chain, s, j, doc, hchain, hs, hj, hdoc, vm, hvm, hkey⟩ := h
    refine ⟨chain, hchain, s, hs, doc, ⟨j, hj, hdoc⟩, vm.publicKeyJwk, ⟨(), ?_, vm, hvm, rfl⟩, hkey⟩
    intro hempty
    rw [hempty] at hvm
    cases hvm
  · intro h
    obtain ⟨chain, hchain, s, hs, doc, ⟨j, hj, hdoc⟩, pubk, ⟨_, -, vm, hvm, rfl⟩, hkey⟩ := h
    exact ⟨chain, s, j, doc, hchain, hs, hj, hdoc, vm, hvm, hkey⟩

theorem verifyUvmEndorsements_ok_iff (raw measurement : Bytes) (e : UVMEndorsements) :
    verifyUvmEndorsements ssl lib roots raw measurement = .ok e ↔
      Endorsed ssl lib roots raw measurement e := by
  simp only [verifyUvmEndorsements, verifyUvmEndorsementsSignature, bind_ok, refuse_ok, orThrow_ok,
    payload_ok_iff, pure_ok, not_not, Bool.not_eq_false, matches_iff]
  constructor
  · intro h
    obtain ⟨phdr, hphdr, _, htype, _, halg, chain, hchain, s, hs, doc, hdoc, pubk, hpubk, payload,
      ⟨key, hkey, hsigned⟩, j, hj, p, ⟨hsvn, hmeasurement⟩, _, hsame, _, hroot, rfl⟩ := h
    rw [hsame] at hmeasurement
    exact ⟨⟨phdr, key, payload, hphdr, htype, halg,
      (issuerKey_iff ssl lib phdr key).2 ⟨chain, hchain, s, hs, doc, hdoc, pubk, hpubk, hkey⟩, hsigned,
      ⟨j, hj, hsvn, hmeasurement⟩, rfl, rfl⟩, hroot⟩
  · intro h
    obtain ⟨⟨phdr, key, payload, hphdr, htype, halg, hissuer, hsigned, ⟨j, hj, hsvn, hmeasurement⟩,
      hdid, hfeed⟩, hroot⟩ := h
    obtain ⟨chain, hchain, s, hs, doc, hdoc, pubk, hpubk, hkey⟩ := (issuerKey_iff ssl lib phdr key).1 hissuer
    have heq : (⟨phdr.iss, phdr.feed, e.svn⟩ : UVMEndorsements) = e := by rw [← hdid, ← hfeed]
    rw [hdid, hfeed] at hroot
    refine ⟨phdr, hphdr, (), htype, (), halg, chain, hchain, s, hs, doc, hdoc, pubk, hpubk, payload,
      ⟨key, hkey, hsigned⟩, j, hj, ⟨e.svn, toHex measurement⟩, ⟨hsvn, hmeasurement⟩, (), rfl, (), hroot, heq⟩

/-! ### Whatever the bytes are, it ends -/

/-- The libraries throw exceptions and do nothing undefined. -/
structure Libraries.Throws : Prop where
  resolve : ∀ chain did, FailsWith Thrown (lib.resolve chain did)
  rsaKey : ∀ n e, FailsWith Thrown (lib.rsaKey n e)

theorem stringAt_fails {α : Type} (j : Json) (key : Bytes) (f : Bytes → Result α)
    (hf : ∀ s, FailsWith Thrown (f s)) :
    FailsWith Thrown (do let s ← getString (← jsonAt j key); f s) :=
  FailsWith.bind (jsonAt_fails j key) fun v _ => FailsWith.bind (getString_fails v) fun s _ => hf s

theorem readKty_fails (kty : Bytes) (old : JsonWebKeyType) : FailsWith Thrown (readKty kty old) := by
  unfold readKty
  split
  · exact FailsWith.pure _ _
  · split
    · exact FailsWith.pure _ _
    · split
      · exact FailsWith.pure _ _
      · exact FailsWith.throw (thrown _)

theorem method_fails (j : Json) (x : DIDDocumentVerificationMethod) : FailsWith Thrown (x.fromJson j) := by
  refine stringAt_fails _ _ _ fun _ => stringAt_fails _ _ _ fun _ => stringAt_fails _ _ _ fun _ =>
    FailsWith.bind (jsonAt_fails _ _) fun _ _ => FailsWith.bind ?_ fun _ _ => FailsWith.pure _ _
  exact stringAt_fails _ _ _ fun _ => FailsWith.bind (readKty_fails _ _) fun _ _ =>
    stringAt_fails _ _ _ fun _ => stringAt_fails _ _ _ fun _ => FailsWith.pure _ _

theorem readDocument_fails (s : Bytes) : FailsWith Thrown (readDocument lib s) := by
  refine FailsWith.bind (FailsWith.orThrow (thrown _)) fun j _ => stringAt_fails _ _ _ fun _ =>
    FailsWith.bind (jsonAt_fails _ _) fun v _ => FailsWith.bind ?_ fun _ _ =>
      stringAt_fails _ _ _ fun _ => FailsWith.pure _ _
  unfold getMethods
  split
  · exact FailsWith.mapM (fun x => method_fails x {}) _
  · exact FailsWith.throw (thrown _)

theorem findKey_fails (did s : Bytes) (doc : DIDDocument) : FailsWith Thrown (findKey did s doc) :=
  FailsWith.bind (FailsWith.refuse (thrown _)) fun _ _ =>
    FailsWith.bind (FailsWith.orThrow (thrown _)) fun _ _ => FailsWith.pure _ _

theorem pemChain_fails (hssl : ssl.Throws) (chain : List Bytes) :
    FailsWith Thrown (pemChain ssl chain) := by
  induction chain with
  | nil => exact FailsWith.pure _ _
  | cons c cs ih =>
    exact FailsWith.bind (certDerToPem_fails ssl hssl c) fun _ _ =>
      FailsWith.bind ih fun _ _ => FailsWith.pure _ _

variable {lib} (hlib : lib.Throws)
include hlib

theorem verifySignature_fails (pubkey : JsonWebKeyRSAPublic) (raw : Bytes) :
    FailsWith Thrown (verifyUvmEndorsementsSignature lib pubkey raw) :=
  FailsWith.bind (FailsWith.bind (FailsWith.orThrow (thrown _)) fun _ _ =>
    FailsWith.bind (FailsWith.orThrow (thrown _)) fun _ _ => hlib.rsaKey _ _) fun _ _ =>
      FailsWith.orThrow (thrown _)

theorem verifyUvmEndorsements_throws (hssl : ssl.Throws) (raw measurement : Bytes) :
    FailsWith Thrown (verifyUvmEndorsements ssl lib roots raw measurement) := by
  refine FailsWith.bind (decodeProtectedHeader_fails _ _) fun phdr _ =>
    FailsWith.bind (FailsWith.refuse (thrown _)) fun _ _ =>
    FailsWith.bind (FailsWith.refuse (thrown _)) fun _ _ =>
    FailsWith.bind (pemChain_fails ssl hssl phdr.x5Chain) fun chain _ =>
    FailsWith.bind (hlib.resolve chain phdr.iss) fun s _ =>
    FailsWith.bind (readDocument_fails lib s) fun doc _ =>
    FailsWith.bind (findKey_fails _ s doc) fun pubk _ =>
    FailsWith.bind (verifySignature_fails hlib pubk raw) fun payload _ =>
    FailsWith.bind (FailsWith.orThrow (thrown _)) fun j _ => FailsWith.bind ?_ fun _ _ =>
    FailsWith.bind (FailsWith.refuse (thrown _)) fun _ _ =>
    FailsWith.bind (FailsWith.refuse (thrown _)) fun _ _ => FailsWith.pure _ _
  exact stringAt_fails _ _ _ fun _ => stringAt_fails _ _ _ fun _ => FailsWith.pure _ _

end

end Ravl.Uvm
