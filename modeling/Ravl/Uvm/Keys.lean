import Ravl.Codec

/-!
# JSON web keys and DID documents (jwk.h, did.h, crypto.h:78-140)

Only what the check of UVM endorsements reads: RSA keys, and the verification methods of a
document. Numbers are big-endian bytes in base64url.
-/

namespace Ravl.Uvm
open ByteLib FallibleLib
open JsonText (Json)

/-! ### JSON web keys -/

inductive JsonWebKeyType
  | ec
  | rsa
  | okp
  deriving DecidableEq

/-- A key made by `get<T>()` starts with zeros. -/
structure JsonWebKeyRSAPublic where
  kty : JsonWebKeyType := .ec
  n : Bytes := []
  e : Bytes := []
  deriving DecidableEq

/-- The branch for OKP compares where it should assign: the type stays what it was. -/
def readKty (kty : Bytes) (old : JsonWebKeyType) : Result JsonWebKeyType :=
  if kty = text "RSA" then pure .rsa
  else if kty = text "EC" then pure .ec
  else if kty = text "OKP" then pure old
  else throw (.exception "Unsupported Json Web Key Type")

def JsonWebKeyRSAPublic.fromJson (j : Json) (x : JsonWebKeyRSAPublic) :
    Result JsonWebKeyRSAPublic := do
  let kty ← getString (← jsonAt j (text "kty"))
  let kty ← readKty kty x.kty
  let n ← getString (← jsonAt j (text "n"))
  let e ← getString (← jsonAt j (text "e"))
  pure ⟨kty, n, e⟩

section
variable {Pkey : Type} (codec : Codec) (rsaKey : ℕ → ℕ → Result Pkey)

def fromBase64Url (b64url : Bytes) : Result Bytes := codec.fromBase64 (Base64Lib.standard b64url)

/-- UqEVP_PKEY_RSA; `rsaKey` is OpenSSL's key of a modulus and an exponent. -/
def JsonWebKeyRSAPublic.key (pubkey : JsonWebKeyRSAPublic) : Result Pkey := do
  let n ← fromBase64Url codec pubkey.n
  let e ← fromBase64Url codec pubkey.e
  rsaKey (beVal n) (beVal e)

/-- OpenSSL's filter reads what the standard says, without line breaks. -/
def ReadsBase64 : Prop := ∀ data, codec.base64Read (Base64Lib.encode data) = some data

theorem fromBase64Url_encodeUrl (hcodec : ReadsBase64 codec) (data : Bytes) :
    fromBase64Url codec (Base64Lib.encodeUrl data) = .ok data := by
  rw [fromBase64Url, Codec.fromBase64, Base64Lib.standard_encodeUrl, hcodec]
  rfl

end

/-! ### DID documents -/

structure DIDDocumentVerificationMethod where
  id : Bytes := []
  type : Bytes := []
  controller : Bytes := []
  publicKeyJwk : JsonWebKeyRSAPublic := {}
  deriving DecidableEq

def DIDDocumentVerificationMethod.fromJson (j : Json) (x : DIDDocumentVerificationMethod) :
    Result DIDDocumentVerificationMethod := do
  let id ← getString (← jsonAt j (text "id"))
  let type ← getString (← jsonAt j (text "type"))
  let controller ← getString (← jsonAt j (text "controller"))
  let publicKeyJwk ← x.publicKeyJwk.fromJson (← jsonAt j (text "publicKeyJwk"))
  pure ⟨id, type, controller, publicKeyJwk⟩

/-- The context of a document is not read. -/
structure DIDDocument where
  id : Bytes := []
  verificationMethod : List DIDDocumentVerificationMethod := []
  assertionMethod : Bytes := []
  deriving DecidableEq

/-- `get<std::vector<DIDDocumentVerificationMethod>>()` -/
def getMethods : Json → Result (List DIDDocumentVerificationMethod)
  | .array xs => xs.mapM fun x => DIDDocumentVerificationMethod.fromJson x {}
  | j => throw (typeError302 "array" j)

def DIDDocument.fromJson (j : Json) : Result DIDDocument := do
  let id ← getString (← jsonAt j (text "id"))
  let verificationMethod ← getMethods (← jsonAt j (text "verificationMethod"))
  let assertionMethod ← getString (← jsonAt j (text "assertionMethod"))
  pure ⟨id, verificationMethod, assertionMethod⟩

/-! ### What a document says -/

/-- A verification method with an RSA key: modulus and exponent are big-endian. -/
structure RsaMethod where
  id : Bytes
  type : Bytes
  controller : Bytes
  kty : Bytes
  modulus : Bytes
  exponent : Bytes
  deriving DecidableEq

/-- The types that are not refused; none of them changes how the key is read. -/
def knownTypes : List Bytes := [text "RSA", text "EC", text "OKP"]

structure HoldsMethod (j : Json) (m : RsaMethod) : Prop where
  id : jsonAt j (text "id") = .ok (.string m.id)
  type : jsonAt j (text "type") = .ok (.string m.type)
  controller : jsonAt j (text "controller") = .ok (.string m.controller)
  known : m.kty ∈ knownTypes
  key : ∃ jwk, jsonAt j (text "publicKeyJwk") = .ok jwk ∧
    jsonAt jwk (text "kty") = .ok (.string m.kty) ∧
    jsonAt jwk (text "n") = .ok (.string (Base64Lib.encodeUrl m.modulus)) ∧
    jsonAt jwk (text "e") = .ok (.string (Base64Lib.encodeUrl m.exponent))

/-- The document has these methods, in this order, and may have other members. -/
structure HoldsMethods (j : Json) (methods : List RsaMethod) : Prop where
  id : ∃ s, jsonAt j (text "id") = .ok (.string s)
  assertionMethod : ∃ s, jsonAt j (text "assertionMethod") = .ok (.string s)
  methods : ∃ xs, jsonAt j (text "verificationMethod") = .ok (.array xs) ∧
    List.Forall₂ HoldsMethod xs methods

theorem readKty_known (kty : Bytes) (old : JsonWebKeyType) (h : kty ∈ knownTypes) :
    ∃ t, readKty kty old = .ok t := by
  unfold readKty
  split
  · exact ⟨_, rfl⟩
  next hrsa =>
    split
    · exact ⟨_, rfl⟩
    next hec =>
      split
      · exact ⟨_, rfl⟩
      next hokp => simp [knownTypes, hrsa, hec, hokp] at h

/-- The method as it is read, with some type for its key. -/
def RsaMethod.IsRead (m : RsaMethod) (vm : DIDDocumentVerificationMethod) : Prop :=
  vm.controller = m.controller ∧ vm.publicKeyJwk.n = Base64Lib.encodeUrl m.modulus ∧
    vm.publicKeyJwk.e = Base64Lib.encodeUrl m.exponent

theorem HoldsMethod.read {j : Json} {m : RsaMethod} (h : HoldsMethod j m)
    (x : DIDDocumentVerificationMethod) : ∃ vm, x.fromJson j = .ok vm ∧ m.IsRead vm := by
  obtain ⟨jwk, hjwk, hkty, hn, he⟩ := h.key
  obtain ⟨t, ht⟩ := readKty_known m.kty x.publicKeyJwk.kty h.known
  refine ⟨⟨m.id, m.type, m.controller, ⟨t, _, _⟩⟩, ?_, rfl, rfl, rfl⟩
  rw [DIDDocumentVerificationMethod.fromJson, h.id, ok_bind, getString, pure_bind, h.type, ok_bind,
    getString, pure_bind, h.controller, ok_bind, getString, pure_bind, hjwk, ok_bind,
    JsonWebKeyRSAPublic.fromJson, hkty, ok_bind, getString, pure_bind, ht, ok_bind, hn, ok_bind,
    getString, pure_bind, he, ok_bind, getString, pure_bind, pure_bind]
  rfl

theorem getMethods_read {xs : List Json} {methods : List RsaMethod}
    (h : List.Forall₂ HoldsMethod xs methods) :
    ∃ vms, getMethods (.array xs) = .ok vms ∧ List.Forall₂ RsaMethod.IsRead methods vms := by
  induction h with
  | nil => exact ⟨[], rfl, .nil⟩
  | cons hx _ ih =>
    obtain ⟨vm, hvm, hread⟩ := hx.read {}
    obtain ⟨vms, hvms, hreads⟩ := ih
    refine ⟨vm :: vms, ?_, .cons hread hreads⟩
    rw [getMethods] at hvms ⊢
    rw [List.mapM_cons, hvm, ok_bind, hvms, ok_bind]
    rfl

theorem HoldsMethods.read {j : Json} {methods : List RsaMethod} (h : HoldsMethods j methods) :
    ∃ doc, DIDDocument.fromJson j = .ok doc ∧
      List.Forall₂ RsaMethod.IsRead methods doc.verificationMethod := by
  obtain ⟨id, hid⟩ := h.id
  obtain ⟨assertion, hassertion⟩ := h.assertionMethod
  obtain ⟨xs, hxs, hmethods⟩ := h.methods
  obtain ⟨vms, hvms, hreads⟩ := getMethods_read hmethods
  refine ⟨⟨id, vms, assertion⟩, ?_, hreads⟩
  rw [DIDDocument.fromJson, hid, ok_bind, getString, pure_bind, hxs, ok_bind, hvms, ok_bind,
    hassertion, ok_bind, getString, pure_bind]
  rfl

/-- The first method with this controller is found under it, and is read with its own key. -/
theorem find_isRead {methods : List RsaMethod} {vms : List DIDDocumentVerificationMethod}
    (h : List.Forall₂ RsaMethod.IsRead methods vms) (did : Bytes) :
    Option.Rel RsaMethod.IsRead (methods.find? fun m => m.controller = did)
      (vms.find? fun vm => vm.controller = did) := by
  induction h with
  | nil => exact .none
  | cons hx _ ih =>
    rw [List.find?_cons, List.find?_cons, hx.1]
    split
    · exact .some hx
    · exact ih

theorem RsaMethod.IsRead.key_eq {m : RsaMethod} {vm : DIDDocumentVerificationMethod}
    (h : m.IsRead vm) {Pkey : Type} (codec : Codec) (rsaKey : ℕ → ℕ → Result Pkey)
    (hcodec : ReadsBase64 codec) :
    vm.publicKeyJwk.key codec rsaKey = rsaKey (beVal m.modulus) (beVal m.exponent) := by
  rw [JsonWebKeyRSAPublic.key, h.2.1, h.2.2, fromBase64Url_encodeUrl codec hcodec, ok_bind,
    fromBase64Url_encodeUrl codec hcodec, ok_bind]

end Ravl.Uvm
