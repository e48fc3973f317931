import Ravl.SevSnp.Soundness
import Ravl.Uvm.Verify

/-!
# Soundness of ACI attestations

The SEV/SNP report is accepted, and the measurement in its signed part is one that an issuer among
the roots stands for with a signature of its own.
-/

namespace Ravl.Uvm
open ByteLib FallibleLib
open JsonText (Json)

section
variable {X509 Crl Pkey RsaKey Ctx : Type} (ssl : OpenSsl X509 Crl Pkey) (host : Host)
  (lib : Libraries RsaKey Ctx) (roots : List UVMEndorsements)

/-- The part of a report that the VCEK signs -/
def signedPart (evidence : Bytes) : Bytes := evidence.take (evidence.length - 512)

theorem measurement_signed (evidence : Bytes) (hlen : 816 ≤ evidence.length) :
    sub (signedPart evidence) 144 48 = sub evidence 144 48 :=
  sub_take evidence _ 144 48 (by omega)

theorem verifyAci_ok_iff (evidence endorsements uvmEndorsements : Bytes) (options : Options)
    (httpResponses : Option HTTPResponses) (claims : SevSnp.Claims) :
    verifyAci (platform ssl lib roots host) evidence endorsements uvmEndorsements options
        httpResponses = .ok claims ↔
      SevSnp.verify ssl host ⟨.aci, evidence, endorsements⟩ options httpResponses = .ok claims ∧
        ∃ e, Endorsed ssl lib roots uvmEndorsements claims.measurement e := by
  simp only [verifyAci, platform, bind_ok, pure_ok, verifyUvmEndorsements_ok_iff]
  constructor
  · intro h
    obtain ⟨c, hc, _, ⟨e, he, -⟩, rfl⟩ := h
    exact ⟨hc, e, he⟩
  · intro h
    obtain ⟨hc, e, he⟩ := h
    exact ⟨claims, hc, (), ⟨e, he, trivial⟩, rfl⟩

theorem verifyAci_attested (evidence endorsements uvmEndorsements : Bytes) (options : Options)
    (httpResponses : Option HTTPResponses) (claims : SevSnp.Claims) (hlen : 816 ≤ evidence.length)
    (h : verifyAci (platform ssl lib roots host) evidence endorsements uvmEndorsements options
      httpResponses = .ok claims) :
    SevSnp.Accepted ssl ⟨.aci, evidence, endorsements⟩ options httpResponses ∧
      SevSnp.Decoded evidence claims ∧
      ∃ e, Endorsed ssl lib roots uvmEndorsements (sub (signedPart evidence) 144 48) e := by
  obtain ⟨hverify, e, he⟩ := (verifyAci_ok_iff ssl host lib roots _ _ _ _ _ claims).1 h
  obtain ⟨haccepted, hdecoded⟩ := SevSnp.verify_attested ssl host ⟨.aci, evidence, endorsements⟩
    options httpResponses claims hlen hverify
  rw [hdecoded.measurement] at he
  rw [measurement_signed evidence hlen]
  exact ⟨haccepted, hdecoded, e, he⟩

/-- Claims are returned exactly when both parties vouch for the measurement. -/
theorem aci_verified_iff (evidence endorsements uvmEndorsements : Bytes) (options : Options)
    (httpResponses : Option HTTPResponses) (hlen : 816 ≤ evidence.length) :
    ((∃ claims, verifyAci (platform ssl lib roots host) evidence endorsements uvmEndorsements options
        httpResponses = .ok claims) ↔
      SevSnp.Accepted ssl ⟨.aci, evidence, endorsements⟩ options httpResponses ∧
        ∃ e, Endorsed ssl lib roots uvmEndorsements (sub (signedPart evidence) 144 48) e) ∧
    ∀ claims, verifyAci (platform ssl lib roots host) evidence endorsements uvmEndorsements options
      httpResponses = .ok claims → SevSnp.Decoded evidence claims := by
  refine ⟨⟨?_, ?_⟩, ?_⟩
  · intro hparts
    obtain ⟨claims, h⟩ := hparts
    obtain ⟨haccepted, -, hendorsed⟩ := verifyAci_attested ssl host lib roots _ _ _ _ _ claims hlen h
    exact ⟨haccepted, hendorsed⟩
  · intro hparts
    obtain ⟨haccepted, e, he⟩ := hparts
    obtain ⟨claims, hclaims⟩ := SevSnp.verify_complete ssl host _ options httpResponses hlen haccepted
    have hdecoded := (SevSnp.verify_attested ssl host _ options httpResponses claims hlen hclaims).2
    rw [measurement_signed evidence hlen, ← hdecoded.measurement] at he
    exact ⟨claims, (verifyAci_ok_iff ssl host lib roots _ _ _ _ _ claims).2 ⟨hclaims, e, he⟩⟩
  · intro claims h
    exact (verifyAci_attested ssl host lib roots _ _ _ _ _ claims hlen h).2.1

end

/-! ### A container that is accepted -/

def sampleDid : Bytes := (containerRoot "0").did
def sampleFeed : Bytes := (containerRoot "0").feed

def cborHead (major n : ℕ) : Bytes :=
  if n < 24 then [Fin.ofNat 256 (32 * major + n)]
  else if n < 256 then [Fin.ofNat 256 (32 * major + 24), Fin.ofNat 256 n]
  else [Fin.ofNat 256 (32 * major + 25), Fin.ofNat 256 (n / 256), Fin.ofNat 256 n]

def cborBytes (s : Bytes) : Bytes := cborHead 2 s.length ++ s
def cborText (s : Bytes) : Bytes := cborHead 3 s.length ++ s

/-- PS256, the content type, two certificates, the issuer and the feed -/
def sampleHeader : Bytes :=
  cborHead 5 5 ++ cborHead 0 1 ++ cborHead 1 36 ++
    cborHead 0 3 ++ cborText contentTypeApplicationJsonValue ++
    cborHead 0 33 ++ cborHead 4 2 ++ cborBytes (text "leaf") ++ cborBytes (text "root") ++
    cborText headerParamIssuer ++ cborText sampleDid ++ cborText headerParamFeed ++ cborText sampleFeed

def samplePayload : Bytes :=
  text "\x7b\"x-ms-sevsnpvm-guestsvn\":\"100\",\"x-ms-sevsnpvm-launchmeasurement\":\"" ++
    toHex (List.replicate 48 0) ++ text "\"\x7d"

def sampleMessage : Bytes :=
  cborHead 6 18 ++ cborHead 4 4 ++ cborBytes sampleHeader ++ cborHead 5 0 ++
    cborBytes samplePayload ++ cborBytes (text "signature")

def sampleItems : ℕ → QcborItem
  | 0 => { dataType := qcborTypeInt64, int64 := -37 }
  | 1 => { dataType := qcborTypeTextString, string := contentTypeApplicationJsonValue }
  | 2 => { dataType := qcborTypeArray }
  | 3 => { dataType := qcborTypeTextString, string := sampleDid }
  | 4 => { dataType := qcborTypeTextString, string := sampleFeed }
  | _ => { dataType := qcborTypeNone }

def nextCertificate : List Bytes → NextItem × List Bytes
  | [] => (.noMoreItems, [])
  | c :: cs => (.item { dataType := qcborTypeByteString, string := c }, cs)

theorem nextCertificate_remaining (ctx : List Bytes) (i : QcborItem) (ctx' : List Bytes)
    (h : nextCertificate ctx = (.item i, ctx')) : ctx'.length < ctx.length := by
  cases ctx with
  | nil => simp [nextCertificate] at h
  | cons c cs =>
    simp only [nextCertificate, Prod.mk.injEq] at h
    rw [← h.2]
    exact Nat.lt_succ_self _

/-- The decoder on the message; the context is the certificates that are left. -/
def sampleQcbor : Qcbor (List Bytes) where
  init _ := [text "leaf", text "root"]
  enterArray := id
  nthTagOfLast _ _ := cborTagCoseSign1
  enterBstrWrapped := id
  enterMap := id
  getItemsInMap ctx _ := (sampleItems, ctx)
  enterArrayFromMapN ctx _ := ctx
  getNext := nextCertificate
  exitArray := id
  exitMap := id
  exitBstrWrapped := id
  failed _ := false
  remaining := List.length
  getNext_remaining := nextCertificate_remaining

def sampleDocument (did : Bytes) : Bytes :=
  text "\x7b\"id\":\"doc\",\"assertionMethod\":\"#key\",\"verificationMethod\":[\x7b\"id\":\"#key\"," ++
    text "\"type\":\"JsonWebKey2020\",\"controller\":\"" ++ did ++
    text "\",\"publicKeyJwk\":\x7b\"kty\":\"RSA\",\"n\":\"-_8\",\"e\":\"AQAB\"\x7d\x7d]\x7d"

/-- The library accepts one message under one key. -/
def sampleLibraries : Libraries (ℕ × ℕ) (List Bytes) where
  qcbor := sampleQcbor
  codec := {
    base64Write := some
    base64Read := Base64Lib.decode
    dump _ := pure []
    toCbor _ := []
    fromCbor _ := pure .null }
  doubles := plainHost.doubles
  resolve _ did := pure (sampleDocument did)
  rsaKey n e := pure (n, e)
  sign1Verify key raw := if key = (0xFBFF, 0x10001) ∧ raw = sampleMessage then some samplePayload else none

def sampleEndorsements : UVMEndorsements := { containerRoot "0" with svn := text "100" }

theorem sampleMessage_endorsed : verifyUvmEndorsements OpenSsl.lenient sampleLibraries uvmRootsOfTrust sampleMessage
    (List.replicate 48 0) = .ok sampleEndorsements := by
  decide +kernel

def sampleContainer : Attestation :=
  ⟨.aci, SevSnp.fullReport, SevSnp.fullAttestation.endorsements⟩

theorem sampleContainer_length : 816 ≤ SevSnp.fullReport.length := by
  rw [SevSnp.fullReport_length]
  decide

theorem sampleContainer_endorsed : Endorsed OpenSsl.lenient sampleLibraries uvmRootsOfTrust sampleMessage
    (sub (signedPart SevSnp.fullReport) 144 48) sampleEndorsements := by
  have hmeasurement : sub (signedPart SevSnp.fullReport) 144 48 = List.replicate 48 0 := by
    decide +kernel
  rw [hmeasurement]
  exact (verifyUvmEndorsements_ok_iff _ _ _ _ _ _).1 sampleMessage_endorsed

theorem sampleContainer_verified (httpResponses : Option HTTPResponses) : ∃ claims,
    SevSnp.verify OpenSsl.lenient plainHost sampleContainer {} httpResponses = .ok claims := by
  have hprepare : SevSnp.prepareEndorsements OpenSsl.lenient plainHost sampleContainer {} = .ok none := by
    decide +kernel
  have hnone := SevSnp.verifyRun_no_requests OpenSsl.lenient plainHost sampleContainer {}
    httpResponses none hprepare
  rw [SevSnp.verify, hnone]
  exact ok_of_isSome (by decide +kernel)

theorem sampleContainer_accepted : SevSnp.Accepted OpenSsl.lenient sampleContainer {} none := by
  obtain ⟨claims, hclaims⟩ := sampleContainer_verified none
  exact (SevSnp.verify_attested OpenSsl.lenient plainHost sampleContainer {} none claims
    sampleContainer_length hclaims).1

theorem aci_verified_sample : ∃ claims, verifyAci
    (platform OpenSsl.lenient sampleLibraries uvmRootsOfTrust plainHost) SevSnp.fullReport
    SevSnp.fullAttestation.endorsements sampleMessage {} none = .ok claims :=
  (aci_verified_iff OpenSsl.lenient plainHost sampleLibraries uvmRootsOfTrust SevSnp.fullReport
    SevSnp.fullAttestation.endorsements sampleMessage {} none sampleContainer_length).1.2
      ⟨sampleContainer_accepted, _, sampleContainer_endorsed⟩

/-! ### The key of an issuer -/

section
variable {RsaKey Ctx : Type} (lib : Libraries RsaKey Ctx)

/-- From the text of a document to the key the message is checked with. -/
def documentKey (did didDocumentStr : Bytes) : Result RsaKey := do
  let didDocument ← readDocument lib didDocumentStr
  let pubk ← findKey did didDocumentStr didDocument
  pubk.key lib.codec lib.rsaKey

theorem issuerKey_iff_documentKey {X509 Crl Pkey : Type} (ssl : OpenSsl X509 Crl Pkey)
    (phdr : UvmEndorsementsProtectedHeader) (key : RsaKey) :
    IssuerKey ssl lib phdr key ↔ ∃ chain, pemChain ssl phdr.x5Chain = .ok chain ∧
      ∃ s, lib.resolve chain phdr.iss = .ok s ∧ documentKey lib phdr.iss s = .ok key := by
  simp only [issuerKey_iff, documentKey, bind_ok]

/-- The message is checked with the key of the first method that names the issuer as its
controller, whatever type that key claims to have. -/
theorem documentKey_first (hcodec : ReadsBase64 lib.codec) (did s : Bytes) (j : Json)
    (hparse : jsonParse lib.doubles s = .ok j) (methods : List RsaMethod)
    (hmethods : HoldsMethods j methods) :
    (∀ m ∈ methods.find? fun m => m.controller = did,
      documentKey lib did s = lib.rsaKey (beVal m.modulus) (beVal m.exponent)) ∧
    ((∀ m ∈ methods, m.controller ≠ did) → ∃ what, documentKey lib did s = .error (.exception what)) := by
  obtain ⟨doc, hdoc, hreads⟩ := hmethods.read
  have hread : readDocument lib s = .ok doc := by rw [readDocument, hparse, ok_bind, hdoc]
  have hfind := find_isRead hreads did
  rw [documentKey, hread, ok_bind]
  refine ⟨fun m hm => ?_, fun hnone => ?_⟩
  · rw [Option.mem_def.1 hm] at hfind
    cases hvm : doc.verificationMethod.find? fun vm => vm.controller = did with
    | none =>
      rw [hvm] at hfind
      cases hfind
    | some vm =>
      rw [hvm] at hfind
      cases hfind with
      | some hisRead =>
        have hkey : findKey did s doc = .ok vm.publicKeyJwk := by
          simp only [findKey, bind_ok, refuse_ok, orThrow_ok, pure_ok]
          refine ⟨(), fun hempty => ?_, vm, hvm, rfl⟩
          rw [hempty] at hvm
          cases hvm
        rw [hkey, ok_bind, hisRead.key_eq lib.codec lib.rsaKey hcodec]
  · have hmiss : methods.find? (fun m => decide (m.controller = did)) = none := by
      simpa [List.find?_eq_none] using hnone
    rw [hmiss] at hfind
    cases hvm : doc.verificationMethod.find? fun vm => vm.controller = did with
    | some vm =>
      rw [hvm] at hfind
      cases hfind
    | none =>
      unfold findKey
      rw [hvm]
      by_cases hempty : doc.verificationMethod = []
      · exact ⟨_, by rw [refuse, if_pos hempty]; rfl⟩
      · exact ⟨_, by rw [refuse_of_not hempty]; rfl⟩

end

def sampleMethod : RsaMethod where
  id := text "#key"
  type := text "JsonWebKey2020"
  controller := sampleDid
  kty := text "RSA"
  modulus := [0xFB, 0xFF]
  exponent := [1, 0, 1]

def sampleJwk : Json := .object [(text "e", .string (text "AQAB")), (text "kty", .string (text "RSA")),
  (text "n", .string (text "-_8"))]

def sampleMethodJson : Json := .object [(text "controller", .string sampleDid),
  (text "id", .string (text "#key")), (text "publicKeyJwk", sampleJwk),
  (text "type", .string (text "JsonWebKey2020"))]

def sampleDocumentJson : Json := .object [(text "assertionMethod", .string (text "#key")),
  (text "id", .string (text "doc")), (text "verificationMethod", .array [sampleMethodJson])]

theorem sampleDocument_parsed :
    jsonParse plainHost.doubles (sampleDocument sampleDid) = .ok sampleDocumentJson := by
  have hsame : ((jsonParse plainHost.doubles (sampleDocument sampleDid)).toOption.map
      (JsonText.same sampleDocumentJson)) = some true := by decide +kernel
  cases hj : jsonParse plainHost.doubles (sampleDocument sampleDid) with
  | error e =>
    rw [hj] at hsame
    cases hsame
  | ok j =>
    rw [hj] at hsame
    rw [JsonText.eq_of_same _ _ (Option.some.inj hsame)]

theorem sampleDocument_holds : HoldsMethods sampleDocumentJson [sampleMethod] where
  id := ⟨_, rfl⟩
  assertionMethod := ⟨_, rfl⟩
  methods := ⟨[sampleMethodJson], rfl, .cons ⟨rfl, rfl, rfl, List.mem_cons_self ..,
    ⟨sampleJwk, rfl, rfl, rfl, rfl⟩⟩ .nil⟩

theorem documentKey_first_sample :
    documentKey sampleLibraries sampleDid (sampleDocument sampleDid) = .ok (0xFBFF, 0x10001) := by
  have hkey := (documentKey_first sampleLibraries Base64Lib.decode_encode sampleDid
    (sampleDocument sampleDid) sampleDocumentJson sampleDocument_parsed [sampleMethod]
    sampleDocument_holds).1 sampleMethod (by decide +kernel)
  rw [hkey]
  rfl

end Ravl.Uvm
