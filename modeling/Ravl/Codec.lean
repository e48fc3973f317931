import Ravl.Json
import Ravl.Lib.Base64
import Ravl.Platforms

/-!
# Attestations as JSON and CBOR (attestation.cpp)

The writer sees an attestation as its base class, the reader builds an object of the class that
the source names. JSON carries the bytes in base64, CBOR as arrays of numbers.
-/

namespace Ravl
open ByteLib FallibleLib
open JsonText (Json insertMember lookup lookup_insertMember_self lookup_insertMember_other)

/-- What OpenSSL's base64 filter writes and reads (`none`: it reports an error), and the parts
of the JSON library that are not modelled: its writer and its CBOR codec, for values without
byte strings. -/
structure Codec where
  base64Write : Bytes → Option Bytes
  base64Read : Bytes → Option Bytes
  dump : Json → Result Bytes
  toCbor : Json → Bytes
  fromCbor : Bytes → Result Json

namespace Codec
variable (codec : Codec)

def toBase64 (data : Bytes) : Result Bytes :=
  orThrow (codec.base64Write data) (.exception "base64 encoding error")

def fromBase64 (b64 : Bytes) : Result Bytes :=
  orThrow (codec.base64Read b64) (.exception "base64 decoding error")

/-- `from_base64` undoes `to_base64`. -/
def InvertsBase64 : Prop := ∀ data, ∃ b64, codec.base64Write data = some b64 ∧
  codec.base64Read b64 = some data

/-- The text written for `j` is read as `j`. -/
def JsonRoundTrips (dbl : Doubles) (j : Json) : Prop :=
  ∃ s, codec.dump j = .ok s ∧ jsonParse dbl s = .ok j

def CborRoundTrips (j : Json) : Prop := codec.fromCbor (codec.toCbor j) = .ok j

end Codec

/-! ### The enumeration -/

def sourceTable : List (Source × Bytes) :=
  [(.sgx, text "sgx"), (.sevSnp, text "sevsnp"), (.openEnclave, text "openenclave"),
    (.aci, text "aci")]

/-- Where no pair fits, the library takes the first one. -/
def sourcePair (fits : Source × Bytes → Bool) : Source × Bytes :=
  (sourceTable.find? fits).getD (.sgx, text "sgx")

def sourceToJson (source : Source) : Json := .string (sourcePair fun pair => pair.1 = source).2

def sourceOfJson : Json → Source
  | .string s => (sourcePair fun pair => pair.2 = s).1
  | _ => (sourcePair fun _ => false).1

theorem sourceOfJson_toJson (source : Source) (h : source ≠ .unknown) :
    sourceOfJson (sourceToJson source) = source := by
  cases source with
  | unknown => exact absurd rfl h
  | _ => decide

/-! ### Writing -/

section
variable (codec : Codec) (dbl : Doubles)

def bytesToJson (base64 : Bool) (data : Bytes) : Result Json :=
  if base64 then do
    let b64 ← codec.toBase64 data
    pure (.string b64)
  else pure (.array (data.map fun b => .unsigned b.val))

def attestationJson (a : Attestation) (base64 : Bool) : Result Json := do
  let o := insertMember (text "source") (sourceToJson a.source) []
  let evidence ← bytesToJson codec base64 a.evidence
  let o := insertMember (text "evidence") evidence o
  if a.endorsements = [] then pure (.object o)
  else do
    let endorsements ← bytesToJson codec base64 a.endorsements
    pure (.object (insertMember (text "endorsements") endorsements o))

/-- `operator std::string()` -/
def Attestation.toText (a : Attestation) : Result Bytes := do
  let j ← attestationJson codec a true
  codec.dump j

def Attestation.cbor (a : Attestation) : Result Bytes := do
  let j ← attestationJson codec a false
  pure (codec.toCbor j)

/-! ### Reading -/

/-- `j.at(key)` -/
def jsonAt (j : Json) (key : Bytes) : Result Json :=
  match j with
  | .object o => orThrow (lookup key o)
      (.exception ("[json.exception.out_of_range.403] key '" ++ str key ++ "' not found"))
  | j => throw (.exception ("[json.exception.type_error.304] cannot use at() with " ++ typeName j))

/-- `get<std::vector<uint8_t>>()` -/
def getBytes : Json → Result Bytes
  | .array xs => xs.mapM fun x => do
    let n ← getUint dbl 8 x
    pure (Fin.ofNat 256 n)
  | j => throw (typeError302 "array" j)

def bytesOfJson (base64 : Bool) (j : Json) : Result Bytes :=
  if base64 then do
    let b64 ← getString j
    codec.fromBase64 b64
  else getBytes dbl j

/-- A member that may be missing -/
def optionalBytes (base64 : Bool) (j : Json) (key : Bytes) : Result Bytes :=
  match findKey j key with
  | none => pure []
  | some value => bytesOfJson codec dbl base64 value

def parsingFailed : Error → Error
  | .exception what => .exception ("attestation parsing failed: " ++ what)
  | .undefined what => .undefined what

def AttestationObject.parse (j : Json) (base64 : Bool) : Result AttestationObject :=
  rethrow parsingFailed do
    let source ← jsonAt j (text "source")
    let evidence ← jsonAt j (text "evidence")
    let evidence ← bytesOfJson codec dbl base64 evidence
    let endorsements ← optionalBytes codec dbl base64 j (text "endorsements")
    let uvmEndorsements ← optionalBytes codec dbl base64 j (text "uvm_endorsements")
    match sourceOfJson source with
    | .sgx => pure (.sgx evidence endorsements)
    | .sevSnp => pure (.sevSnp evidence endorsements)
    | .openEnclave => pure (.openEnclave { evidence := evidence, endorsements := endorsements })
    | .aci => pure (.aci evidence endorsements uvmEndorsements)
    | .unknown => throw (.exception "unsupported attestation source '255'")

/-- A text that is no JSON throws the library's own exception. -/
def parseAttestation (jsonString : Bytes) : Result AttestationObject := do
  let j ← jsonParse dbl jsonString
  AttestationObject.parse codec dbl j true

def parseAttestationCbor (cbor : Bytes) : Result AttestationObject := do
  let j ← codec.fromCbor cbor
  AttestationObject.parse codec dbl j false

end

/-! ### The two sides together -/

namespace AttestationObject

def base : AttestationObject → Attestation
  | sgx evidence endorsements => ⟨.sgx, evidence, endorsements⟩
  | sevSnp evidence endorsements => ⟨.sevSnp, evidence, endorsements⟩
  | openEnclave object => ⟨.openEnclave, object.evidence, object.endorsements⟩
  | aci evidence endorsements _ => ⟨.aci, evidence, endorsements⟩

/-- The member that ACI attestations have in addition -/
def uvmEndorsements : AttestationObject → Bytes
  | aci _ _ uvmEndorsements => uvmEndorsements
  | _ => []

/-- The same class, which the source tells, and the same fields -/
structure SameFields (a b : AttestationObject) : Prop where
  base : a.base = b.base
  uvmEndorsements : a.uvmEndorsements = b.uvmEndorsements

def written : AttestationObject → AttestationObject
  | openEnclave object =>
    openEnclave { evidence := object.evidence, endorsements := object.endorsements }
  | aci evidence endorsements _ => aci evidence endorsements []
  | a => a

theorem written_same_iff (a : AttestationObject) :
    SameFields a.written a ↔ a.uvmEndorsements = [] := by
  constructor
  · intro h
    have huvm := h.uvmEndorsements
    cases a with
    | aci evidence endorsements uvmEndorsements => exact huvm.symm
    | _ => rfl
  · intro h
    cases a with
    | aci evidence endorsements uvmEndorsements =>
      cases h
      exact ⟨rfl, rfl⟩
    | _ => exact ⟨rfl, rfl⟩

end AttestationObject

section
variable {codec : Codec} {dbl : Doubles}

theorem getUint_byte (b : Byte) : getUint dbl 8 (.unsigned b.val) = .ok b.val := by
  have hmod : b.val % 2 ^ 8 = b.val := Nat.mod_eq_of_lt b.isLt
  show pure (b.val % 2 ^ 8) = _
  rw [hmod]
  rfl

theorem getBytes_array (data : Bytes) :
    getBytes dbl (.array (data.map fun b => .unsigned b.val)) = .ok data := by
  unfold getBytes
  dsimp only
  induction data with
  | nil => rfl
  | cons b data ih =>
    rw [List.map_cons, List.mapM_cons, ih, getUint_byte]
    exact congrArg (fun c => Except.ok (c :: data)) (Fin.ofNat_val_eq_self b)

variable (dbl) in
theorem bytesOfJson_toJson (hbase64 : codec.InvertsBase64) (base64 : Bool) (data : Bytes) :
    ∃ j, bytesToJson codec base64 data = .ok j ∧ bytesOfJson codec dbl base64 j = .ok data := by
  cases base64 with
  | true =>
    obtain ⟨b64, hwrite, hread⟩ := hbase64 data
    refine ⟨.string b64, ?_, ?_⟩
    · rw [bytesToJson, if_pos rfl, Codec.toBase64, hwrite]
      rfl
    · rw [bytesOfJson, if_pos rfl, getString]
      exact (orThrow_ok _ _ _).2 hread
  | false => exact ⟨_, rfl, getBytes_array data⟩

theorem base_source (a : AttestationObject) : a.base.source ≠ .unknown := by
  cases a <;> exact Source.noConfusion

theorem parse_members (a : AttestationObject) (base64 : Bool) (o : List (Bytes × Json))
    (evidence : Json) (hsource : lookup (text "source") o = some (sourceToJson a.base.source))
    (hevidence : lookup (text "evidence") o = some evidence)
    (hbytes : bytesOfJson codec dbl base64 evidence = .ok a.base.evidence)
    (hendorsements : optionalBytes codec dbl base64 (.object o) (text "endorsements") =
      .ok a.base.endorsements)
    (huvm : lookup (text "uvm_endorsements") o = none) :
    AttestationObject.parse codec dbl (.object o) base64 = .ok a.written := by
  have hsourceAt : jsonAt (.object o) (text "source") = .ok (sourceToJson a.base.source) :=
    (orThrow_ok _ _ _).2 hsource
  have hevidenceAt : jsonAt (.object o) (text "evidence") = .ok evidence :=
    (orThrow_ok _ _ _).2 hevidence
  have huvmBytes : optionalBytes codec dbl base64 (.object o) (text "uvm_endorsements") = .ok [] := by
    rw [optionalBytes, findKey, huvm]
    rfl
  rw [AttestationObject.parse, rethrow_ok]
  simp only [bind_ok]
  refine ⟨_, hsourceAt, _, hevidenceAt, _, hbytes, _, hendorsements, _, huvmBytes, ?_⟩
  rw [sourceOfJson_toJson _ (base_source a)]
  cases a <;> rfl

variable (dbl) in
theorem parse_attestationJson (hbase64 : codec.InvertsBase64) (a : AttestationObject)
    (base64 : Bool) : ∃ j, attestationJson codec a.base base64 = .ok j ∧
      AttestationObject.parse codec dbl j base64 = .ok a.written := by
  obtain ⟨evidence, hevidence, hevidence'⟩ :=
    bytesOfJson_toJson dbl hbase64 base64 a.base.evidence
  obtain ⟨endorsements, hendorsements, hendorsements'⟩ :=
    bytesOfJson_toJson dbl hbase64 base64 a.base.endorsements
  let o := insertMember (text "evidence") evidence
    (insertMember (text "source") (sourceToJson a.base.source) [])
  have hsourceMember : lookup (text "source") o = some (sourceToJson a.base.source) := by
    rw [lookup_insertMember_other _ _ _ _ (by decide), lookup_insertMember_self]
  have hevidenceMember : lookup (text "evidence") o = some evidence :=
    lookup_insertMember_self _ _ _
  have hnoOther (key : Bytes) (hs : text "source" ≠ key) (he : text "evidence" ≠ key) :
      lookup key o = none := by
    rw [lookup_insertMember_other _ _ _ _ he, lookup_insertMember_other _ _ _ _ hs, lookup]
  by_cases hempty : a.base.endorsements = []
  · refine ⟨.object o, ?_, ?_⟩
    · rw [attestationJson, hevidence]
      exact if_pos hempty
    · refine parse_members a base64 o evidence hsourceMember hevidenceMember hevidence' ?_
        (hnoOther _ (by decide) (by decide))
      rw [optionalBytes, findKey, hnoOther _ (by decide) (by decide), hempty]
      rfl
  · refine ⟨.object (insertMember (text "endorsements") endorsements o), ?_, ?_⟩
    · rw [attestationJson, hevidence, hendorsements]
      exact if_neg hempty
    · have hold (key : Bytes) (hne : text "endorsements" ≠ key) :
          lookup key (insertMember (text "endorsements") endorsements o) = lookup key o :=
        lookup_insertMember_other _ _ _ _ hne
      refine parse_members a base64 _ evidence ?_ ?_ hevidence' ?_ ?_
      · rw [hold _ (by decide), hsourceMember]
      · rw [hold _ (by decide), hevidenceMember]
      · rw [optionalBytes, findKey, lookup_insertMember_self]
        exact hendorsements'
      · rw [hold _ (by decide), hnoOther _ (by decide) (by decide)]

theorem parseAttestation_toText (a : AttestationObject) (hbase64 : codec.InvertsBase64)
    (hjson : ∀ j, attestationJson codec a.base true = .ok j → codec.JsonRoundTrips dbl j) :
    ∃ s, a.base.toText codec = .ok s ∧ parseAttestation codec dbl s = .ok a.written := by
  obtain ⟨j, hj, hparse⟩ := parse_attestationJson dbl hbase64 a true
  obtain ⟨s, hdump, hread⟩ := hjson j hj
  refine ⟨s, ?_, ?_⟩
  · rw [Attestation.toText, hj]
    exact hdump
  · rw [parseAttestation, hread]
    exact hparse

variable (dbl) in
theorem parseAttestationCbor_cbor (a : AttestationObject) (hbase64 : codec.InvertsBase64)
    (hcbor : ∀ j, attestationJson codec a.base false = .ok j → codec.CborRoundTrips j) :
    ∃ s, a.base.cbor codec = .ok s ∧ parseAttestationCbor codec dbl s = .ok a.written := by
  obtain ⟨j, hj, hparse⟩ := parse_attestationJson dbl hbase64 a false
  refine ⟨codec.toCbor j, ?_, ?_⟩
  · rw [Attestation.cbor, hj]
    rfl
  · rw [parseAttestationCbor, hcbor j hj]
    exact hparse

/-- Written as JSON and as CBOR and read again, the attestation is the same. -/
def AttestationObject.RoundTrips (codec : Codec) (dbl : Doubles) (a : AttestationObject) : Prop :=
  (∃ s b, a.base.toText codec = .ok s ∧ parseAttestation codec dbl s = .ok b ∧ b.SameFields a) ∧
  ∃ s b, a.base.cbor codec = .ok s ∧ parseAttestationCbor codec dbl s = .ok b ∧ b.SameFields a

theorem parse_attestation_round_trip_iff (a : AttestationObject) (hbase64 : codec.InvertsBase64)
    (hjson : ∀ j, attestationJson codec a.base true = .ok j → codec.JsonRoundTrips dbl j)
    (hcbor : ∀ j, attestationJson codec a.base false = .ok j → codec.CborRoundTrips j) :
    a.RoundTrips codec dbl ↔ a.uvmEndorsements = [] := by
  obtain ⟨s, hs, hparse⟩ := parseAttestation_toText a hbase64 hjson
  obtain ⟨t, ht, hparse'⟩ := parseAttestationCbor_cbor dbl a hbase64 hcbor
  rw [← a.written_same_iff]
  constructor
  · intro ⟨⟨s', b, hs', hb, hsame⟩, _⟩
    rw [hs] at hs'
    cases hs'
    rw [hparse] at hb
    cases hb
    exact hsame
  · intro hsame
    exact ⟨⟨s, a.written, hs, hparse, hsame⟩, t, a.written, ht, hparse', hsame⟩

end

def stringMembers : Json → Option (List (Bytes × Bytes))
  | .object o => o.mapM fun m => match m.2 with
    | .string s => some (m.1, s)
    | _ => none
  | _ => none

def ofStrings (members : List (Bytes × Bytes)) : Json := .object (members.map fun m => (m.1, .string m.2))

theorem stringMembers_some (j : Json) (members : List (Bytes × Bytes))
    (h : stringMembers j = some members) : j = ofStrings members := by
  unfold stringMembers at h
  split at h
  next o =>
    refine congrArg Json.object ?_
    induction o generalizing members with
    | nil =>
      cases h
      rfl
    | cons m o ih =>
      simp only [List.mapM_cons, Option.bind_eq_bind, Option.bind_eq_some_iff] at h
      obtain ⟨a, hm, rest, hrest, he⟩ := h
      cases he
      obtain ⟨k, v⟩ := m
      split at hm
      next s hv =>
        cases hm
        cases hv
        rw [List.map_cons, ← ih rest hrest]
      next => cases hm
  next => cases h

/-- A text is known to parse to an object of strings by evaluating this test. -/
theorem jsonParse_strings (dbl : Doubles) (s : Bytes) (members : List (Bytes × Bytes))
    (h : (JsonText.parse dbl.isFinite s).bind stringMembers = some members) :
    jsonParse dbl s = .ok (ofStrings members) := by
  obtain ⟨j, hj, hmembers⟩ := Option.bind_eq_some_iff.1 h
  rw [jsonParse, orThrow_ok, hj, stringMembers_some j members hmembers]

/-- A base64 filter, with a JSON library that knows one value: its text and its CBOR data. -/
def oneValueCodec (s cbor : Bytes) (j : Json) : Codec where
  base64Write data := some (Base64Lib.encode data)
  base64Read := Base64Lib.decode
  dump _ := .ok s
  toCbor _ := cbor
  fromCbor _ := .ok j

theorem oneValueCodec_invertsBase64 (s cbor : Bytes) (j : Json) :
    (oneValueCodec s cbor j).InvertsBase64 :=
  fun data => ⟨_, rfl, Base64Lib.decode_encode data⟩

def aciText : Bytes :=
  text "\x7b\"evidence\":\"AQID\",\"source\":\"aci\"\x7d"

def aciCodec : Codec := oneValueCodec aciText
  ([0xA2, 0x68] ++ text "evidence" ++ [0x83, 1, 2, 3, 0x66] ++ text "source" ++ [0x63] ++ text "aci")
  (.object [(text "evidence", .array [.unsigned 1, .unsigned 2, .unsigned 3]),
    (text "source", .string (text "aci"))])

def aciBase : Attestation := ⟨.aci, [1, 2, 3], []⟩

theorem aciCodec_json (j : Json) (h : attestationJson aciCodec aciBase true = .ok j) :
    aciCodec.JsonRoundTrips plainHost.doubles j := by
  have hparsed : jsonParse plainHost.doubles aciText =
      .ok (ofStrings [(text "evidence", text "AQID"), (text "source", text "aci")]) :=
    jsonParse_strings _ _ _ (by decide +kernel)
  cases h
  exact ⟨_, rfl, hparsed⟩

theorem aciCodec_cbor (j : Json) (h : attestationJson aciCodec aciBase false = .ok j) :
    aciCodec.CborRoundTrips j := by
  cases h
  rfl

/-- One without UVM endorsements comes back, and the same one with them does not. -/
theorem parse_attestation_round_trip_iff_sample :
    (AttestationObject.aci [1, 2, 3] [] []).RoundTrips aciCodec plainHost.doubles ∧
      ¬ (AttestationObject.aci [1, 2, 3] [] [4]).RoundTrips aciCodec plainHost.doubles := by
  have hbase64 : aciCodec.InvertsBase64 := oneValueCodec_invertsBase64 _ _ _
  have hkept := parse_attestation_round_trip_iff (.aci [1, 2, 3] [] []) hbase64 aciCodec_json aciCodec_cbor
  have hlost := parse_attestation_round_trip_iff (.aci [1, 2, 3] [] [4]) hbase64 aciCodec_json aciCodec_cbor
  exact ⟨hkept.2 rfl, fun h => List.cons_ne_nil 4 [] (hlost.1 h)⟩

theorem uvm_endorsements_lost :
    ¬ ∀ (codec : Codec) (dbl : Doubles) (a : AttestationObject), codec.InvertsBase64 →
      (∀ j, attestationJson codec a.base true = .ok j → codec.JsonRoundTrips dbl j) →
      (∀ j, attestationJson codec a.base false = .ok j → codec.CborRoundTrips j) →
        a.RoundTrips codec dbl := by
  intro h
  have hbase64 : aciCodec.InvertsBase64 := oneValueCodec_invertsBase64 _ _ _
  obtain ⟨⟨s, b, hs, hb, hsame⟩, -⟩ :=
    h aciCodec plainHost.doubles (.aci [1, 2, 3] [] [4]) hbase64 aciCodec_json aciCodec_cbor
  obtain ⟨s', hs', hparse⟩ := parseAttestation_toText (.aci [1, 2, 3] [] [4]) hbase64 aciCodec_json
  rw [hs'] at hs
  cases hs
  rw [hparse] at hb
  cases hb
  cases hsame.uvmEndorsements

end Ravl
