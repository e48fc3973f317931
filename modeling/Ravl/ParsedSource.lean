import Ravl.Codec

/-!
# Which class is parsed (attestation.cpp:17-24, 56-117)

`parse` looks at the source only after the library has converted it to the enumeration, and the
library takes its first pair for whatever fits none.
-/

namespace Ravl
open ByteLib FallibleLib
open JsonText (Json lookup)

/-- The four kinds of attestation and their constructors, by the string that names them -/
def classOf (s : Bytes) : Option (Bytes → Bytes → Bytes → AttestationObject) :=
  if s = text "sgx" then some fun evidence endorsements _ => .sgx evidence endorsements
  else if s = text "sevsnp" then some fun evidence endorsements _ => .sevSnp evidence endorsements
  else if s = text "openenclave" then
    some fun evidence endorsements _ =>
      .openEnclave { evidence := evidence, endorsements := endorsements }
  else if s = text "aci" then some .aci
  else none

/-- One of the four strings -/
def KnownSource (source : Json) : Prop := ∃ s, source = .string s ∧ (classOf s).isSome = true

section
variable (codec : Codec) (dbl : Doubles)

/-- The members of `j` as bytes; the evidence has to be there. -/
structure Members (base64 : Bool) (j : Json) (evidence endorsements uvmEndorsements : Bytes) :
    Prop where
  evidence : ∃ value, findKey j (text "evidence") = some value ∧
    bytesOfJson codec dbl base64 value = .ok evidence
  endorsements : optionalBytes codec dbl base64 j (text "endorsements") = .ok endorsements
  uvmEndorsements : optionalBytes codec dbl base64 j (text "uvm_endorsements") = .ok uvmEndorsements

/-- What is returned has the class that the source names and the decoded members; a source that
names no class is rejected. -/
structure RightlyParsed (j : Json) (base64 : Bool) : Prop where
  accepted : ∀ object, AttestationObject.parse codec dbl j base64 = .ok object →
    ∃ s make evidence endorsements uvmEndorsements,
      findKey j (text "source") = some (.string s) ∧ classOf s = some make ∧
      Members codec dbl base64 j evidence endorsements uvmEndorsements ∧
      object = make evidence endorsements uvmEndorsements
  rejected : ∀ source, findKey j (text "source") = some source → ¬ KnownSource source →
    ∃ what, AttestationObject.parse codec dbl j base64 = .error (.exception what)

/-- The `switch` -/
def objectOf (source : Source) (evidence endorsements uvmEndorsements : Bytes) :
    Result AttestationObject :=
  match source with
  | .sgx => pure (.sgx evidence endorsements)
  | .sevSnp => pure (.sevSnp evidence endorsements)
  | .openEnclave => pure (.openEnclave { evidence := evidence, endorsements := endorsements })
  | .aci => pure (.aci evidence endorsements uvmEndorsements)
  | .unknown => throw (.exception "unsupported attestation source '255'")

variable {codec dbl}

theorem jsonAt_ok (j : Json) (key : Bytes) (value : Json) :
    jsonAt j key = .ok value ↔ findKey j key = some value := by
  cases j with
  | object o => exact orThrow_ok _ _ _
  | _ => exact ⟨nofun, nofun⟩

theorem parse_ok_iff (j : Json) (base64 : Bool) (object : AttestationObject) :
    AttestationObject.parse codec dbl j base64 = .ok object ↔
      ∃ source evidence endorsements uvmEndorsements, findKey j (text "source") = some source ∧
        Members codec dbl base64 j evidence endorsements uvmEndorsements ∧
        objectOf (sourceOfJson source) evidence endorsements uvmEndorsements = .ok object := by
  rw [AttestationObject.parse, rethrow_ok]
  simp only [bind_ok, jsonAt_ok]
  constructor
  · rintro ⟨source, hsource, value, hvalue, evidence, hevidence, endorsements, hendorsements,
      uvmEndorsements, huvm, hobject⟩
    exact ⟨source, evidence, endorsements, uvmEndorsements, hsource,
      ⟨⟨value, hvalue, hevidence⟩, hendorsements, huvm⟩, hobject⟩
  · rintro ⟨source, evidence, endorsements, uvmEndorsements, hsource, hmembers, hobject⟩
    obtain ⟨value, hvalue, hevidence⟩ := hmembers.evidence
    exact ⟨source, hsource, value, hvalue, evidence, hevidence, endorsements,
      hmembers.endorsements, uvmEndorsements, hmembers.uvmEndorsements, hobject⟩

/-! ### No outcome is undefined -/

theorem jsonAt_fails (j : Json) (key : Bytes) : FailsWith Thrown (jsonAt j key) := by
  cases j with
  | object o => exact FailsWith.orThrow (thrown _)
  | _ => exact FailsWith.throw (thrown _)

theorem getBytes_fails (j : Json) : FailsWith Thrown (getBytes dbl j) := by
  cases j with
  | array xs =>
    refine FailsWith.mapM (fun x => ?_) xs
    exact FailsWith.bind (getUint_fails dbl 8 x) fun _ _ => FailsWith.pure _ _
  | _ => exact FailsWith.throw (thrown _)

theorem bytesOfJson_fails (base64 : Bool) (j : Json) :
    FailsWith Thrown (bytesOfJson codec dbl base64 j) := by
  cases base64 with
  | true => exact FailsWith.bind (getString_fails j) fun _ _ => FailsWith.orThrow (thrown _)
  | false => exact getBytes_fails j

theorem optionalBytes_fails (base64 : Bool) (j : Json) (key : Bytes) :
    FailsWith Thrown (optionalBytes codec dbl base64 j key) := by
  unfold optionalBytes
  split
  · exact FailsWith.pure _ _
  · exact bytesOfJson_fails base64 _

theorem objectOf_fails (source : Source) (evidence endorsements uvmEndorsements : Bytes) :
    FailsWith Thrown (objectOf source evidence endorsements uvmEndorsements) := by
  cases source with
  | unknown => exact FailsWith.throw (thrown _)
  | _ => exact FailsWith.pure _ _

theorem parsingFailed_thrown (e : Error) : Thrown (parsingFailed e) ↔ Thrown e := by
  cases e with
  | exception what => exact ⟨fun _ => thrown _, fun _ => thrown _⟩
  | undefined what => exact ⟨nofun, nofun⟩

theorem parse_fails (j : Json) (base64 : Bool) :
    FailsWith Thrown (AttestationObject.parse codec dbl j base64) := by
  refine (FailsWith.rethrow_iff parsingFailed_thrown _).2 ?_
  refine FailsWith.bind (jsonAt_fails j _) fun source _ => FailsWith.bind (jsonAt_fails j _) ?_
  intro value _
  refine FailsWith.bind (bytesOfJson_fails base64 value) fun evidence _ => ?_
  refine FailsWith.bind (optionalBytes_fails base64 j _) fun endorsements _ => ?_
  refine FailsWith.bind (optionalBytes_fails base64 j _) fun uvmEndorsements _ => ?_
  exact objectOf_fails (sourceOfJson source) evidence endorsements uvmEndorsements

/-! ### The conversion to the enumeration -/

theorem sourceOfJson_string (s : Bytes) : sourceOfJson (.string s) =
    if text "sgx" = s then .sgx else if text "sevsnp" = s then .sevSnp
    else if text "openenclave" = s then .openEnclave else if text "aci" = s then .aci else .sgx := by
  unfold sourceOfJson sourcePair sourceTable
  simp only [List.find?_cons, List.find?_nil]
  split_ifs <;> simp_all

theorem objectOf_known (s : Bytes) (make : Bytes → Bytes → Bytes → AttestationObject)
    (h : classOf s = some make) (evidence endorsements uvmEndorsements : Bytes) :
    objectOf (sourceOfJson (.string s)) evidence endorsements uvmEndorsements =
      .ok (make evidence endorsements uvmEndorsements) := by
  unfold classOf at h
  split_ifs at h <;> cases h <;> subst_vars <;> rfl

/-- The fallback: what names no class is taken for SGX. -/
theorem sourceOfJson_unknown (source : Json) (h : ¬ KnownSource source) :
    sourceOfJson source = .sgx := by
  cases source with
  | string s =>
    have hnone : classOf s = none := by
      cases hs : classOf s with
      | none => rfl
      | some make => exact absurd ⟨s, rfl, by rw [hs]; rfl⟩ h
    unfold classOf at hnone
    split_ifs at hnone with hsgx hsevSnp hopenEnclave haci
    rw [sourceOfJson_string, if_neg (Ne.symm hsgx), if_neg (Ne.symm hsevSnp),
      if_neg (Ne.symm hopenEnclave), if_neg (Ne.symm haci)]
  | _ => rfl

variable (codec dbl) in
theorem rightlyParsed_iff (j : Json) (base64 : Bool) : RightlyParsed codec dbl j base64 ↔
    ∀ source, findKey j (text "source") = some source → KnownSource source ∨
      ¬ ∃ evidence endorsements uvmEndorsements,
        Members codec dbl base64 j evidence endorsements uvmEndorsements := by
  constructor
  · intro h source hsource
    by_cases hknown : KnownSource source
    · exact Or.inl hknown
    refine Or.inr ?_
    rintro ⟨evidence, endorsements, uvmEndorsements, hmembers⟩
    obtain ⟨what, hwhat⟩ := h.rejected source hsource hknown
    have hparsed : AttestationObject.parse codec dbl j base64 = .ok (.sgx evidence endorsements) := by
      refine (parse_ok_iff j base64 _).2 ⟨source, evidence, endorsements, uvmEndorsements, hsource,
        hmembers, ?_⟩
      rw [sourceOfJson_unknown source hknown]
      rfl
    rw [hwhat] at hparsed
    cases hparsed
  · intro h
    refine ⟨fun object hobject => ?_, fun source hsource hunknown => ?_⟩
    · obtain ⟨source, evidence, endorsements, uvmEndorsements, hsource, hmembers, hmade⟩ :=
        (parse_ok_iff j base64 object).1 hobject
      obtain ⟨s, rfl, hs⟩ := (h source hsource).resolve_right
        (not_not_intro ⟨evidence, endorsements, uvmEndorsements, hmembers⟩)
      obtain ⟨make, hmake⟩ := Option.isSome_iff_exists.1 hs
      rw [objectOf_known s make hmake] at hmade
      exact ⟨s, make, evidence, endorsements, uvmEndorsements, hsource, hmake, hmembers,
        (Except.ok.inj hmade).symm⟩
    · cases hparse : AttestationObject.parse codec dbl j base64 with
      | ok object =>
        obtain ⟨source', evidence, endorsements, uvmEndorsements, hsource', hmembers, -⟩ :=
          (parse_ok_iff j base64 object).1 hparse
        cases hsource.symm.trans hsource'
        exact absurd ⟨evidence, endorsements, uvmEndorsements, hmembers⟩
          ((h source hsource).resolve_left hunknown)
      | error e =>
        obtain ⟨what, rfl⟩ := parse_fails j base64 e hparse
        exact ⟨what, rfl⟩

end

/-- `{"evidence":"AQID","source":"tdx"}` -/
def tdxAttestation : Json :=
  ofStrings [(text "evidence", text "AQID"), (text "source", text "tdx")]

theorem tdx_parsed_as_sgx : AttestationObject.parse aciCodec plainHost.doubles tdxAttestation true =
      .ok (.sgx [1, 2, 3] []) ∧
    ¬ RightlyParsed aciCodec plainHost.doubles tdxAttestation true := by
  have hparse : AttestationObject.parse aciCodec plainHost.doubles tdxAttestation true =
      .ok (.sgx [1, 2, 3] []) := by
    decide +kernel
  refine ⟨hparse, fun h => ?_⟩
  obtain ⟨s, make, -, -, -, hsource, hmake, -⟩ := h.accepted _ hparse
  have htdx : findKey tdxAttestation (text "source") = some (.string (text "tdx")) := rfl
  rw [htdx] at hsource
  cases hsource
  have hnone : classOf (text "tdx") = none := rfl
  rw [hnone] at hmake
  cases hmake

end Ravl
