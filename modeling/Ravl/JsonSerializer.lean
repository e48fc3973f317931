import Ravl.Codec

/-!
# Types written to JSON and read back (json.h)

A serializer is the pair `to_json`, `from_json` of a type. The macro for structures takes a list
of member names: `to_json` sets one key of the object after the other, `from_json` looks every key
up with `at` and reads the value into the member. What is not listed stays as it was; for claims
that is the member `source`, which the constructor sets.
-/

namespace Ravl
open ByteLib FallibleLib
open JsonText (Json insertMember lookup lookup_insertMember_self lookup_insertMember_other)

/-- `from_json` reads into an object that is there already. -/
structure Serializer (α : Type) where
  toJson : α → Json
  fromJson : Json → α → Result α

/-- Whatever is in the object, reading back what was written for `a` makes it `a`. -/
def Serializer.Restores {α : Type} (s : Serializer α) (a : α) : Prop :=
  ∀ old, s.fromJson (s.toJson a) old = .ok a

/-! ### The types of the library -/

section
variable (dbl : Doubles)

/-- uint8_t, uint16_t and uint32_t -/
def uintSerializer (bits : ℕ) : Serializer ℕ where
  toJson n := .unsigned n
  fromJson j _ := getUint dbl bits j

/-- uint64_t, which is the library's own type for unsigned numbers -/
def uint64Serializer : Serializer ℕ where
  toJson n := .unsigned n
  fromJson j _ := getNumber dbl 64 j

/-- uint8_t where the value is kept as a byte -/
def byteSerializer : Serializer Byte where
  toJson b := .unsigned b.val
  fromJson j _ := do
    let n ← getUint dbl 8 j
    pure (Fin.ofNat 256 n)

/-- std::vector<uint8_t> -/
def bytesSerializer : Serializer Bytes where
  toJson data := .array (data.map fun b => .unsigned b.val)
  fromJson j _ := getBytes dbl j

/-- `j.at(i)` for every index of the array; further elements are not looked at. -/
def arrayElements (n : ℕ) (xs : List Json) : Result Bytes :=
  (List.range n).mapM fun i => do
    let x ← orThrow xs[i]?
      (.exception ("[json.exception.out_of_range.401] array index " ++ toString i ++
        " is out of range"))
    let v ← getUint dbl 8 x
    pure (Fin.ofNat 256 v)

/-- std::array<uint8_t, n> -/
def byteArraySerializer (n : ℕ) : Serializer Bytes where
  toJson data := .array (data.map fun b => .unsigned b.val)
  fromJson j _ :=
    match j with
    | .array xs => arrayElements dbl n xs
    | j => throw (typeError302 "array" j)

/-- std::string -/
def stringSerializer : Serializer Bytes where
  toJson s := .string s
  fromJson j _ := getString j

theorem uintSerializer_restores (bits n : ℕ) (h : n < 2 ^ bits) :
    (uintSerializer dbl bits).Restores n := by
  intro _
  show pure (n % 2 ^ bits) = _
  rw [Nat.mod_eq_of_lt h]
  rfl

theorem uint64Serializer_restores (n : ℕ) (h : n < 2 ^ 64) : (uint64Serializer dbl).Restores n := by
  intro _
  show pure (n % 2 ^ 64) = _
  rw [Nat.mod_eq_of_lt h]
  rfl

theorem byteSerializer_restores (b : Byte) : (byteSerializer dbl).Restores b := by
  intro _
  show (getUint dbl 8 (.unsigned b.val) >>= _) = _
  rw [getUint_byte, ok_bind, Fin.ofNat_val_eq_self]
  rfl

theorem bytesSerializer_restores (data : Bytes) : (bytesSerializer dbl).Restores data :=
  fun _ => getBytes_array data

theorem byteArraySerializer_restores {n : ℕ} {data : Bytes} (hlen : data.length = n) :
    (byteArraySerializer dbl n).Restores data := by
  intro _
  subst hlen
  show arrayElements dbl data.length _ = _
  have helement : ∀ i ∈ List.range data.length, (do
      let x ← orThrow (data.map fun b : Byte => Json.unsigned b.val)[i]?
        (.exception ("[json.exception.out_of_range.401] array index " ++ toString i ++
          " is out of range"))
      let v ← getUint dbl 8 x
      pure (Fin.ofNat 256 v)) = Except.ok ((data[i]?).getD 0) := by
    intro i hi
    have hget := List.getElem?_eq_getElem (List.mem_range.1 hi)
    rw [List.getElem?_map, hget, Option.map_some, orThrow, Option.elim_some, ok_bind, getUint_byte,
      ok_bind, Fin.ofNat_val_eq_self, Option.getD_some]
    rfl
  rw [arrayElements, mapM_ok helement]
  refine congrArg Except.ok (List.ext_getElem? fun i => ?_)
  by_cases hi : i < data.length
  · rw [List.getElem?_map, List.getElem?_range hi, Option.map_some, List.getElem?_eq_getElem hi,
      Option.getD_some]
  · rw [List.getElem?_eq_none (by simpa using hi), List.getElem?_eq_none (by omega)]

theorem stringSerializer_restores (s : Bytes) : stringSerializer.Restores s := fun _ => rfl

end

/-! ### RAVL_JSON_DEFINE_TYPE_NON_INTRUSIVE -/

/-- One name of the list: its member is written, and read into. `copy` says what reading back is
meant to do: the member of the first object is taken over into the second one. -/
structure Field (R : Type) where
  name : Bytes
  toJson : R → Json
  fromJson : Json → R → Result R
  copy : R → R → R

section
variable {R α : Type}

def field (name : String) (s : Serializer α) (get : R → α) (set : α → R → R) : Field R where
  name := text name
  toJson r := s.toJson (get r)
  fromJson j r := do
    let a ← s.fromJson j (get r)
    pure (set a r)
  copy r old := set (get r) old

theorem field_name (name : String) (s : Serializer α) (get : R → α) (set : α → R → R) :
    (field name s get set).name = text name := rfl

theorem field_copy (name : String) (s : Serializer α) (get : R → α) (set : α → R → R) (r old : R) :
    (field name s get set).copy r old = set (get r) old := rfl

def Field.Restores (f : Field R) (r : R) : Prop := ∀ old, f.fromJson (f.toJson r) old = .ok (f.copy r old)

theorem field_restores {name : String} {s : Serializer α} {get : R → α} {set : α → R → R} {r : R}
    (h : s.Restores (get r)) : (field name s get set).Restores r := by
  intro old
  show (s.fromJson (s.toJson (get r)) (get old) >>= fun a => pure (set a old)) = _
  rw [h]
  rfl

variable (fields : List (Field R))

/-- `j[name] = r.name` for every name -/
def members (r : R) (o : List (Bytes × Json)) : List (Bytes × Json) :=
  fields.foldl (fun o f => insertMember f.name (f.toJson r) o) o

def recordSerializer : Serializer R where
  toJson r := .object (members fields r [])
  -- `j.at(name).get_to(r.name)` for every name
  fromJson j r := fields.foldlM (fun r f => do
    let value ← jsonAt j f.name
    f.fromJson value r) r

theorem lookup_members_other (r : R) (key : Bytes) (o : List (Bytes × Json))
    (h : ∀ f ∈ fields, f.name ≠ key) : lookup key (members fields r o) = lookup key o := by
  induction fields generalizing o with
  | nil => rfl
  | cons f fields ih =>
    rw [members, List.foldl_cons]
    show lookup key (members fields r _) = _
    rw [ih _ fun g hg => h g (List.mem_cons_of_mem f hg),
      lookup_insertMember_other _ _ _ _ (h f (List.mem_cons_self ..))]

theorem lookup_members (r : R) (hnames : (fields.map (·.name)).Nodup) (o : List (Bytes × Json))
    (f : Field R) (hf : f ∈ fields) : lookup f.name (members fields r o) = some (f.toJson r) := by
  induction fields generalizing o with
  | nil => cases hf
  | cons g fields ih =>
    rw [List.map_cons, List.nodup_cons] at hnames
    rw [members, List.foldl_cons]
    show lookup f.name (members fields r _) = _
    rcases List.mem_cons.1 hf with rfl | hf
    · have hothers : ∀ g ∈ fields, g.name ≠ f.name := by
        intro g hg heq
        refine hnames.1 ?_
        rw [← heq]
        exact List.mem_map_of_mem hg
      rw [lookup_members_other fields r _ _ hothers, lookup_insertMember_self]
    · exact ih hnames.2 _ hf

theorem readMembers_ok (j : Json) (r : R) (hat : ∀ f ∈ fields, jsonAt j f.name = .ok (f.toJson r))
    (hfields : ∀ f ∈ fields, f.Restores r) (old : R) :
    fields.foldlM (fun r f => do
        let value ← jsonAt j f.name
        f.fromJson value r) old = .ok (fields.foldl (fun old f => f.copy r old) old) := by
  induction fields generalizing old with
  | nil => rfl
  | cons f fields ih =>
    rw [List.foldlM_cons, hat f (List.mem_cons_self ..), ok_bind, hfields f (List.mem_cons_self ..),
      ok_bind, List.foldl_cons]
    exact ih (fun g hg => hat g (List.mem_cons_of_mem f hg))
      (fun g hg => hfields g (List.mem_cons_of_mem f hg)) _

/-- A structure comes back when every member does and none was left out of the list. -/
theorem recordSerializer_restores (hnames : (fields.map (·.name)).Nodup) (r : R)
    (hfields : ∀ f ∈ fields, f.Restores r)
    (hcomplete : ∀ old, fields.foldl (fun old f => f.copy r old) old = r) :
    (recordSerializer fields).Restores r := by
  intro old
  have hat : ∀ f ∈ fields, jsonAt (.object (members fields r [])) f.name = .ok (f.toJson r) := by
    intro f hf
    exact (orThrow_ok _ _ _).2 (lookup_members fields r hnames [] f hf)
  have hread := readMembers_ok fields _ r hat hfields old
  rw [hcomplete] at hread
  exact hread

end

/-! ### Objects of the class `Claims` -/

/-- The base class next to the members of the derived class -/
structure ClaimsObject (F : Type) where
  source : Source
  fields : F

/-- The serializer of a class whose listed members are those of `F` -/
def claimsSerializer {F : Type} (s : Serializer F) : Serializer (ClaimsObject F) where
  toJson c := s.toJson c.fields
  fromJson j c := do
    let fields ← s.fromJson j c.fields
    pure { c with fields := fields }

/-- What was written for `c`, read into a new object of its class, is `c`; the constructor sets
the source and leaves the other members unset. -/
def RoundTrips {F : Type} (s : Serializer F) (source : Source) (c : ClaimsObject F) : Prop :=
  ∀ unset : F, (claimsSerializer s).fromJson ((claimsSerializer s).toJson c) ⟨source, unset⟩ = .ok c

/-- Where reading does not depend on what was there, it gives the listed members alone. -/
theorem roundTrips_read {F : Type} (s : Serializer F) (source : Source) (c : ClaimsObject F)
    (r : Result F) (hread : ∀ old, s.fromJson (s.toJson c.fields) old = r) :
    RoundTrips s source c ↔ r = .ok c.fields ∧ c.source = source := by
  have hobject (unset : F) : (claimsSerializer s).fromJson ((claimsSerializer s).toJson c)
      ⟨source, unset⟩ = r >>= fun fields => pure ⟨source, fields⟩ := by
    show (s.fromJson (s.toJson c.fields) unset >>= _) = _
    rw [hread]
  constructor
  · intro h
    have hsame := h c.fields
    rw [hobject, bind_ok] at hsame
    obtain ⟨fields, hr, heq⟩ := hsame
    rw [pure_ok] at heq
    rw [← heq, hr]
    exact ⟨rfl, rfl⟩
  · rintro ⟨hr, hsource⟩ unset
    rw [hobject, hr, ← hsource]
    rfl

end Ravl
