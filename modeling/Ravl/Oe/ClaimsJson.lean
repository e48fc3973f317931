import Ravl.Oe.Attestation
import Ravl.Sgx.ClaimsJson

/-!
# Open Enclave claims as JSON (oe.h:18-32, oe_impl.h:128-149)

The pointer to the SGX claims is written as null where it is null, and always read as an object.
-/

namespace Ravl.Oe
open ByteLib FallibleLib
open JsonText (Json insertMember)

/-- std::map<std::string, std::vector<uint8_t>> as it is iterated: by ascending keys -/
structure CustomClaims where
  entries : List (Bytes × Bytes)
  sorted : entries.Pairwise fun a b => a.1 < b.1

def CustomClaims.empty : CustomClaims := ⟨[], List.Pairwise.nil⟩

def emplaceEntry (name value : Bytes) : List (Bytes × Bytes) → List (Bytes × Bytes)
  | [] => [(name, value)]
  | (n, v) :: entries =>
    if n = name then (n, v) :: entries
    else if name < n then (name, value) :: (n, v) :: entries
    else (n, v) :: emplaceEntry name value entries

theorem emplaceEntry_fst (name value : Bytes) (entries : List (Bytes × Bytes)) (e : Bytes × Bytes)
    (he : e ∈ emplaceEntry name value entries) : e.1 = name ∨ e ∈ entries := by
  induction entries with
  | nil =>
    cases List.mem_singleton.1 he
    exact Or.inl rfl
  | cons a entries ih =>
    rw [emplaceEntry] at he
    split at he
    · exact Or.inr he
    · split at he
      · rcases List.mem_cons.1 he with rfl | he
        · exact Or.inl rfl
        · exact Or.inr he
      · rcases List.mem_cons.1 he with rfl | he
        · exact Or.inr (List.mem_cons_self ..)
        · exact (ih he).imp_right fun h => List.mem_cons_of_mem a h

theorem emplaceEntry_sorted (name value : Bytes) (entries : List (Bytes × Bytes))
    (h : entries.Pairwise fun a b => a.1 < b.1) :
    (emplaceEntry name value entries).Pairwise fun a b => a.1 < b.1 := by
  induction entries with
  | nil => exact List.pairwise_singleton _ _
  | cons a entries ih =>
    obtain ⟨hfirst, hrest⟩ := List.pairwise_cons.1 h
    rw [emplaceEntry]
    split
    · exact h
    next hne =>
      split
      next hlt =>
        refine List.pairwise_cons.2 ⟨fun b hb => ?_, h⟩
        rcases List.mem_cons.1 hb with rfl | hb
        · exact hlt
        · exact List.lt_trans hlt (hfirst b hb)
      next hge =>
        refine List.pairwise_cons.2 ⟨fun b hb => ?_, ih hrest⟩
        rcases emplaceEntry_fst name value entries b hb with heq | hb
        · rw [heq]
          by_contra hno
          exact hne (List.le_antisymm (List.not_lt.1 hge) (List.not_lt.1 hno))
        · exact hfirst b hb

/-- A key that is there keeps its value. -/
def CustomClaims.emplace (map : CustomClaims) (name value : Bytes) : CustomClaims :=
  ⟨emplaceEntry name value map.entries, emplaceEntry_sorted name value map.entries map.sorted⟩

theorem emplaceEntry_last (name value : Bytes) (entries : List (Bytes × Bytes))
    (h : ∀ e ∈ entries, e.1 < name) : emplaceEntry name value entries = entries ++ [(name, value)] := by
  induction entries with
  | nil => rfl
  | cons a entries ih =>
    have hlt := h a (List.mem_cons_self ..)
    have hne : a.1 ≠ name := fun heq => List.lt_irrefl name (heq ▸ hlt)
    rw [emplaceEntry, if_neg hne, if_neg (List.lt_asymm hlt),
      ih fun e he => h e (List.mem_cons_of_mem a he)]
    rfl

theorem insertMember_last (name : Bytes) (value : Json) (o : List (Bytes × Json))
    (h : ∀ e ∈ o, e.1 < name) : insertMember name value o = o ++ [(name, value)] := by
  induction o with
  | nil => rfl
  | cons a o ih =>
    have hlt := h a (List.mem_cons_self ..)
    have hne : a.1 ≠ name := fun heq => List.lt_irrefl name (heq ▸ hlt)
    rw [insertMember, if_neg hne, if_neg (List.lt_asymm hlt),
      ih fun e he => h e (List.mem_cons_of_mem a he)]
    rfl

section
variable (dbl : Doubles)

/-- The members of a JSON object are kept in the same order as the entries of the map. -/
def customClaimsSerializer : Serializer CustomClaims where
  toJson map := .object (map.entries.foldl
    (fun o e => insertMember e.1 ((bytesSerializer dbl).toJson e.2) o) [])
  fromJson j _ :=
    match j with
    | .object o => o.foldlM (fun map e => do
        let value ← getBytes dbl e.2
        pure (map.emplace e.1 value)) .empty
    | j => throw (typeError302 "object" j)

def claimJson (e : Bytes × Bytes) : Bytes × Json := (e.1, (bytesSerializer dbl).toJson e.2)

theorem writeEntries_eq (entries before : List (Bytes × Bytes))
    (hsorted : (before ++ entries).Pairwise fun a b => a.1 < b.1) :
    entries.foldl (fun o e => insertMember e.1 ((bytesSerializer dbl).toJson e.2) o)
      (before.map (claimJson dbl)) = (before ++ entries).map (claimJson dbl) := by
  induction entries generalizing before with
  | nil => rw [List.foldl_nil, List.append_nil]
  | cons e entries ih =>
    have hbefore : ∀ m ∈ before.map (claimJson dbl), m.1 < e.1 := by
      intro m hm
      obtain ⟨b, hb, rfl⟩ := List.mem_map.1 hm
      exact (List.pairwise_append.1 hsorted).2.2 b hb e (List.mem_cons_self ..)
    have hstep : before.map (claimJson dbl) ++ [claimJson dbl e] =
        (before ++ [e]).map (claimJson dbl) := by
      rw [List.map_append]
      rfl
    have hshift : before ++ e :: entries = (before ++ [e]) ++ entries := by
      rw [List.append_assoc, List.singleton_append]
    rw [hshift] at hsorted ⊢
    rw [List.foldl_cons, insertMember_last _ _ _ hbefore]
    show entries.foldl _ (before.map (claimJson dbl) ++ [claimJson dbl e]) = _
    rw [hstep, ih _ hsorted]

theorem readEntries_eq (entries : List (Bytes × Bytes)) (map : CustomClaims)
    (hsorted : (map.entries ++ entries).Pairwise fun a b => a.1 < b.1) :
    (entries.map (claimJson dbl)).foldlM (fun (map : CustomClaims) e => do
        let value ← getBytes dbl e.2
        pure (map.emplace e.1 value)) map = .ok ⟨map.entries ++ entries, hsorted⟩ := by
  induction entries generalizing map with
  | nil =>
    obtain ⟨before, hbefore⟩ := map
    refine congrArg Except.ok ?_
    simp only [List.append_nil]
  | cons e entries ih =>
    have hbefore : ∀ b ∈ map.entries, b.1 < e.1 := fun b hb =>
      (List.pairwise_append.1 hsorted).2.2 b hb e (List.mem_cons_self ..)
    have hentries : (map.emplace e.1 e.2).entries = map.entries ++ [e] :=
      emplaceEntry_last e.1 e.2 map.entries hbefore
    have hshift : map.entries ++ e :: entries = (map.emplace e.1 e.2).entries ++ entries := by
      rw [hentries, List.append_assoc, List.singleton_append]
    have hrest := ih (map.emplace e.1 e.2) (hshift ▸ hsorted)
    have hbytes : getBytes dbl (claimJson dbl e).2 = .ok e.2 := getBytes_array e.2
    rw [List.map_cons, List.foldlM_cons, hbytes, ok_bind]
    show (entries.map (claimJson dbl)).foldlM _ (map.emplace e.1 e.2) = _
    rw [hrest]
    refine congrArg Except.ok ?_
    simp only [hshift]

theorem customClaimsSerializer_restores (map : CustomClaims) :
    (customClaimsSerializer dbl).Restores map := by
  intro _
  have hwritten := writeEntries_eq dbl map.entries [] map.sorted
  have hread := readEntries_eq dbl map.entries .empty map.sorted
  show (customClaimsSerializer dbl).fromJson (.object (map.entries.foldl _ (([] : List _).map (claimJson dbl)))) _ = _
  rw [hwritten]
  exact hread

/-- The listed members of oe::Claims -/
structure ClaimsFields where
  sgxClaims : Option (ClaimsObject Sgx.Claims)
  customClaims : CustomClaims

/-- ravl_json_serializer<std::shared_ptr<sgx::Claims>>; `unset` is what the constructor leaves in
the members of the new object. -/
def sgxClaimsSerializer (unset : Sgx.Claims) : Serializer (Option (ClaimsObject Sgx.Claims)) where
  toJson
    | none => .null
    | some x => (claimsSerializer (recordSerializer (Sgx.claimsFields dbl))).toJson x
  fromJson j _ := do
    let x ← (claimsSerializer (recordSerializer (Sgx.claimsFields dbl))).fromJson j ⟨.sgx, unset⟩
    pure (some x)

def claimsFields (unset : Sgx.Claims) : List (Field ClaimsFields) :=
  [field "sgx_claims" (sgxClaimsSerializer dbl unset) (·.sgxClaims) fun v c => { c with sgxClaims := v },
    field "custom_claims" (customClaimsSerializer dbl) (·.customClaims)
      fun v c => { c with customClaims := v }]

def ClaimsFields.Fits (c : ClaimsFields) : Prop := ∀ sgx ∈ c.sgxClaims, sgx.fields.Fits

/-- The custom claims come back in any case, so the pointer decides. -/
theorem readClaims_eq (unset : Sgx.Claims) (c old : ClaimsFields) :
    (recordSerializer (claimsFields dbl unset)).fromJson
        ((recordSerializer (claimsFields dbl unset)).toJson c) old = (do
      let sgx ← (sgxClaimsSerializer dbl unset).fromJson
        ((sgxClaimsSerializer dbl unset).toJson c.sgxClaims) old.sgxClaims
      pure ⟨sgx, c.customClaims⟩) := by
  have hnames : ((claimsFields dbl unset).map (·.name)).Nodup := by
    simp only [claimsFields, List.map_cons, List.map_nil, field_name]
    decide +kernel
  obtain ⟨j, hj⟩ : ∃ j, j = Json.object (members (claimsFields dbl unset) c []) := ⟨_, rfl⟩
  have hat (f : Field ClaimsFields) (hf : f ∈ claimsFields dbl unset) :
      jsonAt j f.name = .ok (f.toJson c) := by
    rw [hj]
    exact (orThrow_ok _ _ _).2 (lookup_members _ c hnames [] f hf)
  have hpointer := hat _ (List.mem_cons_self ..)
  have hcustom := hat _ (List.mem_cons_of_mem _ (List.mem_cons_self ..))
  show (recordSerializer (claimsFields dbl unset)).fromJson
    (.object (members (claimsFields dbl unset) c [])) old = _
  rw [← hj]
  show (claimsFields dbl unset).foldlM (fun r f => do
    let value ← jsonAt j f.name
    f.fromJson value r) old = _
  rw [claimsFields, List.foldlM_cons, hpointer, ok_bind]
  show ((sgxClaimsSerializer dbl unset).fromJson
    ((sgxClaimsSerializer dbl unset).toJson c.sgxClaims) old.sgxClaims >>= _) >>= _ = _
  cases (sgxClaimsSerializer dbl unset).fromJson
      ((sgxClaimsSerializer dbl unset).toJson c.sgxClaims) old.sgxClaims with
  | error e => rfl
  | ok sgx =>
    rw [ok_bind, pure_bind, List.foldlM_cons, hcustom, ok_bind]
    show ((customClaimsSerializer dbl).fromJson ((customClaimsSerializer dbl).toJson c.customClaims)
      old.customClaims >>= _) >>= _ = _
    rw [customClaimsSerializer_restores]
    rfl

/-- What is read back is null never. -/
theorem readSgxClaims_eq (unset : Sgx.Claims) (x old : Option (ClaimsObject Sgx.Claims))
    (h : ∀ sgx ∈ x, sgx.fields.Fits) :
    (sgxClaimsSerializer dbl unset).fromJson ((sgxClaimsSerializer dbl unset).toJson x) old =
      orThrow (x.map fun sgx => some ⟨.sgx, sgx.fields⟩)
        (.exception "[json.exception.type_error.304] cannot use at() with null") := by
  cases x with
  | none => rfl
  | some sgx =>
    have hfields := Sgx.claims_restores dbl sgx.fields (h sgx rfl) unset
    show ((recordSerializer (Sgx.claimsFields dbl)).fromJson
      ((recordSerializer (Sgx.claimsFields dbl)).toJson sgx.fields) unset >>= _) >>= _ = _
    rw [hfields]
    rfl

theorem roundTrips_iff (unset : Sgx.Claims) (c : ClaimsObject ClaimsFields) (h : c.fields.Fits) :
    RoundTrips (recordSerializer (claimsFields dbl unset)) .openEnclave c ↔
      (∃ sgx, c.fields.sgxClaims = some sgx ∧ sgx.source = .sgx) ∧ c.source = .openEnclave := by
  have hread (old : ClaimsFields) := readClaims_eq dbl unset c.fields old
  simp only [readSgxClaims_eq dbl unset c.fields.sgxClaims _ h] at hread
  rw [roundTrips_read _ _ c _ hread]
  refine and_congr_left fun _ => ?_
  obtain ⟨source, ⟨sgxClaims, customClaims⟩⟩ := c
  rw [bind_ok]
  constructor
  · rintro ⟨read, hread, heq⟩
    rw [orThrow_ok, Option.map_eq_some_iff] at hread
    obtain ⟨sgx, hsgx, rfl⟩ := hread
    have hsame := congrArg ClaimsFields.sgxClaims ((pure_ok _ _).1 heq)
    refine ⟨sgx, hsgx, ?_⟩
    have hobject : some (⟨.sgx, sgx.fields⟩ : ClaimsObject Sgx.Claims) = some sgx := hsame.trans hsgx
    exact (congrArg ClaimsObject.source (Option.some.inj hobject)).symm
  · rintro ⟨sgx, hsgx, hsource⟩
    have hobject : (⟨.sgx, sgx.fields⟩ : ClaimsObject Sgx.Claims) = sgx := by
      rw [← hsource]
    refine ⟨some ⟨.sgx, sgx.fields⟩, (orThrow_ok _ _ _).2 ?_, ?_⟩
    · show sgxClaims.map _ = _
      rw [show sgxClaims = some sgx from hsgx]
      rfl
    · rw [hobject, ← show sgxClaims = some sgx from hsgx]
      rfl

end

end Ravl.Oe
