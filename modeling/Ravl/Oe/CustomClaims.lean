import Ravl.Util

/-!
# Custom claims of Open Enclave evidence (oe_impl.h:365-461)

The buffer starts with oe_custom_claims_header_t (version, num_claims) and is meant to go on
with the entries one after another. `extractCustomClaims` reads entry `i` at
`16 + i * sizeof(oe_custom_claims_entry_t)`, the size of an entry's fixed part only.
-/

namespace Ravl.Oe
open ByteLib FallibleLib

/-- std::map<std::string, std::vector<uint8_t>>, looked up with `List.lookup`. -/
abbrev ClaimsMap := List (Bytes × Bytes)

/-- `claims_map.emplace`: a key that is there keeps its value. -/
def ClaimsMap.emplace (map : ClaimsMap) (name value : Bytes) : ClaimsMap :=
  if (map.lookup name).isSome then map else map ++ [(name, value)]

def headerSize : ℕ := 16
/-- sizeof(oe_custom_claims_entry_t): the two sizes, without the flexible array -/
def entrySize : ℕ := 16

/-- The body of the loop for the entry at offset `ei`. -/
def readEntry (m : ℕ → Byte) (len ei : ℕ) : Result (Bytes × Bytes) := do
  verifyWithin ei entrySize len
  let nameSize := readLe m ei 8
  let valueSize := readLe m (ei + 8) 8
  let name := ei + entrySize
  verifyWithin name nameSize len
  verifyWithin (name + nameSize) valueSize len
  refuse (nameSize = 0) (.exception "custom claim name is an unterminated string")
  refuse (m ((name + nameSize - 1) % 2 ^ 64) ≠ 0)
    (.exception "custom claim name is an unterminated string")
  refuse (2 ^ 63 ≤ nameSize - 1) (.exception "basic_string::_M_create")
  refuse (2 ^ 63 ≤ valueSize) (.exception "cannot create std::vector larger than max_size()")
  pure (readMem m name (nameSize - 1), readMem m ((name + nameSize) % 2 ^ 64) valueSize)

/-- `n` rounds of the loop, from entry `i` on. -/
def readEntries (m : ℕ → Byte) (len : ℕ) : ℕ → ℕ → ClaimsMap → Result ClaimsMap
  | 0, _, map => pure map
  | n + 1, i, map => do
    let (name, value) ← readEntry m len (headerSize + i * entrySize)
    readEntries m len n (i + 1) (map.emplace name value)

def extractCustomClaims (host : Host) (customClaims : Bytes) (map : ClaimsMap) :
    Result ClaimsMap :=
  if customClaims.length < headerSize then pure map
  else do
    let m := mem customClaims host.beyond
    refuse (readLe m 0 8 ≠ 1) (.exception "unsupported custom claims version")
    readEntries m customClaims.length (readLe m 8 8) 0 map

/-! ### The layout -/

structure CustomClaim where
  name : Bytes
  value : Bytes
  noNul : 0 ∉ name

def entryBytes (name value : Bytes) : Bytes :=
  leBytes 8 (name.length + 1) ++ leBytes 8 value.length ++ (name ++ [0]) ++ value

def customClaimsHeader (count : ℕ) : Bytes := leBytes 8 1 ++ leBytes 8 count

/-- The header and the entries one after another. -/
def customClaimsBytes (claims : List CustomClaim) : Bytes :=
  customClaimsHeader claims.length ++ claims.flatMap fun c => entryBytes c.name c.value

/-- The pairs the buffer was made of; a lookup finds the first one of a name. -/
def claimPairs (claims : List CustomClaim) : ClaimsMap := claims.map fun c => (c.name, c.value)

theorem entryBytes_length (name value : Bytes) :
    (entryBytes name value).length = 17 + name.length + value.length := by
  simp only [entryBytes, List.length_append, leBytes_length, List.length_singleton]
  omega

theorem customClaimsHeader_length (count : ℕ) : (customClaimsHeader count).length = 16 := by
  simp only [customClaimsHeader, List.length_append, leBytes_length]

theorem customClaimsBytes_length_ge (claims : List CustomClaim) :
    16 + 17 * claims.length ≤ (customClaimsBytes claims).length := by
  have hentries : 17 * claims.length ≤
      (claims.flatMap fun c => entryBytes c.name c.value).length := by
    induction claims with
    | nil => simp
    | cons c cs ih =>
      rw [List.flatMap_cons, List.length_append, entryBytes_length, List.length_cons]
      omega
  rw [customClaimsBytes, List.length_append, customClaimsHeader_length]
  omega

/-! ### What one round reads -/

/-- An entry lies at `off`: its bytes are there, and its value does not start at the end. -/
structure EntryAt (buffer : Bytes) (off : ℕ) (name value : Bytes) : Prop where
  bytes : sub buffer off (17 + name.length + value.length) = entryBytes name value
  inside : off + 17 + name.length + value.length ≤ buffer.length
  valueStart : off + 17 + name.length < buffer.length

section Fields
variable (name value : Bytes)

theorem entryBytes_nameSize : sub (entryBytes name value) 0 8 = leBytes 8 (name.length + 1) := by
  have h : entryBytes name value =
      [] ++ leBytes 8 (name.length + 1) ++ (leBytes 8 value.length ++ (name ++ [0]) ++ value) := by
    simp only [entryBytes, List.nil_append, List.append_assoc]
  rw [h]
  exact sub_middle _ _ _ 0 8 rfl (leBytes_length 8 _)

theorem entryBytes_valueSize : sub (entryBytes name value) 8 8 = leBytes 8 value.length := by
  have h : entryBytes name value =
      leBytes 8 (name.length + 1) ++ leBytes 8 value.length ++ ((name ++ [0]) ++ value) := by
    simp only [entryBytes, List.append_assoc]
  rw [h]
  exact sub_middle _ _ _ 8 8 (leBytes_length 8 _) (leBytes_length 8 _)

theorem entryBytes_name : sub (entryBytes name value) 16 (name.length + 1) = name ++ [0] := by
  refine sub_middle _ _ _ 16 _ ?_ (by rw [List.length_append, List.length_singleton])
  rw [List.length_append, leBytes_length, leBytes_length]

theorem entryBytes_value :
    sub (entryBytes name value) (17 + name.length) value.length = value := by
  have h : entryBytes name value =
      (leBytes 8 (name.length + 1) ++ leBytes 8 value.length ++ (name ++ [0])) ++ value ++ [] := by
    simp only [entryBytes, List.append_nil]
  rw [h]
  refine sub_middle _ _ _ _ _ ?_ rfl
  simp only [List.length_append, leBytes_length, List.length_singleton]
  omega

end Fields

section Reading
variable (buffer : Bytes) (beyond : ℕ → Byte) (off : ℕ) (name value : Bytes)

theorem EntryAt.part (h : EntryAt buffer off name value) (i k : ℕ)
    (hik : i + k ≤ 17 + name.length + value.length) :
    readMem (mem buffer beyond) (off + i) k = sub (entryBytes name value) i k := by
  have hinside := h.inside
  rw [← h.bytes, sub_sub _ _ _ _ _ hik]
  exact readMem_eq_sub _ _ _ _ (by omega)

theorem readEntry_of_entryAt (hlen : buffer.length < 2 ^ 63)
    (h : EntryAt buffer off name value) :
    readEntry (mem buffer beyond) buffer.length off = .ok (name, value) := by
  have hinside := h.inside
  have hstart := h.valueStart
  have hns : readLe (mem buffer beyond) off 8 = name.length + 1 := by
    rw [readLe, ← Nat.add_zero off, h.part buffer beyond off _ _ 0 8 (by omega), entryBytes_nameSize]
    exact leVal_leBytes _ _ (by omega)
  have hvs : readLe (mem buffer beyond) (off + 8) 8 = value.length := by
    rw [readLe, h.part buffer beyond off _ _ 8 8 (by omega), entryBytes_valueSize]
    exact leVal_leBytes _ _ (by omega)
  have hterminated : readMem (mem buffer beyond) (off + 16) (name.length + 1) = name ++ [0] := by
    rw [h.part buffer beyond off _ _ 16 _ (by omega)]
    exact entryBytes_name name value
  have hvalue : readMem (mem buffer beyond) (off + (17 + name.length)) value.length = value := by
    rw [h.part buffer beyond off _ _ _ _ (le_refl _)]
    exact entryBytes_value name value
  have hnul : mem buffer beyond (off + 16 + name.length) = 0 := by
    have hlast := readMem_getElem? (mem buffer beyond) (off + 16) (name.length + 1) name.length
      (by omega)
    rw [hterminated, List.getElem?_concat_length] at hlast
    exact (Option.some.inj hlast).symm
  have hname : readMem (mem buffer beyond) (off + 16) name.length = name := by
    rw [← Nat.add_zero (off + 16), ← sub_readMem _ _ (name.length + 1) 0 _ (by omega), hterminated]
    simp only [sub, List.drop_zero, List.take_left]
  have hlastOff : (off + 16 + (name.length + 1) - 1) % 2 ^ 64 = off + 16 + name.length := by omega
  have hvalueOff : (off + 16 + (name.length + 1)) % 2 ^ 64 = off + (17 + name.length) := by omega
  have hfixed : verifyWithin off 16 buffer.length = .ok () :=
    verifyWithin_inside _ _ _ (by omega) (by omega) (by omega)
  have hnameIn : verifyWithin (off + 16) (name.length + 1) buffer.length = .ok () :=
    verifyWithin_inside _ _ _ (by omega) (by omega) (by omega)
  have hvalueIn : verifyWithin (off + 16 + (name.length + 1)) value.length buffer.length = .ok () :=
    verifyWithin_inside _ _ _ (by omega) (by omega) (by omega)
  simp only [readEntry, entrySize, hns, hvs, bind_ok, refuse_ok, pure_ok, hlastOff, hvalueOff, hnul,
    hvalue, Nat.add_sub_cancel, hname]
  exact ⟨(), hfixed, (), hnameIn, (), hvalueIn, (), by omega, (), by simp, (), by omega, (), by omega, trivial⟩

theorem entryAt_of_readEntry (hlen : buffer.length < 2 ^ 63) (hoff : off ≤ 2 ^ 63)
    (h : readEntry (mem buffer beyond) buffer.length off = .ok (name, value)) :
    EntryAt buffer off name value := by
  obtain ⟨nameSize, hns⟩ : ∃ n, n = readLe (mem buffer beyond) off 8 := ⟨_, rfl⟩
  obtain ⟨valueSize, hvs⟩ : ∃ n, n = readLe (mem buffer beyond) (off + 8) 8 := ⟨_, rfl⟩
  simp only [readEntry, entrySize, bind_ok, refuse_ok, pure_ok, ← hns, ← hvs] at h
  obtain ⟨_, hfixed, _, hnameIn, _, hvalueIn, _, hpos, _, hnul, _, hnameMax, _, hvalueMax, hentry⟩ := h
  have hfix := verifyWithin_ok _ _ _ (by omega) (by omega) hfixed
  -- below 2 ^ 63 the sizes do not wrap around the address space
  have hnameFits := verifyWithin_ok _ _ _ (by omega) (by omega) hnameIn
  have hvalueStart := verifyWithin_start _ _ _ (by omega) hvalueIn
  have hvalueFits : off + 16 + nameSize + valueSize ≤ buffer.length := by
    by_cases hempty : valueSize = 0
    · omega
    · exact verifyWithin_ok _ _ _ (by omega) (by omega) hvalueIn
  have hlastOff : (off + 16 + nameSize - 1) % 2 ^ 64 = off + 16 + (nameSize - 1) := by omega
  have hvalueOff : (off + 16 + nameSize) % 2 ^ 64 = off + 17 + (nameSize - 1) := by omega
  rw [hlastOff] at hnul
  rw [hvalueOff] at hentry
  obtain ⟨hname, hvalue⟩ := Prod.mk.inj hentry
  have hnameLen : name.length = nameSize - 1 := by rw [← hname, readMem_length]
  have hvalueLen : value.length = valueSize := by rw [← hvalue, readMem_length]
  have hnul' : sub buffer (off + 16 + (nameSize - 1)) 1 = [0] := by
    rw [← readMem_eq_sub buffer beyond _ 1 (by omega), readMem_one, not_not.1 hnul]
  have hname' : sub buffer (off + 16) (nameSize - 1) = name := by
    rw [← hname, readMem_eq_sub buffer beyond _ _ (by omega)]
  have hvalue' : sub buffer (off + 17 + (nameSize - 1)) valueSize = value := by
    rw [← hvalue, readMem_eq_sub buffer beyond _ _ (by omega)]
  have hnameSize : sub buffer off 8 = leBytes 8 nameSize := by
    rw [hns]
    exact sub_eq_leBytes buffer beyond off 8 (by omega)
  have hvalueSize : sub buffer (off + 8) 8 = leBytes 8 valueSize := by
    rw [hvs]
    exact sub_eq_leBytes buffer beyond (off + 8) 8 (by omega)
  refine ⟨?_, by omega, by omega⟩
  have hsplit : 17 + name.length + value.length = 8 + 8 + (nameSize - 1) + 1 + valueSize := by omega
  have hnameSucc : name.length + 1 = nameSize := by omega
  rw [hsplit, sub_split, sub_split, sub_split, sub_split, hnameSize, hvalueSize, entryBytes, hnameSucc, hvalueLen]
  have hassoc : off + (8 + 8 + (nameSize - 1)) = off + 16 + (nameSize - 1) := by omega
  have hassoc' : off + (8 + 8 + (nameSize - 1) + 1) = off + 17 + (nameSize - 1) := by omega
  rw [hassoc, hassoc', hnul', hvalue', show off + (8 + 8) = off + 16 from rfl, hname']
  simp only [List.append_assoc]

theorem readEntry_ok_iff (hlen : buffer.length < 2 ^ 63) (hoff : off ≤ 2 ^ 63) :
    readEntry (mem buffer beyond) buffer.length off = .ok (name, value) ↔
      EntryAt buffer off name value :=
  ⟨entryAt_of_readEntry buffer beyond off name value hlen hoff,
    readEntry_of_entryAt buffer beyond off name value hlen⟩

end Reading

/-! ### The loop -/

/-- Entries read at the fixed stride, from the `i`-th on. -/
def EntriesAt (buffer : Bytes) : ℕ → List (Bytes × Bytes) → Prop
  | _, [] => True
  | i, (name, value) :: entries =>
    EntryAt buffer (headerSize + i * entrySize) name value ∧ EntriesAt buffer (i + 1) entries

def ClaimsMap.emplaceAll (map : ClaimsMap) (entries : List (Bytes × Bytes)) : ClaimsMap :=
  entries.foldl (fun map e => map.emplace e.1 e.2) map

theorem ClaimsMap.lookup_emplace (map : ClaimsMap) (name value n : Bytes) :
    (map.emplace name value).lookup n = (map.lookup n).or ([(name, value)].lookup n) := by
  unfold ClaimsMap.emplace
  split
  · next hthere =>
    by_cases hn : n = name
    · subst hn
      obtain ⟨v, hv⟩ := Option.isSome_iff_exists.1 hthere
      rw [hv]
      rfl
    · have hb : (n == name) = false := beq_false_of_ne hn
      have hnone : [(name, value)].lookup n = none := by
        rw [List.lookup_cons, hb]
        rfl
      rw [hnone, Option.or_none]
  · exact List.lookup_append

theorem ClaimsMap.lookup_emplaceAll (map : ClaimsMap) (entries : List (Bytes × Bytes)) (n : Bytes) :
    (map.emplaceAll entries).lookup n = (map.lookup n).or (entries.lookup n) := by
  induction entries generalizing map with
  | nil => exact Option.or_none.symm
  | cons e entries ih =>
    have hcons : e :: entries = [e] ++ entries := rfl
    show ((map.emplace e.1 e.2).emplaceAll entries).lookup n = _
    rw [ih, ClaimsMap.lookup_emplace, Option.or_assoc, hcons, List.lookup_append]

/-- What the loop returns, by induction on the rounds. -/
theorem readEntries_ok_iff (buffer : Bytes) (beyond : ℕ → Byte) (n i : ℕ) (map map' : ClaimsMap)
    (hlen : buffer.length < 2 ^ 63) (hi : headerSize + i * entrySize ≤ 2 ^ 63) :
    readEntries (mem buffer beyond) buffer.length n i map = .ok map' ↔
      ∃ entries : List (Bytes × Bytes), entries.length = n ∧ EntriesAt buffer i entries ∧
        map' = map.emplaceAll entries := by
  induction n generalizing i map with
  | zero =>
    rw [readEntries, pure_ok]
    constructor
    · intro h
      exact ⟨[], rfl, trivial, h.symm⟩
    · intro ⟨entries, hn, _, h⟩
      rw [List.length_eq_zero_iff.1 hn] at h
      exact h.symm
  | succ n ih =>
    have hnext (name value : Bytes) (h : EntryAt buffer (headerSize + i * entrySize) name value) :
        headerSize + (i + 1) * entrySize ≤ 2 ^ 63 := by
      have hinside := h.inside
      have hstride : (i + 1) * entrySize = i * entrySize + 16 := Nat.succ_mul i 16
      omega
    rw [readEntries, bind_ok]
    constructor
    · intro ⟨⟨name, value⟩, hentry, hrest⟩
      have hat := (readEntry_ok_iff buffer beyond _ name value hlen hi).1 hentry
      obtain ⟨entries, hn, hentries, hmap⟩ := (ih (i + 1) _ (hnext name value hat)).1 hrest
      exact ⟨(name, value) :: entries, by rw [List.length_cons, hn], ⟨hat, hentries⟩, hmap⟩
    · intro ⟨entries, hn, hentries, hmap⟩
      obtain ⟨⟨name, value⟩, entries, rfl⟩ := List.exists_cons_of_length_eq_add_one hn
      obtain ⟨hat, hentries⟩ := hentries
      refine ⟨(name, value), (readEntry_ok_iff buffer beyond _ name value hlen hi).2 hat, ?_⟩
      exact (ih (i + 1) _ (hnext name value hat)).2 ⟨entries, Nat.succ.inj hn, hentries, hmap⟩

/-! ### Extraction of a claims set -/

section Extraction
variable (host : Host)

/-- The extraction returns the map from each name to its first value. -/
def Extracts (claims : List CustomClaim) : Prop :=
  ∃ map, extractCustomClaims host (customClaimsBytes claims) [] = .ok map ∧
    ∀ name, map.lookup name = (claimPairs claims).lookup name

theorem extractCustomClaims_layout (claims : List CustomClaim) (map : ClaimsMap)
    (hsize : (customClaimsBytes claims).length < 2 ^ 63) :
    extractCustomClaims host (customClaimsBytes claims) map =
      readEntries (mem (customClaimsBytes claims) host.beyond) (customClaimsBytes claims).length
        claims.length 0 map := by
  have hge := customClaimsBytes_length_ge claims
  have hbytes : customClaimsBytes claims = [] ++ leBytes 8 1 ++ (leBytes 8 claims.length ++
      claims.flatMap fun c => entryBytes c.name c.value) := by
    simp only [customClaimsBytes, customClaimsHeader, List.nil_append, List.append_assoc]
  have hversion : readLe (mem (customClaimsBytes claims) host.beyond) 0 8 = 1 := by
    rw [readLe_eq_sub _ _ _ _ (by omega), hbytes, sub_middle _ _ _ 0 8 rfl (leBytes_length 8 1)]
    exact leVal_leBytes 8 1 (by norm_num)
  have hcount : readLe (mem (customClaimsBytes claims) host.beyond) 8 8 = claims.length := by
    rw [readLe_eq_sub _ _ _ _ (by omega), customClaimsBytes, customClaimsHeader,
      sub_middle _ _ _ 8 8 (leBytes_length 8 1) (leBytes_length 8 _)]
    exact leVal_leBytes 8 _ (by omega)
  have hlong : ¬ (customClaimsBytes claims).length < headerSize := by
    have hheader : headerSize = 16 := rfl
    omega
  rw [extractCustomClaims, if_neg hlong]
  simp only [hversion, hcount, refuse, ne_eq, not_true_eq_false, if_false]
  rfl

theorem first_entry_bytes (c : CustomClaim) (cs : List CustomClaim) :
    sub (customClaimsBytes (c :: cs)) 16 (17 + c.name.length + c.value.length) =
      entryBytes c.name c.value := by
  rw [customClaimsBytes, List.flatMap_cons, ← List.append_assoc]
  exact sub_middle _ _ _ _ _ (customClaimsHeader_length _) (entryBytes_length _ _)

theorem customClaimsBytes_cons_length (c : CustomClaim) (cs : List CustomClaim) :
    (customClaimsBytes (c :: cs)).length = 33 + c.name.length + c.value.length +
      (cs.flatMap fun c => entryBytes c.name c.value).length := by
  rw [customClaimsBytes, List.flatMap_cons, List.length_append, List.length_append,
    customClaimsHeader_length, entryBytes_length]
  omega

/-- The first entry is read as it was written, unless its value is empty and ends the buffer. -/
theorem first_entryAt (c : CustomClaim) (cs : List CustomClaim) (h : c.value ≠ [] ∨ cs ≠ []) :
    EntryAt (customClaimsBytes (c :: cs)) 16 c.name c.value := by
  have hlength := customClaimsBytes_cons_length c cs
  refine ⟨first_entry_bytes c cs, by omega, ?_⟩
  rcases h with hvalue | hmore
  · have hpos := List.length_pos_of_ne_nil hvalue
    omega
  · obtain ⟨d, ds, rfl⟩ := List.exists_cons_of_ne_nil hmore
    rw [List.flatMap_cons, List.length_append, entryBytes_length] at hlength
    omega

theorem EntryAt.unique {buffer : Bytes} {off : ℕ} {name value name' value' : Bytes}
    (hlen : buffer.length < 2 ^ 63) (h : EntryAt buffer off name value)
    (h' : EntryAt buffer off name' value') : (name', value') = (name, value) := by
  have hread := readEntry_of_entryAt buffer (fun _ => 0) off name value hlen h
  have hread' := readEntry_of_entryAt buffer (fun _ => 0) off name' value' hlen h'
  rw [hread] at hread'
  exact (Except.ok.inj hread').symm

theorem EntryAt.name_length {buffer : Bytes} {off : ℕ} {name value : Bytes}
    (hlen : buffer.length < 2 ^ 63) (h : EntryAt buffer off name value) :
    name.length + 1 = leVal (sub buffer off 8) := by
  have hinside := h.inside
  rw [← Nat.add_zero off, ← sub_sub buffer off (17 + name.length + value.length) 0 8 (by omega),
    h.bytes, entryBytes_nameSize]
  exact (leVal_leBytes 8 _ (by omega)).symm

theorem not_entryAt_empty (c : CustomClaim) (hsize : (customClaimsBytes [c]).length < 2 ^ 63)
    (hempty : c.value = []) (name value : Bytes) :
    ¬ EntryAt (customClaimsBytes [c]) 16 name value := by
  intro h
  have hlength := customClaimsBytes_cons_length c []
  have hstart := h.valueStart
  have hname := h.name_length hsize
  have hfirst := sub_sub (customClaimsBytes [c]) 16 (17 + c.name.length + c.value.length) 0 8 (by omega)
  rw [first_entry_bytes, entryBytes_nameSize] at hfirst
  rw [← Nat.add_zero 16, ← hfirst, leVal_leBytes 8 _ (by omega)] at hname
  rw [hempty, List.flatMap_nil] at hlength
  simp only [List.length_nil] at hlength
  omega

/-- Entries lie at the offsets 32, 48 and so on, inside the names and values of the set, and
with the first pair they give the map of the set. -/
def StrayEntries (claims : List CustomClaim) : Prop :=
  ∃ entries : List (Bytes × Bytes), entries.length + 1 = claims.length ∧
    EntriesAt (customClaimsBytes claims) 1 entries ∧
    ∀ name, ((claimPairs claims).take 1 ++ entries).lookup name = (claimPairs claims).lookup name

theorem extracts_iff_entries (claims : List CustomClaim)
    (hsize : (customClaimsBytes claims).length < 2 ^ 63) :
    Extracts host claims ↔ ∃ entries : List (Bytes × Bytes), entries.length = claims.length ∧
      EntriesAt (customClaimsBytes claims) 0 entries ∧
      ∀ name, entries.lookup name = (claimPairs claims).lookup name := by
  have hmap (entries : List (Bytes × Bytes)) (name : Bytes) :
      (ClaimsMap.emplaceAll [] entries).lookup name = entries.lookup name := by
    rw [ClaimsMap.lookup_emplaceAll]
    rfl
  have hloop (map : ClaimsMap) := readEntries_ok_iff (customClaimsBytes claims) host.beyond
    claims.length 0 [] map hsize (by decide)
  unfold Extracts
  rw [extractCustomClaims_layout host claims [] hsize]
  constructor
  · intro ⟨map, hread, hlookup⟩
    obtain ⟨entries, hn, hentries, rfl⟩ := (hloop map).1 hread
    exact ⟨entries, hn, hentries, fun name => by rw [← hmap, hlookup]⟩
  · intro ⟨entries, hn, hentries, hlookup⟩
    exact ⟨_, (hloop _).2 ⟨entries, hn, hentries, rfl⟩, fun name => by rw [hmap, hlookup]⟩

/-- With two or more pairs the first one is read right, and everything hangs on the rest. -/
theorem extracts_many_iff (c : CustomClaim) (cs : List CustomClaim) (hcs : cs ≠ [])
    (hsize : (customClaimsBytes (c :: cs)).length < 2 ^ 63) :
    Extracts host (c :: cs) ↔ StrayEntries (c :: cs) := by
  have hfirst := first_entryAt c cs (Or.inr hcs)
  rw [extracts_iff_entries host _ hsize]
  constructor
  · intro ⟨entries, hn, hentries, hlookup⟩
    obtain ⟨⟨name, value⟩, entries, rfl⟩ := List.exists_cons_of_length_eq_add_one hn
    obtain ⟨hat, hrest⟩ := hentries
    have hpair := EntryAt.unique hsize hfirst hat
    rw [hpair] at hlookup
    exact ⟨entries, hn, hrest, hlookup⟩
  · intro ⟨entries, hn, hrest, hlookup⟩
    exact ⟨(c.name, c.value) :: entries, hn, ⟨hfirst, hrest⟩, hlookup⟩

/-- A first name of eight bytes or more is itself read as the next name's size, so a set of
several pairs is then never extracted from a buffer that fits into memory. -/
theorem long_name_fails (c : CustomClaim) (cs : List CustomClaim) (hcs : cs ≠ [])
    (hname : 8 ≤ c.name.length) (hsize : (customClaimsBytes (c :: cs)).length < 2 ^ 56) :
    ¬ Extracts host (c :: cs) := by
  rw [extracts_many_iff host c cs hcs (by omega)]
  intro ⟨entries, hn, hentries, _⟩
  obtain ⟨d, ds, rfl⟩ := List.exists_cons_of_ne_nil hcs
  obtain ⟨⟨name, value⟩, entries, rfl⟩ := List.exists_cons_of_length_eq_add_one (Nat.succ.inj hn)
  have hat : EntryAt (customClaimsBytes (c :: d :: ds)) 32 name value := hentries.1
  have hinside := hat.inside
  have hlength := hat.name_length (by omega)
  have hbytes : sub (customClaimsBytes (c :: d :: ds)) 32 8 = c.name.take 8 := by
    have hentry := sub_sub (customClaimsBytes (c :: d :: ds)) 16
      (17 + c.name.length + c.value.length) 16 (c.name.length + 1) (by omega)
    rw [first_entry_bytes, entryBytes_name] at hentry
    have hfront := sub_sub (customClaimsBytes (c :: d :: ds)) 32 (c.name.length + 1) 0 8 (by omega)
    rw [← hentry] at hfront
    rw [← Nat.add_zero 32, ← hfront, sub, List.drop_zero, List.take_append_of_le_length hname]
  obtain ⟨b, bs, hname8⟩ := List.exists_cons_of_ne_nil
    (List.ne_nil_of_length_pos (l := c.name.take 8) (by rw [List.length_take]; omega))
  have hbs : bs.length = 7 := by
    have hlen := congrArg List.length hname8
    rw [List.length_take, List.length_cons] at hlen
    omega
  have hnoNul : 0 ∉ b :: bs := fun hm => c.noNul (List.mem_of_mem_take (hname8 ▸ hm))
  have hbig := leVal_ge b bs hnoNul
  rw [hbs] at hbig
  rw [hbytes, hname8] at hlength
  omega

/-- Where the extraction is right: no pair, one pair with a value, or bytes that happen to be
laid out as entries at the fixed stride. -/
theorem extractCustomClaims_map_iff (claims : List CustomClaim)
    (hsize : (customClaimsBytes claims).length < 2 ^ 63) :
    Extracts host claims ↔ claims = [] ∨ (∃ c, claims = [c] ∧ c.value ≠ []) ∨
      (2 ≤ claims.length ∧ StrayEntries claims) := by
  match claims, hsize with
  | [], hsize =>
    have hnone : Extracts host [] :=
      (extracts_iff_entries host [] hsize).2 ⟨[], rfl, trivial, fun _ => rfl⟩
    exact ⟨fun _ => Or.inl rfl, fun _ => hnone⟩
  | [c], hsize =>
    rw [extracts_iff_entries host _ hsize]
    constructor
    · intro ⟨entries, hn, hentries, _⟩
      obtain ⟨⟨name, value⟩, entries, rfl⟩ := List.exists_cons_of_length_eq_add_one hn
      refine Or.inr (Or.inl ⟨c, rfl, fun hempty => ?_⟩)
      exact not_entryAt_empty c hsize hempty name value hentries.1
    · intro hor
      obtain hnil | ⟨d, hd, hvalue⟩ | ⟨htwo, -⟩ := hor
      · cases hnil
      · obtain rfl := (List.cons.inj hd).1
        exact ⟨[(c.name, c.value)], rfl, ⟨first_entryAt c [] (Or.inl hvalue), trivial⟩, fun _ => rfl⟩
      · simp at htwo
  | c :: d :: cs, hsize =>
    rw [extracts_many_iff host c (d :: cs) (List.cons_ne_nil d cs) hsize]
    constructor
    · intro h
      exact Or.inr (Or.inr ⟨by simp, h⟩)
    · intro hor
      obtain hnil | ⟨e, he, -⟩ | ⟨-, h⟩ := hor
      · cases hnil
      · cases (List.cons.inj he).2
      · exact h

end Extraction

def sampleClaim : CustomClaim := ⟨text "a", [1], by decide⟩

theorem extractCustomClaims_map_iff_sample : Extracts plainHost [sampleClaim] :=
  (extractCustomClaims_map_iff plainHost [sampleClaim] (by decide)).2
    (Or.inr (Or.inl ⟨sampleClaim, rfl, by decide⟩))

theorem extractCustomClaims_two_refused :
    ¬ ∀ (host : Host) (claims : List CustomClaim), (customClaimsBytes claims).length < 2 ^ 63 →
      Extracts host claims := by
  intro h
  obtain ⟨map, hmap, -⟩ := h plainHost [sampleClaim, ⟨text "b", [2], by decide⟩] (by decide)
  have hfail : (extractCustomClaims plainHost (customClaimsBytes
      [sampleClaim, ⟨text "b", [2], by decide⟩]) []).toOption = none := by decide +kernel
  rw [hmap] at hfail
  cases hfail

end Ravl.Oe
