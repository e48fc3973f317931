import Ravl.Crypto

/-!
# Putting a list of certificates together (crypto.h:283-356; openssl.hpp:128-180, 796-846)

A `UqX509` owns a pointer, and `load_certificates` tells certificates apart by their addresses.
The variable `leaf` is made by the default constructor, which calls X509_new: it is not null
before a leaf was found, and what it points to is none of the certificates.
-/

namespace Ravl
open ByteLib FallibleLib

/-! ### A list of which one element is to be kept -/

section
variable {ε α : Type}

/-- The elements with the property are kept one after another; a second one is an error. -/
def keepOne (p : α → Bool) (e : ε) : List α → Option α → Except ε (Option α)
  | [], kept => pure kept
  | a :: as, kept =>
    if p a then do
      refuse (kept.isSome = true) e
      keepOne p e as (some a)
    else keepOne p e as kept

theorem keepOne_none (p : α → Bool) (e : ε) (as : List α) (h : as.filter p = []) (kept : Option α) :
    keepOne p e as kept = .ok kept := by
  induction as with
  | nil => rfl
  | cons a as ih =>
    have hall := List.filter_eq_nil_iff.1 h
    have hrest := List.filter_eq_nil_iff.2 fun b hb => hall b (List.mem_cons_of_mem a hb)
    rw [keepOne, if_neg (hall a (List.mem_cons_self ..))]
    exact ih hrest

theorem keepOne_again (p : α → Bool) (e : ε) (as : List α) (b : α) (h : as.filter p ≠ []) :
    keepOne p e as (some b) = .error e := by
  induction as with
  | nil => exact absurd rfl h
  | cons a as ih =>
    rw [keepOne]
    by_cases hp : p a = true
    · rw [if_pos hp]
      rfl
    · rw [if_neg hp]
      rw [List.filter_cons_of_neg hp] at h
      exact ih h

theorem keepOne_ok_iff (p : α → Bool) (e : ε) (as : List α) (kept : Option α) :
    keepOne p e as none = .ok kept ↔ as.filter p = kept.toList := by
  induction as with
  | nil =>
    rw [keepOne, pure_ok]
    cases kept <;> simp
  | cons a as ih =>
    rw [keepOne]
    by_cases hp : p a = true
    · rw [if_pos hp, refuse_of_not (by simp), ok_bind, List.filter_cons_of_pos hp]
      by_cases hrest : as.filter p = []
      · rw [keepOne_none p e as hrest, hrest]
        cases kept <;> simp
      · rw [keepOne_again p e as a hrest]
        cases kept <;> simp [hrest]
    · rw [if_neg hp, List.filter_cons_of_neg hp]
      exact ih

theorem keepOne_error (p : α → Bool) (e e' : ε) (as : List α) (kept : Option α)
    (h : keepOne p e as kept = .error e') : e' = e := by
  induction as generalizing kept with
  | nil => cases h
  | cons a as ih =>
    rw [keepOne] at h
    split at h
    · cases kept with
      | none =>
        rw [refuse_of_not (by simp), ok_bind] at h
        exact ih _ h
      | some b =>
        cases h
        rfl
    · exact ih _ h

end

/-! ### `load_certificates` -/

/-- What `load_certificates` asks OpenSSL beyond `OpenSsl`: X509_new (`none` is a null pointer)
and the key identifiers. -/
structure KeyIds (X509 : Type) where
  x509New : Option X509
  subjectKeyId : X509 → Option Bytes
  authorityKeyId : X509 → Option Bytes

/-- A certificate and its address -/
abbrev Object (X509 : Type) := X509 × ℕ

/-- The pointer of a `UqX509`, which may be null -/
abbrev UqX509 (X509 : Type) := Option (Object X509)

def multipleLeaves : Error := .exception "multiple leaves in certificate set"

section
variable {X509 Crl Pkey : Type} (ssl : OpenSsl X509 Crl Pkey) (ids : KeyIds X509)

/-- `UqX509()`, at an address of its own -/
def defaultX509 : Result (UqX509 X509) := do
  let x509 ← orThrow ids.x509New
    (.exception ("OpenSSL object creation failed because of OpenSSL error(s):" ++ str ssl.errors))
  pure (some (x509, 0))

/-- The first loop; the object made in a round lives as long as the stack `r`, so its address is
a new one. -/
def pushCertificates : List Bytes → UqX509 X509 → List (Object X509) →
    Result (UqX509 X509 × List (Object X509))
  | [], leaf, r => pure (leaf, r)
  | cert :: certificates, leaf, r => do
    let x509 ← ssl.pemX509 cert
    let object : Object X509 := (x509, r.length + 1)
    if ssl.isCa x509 = false then do
      refuse (leaf.isSome = true) multipleLeaves
      pushCertificates certificates (some object) (r ++ [object])
    else pushCertificates certificates leaf (r ++ [object])

/-- The inner loop: whether another certificate names this subject key as its authority's -/
def appearsAsCa (r : List (Object X509)) (ii : ℕ) (subjKeyId : Bytes) : Bool :=
  r.zipIdx.any fun c => c.2 ≠ ii ∧ ids.authorityKeyId c.1.1 = some subjKeyId

/-- The outer loop from index `ii` on -/
def findLeaf (r : List (Object X509)) : List (Object X509) → ℕ → UqX509 X509 →
    Result (UqX509 X509)
  | [], _, leaf => pure leaf
  | c :: cs, ii, leaf => do
    let subjKeyId ← orThrow (ids.subjectKeyId c.1)
      (.exception "certificate does not contain a subject key id")
    if appearsAsCa ids r ii subjKeyId = false then do
      refuse (leaf.isSome = true) multipleLeaves
      findLeaf r cs (ii + 1) (some c)
    else findLeaf r cs (ii + 1) leaf

/-- The checks behind the loops; `!=` compares the two pointers. -/
def frontLeaf (leaf : UqX509 X509) (r : List (Object X509)) : Result (List X509) := do
  refuse (leaf.isNone = true) (.exception "no leaf certificate found")
  let front ← orThrow r.head? (.exception "index into stack out of range")
  refuse (some front.2 ≠ leaf.map (·.2))
    (.exception "leaf certificate not at the front of the certificate chain")
  pure (r.map (·.1))

/-- The function behind the declaration of `leaf` -/
def loadCertificatesFrom (leaf : UqX509 X509) (certificates : List Bytes) : Result (List X509) := do
  let (leaf, r) ← pushCertificates ssl certificates leaf []
  let leaf ← if leaf.isNone then findLeaf ids r r 0 leaf else pure leaf
  frontLeaf leaf r

def loadCertificates (certificates : List Bytes) : Result (List X509) := do
  let leaf ← defaultX509 ssl ids
  loadCertificatesFrom ssl ids leaf certificates

/-! ### Leaves -/

/-- Certificate `i` is a leaf: it is no CA, or all are CAs and its subject key is the authority
key of no other one. -/
def IsLeaf (xs : List X509) (i : ℕ) : Prop :=
  ∃ x, xs[i]? = some x ∧ (ssl.isCa x = false ∨ (∀ y ∈ xs, ssl.isCa y = true) ∧
    ∃ key, ids.subjectKeyId x = some key ∧
      ∀ j y, j ≠ i → xs[j]? = some y → ids.authorityKeyId y ≠ some key)

/-- There is exactly one leaf, and it comes first. -/
def LeafFirst (xs : List X509) : Prop := ∀ i, IsLeaf ssl ids xs i ↔ i = 0

/-- The list is returned where its leaf comes first, and refused otherwise. -/
structure LoadsInOrder (load : Result (List X509)) (xs : List X509) : Prop where
  loads : LeafFirst ssl ids xs → load = .ok xs
  throws : ¬ LeafFirst ssl ids xs → ∃ what, load = .error (.exception what)

/-! ### The two loops -/

def notCa (c : Object X509) : Bool := ssl.isCa c.1 = false

theorem pushCertificates_eq (certificates : List Bytes) (xs : List X509)
    (hparse : certificates.mapM ssl.pemX509 = .ok xs) (leaf : UqX509 X509) (r : List (Object X509)) :
    pushCertificates ssl certificates leaf r =
      (keepOne (notCa ssl) multipleLeaves (xs.zipIdx (r.length + 1)) leaf).map
        fun leaf => (leaf, r ++ xs.zipIdx (r.length + 1)) := by
  induction certificates generalizing xs leaf r with
  | nil =>
    have hxs : xs = [] := ((pure_ok _ _).1 hparse).symm
    rw [hxs, List.zipIdx_nil, List.append_nil]
    rfl
  | cons cert certificates ih =>
    rw [List.mapM_cons] at hparse
    simp only [bind_ok, pure_ok] at hparse
    obtain ⟨x, hx, ys, hys, rfl⟩ := hparse
    have hnext (leaf : UqX509 X509) := ih ys hys leaf (r ++ [(x, r.length + 1)])
    simp only [List.length_append, List.length_singleton, List.append_assoc,
      List.singleton_append] at hnext
    rw [pushCertificates, hx, ok_bind, List.zipIdx_cons, keepOne]
    by_cases hca : ssl.isCa x = false
    · have hleaf : notCa ssl (x, r.length + 1) = true := decide_eq_true hca
      rw [if_pos hca, if_pos hleaf]
      by_cases hsome : leaf.isSome = true
      · rw [refuse, if_pos hsome]
        rfl
      · rw [refuse_of_not hsome, ok_bind, ok_bind]
        exact hnext _
    · have hnoLeaf : ¬ notCa ssl (x, r.length + 1) = true := fun h => hca (of_decide_eq_true h)
      rw [if_neg hca, if_neg hnoLeaf]
      exact hnext leaf

/-- No other certificate names the key of the one at this address. -/
def unclaimed (r : List (Object X509)) (c : Object X509) : Bool :=
  appearsAsCa ids r (c.2 - 1) ((ids.subjectKeyId c.1).getD []) = false

theorem findLeaf_eq (r : List (Object X509)) (ys : List X509) (n : ℕ) (leaf : UqX509 X509)
    (hids : ∀ y ∈ ys, (ids.subjectKeyId y).isSome = true) :
    findLeaf ids r (ys.zipIdx (n + 1)) n leaf =
      keepOne (unclaimed ids r) multipleLeaves (ys.zipIdx (n + 1)) leaf := by
  induction ys generalizing n leaf with
  | nil => rfl
  | cons y ys ih =>
    obtain ⟨key, hkey⟩ := Option.isSome_iff_exists.1 (hids y (List.mem_cons_self ..))
    have hnext (leaf : UqX509 X509) :=
      ih (n + 1) leaf fun z hz => hids z (List.mem_cons_of_mem y hz)
    have hclaim : unclaimed ids r (y, n + 1) = decide (appearsAsCa ids r n key = false) := by
      rw [unclaimed, hkey]
      rfl
    rw [List.zipIdx_cons, findLeaf, hkey, keepOne, hclaim]
    show (if appearsAsCa ids r n key = false then _ else _) = _
    by_cases hca : appearsAsCa ids r n key = false
    · rw [if_pos hca, if_pos (decide_eq_true hca), hnext]
    · rw [if_neg hca, if_neg fun h => hca (of_decide_eq_true h), hnext]

theorem appearsAsCa_iff (xs : List X509) (ii : ℕ) (key : Bytes) :
    appearsAsCa ids (xs.zipIdx 1) ii key = true ↔
      ∃ j y, j ≠ ii ∧ xs[j]? = some y ∧ ids.authorityKeyId y = some key := by
  rw [appearsAsCa, List.any_eq_true]
  constructor
  · rintro ⟨⟨⟨y, a⟩, j⟩, hmem, h⟩
    have hget := List.mem_zipIdx_iff_getElem?.1 hmem
    rw [List.getElem?_zipIdx] at hget
    obtain ⟨z, hz, heq⟩ := Option.map_eq_some_iff.1 hget
    have hzy : z = y := congrArg Prod.fst heq
    obtain ⟨hne, hkey⟩ := of_decide_eq_true h
    exact ⟨j, y, hne, hzy ▸ hz, hkey⟩
  · rintro ⟨j, y, hne, hy, hkey⟩
    refine ⟨((y, 1 + j), j), ?_, decide_eq_true ⟨hne, hkey⟩⟩
    rw [List.mem_zipIdx_iff_getElem?, List.getElem?_zipIdx, hy]
    rfl

/-! ### With a leaf that is null to begin with -/

/-- The elements with the property are one, and it has the first address. -/
theorem filter_zipIdx_first (p : Object X509 → Bool) (xs : List X509) :
    (∀ i, (∃ x, xs[i]? = some x ∧ p (x, i + 1) = true) ↔ i = 0) ↔
      ∃ x, xs.head? = some x ∧ (xs.zipIdx 1).filter p = [(x, 1)] := by
  constructor
  · intro h
    obtain ⟨x, hx, hp⟩ := (h 0).2 rfl
    rw [← List.head?_eq_getElem?] at hx
    refine ⟨x, hx, ?_⟩
    obtain ⟨t, rfl⟩ := List.head?_eq_some_iff.1 hx
    have hrest : (t.zipIdx 2).filter p = [] := by
      rw [List.filter_eq_nil_iff]
      intro c hc hpc
      obtain ⟨hle, hget⟩ := List.mem_zipIdx_iff_le_and_getElem?_sub.1 hc
      obtain ⟨i, hi⟩ := Nat.exists_eq_add_of_le hle
      have hci : c = (c.1, i + 1 + 1) := Prod.ext rfl (by omega)
      rw [hci] at hpc
      have hsub : c.2 - 2 = i := by omega
      rw [hsub] at hget
      exact absurd ((h (i + 1)).1 ⟨c.1, hget, hpc⟩) (Nat.succ_ne_zero i)
    rw [List.zipIdx_cons, List.filter_cons_of_pos hp, hrest]
  · rintro ⟨x, hx, hfilter⟩ i
    constructor
    · rintro ⟨y, hy, hp⟩
      have hmem : (y, i + 1) ∈ (xs.zipIdx 1).filter p := by
        rw [List.mem_filter, List.mem_zipIdx_iff_le_and_getElem?_sub]
        exact ⟨⟨Nat.le_add_left 1 i, hy⟩, hp⟩
      rw [hfilter, List.mem_singleton] at hmem
      exact Nat.succ.inj (congrArg Prod.snd hmem)
    · rintro rfl
      have hmem : (x, 1) ∈ (xs.zipIdx 1).filter p := by
        rw [hfilter]
        exact List.mem_singleton_self _
      rw [List.head?_eq_getElem?] at hx
      exact ⟨x, hx, (List.mem_filter.1 hmem).2⟩

theorem frontLeaf_first (x : X509) (xs : List X509) (hx : xs.head? = some x) :
    frontLeaf (some (x, 1)) (xs.zipIdx 1) = .ok xs := by
  obtain ⟨t, rfl⟩ := List.head?_eq_some_iff.1 hx
  rw [frontLeaf, refuse_of_not (by simp), ok_bind]
  show Except.ok (((x :: t).zipIdx 1).map (·.1)) = Except.ok (x :: t)
  rw [List.zipIdx_map_fst]

theorem frontLeaf_other (xs : List X509) (leaf : Object X509) (ha : leaf.2 ≠ 1) :
    ∃ what, frontLeaf (some leaf) (xs.zipIdx 1) = .error (.exception what) := by
  rcases xs with _ | ⟨x, t⟩
  · exact ⟨"index into stack out of range", rfl⟩
  refine ⟨"leaf certificate not at the front of the certificate chain", ?_⟩
  rw [frontLeaf, refuse_of_not (by simp), ok_bind, List.zipIdx_cons, List.head?_cons]
  show (refuse (some 1 ≠ some leaf.2) _ >>= _) = _
  rw [refuse, if_pos fun heq => ha (Option.some.inj heq).symm]
  rfl

theorem loadsInOrder_of_keepOne (p : Object X509 → Bool) (xs : List X509)
    (hleaf : ∀ i, IsLeaf ssl ids xs i ↔ ∃ x, xs[i]? = some x ∧ p (x, i + 1) = true) :
    LoadsInOrder ssl ids (do
      let leaf ← keepOne p multipleLeaves (xs.zipIdx 1) none
      frontLeaf leaf (xs.zipIdx 1)) xs := by
  have hfirst : LeafFirst ssl ids xs ↔
      ∃ x, xs.head? = some x ∧ (xs.zipIdx 1).filter p = [(x, 1)] := by
    rw [← filter_zipIdx_first]
    exact forall_congr' fun i => by rw [hleaf]
  constructor
  · intro h
    obtain ⟨x, hx, hfilter⟩ := hfirst.1 h
    have hkept : keepOne p multipleLeaves (xs.zipIdx 1) none = .ok (some (x, 1)) :=
      (keepOne_ok_iff _ _ _ _).2 hfilter
    rw [hkept, ok_bind, frontLeaf_first x xs hx]
  · intro h
    cases hkept : keepOne p multipleLeaves (xs.zipIdx 1) none with
    | error e => exact ⟨_, congrArg Except.error (keepOne_error _ _ _ _ _ hkept)⟩
    | ok kept =>
      rw [ok_bind]
      rcases kept with _ | ⟨y, a⟩
      · exact ⟨_, rfl⟩
      have hfilter := (keepOne_ok_iff _ _ _ _).1 hkept
      have hmem : (y, a) ∈ (xs.zipIdx 1).filter p := by
        rw [hfilter]
        exact List.mem_singleton_self _
      obtain ⟨-, hget⟩ := List.mem_zipIdx_iff_le_and_getElem?_sub.1 (List.mem_filter.1 hmem).1
      refine frontLeaf_other xs (y, a) fun ha => ?_
      have ha : a = 1 := ha
      subst ha
      exact h (hfirst.2 ⟨y, by rw [List.head?_eq_getElem?]; exact hget, hfilter⟩)

/-- If the variable started with a null pointer, the function would do what it is meant to do
(where all certificates are CAs, each needs a subject key identifier). -/
theorem loadCertificatesFrom_null (certificates : List Bytes) (xs : List X509)
    (hparse : certificates.mapM ssl.pemX509 = .ok xs)
    (hids : (∀ y ∈ xs, ssl.isCa y = true) → ∀ y ∈ xs, (ids.subjectKeyId y).isSome = true) :
    LoadsInOrder ssl ids (loadCertificatesFrom ssl ids none certificates) xs := by
  have hpush := pushCertificates_eq ssl certificates xs hparse none []
  rw [List.length_nil, Nat.zero_add, List.nil_append] at hpush
  have hnotCa (c : Object X509) : notCa ssl c = true ↔ ssl.isCa c.1 = false := decide_eq_true_iff
  by_cases hall : ∀ y ∈ xs, ssl.isCa y = true
  · -- no certificate is a leaf by itself: the second loop decides
    have hnone : keepOne (notCa ssl) multipleLeaves (xs.zipIdx 1) none = .ok none := by
      refine keepOne_none _ _ _ (List.filter_eq_nil_iff.2 fun c hc hleaf => ?_) none
      have hca := hall c.1 (List.fst_mem_of_mem_zipIdx hc)
      rw [(hnotCa c).1 hleaf] at hca
      cases hca
    have hload : loadCertificatesFrom ssl ids none certificates = (do
        let leaf ← keepOne (unclaimed ids (xs.zipIdx 1)) multipleLeaves (xs.zipIdx 1) none
        frontLeaf leaf (xs.zipIdx 1)) := by
      rw [loadCertificatesFrom, hpush, hnone]
      exact congrArg (· >>= fun leaf => frontLeaf leaf (xs.zipIdx 1))
        (findLeaf_eq ids (xs.zipIdx 1) xs 0 none (hids hall))
    rw [hload]
    refine loadsInOrder_of_keepOne ssl ids _ xs fun i => exists_congr fun x => and_congr_right fun hx => ?_
    have hmem := List.mem_of_getElem? hx
    obtain ⟨key, hkey⟩ := Option.isSome_iff_exists.1 (hids hall x hmem)
    have hclaim : unclaimed ids (xs.zipIdx 1) (x, i + 1) = true ↔
        ¬ appearsAsCa ids (xs.zipIdx 1) i key = true := by
      rw [unclaimed, hkey, decide_eq_true_iff, Bool.not_eq_true]
      rfl
    rw [hclaim, appearsAsCa_iff]
    constructor
    · rintro (hca | ⟨-, key', hkey', hother⟩) ⟨j, y, hne, hy, hauth⟩
      · rw [hall x hmem] at hca
        cases hca
      · rw [hkey] at hkey'
        cases hkey'
        exact hother j y hne hy hauth
    · intro hno
      exact Or.inr ⟨hall, key, hkey, fun j y hne hy hauth => hno ⟨j, y, hne, hy, hauth⟩⟩
  · have hsome : (xs.zipIdx 1).filter (notCa ssl) ≠ [] := by
      intro hnil
      refine hall fun y hy => ?_
      obtain ⟨i, hi⟩ := List.getElem?_of_mem hy
      have hmem : (y, i + 1) ∈ xs.zipIdx 1 :=
        List.mem_zipIdx_iff_le_and_getElem?_sub.2 ⟨Nat.le_add_left 1 i, hi⟩
      have hleaf := List.filter_eq_nil_iff.1 hnil _ hmem
      rw [hnotCa, Bool.not_eq_false] at hleaf
      exact hleaf
    have hload : loadCertificatesFrom ssl ids none certificates = (do
        let leaf ← keepOne (notCa ssl) multipleLeaves (xs.zipIdx 1) none
        frontLeaf leaf (xs.zipIdx 1)) := by
      rw [loadCertificatesFrom, hpush]
      cases hkept : keepOne (notCa ssl) multipleLeaves (xs.zipIdx 1) none with
      | error e => rfl
      | ok kept =>
        rcases kept with _ | leaf
        · exact absurd ((keepOne_ok_iff _ _ _ _).1 hkept) hsome
        · rfl
    rw [hload]
    refine loadsInOrder_of_keepOne ssl ids _ xs fun i => exists_congr fun x => and_congr_right fun _ => ?_
    rw [hnotCa]
    exact or_iff_left fun h => hall h.1

/-! ### With the leaf that the default constructor makes -/

/-- No list at all is loaded: an object that is not null passes for a leaf that was found. -/
theorem loadCertificates_refuses (certificates : List Bytes) (xs : List X509)
    (hparse : certificates.mapM ssl.pemX509 = .ok xs) :
    ∃ what, loadCertificates ssl ids certificates = .error (.exception what) := by
  rw [loadCertificates, defaultX509]
  cases hnew : ids.x509New with
  | none => exact ⟨_, rfl⟩
  | some x509 =>
    have hpush := pushCertificates_eq ssl certificates xs hparse (some (x509, 0)) []
    rw [List.length_nil, Nat.zero_add, List.nil_append] at hpush
    show ∃ what, loadCertificatesFrom ssl ids (some (x509, 0)) certificates = .error (.exception what)
    rw [loadCertificatesFrom, hpush]
    by_cases hleaves : (xs.zipIdx 1).filter (notCa ssl) = []
    · rw [keepOne_none _ _ _ hleaves]
      exact frontLeaf_other xs (x509, 0) Nat.zero_ne_one
    · rw [keepOne_again _ _ _ _ hleaves]
      exact ⟨_, rfl⟩

/-- A list is treated as it should be exactly when it has to be refused. -/
theorem loadCertificates_inOrder_iff (certificates : List Bytes) (xs : List X509)
    (hparse : certificates.mapM ssl.pemX509 = .ok xs) :
    LoadsInOrder ssl ids (loadCertificates ssl ids certificates) xs ↔ ¬ LeafFirst ssl ids xs := by
  obtain ⟨what, hwhat⟩ := loadCertificates_refuses ssl ids certificates xs hparse
  constructor
  · intro h hfirst
    have hok := h.loads hfirst
    rw [hwhat] at hok
    cases hok
  · intro h
    exact ⟨fun hfirst => absurd hfirst h, fun _ => ⟨what, hwhat⟩⟩

end

/-! ### A leaf and the CA that issued it -/

def leafPem : Bytes := pemBegin ++ text "leaf" ++ pemEnd
def rootPem : Bytes := pemBegin ++ text "root" ++ pemEnd

/-- The lenient library, for which the leaf is no CA -/
def leafLibrary : OpenSsl Bytes Bytes Bytes := { OpenSsl.lenient with isCa := fun x => x ≠ leafPem }

def plainKeyIds : KeyIds Bytes where
  x509New := some []
  subjectKeyId x509 := some x509
  authorityKeyId _ := some rootPem

theorem leafPem_parses : [leafPem, rootPem].mapM leafLibrary.pemX509 = .ok [leafPem, rootPem] := by
  decide +kernel

theorem leafPem_first : LeafFirst leafLibrary plainKeyIds [leafPem, rootPem] := by
  have hleaf : leafLibrary.isCa leafPem = false := by decide
  have hroot : leafLibrary.isCa rootPem = true := by decide
  intro i
  constructor
  · rintro ⟨x, hx, hno | ⟨hall, -⟩⟩
    · rcases i with _ | _ | i
      · rfl
      · cases hx
        rw [hroot] at hno
        cases hno
      · cases hx
    · have hca := hall leafPem (List.mem_cons_self ..)
      rw [hleaf] at hca
      cases hca
  · rintro rfl
    exact ⟨leafPem, rfl, Or.inl hleaf⟩

theorem loadCertificates_inOrder_iff_leafPem :
    LoadsInOrder leafLibrary plainKeyIds
        (loadCertificates leafLibrary plainKeyIds [leafPem, rootPem]) [leafPem, rootPem] ↔
      ¬ LeafFirst leafLibrary plainKeyIds [leafPem, rootPem] :=
  loadCertificates_inOrder_iff leafLibrary plainKeyIds [leafPem, rootPem] [leafPem, rootPem]
    leafPem_parses

/-- The leaf is taken for a second one. -/
theorem loadCertificates_leafPem_refused :
    LeafFirst leafLibrary plainKeyIds [leafPem, rootPem] ∧
      loadCertificates leafLibrary plainKeyIds [leafPem, rootPem] = .error multipleLeaves ∧
      ¬ LoadsInOrder leafLibrary plainKeyIds
        (loadCertificates leafLibrary plainKeyIds [leafPem, rootPem]) [leafPem, rootPem] := by
  have herror : loadCertificates leafLibrary plainKeyIds [leafPem, rootPem] = .error multipleLeaves := by
    decide +kernel
  refine ⟨leafPem_first, herror, fun h => ?_⟩
  have hok := h.loads leafPem_first
  rw [herror] at hok
  cases hok

end Ravl
