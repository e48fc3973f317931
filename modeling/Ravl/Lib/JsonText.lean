import Ravl.Lib.Bytes
import Mathlib.Data.List.Infix

/-!
# JSON texts and where their members stand

An executable parser for JSON (RFC 8259) over bytes, with the two liberties the
usual C++ parser takes: a leading UTF-8 byte order mark is skipped, and a NUL
byte ends the input. Every member of an object is kept with the input that was
left at its key, at its value and behind its value, so that "the text of a
value" is part of the parse. In an object the last member of a name counts.
-/

namespace JsonText
open ByteLib

inductive Json
  | null
  | bool (b : Bool)
  | unsigned (n : ℕ)
  | integer (i : ℤ)
  | float (literal : Bytes)
  | string (s : Bytes)
  | array (xs : List Json)
  | object (members : List (Bytes × Json))

instance : Inhabited Json := ⟨.null⟩

/-! ### Objects -/

def lookup (key : Bytes) : List (Bytes × Json) → Option Json
  | [] => none
  | (k, v) :: o => if k = key then some v else lookup key o

/-- Keys are kept in ascending order; a key that is there already gets the new value. -/
def insertMember (key : Bytes) (value : Json) : List (Bytes × Json) → List (Bytes × Json)
  | [] => [(key, value)]
  | (k, v) :: o =>
    if k = key then (key, value) :: o
    else if key < k then (key, value) :: (k, v) :: o
    else (k, v) :: insertMember key value o

theorem lookup_insertMember_self (key : Bytes) (value : Json) (o : List (Bytes × Json)) :
    lookup key (insertMember key value o) = some value := by
  induction o with
  | nil => simp [insertMember, lookup]
  | cons kv o ih =>
    obtain ⟨k, v⟩ := kv
    simp only [insertMember]
    by_cases hk : k = key
    · rw [if_pos hk]
      simp [lookup]
    · rw [if_neg hk]
      split
      · simp [lookup]
      · simp only [lookup, if_neg hk]
        exact ih

theorem lookup_insertMember_other (key other : Bytes) (value : Json) (o : List (Bytes × Json))
    (hne : key ≠ other) : lookup other (insertMember key value o) = lookup other o := by
  induction o with
  | nil => simp [insertMember, lookup, hne]
  | cons kv o ih =>
    obtain ⟨k, v⟩ := kv
    simp only [insertMember]
    by_cases hk : k = key
    · rw [if_pos hk]
      simp [lookup, hk, hne]
    · rw [if_neg hk]
      split
      · simp [lookup, hne]
      · simp only [lookup, ih]

/-- A member as it stands in the text: its key and value, and the input left at the
key's first byte, at the value's first byte and behind the value. -/
structure Member where
  key : Bytes
  value : Json
  atKey : Bytes
  atValue : Bytes
  rest : Bytes

def objectOf (ms : List Member) : Json :=
  .object (ms.foldl (fun o m => insertMember m.key m.value o) [])

/-- The member of that name that counts: the last one. -/
def counted (key : Bytes) (ms : List Member) : Option Member :=
  ms.foldl (fun found m => if m.key = key then some m else found) none

theorem lookup_foldl (key : Bytes) (ms : List Member) (o : List (Bytes × Json))
    (found : Option Member) (h : lookup key o = found.map (·.value)) :
    lookup key (ms.foldl (fun o m => insertMember m.key m.value o) o) =
      (ms.foldl (fun found m => if m.key = key then some m else found) found).map (·.value) := by
  induction ms generalizing o found with
  | nil => exact h
  | cons m ms ih =>
    simp only [List.foldl_cons]
    apply ih
    by_cases hk : m.key = key
    · rw [if_pos hk, hk, lookup_insertMember_self]
      rfl
    · rw [if_neg hk, lookup_insertMember_other _ _ _ _ hk]
      exact h

/-- Looking a key up in a parsed object gives the value of the member that counts. -/
theorem lookup_objectOf (key : Bytes) (ms : List Member) (o : List (Bytes × Json))
    (h : objectOf ms = .object o) : lookup key o = (counted key ms).map (·.value) := by
  simp only [objectOf, Json.object.injEq] at h
  rw [← h]
  exact lookup_foldl key ms [] none rfl

theorem counted_foldl_mem (key : Bytes) (ms : List Member) (found : Option Member) (m : Member)
    (h : ms.foldl (fun found m => if m.key = key then some m else found) found = some m) :
    m ∈ ms ∧ m.key = key ∨ found = some m := by
  induction ms generalizing found with
  | nil => exact Or.inr h
  | cons a ms ih =>
    simp only [List.foldl_cons] at h
    rcases ih _ h with ⟨hm, hk⟩ | hf
    · exact Or.inl ⟨List.mem_cons_of_mem _ hm, hk⟩
    · split at hf
      next hk =>
        cases hf
        exact Or.inl ⟨List.mem_cons_self .., hk⟩
      next => exact Or.inr hf

theorem counted_mem (key : Bytes) (ms : List Member) (m : Member) (h : counted key ms = some m) :
    m ∈ ms ∧ m.key = key := by
  rcases counted_foldl_mem key ms none m h with hm | hn
  · exact hm
  · cases hn

/-! ### Tokens -/

def quote : Byte := byte '"'
def backslash : Byte := byte '\\'
def comma : Byte := byte ','
def colon : Byte := byte ':'
def openBrace : Byte := byte '\x7b'
def closeBrace : Byte := byte '\x7d'
def openBracket : Byte := byte '['
def closeBracket : Byte := byte ']'

def isWs (c : Byte) : Bool := c == byte ' ' || c == byte '\t' || c == byte '\n' || c == byte '\r'
def skipWs (s : Bytes) : Bytes := s.dropWhile isWs

theorem skipWs_split (s : Bytes) : ∃ ws, s = ws ++ skipWs s ∧ ∀ c ∈ ws, isWs c = true :=
  ⟨s.takeWhile isWs, (List.takeWhile_append_dropWhile).symm, fun c hc =>
    List.all_eq_true.1 List.all_takeWhile c hc⟩

theorem skipWs_suffix (s : Bytes) : skipWs s <:+ s := List.dropWhile_suffix _

def expect (c : Byte) : Bytes → Option Bytes
  | [] => none
  | a :: s => if a = c then some s else none

theorem expect_some (c : Byte) (s t : Bytes) : expect c s = some t ↔ s = c :: t := by
  cases s with
  | nil => simp [expect]
  | cons a s =>
    simp only [expect, Option.ite_none_right_eq_some, Option.some.injEq, List.cons.injEq]

/-- The bytes of a string literal up to its closing quote, and the input behind that quote. -/
def literalBody : Bytes → Option (Bytes × Bytes)
  | [] => none
  | [c] => if c = quote then some ([], []) else none
  | c :: d :: s =>
    if c = quote then some ([], d :: s)
    else if c = backslash then (literalBody s).map fun r => (c :: d :: r.1, r.2)
    else (literalBody (d :: s)).map fun r => (c :: r.1, r.2)

theorem literalBody_split (s body rest : Bytes) (h : literalBody s = some (body, rest)) :
    s = body ++ quote :: rest := by
  fun_induction literalBody s generalizing body with
  | case1 => cases h
  | case2 => cases h; rfl
  | case3 => cases h
  | case4 => cases h; rfl
  | case5 d s hq ih =>
    obtain ⟨⟨b, r⟩, hb, he⟩ := Option.map_eq_some_iff.1 h
    cases he
    rw [ih b hb, List.cons_append, List.cons_append]
  | case6 c d s hq hb ih =>
    obtain ⟨⟨b, r⟩, hr, he⟩ := Option.map_eq_some_iff.1 h
    cases he
    rw [ih b hr, List.cons_append]

/-- Inside a literal a quote always follows a backslash. -/
def Escaped (body : Bytes) : Prop :=
  ∀ i, body[i]? = some quote → ∃ j, i = j + 1 ∧ body[j]? = some backslash

theorem literalBody_escaped (s body rest : Bytes) (h : literalBody s = some (body, rest)) :
    Escaped body := by
  fun_induction literalBody s generalizing body with
  | case1 => cases h
  | case2 =>
    cases h
    intro i hi
    cases hi
  | case3 => cases h
  | case4 =>
    cases h
    intro i hi
    cases hi
  | case5 d s hq ih =>
    obtain ⟨⟨b, r⟩, hb, he⟩ := Option.map_eq_some_iff.1 h
    cases he
    intro i hi
    match i with
    | 0 => exact absurd (Option.some.inj hi) hq
    | 1 => exact ⟨0, rfl, rfl⟩
    | i + 2 =>
      obtain ⟨j, rfl, hj⟩ := ih b hb i hi
      exact ⟨j + 2, rfl, hj⟩
  | case6 c d s hq hb ih =>
    obtain ⟨⟨b, r⟩, hr, he⟩ := Option.map_eq_some_iff.1 h
    cases he
    intro i hi
    match i with
    | 0 => exact absurd (Option.some.inj hi) hq
    | i + 1 =>
      obtain ⟨j, rfl, hj⟩ := ih b hr i hi
      exact ⟨j + 1, rfl, hj⟩

/-! ### Strings -/

def hexVal (c : Byte) : Option ℕ :=
  if 48 ≤ c.val ∧ c.val ≤ 57 then some (c.val - 48)
  else if 97 ≤ c.val ∧ c.val ≤ 102 then some (c.val - 87)
  else if 65 ≤ c.val ∧ c.val ≤ 70 then some (c.val - 55)
  else none

/-- The code unit of four hexadecimal digits, and the input behind them. -/
def codeUnit : Bytes → Option (ℕ × Bytes)
  | a :: b :: c :: d :: s => do
    let va ← hexVal a
    let vb ← hexVal b
    let vc ← hexVal c
    let vd ← hexVal d
    some (4096 * va + 256 * vb + 16 * vc + vd, s)
  | _ => none

def utf8 (cp : ℕ) : Bytes :=
  let tail (shift : ℕ) : Byte := Fin.ofNat 256 (128 + cp / 2 ^ shift % 64)
  if cp < 0x80 then [Fin.ofNat 256 cp]
  else if cp < 0x800 then [Fin.ofNat 256 (192 + cp / 64), tail 0]
  else if cp < 0x10000 then [Fin.ofNat 256 (224 + cp / 4096), tail 6, tail 0]
  else [Fin.ofNat 256 (240 + cp / 262144), tail 12, tail 6, tail 0]

/-- The ranges of the bytes that have to follow a lead byte (Unicode table 3-7). -/
def utf8Tail (lead : ℕ) : Option (List (ℕ × ℕ)) :=
  if lead < 0xC2 then none
  else if lead < 0xE0 then some [(0x80, 0xBF)]
  else if lead = 0xE0 then some [(0xA0, 0xBF), (0x80, 0xBF)]
  else if lead = 0xED then some [(0x80, 0x9F), (0x80, 0xBF)]
  else if lead < 0xF0 then some [(0x80, 0xBF), (0x80, 0xBF)]
  else if lead = 0xF0 then some [(0x90, 0xBF), (0x80, 0xBF), (0x80, 0xBF)]
  else if lead < 0xF4 then some [(0x80, 0xBF), (0x80, 0xBF), (0x80, 0xBF)]
  else if lead = 0xF4 then some [(0x80, 0x8F), (0x80, 0xBF), (0x80, 0xBF)]
  else none

def inRanges (s : Bytes) (ranges : List (ℕ × ℕ)) : Bool :=
  ranges.length ≤ s.length && (s.zip ranges).all fun (c, lo, hi) => lo ≤ c.val && c.val ≤ hi

def simpleEscape (e : Byte) : Option Byte :=
  if e = quote ∨ e = backslash ∨ e = byte '/' then some e
  else if e = byte 'b' then some 8
  else if e = byte 'f' then some 12
  else if e = byte 'n' then some 10
  else if e = byte 'r' then some 13
  else if e = byte 't' then some 9
  else none

/-- The bytes a string literal stands for; `none` where the literal is malformed. -/
def unescape : ℕ → Bytes → Option Bytes
  | _, [] => some []
  | 0, _ => none
  | fuel + 1, c :: s =>
    if c = backslash then
      match s with
      | [] => none
      | e :: s =>
        if e = byte 'u' then do
          let (unit, s) ← codeUnit s
          if 0xDC00 ≤ unit ∧ unit ≤ 0xDFFF then none
          else if 0xD800 ≤ unit ∧ unit ≤ 0xDBFF then do
            -- a high surrogate has to be followed by an escaped low one
            let s ← expect backslash s
            let s ← expect (byte 'u') s
            let (low, s) ← codeUnit s
            if 0xDC00 ≤ low ∧ low ≤ 0xDFFF then
              (unescape fuel s).map (utf8 (0x10000 + (unit - 0xD800) * 0x400 + (low - 0xDC00)) ++ ·)
            else none
          else (unescape fuel s).map (utf8 unit ++ ·)
        else do
          let b ← simpleEscape e
          (unescape fuel s).map (b :: ·)
    else if c.val < 0x20 then none
    else if c.val < 0x80 then (unescape fuel s).map (c :: ·)
    else do
      let ranges ← utf8Tail c.val
      if inRanges s ranges then
        (unescape fuel (s.drop ranges.length)).map (c :: s.take ranges.length ++ ·)
      else none

/-- A string literal from its opening quote on: its value and the input behind it. -/
def stringLiteral (s : Bytes) : Option (Bytes × Bytes) := do
  let s ← expect quote s
  let (body, rest) ← literalBody s
  let value ← unescape body.length body
  some (value, rest)

theorem stringLiteral_split (s value rest : Bytes) (h : stringLiteral s = some (value, rest)) :
    ∃ body, s = quote :: (body ++ quote :: rest) ∧ Escaped body := by
  simp only [stringLiteral, Option.bind_eq_bind, Option.bind_eq_some_iff, expect_some] at h
  obtain ⟨t, rfl, ⟨body, r⟩, hb, v, -, he⟩ := h
  cases he
  exact ⟨body, congrArg _ (literalBody_split t body r hb), literalBody_escaped t body r hb⟩

/-! ### Numbers -/

def isDigit (c : Byte) : Bool := 48 ≤ c.val && c.val ≤ 57
def digitsVal (ds : Bytes) : ℕ := ds.foldl (fun n c => 10 * n + (c.val - 48)) 0

def intPart : Bytes → Option (Bytes × Bytes)
  | [] => none
  | c :: s =>
    if c = byte '0' then some ([c], s)
    else if isDigit c then some (c :: s.takeWhile isDigit, s.dropWhile isDigit)
    else none

/-- The digits of a fraction or an exponent: at least one. -/
def someDigits (lead s : Bytes) : Option (Bytes × Bytes) :=
  if s.takeWhile isDigit = [] then none else some (lead ++ s.takeWhile isDigit, s.dropWhile isDigit)

def fracPart : Bytes → Option (Bytes × Bytes)
  | [] => some ([], [])
  | c :: s => if c = byte '.' then someDigits [c] s else some ([], c :: s)

def expPart : Bytes → Option (Bytes × Bytes)
  | [] => some ([], [])
  | c :: s =>
    if c = byte 'e' ∨ c = byte 'E' then
      match s with
      | [] => none
      | d :: t => if d = byte '+' ∨ d = byte '-' then someDigits [c, d] t else someDigits [c] s
    else some ([], c :: s)

def sign : Bytes → Bool × Bytes
  | [] => (false, [])
  | c :: s => if c = byte '-' then (true, s) else (false, c :: s)

def numberLiteral (negative : Bool) (ds frac exp : Bytes) : Bytes :=
  (if negative then [byte '-'] else []) ++ ds ++ frac ++ exp

/-- Integers that fit 64 bits stay integers; everything else is a double, which
has to be finite. -/
def numberValue (isFinite : Bytes → Bool) (negative : Bool) (ds frac exp : Bytes) : Option Json :=
  let n := digitsVal ds
  if frac = [] ∧ exp = [] ∧ negative = false ∧ n < 2 ^ 64 then some (.unsigned n)
  else if frac = [] ∧ exp = [] ∧ negative = true ∧ n ≤ 2 ^ 63 then some (.integer (-n))
  else if isFinite (numberLiteral negative ds frac exp) then
    some (.float (numberLiteral negative ds frac exp))
  else none

def number (isFinite : Bytes → Bool) (s : Bytes) : Option (Json × Bytes) := do
  let (negative, s₁) := sign s
  let (ds, s₂) ← intPart s₁
  let (frac, s₃) ← fracPart s₂
  let (exp, rest) ← expPart s₃
  let value ← numberValue isFinite negative ds frac exp
  some (value, rest)

theorem someDigits_suffix (lead s ds rest : Bytes) (h : someDigits lead s = some (ds, rest)) :
    rest <:+ s := by
  unfold someDigits at h
  split at h
  · cases h
  · cases h
    exact List.dropWhile_suffix _

theorem intPart_suffix (s ds rest : Bytes) (h : intPart s = some (ds, rest)) : rest <:+ s := by
  unfold intPart at h
  split at h
  · cases h
  · split at h
    · cases h
      exact List.suffix_cons _ _
    · split at h
      · cases h
        exact (List.dropWhile_suffix _).trans (List.suffix_cons _ _)
      · cases h

theorem fracPart_suffix (s ds rest : Bytes) (h : fracPart s = some (ds, rest)) : rest <:+ s := by
  unfold fracPart at h
  split at h
  · cases h
    exact List.suffix_rfl
  · split at h
    · exact (someDigits_suffix _ _ _ _ h).trans (List.suffix_cons _ _)
    · cases h
      exact List.suffix_rfl

theorem expPart_suffix (s ds rest : Bytes) (h : expPart s = some (ds, rest)) : rest <:+ s := by
  unfold expPart at h
  split at h
  · cases h
    exact List.suffix_rfl
  · split at h
    · split at h
      · cases h
      · split at h
        · exact ((someDigits_suffix _ _ _ _ h).trans (List.suffix_cons _ _)).trans
            (List.suffix_cons _ _)
        · exact (someDigits_suffix _ _ _ _ h).trans (List.suffix_cons _ _)
    · cases h
      exact List.suffix_rfl

theorem sign_suffix (s : Bytes) : (sign s).2 <:+ s := by
  unfold sign
  split
  · exact List.suffix_rfl
  · split
    · exact List.suffix_cons _ _
    · exact List.suffix_rfl

theorem number_suffix (isFinite : Bytes → Bool) (s rest : Bytes) (j : Json)
    (h : number isFinite s = some (j, rest)) : rest <:+ s := by
  simp only [number, Option.bind_eq_bind, Option.bind_eq_some_iff] at h
  obtain ⟨⟨ds, s₂⟩, hi, ⟨frac, s₃⟩, hf, ⟨exp, r⟩, he, value, -, h⟩ := h
  cases h
  exact (expPart_suffix _ _ _ he).trans
    ((fracPart_suffix _ _ _ hf).trans ((intPart_suffix _ _ _ hi).trans (sign_suffix s)))

/-! ### Values -/

section Parser
variable (isFinite : Bytes → Bool)

mutual

/-- A value and the input behind it (`fuel` bounds the recursion). -/
def parseValue : ℕ → Bytes → Option (Json × Bytes)
  | 0, _ => none
  | _ + 1, [] => none
  | fuel + 1, c :: s =>
    if c = openBrace then (parseObject fuel s).map fun r => (objectOf r.1, r.2)
    else if c = openBracket then (parseArray fuel s).map fun r => (.array r.1, r.2)
    else if c = quote then (stringLiteral (c :: s)).map fun r => (.string r.1, r.2)
    else if text "true" <+: c :: s then some (.bool true, s.drop 3)
    else if text "false" <+: c :: s then some (.bool false, s.drop 4)
    else if text "null" <+: c :: s then some (.null, s.drop 3)
    else number isFinite (c :: s)

def parseObject : ℕ → Bytes → Option (List Member × Bytes)
  | 0, _ => none
  | fuel + 1, s =>
    match expect closeBrace (skipWs s) with
    | some rest => some ([], rest)
    | none => parseMembers fuel (skipWs s)

def parseMembers : ℕ → Bytes → Option (List Member × Bytes)
  | 0, _ => none
  | fuel + 1, s => do
    let (key, s₁) ← stringLiteral s
    let s₂ ← expect colon (skipWs s₁)
    let (value, rest) ← parseValue fuel (skipWs s₂)
    let m : Member := ⟨key, value, s, skipWs s₂, rest⟩
    match expect comma (skipWs rest) with
    | some t => (parseMembers fuel (skipWs t)).map fun r => (m :: r.1, r.2)
    | none => (expect closeBrace (skipWs rest)).map fun t => ([m], t)

def parseArray : ℕ → Bytes → Option (List Json × Bytes)
  | 0, _ => none
  | fuel + 1, s =>
    match expect closeBracket (skipWs s) with
    | some rest => some ([], rest)
    | none => parseElements fuel (skipWs s)

def parseElements : ℕ → Bytes → Option (List Json × Bytes)
  | 0, _ => none
  | fuel + 1, s => do
    let (value, rest) ← parseValue fuel s
    match expect comma (skipWs rest) with
    | some t => (parseElements fuel (skipWs t)).map fun r => (value :: r.1, r.2)
    | none => (expect closeBracket (skipWs rest)).map fun t => ([value], t)

end

def byteOrderMark : Bytes := [0xEF, 0xBB, 0xBF]
def dropBom (s : Bytes) : Bytes := if byteOrderMark <+: s then s.drop 3 else s

/-- Only white space is left, or a NUL byte comes first. -/
def ended (s : Bytes) : Bool :=
  match skipWs s with
  | [] => true
  | c :: _ => c == 0

/-- Every value the parser opens consumes a byte, so this fuel is never used up. -/
def fuelFor (s : Bytes) : ℕ := 2 * s.length + 2

/-- The value of a document and, where it is an object, its members as they stand. -/
def document (s : Bytes) : Option (Json × List Member) := do
  let s := skipWs (dropBom s)
  match expect openBrace s with
  | some t =>
    let (ms, rest) ← parseObject isFinite (fuelFor s) t
    if ended rest then some (objectOf ms, ms) else none
  | none =>
    let (value, rest) ← parseValue isFinite (fuelFor s) s
    if ended rest then some (value, []) else none

def parse (s : Bytes) : Option Json := (document isFinite s).map (·.1)

def members (s : Bytes) : List Member := ((document isFinite s).map (·.2)).getD []

theorem number_not_object (s rest : Bytes) (o : List (Bytes × Json)) :
    number isFinite s ≠ some (.object o, rest) := by
  intro h
  simp only [number, Option.bind_eq_bind, Option.bind_eq_some_iff] at h
  obtain ⟨⟨ds, s₂⟩, -, ⟨frac, s₃⟩, -, ⟨exp, r⟩, -, value, hv, h⟩ := h
  cases h
  unfold numberValue at hv
  dsimp only at hv
  split at hv
  · cases hv
  split at hv
  · cases hv
  split at hv
  · cases hv
  · cases hv

theorem parseValue_object (fuel : ℕ) (s rest : Bytes) (o : List (Bytes × Json))
    (h : parseValue isFinite fuel s = some (.object o, rest)) : expect openBrace s ≠ none := by
  cases fuel with
  | zero => simp [parseValue] at h
  | succ fuel =>
    cases s with
    | nil => simp [parseValue] at h
    | cons c s =>
      simp only [parseValue] at h
      split at h
      next hc => simp [expect, hc]
      split at h
      · obtain ⟨r, -, he⟩ := Option.map_eq_some_iff.1 h
        cases he
      split at h
      · obtain ⟨r, -, he⟩ := Option.map_eq_some_iff.1 h
        cases he
      split at h
      · cases h
      split at h
      · cases h
      split at h
      · cases h
      · exact absurd h (number_not_object isFinite _ _ _)

theorem parse_object (s : Bytes) (o : List (Bytes × Json))
    (h : parse isFinite s = some (.object o)) : objectOf (members isFinite s) = .object o := by
  obtain ⟨⟨j, ms⟩, hd, he⟩ := Option.map_eq_some_iff.1 h
  cases he
  simp only [members, hd, Option.map_some, Option.getD_some]
  unfold document at hd
  dsimp only at hd
  split at hd
  next t ht =>
    simp only [Option.bind_eq_bind, Option.bind_eq_some_iff] at hd
    obtain ⟨⟨ms', rest⟩, -, hd⟩ := hd
    split at hd
    · simp only [Option.some.injEq, Prod.mk.injEq] at hd
      rw [← hd.2]
      exact hd.1
    · cases hd
  next hn =>
    simp only [Option.bind_eq_bind, Option.bind_eq_some_iff] at hd
    obtain ⟨⟨value, rest⟩, hv, hd⟩ := hd
    split at hd
    · simp only [Option.some.injEq, Prod.mk.injEq] at hd
      rw [hd.1] at hv
      exact absurd hn (parseValue_object isFinite _ _ _ _ hv)
    · cases hd

end Parser

/-! ### Equality -/

mutual
def same : Json → Json → Bool
  | .null, .null => true
  | .bool a, .bool b => a == b
  | .unsigned m, .unsigned n => m == n
  | .integer i, .integer j => i == j
  | .float l, .float k => l == k
  | .string s, .string t => s == t
  | .array xs, .array ys => sameItems xs ys
  | .object o, .object p => sameMembers o p
  | _, _ => false

def sameItems : List Json → List Json → Bool
  | [], [] => true
  | x :: xs, y :: ys => same x y && sameItems xs ys
  | _, _ => false

def sameMembers : List (Bytes × Json) → List (Bytes × Json) → Bool
  | [], [] => true
  | (k, v) :: o, (l, w) :: p => k == l && same v w && sameMembers o p
  | _, _ => false
end

mutual
theorem eq_of_same : ∀ j k : Json, same j k = true → j = k
  | .null, k, h => by cases k <;> simp_all [same]
  | .bool a, k, h => by cases k <;> simp_all [same]
  | .unsigned m, k, h => by cases k <;> simp_all [same]
  | .integer i, k, h => by cases k <;> simp_all [same]
  | .float l, k, h => by cases k <;> simp_all [same]
  | .string s, k, h => by cases k <;> simp_all [same]
  | .array xs, k, h => by
    cases k with
    | array ys => exact congrArg Json.array (eq_of_sameItems xs ys (by simpa [same] using h))
    | _ => simp [same] at h
  | .object o, k, h => by
    cases k with
    | object p => exact congrArg Json.object (eq_of_sameMembers o p (by simpa [same] using h))
    | _ => simp [same] at h

theorem eq_of_sameItems : ∀ xs ys : List Json, sameItems xs ys = true → xs = ys
  | [], ys, h => by cases ys <;> simp_all [sameItems]
  | x :: xs, ys, h => by
    cases ys with
    | nil => simp [sameItems] at h
    | cons y ys =>
      simp only [sameItems, Bool.and_eq_true] at h
      rw [eq_of_same x y h.1, eq_of_sameItems xs ys h.2]

theorem eq_of_sameMembers : ∀ o p : List (Bytes × Json), sameMembers o p = true → o = p
  | [], p, h => by cases p <;> simp_all [sameMembers]
  | (k, v) :: o, p, h => by
    cases p with
    | nil => simp [sameMembers] at h
    | cons y p =>
      obtain ⟨l, w⟩ := y
      simp only [sameMembers, Bool.and_eq_true, beq_iff_eq] at h
      rw [h.1.1, eq_of_same v w h.1.2, eq_of_sameMembers o p h.2]
end

end JsonText
