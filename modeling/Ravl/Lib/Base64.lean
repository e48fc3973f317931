import Ravl.Lib.Bytes

/-!
# Base64 (RFC 4648, sections 4 and 5)

Groups of three bytes are four digits of six bits; the last group is padded. The alphabet for
URLs has two other digits, and its texts go without the padding.
-/

namespace Base64Lib
open ByteLib

def pad : Byte := byte '='

def digit (n : ℕ) : Byte :=
  if n < 26 then Fin.ofNat 256 (n + 65)
  else if n < 52 then Fin.ofNat 256 (n + 71)
  else if n < 62 then Fin.ofNat 256 (n - 4)
  else if n = 62 then byte '+'
  else byte '/'

def value (c : Byte) : Option ℕ :=
  if 65 ≤ c.val ∧ c.val ≤ 90 then some (c.val - 65)
  else if 97 ≤ c.val ∧ c.val ≤ 122 then some (c.val - 71)
  else if 48 ≤ c.val ∧ c.val ≤ 57 then some (c.val + 4)
  else if c = byte '+' then some 62
  else if c = byte '/' then some 63
  else none

def encode : Bytes → Bytes
  | [] => []
  | [a] => [digit (a.val / 4), digit (a.val % 4 * 16), pad, pad]
  | [a, b] => [digit (a.val / 4), digit (a.val % 4 * 16 + b.val / 16), digit (b.val % 16 * 4), pad]
  | a :: b :: c :: s =>
    digit (a.val / 4) :: digit (a.val % 4 * 16 + b.val / 16) ::
      digit (b.val % 16 * 4 + c.val / 64) :: digit (c.val % 64) :: encode s

def first (a b : ℕ) : Byte := Fin.ofNat 256 (a * 4 + b / 16)
def second (b c : ℕ) : Byte := Fin.ofNat 256 (b % 16 * 16 + c / 4)
def third (c d : ℕ) : Byte := Fin.ofNat 256 (c % 4 * 64 + d)

def decodeLast (a b c d : Byte) : Option Bytes := do
  let va ← value a
  let vb ← value b
  if c = pad ∧ d = pad then some [first va vb]
  else do
    let vc ← value c
    if d = pad then some [first va vb, second vb vc]
    else do
      let vd ← value d
      some [first va vb, second vb vc, third vc vd]

def decode : Bytes → Option Bytes
  | [] => some []
  | [a, b, c, d] => decodeLast a b c d
  | a :: b :: c :: d :: s => do
    let va ← value a
    let vb ← value b
    let vc ← value c
    let vd ← value d
    let rest ← decode s
    some (first va vb :: second vb vc :: third vc vd :: rest)
  | _ => none

/-! ### Decoding undoes encoding -/

theorem value_digit_fin : ∀ n : Fin 64, value (digit n.val) = some n.val := by decide

theorem value_digit (n : ℕ) (h : n < 64) : value (digit n) = some n := value_digit_fin ⟨n, h⟩

theorem digit_ne_pad_fin : ∀ n : Fin 64, digit n.val ≠ pad := by decide

theorem digit_ne_pad (n : ℕ) (h : n < 64) : digit n ≠ pad := digit_ne_pad_fin ⟨n, h⟩

theorem first_split (a : Byte) (b : ℕ) (h : b < 16) :
    first (a.val / 4) (a.val % 4 * 16 + b) = a := by
  have hval : a.val / 4 * 4 + (a.val % 4 * 16 + b) / 16 = a.val := by omega
  rw [first, hval]
  exact Fin.ofNat_val_eq_self a

theorem second_split (a b : Byte) (c : ℕ) (h : c < 4) :
    second (a.val % 4 * 16 + b.val / 16) (b.val % 16 * 4 + c) = b := by
  have hval : (a.val % 4 * 16 + b.val / 16) % 16 * 16 + (b.val % 16 * 4 + c) / 4 = b.val := by omega
  rw [second, hval]
  exact Fin.ofNat_val_eq_self b

theorem third_split (b c : Byte) : third (b.val % 16 * 4 + c.val / 64) (c.val % 64) = c := by
  have hval : (b.val % 16 * 4 + c.val / 64) % 4 * 64 + c.val % 64 = c.val := by omega
  rw [third, hval]
  exact Fin.ofNat_val_eq_self c

theorem decode_encode (s : Bytes) : decode (encode s) = some s := by
  fun_induction encode s with
  | case1 => rfl
  | case2 a =>
    have ha := value_digit (a.val / 4) (by omega)
    have hb := value_digit (a.val % 4 * 16) (by omega)
    have hfirst := first_split a 0 (by omega)
    simp only [decode, decodeLast, ha, hb, Option.bind_eq_bind, Option.bind_some, and_self, if_true]
    exact congrArg (fun x => some [x]) hfirst
  | case3 a b =>
    have ha := value_digit (a.val / 4) (by omega)
    have hb := value_digit (a.val % 4 * 16 + b.val / 16) (by omega)
    have hc := value_digit (b.val % 16 * 4) (by omega)
    have hpad := digit_ne_pad (b.val % 16 * 4) (by omega)
    have hfirst := first_split a (b.val / 16) (by omega)
    have hsecond := second_split a b 0 (by omega)
    rw [Nat.add_zero] at hsecond
    simp only [decode, decodeLast, ha, hb, hc, hpad, Option.bind_eq_bind, Option.bind_some, false_and,
      if_false, if_true, hfirst, hsecond]
  | case4 a b c s ih =>
    have ha := value_digit (a.val / 4) (by omega)
    have hb := value_digit (a.val % 4 * 16 + b.val / 16) (by omega)
    have hc := value_digit (b.val % 16 * 4 + c.val / 64) (by omega)
    have hd := value_digit (c.val % 64) (by omega)
    have hpad := digit_ne_pad (c.val % 64) (by omega)
    have hfirst := first_split a (b.val / 16) (by omega)
    have hsecond := second_split a b (c.val / 64) (by omega)
    have hthird := third_split b c
    cases hrest : encode s with
    | nil =>
      rw [hrest] at ih
      cases ih
      simp only [decode, decodeLast, ha, hb, hc, hd, hpad, Option.bind_eq_bind, Option.bind_some,
        and_false, if_false, hfirst, hsecond, hthird]
    | cons x xs =>
      rw [hrest] at ih
      simp only [decode, ha, hb, hc, hd, ih, Option.bind_eq_bind, Option.bind_some, hfirst, hsecond,
        hthird]

/-! ### The alphabet for URLs -/

def urlDigit (n : ℕ) : Byte :=
  if n = 62 then byte '-'
  else if n = 63 then byte '_'
  else digit n

def encodeUrl : Bytes → Bytes
  | [] => []
  | [a] => [urlDigit (a.val / 4), urlDigit (a.val % 4 * 16)]
  | [a, b] =>
    [urlDigit (a.val / 4), urlDigit (a.val % 4 * 16 + b.val / 16), urlDigit (b.val % 16 * 4)]
  | a :: b :: c :: s =>
    urlDigit (a.val / 4) :: urlDigit (a.val % 4 * 16 + b.val / 16) ::
      urlDigit (b.val % 16 * 4 + c.val / 64) :: urlDigit (c.val % 64) :: encodeUrl s

/-- The digit of the other alphabet; everything else stays. -/
def standardDigit (c : Byte) : Byte :=
  if c = byte '-' then byte '+'
  else if c = byte '_' then byte '/'
  else c

/-- How much is missing behind so many digits. -/
def padding (n : ℕ) : ℕ := if n % 4 = 2 then 2 else if n % 4 = 3 then 1 else 0

def standard (s : Bytes) : Bytes := s.map standardDigit ++ List.replicate (padding s.length) pad

theorem standardDigit_fin : ∀ n : Fin 64, standardDigit (urlDigit n.val) = digit n.val := by decide

theorem standardDigit_urlDigit (n : ℕ) (h : n < 64) : standardDigit (urlDigit n) = digit n :=
  standardDigit_fin ⟨n, h⟩

theorem padding_add_four (n : ℕ) : padding (n + 1 + 1 + 1 + 1) = padding n := by
  have hmod : (n + 1 + 1 + 1 + 1) % 4 = n % 4 := by omega
  rw [padding, padding, hmod]

theorem standard_encodeUrl (s : Bytes) : standard (encodeUrl s) = encode s := by
  fun_induction encodeUrl s with
  | case1 => rfl
  | case2 a =>
    have ha := standardDigit_urlDigit (a.val / 4) (by omega)
    have hb := standardDigit_urlDigit (a.val % 4 * 16) (by omega)
    simp only [standard, encode, List.map_cons, List.map_nil, ha, hb]
    rfl
  | case3 a b =>
    have ha := standardDigit_urlDigit (a.val / 4) (by omega)
    have hb := standardDigit_urlDigit (a.val % 4 * 16 + b.val / 16) (by omega)
    have hc := standardDigit_urlDigit (b.val % 16 * 4) (by omega)
    simp only [standard, encode, List.map_cons, List.map_nil, ha, hb, hc]
    rfl
  | case4 a b c s ih =>
    have ha := standardDigit_urlDigit (a.val / 4) (by omega)
    have hb := standardDigit_urlDigit (a.val % 4 * 16 + b.val / 16) (by omega)
    have hc := standardDigit_urlDigit (b.val % 16 * 4 + c.val / 64) (by omega)
    have hd := standardDigit_urlDigit (c.val % 64) (by omega)
    rw [standard] at ih
    simp only [standard, encode, List.map_cons, List.length_cons, padding_add_four, ha, hb, hc, hd,
      List.cons_append, ih]

end Base64Lib
