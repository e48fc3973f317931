import Ravl.Lib.Bytes
import Ravl.Lib.Fallible
import Mathlib.Algebra.Order.Ring.Int

/-!
# Helpers (util.h)

Strings and buffers are byte lists. `size_t` arithmetic is taken modulo `2 ^ w`
where a sum can wrap. A `std::exception` keeps its text; what the language
leaves undefined (a lookup with the const `operator[]` for a missing key, a
dereferenced empty optional) is an outcome of its own, which no handler catches.
-/

namespace Ravl
open ByteLib FallibleLib

inductive Error
  | exception (what : String)
  | undefined (what : String)
  deriving DecidableEq, Repr

abbrev Result := Except Error

/-- `catch (const std::exception& ex) { throw std::runtime_error(pre + ex.what()); }` -/
def Error.prefixed (pre : String) : Error → Error
  | .exception what => .exception (pre ++ what)
  | .undefined what => .undefined what

/-- Something is thrown, nothing is left undefined. -/
def Thrown (e : Error) : Prop := ∃ what, e = .exception what

theorem thrown (what : String) : Thrown (.exception what) := ⟨what, rfl⟩

theorem not_thrown (what : String) : ¬ Thrown (.undefined what) := nofun

/-- What the host makes of a floating-point literal: whether it is finite, and its
conversion to an unsigned integer of so many bits. -/
structure Doubles where
  isFinite : Bytes → Bool
  toUnsigned : Bytes → ℕ → ℕ

/-- What the machine adds to the program: its floating-point numbers, the memory behind the
evidence buffer, the memory of a new object, and what a span reads whose end lies before its
start. -/
structure Host where
  doubles : Doubles
  beyond : ℕ → Byte
  unset : ℕ → Byte
  wild : Bytes → ℕ → ℕ → Bytes

def plainHost : Host where
  doubles := ⟨fun _ => true, fun _ _ => 0⟩
  beyond _ := 0
  unset _ := 0
  wild _ _ _ := []

def spanBytes (host : Host) (buffer : Bytes) (start stop : ℕ) : Bytes :=
  if start ≤ stop then sub buffer start (stop - start) else host.wild buffer start stop

/-! ### Reading numbers and blocks (`get`, `get_n`, util.h:58-83) -/

def dataAt (data : Bytes) (pos n : ℕ) : Result Bytes := do
  refuse (data.length < pos + n) (.exception "vector::_M_range_check")
  pure (sub data pos n)

/-- `get<T>` for a `T` of `n` bytes: the value and the new position. -/
def get (w n : ℕ) (data : Bytes) (pos : ℕ) : Result (ℕ × ℕ) := do
  refuse (data.length < (pos + n) % 2 ^ w) (.exception "not enough data")
  let bs ← dataAt data pos n
  pure (beVal bs, (pos + n) % 2 ^ w)

def getN (w : ℕ) (data : Bytes) (n pos : ℕ) : Result (Bytes × ℕ) := do
  refuse (data.length < (pos + n) % 2 ^ w) (.exception "not enough data")
  refuse (2 ^ (w - 1) ≤ n) (.exception "cannot create std::vector larger than max_size()")
  let bs ← dataAt data pos n
  pure (bs, (pos + n) % 2 ^ w)

/-! ### Hexadecimal (util.h:100-172) -/

def isSpace (c : Byte) : Bool := c == byte ' ' || (9 ≤ c.val && c.val ≤ 13)

def hexDigit (c : Byte) : Option ℕ :=
  if 48 ≤ c.val ∧ c.val ≤ 57 then some (c.val - 48)
  else if 97 ≤ c.val ∧ c.val ≤ 102 then some (c.val - 87)
  else if 65 ≤ c.val ∧ c.val ≤ 70 then some (c.val - 55)
  else none

/-- A C string ends at its first NUL. -/
def cString (s : Bytes) : Bytes := s.takeWhile (· != 0)

/-- At most `width` hexadecimal digits, continuing from `acc`. -/
def scanDigits : ℕ → ℕ → Bytes → ℕ
  | 0, acc, _ => acc
  | _, acc, [] => acc
  | width + 1, acc, c :: s =>
    match hexDigit c with
    | none => acc
    | some d => scanDigits width (16 * acc + d) s

/-- The digits of a `%x` conversion of the given width: `none` where there is none.
A `0x` counts towards the width and stands for 0 when no digit follows. -/
def scanUnsigned (width : ℕ) (s : Bytes) : Option ℕ :=
  match width, s with
  | 0, _ => none
  | _, [] => none
  | width + 1, c :: s =>
    match hexDigit c with
    | none => none
    | some d =>
      match width, s with
      | width + 1, x :: s =>
        if c = byte '0' ∧ (x = byte 'x' ∨ x = byte 'X') then some (scanDigits width 0 s)
        else some (scanDigits (width + 1) d (x :: s))
      | _, _ => some d

/-- `sscanf(s, "%02hhx", &t)`: white space is skipped, a sign counts towards the
width of two; `none` where it does not return 1. -/
def scanHexByte (s : Bytes) : Option Byte :=
  match (cString s).dropWhile isSpace with
  | [] => none
  | c :: t =>
    if c = byte '-' then (scanUnsigned 1 t).map fun v => Fin.ofNat 256 (256 - v)
    else if c = byte '+' then (scanUnsigned 1 t).map (Fin.ofNat 256)
    else (scanUnsigned 2 (c :: t)).map (Fin.ofNat 256)

/-- The loop of `from_hex`: `n` bytes from offset `i` on. -/
def scanHexBytes (s : Bytes) : ℕ → ℕ → Option Bytes
  | 0, _ => some []
  | n + 1, i => do
    let b ← scanHexByte (s.drop i)
    let bs ← scanHexBytes s n (i + 2)
    some (b :: bs)

def fromHex (s : Bytes) : Result Bytes := do
  refuse (s.length % 2 ≠ 0) (.exception "odd number of hex digits")
  -- a pair that does not scan gives the empty vector
  pure ((scanHexBytes s (s.length / 2) 0).getD [])

/-- `from_hex_t<T>` for a `T` of `n` bytes. -/
def fromHexT (n : ℕ) (s : Bytes) (littleEndian : Bool) : Result ℕ := do
  refuse (s.length % 2 ≠ 0) (.exception "odd number of hex digits")
  refuse (2 * n ≠ s.length) (.exception "hex string incomplete")
  match scanHexBytes s n 0 with
  | none => pure 0
  | some bs => pure (if littleEndian then leVal bs else beVal bs)

def lowerHexDigit (n : ℕ) : Byte := Fin.ofNat 256 (if n < 10 then 48 + n else 87 + n)
def toHex (v : Bytes) : Bytes := v.flatMap fun b => [lowerHexDigit (b.val / 16), lowerHexDigit (b.val % 16)]

/-! ### Pointers into a buffer (util.h:175-187) -/

/-- `verify_within` for a span at offset `off` of a buffer of `len` bytes: its first and its
last byte have to lie inside (offsets from the buffer's start, modulo the address space). -/
def verifyWithin (off size len : ℕ) : Result Unit := do
  refuse (len ≤ off % 2 ^ 64) (.exception "invalid pointer")
  refuse (len ≤ (off + size + (2 ^ 64 - 1)) % 2 ^ 64) (.exception "invalid pointer")

theorem verifyWithin_ok (off size len : ℕ) (hsize : 0 < size) (hfit : off + size ≤ 2 ^ 64)
    (h : verifyWithin off size len = .ok ()) : off + size ≤ len := by
  simp only [verifyWithin, bind_ok, refuse_ok] at h
  obtain ⟨-, -, h⟩ := h
  have hlast : (off + size + (2 ^ 64 - 1)) % 2 ^ 64 = off + size - 1 := by omega
  omega

theorem verifyWithin_start (off size len : ℕ) (hfit : off < 2 ^ 64)
    (h : verifyWithin off size len = .ok ()) : off < len := by
  simp only [verifyWithin, bind_ok, refuse_ok] at h
  obtain ⟨-, h, -⟩ := h
  rw [Nat.mod_eq_of_lt hfit] at h
  omega

/-- A span that lies inside and does not start at the end passes, an empty one too. -/
theorem verifyWithin_inside (off size len : ℕ) (hpos : 0 < off + size) (hstart : off < len)
    (hstop : off + size ≤ len) : verifyWithin off size len = .ok () := by
  have hfirst : off % 2 ^ 64 ≤ off := Nat.mod_le _ _
  have hlast : (off + size + (2 ^ 64 - 1)) % 2 ^ 64 ≤ off + size - 1 := by
    have hshift : off + size + (2 ^ 64 - 1) = off + size - 1 + 2 ^ 64 := by omega
    rw [hshift, Nat.add_mod_right]
    exact Nat.mod_le _ _
  simp only [verifyWithin, bind_ok, refuse_ok]
  exact ⟨(), by omega, by omega⟩

theorem verifyWithin_fails (off size len : ℕ) : FailsWith Thrown (verifyWithin off size len) :=
  FailsWith.bind (FailsWith.refuse (thrown _)) fun _ _ => FailsWith.refuse (thrown _)

/-- A span that is not empty and does not wrap around the address space -/
theorem verifyWithin_iff (off size len : ℕ) (hsize : 0 < size) (hfit : off + size ≤ 2 ^ 64) :
    verifyWithin off size len = .ok () ↔ off + size ≤ len :=
  ⟨verifyWithin_ok off size len hsize hfit,
    fun h => verifyWithin_inside off size len (by omega) (by omega) h⟩

def isAllZero (v : Bytes) : Bool := v.all (· == 0)

/-! ### Time points (util.h:202-212) -/

/-- `get_number` of strptime: blanks are skipped, then at most `n` digits, and no
further digit once another one would leave the range. -/
def strptimeDigits : ℕ → ℕ → ℕ → Bytes → ℕ × Bytes
  | 0, _, val, s => (val, s)
  | _, _, val, [] => (val, [])
  | n + 1, hi, val, c :: s =>
    if val * 10 ≤ hi ∧ 48 ≤ c.val ∧ c.val ≤ 57 then strptimeDigits n hi (val * 10 + (c.val - 48)) s
    else (val, c :: s)

def strptimeNumber (lo hi n : ℕ) (s : Bytes) : Option (ℕ × Bytes) :=
  match s.dropWhile (· == byte ' ') with
  | [] => none
  | c :: t =>
    if 48 ≤ c.val ∧ c.val ≤ 57 then
      let r := strptimeDigits (n - 1) hi (c.val - 48) t
      if lo ≤ r.1 ∧ r.1 ≤ hi then some r else none
    else none

def matchChar (c : Char) : Bytes → Option Bytes
  | [] => none
  | a :: s => if a = byte c then some s else none

/-- Days from 1970-01-01 to the first of a month (proleptic Gregorian calendar). -/
def daysFromCivil (year month : ℕ) : ℤ :=
  let y : ℤ := if month ≤ 2 then (year : ℤ) - 1 else year
  let m : ℤ := ((month : ℤ) + 9) % 12
  365 * y + y / 4 - y / 100 + y / 400 + (153 * m + 2) / 5 - 719468

/-- `timegm`; the day may run over the end of its month. -/
def timegm (year month day hour minute second : ℕ) : ℤ :=
  (daysFromCivil year month + day - 1) * 86400 + hour * 3600 + minute * 60 + second

/-- `strptime` with the format `%Y-%m-%dT%H:%M:%SZ` and `timegm` of its result, in seconds. -/
def strptimeDatetime (s : Bytes) : Option (ℤ × Bytes) := do
  let (year, s) ← strptimeNumber 0 9999 4 s
  let s ← matchChar '-' s
  let (month, s) ← strptimeNumber 1 12 2 s
  let s ← matchChar '-' s
  let (day, s) ← strptimeNumber 1 31 2 s
  let s ← matchChar 'T' s
  let (hour, s) ← strptimeNumber 0 23 2 s
  let s ← matchChar ':' s
  let (minute, s) ← strptimeNumber 0 59 2 s
  let s ← matchChar ':' s
  let (second, s) ← strptimeNumber 0 61 2 s
  let s ← matchChar 'Z' s
  some (timegm year month day hour minute second, s)

/-- What a `std::chrono` duration counts in: a 64-bit integer with a sign. -/
def InInt64 (n : ℤ) : Prop := -2 ^ 63 ≤ n ∧ n < 2 ^ 63

instance (n : ℤ) : Decidable (InInt64 n) := inferInstanceAs (Decidable (_ ∧ _))

/-- `system_clock::from_time_t`: the nanoseconds since 1970. The product is a signed one, and
where it leaves the 64 bits (before 1677 and after 2262) nothing is promised. -/
def fromTimeT (seconds : ℤ) : Result ℤ := do
  refuse (¬ InInt64 (seconds * 1000000000)) (.undefined "signed overflow in from_time_t")
  pure (seconds * 1000000000)

/-- `tm_gmtoff` stays 0: the format has a `Z` and no offset. -/
def parseTimePoint (s : Bytes) : Result ℤ :=
  match strptimeDatetime (cString s) with
  | some (t, []) => fromTimeT t
  | _ => throw (.exception "time point parsing failure")

example : parseTimePoint (text "2017-03-17T00:00:00Z") = .ok 1489708800000000000 := by decide +kernel

example : parseTimePoint (text "2262-04-11T23:47:17Z") = .error (.undefined "signed overflow in from_time_t") := by
  decide +kernel

/-! ### URL decoding (util.h:156-160, 220-246; http_client.h:125-135) -/

def toLower (c : Byte) : Byte := if 65 ≤ c.val ∧ c.val ≤ 90 then c + 32 else c

/-- `char from_hex(char)`, computed in a `char`. -/
def fromHexChar (c : Byte) : Byte :=
  if 48 ≤ c.val ∧ c.val ≤ 57 then c - 48 else toLower c - 97 + 10

/-- What the loop writes for a C string (`fuel` is its length). -/
def urlDecodeLoop : ℕ → Bytes → Bytes
  | _, [] => []
  | 0, _ => []
  | fuel + 1, c :: s =>
    if c = byte '%' then
      match s with
      | a :: b :: t =>
        Fin.ofNat 256 ((16 * (fromHexChar a).val % 256) ||| (fromHexChar b).val) :: urlDecodeLoop fuel t
      | _ => urlDecodeLoop fuel s
    else if c = byte '+' then byte ' ' :: urlDecodeLoop fuel s
    else c :: urlDecodeLoop fuel s

/-- The caller takes the decoded bytes up to the first NUL. -/
def urlDecode (s : Bytes) : Bytes := cString (urlDecodeLoop (cString s).length (cString s))

end Ravl
