import Ravl.Util
import Ravl.Lib.JsonText

/-!
# Access to JSON values (nlohmann/json.hpp)

The non-const `operator[]` gives null for a missing key; the const one asserts
that the key is there and is undefined otherwise. Conversions throw type errors.
-/

namespace Ravl
open ByteLib FallibleLib JsonText

def typeName : Json → String
  | .null => "null"
  | .bool _ => "boolean"
  | .unsigned _ => "number"
  | .integer _ => "number"
  | .float _ => "number"
  | .string _ => "string"
  | .array _ => "array"
  | .object _ => "object"

def typeError302 (wanted : String) (j : Json) : Error :=
  .exception ("[json.exception.type_error.302] type must be " ++ wanted ++ ", but is " ++ typeName j)
def typeError305 (j : Json) : Error :=
  .exception ("[json.exception.type_error.305] cannot use operator[] with a string argument with " ++
    typeName j)

/-- `json::parse` -/
def jsonParse (dbl : Doubles) (s : Bytes) : Result Json :=
  orThrow (parse dbl.isFinite s) (.exception "[json.exception.parse_error.101] parse error")

/-- `j.find(key)` -/
def findKey (j : Json) (key : Bytes) : Option Json :=
  match j with
  | .object o => lookup key o
  | _ => none

/-- `j[key]` of a value that is not const; the null it may insert is never read again. -/
def index (j : Json) (key : Bytes) : Result Json :=
  match j with
  | .null => pure .null
  | .object o => pure ((lookup key o).getD .null)
  | j => throw (typeError305 j)

def indexConst (j : Json) (key : Bytes) : Result Json :=
  match j with
  | .object o => orThrow (lookup key o) (.undefined "operator[] const for a key that is absent")
  | j => throw (typeError305 j)

def getString : Json → Result Bytes
  | .string s => pure s
  | j => throw (typeError302 "string" j)

/-- `get<uintN_t>()`: numbers of any kind are cast. -/
def getNumber (dbl : Doubles) (bits : ℕ) : Json → Result ℕ
  | .unsigned n => pure (n % 2 ^ bits)
  | .integer i => pure (i % 2 ^ bits).toNat
  | .float literal => pure (dbl.toUnsigned literal bits % 2 ^ bits)
  | j => throw (typeError302 "number" j)

/-- For types other than the three number types of the library a boolean counts as a number. -/
def getUint (dbl : Doubles) (bits : ℕ) : Json → Result ℕ
  | .bool b => pure b.toNat
  | j => getNumber dbl bits j

/-- What a range-for visits. -/
def items : Json → List Json
  | .null => []
  | .array xs => xs
  | .object o => o.map (·.2)
  | j => [j]

/-! ### Which of these throw -/

theorem getString_fails (j : Json) : FailsWith Thrown (getString j) := by
  cases j with
  | string s => exact FailsWith.pure _ _
  | _ => exact FailsWith.throw (thrown _)

theorem getNumber_fails (dbl : Doubles) (bits : ℕ) (j : Json) : FailsWith Thrown (getNumber dbl bits j) := by
  cases j with
  | unsigned n => exact FailsWith.pure _ _
  | integer i => exact FailsWith.pure _ _
  | float l => exact FailsWith.pure _ _
  | _ => exact FailsWith.throw (thrown _)

theorem getUint_fails (dbl : Doubles) (bits : ℕ) (j : Json) : FailsWith Thrown (getUint dbl bits j) := by
  unfold getUint
  split
  · exact FailsWith.pure _ _
  · exact getNumber_fails dbl bits _

end Ravl
