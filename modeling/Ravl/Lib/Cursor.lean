import Ravl.Lib.Bytes
import Ravl.Lib.Fallible

/-!
# Readers over a buffer with a position

A reader gets a buffer and a position in it and returns a value and the next
position. `Reads` says which values it can return and which bytes it takes for
them; what follows in the buffer is not looked at. Programs that call one reader
after the other are taken apart, and put together again, step by step.
-/

namespace CursorLib
open ByteLib FallibleLib
variable {ε α β : Type}

/-- `rest` is what lies ahead at the position. -/
def Ahead (data : Bytes) (pos : ℕ) (rest : Bytes) : Prop :=
  ∃ before : Bytes, data = before ++ rest ∧ before.length = pos

theorem Ahead.start (data : Bytes) : Ahead data 0 data := ⟨[], rfl, rfl⟩

theorem Ahead.next {data part rest : Bytes} {pos : ℕ} (h : Ahead data pos (part ++ rest)) :
    Ahead data (pos + part.length) rest := by
  obtain ⟨before, rfl, rfl⟩ := h
  exact ⟨before ++ part, (List.append_assoc ..).symm, List.length_append⟩

theorem Ahead.length {data rest : Bytes} {pos : ℕ} (h : Ahead data pos rest) :
    data.length = pos + rest.length := by
  obtain ⟨before, rfl, rfl⟩ := h
  exact List.length_append

theorem Ahead.sub_part {data part rest : Bytes} {pos : ℕ} (h : Ahead data pos (part ++ rest)) :
    sub data pos part.length = part := by
  obtain ⟨before, rfl, rfl⟩ := h
  rw [← List.append_assoc]
  exact sub_middle before part rest _ _ rfl rfl

theorem Ahead.split {data rest : Bytes} {pos n : ℕ} (h : Ahead data pos rest)
    (hn : pos + n ≤ data.length) :
    rest = sub data pos n ++ rest.drop n ∧ (sub data pos n).length = n := by
  have hlen := h.length
  obtain ⟨before, rfl, rfl⟩ := h
  refine ⟨?_, sub_length _ _ _ hn⟩
  rw [sub, List.drop_left, List.take_append_drop]

/-- In buffers shorter than `bound` the reader returns the value `a` exactly where `encode a`
lies ahead and `a` is valid. -/
def Reads (bound : ℕ) (read : Bytes → ℕ → Except ε (α × ℕ)) (valid : α → Prop)
    (encode : α → Bytes) : Prop :=
  ∀ data pos rest, data.length < bound → Ahead data pos rest → ∀ a next,
    read data pos = .ok (a, next) ↔
      valid a ∧ next = pos + (encode a).length ∧ ∃ rest', rest = encode a ++ rest'

section
variable {bound : ℕ} {read : Bytes → ℕ → Except ε (α × ℕ)} {valid : α → Prop}
  {encode : α → Bytes} {data rest : Bytes} {pos : ℕ} {k : α × ℕ → Except ε β} {b : β}

/-- What a program that goes on with a reader's result has read. -/
theorem Reads.taken (h : Reads bound read valid encode) (hdata : data.length < bound)
    (hpos : Ahead data pos rest) (hrun : (read data pos >>= k) = .ok b) :
    ∃ a next rest', valid a ∧ rest = encode a ++ rest' ∧ Ahead data next rest' ∧
      k (a, next) = .ok b := by
  obtain ⟨⟨a, next⟩, hread, hk⟩ := (bind_ok _ _ _).mp hrun
  obtain ⟨ha, rfl, rest', rfl⟩ := (h data pos rest hdata hpos a next).mp hread
  exact ⟨a, _, rest', ha, rfl, hpos.next, hk⟩

/-- A reader in front of its bytes returns the value and the position behind them. -/
theorem Reads.read_of (h : Reads bound read valid encode) (a : α) (ha : valid a)
    (hdata : data.length < bound) (hpos : Ahead data pos (encode a ++ rest)) :
    read data pos = .ok (a, pos + (encode a).length) :=
  (h data pos _ hdata hpos a _).mpr ⟨ha, rfl, rest, rfl⟩

end

/-! ### Fields of a packed structure -/

/-- Where part `i` starts. -/
def partOffset (parts : List Bytes) (i : ℕ) : ℕ := ((parts.take i).map List.length).sum

theorem Ahead.field {data rest part : Bytes} {pos : ℕ} {parts : List Bytes}
    (h : Ahead data pos (parts.flatten ++ rest)) (i : ℕ) (hpart : parts[i]? = some part) :
    ∃ rest', Ahead data (pos + partOffset parts i) (part ++ rest') := by
  induction i generalizing pos parts with
  | zero =>
    cases parts with
    | nil => cases hpart
    | cons head tail =>
      obtain rfl := Option.some.inj hpart
      rw [List.flatten_cons, List.append_assoc] at h
      exact ⟨tail.flatten ++ rest, h⟩
  | succ i ih =>
    cases parts with
    | nil => cases hpart
    | cons head tail =>
      rw [List.flatten_cons, List.append_assoc] at h
      obtain ⟨rest', hrest⟩ := ih h.next hpart
      refine ⟨rest', ?_⟩
      rw [partOffset, List.take_succ_cons, List.map_cons, List.sum_cons, ← Nat.add_assoc]
      exact hrest

section
variable {data rest part : Bytes} {pos i off n : ℕ} {parts : List Bytes}

theorem Ahead.sub_field (h : Ahead data pos (parts.flatten ++ rest)) (i : ℕ)
    (hpart : parts[i]? = some part) (hoff : pos + partOffset parts i = off)
    (hn : part.length = n) : off + n ≤ data.length ∧ sub data off n = part := by
  obtain ⟨rest', hfield⟩ := h.field i hpart
  rw [hoff] at hfield
  have hlen := hfield.length
  have hsub := hfield.sub_part
  rw [List.length_append] at hlen
  rw [hn] at hlen hsub
  exact ⟨by omega, hsub⟩

theorem Ahead.readMem_field (h : Ahead data pos (parts.flatten ++ rest)) (beyond : ℕ → Byte)
    (i : ℕ) (hpart : parts[i]? = some part) (hoff : pos + partOffset parts i = off)
    (hn : part.length = n) : readMem (mem data beyond) off n = part := by
  obtain ⟨hinside, hsub⟩ := h.sub_field i hpart hoff hn
  rw [readMem_eq_sub data beyond off n hinside, hsub]

theorem Ahead.readLe_field {v : ℕ} (h : Ahead data pos (parts.flatten ++ rest))
    (beyond : ℕ → Byte) (i : ℕ) (hpart : parts[i]? = some (leBytes n v))
    (hoff : pos + partOffset parts i = off) (hv : v < 256 ^ n) :
    readLe (mem data beyond) off n = v := by
  rw [readLe, h.readMem_field beyond i hpart hoff (leBytes_length n v), leVal_leBytes n v hv]

end

end CursorLib
