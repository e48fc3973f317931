import Mathlib.Data.List.Basic
import Mathlib.Data.List.Induction
import Mathlib.Tactic.Ring
import Mathlib.Tactic.NormNum

/-!
# Byte strings, memory and fixed-width numbers

Byte strings are lists of `Fin 256`. A C buffer is read through pointers, so
next to the list there is `mem`: the bytes of a buffer, followed by whatever
lies behind it (`beyond`). A read through `mem` equals the slice `sub` exactly
when it stays inside the buffer.
-/

namespace ByteLib

abbrev Byte := Fin 256
abbrev Bytes := List Byte

-- Literals rest on these instances, whatever else is imported.
instance (priority := 2000) neZero_byte : NeZero 256 := ⟨by decide⟩
instance (priority := 2000) neZero_word16 : NeZero (2 ^ 16) := ⟨by decide⟩
instance (priority := 2000) neZero_word32 : NeZero (2 ^ 32) := ⟨by decide⟩

def byte (c : Char) : Byte := Fin.ofNat 256 c.toNat
def text (s : String) : Bytes := s.toList.map byte
def str (bs : Bytes) : String := String.ofList (bs.map fun b => Char.ofNat b.val)

def sub (bs : Bytes) (off n : ℕ) : Bytes := (bs.drop off).take n

theorem sub_length (bs : Bytes) (off n : ℕ) (h : off + n ≤ bs.length) :
    (sub bs off n).length = n := by
  simp only [sub, List.length_take, List.length_drop]
  omega

theorem sub_getElem? (bs : Bytes) (off n i : ℕ) (hi : i < n) :
    (sub bs off n)[i]? = bs[off + i]? := by
  simp only [sub, List.getElem?_take, List.getElem?_drop, if_pos hi]

theorem sub_sub (bs : Bytes) (off n i k : ℕ) (h : i + k ≤ n) :
    sub (sub bs off n) i k = sub bs (off + i) k := by
  simp only [sub, List.drop_take, List.take_take, List.drop_drop]
  congr 1
  omega

theorem sub_split (bs : Bytes) (off n k : ℕ) :
    sub bs off (n + k) = sub bs off n ++ sub bs (off + n) k := by
  simp only [sub, List.take_add, List.drop_drop]

theorem sub_middle (before part after : Bytes) (off n : ℕ) (hoff : before.length = off)
    (hn : part.length = n) : sub (before ++ part ++ after) off n = part := by
  have hdrop : (before ++ part ++ after).drop off = part ++ after := by
    rw [List.append_assoc, ← hoff, List.drop_left]
  rw [sub, hdrop, ← hn, List.take_left]

theorem sub_take (bs : Bytes) (m off n : ℕ) (h : off + n ≤ m) :
    sub (bs.take m) off n = sub bs off n := by
  simp only [sub, List.drop_take, List.take_take]
  congr 1
  omega

theorem sub_contained (bs : Bytes) (off n : ℕ) : sub bs off n <:+: bs :=
  (List.take_prefix n (bs.drop off)).isInfix.trans (List.drop_suffix off bs).isInfix

/-! ### Overwriting -/

/-- The bytes with `new` written over them from offset `off` on; nothing is written behind
the end. -/
def patch (bs : Bytes) (off : ℕ) (new : Bytes) : Bytes :=
  (bs.take off ++ new ++ bs.drop (off + new.length)).take bs.length

theorem patch_length (bs new : Bytes) (off : ℕ) : (patch bs off new).length = bs.length := by
  simp only [patch, List.length_take, List.length_append, List.length_drop]
  omega

theorem patch_getElem?_old (bs new : Bytes) (off i : ℕ) (h : i < off ∨ off + new.length ≤ i) :
    (patch bs off new)[i]? = bs[i]? := by
  by_cases hi : i < bs.length
  · simp only [patch, List.getElem?_take, if_pos hi]
    rcases h with h | h
    · rw [List.append_assoc, List.getElem?_append_left (by rw [List.length_take]; omega),
        List.getElem?_take, if_pos h]
    · have hfront : (bs.take off ++ new).length = off + new.length := by
        rw [List.length_append, List.length_take]
        omega
      rw [List.getElem?_append_right (by omega), hfront, List.getElem?_drop]
      congr 1
      omega
  · rw [List.getElem?_eq_none (by rw [patch_length]; omega), List.getElem?_eq_none (by omega)]

theorem patch_getElem?_new (bs new : Bytes) (off i : ℕ) (hi : i < new.length)
    (h : off + i < bs.length) : (patch bs off new)[off + i]? = new[i]? := by
  have hoff : (bs.take off).length = off := by
    rw [List.length_take]
    omega
  rw [patch, List.getElem?_take, if_pos h, List.append_assoc,
    List.getElem?_append_right (by omega), hoff, Nat.add_sub_cancel_left,
    List.getElem?_append_left hi]

theorem sub_patch_other (bs new : Bytes) (off o n : ℕ) (h : o + n ≤ off ∨ off + new.length ≤ o) :
    sub (patch bs off new) o n = sub bs o n := by
  apply List.ext_getElem?
  intro i
  by_cases hi : i < n
  · rw [sub_getElem? _ _ _ _ hi, sub_getElem? _ _ _ _ hi, patch_getElem?_old _ _ _ _ (by omega)]
  · simp only [sub, List.getElem?_take, if_neg hi]

theorem sub_patch_same (bs new : Bytes) (off : ℕ) (h : off + new.length ≤ bs.length) :
    sub (patch bs off new) off new.length = new := by
  apply List.ext_getElem?
  intro i
  by_cases hi : i < new.length
  · rw [sub_getElem? _ _ _ _ hi, patch_getElem?_new _ _ _ _ hi (by omega)]
  · rw [List.getElem?_eq_none (by rw [sub_length _ _ _ (by rw [patch_length]; exact h)]; omega),
      List.getElem?_eq_none (by omega)]

theorem patch_self (bs new : Bytes) (off : ℕ) (h : sub bs off new.length = new) :
    patch bs off new = bs := by
  apply List.ext_getElem?
  intro i
  by_cases hi : off ≤ i ∧ i < off + new.length ∧ i < bs.length
  · obtain ⟨j, rfl⟩ := Nat.exists_eq_add_of_le hi.1
    have hj : j < new.length := by omega
    rw [patch_getElem?_new _ _ _ _ hj hi.2.2, ← sub_getElem? bs off new.length j hj, h]
  · by_cases hlong : i < bs.length
    · exact patch_getElem?_old _ _ _ _ (by omega)
    · rw [List.getElem?_eq_none (by rw [patch_length]; omega), List.getElem?_eq_none (by omega)]

/-! ### Numbers -/

def leVal : Bytes → ℕ
  | [] => 0
  | b :: bs => b.val + 256 * leVal bs

/-- Value of a big-endian byte list, continuing from the value `a` of the bytes before it. -/
def beValFrom (a : ℕ) : Bytes → ℕ
  | [] => a
  | b :: bs => beValFrom (a * 256 + b.val) bs

def beVal (bs : Bytes) : ℕ := beValFrom 0 bs

theorem leVal_lt (bs : Bytes) : leVal bs < 256 ^ bs.length := by
  induction bs with
  | nil => simp [leVal]
  | cons b bs ih =>
    have hb := b.isLt
    simp only [leVal, List.length_cons, pow_succ]
    omega

theorem leVal_ge (b : Byte) (bs : Bytes) (h : 0 ∉ b :: bs) : 256 ^ bs.length ≤ leVal (b :: bs) := by
  induction bs generalizing b with
  | nil =>
    have hb : b ≠ 0 := fun h0 => h (h0 ▸ List.mem_cons_self ..)
    have hpos : b.val ≠ 0 := fun h0 => hb (Fin.ext h0)
    simp only [leVal, List.length_nil, pow_zero]
    omega
  | cons c cs ih =>
    have hc := ih c (fun hm => h (List.mem_cons_of_mem b hm))
    rw [leVal, List.length_cons, pow_succ]
    omega

/-- `n` as a little-endian number of `w` bytes. -/
def leBytes : ℕ → ℕ → Bytes
  | 0, _ => []
  | w + 1, n => Fin.ofNat 256 n :: leBytes w (n / 256)

/-- `n` as a big-endian number of `w` bytes. -/
def beBytes (w n : ℕ) : Bytes := (leBytes w n).reverse

theorem leBytes_length (w n : ℕ) : (leBytes w n).length = w := by
  induction w generalizing n with
  | zero => rfl
  | succ w ih => rw [leBytes, List.length_cons, ih]

theorem leVal_leBytes (w n : ℕ) (h : n < 256 ^ w) : leVal (leBytes w n) = n := by
  induction w generalizing n with
  | zero =>
    have hn : n = 0 := by simpa using h
    rw [hn]
    rfl
  | succ w ih =>
    have hdiv : n / 256 < 256 ^ w := by
      rw [pow_succ] at h
      exact Nat.div_lt_of_lt_mul (by omega)
    have hlow : (Fin.ofNat 256 n).val = n % 256 := rfl
    rw [leBytes, leVal, ih _ hdiv, hlow]
    exact Nat.mod_add_div n 256

theorem leBytes_leVal (bs : Bytes) : leBytes bs.length (leVal bs) = bs := by
  induction bs with
  | nil => rfl
  | cons b bs ih =>
    have hb := b.isLt
    have hdiv : (b.val + 256 * leVal bs) / 256 = leVal bs := by omega
    have hlow : Fin.ofNat 256 (b.val + 256 * leVal bs) = b := by
      apply Fin.ext
      show (b.val + 256 * leVal bs) % 256 = b.val
      omega
    rw [List.length_cons, leVal, leBytes, hdiv, ih, hlow]

theorem beValFrom_snoc (a : ℕ) (bs : Bytes) (b : Byte) :
    beValFrom a (bs ++ [b]) = beValFrom a bs * 256 + b.val := by
  induction bs generalizing a with
  | nil => rfl
  | cons c bs ih => exact ih (a * 256 + c.val)

theorem beVal_eq_leVal (bs : Bytes) : beVal bs = leVal bs.reverse := by
  induction bs using List.reverseRecOn with
  | nil => rfl
  | append_singleton bs b ih =>
    rw [beVal, beValFrom_snoc, ← beVal, ih, List.reverse_append, List.reverse_singleton,
      List.singleton_append, leVal]
    omega

theorem beVal_lt (bs : Bytes) : beVal bs < 256 ^ bs.length := by
  have h := leVal_lt bs.reverse
  rwa [List.length_reverse, ← beVal_eq_leVal] at h

theorem beBytes_length (w n : ℕ) : (beBytes w n).length = w := by
  rw [beBytes, List.length_reverse, leBytes_length]

theorem beVal_beBytes (w n : ℕ) (h : n < 256 ^ w) : beVal (beBytes w n) = n := by
  rw [beVal_eq_leVal, beBytes, List.reverse_reverse, leVal_leBytes w n h]

theorem beBytes_beVal (bs : Bytes) : beBytes bs.length (beVal bs) = bs := by
  have h := leBytes_leVal bs.reverse
  rw [List.length_reverse, ← beVal_eq_leVal] at h
  rw [beBytes, h, List.reverse_reverse]

/-! ### Memory -/

/-- The memory seen from a buffer's first byte on. -/
def mem (bs : Bytes) (beyond : ℕ → Byte) (i : ℕ) : Byte := (bs[i]?).getD (beyond i)

def readMem (m : ℕ → Byte) (off n : ℕ) : Bytes := (List.range n).map fun i => m (off + i)

theorem readMem_length (m : ℕ → Byte) (off n : ℕ) : (readMem m off n).length = n := by
  simp [readMem]

theorem readMem_getElem? (m : ℕ → Byte) (off n i : ℕ) (hi : i < n) :
    (readMem m off n)[i]? = some (m (off + i)) := by
  simp [readMem, hi]

theorem mem_inside (bs : Bytes) (beyond : ℕ → Byte) (i : ℕ) (hi : i < bs.length) :
    some (mem bs beyond i) = bs[i]? := by
  simp [mem, hi]

/-- A read that stays inside the buffer is the slice, whatever lies behind it. -/
theorem readMem_eq_sub (bs : Bytes) (beyond : ℕ → Byte) (off n : ℕ) (h : off + n ≤ bs.length) :
    readMem (mem bs beyond) off n = sub bs off n := by
  apply List.ext_getElem?
  intro i
  by_cases hi : i < n
  · rw [readMem_getElem? _ _ _ _ hi, sub_getElem? _ _ _ _ hi, mem_inside _ _ _ (by omega)]
  · rw [List.getElem?_eq_none (by rw [readMem_length]; omega),
      List.getElem?_eq_none (by rw [sub_length bs off n h]; omega)]

theorem readMem_congr {m m' : ℕ → Byte} {off n : ℕ} (h : ∀ i, off ≤ i → i < off + n → m i = m' i) :
    readMem m off n = readMem m' off n := by
  apply List.map_congr_left
  intro i hi
  have hlt : i < n := List.mem_range.1 hi
  exact h (off + i) (Nat.le_add_right off i) (by omega)

theorem readMem_one (m : ℕ → Byte) (a : ℕ) : readMem m a 1 = [m a] := rfl

theorem sub_readMem (m : ℕ → Byte) (off n i k : ℕ) (h : i + k ≤ n) :
    sub (readMem m off n) i k = readMem m (off + i) k := by
  apply List.ext_getElem?
  intro j
  by_cases hj : j < k
  · rw [sub_getElem? _ _ _ _ hj, readMem_getElem? _ _ _ _ (by omega),
      readMem_getElem? _ _ _ _ hj, Nat.add_assoc]
  · rw [List.getElem?_eq_none (by rw [sub_length _ _ _ (by rw [readMem_length]; exact h)]; omega),
      List.getElem?_eq_none (by rw [readMem_length]; omega)]

def readLe (m : ℕ → Byte) (off n : ℕ) : ℕ := leVal (readMem m off n)

theorem readLe_lt (m : ℕ → Byte) (off n : ℕ) : readLe m off n < 256 ^ n := by
  have h := leVal_lt (readMem m off n)
  rwa [readMem_length] at h

theorem readLe_fits (m : ℕ → Byte) (off n bits : ℕ) (h : 256 ^ n = 2 ^ bits) :
    readLe m off n < 2 ^ bits :=
  (readLe_lt m off n).trans_eq h

theorem readLe_eq_sub (bs : Bytes) (beyond : ℕ → Byte) (off n : ℕ) (h : off + n ≤ bs.length) :
    readLe (mem bs beyond) off n = leVal (sub bs off n) := by
  rw [readLe, readMem_eq_sub bs beyond off n h]

theorem sub_eq_leBytes (bs : Bytes) (beyond : ℕ → Byte) (off n : ℕ) (h : off + n ≤ bs.length) :
    sub bs off n = leBytes n (readLe (mem bs beyond) off n) := by
  have hvalue := leBytes_leVal (sub bs off n)
  rw [sub_length bs off n h] at hvalue
  rw [readLe_eq_sub bs beyond off n h, hvalue]

end ByteLib
