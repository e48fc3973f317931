import Ravl.Util

/-!
# What counts as hexadecimal (util.h:100-137, 162-173)

`from_hex` hands every pair to sscanf, which skips blanks, takes signs and is content with one
digit; where it gives up, the empty vector is returned. So every string of even length is
accepted, and the decoder inverts `to_hex` on the hexadecimal ones alone.
-/

namespace Ravl
open ByteLib FallibleLib

def AllHex (s : Bytes) : Prop := ∀ c ∈ s, (hexDigit c).isSome

/-- An even number of hexadecimal digits, in upper or lower case -/
def HexString (s : Bytes) : Prop := s.length % 2 = 0 ∧ AllHex s

instance (s : Bytes) : Decidable (AllHex s) := List.decidableBAll ..
instance (s : Bytes) : Decidable (HexString s) := inferInstanceAs (Decidable (_ ∧ _))

def lowerCase (s : Bytes) : Bytes := s.map toLower

/-! ### Digits -/

theorem hexDigit_toLower (c : Byte) : hexDigit (toLower c) = hexDigit c := by
  revert c
  decide +kernel

theorem hexDigit_lowerHexDigit (n : ℕ) (h : n < 16) : hexDigit (lowerHexDigit n) = some n := by
  revert n
  decide

theorem toLower_of_hexDigit (c : Byte) (n : ℕ) (h : hexDigit c = some n) :
    n < 16 ∧ toLower c = lowerHexDigit n := by
  have hall : ∀ c : Byte, ∀ n ∈ hexDigit c, n < 16 ∧ toLower c = lowerHexDigit n := by
    decide +kernel
  exact hall c n h

/-- A digit is no blank, no sign, no letter of a prefix and does not end the string. -/
theorem hexDigit_plain (c : Byte) (n : ℕ) (h : hexDigit c = some n) :
    c ≠ 0 ∧ isSpace c = false ∧ c ≠ byte '-' ∧ c ≠ byte '+' ∧ c ≠ byte 'x' ∧ c ≠ byte 'X' := by
  have hall : ∀ c : Byte, ∀ n ∈ hexDigit c, c ≠ 0 ∧ isSpace c = false ∧ c ≠ byte '-' ∧
      c ≠ byte '+' ∧ c ≠ byte 'x' ∧ c ≠ byte 'X' := by decide +kernel
  exact hall c n h

/-! ### One pair -/

theorem scanUnsigned_pair (a b : Byte) (x y : ℕ) (s : Bytes) (ha : hexDigit a = some x)
    (hb : hexDigit b = some y) : scanUnsigned 2 (a :: b :: s) = some (16 * x + y) := by
  obtain ⟨-, -, -, -, hx, hX⟩ := hexDigit_plain b y hb
  have hprefix : ¬ (a = byte '0' ∧ (b = byte 'x' ∨ b = byte 'X')) := by
    intro h
    exact h.2.elim hx hX
  simp only [scanUnsigned, ha, if_neg hprefix, scanDigits, hb]

theorem scanHexByte_pair (a b : Byte) (x y : ℕ) (s : Bytes) (ha : hexDigit a = some x)
    (hb : hexDigit b = some y) : scanHexByte (a :: b :: s) = some (Fin.ofNat 256 (16 * x + y)) := by
  obtain ⟨ha0, hspace, hminus, hplus, -, -⟩ := hexDigit_plain a x ha
  obtain ⟨hb0, -⟩ := hexDigit_plain b y hb
  have hstart : (cString (a :: b :: s)).dropWhile isSpace = a :: b :: cString s := by
    have hcString : cString (a :: b :: s) = a :: b :: cString s := by
      simp only [cString, List.takeWhile_cons, bne_iff_ne, ne_eq, ha0, hb0, not_false_eq_true, if_true]
    rw [hcString, List.dropWhile_cons, if_neg (by rw [hspace]; exact Bool.false_ne_true)]
  rw [scanHexByte, hstart]
  show (if a = byte '-' then _ else if a = byte '+' then _ else _) = _
  rw [if_neg hminus, if_neg hplus, scanUnsigned_pair a b x y _ ha hb]
  rfl

theorem byte_halves (b : Byte) : Fin.ofNat 256 (16 * (b.val / 16) + b.val % 16) = b := by
  rw [Nat.div_add_mod]
  exact Fin.ofNat_val_eq_self b

/-! ### Strings -/

theorem toHex_cons (b : Byte) (bs : Bytes) :
    toHex (b :: bs) = lowerHexDigit (b.val / 16) :: lowerHexDigit (b.val % 16) :: toHex bs := rfl

theorem toHex_length (bs : Bytes) : (toHex bs).length = 2 * bs.length := by
  induction bs with
  | nil => rfl
  | cons b bs ih =>
    rw [toHex_cons, List.length_cons, List.length_cons, List.length_cons, ih]
    omega

/-- The loop from offset `i` on, where the rest of the string is the hexadecimal form of `bs` -/
theorem scanHexBytes_of_lowerCase (s bs : Bytes) (i : ℕ) (h : lowerCase (s.drop i) = toHex bs) :
    scanHexBytes s bs.length i = some bs := by
  induction bs generalizing i with
  | nil => rfl
  | cons b bs ih =>
    have hb := b.isLt
    rw [toHex_cons, lowerCase, List.map_eq_cons_iff] at h
    obtain ⟨a, t, hs, ha, ht⟩ := h
    obtain ⟨c, u, rfl, hc, hu⟩ := List.map_eq_cons_iff.1 ht
    have hda : hexDigit a = some (b.val / 16) := by
      rw [← hexDigit_toLower, ha]
      exact hexDigit_lowerHexDigit _ (by omega)
    have hdc : hexDigit c = some (b.val % 16) := by
      rw [← hexDigit_toLower, hc]
      exact hexDigit_lowerHexDigit _ (by omega)
    have hrest : s.drop (i + 2) = u := by
      rw [← List.drop_drop, hs]
      rfl
    have htail : scanHexBytes s bs.length (i + 2) = some bs := by
      apply ih
      rw [hrest]
      exact hu
    rw [List.length_cons, scanHexBytes, hs, scanHexByte_pair a c _ _ u hda hdc, htail, byte_halves]
    rfl

/-- Every hexadecimal string is the hexadecimal form of some bytes, up to its case. -/
theorem HexString.exists_bytes (s : Bytes) (h : HexString s) : ∃ bs, lowerCase s = toHex bs := by
  obtain ⟨heven, hall⟩ := h
  obtain ⟨n, hn⟩ : ∃ n, s.length = 2 * n := ⟨s.length / 2, by omega⟩
  clear heven
  induction n generalizing s with
  | zero =>
    rw [List.length_eq_zero_iff.1 hn]
    exact ⟨[], rfl⟩
  | succ n ih =>
    obtain ⟨a, t, rfl⟩ := List.exists_cons_of_length_pos (l := s) (by omega)
    obtain ⟨c, t, rfl⟩ := List.exists_cons_of_length_pos (l := t) (by
      rw [List.length_cons] at hn
      omega)
    simp only [List.length_cons] at hn
    obtain ⟨bs, hbs⟩ := ih t (fun c hc => hall c (List.mem_cons_of_mem _ (List.mem_cons_of_mem _ hc)))
      (by omega)
    obtain ⟨x, hx⟩ := Option.isSome_iff_exists.1 (hall a (List.mem_cons_self ..))
    obtain ⟨y, hy⟩ := Option.isSome_iff_exists.1
      (hall c (List.mem_cons_of_mem _ (List.mem_cons_self ..)))
    obtain ⟨hx16, hxa⟩ := toLower_of_hexDigit a x hx
    obtain ⟨hy16, hyc⟩ := toLower_of_hexDigit c y hy
    have hval : (Fin.ofNat 256 (16 * x + y) : Byte).val = 16 * x + y := Nat.mod_eq_of_lt (by omega)
    have hhigh : (16 * x + y) / 16 = x := by omega
    have hlow : (16 * x + y) % 16 = y := by omega
    refine ⟨Fin.ofNat 256 (16 * x + y) :: bs, ?_⟩
    rw [toHex_cons, hval, hhigh, hlow, ← hbs, ← hxa, ← hyc]
    rfl

theorem lowerCase_toHex (bs : Bytes) : lowerCase (toHex bs) = toHex bs := by
  have hdigit : ∀ n < 16, toLower (lowerHexDigit n) = lowerHexDigit n := by decide
  induction bs with
  | nil => rfl
  | cons b bs ih =>
    have hb := b.isLt
    rw [toHex_cons, lowerCase, List.map_cons, List.map_cons, hdigit _ (by omega), hdigit _ (by omega)]
    exact congrArg _ (congrArg _ ih)

/-! ### What the two decoders return -/

theorem fromHex_odd (s : Bytes) (h : s.length % 2 ≠ 0) :
    fromHex s = .error (.exception "odd number of hex digits") := by
  rw [fromHex, refuse, if_pos h]
  rfl

/-- Nothing of even length is refused. -/
theorem fromHex_even (s : Bytes) (h : s.length % 2 = 0) :
    fromHex s = .ok ((scanHexBytes s (s.length / 2) 0).getD []) := by
  rw [fromHex, refuse_of_not (not_not.2 h), ok_bind]
  rfl

theorem fromHex_of_lowerCase (s bs : Bytes) (h : lowerCase s = toHex bs) : fromHex s = .ok bs := by
  have hlen : s.length = 2 * bs.length := by
    rw [← toHex_length, ← h, lowerCase, List.length_map]
  have hhalf : s.length / 2 = bs.length := by omega
  rw [fromHex_even s (by omega), hhalf, scanHexBytes_of_lowerCase s bs 0 h]
  rfl

theorem fromHexT_short (n : ℕ) (s : Bytes) (littleEndian : Bool) (h : s.length ≠ 2 * n) :
    ∃ what, fromHexT n s littleEndian = .error (.exception what) := by
  by_cases hodd : s.length % 2 ≠ 0
  · exact ⟨_, by rw [fromHexT, refuse, if_pos hodd]; rfl⟩
  · exact ⟨_, by rw [fromHexT, refuse_of_not hodd, ok_bind, refuse, if_pos h.symm]; rfl⟩

theorem fromHexT_complete (n : ℕ) (s : Bytes) (littleEndian : Bool) (h : s.length = 2 * n) :
    ∃ v, fromHexT n s littleEndian = .ok v := by
  have heven : ¬ s.length % 2 ≠ 0 := by omega
  rw [fromHexT, refuse_of_not heven, ok_bind, refuse_of_not (not_not.2 h.symm), ok_bind]
  cases scanHexBytes s n 0 with
  | none => exact ⟨_, rfl⟩
  | some bs => exact ⟨_, rfl⟩

theorem fromHexT_of_lowerCase (n : ℕ) (s bs : Bytes) (littleEndian : Bool)
    (hlower : lowerCase s = toHex bs) (h : s.length = 2 * n) :
    fromHexT n s littleEndian = .ok (if littleEndian then leVal bs else beVal bs) := by
  have heven : ¬ s.length % 2 ≠ 0 := by omega
  have hlen : s.length = 2 * bs.length := by
    rw [← toHex_length, ← hlower, lowerCase, List.length_map]
  have hn : n = bs.length := by omega
  rw [fromHexT, refuse_of_not heven, ok_bind, refuse_of_not (not_not.2 h.symm), ok_bind, hn,
    scanHexBytes_of_lowerCase s bs 0 hlower]
  rfl

/-! ### What one expects of them -/

/-- The decoder takes the hexadecimal strings only, and their bytes are the result. -/
structure DecodesHex (s : Bytes) : Prop where
  accepts : (∃ bs, fromHex s = .ok bs) ↔ HexString s
  inverts : ∀ bs, fromHex s = .ok bs → toHex bs = lowerCase s
  throws : ¬ HexString s → ∃ what, fromHex s = .error (.exception what)

/-- The same for the decoder of an integer of `n` bytes -/
structure DecodesHexT (n : ℕ) (s : Bytes) (littleEndian : Bool) : Prop where
  value : HexString s → s.length = 2 * n → ∃ bs, toHex bs = lowerCase s ∧
    fromHexT n s littleEndian = .ok (if littleEndian then leVal bs else beVal bs)
  throws : ¬ (HexString s ∧ s.length = 2 * n) →
    ∃ what, fromHexT n s littleEndian = .error (.exception what)

theorem decodesHex_of_hexString (s : Bytes) (h : HexString s) : DecodesHex s := by
  obtain ⟨bs, hbs⟩ := h.exists_bytes
  have hok := fromHex_of_lowerCase s bs hbs
  refine ⟨⟨fun _ => h, fun _ => ⟨bs, hok⟩⟩, fun bs' hbs' => ?_, fun hno => absurd h hno⟩
  rw [hok] at hbs'
  cases hbs'
  exact hbs.symm

theorem decodesHex_iff (s : Bytes) : DecodesHex s ↔ s.length % 2 ≠ 0 ∨ AllHex s := by
  constructor
  · intro h
    by_cases heven : s.length % 2 = 0
    · exact Or.inr (h.accepts.1 ⟨_, fromHex_even s heven⟩).2
    · exact Or.inl heven
  · intro h
    by_cases heven : s.length % 2 = 0
    · exact decodesHex_of_hexString s ⟨heven, h.resolve_left (not_not.2 heven)⟩
    · have hfails := fromHex_odd s heven
      have hnone (bs : Bytes) : fromHex s ≠ .ok bs := by
        rw [hfails]
        intro hok
        cases hok
      exact ⟨⟨fun hok => hok.elim fun bs hbs => absurd hbs (hnone bs),
        fun hhex => absurd hhex.1 heven⟩, fun bs hbs => absurd hbs (hnone bs), fun _ => ⟨_, hfails⟩⟩

theorem decodesHexT_iff (n : ℕ) (s : Bytes) (littleEndian : Bool) :
    DecodesHexT n s littleEndian ↔ s.length ≠ 2 * n ∨ AllHex s := by
  constructor
  · intro h
    by_cases hlen : s.length = 2 * n
    · obtain ⟨v, hv⟩ := fromHexT_complete n s littleEndian hlen
      right
      by_contra hno
      obtain ⟨what, hwhat⟩ := h.throws fun hhex => hno hhex.1.2
      rw [hv] at hwhat
      cases hwhat
    · exact Or.inl hlen
  · intro h
    by_cases hlen : s.length = 2 * n
    · have hhex : HexString s := ⟨by omega, h.resolve_left (not_not.2 hlen)⟩
      obtain ⟨bs, hbs⟩ := hhex.exists_bytes
      exact ⟨fun _ _ => ⟨bs, hbs.symm, fromHexT_of_lowerCase n s bs littleEndian hbs hlen⟩,
        fun hno => absurd ⟨hhex, hlen⟩ hno⟩
    · exact ⟨fun _ h2n => absurd h2n hlen, fun _ => fromHexT_short n s littleEndian hlen⟩

/-- Both decoders do what one expects on the strings of another length and on the hexadecimal
ones; `from_hex` undoes `to_hex`. -/
theorem hexDecoding_iff (n : ℕ) (s bs : Bytes) (littleEndian : Bool) :
    (DecodesHex s ↔ s.length % 2 ≠ 0 ∨ AllHex s) ∧
      (DecodesHexT n s littleEndian ↔ s.length ≠ 2 * n ∨ AllHex s) ∧ fromHex (toHex bs) = .ok bs :=
  ⟨decodesHex_iff s, decodesHexT_iff n s littleEndian,
    fromHex_of_lowerCase (toHex bs) bs (lowerCase_toHex bs)⟩

/-- A blank and one digit pass for a byte, a text without any digit for no bytes at all. -/
theorem hexDecoding_lenient :
    ¬ ((∀ s, DecodesHex s) ∧ ∀ n s littleEndian, DecodesHexT n s littleEndian) := by
  intro h
  have hblank := (decodesHex_iff (text " 1")).1 (h.1 _)
  revert hblank
  decide

example : fromHex (text " 1") = .ok [1] ∧ fromHex (text "zz") = .ok [] ∧
    fromHex (text "-1") = .ok [255] ∧ fromHexT 2 (text "ffzz") true = .ok 0 := by decide

end Ravl
