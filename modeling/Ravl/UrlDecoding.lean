import Ravl.Hex
import Ravl.Lib.Traced
import Mathlib.Data.List.TakeWhile

/-!
# The cursors of `url_decode` (util.h:156-160, 222-246)

The decoder walks over a C string with one cursor and over the buffer of `len + 1` bytes with
another, and looks two characters ahead behind a percent sign. Each character that is read and
each one that is written leaves an event.
-/

namespace Ravl
open ByteLib FallibleLib TracedLib Traced

/-! ### The loop -/

inductive CharAccess
  | read (off : ℕ)
  | write (off : ℕ) (c : Byte)
  deriving DecidableEq

def readChar (m : ℕ → Byte) (off : ℕ) : Traced CharAccess Error Byte := event (.read off) (m off)
def writeChar (off : ℕ) (c : Byte) : Traced CharAccess Error Unit := event (.write off c) ()

/-- `from_hex(a) << 4 | from_hex(b)`, stored in a `char` -/
def escaped (a b : Byte) : Byte :=
  Fin.ofNat 256 ((16 * (fromHexChar a).val % 256) ||| (fromHexChar b).val)

/-- The loop for a string at address 0 of `m`, from the positions `pstr` and `pbuf` on; a
character that is looked at several times is recorded once. -/
def urlDecodeFrom (m : ℕ → Byte) : ℕ → ℕ → ℕ → Traced CharAccess Error Unit
  | 0, _, _ => quiet (throw (.undefined "endless loop"))
  | fuel + 1, pstr, pbuf => do
    let c ← readChar m pstr
    if c = 0 then writeChar pbuf 0
    else if c = byte '%' then do
      let a ← readChar m (pstr + 1)
      -- `pstr[2]` is looked at only where `pstr[1]` is not the end
      if a = 0 then urlDecodeFrom m fuel (pstr + 1) pbuf
      else do
        let b ← readChar m (pstr + 2)
        if b = 0 then urlDecodeFrom m fuel (pstr + 1) pbuf
        else do
          writeChar pbuf (escaped a b)
          urlDecodeFrom m fuel (pstr + 3) (pbuf + 1)
    else if c = byte '+' then do
      writeChar pbuf (byte ' ')
      urlDecodeFrom m fuel (pstr + 1) (pbuf + 1)
    else do
      writeChar pbuf c
      urlDecodeFrom m fuel (pstr + 1) (pbuf + 1)

/-- A string of `len` characters takes at most `len + 1` rounds. -/
def tracedUrlDecode (m : ℕ → Byte) (len : ℕ) : Traced CharAccess Error Unit :=
  urlDecodeFrom m (len + 1) 0 0

/-- What is written, with the positions in the buffer -/
def written (trace : List CharAccess) : List (Byte × ℕ) :=
  trace.filterMap fun
    | .read _ => none
    | .write off c => some (c, off)

/-! ### What a piece of the run does -/

/-- The run comes to an end, reads up to the terminator at most and writes `out` from `pbuf` on. -/
structure Decodes (len : ℕ) (run : Traced CharAccess Error Unit) (pbuf : ℕ) (out : Bytes) : Prop where
  returns : run.forget = .ok ()
  reads : ∀ off, .read off ∈ run.trace → off ≤ len
  writes : written run.trace = out.zipIdx pbuf

section
variable {len : ℕ} {pbuf : ℕ} {out : Bytes}

theorem Decodes.last (len pbuf : ℕ) (c : Byte) : Decodes len (writeChar pbuf c) pbuf [c] where
  returns := rfl
  reads := by
    intro off h
    cases List.mem_singleton.1 h
  writes := rfl

theorem Decodes.read {m : ℕ → Byte} {off : ℕ} {f : Byte → Traced CharAccess Error Unit}
    (hoff : off ≤ len) (h : Decodes len (f (m off)) pbuf out) :
    Decodes len (readChar m off >>= f) pbuf out where
  returns := h.returns
  reads := by
    intro o ho
    rcases List.mem_cons.1 ho with heq | hrest
    · cases heq
      exact hoff
    · exact h.reads o hrest
  writes := h.writes

theorem Decodes.write {c : Byte} {f : Unit → Traced CharAccess Error Unit}
    (h : Decodes len (f ()) (pbuf + 1) out) :
    Decodes len (writeChar pbuf c >>= f) pbuf (c :: out) where
  returns := h.returns
  reads := by
    intro o ho
    rcases List.mem_cons.1 ho with heq | hrest
    · cases heq
    · exact h.reads o hrest
  writes := by
    show (c, pbuf) :: written (f ()).trace = _
    rw [h.writes, List.zipIdx_cons]

end

/-! ### A string with its terminator -/

theorem urlDecodeLoop_cons (fuel : ℕ) (c : Byte) (s : Bytes) :
    urlDecodeLoop (fuel + 1) (c :: s) =
      if c = byte '%' then
        match s with
        | a :: b :: t => escaped a b :: urlDecodeLoop fuel t
        | _ => urlDecodeLoop fuel s
      else if c = byte '+' then byte ' ' :: urlDecodeLoop fuel s
      else c :: urlDecodeLoop fuel s := rfl

theorem urlDecodeLoop_nil (fuel : ℕ) : urlDecodeLoop fuel [] = [] := by
  cases fuel <;> rfl

theorem urlDecodeLoop_length (fuel : ℕ) (s : Bytes) : (urlDecodeLoop fuel s).length ≤ s.length := by
  induction fuel generalizing s with
  | zero =>
    cases s with
    | nil => exact Nat.le_refl _
    | cons c s => exact Nat.zero_le _
  | succ fuel ih =>
    cases s with
    | nil => exact Nat.le_refl _
    | cons c s =>
      have hrest := ih s
      rw [urlDecodeLoop_cons]
      split
      · split
        · next a b t =>
          have htail := ih t
          simp only [List.length_cons]
          omega
        · rw [List.length_cons]
          omega
      · split
        · simp only [List.length_cons]
          omega
        · simp only [List.length_cons]
          omega

section
variable (s : Bytes) (beyond : ℕ → Byte)

/-- What is at the cursor: the characters of `rest` and the terminator, none of the former a NUL -/
structure Cursor (p : ℕ) (rest : Bytes) : Prop where
  here : s.drop p = rest
  inside : p + rest.length = s.length
  noNul : 0 ∉ rest

theorem Cursor.at (hs : 0 ∉ s) (p : ℕ) (hp : p ≤ s.length) : Cursor s p (s.drop p) where
  here := rfl
  inside := by
    rw [List.length_drop]
    omega
  noNul := fun h => hs (List.mem_of_mem_drop h)

theorem Cursor.next {p : ℕ} {c : Byte} {rest : Bytes} (h : Cursor s p (c :: rest)) :
    Cursor s (p + 1) rest where
  here := by
    rw [← List.drop_drop, h.here]
    rfl
  inside := by
    have hinside := h.inside
    rw [List.length_cons] at hinside
    omega
  noNul := fun hmem => h.noNul (List.mem_cons_of_mem c hmem)

theorem Cursor.char {p : ℕ} {c : Byte} {rest : Bytes} (h : Cursor s p (c :: rest)) :
    mem (s ++ [0]) beyond p = c ∧ c ≠ 0 ∧ p ≤ s.length := by
  have hinside := h.inside
  refine ⟨?_, fun h0 => h.noNul (h0 ▸ List.mem_cons_self ..), by omega⟩
  have hchar : s[p]? = some c := by
    have hfirst : (s.drop p)[0]? = s[p + 0]? := List.getElem?_drop
    rw [h.here] at hfirst
    exact hfirst.symm
  rw [List.length_cons] at hinside
  rw [mem, List.getElem?_append_left (by omega), hchar]
  rfl

theorem Cursor.terminator {p : ℕ} (h : Cursor s p []) :
    mem (s ++ [0]) beyond p = 0 ∧ p ≤ s.length := by
  have hinside := h.inside
  rw [List.length_nil, Nat.add_zero] at hinside
  rw [hinside, mem, List.getElem?_concat_length]
  exact ⟨rfl, Nat.le_refl _⟩

/-- From the cursor on, with enough fuel for what is left -/
theorem urlDecodeFrom_decodes (fuel p pbuf : ℕ) (rest : Bytes) (h : Cursor s p rest)
    (hfuel : rest.length ≤ fuel) :
    Decodes s.length (urlDecodeFrom (mem (s ++ [0]) beyond) (fuel + 1) p pbuf) pbuf
      (urlDecodeLoop fuel rest ++ [0]) := by
  induction fuel generalizing p pbuf rest with
  | zero =>
    obtain rfl := List.length_eq_zero_iff.1 (Nat.le_zero.1 hfuel)
    obtain ⟨hchar, hp⟩ := h.terminator s beyond
    refine Decodes.read hp ?_
    rw [hchar]
    exact Decodes.last _ _ _
  | succ fuel ih =>
    rw [urlDecodeFrom]
    rcases rest with _ | ⟨c, rest⟩
    · obtain ⟨hchar, hp⟩ := h.terminator s beyond
      refine Decodes.read hp ?_
      rw [hchar]
      exact Decodes.last _ _ _
    rw [List.length_cons] at hfuel
    obtain ⟨hchar, hne, hp⟩ := h.char s beyond
    have hnext (pbuf : ℕ) := ih (p + 1) pbuf rest h.next (by omega)
    refine Decodes.read hp ?_
    rw [hchar, if_neg hne, urlDecodeLoop_cons]
    by_cases hpercent : c = byte '%'
    · rw [if_pos hpercent, if_pos hpercent]
      rcases rest with _ | ⟨a, rest⟩
      · obtain ⟨hend, hp1⟩ := h.next.terminator s beyond
        refine Decodes.read hp1 ?_
        rw [hend]
        exact hnext pbuf
      obtain ⟨ha, hane, hp1⟩ := h.next.char s beyond
      refine Decodes.read hp1 ?_
      rw [ha, if_neg hane]
      rcases rest with _ | ⟨b, rest⟩
      · obtain ⟨hend, hp2⟩ := h.next.next.terminator s beyond
        refine Decodes.read hp2 ?_
        rw [hend]
        exact hnext pbuf
      obtain ⟨hb, hbne, hp2⟩ := h.next.next.char s beyond
      simp only [List.length_cons] at hfuel
      refine Decodes.read hp2 ?_
      rw [hb, if_neg hbne]
      exact Decodes.write (ih (p + 3) (pbuf + 1) rest h.next.next.next (by omega))
    · rw [if_neg hpercent, if_neg hpercent]
      by_cases hplus : c = byte '+'
      · rw [if_pos hplus, if_pos hplus]
        exact Decodes.write (hnext (pbuf + 1))
      · rw [if_neg hplus, if_neg hplus]
        exact Decodes.write (hnext (pbuf + 1))

theorem tracedUrlDecode_decodes (hs : 0 ∉ s) :
    Decodes s.length (tracedUrlDecode (mem (s ++ [0]) beyond) s.length) 0
      (urlDecodeLoop s.length s ++ [0]) :=
  urlDecodeFrom_decodes s beyond s.length 0 0 s ⟨rfl, Nat.zero_add _, hs⟩ (Nat.le_refl _)

end

/-! ### Percent-encodings -/

/-- `e` is a percent-encoding of `s`: a byte stands for itself unless it is `%` or `+`, any byte may
be written as `%XY`, and a space as `+`. -/
inductive PercentEncodes : Bytes → Bytes → Prop
  | nil : PercentEncodes [] []
  | literal (c : Byte) (s e : Bytes) (hpercent : c ≠ byte '%') (hplus : c ≠ byte '+')
      (rest : PercentEncodes s e) : PercentEncodes (c :: s) (c :: e)
  | escape (c a b : Byte) (s e : Bytes) (high : hexDigit a = some (c.val / 16))
      (low : hexDigit b = some (c.val % 16)) (rest : PercentEncodes s e) :
      PercentEncodes (c :: s) (byte '%' :: a :: b :: e)
  | plus (s e : Bytes) (rest : PercentEncodes s e) : PercentEncodes (byte ' ' :: s) (byte '+' :: e)

theorem fromHexChar_val (c : Byte) (n : ℕ) (h : hexDigit c = some n) : (fromHexChar c).val = n := by
  have hall : ∀ c : Byte, ∀ n ∈ hexDigit c, (fromHexChar c).val = n := by decide +kernel
  exact hall c n h

theorem escaped_digits (a b c : Byte) (ha : hexDigit a = some (c.val / 16))
    (hb : hexDigit b = some (c.val % 16)) : escaped a b = c := by
  have hc := c.isLt
  have hhigh : 16 * (c.val / 16) % 256 = 2 ^ 4 * (c.val / 16) := Nat.mod_eq_of_lt (by omega)
  have hor : 2 ^ 4 * (c.val / 16) ||| c.val % 16 = 2 ^ 4 * (c.val / 16) + c.val % 16 :=
    (Nat.two_pow_add_eq_or_of_lt (Nat.mod_lt _ (by decide)) _).symm
  rw [escaped, fromHexChar_val a _ ha, fromHexChar_val b _ hb, hhigh, hor]
  exact byte_halves c

theorem urlDecodeLoop_percentEncodes (s e : Bytes) (h : PercentEncodes s e) (fuel : ℕ) :
    urlDecodeLoop (fuel + e.length) e = s := by
  induction h generalizing fuel with
  | nil => exact urlDecodeLoop_nil fuel
  | literal c s e hpercent hplus _ ih =>
    rw [List.length_cons, ← Nat.add_assoc, urlDecodeLoop_cons, if_neg hpercent, if_neg hplus, ih]
  | escape c a b s e high low _ ih =>
    have hfuel : fuel + (byte '%' :: a :: b :: e).length = fuel + 2 + e.length + 1 := by
      simp only [List.length_cons]
      omega
    rw [hfuel, urlDecodeLoop_cons, if_pos rfl]
    show escaped a b :: urlDecodeLoop (fuel + 2 + e.length) e = c :: s
    rw [escaped_digits a b c high low, ih]
  | plus s e _ ih =>
    rw [List.length_cons, ← Nat.add_assoc, urlDecodeLoop_cons, if_neg (by decide), if_pos rfl, ih]

theorem urlDecodeLoop_whole (s e : Bytes) (h : PercentEncodes s e) : urlDecodeLoop e.length e = s := by
  have hloop := urlDecodeLoop_percentEncodes s e h 0
  rwa [Nat.zero_add] at hloop

/-- The encodings of a string without NUL have none either. -/
theorem PercentEncodes.noNul (s e : Bytes) (h : PercentEncodes s e) (hs : 0 ∉ s) : 0 ∉ e := by
  induction h with
  | nil => exact List.not_mem_nil
  | literal c s e _ _ _ ih =>
    rw [List.mem_cons, not_or] at hs ⊢
    exact ⟨hs.1, ih hs.2⟩
  | escape c a b s e high low _ ih =>
    rw [List.mem_cons, not_or] at hs
    simp only [List.mem_cons, not_or]
    exact ⟨by decide, (hexDigit_plain a _ high).1.symm, (hexDigit_plain b _ low).1.symm, ih hs.2⟩
  | plus s e _ ih =>
    rw [List.mem_cons, not_or] at hs
    rw [List.mem_cons, not_or]
    exact ⟨by decide, ih hs.2⟩

theorem cString_noNul (s : Bytes) (h : 0 ∉ s) : cString s = s := by
  rw [cString, List.takeWhile_eq_self_iff]
  intro c hc
  exact bne_iff_ne.2 fun h0 => h (h0 ▸ hc)

theorem urlDecode_percentEncodes (s e : Bytes) (h : PercentEncodes s e) (hs : 0 ∉ s) :
    urlDecode e = s := by
  rw [urlDecode, cString_noNul e (h.noNul s e hs), urlDecodeLoop_whole s e h, cString_noNul s hs]

/-- The decoder stays inside both buffers on every string, and on a percent-encoding it writes the
encoded bytes. -/
theorem urlDecode_correct :
    (∀ (s : Bytes) (beyond : ℕ → Byte), 0 ∉ s →
      ∃ out : Bytes, out.length ≤ s.length + 1 ∧
        Decodes s.length (tracedUrlDecode (mem (s ++ [0]) beyond) s.length) 0 out) ∧
      ∀ (s e : Bytes) (beyond : ℕ → Byte), 0 ∉ s → PercentEncodes s e →
        Decodes e.length (tracedUrlDecode (mem (e ++ [0]) beyond) e.length) 0 (s ++ [0]) ∧
          urlDecode e = s := by
  constructor
  · intro s beyond hs
    refine ⟨_, ?_, tracedUrlDecode_decodes s beyond hs⟩
    rw [List.length_append, List.length_singleton]
    exact Nat.succ_le_succ (urlDecodeLoop_length _ _)
  · intro s e beyond hs he
    have hrun := tracedUrlDecode_decodes e beyond (he.noNul s e hs)
    rw [urlDecodeLoop_whole s e he] at hrun
    exact ⟨hrun, urlDecode_percentEncodes s e he hs⟩

theorem samplePercentEncodes : PercentEncodes (text "a +") (text "a+%2b") :=
  .literal _ _ _ (by decide) (by decide) (.plus _ _ (.escape _ _ _ _ _ (by decide) (by decide) .nil))

theorem urlDecode_correct_sample :
    (∃ out : Bytes, out.length ≤ 4 + 1 ∧
      Decodes 4 (tracedUrlDecode (mem (text "100%" ++ [0]) plainHost.beyond) 4) 0 out) ∧
      Decodes 5 (tracedUrlDecode (mem (text "a+%2b" ++ [0]) plainHost.beyond) 5) 0 (text "a +" ++ [0]) ∧
      urlDecode (text "a+%2b") = text "a +" :=
  ⟨urlDecode_correct.1 (text "100%") plainHost.beyond (by decide),
    urlDecode_correct.2 (text "a +") (text "a+%2b") plainHost.beyond (by decide) samplePercentEncodes⟩

end Ravl
