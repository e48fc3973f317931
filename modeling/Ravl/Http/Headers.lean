import Ravl.HttpClient
import Ravl.Lib.Traced

/-!
# Header lines (http_client_curl.cpp:35-49, http_client.h:136-159)

The callback is given a line of a certain size without a terminator. It looks for the colon as in
a C string, so the memory behind the line takes part, and computes where the value lies.
-/

namespace Ravl.Http
open ByteLib FallibleLib TracedLib Traced

/-! ### The callback -/

/-- `r->headers.emplace(std::make_pair(key, value))` -/
def emplaceHeader (r : HTTPResponse) (header : Bytes × Bytes) : HTTPResponse :=
  if (findHeader header.1 r.headers).isSome then r
  else { r with headers := r.headers ++ [header] }

/-- `std::string(p, count)`, where `p` points at offset `off` -/
def copyString (memory : Bytes) (size off count : ℕ) : Traced Access Error Bytes := do
  event ⟨off, count, size⟩ ()
  quiet (refuse (0 < count ∧ memory.length < off + count) (.undefined "read behind the memory"))
  pure (sub memory off count)

/-- The search for `c` goes on behind `d`. -/
def passes (c d : Byte) : Bool := d ≠ c && d ≠ 0

def scan (c : Byte) (memory : Bytes) : ℕ := (memory.takeWhile (passes c)).length

/-- `std::strchr`; the character that ends the search is read as well. -/
def strchr (memory : Bytes) (size : ℕ) (c : Byte) : Traced Access Error (Option ℕ) := do
  let k := scan c memory
  event ⟨0, k + 1, size⟩ ()
  let d ← quiet (orThrow memory[k]? (.undefined "read behind the memory"))
  pure (if d = c then some k else none)

/-- `header_write_fun`, with the memory that lies behind the line -/
def headerWriteFun (r : HTTPResponse) (line after : Bytes) : Traced Access Error HTTPResponse := do
  let memory := line ++ after
  let realSize := line.length
  let _ ← copyString memory realSize 0 realSize
  let colon ← strchr memory realSize (byte ':')
  match colon with
  | none => pure r
  | some colon =>
    let key ← copyString memory realSize 0 colon
    -- For a colon behind the line the length wraps around, and no string is that long.
    quiet (refuse (realSize < colon + 1) (.exception "basic_string::_M_create"))
    let value ← copyString memory realSize (colon + 2) (realSize - colon - 1)
    pure (emplaceHeader r (key, value))

/-! ### The lines of a header -/

def crlf : Bytes := [13, 10]

def IsBlank (c : Byte) : Prop := c = byte ' ' ∨ c = 9

structure StatusLine where
  line : Bytes
  http : text "HTTP/" <+: line
  oneLine : 13 ∉ line ∧ 10 ∉ line

/-- The value has no blanks around it; these are `before` and `behind`. -/
structure HeaderField where
  name : Bytes
  before : Bytes
  value : Bytes
  behind : Bytes
  named : name ≠ []
  noColon : byte ':' ∉ name
  oneLine : 13 ∉ name ++ value ∧ 10 ∉ name ++ value
  blanks : ∀ c ∈ before ++ behind, IsBlank c
  trimmed : ∀ c, value.head? = some c ∨ value.getLast? = some c → ¬ IsBlank c

inductive HeaderLine where
  | status (s : StatusLine)
  | blank
  | field (f : HeaderField)

/-- The line without its end -/
def HeaderLine.content : HeaderLine → Bytes
  | status s => s.line
  | blank => []
  | field f => f.name ++ byte ':' :: (f.before ++ f.value ++ f.behind)

def HeaderLine.bytes (line : HeaderLine) : Bytes := line.content ++ crlf

/-- The response has no header with this name yet, however it is spelled. -/
def IsNew (name : Bytes) (r : HTTPResponse) : Prop :=
  ∀ other, other.map toLower = name.map toLower → findHeader other r.headers = none

/-- The callback stays inside the line and adds exactly what the line says. -/
structure Handled (line : HeaderLine) (after : Bytes) (r : HTTPResponse) : Prop where
  inside : (headerWriteFun r line.bytes after).All Access.Inside
  colonless : byte ':' ∉ line.bytes → (headerWriteFun r line.bytes after).forget = .ok r
  stored : ∀ f, line = .field f → IsNew f.name r → ∃ r', (headerWriteFun r line.bytes after).forget = .ok r' ∧
    findHeader f.name r'.headers = some f.value ∧
    ∀ name, name.map toLower = f.name.map toLower → r'.getHeaderString name false = .ok f.value

/-- There is a NUL, and no colon before it. -/
def EndsEarly (content : Bytes) : Prop :=
  content.find? (fun c => c = byte ':' || c = 0) = some 0

/-! ### Where the search ends -/

theorem scan_append (c : Byte) (before : Bytes) (d : Byte) (after : Bytes)
    (hbefore : ∀ x ∈ before, passes c x = true) (hd : passes c d = false) :
    scan c (before ++ d :: after) = before.length := by
  rw [scan, List.takeWhile_append_of_pos hbefore, List.takeWhile_cons_of_neg (by rw [hd]; decide),
    List.append_nil]

theorem le_scan_append (c : Byte) (line after : Bytes) (h : ∀ x ∈ line, passes c x = true) :
    line.length ≤ scan c (line ++ after) := by
  rw [scan, List.takeWhile_append_of_pos h, List.length_append]
  exact Nat.le_add_right _ _

/-- Either nothing in the line ends the search, or a first character does. -/
theorem first_stop (c : Byte) (line : Bytes) : (∀ x ∈ line, passes c x = true) ∨
    ∃ before d after, line = before ++ d :: after ∧ (∀ x ∈ before, passes c x = true) ∧
      passes c d = false := by
  induction line with
  | nil => exact Or.inl nofun
  | cons x line ih =>
    cases hx : passes c x with
    | false => exact Or.inr ⟨[], x, line, rfl, nofun, hx⟩
    | true =>
      obtain hall | ⟨before, d, after, rfl, hbefore, hd⟩ := ih
      · exact Or.inl (List.forall_mem_cons.2 ⟨hx, hall⟩)
      · exact Or.inr ⟨x :: before, d, after, rfl, List.forall_mem_cons.2 ⟨hx, hbefore⟩, hd⟩

theorem stop_iff (c d : Byte) : passes c d = false ↔ d = c ∨ d = 0 := by
  simp only [passes, Bool.and_eq_false_iff, decide_eq_false_iff_not, ne_eq, not_not]

theorem forget_copyString (memory : Bytes) (size off count : ℕ) (h : off + count ≤ memory.length) :
    (copyString memory size off count).forget = .ok (sub memory off count) := by
  simp only [copyString, forget_bind, forget_event, forget_quiet, forget_pure]
  rw [refuse_of_not (by omega)]
  rfl

theorem all_copyString (P : Access → Prop) (memory : Bytes) (size off count : ℕ) :
    (copyString memory size off count).All P ↔ P ⟨off, count, size⟩ := by
  simp [copyString]

theorem forget_strchr (memory : Bytes) (size : ℕ) (c d : Byte) (h : memory[scan c memory]? = some d) :
    (strchr memory size c).forget = .ok (if d = c then some (scan c memory) else none) := by
  simp only [strchr, forget_bind, forget_event, forget_quiet, forget_pure, h]
  rfl

theorem all_strchr (P : Access → Prop) (memory : Bytes) (size : ℕ) (c : Byte) :
    (strchr memory size c).All P ↔ P ⟨0, scan c memory + 1, size⟩ := by
  simp [strchr]

theorem forget_copyLine (line after : Bytes) :
    (copyString (line ++ after) line.length 0 line.length).forget = .ok line := by
  rw [forget_copyString _ _ _ _ (by rw [List.length_append]; omega), sub, List.drop_zero, List.take_left]

/-! ### The three ways a search can end -/

section
variable (r : HTTPResponse)

theorem colon_passes_zero : passes (byte ':') 0 = false := by decide

theorem colon_passes_colon : passes (byte ':') (byte ':') = false := by decide

theorem mem_at (before : Bytes) (d : Byte) (after : Bytes) :
    (before ++ d :: after)[before.length]? = some d := by
  rw [List.getElem?_append_right (Nat.le_refl _), Nat.sub_self]
  rfl

theorem scan_line (before : Bytes) (d : Byte) (rest after : Bytes)
    (hbefore : ∀ x ∈ before, passes (byte ':') x = true) (hd : passes (byte ':') d = false) :
    scan (byte ':') (before ++ d :: rest ++ after) = before.length := by
  rw [List.append_assoc, List.cons_append]
  exact scan_append _ before d (rest ++ after) hbefore hd

theorem strchr_line (before : Bytes) (d : Byte) (rest after : Bytes) (size : ℕ)
    (hbefore : ∀ x ∈ before, passes (byte ':') x = true) (hd : passes (byte ':') d = false) :
    (strchr (before ++ d :: rest ++ after) size (byte ':')).forget =
      .ok (if d = byte ':' then some before.length else none) := by
  have hscan := scan_line before d rest after hbefore hd
  have hfound : (before ++ d :: rest ++ after)[scan (byte ':') (before ++ d :: rest ++ after)]? = some d := by
    rw [hscan, List.append_assoc, List.cons_append]
    exact mem_at before d (rest ++ after)
  rw [forget_strchr _ size (byte ':') d hfound, hscan]

theorem strchr_nul (before rest after : Bytes) (size : ℕ)
    (hbefore : ∀ x ∈ before, passes (byte ':') x = true) :
    (strchr (before ++ 0 :: rest ++ after) size (byte ':')).forget = .ok none := by
  rw [strchr_line before 0 rest after size hbefore colon_passes_zero, if_neg (by decide)]

theorem strchr_colon (before rest after : Bytes) (size : ℕ)
    (hbefore : ∀ x ∈ before, passes (byte ':') x = true) :
    (strchr (before ++ byte ':' :: rest ++ after) size (byte ':')).forget = .ok (some before.length) := by
  rw [strchr_line before (byte ':') rest after size hbefore colon_passes_colon, if_pos rfl]

theorem colonLine_length (before rest : Bytes) :
    (before ++ byte ':' :: rest).length = before.length + rest.length + 1 := by
  rw [List.length_append, List.length_cons]
  rfl

/-- A NUL ends it: the line is taken for one without a colon. -/
theorem headerWriteFun_nul (before rest after : Bytes)
    (hbefore : ∀ x ∈ before, passes (byte ':') x = true) :
    (headerWriteFun r (before ++ 0 :: rest) after).All Access.Inside ∧
      (headerWriteFun r (before ++ 0 :: rest) after).forget = .ok r := by
  have hscan := scan_line before 0 rest after hbefore colon_passes_zero
  have hnone := strchr_nul before rest after (before ++ 0 :: rest).length hbefore
  unfold headerWriteFun
  constructor
  · simp only [all_bind, all_copyString, all_strchr, hscan, hnone]
    refine ⟨Access.inside_of_le (Nat.le_of_eq (Nat.zero_add _)), fun _ _ => ⟨?_, ?_⟩⟩
    · refine Access.inside_of_le ?_
      simp only [List.length_append, List.length_cons]
      omega
    · intro colon hcolon
      cases hcolon
      exact all_pure _ _
  · simp only [forget_bind, forget_copyLine, hnone]
    rfl

theorem key_of_colon (before rest after : Bytes) (size : ℕ) :
    (copyString (before ++ byte ':' :: rest ++ after) size 0 before.length).forget = .ok before := by
  have hlength : 0 + before.length ≤ (before ++ byte ':' :: rest ++ after).length := by
    simp only [List.length_append]
    omega
  rw [forget_copyString _ _ _ _ hlength, sub, List.drop_zero, List.append_assoc, List.take_left]

/-- A colon ends it: all that is behind the colon counts, but reading starts a character later. -/
theorem headerWriteFun_colon (before rest after : Bytes)
    (hbefore : ∀ x ∈ before, passes (byte ':') x = true) (hrest : rest ≠ []) :
    ¬ (headerWriteFun r (before ++ byte ':' :: rest) after).All Access.Inside := by
  have hsome := strchr_colon before rest after (before ++ byte ':' :: rest).length hbefore
  have hpos := List.length_pos_iff.2 hrest
  have hlength := colonLine_length before rest
  intro hall
  simp only [headerWriteFun, all_bind, all_copyString, forget_copyLine, hsome] at hall
  have hcolon := (hall.2 _ rfl).2 _ rfl
  simp only [all_bind, all_copyString, all_quiet, key_of_colon] at hcolon
  have hread := (hcolon.2 _ rfl).2 () (refuse_of_not (by omega) _)
  have hvalue := Access.le_of_inside hread.1 (by omega)
  omega

/-- What is stored: the value lacks its first character, which is a blank if there is one, and has
the line end and one byte more. -/
theorem headerWriteFun_stores (before rest : Bytes) (b : Byte) (after : Bytes)
    (hbefore : ∀ x ∈ before, passes (byte ':') x = true) :
    (headerWriteFun r (before ++ byte ':' :: rest) (b :: after)).forget =
      .ok (emplaceHeader r (before, (rest ++ [b]).drop 1)) := by
  have hsome := strchr_colon before rest (b :: after) (before ++ byte ':' :: rest).length hbefore
  have hlength := colonLine_length before rest
  have hcount : (before ++ byte ':' :: rest).length - before.length - 1 = rest.length := by omega
  have hsize : before.length + 2 + rest.length ≤ (before ++ byte ':' :: rest ++ b :: after).length := by
    rw [List.length_append, hlength, List.length_cons]
    omega
  have hvalue : sub (before ++ byte ':' :: rest ++ b :: after) (before.length + 2) rest.length =
      (rest ++ [b]).drop 1 := by
    have hsplit : before ++ byte ':' :: rest ++ b :: after =
        (before ++ byte ':' :: (rest ++ [b]).take 1) ++ (rest ++ [b]).drop 1 ++ after := by
      cases rest <;> simp
    have hfirst : (before ++ byte ':' :: (rest ++ [b]).take 1).length = before.length + 2 := by
      cases rest <;> simp
    have hlast : ((rest ++ [b]).drop 1).length = rest.length := by simp
    rw [hsplit, sub_middle _ _ _ _ _ hfirst hlast]
  simp only [headerWriteFun, forget_bind, forget_copyLine, ok_bind, hsome, key_of_colon, forget_quiet]
  rw [refuse_of_not (by omega), ok_bind, hcount, forget_copyString _ _ _ _ hsize, hvalue]
  rfl

/-- Nothing in the line ends the search, but a NUL behind it does. -/
theorem headerWriteFun_terminated (line after : Bytes) (hline : ∀ x ∈ line, passes (byte ':') x = true) :
    (headerWriteFun r line (0 :: after)).forget = .ok r := by
  have hnone := strchr_nul line after [] line.length hline
  rw [List.append_nil] at hnone
  simp only [headerWriteFun, forget_bind, forget_copyLine, ok_bind, hnone]
  rfl

theorem headerWriteFun_behind (line after : Bytes) (h : ∀ x ∈ line, passes (byte ':') x = true) :
    ¬ (headerWriteFun r line after).All Access.Inside := by
  have hscan := le_scan_append (byte ':') line after h
  intro hall
  simp only [headerWriteFun, all_bind, all_copyString, all_strchr, forget_copyLine] at hall
  have hsearch := Access.le_of_inside (hall.2 line rfl).1 (Nat.succ_pos _)
  omega

theorem endsEarly_iff (before : Bytes) (d : Byte) (rest : Bytes)
    (hbefore : ∀ x ∈ before, passes (byte ':') x = true) (hd : passes (byte ':') d = false) :
    EndsEarly (before ++ d :: rest) ↔ d = 0 := by
  have hnone : before.find? (fun c => c = byte ':' || c = 0) = none := by
    refine List.find?_eq_none.2 fun x hx => ?_
    simpa [passes] using hbefore x hx
  have hfirst : (d :: rest).find? (fun c => c = byte ':' || c = 0) = some d :=
    List.find?_cons_of_pos (by simpa using (stop_iff _ d).1 hd)
  rw [EndsEarly, List.find?_append, hnone, Option.none_or, hfirst, Option.some.injEq]

theorem not_endsEarly (content : Bytes) (h : ∀ x ∈ content, passes (byte ':') x = true) :
    ¬ EndsEarly content := by
  intro hearly
  have hpass := h 0 (List.mem_of_find?_eq_some hearly)
  cases hpass

/-- The accesses are in order exactly when a NUL hides the colon, and the line is lost then. -/
theorem headerWriteFun_inside_iff (content after : Bytes) :
    (headerWriteFun r (content ++ crlf) after).All Access.Inside ↔ EndsEarly content := by
  have hcrlf : ∀ x ∈ crlf, passes (byte ':') x = true := by decide +kernel
  obtain hall | ⟨before, d, rest, rfl, hbefore, hd⟩ := first_stop (byte ':') content
  · have hline : ∀ x ∈ content ++ crlf, passes (byte ':') x = true :=
      fun x hx => (List.mem_append.1 hx).elim (hall x) (hcrlf x)
    exact iff_of_false (headerWriteFun_behind r _ after hline) (not_endsEarly content hall)
  · rw [endsEarly_iff before d rest hbefore hd, List.append_assoc, List.cons_append]
    obtain rfl | rfl := (stop_iff _ _).1 hd
    · have hne : rest ++ crlf ≠ [] := fun h => List.cons_ne_nil _ _ (List.append_eq_nil_iff.1 h).2
      exact iff_of_false (headerWriteFun_colon r before _ after hbefore hne) (by decide)
    · exact iff_of_true (headerWriteFun_nul r before _ after hbefore).1 rfl

theorem headerWriteFun_early (content after : Bytes) (h : EndsEarly content) :
    (headerWriteFun r (content ++ crlf) after).forget = .ok r := by
  obtain hall | ⟨before, d, rest, rfl, hbefore, hd⟩ := first_stop (byte ':') content
  · exact absurd h (not_endsEarly content hall)
  · obtain rfl := (endsEarly_iff before d rest hbefore hd).1 h
    rw [List.append_assoc, List.cons_append]
    exact (headerWriteFun_nul r before _ after hbefore).2

end

/-! ### Looking a header up -/

theorem toLower_toLower (c : Byte) : toLower (toLower c) = toLower c := by
  revert c
  decide +kernel

theorem lowered_idem (name : Bytes) : (name.map toLower).map toLower = name.map toLower := by
  rw [List.map_map]
  exact List.map_congr_left fun c _ => toLower_toLower c

/-- A header is found under every spelling of its name exactly when the server wrote the name in
lower case. -/
theorem getHeaderString_spellings_iff (r : HTTPResponse) (name value : Bytes)
    (h : findHeader name r.headers = some value)
    (hother : ∀ other, other ≠ name → other.map toLower = name.map toLower →
      findHeader other r.headers = none) :
    (∀ asked, asked.map toLower = name.map toLower → r.getHeaderString asked false = .ok value) ↔
      name.map toLower = name := by
  constructor
  · intro hall
    by_contra hne
    have hlow := (r.getHeaderString_ok_iff _ _).1 (hall (name.map toLower) (lowered_idem name))
    rw [lowered_idem, hother _ hne (lowered_idem name)] at hlow
    cases hlow
  · intro hlower asked hasked
    rw [r.getHeaderString_ok_iff, hasked, hlower, h]
    by_cases hname : asked = name
    · rw [hname, h]
      rfl
    · rw [hother asked hname hasked]
      rfl

/-! ### All lines -/

theorem headerLine_handled_iff (line : HeaderLine) (after : Bytes) :
    (∀ r, Handled line after r) ↔ ∃ s, line = .status s ∧ EndsEarly s.line := by
  constructor
  · intro h
    have hearly : EndsEarly line.content := (headerWriteFun_inside_iff {} line.content after).1 (h {}).inside
    cases line with
    | status s => exact ⟨s, rfl, hearly⟩
    | blank => cases hearly
    | field f =>
      -- A name with a NUL: nothing is stored.
      obtain ⟨r', hr', hfound, -⟩ := (h {}).stored f rfl fun _ _ => rfl
      cases (headerWriteFun_early {} _ after hearly).symm.trans hr'
      cases hfound
  · rintro ⟨s, rfl, hearly⟩ r
    exact ⟨(headerWriteFun_inside_iff r s.line after).2 hearly,
      fun _ => headerWriteFun_early r s.line after hearly, nofun⟩

/-- `Retry-After: 7` -/
def retryAfterField : HeaderField where
  name := text "Retry-After"
  before := text " "
  value := text "7"
  behind := []
  named := by decide
  noColon := by decide +kernel
  oneLine := by decide +kernel
  blanks := by
    intro c hc
    exact Or.inl (List.mem_singleton.1 hc)
  trimmed := by
    intro c hc
    have hdigit : c = byte '7' := by
      obtain h | h := hc <;> exact (Option.some.inj h).symm
    subst hdigit
    unfold IsBlank
    decide

/-- A terminator behind the line becomes part of the value, with the end of the line. -/
theorem retryAfter_misread :
    (headerWriteFun {} (HeaderLine.field retryAfterField).bytes [0]).forget =
      .ok { headers := [(text "Retry-After", text "7" ++ [13, 10, 0])] } ∧
    ¬ ∀ r, Handled (.field retryAfterField) [0] r := by
  refine ⟨by decide +kernel, fun h => ?_⟩
  obtain ⟨r', hr', hfound, -⟩ := (h {}).stored retryAfterField rfl fun _ _ => rfl
  have hstored : (headerWriteFun {} (HeaderLine.field retryAfterField).bytes [0]).forget =
      .ok { headers := [(text "Retry-After", text "7" ++ [13, 10, 0])] } := by decide +kernel
  cases hstored.symm.trans hr'
  exact absurd hfound (by decide +kernel)

end Ravl.Http
