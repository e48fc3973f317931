import Ravl.Http.Responses
import Mathlib.Data.List.DropRight

/-!
# What the header of a reply says

A line of a header has a name, a colon and a value, with blanks around the value that do not belong
to it; a name may be written in any case. What is stored of the line is another matter.
-/

namespace Ravl.Http
open ByteLib FallibleLib

/-! ### Fields -/

def isBlank (c : Byte) : Bool := c = byte ' ' || c = 9

def trimBlanks (s : Bytes) : Bytes := (s.dropWhile isBlank).rdropWhile isBlank

/-- The field that a line is, if it is one: it has a name, and is not a status line. -/
def readField (line : Bytes) : Option (Bytes × Bytes) :=
  (splitColon line).bind fun header =>
    if header.1 = [] ∨ text "HTTP/" <+: header.1 then none else some (header.1, trimBlanks header.2)

def Reply.fields (reply : Reply) : List (Bytes × Bytes) := reply.lines.filterMap readField

theorem isBlank_iff (c : Byte) : isBlank c = true ↔ IsBlank c := by
  simp [isBlank, IsBlank]

theorem trimBlanks_around (before value behind : Bytes) (hblanks : ∀ c ∈ before ++ behind, IsBlank c)
    (htrimmed : ∀ c, value.head? = some c ∨ value.getLast? = some c → ¬ IsBlank c) :
    trimBlanks (before ++ value ++ behind) = value := by
  have hbefore : ∀ c ∈ before, isBlank c = true :=
    fun c hc => (isBlank_iff c).2 (hblanks c (List.mem_append_left _ hc))
  have hbehind : ∀ c ∈ behind, isBlank c = true :=
    fun c hc => (isBlank_iff c).2 (hblanks c (List.mem_append_right _ hc))
  have hnot (c : Byte) (hc : value.head? = some c ∨ value.getLast? = some c) : ¬ isBlank c = true :=
    fun hblank => htrimmed c hc ((isBlank_iff c).1 hblank)
  have hdrop (s : Bytes) (hs : ∀ c ∈ s, isBlank c = true) : s.dropWhile isBlank = [] :=
    List.dropWhile_eq_nil_iff.2 hs
  unfold trimBlanks
  rw [List.append_assoc, List.dropWhile_append_of_pos hbefore]
  cases value with
  | nil =>
    rw [List.nil_append, hdrop behind hbehind]
    rfl
  | cons c value =>
    rw [List.cons_append, List.dropWhile_cons_of_neg (hnot c (Or.inl rfl)), ← List.cons_append,
      List.rdropWhile, List.reverse_append,
      List.dropWhile_append_of_pos fun d hd => hbehind d (List.mem_reverse.1 hd)]
    obtain ⟨front, d, hlast⟩ : ∃ front d, c :: value = front ++ [d] :=
      ⟨_, _, (List.dropLast_append_getLast (List.cons_ne_nil c value)).symm⟩
    rw [hlast, List.reverse_append, List.reverse_singleton, List.singleton_append,
      List.dropWhile_cons_of_neg (hnot d (Or.inr (by rw [hlast, List.getLast?_concat]))),
      List.reverse_cons, List.reverse_reverse]

theorem readField_field (f : HeaderField) (hname : ¬ text "HTTP/" <+: f.name) :
    readField (HeaderLine.field f).content = some (f.name, f.value) := by
  rw [readField, HeaderLine.content, splitColon_append _ _ f.noColon, Option.bind_some,
    if_neg (not_or.2 ⟨f.named, hname⟩), trimBlanks_around _ _ _ f.blanks f.trimmed]

theorem http_starts_name (name rest : Bytes) (h : text "HTTP/" <+: name ++ byte ':' :: rest) :
    text "HTTP/" <+: name := by
  have hno : byte ':' ∉ text "HTTP/" := by decide +kernel
  have hline : name ++ [byte ':'] <+: name ++ byte ':' :: rest :=
    (List.prefix_append_right_inj name).2 (List.prefix_append [byte ':'] rest)
  obtain hlong | hshort := List.prefix_or_prefix_of_prefix h hline
  · obtain heq | hprefix := List.prefix_concat_iff.1 hlong
    · exact absurd (heq ▸ List.mem_append_right name (List.mem_singleton.2 rfl)) hno
    · exact hprefix
  · exact absurd (hshort.subset (List.mem_append_right name (List.mem_singleton.2 rfl))) hno

theorem readField_status (s : StatusLine) : readField s.line = none := by
  obtain ⟨-, hsplit⟩ | ⟨name, rest, -, hline, hsplit⟩ := splitColon_cases s.line
  · rw [readField, hsplit, Option.bind_none]
  · rw [readField, hsplit, Option.bind_some, if_pos]
    exact Or.inr (http_starts_name name rest (hline ▸ s.http))

/-! ### Retry-After -/

/-- The number that the first field named `Retry-After`, however that is written, stands for; 0 if
there is none. -/
def retryField (fields : List (Bytes × Bytes)) : ℤ :=
  match fields.find? fun field => field.1.map toLower = text "retry-after" with
  | none => 0
  | some field => atol field.2

/-- The number that `must_retry` sees: two spellings are looked for. -/
def retryStored (headers : List (Bytes × Bytes)) : ℤ :=
  match (findHeader (text "Retry-After") headers).or (findHeader (text "retry-after") headers) with
  | none => 0
  | some value => atol value

/-- The reply has status 429 and a `Retry-After` header with a number other than zero. -/
def Reply.AsksAgain (reply : Reply) : Prop := reply.status = 429 ∧ retryField reply.fields ≠ 0

/-- What is stored of the reply has one. -/
def Reply.SeenAsking (reply : Reply) : Prop := reply.status = 429 ∧ retryStored reply.stored ≠ 0

instance (reply : Reply) : Decidable reply.AsksAgain := inferInstanceAs (Decidable (_ ∧ _))

instance (reply : Reply) : Decidable reply.SeenAsking := inferInstanceAs (Decidable (_ ∧ _))

theorem perform_empty (reply : Reply) (name : Bytes) :
    findHeader name (perform {} reply).headers = findHeader name reply.stored := by
  rw [perform_eq]
  exact findHeader_emplaced name reply.stored {}

theorem retried_of_429 (reply : Reply) : reply.retried = true ↔
    reply.status = 429 ∧ ∃ seconds, retryAfter reply.response = .ok seconds := by
  have hresponse : { perform {} reply with status := reply.status } = reply.response := rfl
  rw [Reply.retried, mustRetry, hresponse]
  by_cases hstatus : reply.status = 429
  · rw [if_pos hstatus]
    cases hafter : retryAfter reply.response with
    | error e =>
      refine iff_of_false Bool.false_ne_true ?_
      rintro ⟨-, seconds, h⟩
      cases h
    | ok seconds => exact ⟨fun _ => ⟨hstatus, seconds, rfl⟩, fun _ => rfl⟩
  · rw [if_neg hstatus]
    exact iff_of_false Bool.false_ne_true fun h => hstatus h.1

theorem retried_iff (reply : Reply) : reply.retried = true ↔ reply.SeenAsking := by
  have hlower : (text "Retry-After").map toLower = text "retry-after" := by decide +kernel
  have hheader (value : Bytes) : reply.response.getHeaderString (text "Retry-After") false = .ok value ↔
      (findHeader (text "Retry-After") reply.stored).or (findHeader (text "retry-after") reply.stored) =
        some value := by
    rw [← perform_empty, ← perform_empty, ← hlower]
    exact reply.response.getHeaderString_ok_iff _ value
  rw [retried_of_429, Reply.SeenAsking, retryStored]
  refine and_congr_right fun _ => ?_
  simp only [retryAfter, bind_ok, hheader, refuse_ok, pure_ok]
  cases (findHeader (text "Retry-After") reply.stored).or (findHeader (text "retry-after") reply.stored) with
  | none => simp
  | some value =>
    constructor
    · rintro ⟨seconds, value', hvalue, u, hne, -⟩
      obtain rfl := Option.some.inj hvalue
      exact hne
    · intro hne
      exact ⟨atol value, value, rfl, (), hne, rfl⟩

/-! ### Whether a response is the reply -/

/-- The response is this reply and nothing else; of fields with one name the first one counts. -/
structure Reply.IsIn (reply : Reply) (response : HTTPResponse) : Prop where
  status : response.status = reply.status
  headers : ∀ name, findHeader name response.headers = findHeader name reply.fields
  body : response.body = reply.chunks.flatten

structure Reply.Fills (reply : Reply) (response : HTTPResponse) : Prop where
  status : response.status = reply.status
  body : response.body = reply.chunks.flatten

theorem Reply.response_fills (reply : Reply) : reply.Fills reply.response where
  status := rfl
  body := by
    rw [Reply.response, perform_eq]
    rfl

/-- There is no field in the line and nothing is stored of it: it has no colon, or is a status line
with a NUL before the colon. -/
def IsBare (line : Bytes) : Prop :=
  ∀ header, splitColon line = some header → 0 ∈ header.1 ∧ text "HTTP/" <+: header.1

theorem mem_of_findHeader {name value : Bytes} {headers : List (Bytes × Bytes)}
    (h : findHeader name headers = some value) : (name, value) ∈ headers := by
  obtain ⟨header, hfind, rfl⟩ := Option.map_eq_some_iff.1 h
  have hname : header.1 = name := by simpa using List.find?_some hfind
  rw [← hname]
  exact List.mem_of_find?_eq_some hfind

theorem findHeader_isSome {name value : Bytes} {headers : List (Bytes × Bytes)}
    (h : (name, value) ∈ headers) : ∃ first, findHeader name headers = some first := by
  have hsome : (headers.find? fun header => header.1 = name).isSome := by
    rw [List.find?_isSome]
    exact ⟨_, h, decide_eq_true rfl⟩
  obtain ⟨header, hheader⟩ := Option.isSome_iff_exists.1 hsome
  exact ⟨header.2, by rw [findHeader, hheader, Option.map_some]⟩

/-- Some names are left out, and the values of the others are changed. -/
theorem findHeader_filterMap (without : Bytes → Prop) [DecidablePred without] (change : Bytes → Bytes)
    (name : Bytes) (headers : List (Bytes × Bytes)) :
    findHeader name (headers.filterMap fun header =>
      if without header.1 then none else some (header.1, change header.2)) =
        if without name then none else (findHeader name headers).map change := by
  induction headers with
  | nil => simp [findHeader]
  | cons header headers ih =>
    rw [List.filterMap_cons]
    by_cases hname : header.1 = name
    · subst hname
      by_cases hout : without header.1
      · rw [if_pos hout, if_pos hout]
        exact ih.trans (if_pos hout)
      · rw [if_neg hout, if_neg hout]
        simp [findHeader]
    · have hskip {value : Bytes} {rest : List (Bytes × Bytes)} :
          findHeader name ((header.1, value) :: rest) = findHeader name rest := by
        simp [findHeader, hname]
      rw [hskip, ← ih]
      by_cases hout : without header.1
      · rw [if_pos hout]
      · rw [if_neg hout]
        exact hskip

def Reply.split (reply : Reply) : List (Bytes × Bytes) := reply.lines.filterMap splitColon

theorem findHeader_stored {name : Bytes} (h : 0 ∉ name) (reply : Reply) :
    findHeader name reply.stored = (findHeader name reply.split).map storedValue := by
  have hsplit := findHeader_filterMap (fun name => 0 ∈ name) storedValue name reply.split
  rw [if_neg h, Reply.split, List.filterMap_filterMap] at hsplit
  exact hsplit

theorem findHeader_stored_nul {name : Bytes} (h : 0 ∈ name) (reply : Reply) :
    findHeader name reply.stored = none := by
  have hsplit := findHeader_filterMap (fun name => 0 ∈ name) storedValue name reply.split
  rw [if_pos h, Reply.split, List.filterMap_filterMap] at hsplit
  exact hsplit

theorem findHeader_fields (reply : Reply) (name : Bytes) : findHeader name reply.fields =
    if name = [] ∨ text "HTTP/" <+: name then none else (findHeader name reply.split).map trimBlanks := by
  rw [← findHeader_filterMap (fun name => name = [] ∨ text "HTTP/" <+: name), Reply.split,
    List.filterMap_filterMap]
  rfl

/-- With the end of the line and a NUL the stored value is longer than the value. -/
theorem storedValue_ne (rest : Bytes) : storedValue rest ≠ trimBlanks rest := by
  intro heq
  have hlength := congrArg List.length heq
  have htrim : (trimBlanks rest).length ≤ rest.length :=
    (List.rdropWhile_prefix _ _).length_le.trans (List.dropWhile_sublist _).length_le
  simp only [storedValue, crlf, List.length_drop, List.length_append, List.length_cons,
    List.length_nil] at hlength
  omega

theorem mem_split {reply : Reply} {header : Bytes × Bytes} :
    header ∈ reply.split ↔ ∃ line ∈ reply.lines, splitColon line = some header :=
  List.mem_filterMap

theorem response_isIn_iff (reply : Reply) : reply.IsIn reply.response ↔ ∀ line ∈ reply.lines, IsBare line := by
  constructor
  · intro h line hline header hheader
    obtain ⟨name, rest⟩ := header
    obtain ⟨first, hfirst⟩ := findHeader_isSome (mem_split.2 ⟨line, hline, hheader⟩)
    have hsame : findHeader name reply.stored = findHeader name reply.fields :=
      (perform_empty reply name).symm.trans (h.headers name)
    rw [findHeader_fields, hfirst, Option.map_some] at hsame
    by_cases hnul : (0 : Byte) ∈ name
    · rw [findHeader_stored_nul hnul] at hsame
      by_cases hout : name = [] ∨ text "HTTP/" <+: name
      · exact ⟨hnul, hout.resolve_left (List.ne_nil_of_mem hnul)⟩
      · rw [if_neg hout] at hsame
        cases hsame
    · rw [findHeader_stored hnul, hfirst, Option.map_some] at hsame
      split at hsame
      · cases hsame
      · exact absurd (Option.some.inj hsame) (storedValue_ne first)
  · intro h
    refine ⟨rfl, fun name => (perform_empty reply name).trans ?_, reply.response_fills.body⟩
    rw [findHeader_fields]
    cases hfirst : findHeader name reply.split with
    | none =>
      by_cases hnul : (0 : Byte) ∈ name
      · simp [findHeader_stored_nul hnul]
      · simp [findHeader_stored hnul, hfirst]
    | some first =>
      obtain ⟨line, hline, hheader⟩ := mem_split.1 (mem_of_findHeader hfirst)
      obtain ⟨hnul, hhttp⟩ := h line hline _ hheader
      rw [findHeader_stored_nul hnul, if_pos (Or.inr hhttp)]

/-- A reply that is kept whole has no header, so it is not seen asking. -/
theorem not_seenAsking_of_bare (reply : Reply) (h : ∀ line ∈ reply.lines, IsBare line) :
    ¬ reply.SeenAsking := by
  have hstored (name : Bytes) : findHeader name reply.stored = none := by
    by_cases hnul : (0 : Byte) ∈ name
    · exact findHeader_stored_nul hnul reply
    · rw [findHeader_stored hnul]
      cases hfirst : findHeader name reply.split with
      | none => rfl
      | some first =>
        obtain ⟨line, hline, hheader⟩ := mem_split.1 (mem_of_findHeader hfirst)
        exact absurd (h line hline _ hheader).1 hnul
  rw [Reply.SeenAsking, retryStored, hstored, hstored]
  exact fun hseen => hseen.2 rfl

end Ravl.Http
