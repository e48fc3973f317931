import Ravl.Http.Headers
import Mathlib.Data.List.AList
import Mathlib.Data.List.TakeWhile

/-!
# Filling responses (http_client_curl.cpp:26-49, 80-116)

A reply of the server is written into a response object piece by piece: the body is appended, a
line of the header is taken apart and stored unless its name is there. Next to each response object
stands the URL that its content comes from.
-/

namespace Ravl.Http
open ByteLib FallibleLib TracedLib Traced

/-- What a transfer ends with: a status, the lines of a header without their ends, and a body. -/
structure Reply where
  status : ℕ
  lines : List Bytes := []
  chunks : List Bytes := []
  deriving DecidableEq

/-- libcurl calls `header_write_fun` for every line, with its end; there is a NUL behind it. -/
def writeHeader (r : HTTPResponse) (line : Bytes) : HTTPResponse :=
  match (headerWriteFun r (line ++ crlf) [0]).forget with
  | .ok r => r
  | .error _ => r

/-- `body_write_fun` -/
def writeBody (r : HTTPResponse) (chunk : Bytes) : HTTPResponse := { r with body := r.body ++ chunk }

/-- One transfer writes into the response; the status is read later. -/
def perform (r : HTTPResponse) (reply : Reply) : HTTPResponse :=
  reply.chunks.foldl writeBody (reply.lines.foldl writeHeader r)

/-! ### What is stored -/

/-- What stands before the first colon and what behind it -/
def splitColon (line : Bytes) : Option (Bytes × Bytes) :=
  match line.dropWhile (· ≠ byte ':') with
  | [] => none
  | _ :: rest => some (line.takeWhile (· ≠ byte ':'), rest)

/-- All that is behind the colon but the first byte, with the end of the line and the NUL. -/
def storedValue (rest : Bytes) : Bytes := (rest ++ crlf ++ [0]).drop 1

def storedHeader (line : Bytes) : Option (Bytes × Bytes) :=
  (splitColon line).bind fun header =>
    if 0 ∈ header.1 then none else some (header.1, storedValue header.2)

def Reply.stored (reply : Reply) : List (Bytes × Bytes) := reply.lines.filterMap storedHeader

theorem splitColon_append (name rest : Bytes) (hname : byte ':' ∉ name) :
    splitColon (name ++ byte ':' :: rest) = some (name, rest) := by
  have hpass : ∀ c ∈ name, decide (c ≠ byte ':') = true :=
    fun c hc => decide_eq_true fun heq => hname (heq ▸ hc)
  unfold splitColon
  rw [List.dropWhile_append_of_pos hpass, List.takeWhile_append_of_pos hpass,
    List.dropWhile_cons_of_neg (by simp), List.takeWhile_cons_of_neg (by simp), List.append_nil]

theorem splitColon_none (line : Bytes) (h : byte ':' ∉ line) : splitColon line = none := by
  have hpass : ∀ c ∈ line, decide (c ≠ byte ':') = true :=
    fun c hc => decide_eq_true fun heq => h (heq ▸ hc)
  rw [splitColon, List.dropWhile_eq_nil_iff.2 hpass]

theorem splitColon_cases (line : Bytes) : (byte ':' ∉ line ∧ splitColon line = none) ∨
    ∃ name rest, byte ':' ∉ name ∧ line = name ++ byte ':' :: rest ∧ splitColon line = some (name, rest) := by
  by_cases hcolon : byte ':' ∈ line
  · obtain ⟨name, rest, rfl, hname⟩ := List.eq_append_cons_of_mem hcolon
    exact Or.inr ⟨name, rest, hname, rfl, splitColon_append name rest hname⟩
  · exact Or.inl ⟨hcolon, splitColon_none line hcolon⟩

/-- The call never fails: the search ends at the NUL, if not before. -/
theorem headerWriteFun_line (r : HTTPResponse) (line : Bytes) :
    (headerWriteFun r (line ++ crlf) [0]).forget = .ok ((storedHeader line).elim r (emplaceHeader r)) := by
  have hcrlf : ∀ c ∈ crlf, passes (byte ':') c = true := by decide +kernel
  have hearly (before rest : Bytes) (hbefore : ∀ c ∈ before, passes (byte ':') c = true) :
      (headerWriteFun r (before ++ 0 :: rest ++ crlf) [0]).forget = .ok r := by
    rw [List.append_assoc, List.cons_append]
    exact (headerWriteFun_nul r before (rest ++ crlf) [0] hbefore).2
  obtain ⟨hcolon, hsplit⟩ | ⟨name, rest, hname, rfl, hsplit⟩ := splitColon_cases line
  · rw [storedHeader, hsplit, Option.bind_none, Option.elim_none]
    obtain hall | ⟨before, d, after, rfl, hbefore, hd⟩ := first_stop (byte ':') line
    · refine headerWriteFun_terminated r (line ++ crlf) [] fun c hc => ?_
      exact (List.mem_append.1 hc).elim (hall c) (hcrlf c)
    · obtain rfl | rfl := (stop_iff _ _).1 hd
      · exact absurd (List.mem_append_right before (List.mem_cons_self ..)) hcolon
      · exact hearly before after hbefore
  · rw [storedHeader, hsplit, Option.bind_some]
    by_cases hnul : (0 : Byte) ∈ name
    · rw [if_pos hnul, Option.elim_none]
      obtain hall | ⟨before, d, after, rfl, hbefore, hd⟩ := first_stop (byte ':') name
      · cases hall 0 hnul
      · obtain rfl | rfl := (stop_iff _ _).1 hd
        · exact absurd (List.mem_append_right before (List.mem_cons_self ..)) hname
        · have hline : before ++ 0 :: after ++ byte ':' :: rest =
              before ++ 0 :: (after ++ byte ':' :: rest) := by
            rw [List.append_assoc, List.cons_append]
          rw [hline]
          exact hearly before _ hbefore
    · rw [if_neg hnul, Option.elim_some, List.append_assoc, List.cons_append]
      refine headerWriteFun_stores r name (rest ++ crlf) 0 [] fun c hc => ?_
      by_contra hstop
      obtain rfl | rfl := (stop_iff _ _).1 (Bool.not_eq_true _ ▸ hstop)
      · exact hname hc
      · exact hnul hc

theorem writeHeader_eq (r : HTTPResponse) (line : Bytes) :
    writeHeader r line = (storedHeader line).elim r (emplaceHeader r) := by
  rw [writeHeader, headerWriteFun_line]

theorem emplaced_eq (headers : List (Bytes × Bytes)) (r : HTTPResponse) :
    headers.foldl emplaceHeader r = { r with headers := (headers.foldl emplaceHeader r).headers } := by
  induction headers generalizing r with
  | nil => rfl
  | cons header headers ih =>
    rw [List.foldl_cons, ih, emplaceHeader]
    split <;> rfl

theorem writeHeader_lines (lines : List Bytes) (r : HTTPResponse) :
    lines.foldl writeHeader r = (lines.filterMap storedHeader).foldl emplaceHeader r := by
  rw [List.foldl_filterMap]
  refine congrArg (fun write => lines.foldl write r) (funext fun r => funext fun line => ?_)
  rw [writeHeader_eq]
  cases storedHeader line <;> rfl

theorem writeBody_chunks (chunks : List Bytes) (r : HTTPResponse) :
    chunks.foldl writeBody r = { r with body := r.body ++ chunks.flatten } := by
  induction chunks generalizing r with
  | nil => simp
  | cons chunk chunks ih =>
    rw [List.foldl_cons, ih, writeBody]
    simp

/-- A transfer adds to the headers and to the body, and to nothing else. -/
theorem perform_eq (r : HTTPResponse) (reply : Reply) : perform r reply =
    { r with
      headers := (reply.stored.foldl emplaceHeader r).headers
      body := r.body ++ reply.chunks.flatten } := by
  rw [perform, writeBody_chunks, writeHeader_lines, ← Reply.stored, emplaced_eq]

theorem findHeader_append (name : Bytes) (before after : List (Bytes × Bytes)) :
    findHeader name (before ++ after) = (findHeader name before).or (findHeader name after) := by
  rw [findHeader, List.find?_append, Option.map_or]
  rfl

theorem findHeader_emplaceHeader (name : Bytes) (r : HTTPResponse) (header : Bytes × Bytes) :
    findHeader name (emplaceHeader r header).headers =
      (findHeader name r.headers).or (findHeader name [header]) := by
  unfold emplaceHeader
  split
  next hthere =>
    by_cases hname : header.1 = name
    · obtain ⟨value, hvalue⟩ := Option.isSome_iff_exists.1 hthere
      rw [← hname, hvalue]
      rfl
    · have hnone : findHeader name [header] = none := by simp [findHeader, hname]
      rw [hnone, Option.or_none]
  next => exact findHeader_append name r.headers [header]

theorem findHeader_emplaced (name : Bytes) (headers : List (Bytes × Bytes)) (r : HTTPResponse) :
    findHeader name (headers.foldl emplaceHeader r).headers =
      (findHeader name r.headers).or (findHeader name headers) := by
  induction headers generalizing r with
  | nil => exact (Option.or_none ..).symm
  | cons header headers ih =>
    rw [List.foldl_cons, ih, findHeader_emplaceHeader, Option.or_assoc, ← findHeader_append]
    rfl

/-! ### Retrying -/

/-- The number that the decimal digits at the front stand for. -/
def decimalPrefix (s : Bytes) : ℕ :=
  (s.takeWhile fun c => 48 ≤ c.val && c.val ≤ 57).foldl (fun n c => 10 * n + (c.val - 48)) 0

/-- `std::atol` -/
def atol (s : Bytes) : ℤ :=
  match (cString s).dropWhile isSpace with
  | [] => 0
  | c :: t =>
    if c = byte '-' then -(decimalPrefix t : ℤ)
    else if c = byte '+' then decimalPrefix t
    else decimalPrefix (c :: t)

/-- The header says after how many seconds to try again (CURLINFO_RETRY_AFTER is no macro). -/
def retryAfter (r : HTTPResponse) : Result ℤ := do
  let ra ← r.getHeaderString (text "Retry-After") false
  refuse (atol ra = 0) (.exception "could not convert retry-after header value")
  pure (atol ra)

/-- `must_retry`: whether, and the response as it leaves it. -/
def mustRetry (r : HTTPResponse) (status : ℕ) : Bool × HTTPResponse :=
  let r := { r with status := status }
  if status = 429 then
    match retryAfter r with
    | .error _ => (false, r)
    | .ok _ => (true, { status := 0, headers := [], body := [] })
  else (false, r)

example : (mustRetry (perform {} ⟨429, [text "retry-after: 7"], []⟩) 429).1 = true := by decide +kernel

/-- What one transfer leaves in an empty response. -/
def Reply.response (reply : Reply) : HTTPResponse := { perform {} reply with status := reply.status }

/-- The reply makes `must_retry` start another attempt. -/
def Reply.retried (reply : Reply) : Bool := (mustRetry (perform {} reply) reply.status).1

theorem mustRetry_cases (r : HTTPResponse) (status : ℕ) :
    mustRetry r status = (true, {}) ∨ mustRetry r status = (false, { r with status := status }) := by
  unfold mustRetry
  dsimp only
  split
  · split
    · exact Or.inr rfl
    · exact Or.inl rfl
  · exact Or.inr rfl

theorem mustRetry_perform (reply : Reply) : mustRetry (perform {} reply) reply.status =
    if reply.retried then (true, {}) else (false, reply.response) := by
  unfold Reply.retried
  obtain hretry | hdone := mustRetry_cases (perform {} reply) reply.status
  · rw [hretry]
    rfl
  · rw [hdone]
    rfl

/-- `std::unordered_map<HTTPRequestSetId, α>` -/
abbrev SetMap (α : Type) := AList fun _ : ℕ => α

section SetMap
variable {α : Type}

/-- `m.emplace(id, a)`, which does nothing for an id that is there -/
def SetMap.emplace (m : SetMap α) (id : ℕ) (a : α) : SetMap α := if id ∈ m then m else m.insert id a

def SetMap.size (m : SetMap α) : ℕ := m.keys.length

def SetMap.update (m : SetMap α) (id : ℕ) (f : α → α) : SetMap α :=
  match m.lookup id with
  | none => m
  | some a => m.insert id (f a)

theorem SetMap.update_eq {m : SetMap α} {id : ℕ} {a : α} (h : m.lookup id = some a) (f : α → α) :
    m.update id f = m.insert id (f a) := by
  rw [SetMap.update, h]

theorem SetMap.mem_of_lookup {m : SetMap α} {id : ℕ} {a : α} (h : m.lookup id = some a) : id ∈ m :=
  AList.lookup_isSome.1 (by rw [h]; rfl)

theorem SetMap.of_insert {m : SetMap α} {id id' : ℕ} {a b : α}
    (h : AList.lookup id' (AList.insert id a m) = some b) :
    id' = id ∧ b = a ∨ id' ≠ id ∧ m.lookup id' = some b := by
  by_cases heq : id' = id
  · subst heq
    rw [AList.lookup_insert] at h
    exact Or.inl ⟨rfl, (Option.some.inj h).symm⟩
  · exact Or.inr ⟨heq, (AList.lookup_insert_ne heq).symm.trans h⟩

theorem SetMap.mem_of_replaced {m : SetMap α} {id id' : ℕ} {a : α} (hid : id ∈ m)
    (h : id' ∈ m.insert id a) : id' ∈ m := by
  obtain rfl | hid' := (AList.mem_insert _).1 h
  · exact hid
  · exact hid'

theorem SetMap.insert_mono {β : Type} {m : SetMap α} {m' : SetMap β} (h : ∀ id ∈ m, id ∈ m') (id : ℕ)
    (a : α) (b : β) : ∀ id' ∈ m.insert id a, id' ∈ m'.insert id b :=
  fun id' hid' => (AList.mem_insert _).2 (((AList.mem_insert _).1 hid').imp_right (h id'))

theorem SetMap.of_erase {m : SetMap α} {id id' : ℕ} {a : α}
    (h : AList.lookup id' (AList.erase id m) = some a) : id' ≠ id ∧ m.lookup id' = some a := by
  have hne : id' ≠ id := (AList.mem_erase.1 (SetMap.mem_of_lookup h)).1
  exact ⟨hne, (AList.lookup_erase_ne hne).symm.trans h⟩

end SetMap

/-- A response object and the URL its content comes from. -/
structure Entry where
  response : HTTPResponse := {}
  url : Option Bytes := none
  deriving DecidableEq

/-- A callback in progress, for this submission and the set with this id. -/
structure Callback where
  number : ℕ
  id : ℕ
  deriving DecidableEq

/-- `rsit->second.resize(n)` -/
def resizeEntries (entries : List Entry) (n : ℕ) : List Entry :=
  entries.take n ++ List.replicate (n - entries.length) ({} : Entry)

theorem resizeEntries_self (entries : List Entry) : resizeEntries entries entries.length = entries := by
  rw [resizeEntries, List.take_length, Nat.sub_self, List.replicate_zero, List.append_nil]

/-- What happened at a client, by the number of the submission. -/
inductive Event
  | submitted (number id : ℕ) (held : List ℕ)
  | clashed (number id : ℕ)
  | calledBack (number : ℕ) (entries : List Entry)
  deriving DecidableEq

/-- A callback gets one response for each request, in order, each from the request's URL. -/
def Answers (requests : HTTPRequests) (entries : List Entry) : Prop :=
  entries.map Entry.url = requests.map fun request => some request.url

/-- The replies that each request got, by submission and index, in order. -/
abbrev Replies (ρ : Type) := ℕ → ℕ → List ρ

def Replies.note {ρ : Type} (given : Replies ρ) (number i : ℕ) (reply : ρ) : Replies ρ :=
  fun n j => if n = number ∧ j = i then given n j ++ [reply] else given n j

section Replies
variable {ρ : Type} {given : Replies ρ} {number i : ℕ} {reply : ρ}

@[simp]
theorem Replies.note_self : given.note number i reply number i = given number i ++ [reply] :=
  if_pos ⟨rfl, rfl⟩

theorem Replies.note_number {n j : ℕ} (h : n ≠ number) : given.note number i reply n j = given n j :=
  if_neg fun heq => h heq.1

theorem Replies.note_index {n j : ℕ} (h : j ≠ i) : given.note number i reply n j = given n j :=
  if_neg fun heq => h heq.2

theorem Replies.mem_note {n j : ℕ} {other : ρ} (h : other ∈ given.note number i reply n j) :
    other ∈ given n j ∨ other = reply := by
  by_cases heq : n = number ∧ j = i
  · rw [Replies.note, if_pos heq] at h
    exact (List.mem_append.1 h).imp_right List.mem_singleton.1
  · rw [Replies.note, if_neg heq] at h
    exact Or.inl h

end Replies

/-- The vectors of responses that the callback of a submission got. -/
def callbacks (number : ℕ) (history : List Event) : List (List Entry) :=
  history.filterMap fun
    | .calledBack n entries => if n = number then some entries else none
    | _ => none

theorem callbacks_calledBack (number n : ℕ) (entries : List Entry) (history : List Event) :
    callbacks number (.calledBack n entries :: history) =
      if n = number then entries :: callbacks number history else callbacks number history := by
  unfold callbacks
  split
  next heq => simp [heq]
  next hne => simp [hne]

theorem mem_callbacks {number : ℕ} {entries : List Entry} {history : List Event} :
    entries ∈ callbacks number history ↔ .calledBack number entries ∈ history := by
  unfold callbacks
  rw [List.mem_filterMap]
  constructor
  · intro ⟨e, he, hsome⟩
    split at hsome
    next n entries' =>
      split at hsome
      next heq =>
        obtain rfl := Option.some.inj hsome
        exact heq ▸ he
      next => cases hsome
    next => cases hsome
  · intro hmem
    exact ⟨_, hmem, if_pos rfl⟩

/-- What is expected of a client, given what was submitted to it and what happened. -/
structure KeepsSets (submissions : List HTTPRequests) (history : List Event) : Prop where
  ids : ∀ number id held, .submitted number id held ∈ history → id ∉ held
  noClash : ∀ number id, .clashed number id ∉ history
  answers : ∀ number entries, .calledBack number entries ∈ history →
    ∃ requests, submissions[number]? = some requests ∧ Answers requests entries

theorem KeepsSets.nothing (submissions : List HTTPRequests) : KeepsSets submissions [] :=
  ⟨nofun, nofun, nofun⟩

theorem KeepsSets.submit {submissions : List HTTPRequests} {history : List Event}
    (h : KeepsSets submissions history) (rs : HTTPRequests) :
    KeepsSets (submissions ++ [rs]) history where
  ids := h.ids
  noClash := h.noClash
  answers number entries hmem := by
    obtain ⟨requests, hrequests, hanswers⟩ := h.answers number entries hmem
    refine ⟨requests, ?_, hanswers⟩
    rw [List.getElem?_append_left (List.getElem?_eq_some_iff.1 hrequests).1, hrequests]

theorem KeepsSets.submitted {submissions : List HTTPRequests} {history : List Event}
    (h : KeepsSets submissions history) (number id : ℕ) (held : List ℕ) (hid : id ∉ held) :
    KeepsSets submissions (.submitted number id held :: history) where
  ids number' id' held' hmem := by
    obtain heq | hmem := List.mem_cons.1 hmem
    · cases heq
      exact hid
    · exact h.ids _ _ _ hmem
  noClash number' id' hmem := by
    obtain heq | hmem := List.mem_cons.1 hmem
    · cases heq
    · exact h.noClash _ _ hmem
  answers number' entries hmem := by
    obtain heq | hmem := List.mem_cons.1 hmem
    · cases heq
    · exact h.answers _ _ hmem

theorem KeepsSets.calledBack {submissions : List HTTPRequests} {history : List Event}
    (h : KeepsSets submissions history) (number : ℕ) (rs : HTTPRequests) (entries : List Entry)
    (hrs : submissions[number]? = some rs) (hanswers : Answers rs entries) :
    KeepsSets submissions (.calledBack number entries :: history) where
  ids number' id held hmem := by
    obtain heq | hmem := List.mem_cons.1 hmem
    · cases heq
    · exact h.ids _ _ _ hmem
  noClash number' id hmem := by
    obtain heq | hmem := List.mem_cons.1 hmem
    · cases heq
    · exact h.noClash _ _ hmem
  answers number' entries' hmem := by
    obtain heq | hmem := List.mem_cons.1 hmem
    · cases heq
      exact ⟨rs, hrs, hanswers⟩
    · exact h.answers _ _ hmem

end Ravl.Http
