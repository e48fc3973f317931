import Ravl.Lib.Traced
import Ravl.Oe.CustomClaims

/-!
# Which bytes of custom claims are read (oe_impl.h:415-461)

The number of rounds and the sizes come from the buffer. An entry has to lie inside it, so
the stride bounds the rounds; a size that wraps around the address space is more than a
string or a vector can hold.
-/

namespace Ravl.Oe
open ByteLib FallibleLib TracedLib Traced

/-! ### The events of the loop -/

inductive ClaimEvent
  | round
  | read (a : Access)
  | put (name value : Bytes)

/-- `std::vector<uint8_t>` holds no more bytes than its `max_size()`. -/
structure ByteVector where
  bytes : Bytes
  maxSize : bytes.length < 2 ^ 63

def tracedEntry (m : ℕ → Byte) (len ei : ℕ) : Traced ClaimEvent Error (Bytes × Bytes) := do
  quiet (verifyWithin ei entrySize len)
  let nameSize ← event (.read ⟨ei, 8, len⟩) (readLe m ei 8)
  let valueSize ← event (.read ⟨ei + 8, 8, len⟩) (readLe m (ei + 8) 8)
  let name := ei + entrySize
  quiet (verifyWithin name nameSize len)
  quiet (verifyWithin (name + nameSize) valueSize len)
  quiet (refuse (nameSize = 0) (.exception "custom claim name is an unterminated string"))
  let last ← event (.read ⟨(name + nameSize - 1) % 2 ^ 64, 1, len⟩) (m ((name + nameSize - 1) % 2 ^ 64))
  quiet (refuse (last ≠ 0) (.exception "custom claim name is an unterminated string"))
  quiet (refuse (2 ^ 63 ≤ nameSize - 1) (.exception "basic_string::_M_create"))
  let nameBytes ← event (.read ⟨name, nameSize - 1, len⟩) (readMem m name (nameSize - 1))
  quiet (refuse (2 ^ 63 ≤ valueSize) (.exception "cannot create std::vector larger than max_size()"))
  let valueBytes ← event (.read ⟨(name + nameSize) % 2 ^ 64, valueSize, len⟩)
    (readMem m ((name + nameSize) % 2 ^ 64) valueSize)
  pure (nameBytes, valueBytes)

def tracedEntries (m : ℕ → Byte) (len : ℕ) : ℕ → ℕ → ClaimsMap → Traced ClaimEvent Error ClaimsMap
  | 0, _, map => pure map
  | n + 1, i, map => do
    event .round ()
    let (name, value) ← tracedEntry m len (headerSize + i * entrySize)
    event (.put name value) ()
    tracedEntries m len n (i + 1) (map.emplace name value)

def tracedCustomClaims (host : Host) (customClaims : Bytes) (map : ClaimsMap) :
    Traced ClaimEvent Error ClaimsMap :=
  if customClaims.length < headerSize then pure map
  else do
    let m := mem customClaims host.beyond
    let version ← event (.read ⟨0, 8, customClaims.length⟩) (readLe m 0 8)
    quiet (refuse (version ≠ 1) (.exception "unsupported custom claims version"))
    let numClaims ← event (.read ⟨8, 8, customClaims.length⟩) (readLe m 8 8)
    tracedEntries m customClaims.length numClaims 0 map

theorem tracedEntry_forget (m : ℕ → Byte) (len ei : ℕ) :
    (tracedEntry m len ei).forget = readEntry m len ei := by
  simp only [tracedEntry, readEntry, forget_bind, forget_quiet, forget_event, forget_pure, pure_bind]

theorem tracedEntries_forget (m : ℕ → Byte) (len n i : ℕ) (map : ClaimsMap) :
    (tracedEntries m len n i map).forget = readEntries m len n i map := by
  induction n generalizing i map with
  | zero => rfl
  | succ n ih =>
    simp only [tracedEntries, readEntries, forget_bind, forget_event, pure_bind, tracedEntry_forget, ih]

theorem tracedCustomClaims_forget (host : Host) (customClaims : Bytes) (map : ClaimsMap) :
    (tracedCustomClaims host customClaims map).forget = extractCustomClaims host customClaims map := by
  unfold tracedCustomClaims extractCustomClaims
  split
  · rfl
  · simp only [forget_bind, forget_event, forget_quiet, pure_bind, tracedEntries_forget]

/-! ### What is expected -/

/-- Reads lie inside the buffer, and what is put into the map is a part of it. -/
def ClaimEvent.Within (buffer : Bytes) : ClaimEvent → Prop
  | .round => True
  | .read a => a.Inside ∧ a.size = buffer.length
  | .put name value => name <:+: buffer ∧ value <:+: buffer

def ClaimEvent.isRound : ClaimEvent → Bool
  | .round => true
  | _ => false

/-- What was put into the map, in order. -/
def putsOf (trace : List ClaimEvent) : List (Bytes × Bytes) :=
  trace.filterMap fun
    | .put name value => some (name, value)
    | _ => none

/-- The loop ends soon, and whatever it has put into the map by then, also before it throws,
is a part of the buffer. -/
structure ExtractsWithin (host : Host) (buffer : Bytes) (map : ClaimsMap) : Prop where
  rounds : (tracedCustomClaims host buffer map).trace.countP ClaimEvent.isRound ≤ buffer.length / 16 + 1
  within : (tracedCustomClaims host buffer map).All (ClaimEvent.Within buffer)
  result : ∀ map', extractCustomClaims host buffer map = .ok map' →
    map' = map.emplaceAll (putsOf (tracedCustomClaims host buffer map).trace)
  fails : FailsWith Thrown (extractCustomClaims host buffer map)

/-! ### One round -/

section
variable (buffer : Bytes) (beyond : ℕ → Byte)

/-- The name and the value of an entry are parts of the buffer. -/
theorem EntryAt.parts {off : ℕ} {name value : Bytes} (h : EntryAt buffer off name value) :
    name <:+: buffer ∧ value <:+: buffer := by
  have hname : sub buffer (off + 16) (name.length + 1) = name ++ [0] := by
    rw [← sub_sub buffer off (17 + name.length + value.length) _ _ (by omega), h.bytes, entryBytes_name]
  have hvalue : sub buffer (off + (17 + name.length)) value.length = value := by
    rw [← sub_sub buffer off (17 + name.length + value.length) _ _ (by omega), h.bytes, entryBytes_value]
  constructor
  · have hprefix : name <:+: name ++ [0] := (List.prefix_append name [0]).isInfix
    rw [← hname] at hprefix
    exact hprefix.trans (sub_contained _ _ _)
  · rw [← hvalue]
    exact sub_contained _ _ _

theorem tracedEntry_within (hlen : buffer.length < 2 ^ 63) (off : ℕ) (hoff : off ≤ 2 ^ 63) :
    (tracedEntry (mem buffer beyond) buffer.length off).All (ClaimEvent.Within buffer) := by
  have hsize : entrySize = 16 := rfl
  simp only [tracedEntry, all_bind, all_quiet, all_event, all_pure, forget_quiet, forget_event, refuse_ok,
    pure_ok, forall_eq', true_and, and_true, implies_true, ClaimEvent.Within]
  generalize readLe (mem buffer beyond) off 8 = nameSize
  generalize readLe (mem buffer beyond) (off + 8) 8 = valueSize
  intro _ hfixed
  have hfix := verifyWithin_ok _ _ _ (by omega) (by omega) hfixed
  refine ⟨Access.inside_of_le (by omega), Access.inside_of_le (by omega),
    fun _ hname _ hvalue _ hpos => ⟨?_, fun _ _ _ hnameMax => ⟨?_, fun _ hvalueMax => ?_⟩⟩⟩
  · -- the last byte of the name is one of the two that were looked at
    simp only [verifyWithin, bind_ok, refuse_ok] at hname
    obtain ⟨-, -, hlast⟩ := hname
    have hsame : off + entrySize + nameSize - 1 + 2 ^ 64 = off + entrySize + nameSize + (2 ^ 64 - 1) := by
      omega
    rw [← hsame, Nat.add_mod_right, not_le] at hlast
    exact Access.inside_of_le (by omega)
  · have hfits := verifyWithin_ok _ _ _ (by omega) (by omega) hname
    exact Access.inside_of_le (by omega)
  · have hfits := verifyWithin_ok _ _ _ (by omega) (by omega) hname
    by_cases hempty : valueSize = 0
    · exact (Access.inside_iff _).2 (Or.inl hempty)
    · have hvalueFits := verifyWithin_ok _ _ _ (by omega) (by omega) hvalue
      exact Access.inside_of_le (by omega)

theorem readEntry_fails (m : ℕ → Byte) (len ei : ℕ) : FailsWith Thrown (readEntry m len ei) :=
  FailsWith.bind (verifyWithin_fails _ _ _) fun _ _ =>
    FailsWith.bind (verifyWithin_fails _ _ _) fun _ _ =>
      FailsWith.bind (verifyWithin_fails _ _ _) fun _ _ =>
        FailsWith.bind (FailsWith.refuse (thrown _)) fun _ _ =>
          FailsWith.bind (FailsWith.refuse (thrown _)) fun _ _ =>
            FailsWith.bind (FailsWith.refuse (thrown _)) fun _ _ =>
              FailsWith.bind (FailsWith.refuse (thrown _)) fun _ _ => FailsWith.pure _ _

/-- A round leaves reads only. -/
theorem tracedEntry_reads (m : ℕ → Byte) (len ei : ℕ) :
    (tracedEntry m len ei).All fun t => ∃ a, t = .read a := by
  simp only [tracedEntry, all_bind, all_quiet, all_event, all_pure, and_true, implies_true,
    ClaimEvent.read.injEq, exists_eq']

end

/-! ### The loop -/

theorem countP_reads (trace : List ClaimEvent) (h : ∀ t ∈ trace, ∃ a, t = .read a) :
    trace.countP ClaimEvent.isRound = 0 := by
  refine List.countP_eq_zero.2 fun t ht => ?_
  obtain ⟨a, rfl⟩ := h t ht
  exact Bool.false_ne_true

theorem putsOf_reads (trace : List ClaimEvent) (h : ∀ t ∈ trace, ∃ a, t = .read a) :
    putsOf trace = [] := by
  refine List.filterMap_eq_nil_iff.2 fun t ht => ?_
  obtain ⟨a, rfl⟩ := h t ht
  rfl

theorem putsOf_read (a : Access) (trace : List ClaimEvent) : putsOf (.read a :: trace) = putsOf trace :=
  rfl

theorem putsOf_append (s t : List ClaimEvent) : putsOf (s ++ t) = putsOf s ++ putsOf t :=
  List.filterMap_append

section
variable (buffer : Bytes) (beyond : ℕ → Byte)

/-- What one more round leaves: the round, its reads, and where it completes the entry that it
put and all that follows. -/
theorem tracedEntries_succ (n i : ℕ) (map : ClaimsMap) :
    (tracedEntries (mem buffer beyond) buffer.length (n + 1) i map).trace =
      .round :: (tracedEntry (mem buffer beyond) buffer.length (headerSize + i * entrySize)).trace ++
        match readEntry (mem buffer beyond) buffer.length (headerSize + i * entrySize) with
        | .error _ => []
        | .ok (name, value) => .put name value ::
            (tracedEntries (mem buffer beyond) buffer.length n (i + 1) (map.emplace name value)).trace := by
  rw [tracedEntries, trace_bind _ _ () rfl]
  have hforget := tracedEntry_forget (mem buffer beyond) buffer.length (headerSize + i * entrySize)
  cases hentry : readEntry (mem buffer beyond) buffer.length (headerSize + i * entrySize) with
  | error e =>
    rw [hentry] at hforget
    rw [trace_bind_error _ _ e hforget]
    simp [event]
  | ok entry =>
    rw [hentry] at hforget
    rw [trace_bind _ _ entry hforget, trace_bind _ _ () rfl]
    simp [event]

theorem tracedEntries_within (hlen : buffer.length < 2 ^ 63) (n i : ℕ) (map : ClaimsMap)
    (hi : headerSize + i * entrySize ≤ buffer.length) :
    (tracedEntries (mem buffer beyond) buffer.length n i map).All (ClaimEvent.Within buffer) := by
  induction n generalizing i map with
  | zero => exact all_pure _ _
  | succ n ih =>
    simp only [tracedEntries, all_bind, all_event, tracedEntry_forget, ClaimEvent.Within, true_and]
    intro _ _
    refine ⟨tracedEntry_within buffer beyond hlen _ (by omega), fun entry hentry => ?_⟩
    obtain ⟨name, value⟩ := entry
    have hat := entryAt_of_readEntry buffer beyond _ name value hlen (by omega) hentry
    have hinside := hat.inside
    have hstride : (i + 1) * entrySize = i * entrySize + 16 := Nat.succ_mul i 16
    exact ⟨hat.parts, fun _ _ => ih (i + 1) _ (by omega)⟩

/-- Each completed round moves on by the fixed part of an entry, which has to lie inside. -/
theorem tracedEntries_rounds (hlen : buffer.length < 2 ^ 63) (n i : ℕ) (map : ClaimsMap)
    (hi : headerSize + i * entrySize ≤ buffer.length) :
    16 * (tracedEntries (mem buffer beyond) buffer.length n i map).trace.countP ClaimEvent.isRound +
      (headerSize + i * entrySize) ≤ buffer.length + 16 := by
  induction n generalizing i map with
  | zero =>
    have hnone : (tracedEntries (mem buffer beyond) buffer.length 0 i map).trace = [] := rfl
    rw [hnone, List.countP_nil]
    omega
  | succ n ih =>
    have hreads := countP_reads _ (tracedEntry_reads (mem buffer beyond) buffer.length
      (headerSize + i * entrySize))
    rw [tracedEntries_succ, List.countP_append, List.countP_cons_of_pos rfl, hreads]
    cases hentry : readEntry (mem buffer beyond) buffer.length (headerSize + i * entrySize) with
    | error e =>
      simp only [List.countP_nil]
      omega
    | ok entry =>
      obtain ⟨name, value⟩ := entry
      have hinside := (entryAt_of_readEntry buffer beyond _ name value hlen (by omega) hentry).inside
      have hstride : (i + 1) * entrySize = i * entrySize + 16 := Nat.succ_mul i 16
      have hrest := ih (i + 1) (map.emplace name value) (by omega)
      have hput : ¬ (ClaimEvent.put name value).isRound = true := Bool.false_ne_true
      simp only [List.countP_cons_of_neg hput]
      omega

/-- A map that is returned holds what was put into it. -/
theorem tracedEntries_result (n i : ℕ) (map map' : ClaimsMap)
    (h : readEntries (mem buffer beyond) buffer.length n i map = .ok map') :
    map' = map.emplaceAll (putsOf (tracedEntries (mem buffer beyond) buffer.length n i map).trace) := by
  induction n generalizing i map with
  | zero => exact ((pure_ok _ _).1 h).symm
  | succ n ih =>
    simp only [readEntries, bind_ok] at h
    obtain ⟨⟨name, value⟩, hentry, hrest⟩ := h
    have hreads := putsOf_reads _ (tracedEntry_reads (mem buffer beyond) buffer.length
      (headerSize + i * entrySize))
    rw [tracedEntries_succ, hentry, ih (i + 1) _ hrest, putsOf_append]
    have hround : putsOf (.round :: (tracedEntry (mem buffer beyond) buffer.length
        (headerSize + i * entrySize)).trace) = [] := hreads
    rw [hround]
    rfl

theorem readEntries_fails (m : ℕ → Byte) (len n i : ℕ) (map : ClaimsMap) :
    FailsWith Thrown (readEntries m len n i map) := by
  induction n generalizing i map with
  | zero => exact FailsWith.pure _ _
  | succ n ih => exact FailsWith.bind (readEntry_fails m len _) fun _ _ => ih _ _

theorem extractCustomClaims_fails (host : Host) (map : ClaimsMap) :
    FailsWith Thrown (extractCustomClaims host buffer map) := by
  unfold extractCustomClaims
  split
  · exact FailsWith.pure _ _
  · refine FailsWith.bind (FailsWith.refuse (thrown _)) fun _ _ => ?_
    exact readEntries_fails _ _ _ _ _

end

/-- Two reads of the header come before the loop. -/
theorem tracedCustomClaims_trace (host : Host) (buffer : Bytes) (map : ClaimsMap)
    (hlong : headerSize ≤ buffer.length) :
    (tracedCustomClaims host buffer map).trace = .read ⟨0, 8, buffer.length⟩ ::
      if readLe (mem buffer host.beyond) 0 8 ≠ 1 then []
      else .read ⟨8, 8, buffer.length⟩ :: (tracedEntries (mem buffer host.beyond) buffer.length
        (readLe (mem buffer host.beyond) 8 8) 0 map).trace := by
  rw [tracedCustomClaims, if_neg (not_lt.2 hlong)]
  simp only [trace_event_bind, trace_refuse_bind]

/-- The loop is harmless whatever the buffer says. -/
theorem extractCustomClaims_within (host : Host) (buffer : ByteVector) (map : ClaimsMap) :
    ExtractsWithin host buffer.bytes map := by
  have hlen := buffer.maxSize
  have hheader : headerSize = 16 := rfl
  by_cases hshort : buffer.bytes.length < headerSize
  · have htraced : tracedCustomClaims host buffer.bytes map = pure map := if_pos hshort
    have hextract : extractCustomClaims host buffer.bytes map = pure map := if_pos hshort
    refine ⟨?_, ?_, fun map' h => ?_, ?_⟩
    · rw [htraced]
      exact Nat.zero_le _
    · rw [htraced]
      exact all_pure _ _
    · rw [hextract] at h
      rw [htraced]
      exact ((pure_ok _ _).1 h).symm
    · exact extractCustomClaims_fails buffer.bytes host map
  have htrace := tracedCustomClaims_trace host buffer.bytes map (not_lt.1 hshort)
  have hstart : headerSize + 0 * entrySize ≤ buffer.bytes.length := by omega
  have hread (off : ℕ) : ¬ (ClaimEvent.read ⟨off, 8, buffer.bytes.length⟩).isRound = true :=
    Bool.false_ne_true
  refine ⟨?_, ?_, fun map' h => ?_, ?_⟩
  · rw [htrace, List.countP_cons_of_neg (hread 0)]
    split
    · exact Nat.zero_le _
    · have hrounds := tracedEntries_rounds buffer.bytes host.beyond hlen
        (readLe (mem buffer.bytes host.beyond) 8 8) 0 map hstart
      rw [List.countP_cons_of_neg (hread 8)]
      omega
  · rw [tracedCustomClaims, if_neg hshort]
    simp only [all_bind, all_event, all_quiet, ClaimEvent.Within, true_and, and_true]
    exact ⟨Access.inside_of_le (by omega), fun _ _ _ _ =>
      ⟨Access.inside_of_le (by omega), fun n _ =>
        tracedEntries_within buffer.bytes host.beyond hlen n 0 map hstart⟩⟩
  · rw [extractCustomClaims, if_neg hshort] at h
    simp only [bind_ok, refuse_ok] at h
    obtain ⟨_, hversion, h⟩ := h
    rw [htrace, if_neg hversion, putsOf_read, putsOf_read]
    exact tracedEntries_result buffer.bytes host.beyond _ 0 map map' h
  · exact extractCustomClaims_fails buffer.bytes host map

/-- As many claims as can be announced; the value of the first wraps around the address space and
ends inside the buffer. -/
def wrappingClaims : ByteVector where
  bytes := leBytes 8 1 ++ leBytes 8 (2 ^ 64 - 1) ++ leBytes 8 2 ++ leBytes 8 (2 ^ 64 - 1) ++
    text "a" ++ [0, 7]
  maxSize := by decide

theorem wrappingClaims_within :
    extractCustomClaims plainHost wrappingClaims.bytes [] =
        .error (.exception "cannot create std::vector larger than max_size()") ∧
      ExtractsWithin plainHost wrappingClaims.bytes [] :=
  ⟨by decide +kernel, extractCustomClaims_within plainHost wrappingClaims []⟩

end Ravl.Oe
