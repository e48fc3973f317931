import Ravl.Lib.Traced
import Ravl.Oe.Endorsements

/-!
# Which bytes of OE endorsements are read (oe_impl.h:160-378)

The items are delimited by offsets that are compared with a data size which is
itself computed from two fields of the endorsements, never with the buffer.
-/

namespace Ravl.Oe
open ByteLib FallibleLib TracedLib Traced
open Ravl.Sgx (QlQveCollateral Span)

/-! ### The accesses -/

/-- `data_size`, a `size_t` that may wrap around -/
def dataSizeOf (bufferSize numElements : ℕ) : ℕ := (bufferSize + 2 ^ 64 - 4 * numElements) % 2 ^ 64

/-- `item_size` of an item that is the last one, or not. -/
def itemSizeOf (last : Bool) (dataSize offset next : ℕ) : ℕ :=
  if last then dataSize - offset else (next + 2 ^ 32 - offset) % 2 ^ 32

/-- The loop over the items. The first item is looked at when it has the size of a version;
of the others only the addresses and sizes are kept. -/
def tracedItems (m : ℕ → Byte) (size data dataSize : ℕ) :
    ℕ → ℕ → QlQveCollateral → Traced Access Error QlQveCollateral
  | 0, _, col => pure col
  | n + 1, i, col => do
    let offset ← readField m size (endorsementsSize + 4 * i) 4
    quiet (refuse (dataSize ≤ offset) (.exception "invalid endorsement item offset"))
    eventIf (n ≠ 0) ⟨endorsementsSize + 4 * (i + 1), 4, size⟩
    let itemSize := itemSizeOf (n = 0) dataSize offset (itemOffset m (i + 1))
    eventIf (i = 0 ∧ itemSize = 4) ⟨data + offset, 4, size⟩
    let col ← quiet (setItem m i (data + offset) itemSize col)
    tracedItems m size data dataSize n (i + 1) col

/-- What is copied into the SGX collateral: the items 1 to 7, with sizes in a `uint32_t`. -/
def copiedItems (m : ℕ → Byte) (data dataSize numElements : ℕ) : List Span :=
  ((List.range numElements).filter fun i => 1 ≤ i ∧ i ≤ 7).map fun i =>
    ⟨data + itemOffset m i,
      itemSizeOf (i + 1 = numElements) dataSize (itemOffset m i) (itemOffset m (i + 1)) % 2 ^ 32⟩

/-- The copied parts of an endorsements buffer. -/
def copiedSpans (host : Host) (endorsements : Bytes) : List Span :=
  let m := mem endorsements host.beyond
  let numElements := readLe m 12 4
  copiedItems m (endorsementsSize + 4 * numElements) (dataSizeOf (readLe m 8 4) numElements) numElements

def tracedCollateral (host : Host) (endorsements : Bytes) : Traced Access Error Bytes :=
  if endorsements = [] then pure []
  else do
    let size := endorsements.length
    quiet (refuse (size < endorsementsSize ∨ size < sgxEndorsementsSize)
      (.exception "Unknown endorsements format: too small to contain OE/SGX endorsements"))
    let m := mem endorsements host.beyond
    let version ← readField m size 0 4
    quiet (refuse (version ≠ sgxEndorsementsVersion)
      (.exception "unsupported version of OE endorsements data structure"))
    let enclaveType ← readField m size 4 4
    quiet (refuse (enclaveType ≠ enclaveTypeSgx)
      (.exception "unsupported enclave type in OE endorsements"))
    let bufferSize ← readField m size 8 4
    let numElements ← readField m size 12 4
    let data := endorsementsSize + 4 * numElements
    let col ← tracedItems m size data (dataSizeOf bufferSize numElements) numElements 0 {}
    events ((copiedSpans host endorsements).map fun s => ⟨s.off, s.size, size⟩)
    pure (putCollateral col)

/-- `extract_sgx_attestation`; the evidence is copied, and what lies behind the quote again. -/
def tracedExtract (host : Host) (evidence endorsements : Bytes) :
    Traced Access Error (Ravl.Attestation × Bytes) := do
  quiet (refuse (evidence = []) (.exception "No evidence to verify"))
  let size := evidence.length
  quiet (refuse (size < Sgx.sgxQuoteSize)
    (.exception "Unknown evidence format: too small to contain SGX quote"))
  let signatureLen ← readField (mem evidence host.beyond) size Sgx.signatureLenOff 4
  let len := Sgx.sgxQuoteSize + signatureLen
  events [⟨0, size, size⟩]
  eventIf (len < size) ⟨len, size - len, size⟩
  let (squote, claims) := splitEvidence host evidence
  let scollateral ← tracedCollateral host endorsements
  pure ({ source := .sgx, evidence := squote, endorsements := scollateral }, claims)

theorem tracedItems_forget (m : ℕ → Byte) (size data dataSize n i : ℕ) (col : QlQveCollateral) :
    (tracedItems m size data dataSize n i col).forget = readItems m data dataSize n i col := by
  induction n generalizing i col with
  | zero => rfl
  | succ n ih =>
    have hsize (offset next : ℕ) : itemSizeOf (decide (n = 0)) dataSize offset next =
        if n ≠ 0 then (next + 2 ^ 32 - offset) % 2 ^ 32 else dataSize - offset := by
      unfold itemSizeOf
      by_cases hn : n = 0 <;> simp [hn]
    simp only [tracedItems, readItems, forget_bind, forget_readField, forget_eventIf, forget_quiet,
      pure_bind, ih, hsize]
    rfl

theorem tracedCollateral_forget (host : Host) (endorsements : Bytes) :
    (tracedCollateral host endorsements).forget = extractCollateral host endorsements := by
  unfold tracedCollateral extractCollateral
  split
  · rfl
  · simp only [forget_bind, forget_readField, forget_events, forget_quiet, forget_pure, pure_bind,
      tracedItems_forget, dataSizeOf]

theorem tracedExtract_forget (host : Host) (evidence endorsements : Bytes) :
    (tracedExtract host evidence endorsements).forget =
      extractSgxAttestation host evidence endorsements := by
  simp only [tracedExtract, extractSgxAttestation, forget_bind, forget_readField, forget_events,
    forget_eventIf, forget_quiet, forget_pure, pure_bind, tracedCollateral_forget]

/-! ### What is expected, and when it holds -/

/-- The function throws or completes, touches no byte outside of the two buffers, and each item
that it copies lies in the endorsements. -/
structure ReadsInside (host : Host) (evidence endorsements : Bytes) : Prop where
  inside : (tracedExtract host evidence endorsements).All Access.Inside
  fails : FailsWith Thrown (extractSgxAttestation host evidence endorsements)
  items : ∀ r, extractSgxAttestation host evidence endorsements = .ok r → endorsements ≠ [] →
    ∀ s ∈ copiedSpans host endorsements, s.off + s.size ≤ endorsements.length

section
variable (e : Bytes)

/-- The data size that the fields of the endorsements give. -/
def statedSize : ℕ := dataSizeOf (leVal (sub e 8 4)) (numElements e)

def statedItemSize (i : ℕ) : ℕ :=
  itemSizeOf (i + 1 = numElements e) (statedSize e) (offsetOf e i) (offsetOf e (i + 1))

/-- The offset of every item is accepted, the first item is a version, and there are not too
many. -/
structure ItemsAccepted : Prop where
  few : numElements e ≤ 9
  offsets : ∀ i, i < numElements e → offsetOf e i < statedSize e
  version : 0 < numElements e → statedItemSize e 0 = 4 ∧
    leVal (sub e (dataStart e + offsetOf e 0) 4) = 1

/-- The header is accepted, so that the items are looked at. -/
structure HeaderAccepted : Prop where
  long : sgxEndorsementsSize ≤ e.length
  version : leVal (sub e 0 4) = sgxEndorsementsVersion
  enclaveType : leVal (sub e 4 4) = enclaveTypeSgx

/-- A version item that is looked at ends in the endorsements, and so do the items that are
copied when all are accepted. -/
structure ItemsInside : Prop where
  version : HeaderAccepted e → 0 < numElements e → offsetOf e 0 < statedSize e →
    statedItemSize e 0 = 4 → dataStart e + offsetOf e 0 + 4 ≤ e.length
  items : HeaderAccepted e → ItemsAccepted e → ∀ i, 1 ≤ i → i ≤ 7 → i < numElements e →
    dataStart e + offsetOf e i + statedItemSize e i % 2 ^ 32 ≤ e.length

end

/-! ### The loop -/

section
variable (m : ℕ → Byte) (size data dataSize : ℕ)

theorem setItem_ok_iff (i off itemSize : ℕ) (col : QlQveCollateral) :
    (∃ col', setItem m i off itemSize col = .ok col') ↔
      i ≤ 8 ∧ (i = 0 → itemSize = 4 ∧ readLe m off 4 = 1) := by
  unfold setItem
  split
  · simp only [bind_ok, refuse_ok, pure_ok, not_or, not_not]
    constructor
    · rintro ⟨_, _, h, -⟩
      exact ⟨by omega, fun _ => h⟩
    · rintro ⟨-, h⟩
      exact ⟨col, (), h trivial, rfl⟩
  case h_10 h0 h1 h2 h3 h4 h5 h6 h7 h8 =>
    simp only [throw_ok, exists_false, false_iff, not_and]
    intro hle
    have : i = 0 ∨ i = 1 ∨ i = 2 ∨ i = 3 ∨ i = 4 ∨ i = 5 ∨ i = 6 ∨ i = 7 ∨ i = 8 := by omega
    simp_all
  all_goals exact ⟨fun _ => ⟨by omega, fun h => absurd h (by omega)⟩, fun _ => ⟨_, rfl⟩⟩

theorem setItem_fails (i off itemSize : ℕ) (col : QlQveCollateral) :
    FailsWith Thrown (setItem m i off itemSize col) := by
  unfold setItem
  split
  · exact FailsWith.bind (FailsWith.refuse (thrown _)) fun _ _ => FailsWith.pure _ _
  case h_10 => exact FailsWith.throw (thrown _)
  all_goals exact FailsWith.pure _ _

theorem readItems_fails (n i : ℕ) (col : QlQveCollateral) :
    FailsWith Thrown (readItems m data dataSize n i col) := by
  induction n generalizing i col with
  | zero => exact FailsWith.pure _ _
  | succ n ih =>
    exact FailsWith.bind (FailsWith.refuse (thrown _)) fun _ _ =>
      FailsWith.bind (setItem_fails m _ _ _ _) fun _ _ => ih _ _

/-- Behind the first item nothing but the table is read, of which no more than ten offsets are. -/
theorem tracedItems_later (hsize : sgxEndorsementsSize ≤ size) (n i : ℕ) (col : QlQveCollateral)
    (hi : 0 < i) (hfew : i ≤ 9) : (tracedItems m size data dataSize n i col).All Access.Inside := by
  have hlong : 108 ≤ size := hsize
  have hstart : endorsementsSize = 16 := rfl
  induction n generalizing i col with
  | zero => exact all_pure _ _
  | succ n ih =>
    simp only [tracedItems, all_bind, all_readField, all_quiet, all_eventIf, forget_quiet, true_and]
    refine ⟨Access.inside_of_le (by omega), fun _ _ _ _ =>
      ⟨fun _ => Access.inside_of_le (by omega), fun _ _ =>
        ⟨fun hfirst => absurd hfirst.1 (by omega), fun _ _ col' hcol => ?_⟩⟩⟩
    have hnext := ((setItem_ok_iff m i _ _ col).1 ⟨col', hcol⟩).1
    exact ih (i + 1) col' (by omega) (by omega)

theorem tracedItems_all (hsize : sgxEndorsementsSize ≤ size) (n : ℕ) (col : QlQveCollateral) :
    (tracedItems m size data dataSize n 0 col).All Access.Inside ↔
      (0 < n → itemOffset m 0 < dataSize →
        itemSizeOf (1 = n) dataSize (itemOffset m 0) (itemOffset m 1) = 4 →
          data + itemOffset m 0 + 4 ≤ size) := by
  have hlong : 108 ≤ size := hsize
  have hstart : endorsementsSize = 16 := rfl
  cases n with
  | zero => exact ⟨fun _ h => absurd h (by omega), fun _ => all_pure _ _⟩
  | succ n =>
    have hlast : decide (1 = n + 1) = decide (n = 0) := by
      by_cases hn : n = 0 <;> simp [hn]
    have hoffset : readLe m (endorsementsSize + 4 * 0) 4 = itemOffset m 0 := rfl
    simp only [tracedItems, all_bind, all_readField, all_quiet, all_eventIf, forget_readField,
      forget_quiet, true_and, pure_ok, forall_eq', hoffset, refuse_ok, not_le, hlast]
    constructor
    · intro h _ hin hfour
      obtain ⟨-, h⟩ := h.2 () hin
      exact Access.le_of_inside ((h () rfl).1 hfour) (Nat.succ_pos 3)
    · intro h
      refine ⟨Access.inside_of_le (by omega), fun _ hin =>
        ⟨fun _ => Access.inside_of_le (by omega), fun _ _ =>
          ⟨fun hfour => Access.inside_of_le (h (Nat.succ_pos n) hin hfour), fun _ _ col' _ => ?_⟩⟩⟩
      exact tracedItems_later m size data dataSize hsize n 1 col' Nat.one_pos (by omega)

theorem readItems_ok_iff (n i : ℕ) (col : QlQveCollateral) :
    (∃ col', readItems m data dataSize n i col = .ok col') ↔
      (∀ k, k < n → itemOffset m (i + k) < dataSize) ∧ (0 < n → i + n ≤ 9) ∧
        (i = 0 → 0 < n → itemSizeOf (1 = n) dataSize (itemOffset m 0) (itemOffset m 1) = 4 ∧
          readLe m (data + itemOffset m 0) 4 = 1) := by
  induction n generalizing i col with
  | zero => exact ⟨fun _ => ⟨nofun, nofun, nofun⟩, fun _ => ⟨col, rfl⟩⟩
  | succ n ih =>
    rw [← tracedItems_forget m 0]
    simp only [tracedItems, forget_bind, forget_readField, forget_quiet, forget_eventIf, pure_bind,
      bind_ok, refuse_ok, not_le, tracedItems_forget]
    have hoffset : readLe m (endorsementsSize + 4 * i) 4 = itemOffset m i := rfl
    have hlast : decide (1 = n + 1) = decide (n = 0) := by
      by_cases hn : n = 0 <;> simp [hn]
    rw [hoffset]
    constructor
    · rintro ⟨col', _, hin, next, hset, hrest⟩
      obtain ⟨hfew, hversion⟩ := (setItem_ok_iff m i _ _ col).1 ⟨next, hset⟩
      obtain ⟨hoffsets, hmore, -⟩ := (ih (i + 1) next).1 ⟨col', hrest⟩
      refine ⟨fun k hk => ?_, fun _ => ?_, ?_⟩
      · cases k with
        | zero => exact hin
        | succ k =>
          have hnext := hoffsets k (by omega)
          rwa [Nat.add_assoc, Nat.add_comm 1 k] at hnext
      · cases n with
        | zero => omega
        | succ n =>
          have := hmore (Nat.succ_pos n)
          omega
      · rintro rfl -
        rw [hlast]
        exact hversion rfl
    · rintro ⟨hoffsets, hfew, hversion⟩
      have hcount := hfew (Nat.succ_pos n)
      obtain ⟨next, hset⟩ := (setItem_ok_iff m i (data + itemOffset m i)
        (itemSizeOf (n = 0) dataSize (itemOffset m i) (itemOffset m (i + 1))) col).2 ⟨by omega, by
          rintro rfl
          rw [← hlast]
          exact hversion rfl (Nat.succ_pos n)⟩
      obtain ⟨col', hrest⟩ := (ih (i + 1) next).2 ⟨fun k hk => by
        have hnext := hoffsets (k + 1) (by omega)
        rwa [Nat.add_comm k 1, ← Nat.add_assoc] at hnext, fun _ => by omega, fun h => absurd h (by omega)⟩
      exact ⟨col', (), hoffsets 0 (Nat.succ_pos n), next, hset, hrest⟩

end

/-! ### From pointers to bytes -/

section
variable (host : Host) (e : Bytes)

theorem itemOffset_eq (hlong : sgxEndorsementsSize ≤ e.length) (i : ℕ) (hi : i ≤ 10) :
    itemOffset (mem e host.beyond) i = offsetOf e i := by
  have h108 : 108 ≤ e.length := hlong
  have hstart : endorsementsSize = 16 := rfl
  exact readLe_eq_sub _ _ _ _ (by omega)

theorem readItems_accepts (h : HeaderAccepted e)
    (hversion : 0 < numElements e → offsetOf e 0 < statedSize e → statedItemSize e 0 = 4 →
      dataStart e + offsetOf e 0 + 4 ≤ e.length) :
    (∃ col, readItems (mem e host.beyond) (dataStart e) (statedSize e) (numElements e) 0 {} = .ok col) ↔
      ItemsAccepted e := by
  have hoffset (i : ℕ) (hi : i ≤ 10) := itemOffset_eq host e h.long i hi
  rw [readItems_ok_iff]
  simp only [Nat.zero_add, true_imp_iff, hoffset 0 (by omega), hoffset 1 (by omega)]
  have hword (hpos : 0 < numElements e) (hin : offsetOf e 0 < statedSize e)
      (hfour : statedItemSize e 0 = 4) :
      readLe (mem e host.beyond) (dataStart e + offsetOf e 0) 4 =
        leVal (sub e (dataStart e + offsetOf e 0) 4) :=
    readLe_eq_sub _ _ _ _ (hversion hpos hin hfour)
  constructor
  · rintro ⟨hoffsets, hfew, hfirst⟩
    have hin (i : ℕ) (hi : i < numElements e) : offsetOf e i < statedSize e := by
      have hlt := hoffsets i hi
      rwa [hoffset i (by have := hfew (by omega); omega)] at hlt
    refine ⟨?_, hin, fun hpos => ?_⟩
    · by_cases hpos : 0 < numElements e
      · exact hfew hpos
      · omega
    · obtain ⟨hfour, hone⟩ := hfirst hpos
      rw [hword hpos (hin 0 hpos) hfour] at hone
      exact ⟨hfour, hone⟩
  · intro haccepted
    refine ⟨fun i hi => ?_, fun _ => haccepted.few, fun hpos => ?_⟩
    · rw [hoffset i (by have := haccepted.few; omega)]
      exact haccepted.offsets i hi
    · obtain ⟨hfour, hone⟩ := haccepted.version hpos
      rw [hword hpos (haccepted.offsets 0 hpos) hfour]
      exact ⟨hfour, hone⟩

theorem mem_copiedSpans (hlong : sgxEndorsementsSize ≤ e.length) (s : Span) :
    s ∈ copiedSpans host e ↔ ∃ i, 1 ≤ i ∧ i ≤ 7 ∧ i < numElements e ∧
      s = ⟨dataStart e + offsetOf e i, statedItemSize e i % 2 ^ 32⟩ := by
  have h108 : 108 ≤ e.length := hlong
  have hcount : readLe (mem e host.beyond) 12 4 = numElements e := readLe_eq_sub _ _ _ _ (by omega)
  have hbuffer : readLe (mem e host.beyond) 8 4 = leVal (sub e 8 4) := readLe_eq_sub _ _ _ _ (by omega)
  have hitem (i : ℕ) (hi : i ≤ 7) : (⟨endorsementsSize + 4 * numElements e + itemOffset (mem e host.beyond) i,
      itemSizeOf (i + 1 = numElements e) (dataSizeOf (leVal (sub e 8 4)) (numElements e))
        (itemOffset (mem e host.beyond) i) (itemOffset (mem e host.beyond) (i + 1)) % 2 ^ 32⟩ : Span) =
      ⟨dataStart e + offsetOf e i, statedItemSize e i % 2 ^ 32⟩ := by
    rw [itemOffset_eq host e hlong i (by omega), itemOffset_eq host e hlong (i + 1) (by omega)]
    rfl
  simp only [copiedSpans, copiedItems, hcount, hbuffer, List.mem_map, List.mem_filter, List.mem_range,
    decide_eq_true_eq]
  constructor
  · rintro ⟨i, ⟨hi, hone, hseven⟩, rfl⟩
    exact ⟨i, hone, hseven, hi, hitem i hseven⟩
  · rintro ⟨i, hone, hseven, hi, rfl⟩
    exact ⟨i, ⟨hi, hone, hseven⟩, hitem i hseven⟩

theorem tracedCollateral_all : (tracedCollateral host e).All Access.Inside ↔
    (HeaderAccepted e → (0 < numElements e → offsetOf e 0 < statedSize e → statedItemSize e 0 = 4 →
        dataStart e + offsetOf e 0 + 4 ≤ e.length) ∧
      ((∃ col, readItems (mem e host.beyond) (dataStart e) (statedSize e) (numElements e) 0 {} = .ok col) →
        ∀ s ∈ copiedSpans host e, Access.Inside ⟨s.off, s.size, e.length⟩)) := by
  unfold tracedCollateral
  by_cases hempty : e = []
  · rw [if_pos hempty]
    refine ⟨fun _ h => ?_, fun _ => all_pure _ _⟩
    have hlong := h.long
    rw [hempty] at hlong
    exact absurd hlong (by decide)
  rw [if_neg hempty]
  simp only [all_bind, all_quiet, all_readField, all_events, all_pure, forget_readField, forget_quiet,
    refuse_ok, pure_ok, forall_eq', tracedItems_forget, true_and, not_or, not_lt, not_not,
    implies_true, and_true, List.forall_mem_map]
  have hstart : endorsementsSize = 16 := rfl
  by_cases hlong : sgxEndorsementsSize ≤ e.length
  · have h108 : 108 ≤ e.length := hlong
    have hread (off : ℕ) (hoff : off ≤ 100) : readLe (mem e host.beyond) off 4 = leVal (sub e off 4) :=
      readLe_eq_sub _ _ _ _ (by omega)
    have hcount : leVal (sub e 12 4) = numElements e := rfl
    have hsize : dataSizeOf (leVal (sub e 8 4)) (numElements e) = statedSize e := rfl
    have hdata : endorsementsSize + 4 * numElements e = dataStart e := rfl
    simp only [hread 0 (by omega), hread 4 (by omega), hread 8 (by omega), hread 12 (by omega), hcount,
      hsize, hdata, tracedItems_all _ _ _ _ hlong, itemOffset_eq host e hlong 0 (by omega),
      itemOffset_eq host e hlong 1 (by omega)]
    constructor
    · intro h haccepted
      obtain ⟨-, h⟩ := h () ⟨by omega, hlong⟩
      obtain ⟨-, h⟩ := h () haccepted.version
      obtain ⟨-, -, hversion, hitems⟩ := h () haccepted.enclaveType
      exact ⟨hversion, fun hread => hread.elim hitems⟩
    · intro h _ _
      refine ⟨Access.inside_of_le (by omega), fun _ hv =>
        ⟨Access.inside_of_le (by omega), fun _ ht =>
          ⟨Access.inside_of_le (by omega), Access.inside_of_le (by omega), ?_⟩⟩⟩
      obtain ⟨hversion, hitems⟩ := h ⟨hlong, hv, ht⟩
      exact ⟨hversion, fun col hcol => hitems ⟨col, hcol⟩⟩
  · exact ⟨fun _ h => absurd h.long hlong, fun _ _ h => absurd h.2 hlong⟩

theorem tracedExtract_all (evidence : Bytes) :
    (tracedExtract host evidence e).All Access.Inside ↔
      (436 ≤ evidence.length → (tracedCollateral host e).All Access.Inside) := by
  have hquote : Sgx.sgxQuoteSize = 436 := rfl
  have hoff : Sgx.signatureLenOff = 432 := rfl
  simp only [tracedExtract, all_bind, all_quiet, all_readField, all_events, all_eventIf, all_pure,
    forget_readField, forget_events, forget_eventIf, forget_quiet, refuse_ok, pure_ok, forall_eq',
    true_and, implies_true, and_true, not_lt, List.forall_mem_singleton]
  constructor
  · intro h hlen
    have hne : evidence ≠ [] := List.ne_nil_of_length_pos (by omega)
    obtain ⟨-, -, h⟩ := h () hne () (by omega)
    exact (h () trivial).2 () trivial
  · intro h _ _ _ hlen
    exact ⟨Access.inside_of_le (by omega), Access.inside_of_le (by omega),
      fun _ _ => ⟨fun hmore => Access.inside_of_le (by omega), fun _ _ => h (by omega)⟩⟩

theorem extractCollateral_fails : FailsWith Thrown (extractCollateral host e) := by
  unfold extractCollateral
  split
  · exact FailsWith.pure _ _
  · exact FailsWith.bind (FailsWith.refuse (thrown _)) fun _ _ =>
      FailsWith.bind (FailsWith.refuse (thrown _)) fun _ _ =>
        FailsWith.bind (FailsWith.refuse (thrown _)) fun _ _ =>
          FailsWith.bind (readItems_fails _ _ _ _ _ _) fun _ _ => FailsWith.pure _ _

theorem extractSgxAttestation_fails (evidence : Bytes) :
    FailsWith Thrown (extractSgxAttestation host evidence e) :=
  FailsWith.bind (FailsWith.refuse (thrown _)) fun _ _ =>
    FailsWith.bind (FailsWith.refuse (thrown _)) fun _ _ =>
      FailsWith.bind (extractCollateral_fails host e) fun _ _ => FailsWith.pure _ _

theorem extractCollateral_ok_iff (hne : e ≠ []) :
    (∃ c, extractCollateral host e = .ok c) ↔ HeaderAccepted e ∧
      ∃ col, readItems (mem e host.beyond) (dataStart e) (statedSize e) (numElements e) 0 {} = .ok col := by
  rw [extractCollateral, if_neg hne]
  simp only [bind_ok, refuse_ok, pure_ok, not_or, not_lt, not_not]
  have hstart : endorsementsSize = 16 := rfl
  by_cases hlong : sgxEndorsementsSize ≤ e.length
  · have h108 : 108 ≤ e.length := hlong
    have hread (off : ℕ) (hoff : off ≤ 100) : readLe (mem e host.beyond) off 4 = leVal (sub e off 4) :=
      readLe_eq_sub _ _ _ _ (by omega)
    rw [hread 0 (by omega), hread 4 (by omega), hread 8 (by omega), hread 12 (by omega)]
    constructor
    · rintro ⟨c, _, -, _, hv, _, ht, col, hcol, -⟩
      exact ⟨⟨hlong, hv, ht⟩, col, hcol⟩
    · rintro ⟨haccepted, col, hcol⟩
      exact ⟨_, (), ⟨by omega, hlong⟩, (), haccepted.version, (), haccepted.enclaveType, col, hcol, rfl⟩
  · constructor
    · rintro ⟨c, _, hsize, -⟩
      exact absurd hsize.2 hlong
    · rintro ⟨haccepted, -⟩
      exact absurd haccepted.long hlong

theorem readsInside_iff (evidence : Bytes) :
    ReadsInside host evidence e ↔ (436 ≤ evidence.length → ItemsInside e) := by
  constructor
  · intro h hlen
    have hall := (tracedCollateral_all host e).1 ((tracedExtract_all host e evidence).1 h.inside hlen)
    refine ⟨fun haccepted => (hall haccepted).1, fun haccepted hitems i hone hseven hi => ?_⟩
    have hne : e ≠ [] := by
      rintro rfl
      exact absurd haccepted.long (by decide)
    have hloop := (readItems_accepts host e haccepted (hall haccepted).1).2 hitems
    obtain ⟨c, hc⟩ := (extractCollateral_ok_iff host e hne).2 ⟨haccepted, hloop⟩
    have hok : extractSgxAttestation host evidence e =
        .ok ({ source := .sgx, evidence := (splitEvidence host evidence).1, endorsements := c },
          (splitEvidence host evidence).2) := by
      have hevidence : evidence ≠ [] := List.ne_nil_of_length_pos (by omega)
      have hquote : ¬ evidence.length < Sgx.sgxQuoteSize := not_lt.2 hlen
      rw [extractSgxAttestation, refuse_of_not hevidence, ok_bind, refuse_of_not hquote, ok_bind, hc]
      rfl
    exact h.items _ hok hne _ ((mem_copiedSpans host e haccepted.long _).2 ⟨i, hone, hseven, hi, rfl⟩)
  · intro h
    have hcopied (hlen : 436 ≤ evidence.length) (haccepted : HeaderAccepted e)
        (hloop : ∃ col, readItems (mem e host.beyond) (dataStart e) (statedSize e) (numElements e) 0 {} =
          .ok col) : ∀ s ∈ copiedSpans host e, s.off + s.size ≤ e.length := by
      intro s hs
      obtain ⟨i, hone, hseven, hi, rfl⟩ := (mem_copiedSpans host e haccepted.long s).1 hs
      have hitems := (readItems_accepts host e haccepted ((h hlen).version haccepted)).1 hloop
      exact (h hlen).items haccepted hitems i hone hseven hi
    refine ⟨?_, extractSgxAttestation_fails host e evidence, ?_⟩
    · refine (tracedExtract_all host e evidence).2 fun hlen => (tracedCollateral_all host e).2 ?_
      intro haccepted
      exact ⟨(h hlen).version haccepted, fun hloop s hs =>
        Access.inside_of_le (hcopied hlen haccepted hloop s hs)⟩
    · intro r hr hne s hs
      simp only [extractSgxAttestation, bind_ok, refuse_ok, not_lt] at hr
      obtain ⟨_, -, _, hlen, c, hc, -⟩ := hr
      obtain ⟨haccepted, hloop⟩ := (extractCollateral_ok_iff host e hne).1 ⟨c, hc⟩
      exact hcopied hlen haccepted hloop s hs

end

/-- Two items, the version and one that goes on up to a data size of 1000, in 108 bytes. -/
def wideEndorsements : Bytes :=
  leBytes 4 1 ++ leBytes 4 2 ++ leBytes 4 1008 ++ leBytes 4 2 ++ leBytes 4 0 ++ leBytes 4 4 ++
    leBytes 4 1 ++ List.replicate 80 0

theorem item_beyond_endorsements :
    ¬ ReadsInside plainHost (List.replicate 436 0) wideEndorsements := by
  intro h
  have hok : ∃ r, extractSgxAttestation plainHost (List.replicate 436 0) wideEndorsements = .ok r :=
    ok_of_isSome (by decide +kernel)
  obtain ⟨r, hr⟩ := hok
  have hitem := h.items r hr (by decide +kernel) ⟨28, 996⟩ (by decide +kernel)
  exact absurd hitem (by decide +kernel)

end Ravl.Oe
