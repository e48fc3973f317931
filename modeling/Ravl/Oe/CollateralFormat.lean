import Ravl.Lib.Cursor
import Ravl.Oe.Attestation

/-!
# The collateral format (sgx_impl.h:113-151, oe_impl.h:356-377, util.h:61-103)

`extract_sgx_attestation` writes the collateral with `put`, the constructor of
`QL_QVE_Collateral` reads it with `get` and `get_n`: three big-endian numbers
and seven blocks behind their lengths. The reader takes exactly this form apart
when a `size_t` has 64 bits.
-/

namespace Ravl.Oe
open ByteLib FallibleLib CursorLib
open Ravl.Sgx (QlQveCollateral getBlock)

/-- A vector has fewer bytes. -/
def vectorBound : ℕ := 2 ^ 63

/-! ### The readers -/

theorem get_reads (n : ℕ) (hn : n ≤ 8) :
    Reads vectorBound (get 64 n) (fun v => v < 256 ^ n) (beBytes n) := by
  intro data pos rest hdata hpos v next
  have hlen := hpos.length
  have hwrap : (pos + n) % 2 ^ 64 = pos + n := Nat.mod_eq_of_lt (by unfold vectorBound at hdata; omega)
  simp only [get, dataAt, bind_ok, refuse_ok, pure_ok, hwrap, beBytes_length, Prod.mk.injEq]
  constructor
  · intro h
    obtain ⟨-, hfit, bs, ⟨-, -, rfl⟩, rfl, rfl⟩ := h
    obtain ⟨hrest, hpart⟩ := hpos.split (n := n) (by omega)
    have hvalue := beBytes_beVal (sub data pos n)
    have hlt := beVal_lt (sub data pos n)
    rw [hpart] at hvalue hlt
    refine ⟨hlt, rfl, rest.drop n, ?_⟩
    rw [hvalue]
    exact hrest
  · intro h
    obtain ⟨hv, rfl, rest', rfl⟩ := h
    have hpart := hpos.sub_part
    rw [List.length_append, beBytes_length] at hlen
    rw [beBytes_length] at hpart
    refine ⟨(), by omega, _, ⟨(), by omega, rfl⟩, ?_, rfl⟩
    rw [hpart, beVal_beBytes n v hv]

/-- The bound `n` may be so large that the sum wraps: then there is no vector of that size. -/
theorem getN_reads (n : ℕ) (hn : n < 2 ^ 64) :
    Reads vectorBound (fun data pos => getN 64 data n pos) (fun b => b.length = n) id := by
  intro data pos rest hdata hpos b next
  have hlen := hpos.length
  unfold vectorBound at hdata
  simp only [getN, dataAt, bind_ok, refuse_ok, pure_ok, Prod.mk.injEq, id_eq]
  constructor
  · intro h
    obtain ⟨-, -, -, hmax, bs, ⟨-, hfit, rfl⟩, rfl, rfl⟩ := h
    obtain ⟨hrest, hpart⟩ := hpos.split (n := n) (by omega)
    refine ⟨hpart, ?_, rest.drop n, hrest⟩
    rw [hpart]
    omega
  · intro h
    obtain ⟨rfl, rfl, rest', rfl⟩ := h
    have hpart := hpos.sub_part
    rw [List.length_append] at hlen
    exact ⟨(), by omega, (), by omega, b, ⟨(), by omega, hpart⟩, rfl, by omega⟩

theorem getBlock_reads :
    Reads vectorBound (getBlock 64) (fun _ => True) putBlock := by
  intro data pos rest hdata hpos b next
  have hlen := hpos.length
  constructor
  · intro h
    obtain ⟨n, p, rest', hn, rfl, hp, h⟩ := (get_reads 8 (by omega)).taken hdata hpos h
    have hmod : n % 2 ^ 64 = n := Nat.mod_eq_of_lt (by omega)
    obtain ⟨rfl, rfl, rest'', rfl⟩ := (getN_reads n (by omega) data p rest' hdata hp b next).mp
      (by simpa only [hmod] using h)
    have hall := hp.length
    simp only [List.length_append, beBytes_length, id_eq] at hlen hall
    refine ⟨trivial, ?_, rest'', ?_⟩
    · simp only [putBlock, List.length_append, beBytes_length, id_eq]
      omega
    · simp only [putBlock, List.append_assoc, id_eq]
  · intro h
    obtain ⟨-, rfl, rest', rfl⟩ := h
    unfold vectorBound at hdata
    simp only [putBlock, List.length_append, beBytes_length] at hlen
    rw [putBlock, List.append_assoc] at hpos
    have hsize : b.length < 256 ^ 8 := by omega
    have hmod : b.length % 2 ^ 64 = b.length := Nat.mod_eq_of_lt (by omega)
    have hget := (get_reads 8 (by omega)).read_of b.length hsize hdata hpos
    have hgetN := (getN_reads b.length (by omega)).read_of b rfl hdata hpos.next
    refine (bind_ok _ _ _).mpr ⟨_, hget, ?_⟩
    simp only [hmod]
    rw [hgetN, putBlock, List.length_append, Nat.add_assoc, id_eq]

/-! ### The layout -/

/-- What a collateral buffer holds, in its order. -/
structure CollateralLayout where
  majorVersion : Fin (2 ^ 16)
  minorVersion : Fin (2 ^ 16)
  teeType : Fin (2 ^ 32)
  pckCrlIssuerChain : Bytes
  rootCaCrl : Bytes
  pckCrl : Bytes
  tcbInfoIssuerChain : Bytes
  tcbInfo : Bytes
  qeIdentityIssuerChain : Bytes
  qeIdentity : Bytes

def CollateralLayout.blocks (l : CollateralLayout) : List Bytes :=
  [l.pckCrlIssuerChain, l.rootCaCrl, l.pckCrl, l.tcbInfoIssuerChain, l.tcbInfo,
    l.qeIdentityIssuerChain, l.qeIdentity]

def CollateralLayout.bytes (l : CollateralLayout) : Bytes :=
  beBytes 2 l.majorVersion ++ beBytes 2 l.minorVersion ++ beBytes 4 l.teeType ++
    l.blocks.flatMap fun b => beBytes 8 b.length ++ b

def CollateralLayout.collateral (l : CollateralLayout) : QlQveCollateral where
  majorVersion := l.majorVersion
  minorVersion := l.minorVersion
  teeType := l.teeType
  pckCrlIssuerChain := l.pckCrlIssuerChain
  rootCaCrl := l.rootCaCrl
  pckCrl := l.pckCrl
  tcbInfoIssuerChain := l.tcbInfoIssuerChain
  tcbInfo := l.tcbInfo
  qeIdentityIssuerChain := l.qeIdentityIssuerChain
  qeIdentity := l.qeIdentity

theorem putCollateral_collateral (l : CollateralLayout) : putCollateral l.collateral = l.bytes := by
  simp only [putCollateral, CollateralLayout.collateral, CollateralLayout.bytes,
    CollateralLayout.blocks, List.flatMap_cons, List.flatMap_nil, putBlock, List.append_nil,
    List.append_assoc]

theorem collateral_parse_bytes (l : CollateralLayout) (hlen : l.bytes.length < vectorBound) :
    QlQveCollateral.parse 64 l.bytes = .ok l.collateral := by
  have h0 := Ahead.start l.bytes
  rw [← putCollateral_collateral] at hlen h0 ⊢
  generalize hdata : putCollateral l.collateral = data at hlen h0 ⊢
  have hrest : data = beBytes 2 l.majorVersion ++ (beBytes 2 l.minorVersion ++
      (beBytes 4 l.teeType ++ (putBlock l.pckCrlIssuerChain ++ (putBlock l.rootCaCrl ++
      (putBlock l.pckCrl ++ (putBlock l.tcbInfoIssuerChain ++ (putBlock l.tcbInfo ++
      (putBlock l.qeIdentityIssuerChain ++ (putBlock l.qeIdentity ++ []))))))))) := by
    simp only [← hdata, putCollateral, CollateralLayout.collateral, List.append_assoc,
      List.append_nil]
  nth_rewrite 2 [hrest] at h0
  have h1 := h0.next
  have h2 := h1.next
  have h3 := h2.next
  have h4 := h3.next
  have h5 := h4.next
  have h6 := h5.next
  have h7 := h6.next
  have h8 := h7.next
  have h9 := h8.next
  have hend := h9.next.length
  have block : ∀ {b rest : Bytes} {pos : ℕ}, Ahead data pos (putBlock b ++ rest) →
      getBlock 64 data pos = .ok (b, pos + (putBlock b).length) := fun {b} {_} {_} h =>
    getBlock_reads.read_of b trivial hlen h
  simp only [QlQveCollateral.parse, bind_ok, refuse_ok, pure_ok]
  refine ⟨_, (get_reads 2 (by omega)).read_of _ l.majorVersion.isLt hlen h0,
    _, (get_reads 2 (by omega)).read_of _ l.minorVersion.isLt hlen h1,
    _, (get_reads 4 (by omega)).read_of _ l.teeType.isLt hlen h2,
    _, block h3, _, block h4, _, block h5, _, block h6, _, block h7, _, block h8, _, block h9,
    (), ?_, rfl⟩
  rw [hend]
  exact not_not_intro rfl

/-- Every accepted buffer is one of a layout. -/
theorem collateral_of_parse (data : Bytes) (c : QlQveCollateral)
    (hdata : data.length < vectorBound) (h : QlQveCollateral.parse 64 data = .ok c) :
    ∃ l : CollateralLayout, data = l.bytes ∧ c = l.collateral := by
  unfold QlQveCollateral.parse at h
  have h0 := Ahead.start data
  obtain ⟨major, p1, r1, hmajor, hr, h1, h⟩ := (get_reads 2 (by omega)).taken hdata h0 h
  obtain ⟨minor, p2, r2, hminor, hr1, h2, h⟩ := (get_reads 2 (by omega)).taken hdata h1 h
  obtain ⟨tee, p3, r3, htee, hr2, h3, h⟩ := (get_reads 4 (by omega)).taken hdata h2 h
  obtain ⟨b1, p4, r4, -, hr3, h4, h⟩ := getBlock_reads.taken hdata h3 h
  obtain ⟨b2, p5, r5, -, hr4, h5, h⟩ := getBlock_reads.taken hdata h4 h
  obtain ⟨b3, p6, r6, -, hr5, h6, h⟩ := getBlock_reads.taken hdata h5 h
  obtain ⟨b4, p7, r7, -, hr6, h7, h⟩ := getBlock_reads.taken hdata h6 h
  obtain ⟨b5, p8, r8, -, hr7, h8, h⟩ := getBlock_reads.taken hdata h7 h
  obtain ⟨b6, p9, r9, -, hr8, h9, h⟩ := getBlock_reads.taken hdata h8 h
  obtain ⟨b7, p10, r10, -, hr9, h10, h⟩ := getBlock_reads.taken hdata h9 h
  simp only [bind_ok, refuse_ok, pure_ok, not_not] at h
  obtain ⟨-, hend, rfl⟩ := h
  have hlast : r10 = [] := by
    have hlen := h10.length
    rw [hend] at hlen
    exact List.length_eq_zero_iff.mp (by omega)
  refine ⟨⟨⟨major, hmajor⟩, ⟨minor, hminor⟩, ⟨tee, htee⟩, b1, b2, b3, b4, b5, b6, b7⟩, ?_, rfl⟩
  rw [← putCollateral_collateral, hr, hr1, hr2, hr3, hr4, hr5, hr6, hr7, hr8, hr9, hlast]
  simp only [putCollateral, CollateralLayout.collateral, List.append_assoc, List.append_nil]

/-- The constructor takes exactly the buffers of a layout, returns what the layout holds, and
`put` gives the buffer back. -/
theorem collateral_parse_layout (data : Bytes) (hdata : data.length < vectorBound) :
    ((∃ c, QlQveCollateral.parse 64 data = .ok c) ↔ ∃ l : CollateralLayout, data = l.bytes) ∧
    (∀ l : CollateralLayout, data = l.bytes →
      QlQveCollateral.parse 64 data = .ok l.collateral) ∧
    (∀ c, QlQveCollateral.parse 64 data = .ok c → putCollateral c = data) := by
  have hread : ∀ l : CollateralLayout, data = l.bytes →
      QlQveCollateral.parse 64 data = .ok l.collateral := by
    intro l hl
    rw [hl] at hdata ⊢
    exact collateral_parse_bytes l hdata
  refine ⟨⟨?_, ?_⟩, hread, ?_⟩
  · intro h
    obtain ⟨c, hc⟩ := h
    obtain ⟨l, hl, -⟩ := collateral_of_parse data c hdata hc
    exact ⟨l, hl⟩
  · intro h
    obtain ⟨l, hl⟩ := h
    exact ⟨l.collateral, hread l hl⟩
  · intro c hc
    obtain ⟨l, hl, rfl⟩ := collateral_of_parse data c hdata hc
    rw [putCollateral_collateral, hl]

def sampleLayout : CollateralLayout where
  majorVersion := 3
  minorVersion := 1
  teeType := 0
  pckCrlIssuerChain := text "chain"
  rootCaCrl := []
  pckCrl := text "crl"
  tcbInfoIssuerChain := []
  tcbInfo := text "\x7b\x7d"
  qeIdentityIssuerChain := []
  qeIdentity := []

theorem sampleLayout_parse :
    QlQveCollateral.parse 64 sampleLayout.bytes = .ok sampleLayout.collateral ∧
      putCollateral sampleLayout.collateral = sampleLayout.bytes := by
  have h := collateral_parse_layout sampleLayout.bytes (by decide +kernel)
  have hread := h.2.1 sampleLayout rfl
  exact ⟨hread, h.2.2 _ hread⟩

-- a length for which the bounds test wraps
example : QlQveCollateral.parse 64 (beBytes 8 0 ++ beBytes 8 (2 ^ 64 - 16) ++ beBytes 8 0) =
    .error (.exception "cannot create std::vector larger than max_size()") := by decide +kernel

/-! ### Where a `size_t` has four bytes

`put(s.size(), …)` writes as many bytes as the type of a span's size has;
`get<uint64_t>` reads eight. -/

def putBlockOf (sizeBytes : ℕ) (s : Bytes) : Bytes := beBytes sizeBytes s.length ++ s

def putCollateralOf (sizeBytes : ℕ) (col : QlQveCollateral) : Bytes :=
  beBytes 2 col.majorVersion ++ beBytes 2 col.minorVersion ++ beBytes 4 col.teeType ++
    putBlockOf sizeBytes col.pckCrlIssuerChain ++ putBlockOf sizeBytes col.rootCaCrl ++
    putBlockOf sizeBytes col.pckCrl ++ putBlockOf sizeBytes col.tcbInfoIssuerChain ++
    putBlockOf sizeBytes col.tcbInfo ++ putBlockOf sizeBytes col.qeIdentityIssuerChain ++
    putBlockOf sizeBytes col.qeIdentity

theorem putCollateralOf_eight (col : QlQveCollateral) :
    putCollateralOf 8 col = putCollateral col := rfl

def collateralStrings (col : QlQveCollateral) : List Bytes :=
  [col.pckCrlIssuerChain, col.rootCaCrl, col.pckCrl, col.tcbInfoIssuerChain, col.tcbInfo,
    col.qeIdentityIssuerChain, col.qeIdentity]

def collateralSize (col : QlQveCollateral) : ℕ := ((collateralStrings col).map List.length).sum

theorem putCollateralOf_length (n : ℕ) (col : QlQveCollateral) :
    (putCollateralOf n col).length = 8 + 7 * n + collateralSize col := by
  simp only [putCollateralOf, putBlockOf, collateralSize, collateralStrings, List.length_append,
    beBytes_length, List.map_cons, List.map_nil, List.sum_cons, List.sum_nil]
  omega

theorem get_next (w n pos v next : ℕ) (data : Bytes) (h : get w n data pos = .ok (v, next)) :
    next = (pos + n) % 2 ^ w := by
  simp only [get, bind_ok, pure_ok, Prod.mk.injEq] at h
  obtain ⟨-, -, bs, -, -, rfl⟩ := h
  rfl

theorem getBlock_next (w pos next : ℕ) (data b : Bytes)
    (h : getBlock w data pos = .ok (b, next)) : next = (pos + (8 + b.length)) % 2 ^ w := by
  obtain ⟨⟨n, p⟩, hget, h⟩ := (bind_ok _ _ _).mp h
  have hp := get_next w 8 pos n p data hget
  simp only [getN, dataAt, bind_ok, refuse_ok, pure_ok, Prod.mk.injEq] at h
  obtain ⟨-, -, -, -, bs, ⟨-, hfit, rfl⟩, rfl, rfl⟩ := h
  rw [sub_length _ _ _ (by omega), hp, Nat.mod_add_mod, Nat.add_assoc]

/-- However wide a `size_t` is: the lengths read take eight bytes each. -/
theorem collateral_parse_length (w : ℕ) (data : Bytes) (c : QlQveCollateral)
    (h : QlQveCollateral.parse w data = .ok c) :
    data.length = (64 + collateralSize c) % 2 ^ w := by
  simp only [QlQveCollateral.parse, bind_ok, refuse_ok, pure_ok, not_not, Prod.exists] at h
  obtain ⟨major, p1, h1, minor, p2, h2, tee, p3, h3, b1, p4, h4, b2, p5, h5, b3, p6, h6, b4, p7, h7,
    b5, p8, h8, b6, p9, h9, b7, p10, h10, -, hend, rfl⟩ := h
  rw [← hend, getBlock_next _ _ _ _ _ h10, getBlock_next _ _ _ _ _ h9, getBlock_next _ _ _ _ _ h8,
    getBlock_next _ _ _ _ _ h7, getBlock_next _ _ _ _ _ h6, getBlock_next _ _ _ _ _ h5,
    getBlock_next _ _ _ _ _ h4, get_next _ _ _ _ _ _ h3, get_next _ _ _ _ _ _ h2,
    get_next _ _ _ _ _ _ h1]
  simp only [Nat.mod_add_mod]
  congr 1
  simp only [collateralSize, collateralStrings, List.map_cons, List.map_nil, List.sum_cons,
    List.sum_nil]
  omega

/-- With a `size_t` of four bytes no collateral is read back. -/
theorem collateral_wasm32 (col : QlQveCollateral) :
    ¬ ∃ c, QlQveCollateral.parse 32 (putCollateralOf 4 col) = .ok c ∧
      collateralStrings c = collateralStrings col := by
  intro h
  obtain ⟨c, hparse, hsame⟩ := h
  have hread := collateral_parse_length 32 _ c hparse
  have hwritten := putCollateralOf_length 4 col
  have hsize : collateralSize c = collateralSize col := by
    rw [collateralSize, hsame, collateralSize]
  omega

theorem collateral_wasm32_empty :
    QlQveCollateral.parse 32 (putCollateralOf 4 {}) = .error (.exception "not enough data") ∧
      ¬ ∃ c, QlQveCollateral.parse 32 (putCollateralOf 4 {}) = .ok c ∧
        collateralStrings c = collateralStrings {} := by
  have hfails : QlQveCollateral.parse 32 (putCollateralOf 4 {}) =
      .error (.exception "not enough data") := by decide +kernel
  refine ⟨hfails, ?_⟩
  intro h
  obtain ⟨c, hc, -⟩ := h
  rw [hfails] at hc
  cases hc

end Ravl.Oe
