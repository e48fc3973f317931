import Ravl.Sgx.PckExtension

/-!
# The format of the SGX extension (sgx_impl.h:464-609, openssl.hpp:1569-1656)

The extension as the constructor of `CertificateExtension` expects it, for any
numbers in it, and which extension each of them gives. The getters look at the
bytes of a number's absolute value; `get_uint16` puts two of them together in
the other order.
-/

namespace Ravl.Sgx
open ByteLib FallibleLib

/-! ### The getters -/

def oidEntry (oid : Bytes) (value : Asn1) : Asn1 := .sequence [.object oid, value]

theorem getObjValue_ok (seq : List Asn1) (i : ℕ) (oid : Bytes) (v : Asn1) :
    getObjValue seq i oid = .ok v ↔ seq[i]? = some (oidEntry oid v) := by
  constructor
  · intro h
    simp only [getObjValue, bind_ok, orThrow_ok] at h
    obtain ⟨element, helement, ss, hss, h⟩ := h
    rw [helement]
    cases element with
    | sequence elements =>
      obtain rfl := (pure_ok _ _).mp hss
      split at h
      next tt tv =>
        split at h
        next o =>
          simp only [bind_ok, refuse_ok, pure_ok, not_not] at h
          obtain ⟨-, rfl, rfl⟩ := h
          rfl
        next => cases h
      next => cases h
    | malformedSequence => cases hss
    | object o => cases hss
    | integer n => cases hss
    | enumerated n => cases hss
    | octetString d => cases hss
    | boolean b => cases hss
    | other => cases hss
  · intro h
    simp only [getObjValue, bind_ok, orThrow_ok]
    refine ⟨_, h, [.object oid, v], rfl, ?_⟩
    simp only [bind_ok, refuse_ok, pure_ok, not_not]
    exact ⟨(), trivial, trivial⟩

theorem getOctetString_ok (seq : List Asn1) (i : ℕ) (oid d : Bytes) :
    getOctetString seq i oid = .ok d ↔ seq[i]? = some (oidEntry oid (.octetString d)) := by
  simp only [getOctetString, bind_ok, getObjValue_ok]
  constructor
  · intro h
    obtain ⟨v, hv, h⟩ := h
    cases v with
    | octetString data =>
      obtain rfl := (pure_ok _ _).mp h
      exact hv
    | _ => cases h
  · intro h
    exact ⟨_, h, rfl⟩

theorem getBool_ok (seq : List Asn1) (i : ℕ) (oid : Bytes) (b : Bool) :
    getBool seq i oid = .ok b ↔ seq[i]? = some (oidEntry oid (.boolean b)) := by
  simp only [getBool, bind_ok, getObjValue_ok]
  constructor
  · intro h
    obtain ⟨v, hv, h⟩ := h
    cases v with
    | boolean value =>
      obtain rfl := (pure_ok _ _).mp h
      exact hv
    | _ => cases h
  · intro h
    exact ⟨_, h, rfl⟩

theorem getSeq_ok (seq : List Asn1) (i : ℕ) (oid : Bytes) (elements : List Asn1) :
    getSeq seq i oid = .ok elements ↔ seq[i]? = some (oidEntry oid (.sequence elements)) := by
  simp only [getSeq, bind_ok, getObjValue_ok]
  constructor
  · intro h
    obtain ⟨v, hv, h⟩ := h
    cases v with
    | sequence inner =>
      obtain rfl := (pure_ok _ _).mp h
      exact hv
    | _ => cases h
  · intro h
    exact ⟨_, h, rfl⟩

/-- The enumerated values an `int64_t` holds. -/
def FitsInt64 (v : ℤ) : Prop := -2 ^ 63 ≤ v ∧ v < 2 ^ 63

theorem getEnum_ok (seq : List Asn1) (i : ℕ) (oid : Bytes) (v : ℤ) :
    getEnum seq i oid = .ok v ↔ FitsInt64 v ∧ seq[i]? = some (oidEntry oid (.enumerated v)) := by
  simp only [getEnum, bind_ok, getObjValue_ok]
  constructor
  · intro h
    obtain ⟨value, hv, h⟩ := h
    cases value with
    | enumerated n =>
      simp only [bind_ok, refuse_ok, pure_ok, not_or, not_lt, not_le] at h
      obtain ⟨-, hfits, rfl⟩ := h
      exact ⟨hfits, hv⟩
    | _ => cases h
  · intro h
    obtain ⟨hfits, h⟩ := h
    refine ⟨_, h, ?_⟩
    simp only [bind_ok, refuse_ok, pure_ok, not_or, not_lt, not_le]
    exact ⟨(), hfits, trivial⟩

theorem numBytes_le (n k : ℕ) : numBytes n ≤ k ↔ n < 256 ^ k := by
  have hpow : 256 ^ k = 2 ^ (8 * k) := by rw [Nat.pow_mul]
  unfold numBytes
  by_cases hn : n = 0
  · rw [if_pos hn, hn]
    simp
  · have hlog := Nat.log2_lt hn (k := 8 * k)
    rw [if_neg hn, hpow, ← hlog]
    omega

theorem getUint8_ok (seq : List Asn1) (i : ℕ) (oid : Bytes) (b : Byte) :
    getUint8 seq i oid = .ok b ↔ ∃ v : ℤ, v.natAbs < 256 ∧ b = Fin.ofNat 256 v.natAbs ∧
      seq[i]? = some (oidEntry oid (.integer v)) := by
  have hsmall : ∀ v : ℤ, (¬ (numBytes v.natAbs ≠ 1 ∧ v ≠ 0)) ↔ v.natAbs < 256 := by
    intro v
    have hle := numBytes_le v.natAbs 1
    by_cases hv : v = 0
    · simp [hv]
    · have hpos : numBytes v.natAbs ≠ 0 := by
        unfold numBytes
        rw [if_neg (by omega)]
        omega
      omega
  simp only [getUint8, bind_ok, getObjValue_ok]
  constructor
  · intro h
    obtain ⟨value, hv, h⟩ := h
    cases value with
    | integer v =>
      simp only [bind_ok, refuse_ok, pure_ok, hsmall] at h
      obtain ⟨-, hlt, rfl⟩ := h
      exact ⟨v, hlt, rfl, hv⟩
    | _ => cases h
  · intro h
    obtain ⟨v, hlt, rfl, h⟩ := h
    refine ⟨_, h, ?_⟩
    simp only [bind_ok, refuse_ok, pure_ok, hsmall]
    exact ⟨(), hlt, trivial⟩

/-- What `get_uint16` makes of a number below 2^16. -/
def asUint16 (n : ℕ) : ℕ := if n < 256 then n else n / 256 + 256 * (n % 256)

theorem getUint16_ok (seq : List Asn1) (i : ℕ) (oid : Bytes) (n : ℕ) :
    getUint16 seq i oid = .ok n ↔ ∃ v : ℤ, v.natAbs < 65536 ∧ n = asUint16 v.natAbs ∧
      seq[i]? = some (oidEntry oid (.integer v)) := by
  have hone : ∀ m, numBytes m ≤ 1 ↔ m < 256 := fun m => numBytes_le m 1
  have htwo : ∀ m, numBytes m ≤ 2 ↔ m < 65536 := fun m => numBytes_le m 2
  have hvalue : ∀ m, m < 65536 →
      (if numBytes m = 2 then m / 256 + 256 * (m % 256) else m) = asUint16 m := by
    intro m hm
    have h1 := hone m
    have h2 := htwo m
    unfold asUint16
    by_cases hsmall : m < 256
    · rw [if_neg (by omega), if_pos hsmall]
    · rw [if_pos (by omega), if_neg hsmall]
  simp only [getUint16, bind_ok, getObjValue_ok]
  constructor
  · intro h
    obtain ⟨value, hv, h⟩ := h
    cases value with
    | integer v =>
      simp only [bind_ok, refuse_ok, pure_ok, not_lt, htwo] at h
      obtain ⟨-, hlt, rfl⟩ := h
      exact ⟨v, hlt, hvalue _ hlt, hv⟩
    | _ => cases h
  · intro h
    obtain ⟨v, hlt, rfl, h⟩ := h
    refine ⟨_, h, ?_⟩
    simp only [bind_ok, refuse_ok, pure_ok, not_lt, htwo]
    exact ⟨(), hlt, hvalue _ hlt⟩

/-! ### The values of an extension -/

/-- What the TCB sequence can say; the numbers are those of ASN.1, of any size and sign. -/
structure TcbValues where
  compSvns : List ℤ
  compSvns_size : compSvns.length = 16
  pceSvn : ℤ
  cpuSvn : Bytes
  cpuSvn_size : cpuSvn.length = 16

structure ExtensionValues where
  ppid : Bytes
  tcb : TcbValues
  pceid : Bytes
  fmspc : Bytes
  sgxType : ℤ
  /-- instance id and configuration of a platform certificate -/
  platform : Option (Bytes × Configuration)

def tcbEntries (i : ℕ) : List ℤ → List Asn1
  | [] => []
  | v :: vs => oidEntry (tcbEntryOid i) (.integer v) :: tcbEntries (i + 1) vs

def TcbValues.encode (v : TcbValues) : Asn1 :=
  .sequence (tcbEntries 0 v.compSvns ++ [oidEntry (tcbEntryOid 16) (.integer v.pceSvn),
    oidEntry (tcbEntryOid 17) (.octetString v.cpuSvn)])

def configurationAsn1 (c : Configuration) : Asn1 :=
  .sequence [oidEntry dynamicPlatformOid (.boolean c.dynamicPlatform),
    oidEntry cachedKeysOid (.boolean c.cachedKeys), oidEntry smtEnabledOid (.boolean c.smtEnabled)]

def platformEntries : Option (Bytes × Configuration) → List Asn1
  | none => []
  | some (instanceId, c) =>
    [oidEntry sgxExtPlatformInstanceOid (.octetString instanceId),
      oidEntry sgxExtConfigurationOid (configurationAsn1 c)]

/-- The extension built of the values, with the documented identifiers in their order. -/
def ExtensionValues.encode (v : ExtensionValues) : Asn1 :=
  .sequence ([oidEntry sgxExtPpidOid (.octetString v.ppid), oidEntry sgxExtTcbOid v.tcb.encode,
    oidEntry sgxExtPceidOid (.octetString v.pceid), oidEntry sgxExtFmspcOid (.octetString v.fmspc),
    oidEntry sgxExtTypeOid (.enumerated v.sgxType)] ++ platformEntries v.platform)

/-- What the constructor gives for the values. -/
def TcbValues.decoded (v : TcbValues) : TCB where
  compSvn := v.compSvns.map fun s => Fin.ofNat 256 s.natAbs
  compSvn_size := by rw [List.length_map, v.compSvns_size]
  pceSvn := asUint16 v.pceSvn.natAbs
  cpuSvn := v.cpuSvn

def ExtensionValues.decoded (v : ExtensionValues) : CertificateExtension where
  ppid := v.ppid
  tcb := v.tcb.decoded
  pceid := v.pceid
  fmspc := v.fmspc
  sgxType := if v.sgxType ≠ 0 then 1 else 0
  platformInstanceId := v.platform.map (·.1)
  configuration := v.platform.map (·.2)

/-- The absolute values fit. -/
def TcbValues.SmallEnough (v : TcbValues) : Prop :=
  (∀ s ∈ v.compSvns, s.natAbs < 256) ∧ v.pceSvn.natAbs < 65536

def TcbValues.InRange (v : TcbValues) : Prop :=
  (∀ s ∈ v.compSvns, 0 ≤ s ∧ s ≤ 255) ∧ 0 ≤ v.pceSvn ∧ v.pceSvn ≤ 65535

theorem TcbValues.InRange.smallEnough {v : TcbValues} (h : v.InRange) : v.SmallEnough := by
  obtain ⟨hcomp, hpce⟩ := h
  refine ⟨?_, by omega⟩
  intro s hs
  have hrange := hcomp s hs
  omega

/-! ### The TCB sequence -/

theorem drop_of_getElem? {α : Type} {l : List α} {i : ℕ} {a : α} (h : l[i]? = some a) :
    l.drop i = a :: l.drop (i + 1) := by
  obtain ⟨hi, rfl⟩ := List.getElem?_eq_some_iff.mp h
  exact List.drop_eq_getElem_cons hi

theorem compSvns_of_ok (seq : List Asn1) (n i : ℕ) (bs : { bs : Bytes // bs.length = n })
    (h : compSvns seq n i = .ok bs) : ∃ vs : List ℤ, vs.length = n ∧
      (∀ s ∈ vs, s.natAbs < 256) ∧ bs.1 = vs.map (fun s => Fin.ofNat 256 s.natAbs) ∧
      seq.drop i = tcbEntries i vs ++ seq.drop (i + n) := by
  induction n generalizing i with
  | zero =>
    obtain rfl := (pure_ok _ _).mp h
    exact ⟨[], rfl, fun s hs => absurd hs List.not_mem_nil, rfl, rfl⟩
  | succ n ih =>
    simp only [compSvns, bind_ok, pure_ok] at h
    obtain ⟨b, hb, bs', hbs, rfl⟩ := h
    obtain ⟨v, hv, rfl, hentry⟩ := (getUint8_ok _ _ _ _).mp hb
    obtain ⟨vs, hlen, hsmall, hvalues, hdrop⟩ := ih (i + 1) bs' hbs
    refine ⟨v :: vs, congrArg (· + 1) hlen, ?_, ?_, ?_⟩
    · intro s hs
      rcases List.mem_cons.mp hs with rfl | hs
      · exact hv
      · exact hsmall s hs
    · rw [List.map_cons, ← hvalues]
    · have hnext : i + 1 + n = i + (n + 1) := by omega
      rw [drop_of_getElem? hentry, hdrop, hnext]
      rfl

theorem compSvns_tcbEntries (vs : List ℤ) (before after : List Asn1) (n i : ℕ)
    (hn : vs.length = n) (hi : before.length = i) (hsmall : ∀ s ∈ vs, s.natAbs < 256) :
    ∃ bs, compSvns (before ++ tcbEntries i vs ++ after) n i = .ok bs ∧
      bs.1 = vs.map fun s => Fin.ofNat 256 s.natAbs := by
  subst hn
  induction vs generalizing before i with
  | nil => exact ⟨⟨[], rfl⟩, rfl, rfl⟩
  | cons v vs ih =>
    obtain ⟨hv, hvs⟩ := List.forall_mem_cons.mp hsmall
    have hlen : (before ++ [oidEntry (tcbEntryOid i) (.integer v)]).length = i + 1 := by
      rw [List.length_append, hi, List.length_singleton]
    obtain ⟨bs, hbs, hvalues⟩ := ih (before ++ [oidEntry (tcbEntryOid i) (.integer v)]) (i + 1) hlen hvs
    have hsame : before ++ [oidEntry (tcbEntryOid i) (.integer v)] ++ tcbEntries (i + 1) vs ++ after =
        before ++ tcbEntries i (v :: vs) ++ after := by
      simp only [tcbEntries, List.append_assoc, List.singleton_append]
    rw [hsame] at hbs
    have hentry : (before ++ tcbEntries i (v :: vs) ++ after)[i]? =
        some (oidEntry (tcbEntryOid i) (.integer v)) := by
      rw [List.append_assoc, List.getElem?_append_right (by omega), hi, Nat.sub_self]
      rfl
    refine ⟨⟨Fin.ofNat 256 v.natAbs :: bs.1, congrArg (· + 1) bs.2⟩, ?_, ?_⟩
    · simp only [List.length_cons, compSvns, bind_ok, pure_ok]
      exact ⟨_, (getUint8_ok _ _ _ _).mpr ⟨v, hv, rfl, hentry⟩, bs, hbs, rfl⟩
    · rw [List.map_cons, ← hvalues]

theorem tcbEntries_length (i : ℕ) (vs : List ℤ) : (tcbEntries i vs).length = vs.length := by
  induction vs generalizing i with
  | nil => rfl
  | cons v vs ih => exact congrArg (· + 1) (ih (i + 1))

theorem tcbEntries_injective (i : ℕ) (vs ws : List ℤ) (h : tcbEntries i vs = tcbEntries i ws) :
    vs = ws := by
  induction vs generalizing i ws with
  | nil =>
    cases ws with
    | nil => rfl
    | cons w ws => cases h
  | cons v vs ih =>
    cases ws with
    | nil => cases h
    | cons w ws =>
      simp only [tcbEntries, oidEntry, List.cons.injEq, Asn1.sequence.injEq, Asn1.integer.injEq,
        true_and, and_true] at h
      rw [h.1, ih (i + 1) ws h.2]

theorem TcbValues.encode_injective {v w : TcbValues} (h : v.encode = w.encode) : v = w := by
  obtain ⟨vs, hvs, vp, vc, hvc⟩ := v
  obtain ⟨ws, hws, wp, wc, hwc⟩ := w
  simp only [TcbValues.encode, Asn1.sequence.injEq] at h
  have hlen : (tcbEntries 0 vs).length = (tcbEntries 0 ws).length := by
    rw [tcbEntries_length, tcbEntries_length, hvs, hws]
  obtain ⟨hcomp, hrest⟩ := List.append_inj h hlen
  obtain rfl := tcbEntries_injective 0 vs ws hcomp
  simp only [oidEntry, List.cons.injEq, Asn1.sequence.injEq, Asn1.integer.injEq,
    Asn1.octetString.injEq, true_and, and_true] at hrest
  obtain ⟨rfl, rfl⟩ := hrest
  rfl

theorem drop_sixteen (l : List Asn1) (hlen : l.length = 18) (a b : Asn1) (ha : l[16]? = some a)
    (hb : l[17]? = some b) : l.drop 16 = [a, b] := by
  rw [drop_of_getElem? ha, drop_of_getElem? hb, List.drop_eq_nil_of_le (by omega)]

theorem getTcbExt_ok (seq : List Asn1) (i : ℕ) (oid : Bytes) (tcb : TCB) :
    getTcbExt seq i oid = .ok tcb ↔ ∃ v : TcbValues, v.SmallEnough ∧ tcb = v.decoded ∧
      seq[i]? = some (oidEntry oid v.encode) := by
  simp only [getTcbExt, bind_ok, refuse_ok, pure_ok, not_not, getSeq_ok]
  constructor
  · intro h
    obtain ⟨sss, hentry, -, hlen, svns, hsvns, pce, hpce, cpu, hcpu, -, hcpuLen, rfl⟩ := h
    obtain ⟨vs, hvs, hsmall, hvalues, hdrop⟩ := compSvns_of_ok _ _ _ _ hsvns
    obtain ⟨p, hp, rfl, hpentry⟩ := (getUint16_ok _ _ _ _).mp hpce
    have hcentry := (getOctetString_ok _ _ _ _).mp hcpu
    rw [List.drop_zero, drop_sixteen sss hlen _ _ hpentry hcentry] at hdrop
    refine ⟨⟨vs, hvs, p, cpu, hcpuLen⟩, ⟨hsmall, hp⟩, ?_, ?_⟩
    · simp only [TcbValues.decoded, TCB.mk.injEq]
      exact ⟨hvalues, trivial, trivial⟩
    · rw [hentry, hdrop]
      rfl
  · intro h
    obtain ⟨v, ⟨hsmall, hpce⟩, rfl, hentry⟩ := h
    have hcomp := tcbEntries_length 0 v.compSvns
    rw [v.compSvns_size] at hcomp
    have hbehind : ∀ k, (tcbEntries 0 v.compSvns ++ [oidEntry (tcbEntryOid 16) (.integer v.pceSvn),
        oidEntry (tcbEntryOid 17) (.octetString v.cpuSvn)])[16 + k]? =
        [oidEntry (tcbEntryOid 16) (.integer v.pceSvn),
          oidEntry (tcbEntryOid 17) (.octetString v.cpuSvn)][k]? := by
      intro k
      rw [List.getElem?_append_right (by omega), hcomp, Nat.add_sub_cancel_left]
    obtain ⟨bs, hbs, hvalues⟩ := compSvns_tcbEntries v.compSvns [] [oidEntry (tcbEntryOid 16)
      (.integer v.pceSvn), oidEntry (tcbEntryOid 17) (.octetString v.cpuSvn)] 16 0 v.compSvns_size
      rfl hsmall
    refine ⟨_, hentry, (), ?_, bs, hbs, asUint16 v.pceSvn.natAbs, ?_, v.cpuSvn, ?_, (),
      v.cpuSvn_size, ?_⟩
    · rw [List.length_append, hcomp]
      rfl
    · exact (getUint16_ok _ _ _ _).mpr ⟨v.pceSvn, hpce, rfl, hbehind 0⟩
    · exact (getOctetString_ok _ _ _ _).mpr (hbehind 1)
    · simp only [TcbValues.decoded, TCB.mk.injEq]
      exact ⟨hvalues, trivial, trivial⟩

/-! ### The extension -/

theorem configurationAsn1_injective {c d : Configuration}
    (h : configurationAsn1 c = configurationAsn1 d) : c = d := by
  obtain ⟨c1, c2, c3⟩ := c
  obtain ⟨d1, d2, d3⟩ := d
  simp only [configurationAsn1, oidEntry, Asn1.sequence.injEq, List.cons.injEq, Asn1.boolean.injEq,
    true_and, and_true] at h
  obtain ⟨rfl, rfl, rfl⟩ := h
  rfl

theorem platformEntries_injective {p q : Option (Bytes × Configuration)}
    (h : platformEntries p = platformEntries q) : p = q := by
  cases p with
  | none =>
    cases q with
    | none => rfl
    | some q => cases h
  | some p =>
    cases q with
    | none => cases h
    | some q =>
      simp only [platformEntries, oidEntry, List.cons.injEq, Asn1.sequence.injEq,
        Asn1.octetString.injEq, true_and, and_true] at h
      rw [Option.some.injEq]
      exact Prod.ext h.1 (configurationAsn1_injective h.2)

theorem ExtensionValues.encode_injective {v w : ExtensionValues} (h : v.encode = w.encode) :
    v = w := by
  obtain ⟨v1, v2, v3, v4, v5, v6⟩ := v
  obtain ⟨w1, w2, w3, w4, w5, w6⟩ := w
  simp only [ExtensionValues.encode, oidEntry, Asn1.sequence.injEq, List.cons_append,
    List.nil_append, List.cons.injEq, Asn1.octetString.injEq, Asn1.enumerated.injEq, true_and,
    and_true] at h
  obtain ⟨rfl, htcb, rfl, rfl, rfl, hplatform⟩ := h
  rw [TcbValues.encode_injective htcb, platformEntries_injective hplatform]

/-- What makes the constructor return. -/
def ExtensionValues.Accepted (v : ExtensionValues) : Prop :=
  v.tcb.SmallEnough ∧ FitsInt64 v.sgxType

theorem CertificateExtension.ofExtension_encode (v : ExtensionValues) (h : v.Accepted) :
    CertificateExtension.ofExtension (some v.encode) = .ok v.decoded := by
  obtain ⟨hsmall, hfits⟩ := h
  obtain ⟨ppid, tcb, pceid, fmspc, t, platform⟩ := v
  simp only [CertificateExtension.ofExtension, ExtensionValues.encode, bind_ok, orThrow_ok,
    Option.some.injEq, exists_eq_left', pure_ok, refuse_ok, getOctetString_ok, getEnum_ok,
    getTcbExt_ok]
  cases platform with
  | none =>
    exact ⟨(), fun h => h.1 rfl, ppid, rfl, _, ⟨tcb, hsmall, rfl, rfl⟩, pceid, rfl, fmspc, rfl, t,
      ⟨hfits, rfl⟩, rfl⟩
  | some p =>
    obtain ⟨instanceId, dyn, cached, smt⟩ := p
    refine ⟨(), fun h => h.2 rfl, ppid, rfl, _, ⟨tcb, hsmall, rfl, rfl⟩, pceid, rfl, fmspc, rfl, t,
      ⟨hfits, rfl⟩, ?_⟩
    have hlong : ¬ (7 ≤ 5) := by omega
    refine (if_neg hlong).trans ?_
    simp only [bind_ok, pure_ok, refuse_ok, getOctetString_ok, getSeq_ok, getBool_ok, not_not]
    exact ⟨instanceId, rfl, _, rfl, (), rfl, dyn, rfl, cached, rfl, smt, rfl, rfl⟩

theorem CertificateExtension.ofExtension_ok (data : Asn1) (ext : CertificateExtension)
    (h : CertificateExtension.ofExtension (some data) = .ok ext) :
    ∃ v : ExtensionValues, v.Accepted ∧ data = v.encode ∧ ext = v.decoded := by
  cases data with
  | sequence seq =>
    simp only [CertificateExtension.ofExtension, bind_ok, orThrow_ok, Option.some.injEq,
      exists_eq_left', pure_ok, refuse_ok, getOctetString_ok, getEnum_ok, getTcbExt_ok] at h
    obtain ⟨-, hsize, ppid, h0, tcb, ⟨v, hsmall, rfl, h1⟩, pceid, h2, fmspc, h3, t, ⟨hfits, h4⟩, h⟩ := h
    have hfirst : seq.take 5 = [oidEntry sgxExtPpidOid (.octetString ppid),
        oidEntry sgxExtTcbOid v.encode, oidEntry sgxExtPceidOid (.octetString pceid),
        oidEntry sgxExtFmspcOid (.octetString fmspc), oidEntry sgxExtTypeOid (.enumerated t)] := by
      have hall := drop_of_getElem? h0
      rw [drop_of_getElem? h1, drop_of_getElem? h2, drop_of_getElem? h3, drop_of_getElem? h4,
        List.drop_zero] at hall
      rw [hall]
      rfl
    have hsplit := List.take_append_drop 5 seq
    rw [hfirst] at hsplit
    by_cases hshort : seq.length ≤ 5
    · rw [if_pos hshort, pure_ok] at h
      rw [List.drop_eq_nil_of_le hshort] at hsplit
      exact ⟨⟨ppid, v, pceid, fmspc, t, none⟩, ⟨hsmall, hfits⟩, congrArg Asn1.sequence hsplit.symm,
        h.symm⟩
    · rw [if_neg hshort] at h
      simp only [bind_ok, pure_ok, refuse_ok, getOctetString_ok, getSeq_ok, getBool_ok, not_not] at h
      obtain ⟨instanceId, h5, configSeq, h6, -, hthree, dyn, c0, cached, c1, smt, c2, rfl⟩ := h
      have hrest : seq.drop 5 = platformEntries (some (instanceId, ⟨dyn, cached, smt⟩)) := by
        have hconfig := drop_of_getElem? c0
        rw [drop_of_getElem? c1, drop_of_getElem? c2, List.drop_zero,
          List.drop_eq_nil_of_le (by omega)] at hconfig
        rw [drop_of_getElem? h5, drop_of_getElem? h6, List.drop_eq_nil_of_le (by omega), hconfig]
        rfl
      rw [hrest] at hsplit
      exact ⟨⟨ppid, v, pceid, fmspc, t, some (instanceId, ⟨dyn, cached, smt⟩)⟩, ⟨hsmall, hfits⟩,
        congrArg Asn1.sequence hsplit.symm, rfl⟩
  | _ => cases h

/-! ### Failures -/

theorem openSequence_fails (a : Asn1) : FailsWith Thrown (openSequence a) := by
  cases a with
  | sequence elements => exact FailsWith.pure _ _
  | malformedSequence => exact FailsWith.throw (thrown _)
  | _ => exact FailsWith.throw (thrown _)

theorem getObjValue_fails (seq : List Asn1) (i : ℕ) (oid : Bytes) (hi : i < seq.length) :
    FailsWith Thrown (getObjValue seq i oid) := by
  have helement : orThrow seq[i]? (Error.undefined "null element of a sequence") = .ok seq[i] :=
    (orThrow_ok _ _ _).mpr (List.getElem?_eq_getElem hi)
  refine FailsWith.bind ?_ fun element _ => FailsWith.bind (openSequence_fails element) fun ss _ => ?_
  · rw [helement]
    exact FailsWith.pure _ _
  split
  · split
    · exact FailsWith.bind (FailsWith.refuse (thrown _)) fun _ _ => FailsWith.pure _ _
    · exact FailsWith.throw (thrown _)
  · exact FailsWith.throw (thrown _)

section
variable (seq : List Asn1) (i : ℕ) (oid : Bytes)

theorem getUint8_fails (hi : i < seq.length) : FailsWith Thrown (getUint8 seq i oid) := by
  refine FailsWith.bind (getObjValue_fails seq i oid hi) fun v _ => ?_
  split
  · exact FailsWith.bind (FailsWith.refuse (thrown _)) fun _ _ => FailsWith.pure _ _
  · exact FailsWith.throw (thrown _)

theorem getUint16_fails (hi : i < seq.length) : FailsWith Thrown (getUint16 seq i oid) := by
  refine FailsWith.bind (getObjValue_fails seq i oid hi) fun v _ => ?_
  split
  · exact FailsWith.bind (FailsWith.refuse (thrown _)) fun _ _ => FailsWith.pure _ _
  · exact FailsWith.throw (thrown _)

theorem getEnum_fails (hi : i < seq.length) : FailsWith Thrown (getEnum seq i oid) := by
  refine FailsWith.bind (getObjValue_fails seq i oid hi) fun v _ => ?_
  split
  · exact FailsWith.bind (FailsWith.refuse (thrown _)) fun _ _ => FailsWith.pure _ _
  · exact FailsWith.throw (thrown _)

theorem getOctetString_fails (hi : i < seq.length) :
    FailsWith Thrown (getOctetString seq i oid) := by
  refine FailsWith.bind (getObjValue_fails seq i oid hi) fun v _ => ?_
  split
  · exact FailsWith.pure _ _
  · exact FailsWith.throw (thrown _)

theorem getSeq_fails (hi : i < seq.length) : FailsWith Thrown (getSeq seq i oid) := by
  refine FailsWith.bind (getObjValue_fails seq i oid hi) fun v _ => ?_
  split
  · exact FailsWith.pure _ _
  · exact openSequence_fails _
  · exact FailsWith.throw (thrown _)

theorem getBool_fails (hi : i < seq.length) : FailsWith Thrown (getBool seq i oid) := by
  refine FailsWith.bind (getObjValue_fails seq i oid hi) fun v _ => ?_
  split
  · exact FailsWith.pure _ _
  · exact FailsWith.throw (thrown _)

theorem compSvns_fails (n : ℕ) (h : i + n ≤ seq.length) : FailsWith Thrown (compSvns seq n i) := by
  induction n generalizing i with
  | zero => exact FailsWith.pure _ _
  | succ n ih =>
    refine FailsWith.bind (getUint8_fails seq i _ (by omega)) fun b _ => ?_
    exact FailsWith.bind (ih (i + 1) (by omega)) fun bs _ => FailsWith.pure _ _

theorem getTcbExt_fails (hi : i < seq.length) : FailsWith Thrown (getTcbExt seq i oid) := by
  refine FailsWith.bind (getSeq_fails seq i oid hi) fun sss _ => ?_
  refine FailsWith.bind (FailsWith.refuse (thrown _)) fun _ hlen => ?_
  rw [refuse_ok, not_not] at hlen
  refine FailsWith.bind (compSvns_fails sss 0 16 (by omega)) fun svns _ => ?_
  refine FailsWith.bind (getUint16_fails sss 16 _ (by omega)) fun pceSvn _ => ?_
  refine FailsWith.bind (getOctetString_fails sss 17 _ (by omega)) fun cpuSvn _ => ?_
  exact FailsWith.bind (FailsWith.refuse (thrown _)) fun _ _ => FailsWith.pure _ _

end

theorem CertificateExtension.ofExtension_fails (data : Asn1) :
    FailsWith Thrown (CertificateExtension.ofExtension (some data)) := by
  cases data with
  | sequence seq =>
    refine FailsWith.bind (FailsWith.orThrow (thrown _)) fun data hdata => ?_
    obtain rfl := Option.some.inj ((orThrow_ok _ _ _).mp hdata)
    refine FailsWith.bind (FailsWith.pure _ _) fun elements helements => ?_
    obtain rfl := (pure_ok _ _).mp helements
    refine FailsWith.bind (FailsWith.refuse (thrown _)) fun _ hsize => ?_
    rw [refuse_ok] at hsize
    refine FailsWith.bind (getOctetString_fails seq 0 _ (by omega)) fun ppid _ => ?_
    refine FailsWith.bind (getTcbExt_fails seq 1 _ (by omega)) fun tcb _ => ?_
    refine FailsWith.bind (getOctetString_fails seq 2 _ (by omega)) fun pceid _ => ?_
    refine FailsWith.bind (getOctetString_fails seq 3 _ (by omega)) fun fmspc _ => ?_
    refine FailsWith.bind (getEnum_fails seq 4 _ (by omega)) fun t _ => ?_
    dsimp only
    split
    next => exact FailsWith.pure _ _
    next hlong =>
      refine FailsWith.bind (getOctetString_fails seq 5 _ (by omega)) fun instanceId _ => ?_
      refine FailsWith.bind (getSeq_fails seq 6 _ (by omega)) fun configSeq _ => ?_
      refine FailsWith.bind (FailsWith.refuse (thrown _)) fun _ hthree => ?_
      rw [refuse_ok, not_not] at hthree
      refine FailsWith.bind (getBool_fails configSeq 0 _ (by omega)) fun dyn _ => ?_
      refine FailsWith.bind (getBool_fails configSeq 1 _ (by omega)) fun cached _ => ?_
      exact FailsWith.bind (getBool_fails configSeq 2 _ (by omega)) fun smt _ => FailsWith.pure _ _
  | _ =>
    intro e he
    cases he
    exact thrown _

/-! ### When the extension is what the certificate says -/

/-- The extension has exactly these values. -/
structure CertificateExtension.Shows (ext : CertificateExtension) (v : ExtensionValues) : Prop where
  ppid : ext.ppid = v.ppid
  compSvn : ext.tcb.compSvn.map (fun b => (b.val : ℤ)) = v.tcb.compSvns
  pceSvn : (ext.tcb.pceSvn : ℤ) = v.tcb.pceSvn
  cpuSvn : ext.tcb.cpuSvn = v.tcb.cpuSvn
  pceid : ext.pceid = v.pceid
  fmspc : ext.fmspc = v.fmspc
  sgxType : (ext.sgxType : ℤ) = v.sgxType
  platformInstanceId : ext.platformInstanceId = v.platform.map (·.1)
  configuration : ext.configuration = v.platform.map (·.2)

/-- An extension built of values in range gives these values; any other one is refused. -/
def ReadsExactly (data : Asn1) : Prop :=
  (∀ v : ExtensionValues, v.tcb.InRange → data = v.encode →
    ∃ ext, CertificateExtension.ofExtension (some data) = .ok ext ∧ ext.Shows v) ∧
  ((∀ v : ExtensionValues, v.tcb.InRange → data ≠ v.encode) →
    ∃ what, CertificateExtension.ofExtension (some data) = .error (.exception what))

/-- Values in range that are kept: the two bytes of the PCE SVN can be swapped, and the type is
0 or 1. -/
def ExtensionValues.Kept (v : ExtensionValues) : Prop :=
  (v.tcb.pceSvn < 256 ∨ v.tcb.pceSvn / 256 = v.tcb.pceSvn % 256) ∧ (v.sgxType = 0 ∨ v.sgxType = 1)

theorem asUint16_eq (v : ℤ) (hpos : 0 ≤ v) (hlt : v ≤ 65535) :
    (asUint16 v.natAbs : ℤ) = v ↔ v < 256 ∨ v / 256 = v % 256 := by
  unfold asUint16
  split <;> omega

theorem ExtensionValues.decoded_shows (v : ExtensionValues) (hrange : v.tcb.InRange) :
    v.decoded.Shows v ↔ v.Kept := by
  obtain ⟨hcomp, hpce, hpceLt⟩ := hrange
  have hkept := asUint16_eq v.tcb.pceSvn hpce hpceLt
  have htype : ((if v.sgxType ≠ 0 then 1 else 0 : ℕ) : ℤ) = v.sgxType ↔
      v.sgxType = 0 ∨ v.sgxType = 1 := by
    split <;> omega
  constructor
  · intro h
    exact ⟨hkept.mp h.pceSvn, htype.mp h.sgxType⟩
  · intro h
    have hsvns : (v.tcb.compSvns.map fun s => Fin.ofNat 256 s.natAbs).map
        (fun b : Byte => (b.val : ℤ)) = v.tcb.compSvns := by
      have hsame : ∀ s ∈ v.tcb.compSvns,
          ((fun b : Byte => (b.val : ℤ)) ∘ fun s => Fin.ofNat 256 s.natAbs) s = id s := by
        intro s hs
        have hs := hcomp s hs
        show ((s.natAbs % 256 : ℕ) : ℤ) = s
        omega
      rw [List.map_map, List.map_congr_left hsame, List.map_id]
    exact {
      ppid := rfl
      compSvn := hsvns
      pceSvn := hkept.mpr h.1
      cpuSvn := rfl
      pceid := rfl
      fmspc := rfl
      sgxType := htype.mpr h.2
      platformInstanceId := rfl
      configuration := rfl }

/-- The constructor reads an extension exactly where values in range are kept, and where numbers
that are too small do not pass for their absolute values. -/
theorem CertificateExtension.readsExactly_iff (data : Asn1) :
    ReadsExactly data ↔ ∀ v : ExtensionValues, data = v.encode →
      (v.tcb.InRange → v.Kept) ∧
      (v.tcb.SmallEnough → ¬ v.tcb.InRange → ¬ FitsInt64 v.sgxType) := by
  constructor
  · intro h v hv
    obtain ⟨hbuilt, hother⟩ := h
    refine ⟨?_, ?_⟩
    · intro hrange
      obtain ⟨ext, hok, hshows⟩ := hbuilt v hrange hv
      obtain ⟨w, hw, hsame, rfl⟩ := CertificateExtension.ofExtension_ok data ext hok
      obtain rfl := ExtensionValues.encode_injective (hv.symm.trans hsame)
      exact (v.decoded_shows hrange).mp hshows
    · intro hsmall hrange hfits
      have hnone : ∀ w : ExtensionValues, w.tcb.InRange → data ≠ w.encode := by
        intro w hw hsame
        obtain rfl := ExtensionValues.encode_injective (hv.symm.trans hsame)
        exact hrange hw
      obtain ⟨what, herror⟩ := hother hnone
      have hok := CertificateExtension.ofExtension_encode v ⟨hsmall, hfits⟩
      rw [← hv, herror] at hok
      cases hok
  · intro h
    refine ⟨?_, ?_⟩
    · intro v hrange hv
      have hkept := (h v hv).1 hrange
      have hfits : FitsInt64 v.sgxType := by
        unfold FitsInt64
        have htype := hkept.2
        omega
      have hok := CertificateExtension.ofExtension_encode v ⟨hrange.smallEnough, hfits⟩
      exact ⟨v.decoded, hv ▸ hok, (v.decoded_shows hrange).mpr hkept⟩
    · intro hnone
      cases hread : CertificateExtension.ofExtension (some data) with
      | ok ext =>
        obtain ⟨v, ⟨hsmall, hfits⟩, hv, -⟩ := CertificateExtension.ofExtension_ok data ext hread
        exact absurd hfits ((h v hv).2 hsmall fun hrange => hnone v hrange hv)
      | error e =>
        obtain ⟨what, rfl⟩ := CertificateExtension.ofExtension_fails data e hread
        exact ⟨what, rfl⟩

theorem sixteenZeros_length : (List.replicate 16 (0 : Byte)).length = 16 := rfl

/-- The values of a processor certificate with the PCE SVN 258. -/
def sampleExtension : ExtensionValues where
  ppid := []
  tcb := {
    compSvns := List.replicate 16 0
    compSvns_size := rfl
    pceSvn := 258
    cpuSvn := List.replicate 16 0
    cpuSvn_size := sixteenZeros_length }
  pceid := []
  fmspc := []
  sgxType := 0
  platform := none

theorem sampleExtension_swapped :
    (CertificateExtension.ofExtension (some sampleExtension.encode)).toOption.map (·.tcb.pceSvn) =
      some 513 ∧ ¬ ReadsExactly sampleExtension.encode := by
  have hread : (CertificateExtension.ofExtension (some sampleExtension.encode)).toOption.map
      (·.tcb.pceSvn) = some 513 := by decide +kernel
  refine ⟨hread, ?_⟩
  intro h
  have hrange : sampleExtension.tcb.InRange := by
    unfold TcbValues.InRange
    decide
  obtain ⟨ext, hok, hshows⟩ := h.1 sampleExtension hrange rfl
  rw [hok] at hread
  have h513 : ext.tcb.pceSvn = 513 := Option.some.inj hread
  have h258 : (ext.tcb.pceSvn : ℤ) = 258 := hshows.pceSvn
  omega

end Ravl.Sgx
