import Mathlib.Tactic.IntervalCases
import Ravl.Lib.Cursor
import Ravl.Sgx.Quote

/-!
# The quote format (sgx_defs.h:63-154)

The packed structures as lists of fields, in the order of the declarations, and
what `parse_quote`, `SignatureData` and `make_claims` find in a buffer made of
them. The offsets that Quote.lean computes with are the sums of the lengths of
the fields before.
-/

namespace Ravl.Sgx
open ByteLib CursorLib

abbrev ByteArrayOf (n : ℕ) := { bs : Bytes // bs.length = n }

theorem ByteArrayOf.length {n : ℕ} (a : ByteArrayOf n) : a.val.length = n := a.property

/-! ### sgx_report_body_t -/

structure ReportBodyLayout where
  cpuSvn : ByteArrayOf 16
  miscSelect : Fin (2 ^ 32)
  reserved1 : ByteArrayOf 12
  isvExtProdId : ByteArrayOf 16
  flags : Fin (2 ^ 64)
  xfrm : Fin (2 ^ 64)
  mrEnclave : ByteArrayOf 32
  reserved2 : ByteArrayOf 32
  mrSigner : ByteArrayOf 32
  reserved3 : ByteArrayOf 32
  configId : ByteArrayOf 64
  isvProdId : Fin (2 ^ 16)
  isvSvn : Fin (2 ^ 16)
  configSvn : Fin (2 ^ 16)
  reserved4 : ByteArrayOf 42
  isvFamilyId : ByteArrayOf 16
  reportData : ByteArrayOf 64

def ReportBodyLayout.parts (l : ReportBodyLayout) : List Bytes :=
  [l.cpuSvn, leBytes 4 l.miscSelect, l.reserved1, l.isvExtProdId, leBytes 8 l.flags,
    leBytes 8 l.xfrm, l.mrEnclave, l.reserved2, l.mrSigner, l.reserved3, l.configId,
    leBytes 2 l.isvProdId, leBytes 2 l.isvSvn, leBytes 2 l.configSvn, l.reserved4, l.isvFamilyId,
    l.reportData]

def ReportBodyLayout.bytes (l : ReportBodyLayout) : Bytes := l.parts.flatten

/-- The fields, less the reserved bytes. -/
def ReportBodyLayout.body (l : ReportBodyLayout) : ReportBody where
  cpuSvn := l.cpuSvn
  miscSelect := l.miscSelect
  isvExtProdId := l.isvExtProdId
  flags := l.flags
  xfrm := l.xfrm
  mrEnclave := l.mrEnclave
  mrSigner := l.mrSigner
  configId := l.configId
  isvProdId := l.isvProdId
  isvSvn := l.isvSvn
  configSvn := l.configSvn
  isvFamilyId := l.isvFamilyId
  reportData := l.reportData

theorem ReportBodyLayout.lengths (l : ReportBodyLayout) :
    l.parts.map List.length = [16, 4, 12, 16, 8, 8, 32, 32, 32, 32, 64, 2, 2, 2, 42, 16, 64] := by
  simp only [ReportBodyLayout.parts, List.map_cons, List.map_nil, leBytes_length, ByteArrayOf.length]

theorem ReportBodyLayout.bytes_length (l : ReportBodyLayout) :
    l.bytes.length = sgxReportBodySize := by
  rw [ReportBodyLayout.bytes, List.length_flatten, l.lengths]
  rfl

theorem ReportBodyLayout.offset (l : ReportBodyLayout) (i : ℕ) :
    partOffset l.parts i =
      ([16, 4, 12, 16, 8, 8, 32, 32, 32, 32, 64, 2, 2, 2, 42, 16, 64].take i).sum := by
  rw [partOffset, List.map_take, l.lengths]

theorem ReportBodyLayout.read (l : ReportBodyLayout) {data rest : Bytes} {a : ℕ}
    (h : Ahead data a (l.bytes ++ rest)) (beyond : ℕ → Byte) :
    readReportBody (mem data beyond) a = l.body := by
  have hoff (i : ℕ) := congrArg (a + ·) (l.offset i)
  have hbytes {n : ℕ} (i : ℕ) (f : ByteArrayOf n) (hf : l.parts[i]? = some f.val) :=
    h.readMem_field beyond i hf (hoff i) f.length
  have hnumber {n v : ℕ} (i : ℕ) (hf : l.parts[i]? = some (leBytes n v)) (hv : v < 256 ^ n) :=
    h.readLe_field beyond i hf (hoff i) hv
  simp only [readReportBody, ReportBodyLayout.body, ReportBody.mk.injEq]
  exact ⟨hbytes 0 l.cpuSvn rfl, hnumber 1 rfl l.miscSelect.isLt, hbytes 3 l.isvExtProdId rfl,
    hnumber 4 rfl l.flags.isLt, hnumber 5 rfl l.xfrm.isLt, hbytes 6 l.mrEnclave rfl,
    hbytes 8 l.mrSigner rfl, hbytes 10 l.configId rfl, hnumber 11 rfl l.isvProdId.isLt,
    hnumber 12 rfl l.isvSvn.isLt, hnumber 13 rfl l.configSvn.isLt, hbytes 15 l.isvFamilyId rfl,
    hbytes 16 l.reportData rfl⟩

/-! ### sgx_quote_t and sgx_ql_ecdsa_sig_data_t -/

/-- A quote with its signature data and whatever follows them. -/
structure QuoteLayout where
  epidGroupId : ByteArrayOf 4
  qeSvn : Fin (2 ^ 16)
  pceSvn : Fin (2 ^ 16)
  xeid : Fin (2 ^ 32)
  basename : ByteArrayOf 32
  reportBody : ReportBodyLayout
  signatureLen : Fin (2 ^ 32)
  quoteSignature : ByteArrayOf 64
  publicKey : ByteArrayOf 64
  qeReport : ReportBodyLayout
  qeReportSignature : ByteArrayOf 64
  authData : Bytes
  authData_pos : 0 < authData.length
  authData_lt : authData.length < 2 ^ 16
  certificationData : Bytes
  certificationData_pem : sub certificationData 0 5 = text "-----"
  certificationData_lt : certificationData.length < 2 ^ 32
  trailing : Bytes

def QuoteLayout.parts (l : QuoteLayout) : List Bytes :=
  [leBytes 2 sgxQuoteVersion, leBytes 2 sgxQlAlgEcdsaP256, l.epidGroupId, leBytes 2 l.qeSvn,
    leBytes 2 l.pceSvn, leBytes 4 l.xeid, l.basename, l.reportBody.bytes, leBytes 4 l.signatureLen,
    l.quoteSignature, l.publicKey, l.qeReport.bytes, l.qeReportSignature,
    leBytes 2 l.authData.length, l.authData, leBytes 2 pckCertChain,
    leBytes 4 l.certificationData.length, l.certificationData]

def QuoteLayout.bytes (l : QuoteLayout) : Bytes := l.parts.flatten ++ l.trailing

def QuoteLayout.claims (l : QuoteLayout) (unset : Memory) : Claims where
  version := sgxQuoteVersion
  signType := sgxQlAlgEcdsaP256
  epidGroupId := l.epidGroupId
  qeSvn := l.qeSvn
  pceSvn := l.pceSvn
  xeid := l.xeid
  basename := l.basename
  reportBody := l.reportBody.body
  signatureData := {
    signature := l.quoteSignature
    attestPubKey := l.publicKey
    qeReport := l.qeReport.body
    qeReportSig := l.qeReportSignature
    authData := l.authData }
  endorsements := .unset unset

/-- What the spans of the signature data show. -/
structure QuoteLayout.Exposed (l : QuoteLayout) (m : Memory) (sd : SignatureData) : Prop where
  quoteSignature : sd.quoteSignature.read m = l.quoteSignature
  publicKey : sd.publicKey.read m = l.publicKey
  report : sd.report.read m = l.qeReport.bytes
  reportSignature : sd.reportSignature.read m = l.qeReportSignature
  reportData : sd.reportData.read m = l.qeReport.reportData
  authData : sd.authData.read m = l.authData
  certificationType : readLe m sd.cdRaw 2 = pckCertChain
  certificationData : sd.certificationData = l.certificationData

section
variable (l : QuoteLayout)

theorem QuoteLayout.lengths :
    l.parts.map List.length = [2, 2, 4, 2, 2, 4, 32, 384, 4, 64, 64, 384, 64, 2, l.authData.length,
      2, 4, l.certificationData.length] := by
  simp only [QuoteLayout.parts, List.map_cons, List.map_nil, leBytes_length, ByteArrayOf.length,
    ReportBodyLayout.bytes_length, sgxReportBodySize]

theorem QuoteLayout.offset (i : ℕ) :
    partOffset l.parts i = ([2, 2, 4, 2, 2, 4, 32, 384, 4, 64, 64, 384, 64, 2, l.authData.length,
      2, 4, l.certificationData.length].take i).sum := by
  rw [partOffset, List.map_take, l.lengths]

theorem QuoteLayout.ahead : Ahead l.bytes 0 (l.parts.flatten ++ l.trailing) := Ahead.start l.bytes

theorem QuoteLayout.offset_fixed (i : ℕ) (hi : i < 15) : 0 + partOffset l.parts i =
    [0, 2, 4, 8, 10, 12, 16, 48, 432, 436, 500, 564, 948, 1012, 1014].getD i 0 := by
  rw [l.offset]
  interval_cases i <;> simp

theorem QuoteLayout.offset_behind :
    0 + partOffset l.parts 15 = 1014 + l.authData.length ∧
      0 + partOffset l.parts 16 = 1016 + l.authData.length ∧
      0 + partOffset l.parts 17 = 1020 + l.authData.length := by
  simp only [l.offset, List.take_succ_cons, List.take_zero, List.sum_cons, List.sum_nil]
  omega

theorem QuoteLayout.certificationData_ne : l.certificationData ≠ [] := by
  intro h
  have hpem := l.certificationData_pem
  rw [h] at hpem
  exact absurd hpem (by decide)

theorem QuoteLayout.inside :
    1020 + l.authData.length + l.certificationData.length ≤ l.bytes.length := by
  obtain ⟨-, -, hoff⟩ := l.offset_behind
  exact (l.ahead.sub_field 17 rfl hoff rfl).1

theorem QuoteLayout.carries : Carries l.bytes l.authData.length l.certificationData := by
  obtain ⟨hoff15, hoff16, hoff17⟩ := l.offset_behind
  have number {n v off : ℕ} (i : ℕ) (hpart : l.parts[i]? = some (leBytes n v))
      (hoff : 0 + partOffset l.parts i = off) (hv : v < 256 ^ n) : leVal (sub l.bytes off n) = v := by
    rw [(l.ahead.sub_field i hpart hoff (leBytes_length n v)).2, leVal_leBytes n v hv]
  exact {
    version := number 0 rfl (l.offset_fixed 0 (by decide)) (by decide)
    signType := number 1 rfl (l.offset_fixed 1 (by decide)) (by decide)
    auth := number 13 rfl (l.offset_fixed 13 (by decide)) l.authData_lt
    authPos := l.authData_pos
    certType := number 15 rfl hoff15 (by decide)
    certSize := number 16 rfl hoff16 l.certificationData_lt
    certPos := l.certificationData_ne
    cert := (l.ahead.sub_field 17 rfl hoff17 rfl).2 }

theorem QuoteLayout.pemOf_eq {X509 Crl Pkey : Type} (ssl : OpenSsl X509 Crl Pkey) :
    pemOf ssl l.certificationData = .ok l.certificationData := by
  have hder : isDer l.certificationData = false := by
    rw [isDer, l.certificationData_pem]
    simp only [bne_self_eq_false, Bool.and_false]
  rw [pemOf, hder]
  rfl

theorem QuoteLayout.claims_of (beyond unset : ℕ → Byte) :
    makeClaims (mem l.bytes beyond) unset (placedData l.authData.length l.certificationData) =
      l.claims unset := by
  have hbytes {n : ℕ} (i : ℕ) (hi : i < 15) (f : ByteArrayOf n) (hf : l.parts[i]? = some f.val) :=
    l.ahead.readMem_field beyond i hf (l.offset_fixed i hi) f.length
  have hnumber {n v : ℕ} (i : ℕ) (hi : i < 15) (hf : l.parts[i]? = some (leBytes n v))
      (hv : v < 256 ^ n) := l.ahead.readLe_field beyond i hf (l.offset_fixed i hi) hv
  obtain ⟨rest, hbody⟩ := l.ahead.field 7 rfl
  obtain ⟨rest', hqe⟩ := l.ahead.field 11 rfl
  rw [l.offset_fixed 7 (by decide)] at hbody
  rw [l.offset_fixed 11 (by decide)] at hqe
  have hreport := l.reportBody.read hbody beyond
  have hqeReport := l.qeReport.read hqe beyond
  have hauth := l.ahead.readMem_field beyond 14 rfl (l.offset_fixed 14 (by decide)) rfl
  simp only [makeClaims, QuoteLayout.claims, Claims.mk.injEq, SignatureClaims.mk.injEq, placedData,
    Span.read]
  exact ⟨hnumber 0 (by decide) rfl (by decide), hnumber 1 (by decide) rfl (by decide), hbytes 2 (by decide) l.epidGroupId rfl,
    hnumber 3 (by decide) rfl l.qeSvn.isLt, hnumber 4 (by decide) rfl l.pceSvn.isLt, hnumber 5 (by decide) rfl l.xeid.isLt,
    hbytes 6 (by decide) l.basename rfl, hreport,
    ⟨hbytes 9 (by decide) l.quoteSignature rfl, hbytes 10 (by decide) l.publicKey rfl, hqeReport,
      hbytes 12 (by decide) l.qeReportSignature rfl, hauth⟩, trivial⟩

theorem QuoteLayout.exposed (beyond : ℕ → Byte) :
    l.Exposed (mem l.bytes beyond) (placedData l.authData.length l.certificationData) := by
  have hbytes {n : ℕ} (i : ℕ) (hi : i < 15) (f : ByteArrayOf n) (hf : l.parts[i]? = some f.val) :=
    l.ahead.readMem_field beyond i hf (l.offset_fixed i hi) f.length
  obtain ⟨hoff15, -, -⟩ := l.offset_behind
  obtain ⟨rest, hqe⟩ := l.ahead.field 11 rfl
  have hstart : 0 + partOffset l.parts 11 = 564 := l.offset_fixed 11 (by decide)
  have hdata : 564 + partOffset l.qeReport.parts 16 = 884 := by rw [l.qeReport.offset]; rfl
  rw [hstart] at hqe
  exact {
    quoteSignature := hbytes 9 (by decide) l.quoteSignature rfl
    publicKey := hbytes 10 (by decide) l.publicKey rfl
    report := l.ahead.readMem_field beyond 11 rfl (l.offset_fixed 11 (by decide)) l.qeReport.bytes_length
    reportSignature := hbytes 12 (by decide) l.qeReportSignature rfl
    reportData := hqe.readMem_field beyond 16 rfl hdata l.qeReport.reportData.length
    authData := l.ahead.readMem_field beyond 14 rfl (l.offset_fixed 14 (by decide)) rfl
    certificationType := l.ahead.readLe_field beyond 15 rfl hoff15 (by decide)
    certificationData := rfl }

end

/-- Decoding undoes encoding, whatever lies behind the buffer. -/
theorem QuoteLayout.decode {X509 Crl Pkey : Type} (ssl : OpenSsl X509 Crl Pkey)
    (beyond unset : ℕ → Byte) (l : QuoteLayout) (hlen : 436 + l.signatureLen.val ≤ l.bytes.length) :
    ∃ quote sd, parseQuote (mem l.bytes beyond) l.bytes.length = .ok quote ∧
      SignatureData.parse ssl (mem l.bytes beyond) l.bytes.length = .ok sd ∧
      makeClaims (mem l.bytes beyond) unset sd = l.claims unset ∧
      l.Exposed (mem l.bytes beyond) sd ∧
      quote.read (mem l.bytes beyond) = (l.parts.take 8).flatten := by
  have hsignature : readLe (mem l.bytes beyond) 432 4 = l.signatureLen :=
    l.ahead.readLe_field beyond 8 rfl (l.offset_fixed 8 (by decide)) l.signatureLen.isLt
  have hquote := parseQuote_of l.carries beyond (by rw [hsignature]; exact hlen)
  have hparse := SignatureData.parse_of ssl l.carries beyond l.inside _ (l.pemOf_eq ssl)
  refine ⟨_, _, hquote, hparse, l.claims_of beyond unset, l.exposed beyond, ?_⟩
  have hsplit : (l.parts.take 8).flatten ++ (l.parts.drop 8).flatten = l.parts.flatten := by
    rw [← List.flatten_append, List.take_append_drop]
  have hahead := l.ahead
  rw [← hsplit, List.append_assoc] at hahead
  have hsize : (l.parts.take 8).flatten.length = 432 := by
    rw [List.length_flatten, List.map_take, l.lengths]
    rfl
  have hsigned := hahead.sub_part
  rw [hsize] at hsigned
  have hread := readMem_eq_sub l.bytes beyond 0 432 (by omega)
  exact hread.trans hsigned

def zeros (n : ℕ) : ByteArrayOf n := ⟨List.replicate n 0, List.length_replicate⟩

def sampleReportBody : ReportBodyLayout where
  cpuSvn := zeros 16
  miscSelect := 1
  reserved1 := zeros 12
  isvExtProdId := zeros 16
  flags := 5
  xfrm := 7
  mrEnclave := zeros 32
  reserved2 := zeros 32
  mrSigner := zeros 32
  reserved3 := zeros 32
  configId := zeros 64
  isvProdId := 258
  isvSvn := 5
  configSvn := 0
  reserved4 := zeros 42
  isvFamilyId := zeros 16
  reportData := zeros 64

def sampleQuote : QuoteLayout where
  epidGroupId := zeros 4
  qeSvn := 5
  pceSvn := 10
  xeid := 0
  basename := zeros 32
  reportBody := sampleReportBody
  signatureLen := 4
  quoteSignature := zeros 64
  publicKey := zeros 64
  qeReport := sampleReportBody
  qeReportSignature := zeros 64
  authData := [1, 2]
  authData_pos := by decide
  authData_lt := by decide
  certificationData := text "-----"
  certificationData_pem := by decide
  certificationData_lt := by decide
  trailing := [0]

theorem sampleQuote_decode :
    ∃ quote sd, parseQuote (mem sampleQuote.bytes plainHost.beyond) sampleQuote.bytes.length =
        .ok quote ∧
      SignatureData.parse lenientSsl (mem sampleQuote.bytes plainHost.beyond)
        sampleQuote.bytes.length = .ok sd ∧
      makeClaims (mem sampleQuote.bytes plainHost.beyond) plainHost.unset sd =
        sampleQuote.claims plainHost.unset ∧
      sampleQuote.Exposed (mem sampleQuote.bytes plainHost.beyond) sd ∧
      quote.read (mem sampleQuote.bytes plainHost.beyond) = (sampleQuote.parts.take 8).flatten := by
  have hlen : 436 + sampleQuote.signatureLen.val ≤ sampleQuote.bytes.length := by
    have hinside := sampleQuote.inside
    have hsignature : sampleQuote.signatureLen.val = 4 := rfl
    omega
  exact QuoteLayout.decode lenientSsl plainHost.beyond plainHost.unset sampleQuote hlen

end Ravl.Sgx
