import Ravl.Sgx.Soundness

/-!
# What the verification of a quote looks at

Only `parse_quote` looks at `signature_len`, and only to compare it with the size of the evidence;
nothing looks behind the certification data. Neither is covered by a signature.
-/

namespace Ravl.Sgx
open ByteLib FallibleLib

def signatureLenOf (e : Bytes) : ℕ := leVal (sub e 432 4)

/-- The quote and its signature data, up to the last byte of the certification data. -/
def usedSize (e : Bytes) : ℕ :=
  1020 + leVal (sub e 1012 2) + leVal (sub e (1016 + leVal (sub e 1012 2)) 4)

/-- The second evidence differs at most in `signature_len` and behind the certification data. -/
structure SameUsed (a b : Bytes) : Prop where
  bytes : ∀ i < usedSize a, i < 432 ∨ 436 ≤ i → b[i]? = a[i]?
  used : usedSize a ≤ b.length
  signatureLen : 436 + signatureLenOf b ≤ b.length

/-- The memories agree below `n`, except for `signature_len`. -/
def Agree (n : ℕ) (m m' : Memory) : Prop := ∀ i < n, i < 432 ∨ 436 ≤ i → m' i = m i

theorem SameUsed.agree {a b : Bytes} (h : SameUsed a b) (beyond : Memory) :
    Agree (usedSize a) (mem a beyond) (mem b beyond) := by
  intro i hi haside
  rw [mem, mem, h.bytes i hi haside]

section
variable {n : ℕ} {m m' : Memory}

theorem Agree.readMem_eq (h : Agree n m m') {off size : ℕ} (hin : off + size ≤ n)
    (haside : off + size ≤ 432 ∨ 436 ≤ off) : readMem m' off size = readMem m off size :=
  readMem_congr fun i _ _ => h i (by omega) (by omega)

theorem Agree.readLe_eq (h : Agree n m m') {off size : ℕ} (hin : off + size ≤ n)
    (haside : off + size ≤ 432 ∨ 436 ≤ off) : readLe m' off size = readLe m off size :=
  congrArg leVal (h.readMem_eq hin haside)

theorem Agree.readReportBody_eq (h : Agree n m m') {a : ℕ} (hin : a + 384 ≤ n)
    (haside : a + 384 ≤ 432 ∨ 436 ≤ a) : readReportBody m' a = readReportBody m a := by
  have hmem (i size : ℕ) (hi : i + size ≤ 384) : readMem m' (a + i) size = readMem m (a + i) size :=
    h.readMem_eq (by omega) (by omega)
  have hzero : readMem m' a 16 = readMem m a 16 := hmem 0 16 (by omega)
  simp only [readReportBody, readLe, reportDataOff]
  rw [hzero, hmem 16 4, hmem 32 16, hmem 48 8, hmem 56 8, hmem 64 32, hmem 128 32, hmem 192 64,
    hmem 256 2, hmem 258 2, hmem 260 2, hmem 304 16, hmem 320 64] <;> omega

theorem Agree.parseQuote_ok (h : Agree n m m') (hn : 436 ≤ n) {size size' : ℕ} {quote : Span}
    (hsize : 436 + readLe m' 432 4 ≤ size') (hparse : parseQuote m size = .ok quote) :
    parseQuote m' size' = .ok quote := by
  have hversion : readLe m' 0 2 = readLe m 0 2 := h.readLe_eq (by omega) (by omega)
  have htype : readLe m' 2 2 = readLe m 2 2 := h.readLe_eq (by omega) (by omega)
  have h432 : sgxQuoteSignedSize = 432 := rfl
  have hlen : ¬ size' < sgxQuoteSize + readLe m' signatureLenOff 4 := not_lt.2 hsize
  have hwithin : verifyWithin 0 sgxQuoteSignedSize size' = .ok () :=
    (verifyWithin_iff _ _ _ (by decide) (by decide)).2 (by omega)
  simp only [parseQuote, bind_ok, refuse_ok, pure_ok, not_not] at hparse ⊢
  obtain ⟨_, -, _, -, _, hv, _, ht, hquote⟩ := hparse
  exact ⟨(), hlen, (), hwithin, (), hversion.trans hv, (), htype.trans ht, hquote⟩

end

section
variable {X509 Crl Pkey : Type} (ssl : OpenSsl X509 Crl Pkey) (host : Host)

/-- The evidence is a quote with its signature data. -/
structure Parses (e : Bytes) (sd : SignatureData) : Prop where
  quote : parseQuote (mem e host.beyond) e.length = .ok ⟨0, 432⟩
  signatureData : SignatureData.parse ssl (mem e host.beyond) e.length = .ok sd

variable {ssl host}

/-- Where the certification data end, and that this is inside. -/
theorem Parses.used {e : Bytes} {sd : SignatureData} (h : Parses ssl host e sd) :
    usedSize e = 1020 + readLe (mem e host.beyond) 1012 2 +
        readLe (mem e host.beyond) (1016 + readLe (mem e host.beyond) 1012 2) 4 ∧
      usedSize e ≤ e.length := by
  have hplaced := SignatureData.parse_ok ssl _ _ _ h.signatureData
  have hin := hplaced.inside
  rw [hplaced.cdRaw] at hin
  have hau : readLe (mem e host.beyond) 1012 2 = leVal (sub e 1012 2) :=
    readLe_eq_sub e host.beyond 1012 2 (by omega)
  have hoff : 1014 + readLe (mem e host.beyond) 1012 2 + 2 = 1016 + leVal (sub e 1012 2) := by omega
  rw [hoff] at hin
  have hsize := readLe_eq_sub e host.beyond (1016 + leVal (sub e 1012 2)) 4 (by omega)
  rw [hsize] at hin
  rw [hau, hsize]
  exact ⟨rfl, by rw [usedSize]; omega⟩

theorem Parses.signatureLen {e : Bytes} {sd : SignatureData} (h : Parses ssl host e sd) :
    436 + signatureLenOf e ≤ e.length := by
  obtain ⟨-, hlen, -⟩ := parseQuote_ok _ _ _ h.quote
  have hquote := h.quote
  simp only [parseQuote, bind_ok, refuse_ok] at hquote
  obtain ⟨_, hfits, -⟩ := hquote
  have h436 : sgxQuoteSize = 436 := rfl
  have hread : readLe (mem e host.beyond) signatureLenOff 4 = signatureLenOf e :=
    readLe_eq_sub e host.beyond 432 4 (by omega)
  omega

/-- A cut behind the certification data leaves them where they are. -/
theorem Parses.usedSize_take {e : Bytes} {k : ℕ} {sd : SignatureData}
    (h : Parses ssl host (e.take k) sd) : usedSize (e.take k) = usedSize e := by
  have hin := h.used.2
  have hlen : (e.take k).length ≤ k := List.length_take_le k e
  simp only [usedSize] at hin ⊢
  have hauth : sub (e.take k) 1012 2 = sub e 1012 2 := sub_take e k 1012 2 (by omega)
  rw [hauth] at hin ⊢
  rw [sub_take e k (1016 + leVal (sub e 1012 2)) 4 (by omega)]

theorem SameUsed.parses {a b : Bytes} (h : SameUsed a b) {sd : SignatureData}
    (hparse : Parses ssl host a sd) : Parses ssl host b sd := by
  have hagree := h.agree host.beyond
  obtain ⟨hused, -⟩ := hparse.used
  have hin := h.used
  have hlen := h.signatureLen
  rw [signatureLenOf, ← readLe_eq_sub b host.beyond 432 4 (by omega)] at hlen
  refine ⟨hagree.parseQuote_ok (by omega) hlen hparse.quote, ?_⟩
  have hoff : authCertificationDataOff = 1012 := rfl
  have hparsed := hparse.signatureData
  simp only [SignatureData.parse, hoff, Span.read, bind_ok, refuse_ok, pure_ok] at hparsed ⊢
  obtain ⟨_, -, _, -, _, hauth, _, hcert, _, -, _, htype, pem, hpem, hsd⟩ := hparsed
  have hauthEq : readLe (mem b host.beyond) 1012 2 = readLe (mem a host.beyond) 1012 2 :=
    hagree.readLe_eq (by omega) (by omega)
  generalize hn : readLe (mem a host.beyond) 1012 2 = n at *
  have hsizeEq : readLe (mem b host.beyond) (1012 + 2 + n + 2) 4 =
      readLe (mem a host.beyond) (1012 + 2 + n + 2) 4 := hagree.readLe_eq (by omega) (by omega)
  have htypeEq : readLe (mem b host.beyond) (1012 + 2 + n) 2 =
      readLe (mem a host.beyond) (1012 + 2 + n) 2 := hagree.readLe_eq (by omega) (by omega)
  have hend : 1012 + 2 + n + 2 = 1016 + n := by omega
  simp only [hauthEq, hsizeEq, htypeEq]
  generalize hk : readLe (mem a host.beyond) (1012 + 2 + n + 2) 4 = k at *
  rw [hend] at hk
  have hcertEq : readMem (mem b host.beyond) (1012 + 2 + n + 6) k =
      readMem (mem a host.beyond) (1012 + 2 + n + 6) k := hagree.readMem_eq (by omega) (by omega)
  rw [← hcertEq] at hpem
  have hfixed := verifyFixedSpans_inside b.length (by omega)
  have hauthIn : verifyWithin (1012 + 2) n b.length = .ok () :=
    verifyWithin_inside _ _ _ (by omega) (by omega) (by omega)
  have hcertIn : verifyWithin (1012 + 2 + n + 6) k b.length = .ok () :=
    verifyWithin_inside _ _ _ (by omega) (by omega) (by omega)
  exact ⟨(), hfixed, (), hauthIn, (), hauth, (), hcert, (), hcertIn, (), htype, pem, hpem, hsd⟩

/-- What is read through the spans is the same. -/
theorem SameUsed.reads {a b : Bytes} (h : SameUsed a b) {sd : SignatureData}
    (hparse : Parses ssl host a sd) (s : Span)
    (hs : s ∈ [⟨0, 432⟩, sd.quoteSignature, sd.publicKey, sd.report, sd.reportSignature,
      sd.reportData, sd.authData]) :
    s.read (mem b host.beyond) = s.read (mem a host.beyond) := by
  have hplaced := SignatureData.parse_ok ssl _ _ _ hparse.signatureData
  have hauth := hplaced.authData
  obtain ⟨hused, -⟩ := hparse.used
  simp only [hplaced.quoteSignature, hplaced.publicKey, hplaced.report, hplaced.reportSignature,
    hplaced.reportData, hauth, List.mem_cons, List.not_mem_nil, or_false] at hs
  refine (h.agree host.beyond).readMem_eq ?_ ?_
  · rcases hs with rfl | rfl | rfl | rfl | rfl | rfl | rfl <;> dsimp only <;> omega
  · rcases hs with rfl | rfl | rfl | rfl | rfl | rfl | rfl <;> dsimp only <;> omega

theorem SameUsed.verifyQuote_eq {a b : Bytes} (h : SameUsed a b) {sd : SignatureData}
    (hparse : Parses ssl host a sd) (chain : List X509) (options : Options) :
    verifyQuote ssl (mem b host.beyond) ⟨0, 432⟩ sd chain options =
      verifyQuote ssl (mem a host.beyond) ⟨0, 432⟩ sd chain options := by
  have hread := h.reads hparse
  simp only [verifyQuote]
  rw [hread ⟨0, 432⟩ (by simp), hread sd.quoteSignature (by simp), hread sd.publicKey (by simp),
    hread sd.report (by simp), hread sd.reportSignature (by simp), hread sd.reportData (by simp),
    hread sd.authData (by simp)]

theorem SameUsed.makeClaims_eq {a b : Bytes} (h : SameUsed a b) {sd : SignatureData}
    (hparse : Parses ssl host a sd) :
    makeClaims (mem b host.beyond) host.unset sd = makeClaims (mem a host.beyond) host.unset sd := by
  have hagree := h.agree host.beyond
  have hread := h.reads hparse
  obtain ⟨hused, -⟩ := hparse.used
  have hmem (off size : ℕ) (hin : off + size ≤ 432) :
      readMem (mem b host.beyond) off size = readMem (mem a host.beyond) off size :=
    hagree.readMem_eq (by omega) (Or.inl hin)
  have hbody : readReportBody (mem b host.beyond) reportBodyOff =
      readReportBody (mem a host.beyond) reportBodyOff :=
    hagree.readReportBody_eq (by rw [reportBodyOff]; omega) (Or.inl (by decide))
  have hqe : readReportBody (mem b host.beyond) qeReportOff =
      readReportBody (mem a host.beyond) qeReportOff :=
    hagree.readReportBody_eq (by show 564 + 384 ≤ _; omega) (Or.inr (by decide))
  simp only [makeClaims, readLe]
  rw [hmem 0 2 (by decide), hmem 2 2 (by decide), hmem 4 4 (by decide), hmem 8 2 (by decide),
    hmem 10 2 (by decide), hmem 12 4 (by decide), hmem 16 32 (by decide), hbody, hqe,
    hread sd.quoteSignature (by simp), hread sd.publicKey (by simp), hread sd.reportSignature (by simp),
    hread sd.authData (by simp)]

theorem SameUsed.verifyRun_eq {a b : Attestation} (h : SameUsed a.evidence b.evidence)
    {sd : SignatureData} (hparse : Parses ssl host a.evidence sd)
    (hendorsements : b.endorsements = a.endorsements) (options : Options)
    (httpResponses : Option HTTPResponses) :
    verifyRun ssl host b options httpResponses = verifyRun ssl host a options httpResponses := by
  have hparsed := h.parses hparse
  have hplaced := SignatureData.parse_ok ssl _ _ _ hparse.signatureData
  obtain ⟨hused, -⟩ := hparse.used
  have hreport : readReportBody (mem b.evidence host.beyond) sd.report.off =
      readReportBody (mem a.evidence host.beyond) sd.report.off := by
    rw [hplaced.report]
    exact (h.agree host.beyond).readReportBody_eq (by dsimp only; omega) (Or.inr (by decide))
  simp only [verifyRun, partialVerifyRun, usedCollateral, makeClaimsWith, hendorsements,
    hparse.quote, hparse.signatureData, hparsed.quote, hparsed.signatureData, ok_bind,
    h.verifyQuote_eq hparse, h.makeClaims_eq hparse, hreport]

/-- Where one is verified the other is, with the same claims. -/
theorem SameUsed.verify_eq {a b : Attestation} (h : SameUsed a.evidence b.evidence)
    {sd : SignatureData} (hparse : Parses ssl host a.evidence sd)
    (hendorsements : b.endorsements = a.endorsements) (options : Options)
    (httpResponses : Option HTTPResponses) :
    verify ssl host b options httpResponses = verify ssl host a options httpResponses := by
  rw [verify, verify, h.verifyRun_eq hparse hendorsements]

/-- It asks for the same collateral. -/
theorem SameUsed.prepareEndorsements_eq {a b : Attestation} (h : SameUsed a.evidence b.evidence)
    {sd : SignatureData} (hparse : Parses ssl host a.evidence sd)
    (hendorsements : b.endorsements = a.endorsements) (options : Options) :
    prepareEndorsements ssl host b options = prepareEndorsements ssl host a options := by
  have hparsed := h.parses hparse
  simp only [prepareEndorsements, hendorsements, hparse.quote, hparse.signatureData, hparsed.quote,
    hparsed.signatureData, ok_bind]

theorem parses_of_verify {a : Attestation} {options : Options} {httpResponses : Option HTTPResponses}
    {claims : Claims} (h : verify ssl host a options httpResponses = .ok claims) :
    ∃ sd, Parses ssl host a.evidence sd := by
  simp only [verify, bind_ok, pure_ok] at h
  obtain ⟨r, hr, -⟩ := h
  cases hmode : options.isPartial with
  | true =>
    obtain ⟨run⟩ := verifyRun_partial ssl host a options httpResponses r hmode hr
    obtain ⟨hquote, -⟩ := parseQuote_ok _ _ _ run.parsed
    exact ⟨run.sd, hquote ▸ run.parsed, run.signatureData⟩
  | false =>
    obtain ⟨run⟩ := verifyRun_full ssl host a options httpResponses r hmode hr
    obtain ⟨hquote, -⟩ := parseQuote_ok _ _ _ run.parsed
    exact ⟨run.sd, hquote ▸ run.parsed, run.signatureData⟩

/-- Any other `signature_len` that stays inside, and anything behind the evidence. -/
theorem Parses.sameUsed_patched {e : Bytes} {sd : SignatureData} (h : Parses ssl host e sd)
    (new tail : Bytes) (hnew : new.length = 4) (hlen : 436 + leVal new ≤ e.length + tail.length) :
    SameUsed e (patch e 432 new ++ tail) := by
  obtain ⟨hused, hin⟩ := h.used
  have hpatch : (patch e 432 new).length = e.length := patch_length e new 432
  have hsize : signatureLenOf (patch e 432 new ++ tail) = leVal new := by
    have hcut := sub_take (patch e 432 new ++ tail) e.length 432 4 (by omega)
    rw [← hpatch, List.take_left] at hcut
    rw [signatureLenOf, ← hcut, ← hnew, sub_patch_same e new 432 (by omega)]
  refine ⟨fun i hi haside => ?_, ?_, ?_⟩
  · rw [List.getElem?_append_left (by omega), patch_getElem?_old e new 432 i (by omega)]
  · rw [List.length_append]
    omega
  · rw [hsize, List.length_append]
    omega

end

end Ravl.Sgx
