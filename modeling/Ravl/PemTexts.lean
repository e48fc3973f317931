import Ravl.Crypto

/-!
# Certificates in a text (crypto.h:234-281)

`extract_pem_certificate` cuts the first certificate out of a shared view and moves the view to
the next BEGIN marker; `extract_pem_certificates` repeats that until the view is empty.
-/

namespace Ravl
open ByteLib FallibleLib SearchLib

/-- The loop of `extract_pem_certificates`, with the number of rounds it is given. -/
def extractPemRounds : ℕ → Bytes → Result (List Bytes)
  | _, [] => pure []
  | 0, _ => throw (.undefined "endless loop")
  | rounds + 1, c :: data => do
    let r := extractPemCertificate (c :: data)
    let pems ← extractPemRounds rounds r.2
    pure (if r.1 = [] then pems else r.1 :: pems)

theorem extractPemRounds_nil (rounds : ℕ) : extractPemRounds rounds [] = .ok [] := by
  cases rounds <;> rfl

/-! ### Every round shortens the view -/

theorem extractPemCertificate_shortens (c : Byte) (data : Bytes) :
    (extractPemCertificate (c :: data)).2.length < (c :: data).length := by
  unfold extractPemCertificate
  split
  · exact Nat.succ_pos _
  · split
    · exact Nat.succ_pos _
    · next start stop hstop =>
      dsimp only
      split
      · exact Nat.succ_pos _
      · next next hnext =>
        -- the view moves on to a marker behind the one it was cut at
        obtain ⟨i, -, hi⟩ := Option.map_eq_some_iff.1 hnext
        have hend : pemEnd.length = 25 := by decide
        rw [List.length_drop, List.length_cons]
        omega

/-- The view's length bounds the number of rounds, so the loop of the model never stops early. -/
theorem extractPemRounds_enough (rounds : ℕ) (data : Bytes) (h : data.length ≤ rounds) :
    extractPemRounds rounds data = .ok (extractPemCertificatesLoop rounds data) := by
  induction rounds generalizing data with
  | zero =>
    rw [List.length_eq_zero_iff.1 (Nat.le_zero.1 h)]
    rfl
  | succ rounds ih =>
    rcases data with _ | ⟨c, data⟩
    · rfl
    have hshorter := extractPemCertificate_shortens c data
    have hrest := ih (extractPemCertificate (c :: data)).2 (by omega)
    rw [extractPemRounds, hrest, ok_bind, extractPemCertificatesLoop]
    rfl

/-! ### Marked certificates -/

def dash : Byte := byte '-'

def markedCertificate (body : Bytes) : Bytes := pemBegin ++ body ++ pemEnd

/-- Certificates, each with the text behind it -/
def markedText (blocks : List (Bytes × Bytes)) : Bytes :=
  blocks.flatMap fun b => markedCertificate b.1 ++ b.2

/-- Bodies and texts between the certificates without a dash -/
def DashFree (blocks : List (Bytes × Bytes)) : Prop := ∀ b ∈ blocks, dash ∉ b.1 ∧ dash ∉ b.2

theorem pemBegin_dash : ∃ pat, pemBegin = dash :: pat := ⟨_, rfl⟩
theorem pemEnd_dash : ∃ pat, pemEnd = dash :: pat := ⟨_, rfl⟩

theorem find_begin_skip (junk s : Bytes) (h : dash ∉ junk) :
    find pemBegin (junk ++ s) = (find pemBegin s).map (· + junk.length) := by
  obtain ⟨pat, hpat⟩ := pemBegin_dash
  rw [hpat]
  exact find_skip dash pat junk s h

theorem find_end_body (body s : Bytes) (h : dash ∉ body) :
    find pemEnd (body ++ (pemEnd ++ s)) = some body.length := by
  obtain ⟨pat, hpat⟩ := pemEnd_dash
  have hskip := find_skip dash pat body (pemEnd ++ s) h
  rw [← hpat, find_here, Option.map_some, Nat.zero_add] at hskip
  exact hskip

theorem markedText_cons (body junk : Bytes) (blocks : List (Bytes × Bytes)) :
    markedText ((body, junk) :: blocks) = markedCertificate body ++ (junk ++ markedText blocks) := by
  simp only [markedText, List.flatMap_cons, List.append_assoc]

theorem find_begin_markedText (blocks : List (Bytes × Bytes)) :
    find pemBegin (markedText blocks) = if blocks = [] then none else some 0 := by
  rcases blocks with _ | ⟨⟨body, junk⟩, blocks⟩
  · decide
  · rw [markedText_cons, markedCertificate, List.append_assoc, List.append_assoc, find_here,
      if_neg (List.cons_ne_nil _ _)]

theorem findFrom_append (pat u s : Bytes) (pos : ℕ) (h : u.length = pos) :
    findFrom pat (u ++ s) pos = (find pat s).map (· + pos) := by
  rw [findFrom, ← h, List.drop_left]

theorem extractPemCertificate_found (data : Bytes) (start stop : ℕ)
    (hstart : find pemBegin data = some start)
    (hstop : findFrom pemEnd data (start + pemBegin.length) = some stop) :
    extractPemCertificate data = (sub data start (stop + pemEnd.length - start),
      ((findFrom pemBegin data (stop + pemEnd.length)).map data.drop).getD []) := by
  simp only [extractPemCertificate, hstart, hstop]
  cases findFrom pemBegin data (stop + pemEnd.length) <;> rfl

/-- The view behind a certificate: nothing, or the text from the next certificate on -/
theorem extractPemCertificate_marked (before body junk : Bytes) (blocks : List (Bytes × Bytes))
    (hbefore : dash ∉ before) (hbody : dash ∉ body) (hjunk : dash ∉ junk) :
    extractPemCertificate (before ++ markedText ((body, junk) :: blocks)) =
      (markedCertificate body, markedText blocks) := by
  obtain ⟨data, hdata⟩ : ∃ data, data = before ++ markedText ((body, junk) :: blocks) := ⟨_, rfl⟩
  obtain ⟨stop, hstop⟩ : ∃ stop,
      stop = body.length + (before.length + pemBegin.length) + pemEnd.length := ⟨_, rfl⟩
  have hfirst : find pemBegin data = some before.length := by
    rw [hdata, find_begin_skip before _ hbefore, find_begin_markedText,
      if_neg (List.cons_ne_nil _ _), Option.map_some, Nat.zero_add]
  rw [markedText_cons] at hdata
  have hlast : findFrom pemEnd data (before.length + pemBegin.length) =
      some (body.length + (before.length + pemBegin.length)) := by
    have hsplit : data = (before ++ pemBegin) ++ (body ++ (pemEnd ++ (junk ++ markedText blocks))) := by
      rw [hdata]
      simp only [markedCertificate, List.append_assoc]
    rw [hsplit, findFrom_append _ _ _ _ List.length_append, find_end_body _ _ hbody, Option.map_some]
  have hlen : (before ++ markedCertificate body).length = stop := by
    simp only [markedCertificate, List.length_append, hstop]
    omega
  have hnext : findFrom pemBegin data stop =
      if blocks = [] then none else some (junk.length + stop) := by
    rw [hdata, ← List.append_assoc, findFrom_append _ _ _ _ hlen, find_begin_skip _ _ hjunk,
      find_begin_markedText]
    by_cases hblocks : blocks = []
    · rw [if_pos hblocks, if_pos hblocks]
      rfl
    · rw [if_neg hblocks, if_neg hblocks, Option.map_some, Option.map_some, Nat.zero_add]
  have hpem : sub data before.length (stop - before.length) = markedCertificate body := by
    rw [hdata, ← List.append_assoc]
    refine sub_middle before _ _ _ _ rfl ?_
    rw [List.length_append] at hlen
    omega
  have hrest : data.drop (junk.length + stop) = markedText blocks := by
    have hfront : (before ++ markedCertificate body ++ junk).length = junk.length + stop := by
      rw [List.length_append, hlen, Nat.add_comm]
    rw [hdata, ← List.append_assoc, ← List.append_assoc, ← hfront, List.drop_left]
  rw [markedText_cons, ← hdata, extractPemCertificate_found data _ _ hfirst hlast, ← hstop, hnext, hpem]
  by_cases hblocks : blocks = []
  · rw [if_pos hblocks, hblocks]
    rfl
  · rw [if_neg hblocks, Option.map_some, Option.getD_some, hrest]

theorem markedCertificate_ne (body : Bytes) : markedCertificate body ≠ [] := by
  obtain ⟨pat, hpat⟩ := pemBegin_dash
  rw [markedCertificate, hpat]
  exact List.cons_ne_nil _ _

theorem extractPemRounds_none (rounds : ℕ) (data : Bytes) (hnone : find pemBegin data = none)
    (h : data.length ≤ rounds) : extractPemRounds rounds data = .ok [] := by
  rcases data with _ | ⟨c, data⟩
  · exact extractPemRounds_nil rounds
  rcases rounds with _ | rounds
  · exact absurd h (Nat.not_succ_le_zero _)
  have hempty : extractPemCertificate (c :: data) = ([], []) := by
    rw [extractPemCertificate, hnone]
  rw [extractPemRounds, hempty, extractPemRounds_nil]
  rfl

theorem extractPemRounds_found (rounds : ℕ) (data pem rest : Bytes) (pems : List Bytes)
    (hne : data ≠ []) (hcut : extractPemCertificate data = (pem, rest)) (hpem : pem ≠ [])
    (hrest : extractPemRounds rounds rest = .ok pems) :
    extractPemRounds (rounds + 1) data = .ok (pem :: pems) := by
  obtain ⟨c, data, rfl⟩ := List.exists_cons_of_ne_nil hne
  rw [extractPemRounds, hcut, hrest, ok_bind, if_neg hpem]
  rfl

/-- By induction on the certificates: a round takes one of them out. -/
theorem extractPemRounds_marked (rounds : ℕ) (before : Bytes) (blocks : List (Bytes × Bytes))
    (hbefore : dash ∉ before) (hblocks : DashFree blocks)
    (h : (before ++ markedText blocks).length ≤ rounds) :
    extractPemRounds rounds (before ++ markedText blocks) =
      .ok (blocks.map fun b => markedCertificate b.1) := by
  induction blocks generalizing rounds before with
  | nil =>
    refine extractPemRounds_none rounds _ ?_ h
    rw [find_begin_skip _ _ hbefore, find_begin_markedText]
    rfl
  | cons b blocks ih =>
    obtain ⟨hbody, hjunk⟩ := hblocks b (List.mem_cons_self ..)
    have hpem := markedCertificate_ne b.1
    have hlen : (markedText blocks).length + (markedCertificate b.1).length ≤
        (before ++ markedText (b :: blocks)).length := by
      rw [markedText_cons]
      simp only [List.length_append]
      omega
    have hpos := List.length_pos_of_ne_nil hpem
    have hne : before ++ markedText (b :: blocks) ≠ [] := by
      apply List.ne_nil_of_length_pos
      omega
    obtain ⟨rounds, rfl⟩ := Nat.exists_eq_add_one_of_ne_zero (n := rounds) (by omega)
    exact extractPemRounds_found rounds _ _ _ _ hne
      (extractPemCertificate_marked before b.1 b.2 blocks hbefore hbody hjunk) hpem
      (ih rounds [] List.not_mem_nil (fun b hb => hblocks b (List.mem_cons_of_mem _ hb)) (by
        rw [List.nil_append]
        omega))

/-- Every byte string is worked off; between texts without a dash the marked certificates are
found in their order, each of them once. -/
theorem extractPemCertificates_correct :
    (∀ data, extractPemRounds data.length data = .ok (extractPemCertificates data)) ∧
      ∀ before blocks, dash ∉ before → DashFree blocks →
        extractPemCertificates (before ++ markedText blocks) =
          blocks.map fun b => markedCertificate b.1 := by
  have hterminates (data : Bytes) := extractPemRounds_enough data.length data (Nat.le_refl _)
  refine ⟨hterminates, fun before blocks hbefore hblocks => ?_⟩
  have hfound := extractPemRounds_marked _ before blocks hbefore hblocks (Nat.le_refl _)
  rw [hterminates] at hfound
  exact Except.ok.inj hfound

theorem extractPemCertificates_correct_chain :
    extractPemCertificates (text "junk" ++ markedText [(text "leaf", text "\n"), (text "root", [])]) =
      [markedCertificate (text "leaf"), markedCertificate (text "root")] :=
  extractPemCertificates_correct.2 (text "junk") [(text "leaf", text "\n"), (text "root", [])]
    (by decide) (by unfold DashFree; decide)

end Ravl
