import Ravl.Lib.JsonText

/-!
# Where the members of a document stand

Every parser of `JsonText` leaves a suffix of its input, so a member's key, its
value and what follows it stand in the document one behind the other, and
before the key there is the opening brace or a comma. From that: an opening
brace and a key's text directly before a top-level value can only be the
beginning of the document.
-/

namespace JsonText
open ByteLib

/-- A parser leaves a part of its input. -/
def Leaves {α : Type} (parser : Bytes → Option (α × Bytes)) : Prop :=
  ∀ s a rest, parser s = some (a, rest) → rest <:+ s

theorem expect_suffix (c : Byte) (s t : Bytes) (h : expect c (skipWs s) = some t) : t <:+ s := by
  rw [expect_some] at h
  have hs : c :: t <:+ s := h ▸ skipWs_suffix s
  exact (List.suffix_cons c t).trans hs

theorem stringLiteral_leaves : Leaves stringLiteral := by
  intro s value rest h
  obtain ⟨body, rfl, -⟩ := stringLiteral_split s value rest h
  exact ⟨quote :: (body ++ [quote]), by simp⟩

section Positions
variable (isFinite : Bytes → Bool) (fuel : ℕ)

theorem parseValue_leaves (ho : Leaves (parseObject isFinite fuel))
    (ha : Leaves (parseArray isFinite fuel)) : Leaves (parseValue isFinite (fuel + 1)) := by
  intro s value rest h
  cases s with
  | nil => simp [parseValue] at h
  | cons c s =>
    have hc := List.suffix_cons c s
    simp only [parseValue] at h
    split at h
    · obtain ⟨⟨ms, r⟩, hm, he⟩ := Option.map_eq_some_iff.1 h
      cases he
      exact (ho _ _ _ hm).trans hc
    split at h
    · obtain ⟨⟨xs, r⟩, hx, he⟩ := Option.map_eq_some_iff.1 h
      cases he
      exact (ha _ _ _ hx).trans hc
    split at h
    · obtain ⟨⟨t, r⟩, ht, he⟩ := Option.map_eq_some_iff.1 h
      cases he
      exact stringLiteral_leaves _ _ _ ht
    split at h
    · cases h
      exact (List.drop_suffix _ _).trans hc
    split at h
    · cases h
      exact (List.drop_suffix _ _).trans hc
    split at h
    · cases h
      exact (List.drop_suffix _ _).trans hc
    · exact number_suffix _ _ _ _ h

theorem parseObject_leaves (hm : Leaves (parseMembers isFinite fuel)) :
    Leaves (parseObject isFinite (fuel + 1)) := by
  intro s ms rest h
  simp only [parseObject] at h
  split at h
  next t he =>
    cases h
    exact expect_suffix _ _ _ he
  next => exact (hm _ _ _ h).trans (skipWs_suffix s)

theorem parseMembers_leaves (hv : Leaves (parseValue isFinite fuel))
    (hm : Leaves (parseMembers isFinite fuel)) : Leaves (parseMembers isFinite (fuel + 1)) := by
  intro s ms rest h
  simp only [parseMembers, Option.bind_eq_bind, Option.bind_eq_some_iff] at h
  obtain ⟨⟨key, s₁⟩, hk, s₂, hc, ⟨value, r⟩, hval, h⟩ := h
  have hr : r <:+ s := (hv _ _ _ hval).trans ((skipWs_suffix s₂).trans
    ((expect_suffix _ _ _ hc).trans (stringLiteral_leaves _ _ _ hk)))
  split at h
  next t he =>
    obtain ⟨⟨ms', r'⟩, hms, heq⟩ := Option.map_eq_some_iff.1 h
    cases heq
    exact (hm _ _ _ hms).trans ((skipWs_suffix t).trans ((expect_suffix _ _ _ he).trans hr))
  next =>
    obtain ⟨t, ht, heq⟩ := Option.map_eq_some_iff.1 h
    cases heq
    exact (expect_suffix _ _ _ ht).trans hr

theorem parseArray_leaves (he : Leaves (parseElements isFinite fuel)) :
    Leaves (parseArray isFinite (fuel + 1)) := by
  intro s xs rest h
  simp only [parseArray] at h
  split at h
  next t ht =>
    cases h
    exact expect_suffix _ _ _ ht
  next => exact (he _ _ _ h).trans (skipWs_suffix s)

theorem parseElements_leaves (hv : Leaves (parseValue isFinite fuel))
    (hx : Leaves (parseElements isFinite fuel)) : Leaves (parseElements isFinite (fuel + 1)) := by
  intro s xs rest h
  simp only [parseElements, Option.bind_eq_bind, Option.bind_eq_some_iff] at h
  obtain ⟨⟨value, r⟩, hval, h⟩ := h
  have hr : r <:+ s := hv _ _ _ hval
  split at h
  next t he =>
    obtain ⟨⟨xs', r'⟩, hxs, heq⟩ := Option.map_eq_some_iff.1 h
    cases heq
    exact (hx _ _ _ hxs).trans ((skipWs_suffix t).trans ((expect_suffix _ _ _ he).trans hr))
  next =>
    obtain ⟨t, ht, heq⟩ := Option.map_eq_some_iff.1 h
    cases heq
    exact (expect_suffix _ _ _ ht).trans hr

theorem parsers_leave :
    Leaves (parseValue isFinite fuel) ∧ Leaves (parseObject isFinite fuel) ∧
      Leaves (parseMembers isFinite fuel) ∧ Leaves (parseArray isFinite fuel) ∧
      Leaves (parseElements isFinite fuel) := by
  induction fuel with
  | zero =>
    refine ⟨?_, ?_, ?_, ?_, ?_⟩ <;> intro s a rest h
    · simp [parseValue] at h
    · simp [parseObject] at h
    · simp [parseMembers] at h
    · simp [parseArray] at h
    · simp [parseElements] at h
  | succ fuel ih =>
    obtain ⟨hv, ho, hm, ha, he⟩ := ih
    exact ⟨parseValue_leaves _ _ ho ha, parseObject_leaves _ _ hm, parseMembers_leaves _ _ hv hm,
      parseArray_leaves _ _ he, parseElements_leaves _ _ hv he⟩

end Positions

def Blank (ws : Bytes) : Prop := ∀ c ∈ ws, isWs c = true

/-- The key, the colon and the value stand one after another, white space between them. -/
def Member.Stands (m : Member) : Prop :=
  (∃ body ws₁ ws₂, m.atKey = quote :: (body ++ quote :: (ws₁ ++ colon :: (ws₂ ++ m.atValue))) ∧
    Escaped body ∧ Blank ws₁ ∧ Blank ws₂) ∧ m.rest <:+ m.atValue

/-- Before a member of the list that starts at `s` stands either nothing or a comma. -/
def Member.Follows (m : Member) (s : Bytes) : Prop :=
  m.atKey = s ∨ ∃ lead ws, s = lead ++ comma :: (ws ++ m.atKey) ∧ Blank ws

theorem parseMembers_stand (isFinite : Bytes → Bool) (fuel : ℕ) (s rest : Bytes)
    (ms : List Member) (h : parseMembers isFinite fuel s = some (ms, rest)) :
    ∀ m ∈ ms, m.Stands ∧ m.Follows s := by
  induction fuel generalizing s ms with
  | zero => simp [parseMembers] at h
  | succ fuel ih =>
    simp only [parseMembers, Option.bind_eq_bind, Option.bind_eq_some_iff] at h
    obtain ⟨⟨key, s₁⟩, hk, s₂, hc, ⟨value, r⟩, hval, h⟩ := h
    obtain ⟨body, hbody, hesc⟩ := stringLiteral_split s key s₁ hk
    obtain ⟨ws₁, h₁, hws₁⟩ := skipWs_split s₁
    obtain ⟨ws₂, h₂, hws₂⟩ := skipWs_split s₂
    have hcolon := (expect_some _ _ _).1 hc
    have hr := (parsers_leave isFinite fuel).1 _ _ _ hval
    have hfirst : (⟨key, value, s, skipWs s₂, r⟩ : Member).Stands := by
      refine ⟨⟨body, ws₁, ws₂, ?_, hesc, hws₁, hws₂⟩, hr⟩
      show s = _
      rw [hbody, ← h₂, ← hcolon, ← h₁]
    split at h
    next t he =>
      obtain ⟨⟨ms', r'⟩, hms, heq⟩ := Option.map_eq_some_iff.1 h
      cases heq
      intro m hm
      rcases List.mem_cons.1 hm with rfl | hm
      · exact ⟨hfirst, Or.inl rfl⟩
      · obtain ⟨hst, hfo⟩ := ih _ _ hms m hm
        refine ⟨hst, Or.inr ?_⟩
        -- the list behind the comma is a part of `s`, which starts with `pre` and the comma
        obtain ⟨ws, hwt, hws⟩ := skipWs_split t
        obtain ⟨wr, hwr, -⟩ := skipWs_split r
        rw [(expect_some _ _ _).1 he] at hwr
        have hrs : r <:+ s := hr.trans ((skipWs_suffix s₂).trans
          ((expect_suffix _ _ _ hc).trans (stringLiteral_leaves _ _ _ hk)))
        obtain ⟨pre, hpre⟩ := hrs
        rcases hfo with hkey | ⟨lead, ws', hlead, hws'⟩
        · refine ⟨pre ++ wr, ws, ?_, hws⟩
          rw [hkey, ← hwt, ← hpre, hwr, List.append_assoc]
        · refine ⟨pre ++ wr ++ comma :: (ws ++ lead), ws', ?_, hws'⟩
          rw [← hpre, hwr, hwt, hlead]
          simp
    next =>
      obtain ⟨t, -, heq⟩ := Option.map_eq_some_iff.1 h
      cases heq
      intro m hm
      rw [List.mem_singleton] at hm
      subst hm
      exact ⟨hfirst, Or.inl rfl⟩

/-- What may stand before a document: a byte order mark and white space. -/
def Opening (blank : Bytes) : Prop :=
  ∃ ws, (blank = ws ∨ blank = byteOrderMark ++ ws) ∧ Blank ws

theorem dropBom_split (s : Bytes) : s = dropBom s ∨ s = byteOrderMark ++ dropBom s := by
  unfold dropBom
  split
  next h =>
    obtain ⟨t, ht⟩ := h
    right
    rw [← ht]
    rfl
  next => exact Or.inl rfl

theorem opening_split (s : Bytes) :
    ∃ blank, s = blank ++ skipWs (dropBom s) ∧ Opening blank := by
  obtain ⟨ws, hws, hblank⟩ := skipWs_split (dropBom s)
  rcases dropBom_split s with h | h
  · exact ⟨ws, h.trans hws, ws, Or.inl rfl, hblank⟩
  · refine ⟨byteOrderMark ++ ws, ?_, ws, Or.inr rfl, hblank⟩
    rw [List.append_assoc, ← hws]
    exact h

/-- What stands before a top-level member: the opening brace or a comma, then white space. -/
def Preceded (before : Bytes) : Prop :=
  ∃ lead c ws, before = lead ++ c :: ws ∧ Blank ws ∧ (c = comma ∨ c = openBrace ∧ Opening lead)

theorem members_stand (isFinite : Bytes → Bool) (s : Bytes) (m : Member)
    (hm : m ∈ members isFinite s) :
    m.Stands ∧ ∃ before, s = before ++ m.atKey ∧ Preceded before := by
  unfold members at hm
  cases hd : document isFinite s with
  | none => simp [hd] at hm
  | some d =>
    simp only [hd, Option.map_some, Option.getD_some] at hm
    unfold document at hd
    obtain ⟨blank, hblank, hopen⟩ := opening_split s
    dsimp only at hd
    split at hd
    next t ht =>
      rw [expect_some] at ht
      simp only [Option.bind_eq_bind, Option.bind_eq_some_iff] at hd
      obtain ⟨⟨ms, rest⟩, hobj, hd⟩ := hd
      split at hd
      · cases hd
        unfold fuelFor at hobj
        simp only [parseObject] at hobj
        split at hobj
        · cases hobj
          cases hm
        · obtain ⟨hst, hfo⟩ := parseMembers_stand _ _ _ _ _ hobj m hm
          refine ⟨hst, ?_⟩
          obtain ⟨ws, hws, hb⟩ := skipWs_split t
          rcases hfo with hkey | ⟨lead, ws', hlead, hb'⟩
          · refine ⟨blank ++ openBrace :: ws, ?_, blank, openBrace, ws, rfl, hb, Or.inr ⟨rfl, hopen⟩⟩
            rw [hblank, ht, hws, hkey]
            simp
          · refine ⟨blank ++ openBrace :: (ws ++ lead) ++ comma :: ws', ?_,
              blank ++ openBrace :: (ws ++ lead), comma, ws', rfl, hb', Or.inl rfl⟩
            rw [hblank, ht, hws, hlead]
            simp
      · cases hd
    next =>
      simp only [Option.bind_eq_bind, Option.bind_eq_some_iff] at hd
      obtain ⟨⟨value, rest⟩, -, hd⟩ := hd
      split at hd
      · cases hd
        cases hm
      · cases hd

/-! ### A document that opens with one member -/

theorem end_inj (x y : Bytes) (a b : Byte) (h : x ++ [a] = y ++ [b]) : x = y ∧ a = b :=
  ⟨List.append_inj_left' h rfl, List.singleton_injective (List.append_inj_right' h rfl)⟩

theorem blank_end (x y ws : Bytes) (c : Byte) (h : x ++ ws = y ++ [c]) (hws : Blank ws)
    (hc : isWs c = false) : ws = [] ∧ x = y ++ [c] := by
  rcases ws.eq_nil_or_concat with rfl | ⟨ws', d, rfl⟩
  · exact ⟨rfl, by simpa using h⟩
  · rw [List.concat_eq_append, ← List.append_assoc] at h
    have hd := (end_inj _ _ _ _ h).2
    have hw := hws d (by simp)
    rw [hd, hc] at hw
    cases hw

/-- A quote that follows anything but a backslash does not stand inside a literal. -/
theorem not_inside (x u body key e : Bytes) (hesc : Escaped body)
    (he : u ++ [openBrace, quote] = x ++ [quote] ++ e) (hb : body = e ++ key) : e = [] := by
  rcases e.eq_nil_or_concat with rfl | ⟨e, d, rfl⟩
  · rfl
  rw [List.concat_eq_append] at he hb
  have hlast : (u ++ [openBrace]) ++ [quote] = (x ++ [quote] ++ e) ++ [d] := by simpa using he
  obtain ⟨hfront, hd⟩ := end_inj _ _ _ _ hlast
  have hq : body[e.length]? = some quote := by
    rw [hb, hd]
    simp
  obtain ⟨j, hj, hbs⟩ := hesc _ hq
  rcases e.eq_nil_or_concat with rfl | ⟨e, b, rfl⟩
  · cases hj
  rw [List.concat_eq_append] at hb hj hfront
  have hlast' : u ++ [openBrace] = (x ++ [quote] ++ e) ++ [b] := by simpa using hfront
  have hbo : openBrace = b := (end_inj _ _ _ _ hlast').2
  have hlen : j = e.length := by simpa using hj.symm
  have hbrace : body[j]? = some openBrace := by
    rw [hb, hlen, ← hbo]
    simp
  rw [hbrace] at hbs
  exact absurd (Option.some.inj hbs) (by decide)

theorem literal_opens (x u body key : Bytes) (hesc : Escaped body) (hkey : quote ∉ key)
    (h : (x ++ [quote]) ++ body = (u ++ [openBrace, quote]) ++ key) : x = u ++ [openBrace] := by
  rcases List.append_eq_append_iff.1 h with ⟨e, he, hb⟩ | ⟨e, he, hk⟩
  · rw [not_inside x u body key e hesc he hb, List.append_nil] at he
    have hq : (u ++ [openBrace]) ++ [quote] = x ++ [quote] := by simpa using he
    exact (end_inj _ _ _ _ hq).1.symm
  · rcases e.eq_nil_or_concat with rfl | ⟨e, d, rfl⟩
    · have hq : x ++ [quote] = (u ++ [openBrace]) ++ [quote] := by simpa using he
      exact (end_inj _ _ _ _ hq).1
    · rw [List.concat_eq_append] at he hk
      have hq : x ++ [quote] = (u ++ [openBrace, quote] ++ e) ++ [d] := by simpa using he
      have hd := (end_inj _ _ _ _ hq).2
      exact absurd (by rw [hk, ← hd]; simp) hkey

/-- If an opening brace, a key's text and a colon stand directly before the value of a
top-level member, then the document opens with them. -/
theorem opens_with (isFinite : Bytes → Bool) (s key u : Bytes) (m : Member)
    (hm : m ∈ members isFinite s) (hkey : quote ∉ key)
    (h : s = u ++ (openBrace :: quote :: key ++ [quote, colon]) ++ m.atValue) : Opening u := by
  obtain ⟨⟨⟨body, ws₁, ws₂, hat, hesc, hws₁, hws₂⟩, -⟩, before, hbefore, lead, c, ws, rfl, hws, hc⟩ :=
    members_stand isFinite s m hm
  have htext : (lead ++ c :: ws ++ quote :: body ++ quote :: ws₁ ++ [colon]) ++ ws₂ =
      (u ++ openBrace :: quote :: key ++ [quote]) ++ [colon] := by
    apply (List.append_left_inj m.atValue).1
    rw [hbefore, hat] at h
    simpa using h
  obtain ⟨-, htext⟩ := blank_end _ _ _ _ htext hws₂ (by decide)
  have htext : (lead ++ c :: ws ++ quote :: body ++ [quote]) ++ ws₁ =
      (u ++ openBrace :: quote :: key) ++ [quote] := by
    apply (List.append_left_inj [colon]).1
    simpa using htext
  obtain ⟨-, htext⟩ := blank_end _ _ _ _ htext hws₁ (by decide)
  have htext : (lead ++ c :: ws ++ [quote]) ++ body = (u ++ [openBrace, quote]) ++ key := by
    apply (List.append_left_inj [quote]).1
    simpa using htext
  have hstart : (lead ++ [c]) ++ ws = u ++ [openBrace] := by
    simpa using literal_opens _ _ _ _ hesc hkey htext
  obtain ⟨-, hstart⟩ := blank_end _ _ _ _ hstart hws (by decide)
  obtain ⟨hlead, hce⟩ := end_inj _ _ _ _ hstart
  rcases hc with hcomma | ⟨-, hopen⟩
  · rw [hcomma] at hce
    exact absurd hce (by decide)
  · rwa [← hlead]

theorem Opening.no_brace (u : Bytes) (h : Opening u) : openBrace ∉ u := by
  obtain ⟨ws, hu, hws⟩ := h
  have hblank : openBrace ∉ ws := by
    intro hmem
    have hb := hws _ hmem
    revert hb
    decide
  rcases hu with rfl | rfl
  · exact hblank
  · rw [List.mem_append]
    intro hor
    obtain hbom | hmem := hor
    · revert hbom
      decide
    · exact hblank hmem

/-- Where a member's value begins and ends in the document `s`. -/
def Member.start (m : Member) (s : Bytes) : ℕ := s.length - m.atValue.length
def Member.stop (m : Member) (s : Bytes) : ℕ := s.length - m.rest.length

theorem members_suffixes (isFinite : Bytes → Bool) (s : Bytes) (m : Member)
    (hm : m ∈ members isFinite s) : m.rest <:+ m.atValue ∧ m.atValue <:+ s := by
  obtain ⟨⟨⟨body, ws₁, ws₂, hat, -⟩, hrest⟩, before, hbefore, -⟩ := members_stand isFinite s m hm
  refine ⟨hrest, before ++ quote :: (body ++ quote :: (ws₁ ++ colon :: ws₂)), ?_⟩
  rw [hbefore, hat]
  simp

end JsonText
