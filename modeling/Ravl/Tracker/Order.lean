import Ravl.Tracker.Finality

/-!
# The order of `verify` and the delivery

`advance` moves a waiting request on without looking for responses: the second
call before the delivery verifies the attestation without them. One early call
does no harm, since the lambda's first call then verifies with the responses it
has just stored. The two are told apart by counting, in the history of a request
that had something to download, the public calls before the client's answer.
-/

namespace Ravl.Tracker
open ByteLib FallibleLib TransitionLib

section
variable {Claims : Type}

/-! ### Counting early calls -/

def Event.isAnswer : Event Claims → Bool
  | .delivered _ => true
  | .clientThrew => true
  | _ => false

/-- The HTTP client has delivered the responses, or its `submit` has thrown. -/
def answered (h : List (Event Claims)) : Bool := h.any Event.isAnswer

/-- How many public calls of `advance` came before the client's answer. -/
def earlyAdvances : List (Event Claims) → ℕ
  | [] => 0
  | .advanced :: older => earlyAdvances older + if answered older then 0 else 1
  | _ :: older => earlyAdvances older

/-- Every call of `verify` came after the delivery and got the responses delivered. -/
def VerifiedDelivered (h : List (Event Claims)) : Prop :=
  ∀ responses claims older, .verified responses claims :: older <:+ h →
    deliveredIn older = some responses

/-- The history, with the call of `verify` that ended in undefined behaviour, if there is one. -/
def Slot.calls (s : Slot Claims) : List (Event Claims) :=
  if s.fault = some .undefinedAttestation then .verified (s.responses.getD []) none :: s.history
  else s.history

theorem Slot.calls_eq (s : Slot Claims) (h : s.fault ≠ some .undefinedAttestation) :
    s.calls = s.history := if_neg h

theorem deliveredIn_ne_none (h : List (Event Claims)) :
    deliveredIn h ≠ none ↔ ∃ responses, .delivered responses ∈ h := by
  induction h with
  | nil => simp [deliveredIn]
  | cons e h ih =>
    cases e with
    | delivered responses => simp [deliveredIn]
    | _ => simpa [deliveredIn] using ih

theorem answered_iff (h : List (Event Claims)) :
    answered h = true ↔ deliveredIn h ≠ none ∨ .clientThrew ∈ h := by
  rw [deliveredIn_ne_none]
  unfold answered
  rw [List.any_eq_true]
  constructor
  · intro ⟨e, he, hanswer⟩
    cases e with
    | delivered responses => exact Or.inl ⟨responses, he⟩
    | clientThrew => exact Or.inr he
    | _ => cases hanswer
  · intro hsome
    rcases hsome with ⟨responses, he⟩ | he
    · exact ⟨_, he, rfl⟩
    · exact ⟨_, he, rfl⟩

theorem verifiedDelivered_cons (e : Event Claims) (h : List (Event Claims))
    (he : e.isVerified = false) : VerifiedDelivered (e :: h) ↔ VerifiedDelivered h := by
  constructor
  · intro hall responses claims older hs
    exact hall responses claims older (hs.trans (List.suffix_cons e h))
  · intro hall responses claims older hs
    rcases List.suffix_cons_iff.1 hs with heq | hs
    · cases heq
      cases he
    · exact hall responses claims older hs

theorem verifiedDelivered_verified (responses : HTTPResponses) (claims : Option Claims)
    (h : List (Event Claims)) : VerifiedDelivered (.verified responses claims :: h) ↔
      deliveredIn h = some responses ∧ VerifiedDelivered h := by
  constructor
  · intro hall
    exact ⟨hall _ _ _ List.suffix_rfl,
      fun rs cs older hs => hall rs cs older (hs.trans (List.suffix_cons _ h))⟩
  · intro ⟨hnow, hall⟩ rs cs older hs
    rcases List.suffix_cons_iff.1 hs with heq | hs
    · cases heq
      exact hnow
    · exact hall rs cs older hs

/-! ### What the order depends on -/

/-- Before the answer the state counts the calls; `verify` met the delivery if there was at most
one of them. -/
structure Ordered (request : Option (Request Claims)) (h : List (Event Claims)) : Prop where
  waiting : ∀ r, request = some r → answered h = false → earlyAdvances h ≤ 1 →
    r.state = if earlyAdvances h = 0 then .waitingForEndorsements else .haveEndorsements
  delivered : VerifiedDelivered h ↔ earlyAdvances h ≤ 1
  threw : .clientThrew ∈ h → stateOf request = .error

/-- The same while `advance` works on the record. -/
structure Advancing (r : Request Claims) (h : List (Event Claims)) : Prop where
  waiting : answered h = false → earlyAdvances h ≤ 1 →
    earlyAdvances h = 1 ∧ r.state = .waitingForEndorsements
  late : earlyAdvances h ≤ 1 → VerifiedDelivered h
  early : 2 ≤ earlyAdvances h →
    ¬ VerifiedDelivered h ∨ r.state = .haveEndorsements ∧ deliveredIn h = none
  ready : r.state = .haveEndorsements → earlyAdvances h ≤ 1 → deliveredIn h ≠ none
  threw : .clientThrew ∈ h → r.state = .error

/-- An event that does not bear on the order. -/
def Event.Silent : Event Claims → Prop
  | .calledBack => True
  | .callbackThrew => True
  | .erased => True
  | .notFound => True
  | _ => False

namespace Ordered
variable {request : Option (Request Claims)} {h : List (Event Claims)}

theorem silent (ho : Ordered request h) (e : Event Claims) (he : e.Silent) :
    Ordered request (e :: h) := by
  have hearly : earlyAdvances (e :: h) = earlyAdvances h := by
    cases e <;> first | rfl | exact absurd he id
  have hanswered : answered (e :: h) = answered h := by
    cases e <;> first | rfl | exact absurd he id
  have hverified : e.isVerified = false := by
    cases e <;> first | rfl | exact absurd he id
  refine ⟨?_, ?_, ?_⟩
  · rw [hearly, hanswered]
    exact ho.waiting
  · rw [hearly, verifiedDelivered_cons e h hverified]
    exact ho.delivered
  · intro hmem
    rcases List.mem_cons.1 hmem with rfl | hmem
    · exact absurd he id
    · exact ho.threw hmem

theorem gone (ho : Ordered request h) : Ordered none h :=
  ⟨fun _ hr => (by cases hr), ho.delivered, fun _ => rfl⟩

theorem replace {r r' : Request Claims} (ho : Ordered (some r) h) (hstate : r'.state = r.state) :
    Ordered (some r') h where
  waiting := by
    intro _ hr
    cases hr
    rw [hstate]
    exact ho.waiting r rfl
  delivered := ho.delivered
  threw := fun hmem => hstate.trans (ho.threw hmem)

/-- Once `verify` was called, the record does not count the calls any more. -/
theorem settled (ho : Ordered request h) (hcalls : verifyCalls h ≠ 0)
    (request' : Option (Request Claims)) (herror : stateOf request' = .error) :
    Ordered request' h where
  waiting := by
    intro r _ hanswered hle
    exfalso
    obtain ⟨e, he, hverified⟩ := List.countP_pos_iff.1 (Nat.pos_of_ne_zero hcalls)
    cases e with
    | verified responses claims =>
      obtain ⟨newer, older, rfl⟩ := List.append_of_mem he
      have hsome := ho.delivered.2 hle responses claims older (List.suffix_append _ _)
      obtain ⟨rs, hmem⟩ := (deliveredIn_ne_none older).1 (by rw [hsome]; simp)
      have hanswer : answered (newer ++ Event.verified responses claims :: older) = true := by
        refine (answered_iff _).2 (Or.inl ((deliveredIn_ne_none _).2 ⟨rs, ?_⟩))
        simp [hmem]
      rw [hanswer] at hanswered
      cases hanswered
    | _ => cases hverified
  delivered := ho.delivered
  threw := fun _ => herror

theorem deliver (ho : Ordered request h) (responses : HTTPResponses) :
    Ordered request (.delivered responses :: h) where
  waiting := fun _ _ hanswered => by cases hanswered
  delivered := (verifiedDelivered_cons _ h rfl).trans ho.delivered
  threw := by
    intro hmem
    rcases List.mem_cons.1 hmem with heq | hmem
    · cases heq
    · exact ho.threw hmem

theorem clientThrew (ho : Ordered request h) (request' : Option (Request Claims))
    (herror : stateOf request' = .error) : Ordered request' (.clientThrew :: h) where
  waiting := fun _ _ hanswered => by cases hanswered
  delivered := (verifiedDelivered_cons _ h rfl).trans ho.delivered
  threw := fun _ => herror

/-- The client has answered, so calls do not count any more. -/
theorem advancing {r : Request Claims} (ho : Ordered (some r) h) (hanswered : answered h = true) :
    Advancing r h where
  waiting := fun hnot => by rw [hanswered] at hnot; cases hnot
  late := ho.delivered.2
  early := fun hge => Or.inl fun hall => by
    have hle := ho.delivered.1 hall
    omega
  ready := by
    intro hstate _
    rcases (answered_iff h).1 hanswered with hdelivered | hthrew
    · exact hdelivered
    · have herror : r.state = .error := ho.threw hthrew
      rw [hstate] at herror
      cases herror
  threw := ho.threw

theorem advanced {r : Request Claims} (ho : Ordered (some r) h) : Advancing r (.advanced :: h) := by
  cases hanswered : answered h with
  | true =>
    have hearly : earlyAdvances (.advanced :: h) = earlyAdvances h := by
      simp [earlyAdvances, hanswered]
    have hadvancing := ho.advancing hanswered
    refine ⟨?_, ?_, ?_, ?_, ?_⟩
    · intro hnot
      have hnot' : answered h = false := hnot
      rw [hanswered] at hnot'
      cases hnot'
    · rw [hearly, verifiedDelivered_cons _ h rfl]
      exact hadvancing.late
    · rw [hearly, verifiedDelivered_cons _ h rfl]
      exact hadvancing.early
    · rw [hearly]
      exact hadvancing.ready
    · intro hmem
      exact ho.threw (List.mem_of_ne_of_mem (by simp) hmem)
  | false =>
    have hearly : earlyAdvances (.advanced :: h) = earlyAdvances h + 1 := by
      simp [earlyAdvances, hanswered]
    have hnone : deliveredIn h = none := by
      by_contra hne
      rw [(answered_iff h).2 (Or.inl hne)] at hanswered
      cases hanswered
    refine ⟨?_, ?_, ?_, ?_, ?_⟩
    · intro _ hle
      rw [hearly] at hle ⊢
      have hzero : earlyAdvances h = 0 := by omega
      have hstate := ho.waiting r rfl hanswered (by omega)
      rw [if_pos hzero] at hstate
      exact ⟨by omega, hstate⟩
    · intro hle
      rw [hearly] at hle
      exact (verifiedDelivered_cons _ h rfl).2 (ho.delivered.2 (by omega))
    · intro hge
      rw [hearly] at hge
      rw [verifiedDelivered_cons _ h rfl]
      by_cases hone : earlyAdvances h ≤ 1
      · right
        have hstate := ho.waiting r rfl hanswered hone
        rw [if_neg (by omega)] at hstate
        exact ⟨hstate, hnone⟩
      · exact Or.inl fun hall => hone (ho.delivered.1 hall)
    · intro hstate hle
      rw [hearly] at hle
      have hwaiting := ho.waiting r rfl hanswered (by omega)
      rw [if_pos (by omega), hstate] at hwaiting
      cases hwaiting
    · intro hmem
      exact ho.threw (List.mem_of_ne_of_mem (by simp) hmem)

end Ordered

namespace Advancing
variable {r : Request Claims} {h : List (Event Claims)}

theorem moved (ha : Advancing r h) (hne : r.state ≠ .haveEndorsements) (r' : Request Claims)
    (hwaiting : r.state = .waitingForEndorsements → r'.state = .haveEndorsements)
    (herror : r.state = .error → r'.state = .error) : Ordered (some r') h where
  waiting := by
    intro _ hr hanswered hle
    cases hr
    obtain ⟨hone, hstate⟩ := ha.waiting hanswered hle
    rw [if_neg (by omega)]
    exact hwaiting hstate
  delivered := by
    constructor
    · intro hall
      by_contra hge
      rcases ha.early (by omega) with hnot | ⟨hstate, -⟩
      · exact hnot hall
      · exact hne hstate
    · exact ha.late
  threw := fun hmem => herror (ha.threw hmem)

theorem verified (ha : Advancing r h) (hstate : r.state = .haveEndorsements)
    (responses : HTTPResponses) (hresponses : responses = (deliveredIn h).getD [])
    (claims : Option Claims) (r' : Request Claims) :
    Ordered (some r') (.verified responses claims :: h) where
  waiting := by
    intro _ _ hanswered hle
    obtain ⟨-, hwaiting⟩ := ha.waiting hanswered hle
    rw [hstate] at hwaiting
    cases hwaiting
  delivered := by
    rw [verifiedDelivered_verified]
    constructor
    · intro ⟨hnow, hall⟩
      by_contra hge
      have hearly : 2 ≤ earlyAdvances h := Nat.lt_of_not_le hge
      rcases ha.early hearly with hnot | ⟨-, hnone⟩
      · exact hnot hall
      · rw [hnone] at hnow
        cases hnow
    · intro hle
      obtain ⟨rs, hrs⟩ := Option.ne_none_iff_exists'.1 (ha.ready hstate hle)
      rw [hrs] at hresponses ⊢
      exact ⟨by rw [hresponses]; rfl, ha.late hle⟩
  threw := by
    intro hmem
    have herror := ha.threw (List.mem_of_ne_of_mem (by simp) hmem)
    rw [hstate] at herror
    cases herror

end Advancing

/-! ### The operations on the record -/

theorem Slot.verify_ordered (s : Slot Claims) (r : Request Claims) (caller : Caller)
    (hs : s.core.Sound) (hr : s.request = some r) (hfault : s.fault = none)
    (hattestation : r.attestation ≠ none) (hstate : r.state = .haveEndorsements)
    (ha : Advancing r s.history) :
    Ordered (s.verify r caller).request (s.verify r caller).calls := by
  have hread : s.responses = deliveredIn s.history :=
    hs.unread (hs.early r hr (by simp [hstate]) (by simp [hstate]))
  have hresponses : s.responses.getD [] = (deliveredIn s.history).getD [] := by rw [hread]
  have hverified := ha.verified hstate (s.responses.getD []) hresponses
  unfold Slot.verify
  split
  next hatt => exact absurd hatt hattestation
  next attestation _ =>
    dsimp only
    split
    next claims _ =>
      have hdone := hverified (some claims) { r with claims := some claims, state := .finished }
      split
      · rw [Slot.calls_eq _ (by simp [Slot.enter, Slot.note, Slot.setRequest, hfault])]
        exact hdone.silent .calledBack trivial
      · rw [Slot.calls_eq _ (by simp [Slot.back, Slot.note, Slot.setRequest, hfault])]
        exact hdone
    next =>
      rw [Slot.calls_eq _ (by simp [Slot.back, Slot.note, Slot.setRequest, hfault])]
      exact hverified none { r with state := .error }
    next =>
      have hcalls : (s.fail .undefinedAttestation).calls =
          .verified (s.responses.getD []) none :: s.history := if_pos rfl
      have hsame : (s.fail .undefinedAttestation).request = some r := hr
      rw [hcalls, hsame]
      exact hverified none r

theorem Slot.advance_ordered (s : Slot Claims) (r : Request Claims) (caller : Caller)
    (hs : s.core.Sound) (hr : s.request = some r) (hfault : s.fault = none)
    (hattestation : r.attestation ≠ none) (ha : Advancing r s.history) :
    Ordered (s.advance r caller).request (s.advance r caller).calls := by
  unfold Slot.advance
  split
  next hstate =>
    rw [Slot.calls_eq _ (by simp [Slot.back, Slot.setRequest, hfault])]
    exact ha.moved (by simp [hstate]) { r with state := .error } (by simp [hstate]) (fun _ => rfl)
  next hstate => exact absurd hstate (hs.begun r hr)
  next hstate =>
    rw [Slot.calls_eq _ (by simp [Slot.back, Slot.setRequest, hfault])]
    exact ha.moved (by simp [hstate]) { r with state := .haveEndorsements } (fun _ => rfl)
      (by simp [hstate])
  next hstate => exact s.verify_ordered r caller hs hr hfault hattestation hstate ha
  next hstate =>
    rw [Slot.calls_eq _ (by simp [Slot.back, hfault])]
    have hsame : (s.back caller).request = some r := hr
    rw [hsame]
    exact ha.moved (by simp [hstate]) r (by simp [hstate]) (by simp [hstate])

/-! ### Calls in progress -/

/-- What must have happened before this call: the lambda runs on a delivery, the completion
callback on a verification. -/
def Frame.Due : Frame → List (Event Claims) → Prop
  | .client, _ => True
  | .delivery _ _, h => deliveredIn h ≠ none
  | .callback .user, h => verifyCalls h ≠ 0
  | .callback (.lambda _ _), h => verifyCalls h ≠ 0 ∧ deliveredIn h ≠ none

theorem verifyCalls_ne_zero {h h' : List (Event Claims)} (hsuffix : h <:+ h')
    (hcalls : verifyCalls h ≠ 0) : verifyCalls h' ≠ 0 := by
  obtain ⟨e, he, hverified⟩ := List.countP_pos_iff.1 (Nat.pos_of_ne_zero hcalls)
  have hpos : 0 < verifyCalls h' := List.countP_pos_iff.2 ⟨e, hsuffix.mem he, hverified⟩
  omega

theorem deliveredIn_suffix {h h' : List (Event Claims)} (hsuffix : h <:+ h')
    (hdelivered : deliveredIn h ≠ none) : deliveredIn h' ≠ none := by
  obtain ⟨responses, hmem⟩ := (deliveredIn_ne_none h).1 hdelivered
  exact (deliveredIn_ne_none h').2 ⟨responses, hsuffix.mem hmem⟩

theorem Frame.Due.mono {f : Frame} {h h' : List (Event Claims)} (hdue : f.Due h)
    (hsuffix : h <:+ h') : f.Due h' := by
  cases f with
  | client => trivial
  | delivery left sync => exact deliveredIn_suffix hsuffix hdue
  | callback caller =>
    cases caller with
    | user => exact verifyCalls_ne_zero hsuffix hdue
    | lambda left sync =>
      exact ⟨verifyCalls_ne_zero hsuffix hdue.1, deliveredIn_suffix hsuffix hdue.2⟩

theorem Frame.Due.rest {caller : Caller} {h : List (Event Claims)}
    (hdue : (Frame.callback caller).Due h) : ∀ f ∈ caller.rest, f.Due h := by
  intro f hf
  cases caller with
  | user => cases hf
  | lambda left sync =>
    rw [List.mem_singleton.1 hf]
    exact hdue.2

theorem Frame.Due.called {caller : Caller} {h : List (Event Claims)}
    (hdue : (Frame.callback caller).Due h) : verifyCalls h ≠ 0 := by
  cases caller with
  | user => exact hdue
  | lambda left sync => exact hdue.1

def Slot.Due (s : Slot Claims) : Prop := ∀ f ∈ s.frames, f.Due s.history

theorem Slot.Due.leave {s : Slot Claims} (hs : s.Due) (f : Frame) : (s.leave f).Due :=
  fun f' hf => hs f' (List.mem_of_mem_erase hf)

theorem Slot.Due.grow {s t : Slot Claims} (hs : s.Due) (hhistory : s.history <:+ t.history)
    (hnew : ∀ f ∈ t.frames, f ∈ s.frames ∨ f.Due t.history) : t.Due := by
  intro f hf
  rcases hnew f hf with hold | hdue
  · exact (hs f hold).mono hhistory
  · exact hdue

theorem Slot.Due.back {s : Slot Claims} (hs : s.Due) (caller : Caller)
    (hcaller : ∀ f ∈ caller.rest, f.Due s.history) : (s.back caller).Due := by
  intro f hf
  rcases List.mem_append.1 hf with hnew | hold
  · exact hcaller f hnew
  · exact hs f hold

theorem Slot.catchException_frames (s : Slot Claims) : s.catchException.frames = s.frames := by
  unfold Slot.catchException
  split <;> rfl

theorem Slot.lambdaThrows_frames (s : Slot Claims) (isStd sync : Bool) :
    (s.lambdaThrows isStd sync).frames = s.frames := by
  unfold Slot.lambdaThrows
  split
  · exact s.catchException_frames
  · rfl

/-- `advance` comes back to its caller, or it is in the completion callback after `verify`. -/
theorem Slot.advance_frames (s : Slot Claims) (r : Request Claims) (caller : Caller)
    (hbegun : r.state ≠ .submitted) : ∀ f ∈ (s.advance r caller).frames,
      f ∈ s.frames ∨ f ∈ caller.rest ∨
        f = .callback caller ∧ verifyCalls (s.advance r caller).history ≠ 0 := by
  have hback (t : Slot Claims) (ht : t.frames = s.frames) (h : List (Event Claims)) :
      ∀ f ∈ (t.back caller).frames, f ∈ s.frames ∨ f ∈ caller.rest ∨
        f = .callback caller ∧ verifyCalls h ≠ 0 := by
    intro f hf
    rcases List.mem_append.1 hf with hnew | hold
    · exact Or.inr (Or.inl hnew)
    · exact Or.inl (ht ▸ hold)
  unfold Slot.advance
  split
  next => exact hback _ rfl _
  next hstate => exact absurd hstate hbegun
  next => exact hback _ rfl _
  next =>
    unfold Slot.verify
    split
    next => exact hback _ rfl _
    next =>
      dsimp only
      split
      next =>
        split
        · intro f hf
          rcases List.mem_cons.1 hf with heq | hold
          · right; right
            refine ⟨heq, ?_⟩
            simp [Slot.enter, Slot.note, verifyCalls, List.countP_cons, Event.isVerified]
          · exact Or.inl hold
        · exact hback _ rfl _
      next => exact hback _ rfl _
      next => exact fun f hf => Or.inl hf
  next => exact hback _ rfl _

theorem Slot.Due.advance {s : Slot Claims} (hs : s.Due) (r : Request Claims) (caller : Caller)
    (hbegun : r.state ≠ .submitted)
    (hcaller : caller = .user ∨ deliveredIn s.history ≠ none) : (s.advance r caller).Due := by
  have hhistory := s.advance_history r caller
  refine hs.grow hhistory ?_
  intro f hf
  rcases s.advance_frames r caller hbegun f hf with hold | hrest | ⟨rfl, hcalls⟩
  · exact Or.inl hold
  · right
    cases caller with
    | user => cases hrest
    | lambda left sync =>
      have hdelivered := hcaller.resolve_left (by simp)
      rw [List.mem_singleton.1 hrest]
      exact deliveredIn_suffix hhistory hdelivered
  · right
    cases caller with
    | user => exact hcalls
    | lambda left sync =>
      exact ⟨hcalls, deliveredIn_suffix hhistory (hcaller.resolve_left (by simp))⟩

/-! ### In every run -/

theorem Lawful.last {h : List (Event Claims)} (hl : Lawful h) (options : Options)
    (attestation : Option (AttestationApi Claims)) (hmem : .submitted options attestation ∈ h) :
    ∃ newer, h = newer ++ [.submitted options attestation] := by
  obtain ⟨newer, older, rfl⟩ := List.append_of_mem hmem
  have hempty : older = [] := hl _ older (List.suffix_append newer _)
  exact ⟨newer, by rw [hempty]⟩

theorem Lawful.submitted_suffix {h h' : List (Event Claims)} (hl : Lawful h') (hsuffix : h <:+ h')
    (hne : h ≠ []) (options : Options) (attestation : Option (AttestationApi Claims))
    (hmem : .submitted options attestation ∈ h') : .submitted options attestation ∈ h := by
  obtain ⟨newer, hlast⟩ := hl.last options attestation hmem
  obtain ⟨front, rfl⟩ := hsuffix
  have hsplit := List.dropLast_append_getLast hne
  rw [← hsplit, ← List.append_assoc] at hlast
  obtain ⟨-, heq⟩ := List.append_inj' hlast rfl
  rw [← List.singleton_inj.1 heq]
  exact List.getLast_mem hne

theorem Lawful.submitted_unique {h : List (Event Claims)} (hl : Lawful h) {o o' : Options}
    {a a' : Option (AttestationApi Claims)} (hmem : .submitted o a ∈ h)
    (hmem' : .submitted o' a' ∈ h) : o = o' ∧ a = a' := by
  obtain ⟨newer, hlast⟩ := hl.last o a hmem
  obtain ⟨newer', hlast'⟩ := hl.last o' a' hmem'
  obtain ⟨-, heq⟩ := List.append_inj' (hlast.symm.trans hlast') rfl
  cases List.singleton_inj.1 heq
  exact ⟨rfl, rfl⟩

/-- The request was submitted with an attestation that has something to download. -/
def Slot.Downloads (s : Slot Claims) : Prop := ∃ options attestation requests,
  .submitted options (some attestation) ∈ s.history ∧
    attestation.prepareEndorsements options = .ok (some requests)

theorem Slot.Downloads.attested {s : Slot Claims} (hd : s.Downloads) (hs : s.core.Sound)
    (r : Request Claims) (hr : s.request = some r) : r.attestation ≠ none := by
  obtain ⟨options, attestation, requests, hmem, -⟩ := hd
  obtain ⟨-, heq⟩ := hs.lawful.submitted_unique (hs.own r hr) hmem
  simp [heq]

structure Slot.InOrder (s : Slot Claims) : Prop where
  ordered : Ordered s.request s.calls
  due : s.Due

theorem Slot.submit_inOrder (options : Options) (attestation : AttestationApi Claims)
    (requests : HTTPRequests) (h : attestation.prepareEndorsements options = .ok (some requests))
    (httpClient callback : Bool) :
    (({} : Slot Claims).submit options (some attestation) httpClient callback).InOrder := by
  rw [Slot.submit_requested options attestation requests h]
  have hordered (r : Request Claims) (hstate : r.state = .waitingForEndorsements) :
      Ordered (some r) [.requested requests, .submitted options (some attestation)] := by
    refine ⟨?_, ?_, ?_⟩
    · intro _ hr _ _
      cases hr
      exact hstate
    · rw [verifiedDelivered_cons _ _ rfl, verifiedDelivered_cons _ _ rfl]
      exact ⟨fun _ => Nat.zero_le 1, fun _ rs claims older hs => by simp at hs⟩
    · intro hmem
      simp at hmem
  split
  · refine ⟨?_, ?_⟩
    · rw [Slot.calls_eq _ (by simp)]
      exact hordered _ rfl
    · intro f hf
      rw [List.mem_singleton.1 hf]
      trivial
  · refine ⟨?_, ?_⟩
    · rw [Slot.calls_eq _ (by simp)]
      exact hordered _ rfl
    · intro f hf
      cases hf

theorem Slot.InOrder.deliver {s : Slot Claims} (ho : s.InOrder) (hs : s.core.Sound)
    (hfault : s.fault = none) (responses : HTTPResponses) (sync : Bool)
    (hpending : s.pending = true) : (s.deliver responses sync).InOrder := by
  rw [s.deliver_eq responses sync hs hpending]
  have hcalls : s.calls = s.history := s.calls_eq (by simp [hfault])
  refine ⟨?_, ?_⟩
  · rw [Slot.calls_eq _ (by simp [Slot.enter, Slot.note, hfault])]
    exact (hcalls ▸ ho.ordered).deliver responses
  · refine ho.due.grow (List.suffix_cons _ _) ?_
    intro f hf
    rcases List.mem_cons.1 hf with rfl | hold
    · exact Or.inr (fun h => by cases h)
    · exact Or.inl hold

theorem Slot.catchException_calls (s : Slot Claims) (hfault : s.fault = none) :
    s.catchException.calls = s.history := by
  unfold Slot.catchException
  split
  next => exact Slot.calls_eq _ (by simp [Slot.fail])
  next => exact Slot.calls_eq _ (by simp [Slot.setRequest, hfault])

theorem Slot.InOrder.leave {s : Slot Claims} (ho : s.InOrder) (f : Frame) : (s.leave f).InOrder :=
  ⟨ho.ordered, ho.due.leave f⟩

theorem Slot.InOrder.advance {s : Slot Claims} (ho : s.InOrder) (hs : s.core.Sound)
    (hfault : s.fault = none) (r : Request Claims) (hr : s.request = some r)
    (hattestation : r.attestation ≠ none) (left : ℕ) (sync : Bool)
    (hdelivered : deliveredIn s.history ≠ none) : (s.advance r (.lambda left sync)).InOrder := by
  have hcalls : s.calls = s.history := s.calls_eq (by simp [hfault])
  have hadvancing := (hcalls ▸ hr ▸ ho.ordered).advancing
    ((answered_iff s.history).2 (Or.inl hdelivered))
  exact ⟨s.advance_ordered r _ hs hr hfault hattestation hadvancing,
    ho.due.advance r _ (hs.begun r hr) (Or.inr hdelivered)⟩

theorem Slot.InOrder.proceed {s : Slot Claims} (ho : s.InOrder) (hs : s.core.Sound)
    (hfault : s.fault = none) (hattested : ∀ r, s.request = some r → r.attestation ≠ none)
    (left : ℕ) (sync : Bool) (hdelivered : deliveredIn s.history ≠ none) :
    (s.proceed left sync).InOrder := by
  have hcalls : s.calls = s.history := s.calls_eq (by simp [hfault])
  have hordered := hcalls ▸ ho.ordered
  unfold Slot.proceed
  cases left with
  | zero =>
    dsimp only
    split
    next =>
      refine ⟨ho.ordered, ho.due.grow List.suffix_rfl ?_⟩
      intro f hf
      rcases List.mem_cons.1 hf with rfl | hold
      · exact Or.inr trivial
      · exact Or.inl hold
    next => exact ⟨ho.ordered, ho.due⟩
  | succ left =>
    cases hr : s.request with
    | some r => exact ho.advance hs hfault r hr (hattested r hr) left sync hdelivered
    | none =>
      have hnoted := hordered.silent .notFound trivial
      refine ⟨?_, ?_⟩
      · show Ordered ((s.note .notFound).lambdaThrows true sync).request
          ((s.note .notFound).lambdaThrows true sync).calls
        unfold Slot.lambdaThrows
        split
        next =>
          have hr' : (s.note .notFound).request = none := hr
          rw [Slot.catchException_none _ hr', Slot.calls_eq _ (by simp [Slot.fail])]
          exact hnoted
        next =>
          rw [Slot.calls_eq _ (by simp [Slot.note, hfault])]
          exact hnoted
      · intro f hf
        dsimp only at hf ⊢
        rw [Slot.lambdaThrows_frames] at hf
        rw [Slot.lambdaThrows_history]
        exact (ho.due f hf).mono (List.suffix_cons _ _)

theorem Slot.Downloads.before {s t : Slot Claims} (ht : t.Downloads) (hs : s.Consistent)
    (a : Action Claims) (hlater : ∀ o att k cb, a ≠ .submit o att k cb)
    (h : s.lifeStep a = some t) : s.Downloads := by
  obtain ⟨options, attestation, requests, hmem, hprepare⟩ := ht
  obtain ⟨-, hstep, -⟩ := s.lifeStep_some t a h
  have hlawful := (s.lifeStep_consistent t a hs h).2.lawful
  refine ⟨options, attestation, requests, ?_, hprepare⟩
  refine hlawful.submitted_suffix (s.step_history t a hstep) ?_ options (some attestation) hmem
  intro hempty
  rw [hs.1 hempty] at hstep
  rw [blank_step a t hlater hstep] at hmem
  cases hmem

theorem Slot.InOrder.step {s t : Slot Claims} (ho : s.InOrder) (hs : s.Consistent)
    (hd : s.Downloads) (a : Action Claims) (hlater : ∀ o att k cb, a ≠ .submit o att k cb)
    (h : s.lifeStep a = some t) : t.InOrder := by
  obtain ⟨hfault, hstep, -⟩ := s.lifeStep_some t a h
  have hgrows := s.step_history t a hstep
  have hcalls : s.calls = s.history := s.calls_eq (by simp [hfault])
  have hordered := hcalls ▸ ho.ordered
  cases a with
  | submit options attestation httpClient callback => exact absurd rfl (hlater _ _ _ _)
  | advance =>
    cases hstep
    unfold Slot.publicAdvance
    split
    next => exact ho
    next r hr =>
      have hadvancing := (hr ▸ hordered).advanced
      have hnoted : (s.note .advanced).Due := fun f hf => (ho.due f hf).mono (List.suffix_cons _ _)
      exact ⟨Slot.advance_ordered _ r .user (hs.2.plain .advanced trivial) hr hfault
        (hd.attested hs.2 r hr) hadvancing, hnoted.advance r .user (hs.2.begun r hr) (Or.inl rfl)⟩
  | erase =>
    cases hstep
    refine ⟨?_, ho.due.grow hgrows ?_⟩
    · unfold Slot.erase
      split
      next => exact ho.ordered
      next =>
        rw [Slot.calls_eq _ (by simp [Slot.note, hfault])]
        exact hordered.gone.silent .erased trivial
    · unfold Slot.erase
      split <;> exact fun f hf => Or.inl hf
  | deliver responses =>
    obtain ⟨hpending, rfl⟩ := (guarded_some _ _ _).1 hstep
    exact ho.deliver hs.2 hfault responses false hpending
  | clientDeliver responses =>
    obtain ⟨⟨hpending, -⟩, rfl⟩ := (guarded_some _ _ _).1 hstep
    exact (ho.leave .client).deliver hs.2 hfault responses true hpending
  | clientReturn set =>
    obtain ⟨-, rfl⟩ := (guarded_some _ _ _).1 hstep
    unfold Slot.clientReturn
    split
    next =>
      refine ⟨?_, (ho.due.leave .client)⟩
      rw [Slot.calls_eq _ (by simp [Slot.fail])]
      exact hordered
    next r hr =>
      have hr' : s.request = some r := hr
      refine ⟨?_, (ho.due.leave .client)⟩
      rw [Slot.calls_eq _ (by simp [Slot.setRequest, Slot.leave, hfault])]
      exact (hr' ▸ hordered).replace rfl
  | clientThrow =>
    obtain ⟨-, rfl⟩ := (guarded_some _ _ _).1 hstep
    have hcaught := Slot.catchException_calls
      ({ s.leave .client with pending := false }.note .clientThrew) hfault
    refine ⟨?_, ?_⟩
    · rw [hcaught]
      exact hordered.clientThrew _ (Slot.catchException_error _)
    · refine (ho.due.leave .client).grow hgrows ?_
      rw [Slot.catchException_frames]
      exact fun f hf => Or.inl hf
  | proceed left sync =>
    obtain ⟨hf, rfl⟩ := (guarded_some _ _ _).1 hstep
    exact (ho.leave (.delivery left sync)).proceed hs.2 hfault (hd.attested hs.2) left sync
      (ho.due _ hf)
  | callbackReturn caller =>
    obtain ⟨hf, rfl⟩ := (guarded_some _ _ _).1 hstep
    have hdue : ((s.leave (.callback caller)).back caller).Due :=
      (ho.due.leave _).back caller (Frame.Due.rest (ho.due _ hf))
    unfold Slot.readState
    split
    next =>
      refine ⟨?_, hdue⟩
      rw [Slot.calls_eq _ (by simp [Slot.fail, Slot.back])]
      exact hordered
    next => exact ⟨ho.ordered, hdue⟩
  | callbackThrow caller isStd =>
    obtain ⟨hf, rfl⟩ := (guarded_some _ _ _).1 hstep
    have hcalled := Frame.Due.called (ho.due _ hf)
    cases isStd with
    | true =>
      have herror := Slot.catchException_error ((s.leave (.callback caller)).note .callbackThrew)
      have hcaught := Slot.catchException_calls ((s.leave (.callback caller)).note .callbackThrew)
        hfault
      refine ⟨?_, ?_⟩
      · show Ordered ((s.leave (.callback caller)).note .callbackThrew).catchException.request
          ((s.leave (.callback caller)).note .callbackThrew).catchException.calls
        rw [hcaught]
        exact (hordered.settled hcalled _ herror).silent .callbackThrew trivial
      · have hdue : (s.leave (.callback caller)).Due := ho.due.leave _
        refine Slot.Due.back (hdue.grow ?_ ?_) caller ?_
        · rw [Slot.catchException_history]
          exact List.suffix_cons _ _
        · rw [Slot.catchException_frames]
          exact fun f hf => Or.inl hf
        · rw [Slot.catchException_history]
          exact fun f hf' => (Frame.Due.rest (ho.due _ hf) f hf').mono (List.suffix_cons _ _)
    | false =>
      have hleft := ho.leave (.callback caller)
      cases caller with
      | user => exact hleft
      | lambda left sync => simpa [Slot.callbackThrow, Slot.lambdaThrows] using hleft

theorem Slot.Downloads.submitted {s t : Slot Claims} (hd : t.Downloads) (hs : s.Consistent)
    {options : Options} {attestation : Option (AttestationApi Claims)} {httpClient callback : Bool}
    (h : s.lifeStep (.submit options attestation httpClient callback) = some t) :
    ∃ att requests, attestation = some att ∧
      att.prepareEndorsements options = .ok (some requests) ∧
      t = ({} : Slot Claims).submit options (some att) httpClient callback := by
  obtain ⟨-, hnext, hnew⟩ := s.lifeStep_some t _ h
  have hlawful := (s.lifeStep_consistent t _ hs h).2.lawful
  rw [hs.1 (hnew ⟨_, _, _, _, rfl⟩)] at hnext
  cases hnext
  obtain ⟨o, att, requests, hmem, hprepare⟩ := hd
  have hfirst := (Slot.submit_history {} options attestation httpClient callback).mem
    List.mem_cons_self
  obtain ⟨rfl, rfl⟩ := hlawful.submitted_unique hfirst hmem
  exact ⟨att, requests, rfl, hprepare, rfl⟩

theorem reachable_inOrder {c : Config Claims} (h : Reachable c) (id : ℕ) :
    (c.slot id).Downloads → (c.slot id).InOrder := by
  refine (reachable_slot h id).invariant_with Slot.Consistent (fun s => s.Downloads → s.InOrder)
    (fun s a t hs _ hstep => s.lifeStep_consistent t a hs hstep) ?_ blank_consistent ?_
  · intro s a t hs ho _ hstep hd
    by_cases hsubmit : ∃ o att k cb, a = .submit o att k cb
    · obtain ⟨options, attestation, httpClient, callback, rfl⟩ := hsubmit
      obtain ⟨att, requests, rfl, hprepare, rfl⟩ := hd.submitted hs hstep
      exact Slot.submit_inOrder options att requests hprepare httpClient callback
    · have hlater : ∀ o att k cb, a ≠ .submit o att k cb :=
        fun o att k cb ha => hsubmit ⟨o, att, k, cb, ha⟩
      have hd' := hd.before hs a hlater hstep
      exact (ho hd').step hs hd' a hlater hstep
  · intro ⟨_, _, _, hmem, _⟩
    cases hmem

end

end Ravl.Tracker
