import Mathlib.Algebra.BigOperators.Group.List.Basic
import Mathlib.Algebra.BigOperators.Intervals
import Mathlib.Algebra.Order.BigOperators.Group.Finset
import Ravl.Tracker.Interleaving

/-!
# Every request comes to an end

What has been begun goes on when the HTTP client calls back, returns or throws, the lambda makes
its next call, or the completion callback returns or throws. A submission pays for six such steps
and nothing else adds to them, whatever users advance and erase in between; and when none of them
is left, no call is in progress and every request is finished or in the state ERROR.
-/

namespace Ravl.Tracker
open ByteLib FallibleLib TransitionLib
variable {Claims : Type}

/-- The steps of what has been begun, as opposed to the calls users make -/
def Action.goesOn : Action Claims → Bool
  | .submit _ _ _ _ => false
  | .advance => false
  | .erase => false
  | _ => true

def Action.submits : Action Claims → Bool
  | .submit _ _ _ _ => true
  | _ => false

/-! ### What is left to do -/

def Caller.work : Caller → ℕ
  | .user => 0
  | .lambda left sync => left + 1 + sync.toNat

/-- The steps up to the end of a call; the lambda of a synchronous client returns to `submit`. -/
def Frame.work : Frame → ℕ
  | .client => 1
  | .delivery left sync => left + 1 + sync.toNat
  | .callback caller => 1 + caller.work

def RequestState.work : RequestState → ℕ
  | .submitted => 6
  | .waitingForEndorsements => 1
  | .haveEndorsements => 1
  | .finished => 0
  | .error => 0

def framesWork (frames : List Frame) : ℕ := (frames.map Frame.work).sum

def requestWork : Option (Request Claims) → ℕ
  | none => 0
  | some r => r.state.work

theorem requestWork_some (r : Request Claims) : requestWork (some r) = r.state.work := rfl

/-- The client's callback that is still to come stands for itself and for the lambda. -/
def Slot.work (s : Slot Claims) : ℕ :=
  framesWork s.frames + 4 * s.pending.toNat + requestWork s.request

theorem back_work (caller : Caller) (frames : List Frame) :
    framesWork (caller.rest ++ frames) = framesWork frames + caller.work := by
  cases caller with
  | user => rfl
  | lambda left sync =>
    simp only [framesWork, Caller.rest, List.cons_append, List.nil_append, List.map_cons, List.sum_cons,
      Frame.work, Caller.work]
    omega

theorem enter_work (f : Frame) (frames : List Frame) :
    framesWork (f :: frames) = framesWork frames + f.work := by
  simp only [framesWork, List.map_cons, List.sum_cons]
  omega

theorem leave_work {f : Frame} {frames : List Frame} (h : f ∈ frames) :
    framesWork (frames.erase f) + f.work = framesWork frames := by
  rw [Nat.add_comm]
  exact List.sum_map_erase Frame.work h

/-! ### The operations -/

section
variable (s : Slot Claims)

theorem Slot.verify_work (r : Request Claims) (caller : Caller) (hr : requestWork s.request ≤ 1) :
    (s.verify r caller).work ≤ framesWork s.frames + 4 * s.pending.toNat + 1 + caller.work := by
  unfold Slot.verify
  split
  · simp only [Slot.work, Slot.back, Slot.setRequest, back_work, requestWork_some, RequestState.work]
    omega
  · dsimp only
    split
    · split
      · simp only [Slot.work, Slot.enter, Slot.note, Slot.setRequest, enter_work, Frame.work, requestWork_some,
          RequestState.work]
        omega
      · simp only [Slot.work, Slot.back, Slot.note, Slot.setRequest, back_work, requestWork_some,
          RequestState.work]
        omega
    · simp only [Slot.work, Slot.back, Slot.note, Slot.setRequest, back_work, requestWork_some, RequestState.work]
      omega
    · simp only [Slot.work, Slot.fail]
      omega

theorem Slot.prepareEndorsements_work (r : Request Claims) (caller : Caller) :
    (s.prepareEndorsements r caller).work ≤
      framesWork s.frames + 4 * s.pending.toNat + 6 + caller.work := by
  unfold Slot.prepareEndorsements
  dsimp only
  split
  · simp only [Slot.work, Slot.back, Slot.setRequest, back_work, requestWork_some, RequestState.work]
    omega
  · split
    · simp only [Slot.work, Slot.back, Slot.setRequest, back_work, requestWork_some, RequestState.work]
      omega
    · simp only [Slot.work, Slot.fail, Slot.setRequest, requestWork_some, RequestState.work]
      omega
    · refine (Slot.verify_work _ _ caller le_rfl).trans ?_
      simp only [Slot.setRequest]
      omega
    · split
      · simp only [Slot.work, Slot.enter, Slot.note, Slot.setRequest, enter_work, Frame.work, requestWork_some,
          RequestState.work, Bool.toNat_true]
        omega
      · simp only [Slot.work, Slot.fail, Slot.note, Slot.setRequest, requestWork_some, RequestState.work]
        omega

theorem Slot.advance_work (r : Request Claims) (caller : Caller) (hr : requestWork s.request = r.state.work) :
    (s.advance r caller).work ≤ s.work + caller.work := by
  unfold Slot.advance
  split
  next hstate =>
    simp only [Slot.work, Slot.back, Slot.setRequest, back_work, requestWork_some, RequestState.work]
    omega
  next hstate =>
    have hle := s.prepareEndorsements_work r caller
    simp only [hstate, RequestState.work] at hr
    simp only [Slot.work] at hle ⊢
    omega
  next hstate =>
    simp only [hstate, RequestState.work] at hr
    simp only [Slot.work, Slot.back, Slot.setRequest, back_work, requestWork_some, RequestState.work]
    omega
  next hstate =>
    simp only [hstate, RequestState.work] at hr
    have hle := s.verify_work r caller hr.le
    simp only [Slot.work] at hle ⊢
    omega
  next hstate =>
    simp only [Slot.work, Slot.back, back_work]
    omega

theorem Slot.catchException_work : s.catchException.work ≤ s.work := by
  unfold Slot.catchException
  split
  · exact le_rfl
  · simp only [Slot.work, Slot.setRequest, requestWork_some, RequestState.work]
    omega

theorem Slot.lambdaThrows_work (isStd sync : Bool) : (s.lambdaThrows isStd sync).work ≤ s.work := by
  unfold Slot.lambdaThrows
  split
  · exact s.catchException_work
  · exact le_rfl

theorem Slot.deliver_work (responses : HTTPResponses) (sync : Bool) (hpending : s.pending = true) :
    (s.deliver responses sync).work + 1 ≤ s.work + sync.toNat := by
  unfold Slot.deliver
  dsimp only
  split
  · refine (Nat.add_le_add_right (Slot.lambdaThrows_work _ true sync) 1).trans ?_
    simp only [Slot.work, Slot.note, hpending, Bool.toNat_true, Bool.toNat_false]
    omega
  · simp only [Slot.work, Slot.enter, Slot.note, enter_work, Frame.work, hpending, Bool.toNat_true,
      Bool.toNat_false]
    omega

theorem Slot.proceed_work (left : ℕ) (sync : Bool) :
    (s.proceed left sync).work + 1 ≤ s.work + (Frame.delivery left sync).work := by
  unfold Slot.proceed
  cases left with
  | zero =>
    cases sync with
    | true =>
      simp only [Slot.work, Slot.enter, enter_work, Frame.work, if_true, Bool.toNat_true]
      omega
    | false =>
      simp only [Slot.work, Frame.work, Bool.false_eq_true, if_false, Bool.toNat_false]
      omega
  | succ left =>
    dsimp only
    split
    · refine (Nat.add_le_add_right (Slot.lambdaThrows_work _ true sync) 1).trans ?_
      simp only [Slot.work, Slot.note, Frame.work]
      omega
    next r hr =>
      have hle := s.advance_work r (.lambda left sync) (by rw [hr]; rfl)
      simp only [Caller.work] at hle
      simp only [Frame.work]
      omega

theorem Slot.callbackThrow_work (caller : Caller) (isStd : Bool) :
    (s.callbackThrow caller isStd).work ≤ s.work + caller.work := by
  unfold Slot.callbackThrow
  cases isStd with
  | true =>
    have hle := (s.note .callbackThrew).catchException_work
    simp only [Slot.work, Slot.note] at hle
    simp only [Slot.work, Slot.back, back_work, Slot.note]
    omega
  | false =>
    cases caller with
    | user => exact Nat.le_add_right _ _
    | lambda left sync =>
      exact (s.lambdaThrows_work false sync).trans (Nat.le_add_right _ _)

end

/-! ### Steps -/

theorem leave_slot_work (s : Slot Claims) {f : Frame} (h : f ∈ s.frames) :
    (s.leave f).work + f.work = s.work := by
  have hle := leave_work h
  simp only [Slot.work, Slot.leave]
  omega

theorem Slot.submit_work (options : Options) (attestation : Option (AttestationApi Claims))
    (httpClient callback : Bool) :
    (({} : Slot Claims).submit options attestation httpClient callback).work ≤ 6 := by
  unfold Slot.submit
  exact Slot.advance_work _ _ .user rfl

/-- A step of what has been begun uses up one unit of work, and a call of a user adds none. -/
theorem Slot.step_work (s t : Slot Claims) (a : Action Claims) (ha : a.submits = false)
    (h : s.step false a = some t) : a.goesOn.toNat + t.work ≤ s.work := by
  cases a with
  | submit options attestation httpClient callback => cases ha
  | advance =>
    cases h
    change 0 + _ ≤ _
    rw [Nat.zero_add]
    unfold Slot.publicAdvance
    split
    · exact le_rfl
    next r hr => exact (s.note .advanced).advance_work r .user (by rw [Slot.note, hr]; rfl)
  | erase =>
    cases h
    change 0 + _ ≤ _
    rw [Nat.zero_add]
    unfold Slot.erase
    split
    · exact le_rfl
    · simp only [Slot.work, Slot.note, Bool.false_eq_true, false_and, if_false, requestWork]
      omega
  | deliver responses =>
    obtain ⟨hpending, rfl⟩ := (guarded_some _ _ _).1 h
    have hle := s.deliver_work responses false hpending
    change 1 + _ ≤ _
    rw [Nat.add_comm]
    exact hle
  | clientDeliver responses =>
    obtain ⟨⟨hpending, hmem⟩, rfl⟩ := (guarded_some _ _ _).1 h
    have hle := (s.leave .client).deliver_work responses true hpending
    have hleave := leave_slot_work s hmem
    change 1 + _ ≤ _
    simp only [Frame.work, Bool.toNat_true] at hleave hle
    omega
  | clientReturn set =>
    obtain ⟨hmem, rfl⟩ := (guarded_some _ _ _).1 h
    have hleave := leave_slot_work s hmem
    change 1 + _ ≤ _
    simp only [Frame.work] at hleave
    unfold Slot.clientReturn
    split
    · simp only [Slot.work, Slot.fail] at hleave ⊢
      omega
    next r hr =>
      simp only [Slot.work, hr, requestWork_some] at hleave
      simp only [Slot.work, Slot.setRequest, requestWork_some] at hleave ⊢
      omega
  | clientThrow =>
    obtain ⟨⟨hpending, hmem⟩, rfl⟩ := (guarded_some _ _ _).1 h
    have hleave := leave_slot_work s hmem
    have hle := (({ s.leave .client with pending := false }).note .clientThrew).catchException_work
    change 1 + _ ≤ _
    simp only [Frame.work, Slot.work, Slot.note, Bool.toNat_false] at hleave hle ⊢
    omega
  | proceed left sync =>
    obtain ⟨hmem, rfl⟩ := (guarded_some _ _ _).1 h
    have hleave := leave_slot_work s hmem
    have hle := (s.leave (.delivery left sync)).proceed_work left sync
    change 1 + _ ≤ _
    omega
  | callbackReturn caller =>
    obtain ⟨hmem, rfl⟩ := (guarded_some _ _ _).1 h
    have hleave := leave_slot_work s hmem
    have hread : (s.leave (.callback caller)).readState.work ≤ (s.leave (.callback caller)).work := by
      unfold Slot.readState
      split <;> exact le_rfl
    change 1 + _ ≤ _
    simp only [Frame.work, Slot.work] at hleave hread
    simp only [Slot.work, Slot.back, back_work]
    omega
  | callbackThrow caller isStd =>
    obtain ⟨hmem, rfl⟩ := (guarded_some _ _ _).1 h
    have hleave := leave_slot_work s hmem
    have hle := (s.leave (.callback caller)).callbackThrow_work caller isStd
    change 1 + _ ≤ _
    simp only [Frame.work] at hleave
    omega

/-! ### Runs -/

def Config.work (c : Config Claims) : ℕ := ∑ id ∈ Finset.range c.nextRequestId, (c.slot id).work

theorem Config.put_work (c : Config Claims) {n id : ℕ} (s : Slot Claims) (hid : id < n) :
    ∑ i ∈ Finset.range n, ((c.put id s).slot i).work + (c.slot id).work =
      ∑ i ∈ Finset.range n, (c.slot i).work + s.work := by
  have hmem : id ∈ Finset.range n := Finset.mem_range.2 hid
  rw [← Finset.add_sum_erase _ _ hmem, ← Finset.add_sum_erase _ (fun i => (c.slot i).work) hmem]
  have hothers : ∑ i ∈ (Finset.range n).erase id, ((c.put id s).slot i).work =
      ∑ i ∈ (Finset.range n).erase id, (c.slot i).work := by
    refine Finset.sum_congr rfl fun i hi => ?_
    rw [Config.slot_put_other _ _ _ _ (Finset.ne_of_mem_erase hi)]
  rw [hothers, Config.slot_put_self]
  omega

theorem blank_work : ({} : Slot Claims).work = 0 := rfl

theorem Config.step_work (c c' : Config Claims) (l : Label Claims) (hc : Numbered c)
    (h : c.step l = some c') :
    l.action.goesOn.toNat + c'.work ≤ c.work + 6 * l.action.submits.toNat := by
  obtain ⟨-, hallow, s, hs, rfl⟩ := c.step_some c' l h
  rw [hc.httpClient] at hs
  cases hsubmit : l.action.submits with
  | true =>
    obtain ⟨id, action⟩ := l
    cases action with
    | submit options attestation httpClient callback =>
      obtain rfl : id = c.nextRequestId := by simpa [Config.allows] using hallow
      have hblank := hc.unused c.nextRequestId le_rfl
      rw [hblank] at hs
      cases hs
      have hput := c.put_work (({} : Slot Claims).submit options attestation httpClient callback)
        (Nat.lt_add_one c.nextRequestId)
      have hsix := Slot.submit_work options attestation httpClient callback
      rw [Finset.sum_range_succ (fun i => (c.slot i).work), hblank, blank_work] at hput
      change 0 + ∑ i ∈ Finset.range (c.nextRequestId + 1), ((c.put c.nextRequestId _).slot i).work ≤
        ∑ i ∈ Finset.range c.nextRequestId, (c.slot i).work + 6 * 1
      omega
    | _ => cases hsubmit
  | false =>
    have hone := (c.slot l.id).step_work s l.action hsubmit hs
    have hnext : c.nextAfter l.action = c.nextRequestId := by
      obtain ⟨id, action⟩ := l
      cases action <;> first | rfl | cases hsubmit
    change _ + ∑ i ∈ Finset.range (c.nextAfter l.action), ((c.put l.id s).slot i).work ≤
      ∑ i ∈ Finset.range c.nextRequestId, (c.slot i).work + 6 * 0
    rw [hnext]
    by_cases hid : l.id < c.nextRequestId
    · have hput := c.put_work s hid
      omega
    · -- a step of a slot that is not in use does nothing
      have hblank := hc.unused l.id (by omega)
      rw [hblank, blank_work] at hone
      have hsame : ∑ i ∈ Finset.range c.nextRequestId, ((c.put l.id s).slot i).work =
          ∑ i ∈ Finset.range c.nextRequestId, (c.slot i).work := by
        refine Finset.sum_congr rfl fun i hi => ?_
        have hlt := Finset.mem_range.1 hi
        rw [Config.slot_put_other _ _ _ _ (by omega)]
      omega

/-! ### Nothing is left waiting -/

/-- The client will call back, or a lambda has enough calls before it. -/
def Slot.Owed (s : Slot Claims) : Prop :=
  s.fault = none → ∀ r, s.request = some r → s.pending = true ∨ Completing r s.frames

/-- A lambda without a call before it is owed nothing. -/
theorem Completing.same {r r' : Request Claims} {frames frames' : List Frame} (h : Completing r frames)
    (hstate : r'.state = r.state)
    (hframes : ∀ left sync, .delivery (left + 1) sync ∈ frames → .delivery (left + 1) sync ∈ frames') :
    Completing r' frames' := by
  unfold Completing at h ⊢
  rw [hstate]
  obtain hdone | ⟨left, sync, hmem, hle⟩ := h
  · exact .inl hdone
  · cases left with
    | zero => exact .inl (by omega)
    | succ left => exact .inr ⟨left + 1, sync, hframes left sync hmem, hle⟩

theorem delivery_of_leave {f : Frame} {frames : List Frame} (hf : ∀ left sync, f ≠ .delivery (left + 1) sync)
    {left : ℕ} {sync : Bool} (h : .delivery (left + 1) sync ∈ frames) :
    .delivery (left + 1) sync ∈ frames.erase f :=
  (List.mem_erase_of_ne (hf left sync).symm).2 h

/-- What one call of `advance` does to a request that has been submitted -/
structure Advanced (s t : Slot Claims) (r : Request Claims) (caller : Caller) : Prop where
  pending : t.pending = s.pending
  frames : ∀ f ∈ s.frames, f ∈ t.frames
  further : t.fault = none → ∀ r', t.request = some r' → 2 ≤ r'.state.rank ∨
    r.state.rank + 1 ≤ r'.state.rank ∧ ∀ f ∈ caller.rest, f ∈ t.frames

section
variable (s : Slot Claims)

theorem Slot.settled_advanced (r r' : Request Claims) (caller : Caller)
    (hsettled : 2 ≤ r'.state.rank) : Advanced s ((s.setRequest r').back caller) r caller where
  pending := rfl
  frames := fun _ hf => List.mem_append_right _ hf
  further := by
    intro _ _ hr'
    obtain rfl := Option.some.inj hr'
    exact .inl hsettled

theorem Slot.verify_settles (r r' : Request Claims) (caller : Caller)
    (hfault : (s.verify r caller).fault = none) (hr' : (s.verify r caller).request = some r') :
    2 ≤ r'.state.rank := by
  unfold Slot.verify at hfault hr'
  split at hr'
  · obtain rfl := Option.some.inj hr'
    exact le_rfl
  next attestation hattestation =>
    rw [hattestation] at hfault
    dsimp only at hfault hr'
    split at hr'
    · split at hr'
      · obtain rfl := Option.some.inj hr'
        exact le_rfl
      · obtain rfl := Option.some.inj hr'
        exact le_rfl
    · obtain rfl := Option.some.inj hr'
      exact le_rfl
    next hverify =>
      rw [hverify] at hfault
      cases hfault

theorem Slot.verify_advanced (r : Request Claims) (caller : Caller) :
    Advanced s (s.verify r caller) r caller := by
  have hkept : (s.verify r caller).pending = s.pending ∧ ∀ f ∈ s.frames, f ∈ (s.verify r caller).frames := by
    unfold Slot.verify
    split
    · exact ⟨rfl, fun _ hf => List.mem_append_right _ hf⟩
    · dsimp only
      split
      · split
        · exact ⟨rfl, fun _ hf => List.mem_cons_of_mem _ hf⟩
        · exact ⟨rfl, fun _ hf => List.mem_append_right _ hf⟩
      · exact ⟨rfl, fun _ hf => List.mem_append_right _ hf⟩
      · exact ⟨rfl, fun _ hf => hf⟩
  exact ⟨hkept.1, hkept.2, fun hfault r' hr' => .inl (s.verify_settles r r' caller hfault hr')⟩

theorem Slot.advance_advanced (r : Request Claims) (caller : Caller) (hr : s.request = some r)
    (hbegun : r.state ≠ .submitted) : Advanced s (s.advance r caller) r caller := by
  unfold Slot.advance
  split
  next => exact s.settled_advanced r _ caller le_rfl
  next hstate => exact absurd hstate hbegun
  next hstate =>
    refine ⟨rfl, fun _ hf => List.mem_append_right _ hf, ?_⟩
    intro _ r' hr'
    obtain rfl := Option.some.inj hr'
    rw [hstate]
    exact .inr ⟨le_rfl, fun _ hf => List.mem_append_left _ hf⟩
  next => exact s.verify_advanced r caller
  next hstate =>
    refine ⟨rfl, fun _ hf => List.mem_append_right _ hf, ?_⟩
    intro _ r' hr'
    obtain rfl := Option.some.inj (hr.symm.trans hr')
    rw [hstate]
    exact .inl le_rfl

theorem Slot.prepareEndorsements_owed (r : Request Claims) (caller : Caller) :
    (s.prepareEndorsements r caller).Owed := by
  unfold Slot.prepareEndorsements
  dsimp only
  split
  · intro _ r' hr'
    obtain rfl := Option.some.inj hr'
    exact .inr (.inl le_rfl)
  · split
    · intro _ r' hr'
      obtain rfl := Option.some.inj hr'
      exact .inr (.inl le_rfl)
    · intro hfault
      cases hfault
    · intro hfault r' hr'
      exact .inr (.inl (Slot.verify_settles _ _ r' caller hfault hr'))
    · split
      · exact fun _ _ _ => .inl rfl
      · intro hfault
        cases hfault

theorem Slot.catchException_owed : s.catchException.Owed := by
  unfold Slot.catchException
  split
  · intro hfail
    cases hfail
  · intro _ r' hr'
    obtain rfl := Option.some.inj hr'
    exact .inr (.inl le_rfl)

end

section
variable {s t : Slot Claims}

/-- A step that leaves a request's state and the lambda as they are -/
theorem Slot.Owed.same (hs : s.Owed) (hfault : s.fault = none)
    (hrequest : ∀ r, t.request = some r → ∃ r', s.request = some r' ∧ r'.state = r.state)
    (hpending : t.pending = s.pending)
    (hframes : ∀ left sync, .delivery (left + 1) sync ∈ s.frames → .delivery (left + 1) sync ∈ t.frames) :
    t.Owed := by
  intro _ r hr
  obtain ⟨r', hr', hstate⟩ := hrequest r hr
  rw [hpending]
  exact (hs hfault r' hr').imp_right fun hcompleting => hcompleting.same hstate.symm hframes

theorem Slot.Owed.advance {r : Request Claims} (hs : s.Owed) (hfault : s.fault = none)
    (hr : s.request = some r) (hbegun : r.state ≠ .submitted) : (s.advance r .user).Owed := by
  intro hnone r' hr'
  have hadvanced := s.advance_advanced r .user hr hbegun
  obtain hsettled | ⟨hle, -⟩ := hadvanced.further hnone r' hr'
  · exact .inr (.inl hsettled)
  · rw [hadvanced.pending]
    exact (hs hfault r hr).imp_right fun hcompleting =>
      hcompleting.mono (by omega) fun _ _ hmem => hadvanced.frames _ hmem

theorem Slot.deliver_owed (responses : HTTPResponses) (sync : Bool) (hs : s.core.Sound)
    (hpending : s.pending = true) : (s.deliver responses sync).Owed := by
  rw [s.deliver_eq responses sync hs hpending]
  exact fun _ _ _ => .inr (.inr ⟨2, sync, List.mem_cons_self, Nat.le_add_right 2 _⟩)

theorem Slot.Owed.proceed (left : ℕ) (sync : Bool) (hs : s.Owed) (hsound : s.core.Sound)
    (hfault : s.fault = none) : ((s.leave (.delivery left sync)).proceed left sync).Owed := by
  unfold Slot.proceed
  cases left with
  | zero =>
    have hkept (left : ℕ) (sync' : Bool) (h : .delivery (left + 1) sync' ∈ s.frames) :
        .delivery (left + 1) sync' ∈ s.frames.erase (.delivery 0 sync) :=
      delivery_of_leave (fun _ _ => by simp) h
    dsimp only
    split
    · exact hs.same hfault (fun r hr => ⟨r, hr, rfl⟩) rfl
        fun left sync' h => List.mem_cons_of_mem _ (hkept left sync' h)
    · exact hs.same hfault (fun r hr => ⟨r, hr, rfl⟩) rfl hkept
  | succ left =>
    dsimp only
    split
    next hnone =>
      unfold Slot.lambdaThrows
      split
      · exact Slot.catchException_owed _
      · intro _ r hr
        rw [Slot.note, hnone] at hr
        cases hr
    next r hr =>
      have hadvanced := (s.leave (.delivery (left + 1) sync)).advance_advanced r (.lambda left sync) hr
        (hsound.begun r hr)
      intro hnone r' hr'
      obtain hsettled | ⟨hle, hrest⟩ := hadvanced.further hnone r' hr'
      · exact .inr (.inl hsettled)
      · rw [hadvanced.pending]
        obtain hpending | hdone | ⟨left', sync', hmem, hleft⟩ := hs hfault r hr
        · exact .inl hpending
        · exact .inr (.inl (by omega))
        · by_cases hown : Frame.delivery left' sync' = .delivery (left + 1) sync
          · -- the lambda that made the call has one call less before it
            cases hown
            exact .inr (.inr ⟨left, sync, hrest _ List.mem_cons_self, by omega⟩)
          · exact .inr (.inr ⟨left', sync', hadvanced.frames _ ((List.mem_erase_of_ne hown).2 hmem),
              by omega⟩)

theorem Slot.Owed.step (a : Action Claims) (hs : s.Owed) (hc : s.Consistent)
    (h : s.lifeStep a = some t) : t.Owed := by
  obtain ⟨hfault, hstep, hnew⟩ := s.lifeStep_some t a h
  cases a with
  | submit options attestation httpClient callback =>
    cases hstep
    exact Slot.prepareEndorsements_owed _ _ .user
  | advance =>
    cases hstep
    unfold Slot.publicAdvance
    split
    · exact hs
    next r hr =>
      have hnoted : (s.note .advanced).Owed := hs.same hfault (fun r hr => ⟨r, hr, rfl⟩) rfl fun _ _ h => h
      exact hnoted.advance hfault hr (hc.2.begun r hr)
  | erase =>
    cases hstep
    unfold Slot.erase
    split
    · exact hs
    · intro _ r hr
      cases hr
  | deliver responses =>
    obtain ⟨hpending, rfl⟩ := (guarded_some _ _ _).1 hstep
    exact Slot.deliver_owed responses false hc.2 hpending
  | clientDeliver responses =>
    obtain ⟨⟨hpending, -⟩, rfl⟩ := (guarded_some _ _ _).1 hstep
    exact Slot.deliver_owed responses true hc.2 hpending
  | clientReturn set =>
    obtain ⟨-, rfl⟩ := (guarded_some _ _ _).1 hstep
    unfold Slot.clientReturn
    split
    · intro hnone
      cases hnone
    next r hr =>
      refine hs.same hfault ?_ rfl fun _ _ h => delivery_of_leave (fun _ _ => by simp) h
      intro r' hr'
      obtain rfl := Option.some.inj hr'
      exact ⟨r, hr, rfl⟩
  | clientThrow =>
    obtain ⟨-, rfl⟩ := (guarded_some _ _ _).1 hstep
    exact Slot.catchException_owed _
  | proceed left sync =>
    obtain ⟨-, rfl⟩ := (guarded_some _ _ _).1 hstep
    exact hs.proceed left sync hc.2 hfault
  | callbackReturn caller =>
    obtain ⟨-, rfl⟩ := (guarded_some _ _ _).1 hstep
    unfold Slot.readState
    split
    · intro hnone
      cases hnone
    · exact hs.same hfault (fun r hr => ⟨r, hr, rfl⟩) rfl fun _ _ h =>
        List.mem_append_right _ (delivery_of_leave (fun _ _ => by simp) h)
  | callbackThrow caller isStd =>
    obtain ⟨-, rfl⟩ := (guarded_some _ _ _).1 hstep
    have hleft : (s.leave (.callback caller)).Owed :=
      hs.same hfault (fun r hr => ⟨r, hr, rfl⟩) rfl fun _ _ h => delivery_of_leave (fun _ _ => by simp) h
    cases isStd with
    | true =>
      have hcaught := Slot.catchException_owed ((s.leave (.callback caller)).note .callbackThrew)
      intro hnone r hr
      exact (hcaught hnone r hr).imp_right fun hcompleting =>
        hcompleting.mono le_rfl fun _ _ h => List.mem_append_right _ h
    | false =>
      cases caller with
      | user => exact hleft
      | lambda left sync => simpa [Slot.callbackThrow, Slot.lambdaThrows] using hleft

theorem reachable_owed {c : Config Claims} (h : Reachable c) (id : ℕ) : (c.slot id).Owed :=
  (reachable_slot h id).invariant_with Slot.Consistent Slot.Owed
    (fun s a t hs _ hstep => s.lifeStep_consistent t a hs hstep)
    (fun _ a _ hc ho _ hstep => ho.step a hc hstep) blank_consistent fun _ _ hr => by cases hr

end

/-! ### Trackers at rest -/

/-- Nothing that has been begun can go on. -/
def AtRest (c : Config Claims) : Prop := ∀ l : Label Claims, l.action.goesOn = true → c.step l = none

theorem AtRest.slot {c : Config Claims} (hrest : AtRest c) (hrun : c.stopped = false) (hc : Numbered c)
    (id : ℕ) (a : Action Claims) (ha : a.goesOn = true) : (c.slot id).step false a = none := by
  have hallow : c.allows ⟨id, a⟩ = true := by
    cases a <;> first | rfl | cases ha
  have hnone := hrest ⟨id, a⟩ ha
  rw [Config.step, if_pos ⟨hrun, hallow⟩, hc.httpClient] at hnone
  exact Option.map_eq_none_iff.1 hnone

theorem guarded_none {α : Type} {c : Prop} [Decidable c] {a : α} (h : guarded c a = none) : ¬ c := by
  intro hc
  rw [(guarded_some c a a).2 ⟨hc, rfl⟩] at h
  cases h

theorem AtRest.frames {c : Config Claims} (hrest : AtRest c) (hrun : c.stopped = false) (hc : Numbered c)
    (id : ℕ) : c.frames id = [] := by
  refine List.eq_nil_iff_forall_not_mem.2 fun f hf => ?_
  cases f with
  | client => exact guarded_none (hrest.slot hrun hc id (.clientReturn 0) rfl) hf
  | delivery left sync => exact guarded_none (hrest.slot hrun hc id (.proceed left sync) rfl) hf
  | callback caller => exact guarded_none (hrest.slot hrun hc id (.callbackReturn caller) rfl) hf

theorem AtRest.pending {c : Config Claims} (hrest : AtRest c) (hrun : c.stopped = false) (hc : Numbered c)
    (id : ℕ) : c.pending id = false :=
  eq_false_of_ne_true (guarded_none (hrest.slot hrun hc id (.deliver []) rfl))

theorem atRest_of {c : Config Claims} (hc : Numbered c)
    (h : ∀ id, c.frames id = [] ∧ c.pending id = false) : AtRest c := by
  intro ⟨id, a⟩ ha
  obtain ⟨hframes, hpending⟩ := h id
  have hframes' : (c.slot id).frames = [] := hframes
  have hpending' : (c.slot id).pending = false := hpending
  have hnone : (c.slot id).step c.httpClient a = none := by
    rw [hc.httpClient]
    cases a <;> first | cases ha; done | simp [Slot.step, guarded, hframes', hpending']
  rw [Config.step, hnone]
  exact ite_self none

theorem requests_end (labels : List (Label Claims)) (c : Config Claims)
    (h : run Config.step {} labels = some c) :
    labels.countP (fun l => l.action.goesOn) ≤ 6 * labels.countP (fun l => l.action.submits) ∧
    (c.stopped = false → AtRest c → ∀ id, c.frames id = [] ∧ c.pending id = false ∧
      ∀ r, c.requests id = some r → r.state = .finished ∨ r.state = .error) := by
  have hreach : Reachable c := run_steps labels (fun _ _ _ => trivial) h
  have hnumbered := reachable_numbered hreach
  constructor
  · have hbudget := run_budget (fun l : Label Claims => l.action.goesOn) (fun l => l.action.submits) 6
      Config.work Numbered (fun c l c' hc hstep => hc.step c c' l hstep)
      (fun c l c' hc hstep => c.step_work c' l hc hstep) labels numbered_new h
    have hnew : ({} : Config Claims).work = 0 := rfl
    omega
  · intro hrun hrest id
    have hframes := hrest.frames hrun hnumbered id
    have hpending := hrest.pending hrun hnumbered id
    refine ⟨hframes, hpending, fun r hr => ?_⟩
    obtain hcalled | hdone | ⟨left, sync, hmem, -⟩ := reachable_owed hreach id (hnumbered.running hrun id) r hr
    · have hno : c.pending id = true := hcalled
      rw [hpending] at hno
      cases hno
    · exact r.state.completed_of_rank hdone
    · have hno : .delivery left sync ∈ c.frames id := hmem
      rw [hframes] at hno
      cases hno

/-- Endorsements come after the user has advanced the request. -/
def endingLabels : List (Label Bytes) :=
  [⟨0, .submit {} (some ⟨fun _ => .ok (some []), fun _ _ => .ok []⟩) true true⟩, ⟨0, .clientReturn 0⟩,
    ⟨0, .advance⟩, ⟨0, .deliver []⟩, ⟨0, .proceed 2 false⟩, ⟨0, .callbackReturn (.lambda 1 false)⟩,
    ⟨0, .proceed 1 false⟩, ⟨0, .proceed 0 false⟩]

theorem requests_end_sample : ∃ c : Config Bytes, run Config.step {} endingLabels = some c ∧
    endingLabels.countP (fun l => l.action.goesOn) ≤ 6 ∧ c.state 0 = .finished ∧
    ∀ r, c.requests 0 = some r → r.state = .finished ∨ r.state = .error := by
  have hnumbered := reachable_numbered (run_steps endingLabels (fun _ _ _ => trivial) rfl)
  refine ⟨_, rfl, (requests_end endingLabels _ rfl).1, rfl, ?_⟩
  refine ((requests_end endingLabels _ rfl).2 rfl (atRest_of hnumbered fun id => ?_) 0).2.2
  cases id with
  | zero => exact ⟨rfl, rfl⟩
  | succ id =>
    have hblank := hnumbered.unused (id + 1) (Nat.succ_le_succ (Nat.zero_le id))
    exact ⟨congrArg Slot.frames hblank, congrArg Slot.pending hblank⟩

end Ravl.Tracker
