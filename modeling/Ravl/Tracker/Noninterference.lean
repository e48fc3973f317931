import Ravl.SevSnp.Requests
import Ravl.Tracker.Results

/-!
# Requests do not interfere (request_tracker_impl.h:63-302)

All requests share the maps and the id counter. A run is taken apart into the operations of
one request and those of the others; the first ones on their own, under the id 0, are a run of
a new tracker in which the request goes through the same.
-/

namespace Ravl.Tracker
open ByteLib FallibleLib TransitionLib

section
variable {Claims : Type}

/-- The operations of request `id`, under the id it has when it is alone. -/
def ownLabel (id : ℕ) (l : Label Claims) : Option (Label Claims) :=
  if l.id = id then some ⟨0, l.action⟩ else none

/-- What one request sees of the shared tracker, next to a tracker of its own. -/
structure Alone (id : ℕ) (c d : Config Claims) : Prop where
  slot : d.slot 0 = c.slot id
  httpClient : d.httpClient = c.httpClient
  running : c.stopped = false → d.stopped = false
  next : d.nextRequestId = if id < c.nextRequestId then 1 else 0

theorem alone_new (id : ℕ) : Alone id ({} : Config Claims) {} := ⟨rfl, rfl, fun _ => rfl, rfl⟩

theorem Config.step_other (c c' : Config Claims) (l : Label Claims) (id : ℕ) (hne : l.id ≠ id)
    (h : c.step l = some c') : c'.slot id = c.slot id := by
  obtain ⟨-, -, s, -, rfl⟩ := c.step_some c' l h
  exact Config.slot_put_other _ _ _ _ hne.symm

theorem Alone.other {id : ℕ} {c c' d : Config Claims} {l : Label Claims} (ha : Alone id c d)
    (hne : l.id ≠ id) (h : c.step l = some c') : Alone id c' d := by
  have hslot := c.step_other c' l id hne h
  obtain ⟨hrun, hallow, s, -, rfl⟩ := c.step_some c' l h
  refine ⟨ha.slot.trans hslot.symm, ha.httpClient, fun _ => ha.running hrun, ?_⟩
  have hnext : (id < c.nextAfter l.action) = (id < c.nextRequestId) := by
    unfold Config.nextAfter
    split
    next o t k b hsubmit =>
      simp only [Config.allows, hsubmit, decide_eq_true_eq] at hallow
      apply propext
      omega
    next => rfl
  show d.nextRequestId = if id < c.nextAfter l.action then 1 else 0
  rw [ha.next]
  simp only [hnext]

theorem Alone.own {id : ℕ} {c c' d : Config Claims} {l : Label Claims} (ha : Alone id c d)
    (hid : l.id = id) (h : c.step l = some c') :
    ∃ d', d.step ⟨0, l.action⟩ = some d' ∧ Alone id c' d' := by
  obtain ⟨hrun, hallow, s, hs, rfl⟩ := c.step_some c' l h
  subst hid
  rw [← ha.slot, ← ha.httpClient] at hs
  have hnext : d.allows ⟨0, l.action⟩ = true ∧
      d.nextAfter l.action = if l.id < c.nextAfter l.action then 1 else 0 := by
    have hd := ha.next
    cases haction : l.action with
    | submit o t k b =>
      -- the id is the shared counter's, so the own tracker has not given one yet
      simp only [Config.allows, haction, decide_eq_true_eq] at hallow
      rw [if_neg (by omega)] at hd
      simp [Config.allows, Config.nextAfter, hd, hallow]
    | _ => exact ⟨rfl, hd⟩
  refine ⟨{ d with nextRequestId := d.nextAfter l.action }.put 0 s, ?_, ?_⟩
  · have hgo : d.stopped = false ∧ d.allows ⟨0, l.action⟩ = true := ⟨ha.running hrun, hnext.1⟩
    rw [Config.step, if_pos hgo]
    show ((d.slot 0).step d.httpClient l.action).map _ = _
    rw [hs]
    rfl
  · refine ⟨?_, ha.httpClient, fun hstop => hstop, hnext.2⟩
    rw [Config.slot_put_self, Config.slot_put_self]

/-- Removing the operations of all other requests from a run leaves a run, in which the
remaining request goes through the same records, claims and calls of its callback. -/
theorem requests_do_not_interfere (id : ℕ) (labels : List (Label Claims)) (c : Config Claims)
    (h : run Config.step {} labels = some c) :
    (∀ (d d' : Config Claims) (l : Label Claims), d.step l = some d' → l.id ≠ id → d'.slot id = d.slot id) ∧
    (∃ c', run Config.step {} (labels.filterMap (ownLabel id)) = some c' ∧
      c'.slot 0 = c.slot id ∧ c'.state 0 = c.state id ∧ c'.result 0 = c.result id) ∧
    seen Config.step (fun c => c.slot id) (ownLabel id) {} labels =
      seen Config.step (fun c => c.slot 0) some {} (labels.filterMap (ownLabel id)) := by
  have hpart := run_part (Alone id) (ownLabel id) (fun c => c.slot id) (fun d => d.slot 0)
    (fun c d ha => ha.slot.symm)
    (fun c d l c' ha hpick hstep => by
      have hne : l.id ≠ id := by
        intro hid
        rw [ownLabel, if_pos hid] at hpick
        cases hpick
      exact ha.other hne hstep)
    (fun c d l l' c' ha hpick hstep => by
      have hid : l.id = id := by
        by_contra hne
        rw [ownLabel, if_neg hne] at hpick
        cases hpick
      rw [ownLabel, if_pos hid] at hpick
      obtain rfl := Option.some.inj hpick
      exact ha.own hid hstep)
    labels (alone_new id) h
  obtain ⟨⟨c', hrun, halone⟩, hseen⟩ := hpart
  have hrequest : c'.requests 0 = c.requests id := congrArg Slot.request halone.slot
  refine ⟨fun d d' l hstep hne => d.step_other d' l id hne hstep, ⟨c', hrun, halone.slot, ?_, ?_⟩, hseen⟩
  · rw [Config.state, Config.state, hrequest]
  · rw [Config.result, Config.result, hrequest]

end

def reportApi : AttestationApi SevSnp.Claims := sevSnpApi SevSnp.contentSsl plainHost SevSnp.versionTwo

/-- Two requests wait for their downloads together; the one that is looked at is verified and calls
back while the other is advanced, gets its replies and is erased. -/
def mixedLabels : List (Label SevSnp.Claims) := [
  ⟨0, .submit {} (some reportApi) true true⟩, ⟨1, .submit {} (some reportApi) true true⟩,
  ⟨1, .clientReturn 1⟩, ⟨0, .clientReturn 0⟩, ⟨1, .deliver SevSnp.kdsReplies⟩, ⟨0, .advance⟩,
  ⟨1, .proceed 2 false⟩, ⟨0, .deliver SevSnp.kdsReplies⟩, ⟨1, .proceed 1 false⟩, ⟨0, .erase⟩,
  ⟨1, .callbackReturn (.lambda 0 false)⟩, ⟨0, .proceed 2 false⟩, ⟨1, .proceed 0 false⟩]

theorem requests_do_not_interfere_sample : ∃ (c c' : Config SevSnp.Claims) (claims : SevSnp.Claims),
    run Config.step {} mixedLabels = some c ∧ c.result 1 = .ok claims ∧
    callbackCalls (c.history 1) = 1 ∧ deliveredIn (c.history 1) = some SevSnp.kdsReplies ∧
    run Config.step {} (mixedLabels.filterMap (ownLabel 1)) = some c' ∧
      c'.slot 0 = c.slot 1 ∧ c'.state 0 = c.state 1 ∧ c'.result 0 = c.result 1 := by
  have hrun : (run Config.step {} mixedLabels).map (fun c => ((c.result 1).toOption.isSome,
      callbackCalls (c.history 1), deliveredIn (c.history 1))) = some (true, 1, some SevSnp.kdsReplies) := by
    decide +kernel
  obtain ⟨c, hc, hseen⟩ := Option.map_eq_some_iff.1 hrun
  obtain ⟨claims, hclaims⟩ := ok_of_isSome (congrArg Prod.fst hseen)
  obtain ⟨c', hc', halone⟩ := (requests_do_not_interfere 1 mixedLabels c hc).2.1
  exact ⟨c, c', claims, hc, hclaims, congrArg (fun p => p.2.1) hseen, congrArg (fun p => p.2.2) hseen,
    hc', halone⟩

end Ravl.Tracker
