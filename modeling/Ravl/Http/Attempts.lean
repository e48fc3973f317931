import Ravl.Http.Fields
import Ravl.Http.Synchronous
import Mathlib.Data.ENat.Lattice

/-!
# How often a request is sent (http_client_curl.cpp:26-33, 80-170)

The attempts at a request share one response object, which a retry empties, so a reply always
meets an empty response. Whether there is a retry is decided by what was stored of the header.
-/

namespace Ravl.Http
open ByteLib FallibleLib

/-- What the server replies, one after the other, when the request is sent again and again. -/
def Gives (server : Server) (timeout : ℕ) (request : HTTPRequest) (asked : List HTTPRequest)
    (replies : ℕ → Reply) : Prop :=
  ∀ i, server timeout (List.replicate (i + 1) request ++ asked) = .ok (replies i)

/-- The number of the first reply that does not ask for another attempt, counted from one. -/
noncomputable def firstAnswer (replies : ℕ → Reply) : ℕ∞ :=
  ⨅ (i : ℕ) (_ : ¬ (replies i).AsksAgain), ((i + 1 : ℕ) : ℕ∞)

/-- The request is sent until there is an answer, but not more often than allowed, and the answer is
what is returned; `isIn` says which responses are a reply. -/
def StopsAtAnswer (isIn : Reply → HTTPResponse → Prop) (server : Server) (request : HTTPRequest)
    (timeout maxAttempts : ℕ) (asked : List HTTPRequest) (replies : ℕ → Reply) : Prop :=
  ∃ transfers : ℕ, (transfers : ℕ∞) = min (firstAnswer replies) maxAttempts ∧
    (executeSynchronous server request timeout maxAttempts asked).2 =
      List.replicate transfers request ++ asked ∧
    (firstAnswer replies ≤ maxAttempts → ∃ response,
      (executeSynchronous server request timeout maxAttempts asked).1 = .ok response ∧
      isIn (replies (transfers - 1)) response) ∧
    ((maxAttempts : ℕ∞) < firstAnswer replies → ∃ what,
      (executeSynchronous server request timeout maxAttempts asked).1 = .error (.exception what))

/-! ### The loop -/

section
variable {server : Server} {timeout : ℕ} {request : HTTPRequest} (tooMany : String)

theorem replicate_again (n : ℕ) (asked : List HTTPRequest) :
    List.replicate n request ++ request :: asked = List.replicate (n + 1) request ++ asked := by
  rw [List.replicate_succ', List.append_assoc]
  rfl

theorem Gives.first {asked : List HTTPRequest} {replies : ℕ → Reply}
    (h : Gives server timeout request asked replies) : server timeout (request :: asked) = .ok (replies 0) :=
  h 0

theorem Gives.again {asked : List HTTPRequest} {replies : ℕ → Reply}
    (h : Gives server timeout request asked replies) :
    Gives server timeout request (request :: asked) fun i => replies (i + 1) := by
  intro i
  rw [replicate_again]
  exact h (i + 1)

/-- One round of the loop. The response that it starts with is empty, and so is the one that it
leaves to the next round. -/
theorem attempt_succ (n : ℕ) (asked : List HTTPRequest) (reply : Reply)
    (h : server timeout (request :: asked) = .ok reply) :
    attempt server timeout request tooMany (n + 1) {} asked =
      if reply.retried then attempt server timeout request tooMany n {} (request :: asked)
      else (.ok reply.response, request :: asked) := by
  rw [attempt, h]
  dsimp only
  rw [mustRetry_perform]
  split <;> rfl

/-- So many replies are retried; the loop goes on as if it began now. -/
theorem attempt_retried (k n : ℕ) (asked : List HTTPRequest) (replies : ℕ → Reply)
    (h : Gives server timeout request asked replies) (hbefore : ∀ i < k, (replies i).retried = true) :
    attempt server timeout request tooMany (k + n) {} asked =
      attempt server timeout request tooMany n {} (List.replicate k request ++ asked) := by
  induction k generalizing asked replies with
  | zero => rw [Nat.zero_add, List.replicate_zero, List.nil_append]
  | succ k ih =>
    rw [Nat.add_right_comm, attempt_succ tooMany (k + n) asked _ h.first, hbefore 0 (Nat.succ_pos k),
      if_pos rfl, ih _ _ h.again fun i hi => hbefore (i + 1) (Nat.succ_lt_succ hi), replicate_again]

theorem attempt_answered (k n : ℕ) (asked : List HTTPRequest) (replies : ℕ → Reply)
    (h : Gives server timeout request asked replies) (hbefore : ∀ i < k, (replies i).retried = true)
    (hk : (replies k).retried = false) (hlt : k < n) :
    attempt server timeout request tooMany n {} asked =
      (.ok (replies k).response, List.replicate (k + 1) request ++ asked) := by
  obtain ⟨m, rfl⟩ := Nat.exists_eq_add_of_lt hlt
  have hreply : server timeout (request :: (List.replicate k request ++ asked)) = .ok (replies k) := h k
  rw [Nat.add_assoc, attempt_retried tooMany k (m + 1) asked replies h hbefore,
    attempt_succ tooMany m _ _ hreply, hk, if_neg (by decide)]
  rfl

theorem attempt_exhausted (n : ℕ) (asked : List HTTPRequest) (replies : ℕ → Reply)
    (h : Gives server timeout request asked replies) (hbefore : ∀ i < n, (replies i).retried = true) :
    attempt server timeout request tooMany n {} asked =
      (.error (.exception tooMany), List.replicate n request ++ asked) :=
  attempt_retried tooMany n 0 asked replies h hbefore

/-- Nothing is returned without a transfer. -/
theorem attempt_asks (n : ℕ) (response answer : HTTPResponse) (asked : List HTTPRequest)
    (h : (attempt server timeout request tooMany n response asked).1 = .ok answer) :
    asked.length < (attempt server timeout request tooMany n response asked).2.length := by
  induction n generalizing response asked with
  | zero => cases h
  | succ n ih =>
    unfold attempt at h ⊢
    split at h
    · cases h
    next reply hreply =>
      dsimp only at h ⊢
      split at h
      next hretry =>
        rw [if_pos hretry]
        exact (Nat.lt_succ_self asked.length).trans (ih _ _ h)
      next hdone =>
        rw [if_neg hdone]
        exact Nat.lt_succ_self asked.length

end

/-! ### The first answer -/

theorem firstAnswer_eq (replies : ℕ → Reply) (k : ℕ) (hbefore : ∀ i < k, (replies i).AsksAgain)
    (hk : ¬ (replies k).AsksAgain) : firstAnswer replies = (k + 1 : ℕ) := by
  refine le_antisymm (iInf₂_le k hk) (le_iInf₂ fun i hi => ?_)
  have hle : k ≤ i := by
    by_contra hlt
    exact hi (hbefore i (Nat.lt_of_not_le hlt))
  exact Nat.cast_le.2 (Nat.succ_le_succ hle)

theorem lt_firstAnswer (replies : ℕ → Reply) (n : ℕ) (hbefore : ∀ i < n, (replies i).AsksAgain) :
    (n : ℕ∞) < firstAnswer replies := by
  have hle : ((n + 1 : ℕ) : ℕ∞) ≤ firstAnswer replies := by
    refine le_iInf₂ fun i hi => Nat.cast_le.2 (Nat.succ_le_succ ?_)
    by_contra hlt
    exact hi (hbefore i (Nat.lt_of_not_le hlt))
  exact (Nat.cast_lt.2 n.lt_succ_self).trans_le hle

section
variable {isIn : Reply → HTTPResponse → Prop} {server : Server} {request : HTTPRequest}
  {timeout maxAttempts : ℕ} {asked : List HTTPRequest} {replies : ℕ → Reply}

theorem stopsAtAnswer_of (h : Gives server timeout request asked replies)
    (hseen : ∀ i < maxAttempts, (∀ j < i, (replies j).AsksAgain) →
      if (replies i).AsksAgain then (replies i).SeenAsking
      else ¬ (replies i).SeenAsking ∧ isIn (replies i) (replies i).response) :
    StopsAtAnswer isIn server request timeout maxAttempts asked replies := by
  have hretried (i : ℕ) (hi : i < maxAttempts) (hasks : ∀ j ≤ i, (replies j).AsksAgain) :
      (replies i).retried = true := by
    have hcase := hseen i hi fun j hj => hasks j hj.le
    rw [if_pos (hasks i (le_refl i))] at hcase
    exact (retried_iff _).2 hcase
  by_cases hanswer : ∃ k < maxAttempts, ¬ (replies k).AsksAgain
  · -- the loop ends with the first such reply
    obtain ⟨hlt, hk⟩ := Nat.find_spec hanswer
    generalize hfirst : Nat.find hanswer = k at hlt hk
    have hbefore (i : ℕ) (hi : i < k) : (replies i).AsksAgain := by
      by_contra hnot
      exact Nat.find_min hanswer (hfirst.symm ▸ hi) ⟨hi.trans hlt, hnot⟩
    have hunseen := hseen k hlt hbefore
    rw [if_neg hk] at hunseen
    have hrun : executeSynchronous server request timeout maxAttempts asked =
        (.ok (replies k).response, List.replicate (k + 1) request ++ asked) := by
      refine attempt_answered _ k maxAttempts asked replies h (fun i hi => ?_) ?_ hlt
      · exact hretried i (hi.trans hlt) fun j hj => hbefore j (hj.trans_lt hi)
      · exact Bool.eq_false_iff.2 fun hretry => hunseen.1 ((retried_iff _).1 hretry)
    have hanswered := firstAnswer_eq replies k hbefore hk
    have hle : firstAnswer replies ≤ maxAttempts := by
      rw [hanswered]
      exact Nat.cast_le.2 hlt
    rw [StopsAtAnswer, hrun]
    refine ⟨k + 1, ?_, rfl, fun _ => ⟨_, rfl, hunseen.2⟩, fun hmore => absurd hmore hle.not_gt⟩
    rw [min_eq_left hle, hanswered]
  · have hall (i : ℕ) (hi : i < maxAttempts) : (replies i).AsksAgain := by
      by_contra hnot
      exact hanswer ⟨i, hi, hnot⟩
    have hmore := lt_firstAnswer replies maxAttempts hall
    have hagain (i : ℕ) (hi : i < maxAttempts) : (replies i).retried = true :=
      hretried i hi fun j hj => hall j (hj.trans_lt hi)
    rw [StopsAtAnswer, executeSynchronous, attempt_exhausted _ maxAttempts asked replies h hagain]
    exact ⟨maxAttempts, (min_eq_right hmore.le).symm, rfl, fun hle => absurd hle hmore.not_ge,
      fun _ => ⟨_, rfl⟩⟩

theorem replicate_left {n m : ℕ} {request : HTTPRequest} {asked : List HTTPRequest}
    (h : List.replicate n request ++ asked = List.replicate m request ++ asked) : n = m := by
  simpa using congrArg List.length h

theorem StopsAtAnswer.seen (hstops : StopsAtAnswer isIn server request timeout maxAttempts asked replies)
    (h : Gives server timeout request asked replies) {i : ℕ} (hi : i < maxAttempts)
    (hbefore : ∀ j < i, (replies j).retried = true) (hasks : ∀ j ≤ i, (replies j).AsksAgain) :
    (replies i).SeenAsking := by
  by_contra hunseen
  have hrun : executeSynchronous server request timeout maxAttempts asked =
      (.ok (replies i).response, List.replicate (i + 1) request ++ asked) :=
    attempt_answered _ i maxAttempts asked replies h hbefore
      (Bool.eq_false_iff.2 fun hretry => hunseen ((retried_iff _).1 hretry)) hi
  have hlate := lt_firstAnswer replies (i + 1) fun j hj => hasks j (Nat.le_of_lt_succ hj)
  obtain ⟨transfers, htransfers, hasked, hanswered, hthrows⟩ := hstops
  rw [hrun] at hasked hthrows
  obtain rfl := replicate_left hasked
  obtain hmore | hle := lt_or_ge (maxAttempts : ℕ∞) (firstAnswer replies)
  · obtain ⟨what, hthrown⟩ := hthrows hmore
    cases hthrown
  · rw [min_eq_left hle] at htransfers
    exact absurd htransfers.symm (ne_of_gt hlate)

theorem StopsAtAnswer.returned (hstops : StopsAtAnswer isIn server request timeout maxAttempts asked replies)
    (h : Gives server timeout request asked replies) {i : ℕ} (hi : i < maxAttempts)
    (hbefore : ∀ j < i, (replies j).retried = true) (hasks : ∀ j < i, (replies j).AsksAgain)
    (hanswer : ¬ (replies i).AsksAgain) :
    ¬ (replies i).SeenAsking ∧ isIn (replies i) (replies i).response := by
  have hfirst := firstAnswer_eq replies i hasks hanswer
  have hle : firstAnswer replies ≤ maxAttempts := by
    rw [hfirst]
    exact Nat.cast_le.2 hi
  obtain ⟨transfers, htransfers, hasked, hanswered, -⟩ := hstops
  obtain ⟨response, hok, hisIn⟩ := hanswered hle
  rw [min_eq_left hle, hfirst, Nat.cast_inj] at htransfers
  subst htransfers
  have hdone : (replies i).retried = false := by
    by_contra hretry
    -- the loop goes on, and what it returns then has taken another transfer
    have hall : ∀ j < i + 1, (replies j).retried = true := fun j hj =>
      (Nat.lt_succ_iff_lt_or_eq.1 hj).elim (hbefore j) fun heq => heq ▸ Bool.not_eq_false _ ▸ hretry
    obtain ⟨m, rfl⟩ := Nat.exists_eq_add_of_le (Nat.succ_le_of_lt hi)
    rw [executeSynchronous, attempt_retried _ (i + 1) m asked replies h hall] at hok hasked
    have hmore := attempt_asks _ m {} response _ hok
    rw [hasked] at hmore
    exact lt_irrefl _ hmore
  have hrun : executeSynchronous server request timeout maxAttempts asked =
      (.ok (replies i).response, List.replicate (i + 1) request ++ asked) :=
    attempt_answered _ i maxAttempts asked replies h hbefore hdone hi
  rw [hrun] at hok
  obtain rfl := Except.ok.inj hok
  exact ⟨fun hseen => Bool.false_ne_true (hdone.symm.trans ((retried_iff _).2 hseen)), hisIn⟩

theorem stopsAtAnswer_iff (h : Gives server timeout request asked replies) :
    StopsAtAnswer isIn server request timeout maxAttempts asked replies ↔
      ∀ i < maxAttempts, (∀ j < i, (replies j).AsksAgain) →
        if (replies i).AsksAgain then (replies i).SeenAsking
        else ¬ (replies i).SeenAsking ∧ isIn (replies i) (replies i).response := by
  refine ⟨fun hstops i => ?_, stopsAtAnswer_of h⟩
  induction i using Nat.strong_induction_on with
  | _ i ih =>
    intro hi hasks
    have hbefore (j : ℕ) (hj : j < i) : (replies j).retried = true := by
      have hcase := ih j hj (hj.trans hi) fun n hn => hasks n (hn.trans hj)
      rw [if_pos (hasks j hj)] at hcase
      exact (retried_iff _).2 hcase
    by_cases hagain : (replies i).AsksAgain
    · rw [if_pos hagain]
      exact hstops.seen h hi hbefore fun j hj => (Nat.lt_or_eq_of_le hj).elim (hasks j) (· ▸ hagain)
    · rw [if_neg hagain]
      exact hstops.returned h hi hbefore hasks hagain

end

/-- It stops where it should, and returns the answer with its headers, exactly when every reply up to
the first answer is taken for what it is: one that asks for another attempt is seen asking, and the
answer has no header. If the headers do not count, it is enough that the same replies ask and are seen
asking. -/
theorem executeSynchronous_attempts (server : Server) (request : HTTPRequest)
    (timeout maxAttempts : ℕ) (asked : List HTTPRequest) (replies : ℕ → Reply)
    (h : Gives server timeout request asked replies) :
    (StopsAtAnswer Reply.IsIn server request timeout maxAttempts asked replies ↔
      ∀ i < maxAttempts, (∀ j < i, (replies j).AsksAgain) →
        if (replies i).AsksAgain then (replies i).SeenAsking
        else ∀ line ∈ (replies i).lines, IsBare line) ∧
    (StopsAtAnswer Reply.Fills server request timeout maxAttempts asked replies ↔
      ∀ i < maxAttempts, (∀ j < i, (replies j).AsksAgain) →
        ((replies i).AsksAgain ↔ (replies i).SeenAsking)) := by
  constructor
  · refine (stopsAtAnswer_iff h).trans (forall₃_congr fun i _ _ => ?_)
    by_cases hagain : (replies i).AsksAgain
    · rw [if_pos hagain, if_pos hagain]
    · rw [if_neg hagain, if_neg hagain, response_isIn_iff]
      exact and_iff_right_of_imp (not_seenAsking_of_bare _)
  · refine (stopsAtAnswer_iff h).trans (forall₃_congr fun i _ _ => ?_)
    by_cases hagain : (replies i).AsksAgain
    · rw [if_pos hagain, iff_true_left hagain]
    · rw [if_neg hagain, iff_false_left hagain]
      exact and_iff_left (replies i).response_fills

/-- A server that gives these replies to whatever it is asked -/
def inTurn (replies : ℕ → Reply) : Server := fun _ requests => .ok (replies (requests.length - 1))

theorem inTurn_gives (replies : ℕ → Reply) (timeout : ℕ) (request : HTTPRequest) :
    Gives (inTurn replies) timeout request [] replies := by
  intro i
  rw [inTurn, List.append_nil, List.length_replicate, Nat.add_sub_cancel]

def busyOnce : ℕ → Reply
  | 0 => { status := 429, lines := [text "retry-after: 1"], chunks := [text "busy"] }
  | _ => { status := 200, lines := [text "HTTP/1.1 200 OK"], chunks := [text "o", text "k"] }

theorem busyOnce_attempts : StopsAtAnswer Reply.IsIn (inTurn busyOnce) {} 0 5 [] busyOnce ∧
    StopsAtAnswer Reply.Fills (inTurn busyOnce) {} 0 5 [] busyOnce := by
  obtain ⟨hwhole, hfills⟩ := executeSynchronous_attempts (inTurn busyOnce) {} 0 5 [] busyOnce
    (inTurn_gives busyOnce 0 {})
  have hanswer : ¬ (busyOnce 1).AsksAgain := by decide +kernel
  constructor
  · refine hwhole.2 fun i _ hasks => ?_
    match i with
    | 0 =>
      rw [if_pos (by decide +kernel)]
      decide +kernel
    | 1 =>
      rw [if_neg hanswer]
      intro line hline header hheader
      obtain rfl := List.mem_singleton.1 hline
      have hnone : splitColon (text "HTTP/1.1 200 OK") = none := by decide +kernel
      rw [hnone] at hheader
      cases hheader
    | i + 2 => exact absurd (hasks 1 (by omega)) hanswer
  · refine hfills.2 fun i _ hasks => ?_
    match i with
    | 0 => decide +kernel
    | 1 => decide +kernel
    | i + 2 => exact absurd (hasks 1 (by omega)) hanswer

-- The body of the first reply is gone.
example : executeSynchronous (inTurn busyOnce) {} 0 5 [] =
    (.ok { status := 200, body := text "ok" }, [{}, {}]) := by
  decide +kernel

/-- No blank behind the colon -/
def busyTight : ℕ → Reply
  | 0 => { status := 429, lines := [text "Retry-After:1"] }
  | _ => { status := 200 }

/-- The reply asks for another attempt, and is returned. -/
theorem busyTight_returned : Gives (inTurn busyTight) 0 {} [] busyTight ∧ (busyTight 0).AsksAgain ∧
    ¬ StopsAtAnswer Reply.IsIn (inTurn busyTight) {} 0 5 [] busyTight ∧
    ¬ StopsAtAnswer Reply.Fills (inTurn busyTight) {} 0 5 [] busyTight := by
  have hasks : (busyTight 0).AsksAgain := by decide +kernel
  have hunseen : ¬ (busyTight 0).SeenAsking := by decide +kernel
  have hnever (isIn : Reply → HTTPResponse → Prop) :
      ¬ StopsAtAnswer isIn (inTurn busyTight) {} 0 5 [] busyTight := by
    intro hstops
    refine hunseen (hstops.seen (inTurn_gives busyTight 0 {}) (by decide) nofun fun j hj => ?_)
    rw [Nat.le_zero.1 hj]
    exact hasks
  exact ⟨inTurn_gives busyTight 0 {}, hasks, hnever _, hnever _⟩

end Ravl.Http
