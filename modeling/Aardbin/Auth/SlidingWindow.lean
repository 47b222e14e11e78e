import Mathlib.Data.List.DropRight
import Aardbin.Auth.Limiter

/-!
# The limiter as a sliding window

The limiter prunes its queues at every call.  Nothing it forgets would ever count again: its
answers are those of a limiter that keeps the whole history of its calls.
-/

namespace Aardbin

/-! ## The history of the calls -/

/-- A call on the limiter, with the reading of the clock that the method takes. -/
inductive LimiterCall
  | check (ip : IpAddr) (now : Nat)
  | recordFailure (ip : IpAddr) (now : Nat)
  | recordSuccess (ip : IpAddr)
  deriving DecidableEq

namespace LimiterCall

def ip : LimiterCall → IpAddr
  | check ip _ => ip
  | recordFailure ip _ => ip
  | recordSuccess ip => ip

def reading? : LimiterCall → Option Nat
  | check _ now => some now
  | recordFailure _ now => some now
  | recordSuccess _ => none

/-- The instant of a failure of the address. -/
def failure? (ip : IpAddr) : LimiterCall → Option Nat
  | recordFailure ip' now => if ip' = ip then some now else none
  | _ => none

end LimiterCall

/-- The readings of the clock do not decrease. -/
def Timely (calls : List LimiterCall) : Prop :=
  (calls.filterMap LimiterCall.reading?).Pairwise (· ≤ ·)

instance (calls : List LimiterCall) : Decidable (Timely calls) :=
  inferInstanceAs (Decidable (List.Pairwise _ _))

/-- All failures of the address after its last success. -/
def failuresSince (ip : IpAddr) (calls : List LimiterCall) : List Nat :=
  (calls.rtakeWhile fun c => c ≠ .recordSuccess ip).filterMap (LimiterCall.failure? ip)

theorem failuresSince_success (ip : IpAddr) (calls : List LimiterCall) :
    failuresSince ip (calls ++ [.recordSuccess ip]) = [] := by
  rw [failuresSince, List.rtakeWhile_concat_neg _ _ _ (by simp), List.filterMap_nil]

theorem failuresSince_snoc {ip : IpAddr} (calls : List LimiterCall) {c : LimiterCall}
    (hc : c ≠ .recordSuccess ip) :
    failuresSince ip (calls ++ [c]) = failuresSince ip calls ++ (c.failure? ip).toList := by
  rw [failuresSince, List.rtakeWhile_concat_pos _ _ _ (by simpa using hc), List.filterMap_append]
  cases hf : c.failure? ip <;> simp [failuresSince, hf]

theorem failuresSince_other {ip : IpAddr} (calls : List LimiterCall) {c : LimiterCall}
    (hc : c.ip ≠ ip) : failuresSince ip (calls ++ [c]) = failuresSince ip calls := by
  have hnot : c ≠ .recordSuccess ip := by
    rintro rfl
    exact hc rfl
  have hnone : c.failure? ip = none := by
    cases c with
    | recordFailure ip' now => exact if_neg hc
    | _ => rfl
  rw [failuresSince_snoc calls hnot, hnone, Option.toList_none, List.append_nil]

namespace LoginRateLimiter

/-- What a call leaves behind. -/
def call (l : LoginRateLimiter) : LimiterCall → LoginRateLimiter
  | .check ip now => (l.check ip now).2
  | .recordFailure ip now => l.recordFailure ip now
  | .recordSuccess ip => l.recordSuccess ip

/-- The limiter after some calls on a new one. -/
def after (calls : List LimiterCall) : LoginRateLimiter :=
  calls.foldl call new

theorem after_snoc (calls : List LimiterCall) (c : LimiterCall) :
    after (calls ++ [c]) = (after calls).call c := by
  rw [after, List.foldl_append]
  rfl

theorem failures_call_other (l : LoginRateLimiter) {c : LimiterCall} {ip : IpAddr}
    (hc : c.ip ≠ ip) : (l.call c).failures ip = l.failures ip := by
  cases c with
  | check ip' now =>
      rw [call, failures_check]
      exact Function.update_of_ne hc.symm _ _
  | recordFailure ip' now => exact Function.update_of_ne hc.symm _ _
  | recordSuccess ip' => exact Function.update_of_ne hc.symm _ _

/-- What a call leaves of a queue depends on this queue alone. -/
theorem failures_call_congr {l l' : LoginRateLimiter} (c : LimiterCall)
    (h : l.failures c.ip = l'.failures c.ip) :
    (l.call c).failures c.ip = (l'.call c).failures c.ip := by
  cases c with
  | check ip now =>
      rw [call, call, failures_check, failures_check]
      simpa [LimiterCall.ip] using congrArg (drainOld · now) h
  | recordFailure ip now =>
      simpa [call, recordFailure, LimiterCall.ip] using congrArg (drainOld · now) h
  | recordSuccess ip => simp [call, recordSuccess, LimiterCall.ip]

/-! ## What pruning keeps -/

/-- Where only the first elements may satisfy `p`, dropping them is filtering them out. -/
theorem dropWhile_eq_filter {α : Type} {p : α → Bool} {l : List α}
    (h : l.Pairwise fun a b => p b = true → p a = true) :
    l.dropWhile p = l.filter fun a => !p a := by
  induction l with
  | nil => rfl
  | cons a rest ih =>
      rw [List.pairwise_cons] at h
      by_cases ha : p a = true
      · rw [List.dropWhile_cons_of_pos ha, List.filter_cons_of_neg (by simpa using ha)]
        exact ih h.2
      · have hrest : ∀ b ∈ rest, p b ≠ true := fun b hb hpb => ha (h.1 b hb hpb)
        rw [List.dropWhile_cons_of_neg ha, List.filter_cons_of_pos (by simpa using ha)]
        have hall : rest.filter (fun b => !p b) = rest := by
          rw [List.filter_eq_self]
          simpa using hrest
        rw [hall]

/-- The latest failure goes to the end of the queue. -/
theorem sorted_push {queue : List Nat} {now : Nat} (hsorted : queue.Pairwise (· ≤ ·))
    (hpast : ∀ f ∈ queue, f ≤ now) :
    (queue ++ [now]).Pairwise (· ≤ ·) ∧ ∀ f ∈ queue ++ [now], f ≤ now := by
  constructor
  · rw [List.pairwise_append]
    refine ⟨hsorted, List.pairwise_singleton _ _, fun f hf f' hf' => ?_⟩
    rw [List.mem_singleton.1 hf']
    exact hpast f hf
  · intro f hf
    rcases List.mem_append.1 hf with hf | hf
    · exact hpast f hf
    · exact (List.mem_singleton.1 hf).le

/-- `kept` is what pruning has left of the failures `all`: the others are too old at `clock`. -/
structure Pruned (clock : Nat) (all kept : List Nat) : Prop where
  split : ∃ old, all = old ++ kept ∧ ∀ f ∈ old, f + window ≤ clock
  sorted : all.Pairwise (· ≤ ·)
  past : ∀ f ∈ all, f ≤ clock

namespace Pruned

variable {clock now : Nat} {all kept : List Nat}

theorem empty (clock : Nat) : Pruned clock [] [] :=
  ⟨⟨[], rfl, by simp⟩, .nil, by simp⟩

theorem later (h : Pruned clock all kept) (hnow : clock ≤ now) : Pruned now all kept := by
  rcases h.split with ⟨old, hall, hold⟩
  exact ⟨⟨old, hall, fun f hf => (hold f hf).trans hnow⟩, h.sorted,
    fun f hf => (h.past f hf).trans hnow⟩

/-- After the queue is drained, exactly the failures that count are left. -/
theorem drainOld_eq (h : Pruned clock all kept) (hnow : clock ≤ now) :
    drainOld kept now = inWindow all now := by
  rcases h.split with ⟨old, rfl, hold⟩
  -- What was pruned before cannot come back into the window.
  have hnone : inWindow old now = [] := by
    refine List.filter_eq_nil_iff.2 fun f hf => ?_
    have hle := hold f hf
    rw [decide_eq_true_eq]
    omega
  -- In a sorted queue the old failures stand first, so dropping them is filtering them out.
  have hsorted : kept.Pairwise fun f f' =>
      decide (window ≤ now - f') = true → decide (window ≤ now - f) = true := by
    refine (List.pairwise_append.1 h.sorted).2.1.imp fun hle hold' => ?_
    rw [decide_eq_true_eq] at hold' ⊢
    omega
  calc
    drainOld kept now
        = kept.filter fun f => !decide (window ≤ now - f) := dropWhile_eq_filter hsorted
    _ = inWindow kept now := by
        refine List.filter_congr fun f _ => ?_
        rw [← decide_not, decide_eq_decide]
        omega
    _ = inWindow old now ++ inWindow kept now := by rw [hnone, List.nil_append]
    _ = inWindow (old ++ kept) now := (List.filter_append _ _).symm

theorem drain (h : Pruned clock all kept) (hnow : clock ≤ now) :
    Pruned now all (drainOld kept now) := by
  rcases h.split with ⟨old, rfl, hold⟩
  refine ⟨⟨old ++ kept.takeWhile fun f => window ≤ now - f, ?_, fun f hf => ?_⟩, h.sorted,
    fun f hf => (h.past f hf).trans hnow⟩
  · rw [List.append_assoc, drainOld, List.takeWhile_append_dropWhile]
  · rcases List.mem_append.1 hf with hf | hf
    · exact (hold f hf).trans hnow
    · have hle := List.mem_takeWhile_imp hf
      have hpast := h.past f (List.mem_append_right _ ((List.takeWhile_prefix _).subset hf))
      rw [decide_eq_true_eq] at hle
      omega

theorem push (h : Pruned now all kept) : Pruned now (all ++ [now]) (kept ++ [now]) := by
  rcases sorted_push h.sorted h.past with ⟨hsorted, hpast⟩
  rcases h.split with ⟨old, rfl, hold⟩
  exact ⟨⟨old, List.append_assoc _ _ _, hold⟩, hsorted, hpast⟩

end Pruned

/-- One call keeps the limiter and the history together. -/
theorem pruned_call {clock : Nat} {calls : List LimiterCall} {l : LoginRateLimiter} {ip : IpAddr}
    (h : Pruned clock (failuresSince ip calls) (l.failures ip)) (c : LimiterCall)
    (hc : ∀ now, c.reading? = some now → clock = now) :
    Pruned clock (failuresSince ip (calls ++ [c])) ((l.call c).failures ip) := by
  by_cases hip : c.ip = ip
  · -- The call is for this address: both sides of the invariant change.
    subst hip
    cases c with
    | check ip now =>
        obtain rfl := hc now rfl
        rw [failuresSince_snoc calls (by simp), call, failures_check]
        simpa [LimiterCall.failure?, LimiterCall.ip] using h.drain (Nat.le_refl _)
    | recordFailure ip now =>
        obtain rfl := hc now rfl
        rw [failuresSince_snoc calls (by simp)]
        simpa [LimiterCall.failure?, LimiterCall.ip, call, recordFailure] using
          (h.drain (Nat.le_refl _)).push
    | recordSuccess ip =>
        have hnil := failuresSince_success ip calls
        simp only [LimiterCall.ip]
        rw [hnil]
        simpa [call, recordSuccess] using Pruned.empty clock
  · rw [failuresSince_other calls hip, failures_call_other l hip]
    exact h

theorem pruned_after {calls : List LimiterCall} (htimely : Timely calls) {clock : Nat}
    (hclock : ∀ now ∈ calls.filterMap LimiterCall.reading?, now ≤ clock) (ip : IpAddr) :
    Pruned clock (failuresSince ip calls) ((after calls).failures ip) := by
  induction calls using List.reverseRecOn generalizing clock with
  | nil => exact .empty clock
  | append_singleton calls c ih =>
      rw [Timely, List.filterMap_append, List.pairwise_append] at htimely
      rw [List.filterMap_append] at hclock
      have hcalls : ∀ now ∈ calls.filterMap LimiterCall.reading?, now ≤ clock :=
        fun now hnow => hclock now (List.mem_append_left _ hnow)
      rw [after_snoc]
      cases hr : c.reading? with
      | none =>
          -- A success reads no clock, and leaves nothing that could be too old.
          refine pruned_call (ih htimely.1 hcalls) c ?_
          simp [hr]
      | some now =>
          -- The readings before are not after this one.
          have hmem : now ∈ [c].filterMap LimiterCall.reading? := by simp [hr]
          have hbefore : ∀ n ∈ calls.filterMap LimiterCall.reading?, n ≤ now :=
            fun n hn => htimely.2.2 n hn now hmem
          refine (pruned_call (ih htimely.1 hbefore) c ?_).later
            (hclock now (List.mem_append_right _ hmem))
          intro now' hnow'
          exact Option.some.inj (hr.symm.trans hnow')

/-- The failures that a check at `now` counts, by the whole history. -/
def counted (ip : IpAddr) (calls : List LimiterCall) (now : Nat) : List Nat :=
  inWindow (failuresSince ip calls) now

theorem drainOld_after {calls : List LimiterCall} {ip : IpAddr} {now : Nat}
    (htimely : Timely (calls ++ [.check ip now])) :
    drainOld ((after calls).failures ip) now = counted ip calls now ∧
      (counted ip calls now).Pairwise (· ≤ ·) := by
  rw [Timely, List.filterMap_append, List.pairwise_append] at htimely
  have hpruned : Pruned now (failuresSince ip calls) ((after calls).failures ip) :=
    pruned_after htimely.1 (fun n hn => htimely.2.2 n hn now (by simp [LimiterCall.reading?])) ip
  exact ⟨hpruned.drainOld_eq (Nat.le_refl now), hpruned.sorted.filter _⟩

/-- The answer of a check, by the queue that is left after it is drained. -/
theorem check_fst (l : LoginRateLimiter) (ip : IpAddr) (now : Nat) :
    (l.check ip now).1 =
      match drainOld (l.failures ip) now with
      | [] => .ok ()
      | oldest :: rest =>
          if maxFailures ≤ (oldest :: rest).length then
            .error (max (window - (now - oldest)) second)
          else .ok () := by
  unfold check
  cases drainOld (l.failures ip) now with
  | nil => rfl
  | cons oldest rest =>
      dsimp only
      split_ifs <;> rfl

theorem failures_after_filter (calls : List LimiterCall) (ip : IpAddr) :
    (after (calls.filter fun c => c.ip = ip)).failures ip = (after calls).failures ip := by
  induction calls using List.reverseRecOn with
  | nil => rfl
  | append_singleton calls c ih =>
      rw [List.filter_append, after_snoc]
      by_cases hip : c.ip = ip
      · rw [List.filter_cons_of_pos (by simpa using hip), List.filter_nil, after_snoc]
        subst hip
        exact failures_call_congr c ih
      · rw [List.filter_cons_of_neg (by simpa using hip), List.filter_nil, List.append_nil,
          failures_call_other _ hip]
        exact ih

/-- A check counts the failures in the window since the last success of its address; calls for
other addresses have no effect on it. -/
theorem check_refines {calls : List LimiterCall} {ip : IpAddr} {now : Nat}
    (htimely : Timely (calls ++ [.check ip now])) :
    ((∃ d, ((after calls).check ip now).1 = .error d) ↔
      maxFailures ≤ (counted ip calls now).length) ∧
    (∀ d, ((after calls).check ip now).1 = .error d →
      ∃ oldest, (counted ip calls now).min? = some oldest ∧
        d = max second (window - (now - oldest))) ∧
    ((after (calls.filter fun c => c.ip = ip)).check ip now).1 =
      ((after calls).check ip now).1 := by
  rcases drainOld_after htimely with ⟨hdrain, hsorted⟩
  have hmin : (counted ip calls now).min? = (counted ip calls now).head? :=
    List.min?_eq_head? (hsorted.imp fun hle => Nat.min_eq_left hle)
  have hcheck := check_fst (after calls) ip now
  rw [hdrain] at hcheck
  refine ⟨?_, ?_, ?_⟩
  · cases hc : counted ip calls now with
    | nil => simp [hcheck, hc, maxFailures]
    | cons oldest rest =>
        simp only [hcheck, hc]
        split_ifs with hfull
        · exact iff_of_true ⟨_, rfl⟩ hfull
        · exact iff_of_false (by simp) hfull
  · intro d hd
    rw [hmin]
    rw [hcheck] at hd
    cases hc : counted ip calls now with
    | nil => simp [hc] at hd
    | cons oldest rest =>
        rw [hc] at hd
        dsimp only at hd
        split_ifs at hd
        exact ⟨oldest, rfl, (Except.error.inj hd).symm.trans (max_comm _ _)⟩
  · rw [check_fst, check_fst, failures_after_filter]

/-- Five failures lock an address out; the failure of another one changes nothing. -/
theorem check_refines_locked :
    ∃ d, ((after ((List.range 5).map (fun i => .recordFailure (.v4 1) (i * second)) ++
      [.recordFailure (.v4 2) (5 * second)])).check (.v4 1) (200 * second)).1 = .error d :=
  (check_refines (by decide)).1.2 (by decide)

end LoginRateLimiter

end Aardbin
