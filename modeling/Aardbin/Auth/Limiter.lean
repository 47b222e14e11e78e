import Mathlib.Data.List.Basic
import Mathlib.Logic.Function.Basic
import Mathlib.Tactic.Common

/-!
# The login rate limiter (`ratelimit.rs`)

A sliding window of failures for each address.  Instants and durations are nanoseconds; every
method is one atomic call, since it runs under the mutex around the map.
-/

namespace Aardbin

inductive IpAddr
  | v4 (bits : BitVec 32)
  | v6 (bits : BitVec 128)
  deriving DecidableEq, Repr

/-! ## The methods -/

/-- One second, in nanoseconds. -/
def second : Nat := 1000000000

def window : Nat := 5 * 60 * second

def maxFailures : Nat := 5

structure LoginRateLimiter where
  /-- the instants of the failures, oldest first -/
  failures : IpAddr → List Nat

namespace LoginRateLimiter

def new : LoginRateLimiter :=
  { failures := fun _ => [] }

def drainOld (queue : List Nat) (now : Nat) : List Nat :=
  queue.dropWhile fun front => window ≤ now - front

/-- May the address attempt a login?  Otherwise the remaining lockout. -/
def check (l : LoginRateLimiter) (ip : IpAddr) (now : Nat) : Except Nat Unit × LoginRateLimiter :=
  let queue := drainOld (l.failures ip) now
  let l' : LoginRateLimiter := { failures := Function.update l.failures ip queue }
  match queue with
  | [] => (.ok (), l')
  | oldest :: _ =>
      if maxFailures ≤ queue.length then (.error (max (window - (now - oldest)) second), l')
      else (.ok (), l')

def recordFailure (l : LoginRateLimiter) (ip : IpAddr) (now : Nat) : LoginRateLimiter :=
  { failures := Function.update l.failures ip (drainOld (l.failures ip) now ++ [now]) }

def recordSuccess (l : LoginRateLimiter) (ip : IpAddr) : LoginRateLimiter :=
  { failures := Function.update l.failures ip [] }

/-! ## What they keep -/

/-- The failures that still count at `now`. -/
def inWindow (queue : List Nat) (now : Nat) : List Nat :=
  queue.filter fun f => now - f < window

/-- Draining removes only failures that do not count any more. -/
theorem filter_drainOld (queue : List Nat) {now : Nat} {p : Nat → Bool}
    (hp : ∀ f, p f = true → now - f < window) : (drainOld queue now).filter p = queue.filter p := by
  induction queue with
  | nil => rfl
  | cons f rest ih =>
      unfold drainOld at ih ⊢
      rw [List.dropWhile_cons]
      split_ifs with hold
      · have hf : ¬ p f = true := by
          intro hpf
          have hlt := hp f hpf
          rw [decide_eq_true_eq] at hold
          omega
        rw [ih, List.filter_cons_of_neg hf]
      · rfl

theorem inWindow_drainOld (queue : List Nat) (now : Nat) :
    inWindow (drainOld queue now) now = inWindow queue now :=
  filter_drainOld queue fun _ h => by simpa using h

/-- As time passes, fewer failures count. -/
theorem inWindow_length_le (queue : List Nat) {clock now : Nat} (h : clock ≤ now) :
    (inWindow queue now).length ≤ (inWindow queue clock).length := by
  refine (List.monotone_filter_right queue fun f hf => ?_).length_le
  rw [decide_eq_true_eq] at hf ⊢
  omega

theorem failures_check (l : LoginRateLimiter) (ip : IpAddr) (now : Nat) :
    (l.check ip now).2.failures = Function.update l.failures ip (drainOld (l.failures ip) now) := by
  simp only [check]
  split
  · rfl
  · split_ifs <;> rfl

/-- A login is allowed only while fewer than `maxFailures` failures count. -/
theorem length_of_check_ok {l : LoginRateLimiter} {ip : IpAddr} {now : Nat}
    (h : (l.check ip now).1 = .ok ()) : (inWindow (l.failures ip) now).length < maxFailures := by
  have hlen : (inWindow (l.failures ip) now).length ≤ (drainOld (l.failures ip) now).length := by
    rw [← inWindow_drainOld]
    exact List.length_filter_le _ _
  refine Nat.lt_of_le_of_lt hlen ?_
  simp only [check] at h
  split at h
  · rename_i hnil
    rw [hnil]
    decide
  · split_ifs at h with hfull
    exact Nat.lt_of_not_le hfull

end LoginRateLimiter

end Aardbin
