import Aardbin.Auth.Login

/-!
# Guesses from one address

`watch` reads off the history which requests carry a wrong key, which of them have passed the
check, and which of them have not recorded their failure yet.  `Tally` balances these with the
failures that the limiter remembers.
-/

namespace Aardbin
namespace Auth

open Effect LoginRateLimiter Rust

/-! ## The requests that guess -/

def Request.addr? : Request → Option IpAddr
  | .login ip _ _ => some ip
  | .api addr _ => addr

/-- The key that the request carries. -/
def Request.key? : Request → Option String
  | .login _ _ form => some form.accessKey
  | .api _ headers => (headers "authorization").bind fun h => stripPrefix h "Bearer "

/-- The request comes from the address and carries a wrong key. -/
def Request.Guesses (s : AppState) (ip : IpAddr) (req : Request) : Prop :=
  req.addr? = some ip ∧ ∃ key ∈ req.key?, key ≠ s.cfg.accessKey

instance (s : AppState) (ip : IpAddr) (req : Request) : Decidable (req.Guesses s ip) :=
  inferInstanceAs (Decidable (_ ∧ ∃ key ∈ req.key?, _))

/-- What an observer of the history knows about the guesses from one address. -/
structure Watch where
  /-- the requests that carry a wrong key -/
  guessing : List ℕ := []
  /-- those that have passed the check, and whose key was not compared yet -/
  admitted : List ℕ := []
  /-- those whose key was compared, and who have not recorded their failure yet -/
  unrecorded : List ℕ := []
  /-- the comparisons so far, each with its instant -/
  compared : List (ℕ × ℕ) := []

namespace Watch

def step (s : AppState) (ip : IpAddr) (m : Watch) : Event Reply Env Unit Request Outcome → Watch
  | .start i req => if req.Guesses s ip then { m with guessing := i :: m.guessing } else m
  | .ask i _ (.check _) (.ok _) =>
      if i ∈ m.guessing then { m with admitted := i :: m.admitted } else m
  | .ask i e (.ctEq _ _) _ =>
      if i ∈ m.guessing then
        { m with
          admitted := m.admitted.erase i, unrecorded := i :: m.unrecorded
          compared := (i, e.instant) :: m.compared }
      else m
  | .ask i _ (.recordFailure _) _ => { m with unrecorded := m.unrecorded.erase i }
  | _ => m

/-- The comparisons in the window that begins at `t`. -/
def comparedIn (m : Watch) (t : ℕ) : List (ℕ × ℕ) :=
  m.compared.filter fun x => t ≤ x.2 ∧ x.2 < t + window

/-- The guesses that request `i` competes with, when it passes the check now. -/
def rivals (m : Watch) (i : ℕ) : List ℕ :=
  if i ∈ m.guessing then m.admitted ++ m.unrecorded else m.unrecorded

end Watch

def watch (s : AppState) (ip : IpAddr) (tr : Log) : Watch :=
  tr.foldl (Watch.step s ip) {}

theorem watch_snoc (s : AppState) (ip : IpAddr) (tr : Log)
    (e : Event Reply Env Unit Request Outcome) :
    watch s ip (tr ++ [e]) = (watch s ip tr).step s ip e := by
  simp [watch]

section Membership

variable {tr : Log} {e : Event Reply Env Unit Request Outcome} {j : ℕ}

/-- An event leaves the other requests where they are. -/
theorem Watch.mem_step_other (s : AppState) (ip : IpAddr) (m : Watch) (he : e.thread? ≠ some j) :
    (j ∈ (m.step s ip e).guessing ↔ j ∈ m.guessing) ∧
      (j ∈ (m.step s ip e).admitted ↔ j ∈ m.admitted) ∧
      (j ∈ (m.step s ip e).unrecorded ↔ j ∈ m.unrecorded) := by
  cases e with
  | start i req =>
      -- The event puts its own request on a list, or takes it off one.
      have hji : j ≠ i := fun h => he (congrArg some h.symm)
      simp only [Watch.step]
      split_ifs <;> simp [hji]
  | ask i env op r =>
      have hji : j ≠ i := fun h => he (congrArg some h.symm)
      cases op with
      | check ip' =>
          cases r with
          | error remaining => exact ⟨Iff.rfl, Iff.rfl, Iff.rfl⟩
          | ok _ =>
              simp only [Watch.step]
              split_ifs <;> simp [hji]
      | ctEq given expected =>
          simp only [Watch.step]
          split_ifs <;> simp [hji, List.mem_erase_of_ne hji]
      | recordFailure ip' => simp [Watch.step, List.mem_erase_of_ne hji]
      | recordSuccess ip' => exact ⟨Iff.rfl, Iff.rfl, Iff.rfl⟩
      | unixTime => exact ⟨Iff.rfl, Iff.rfl, Iff.rfl⟩
  | finish i out => exact ⟨Iff.rfl, Iff.rfl, Iff.rfl⟩
  | abandon i => exact ⟨Iff.rfl, Iff.rfl, Iff.rfl⟩
  | reboot b => exact ⟨Iff.rfl, Iff.rfl, Iff.rfl⟩

theorem watch_unused (s : AppState) (ip : IpAddr) (h : Outline.Unused j tr) : j ∉ (watch s ip tr).guessing ∧
    j ∉ (watch s ip tr).admitted ∧ j ∉ (watch s ip tr).unrecorded := by
  induction tr using List.reverseRecOn with
  | nil => simp [watch]
  | append_singleton tr e ih =>
      rcases (watch s ip tr).mem_step_other s ip (h e (by simp)) with ⟨hguess, hpassed, hunrec⟩
      rw [watch_snoc, hguess, hpassed, hunrec]
      exact ih fun e' he' => h e' (by simp [he'])

/-- Only its start tells whether a request guesses. -/
theorem guessing_ask (s : AppState) (ip : IpAddr) (i : ℕ) (env : Env) (op : Call) (r : Reply op) :
    (watch s ip (tr ++ [.ask i env op r])).guessing = (watch s ip tr).guessing := by
  rw [watch_snoc]
  cases op with
  | check ip' =>
      cases r with
      | error remaining => rfl
      | ok _ =>
          simp only [Watch.step]
          split_ifs <;> rfl
  | ctEq given expected =>
      simp only [Watch.step]
      split_ifs <;> rfl
  | recordFailure ip' => rfl
  | recordSuccess ip' => rfl
  | unixTime => rfl

end Membership

/-! ## Counting -/

theorem window_pos : 0 < window := by decide

/-- The balance of the guesses: every comparison of an open window has its failure in the queue, or
is still to record it. -/
structure Tally (m : Watch) (queue : List ℕ) (clock : ℕ) : Prop where
  past : ∀ x ∈ m.compared, x.2 ≤ clock
  room : (inWindow queue clock).length + m.admitted.length + m.unrecorded.length ≤ maxFailures
  covered : ∀ t, clock < t + window → (m.compared.filter fun x => t ≤ x.2).length ≤
    (queue.filter fun f => t ≤ f).length + m.unrecorded.length
  few : ∀ t, (m.comparedIn t).length ≤ maxFailures

namespace Tally

variable {m : Watch} {queue queue' : List ℕ} {clock now : ℕ} {i : ℕ}

theorem empty (clock : ℕ) : Tally {} [] clock := by
  refine ⟨by simp, by simp [inWindow], by simp, by simp [Watch.comparedIn]⟩

/-- The window at `now` holds every failure of a window that is still open. -/
theorem filter_le_inWindow (queue : List ℕ) {t : ℕ} (h : now < t + window) :
    (queue.filter fun f => t ≤ f).length ≤ (inWindow queue now).length := by
  refine (List.monotone_filter_right queue fun f hf => ?_).length_le
  have hpos := window_pos
  rw [decide_eq_true_eq] at hf ⊢
  omega

/-- Time passes, and the queue may lose failures that do not count any more. -/
theorem tick (h : Tally m queue clock) (hle : clock ≤ now)
    (hqueue : ∀ p : ℕ → Bool, (∀ f, p f = true → now - f < window) →
      queue'.filter p = queue.filter p) : Tally m queue' now := by
  refine ⟨fun x hx => (h.past x hx).trans hle, ?_, fun t ht => ?_, h.few⟩
  · have hsame : inWindow queue' now = inWindow queue now :=
      hqueue _ fun f hf => by simpa using hf
    have hless := inWindow_length_le queue hle
    have hroom := h.room
    rw [hsame]
    omega
  · rw [hqueue]
    · exact h.covered t (by omega)
    · intro f hf
      have hpos := window_pos
      rw [decide_eq_true_eq] at hf
      omega

theorem comparedIn_le (h : Tally m queue now) {t : ℕ} (ht : now < t + window) :
    (m.comparedIn t).length ≤ (inWindow queue now).length + m.unrecorded.length := by
  have hsub : (m.comparedIn t).length ≤ (m.compared.filter fun x => t ≤ x.2).length := by
    refine (List.monotone_filter_right m.compared fun x hx => ?_).length_le
    rw [decide_eq_true_eq] at hx ⊢
    exact hx.1
  have hcovered := h.covered t ht
  have hfilter := filter_le_inWindow queue ht
  omega

/-- A request may pass the check where there is room for one more. -/
theorem passed (h : Tally m queue now)
    (hroom : (inWindow queue now).length + m.admitted.length + m.unrecorded.length < maxFailures) :
    Tally { m with admitted := i :: m.admitted } queue now := by
  refine ⟨h.past, ?_, h.covered, h.few⟩
  simp only [List.length_cons]
  omega

/-- A comparison moves a request from the admitted to the unrecorded ones. -/
theorem compare (h : Tally m queue now) (hi : i ∈ m.admitted) :
    Tally { m with
      admitted := m.admitted.erase i, unrecorded := i :: m.unrecorded
      compared := (i, now) :: m.compared } queue now := by
  have hlen : (m.admitted.erase i).length + 1 = m.admitted.length := by
    have hpos := List.length_pos_of_mem hi
    rw [List.length_erase_of_mem hi]
    omega
  have hroom : (inWindow queue now).length + (m.admitted.erase i).length +
      (i :: m.unrecorded).length ≤ maxFailures := by
    have hold := h.room
    simp only [List.length_cons]
    omega
  refine ⟨?_, hroom, fun t ht => ?_, fun t => ?_⟩
  · intro x hx
    rcases List.mem_cons.1 hx with rfl | hx
    · exact Nat.le_refl _
    · exact h.past x hx
  · have hold := h.covered t ht
    simp only [List.filter_cons, List.length_cons]
    split_ifs
    · simp only [List.length_cons]
      omega
    · omega
  · simp only [Watch.comparedIn, List.filter_cons]
    split_ifs with hin
    · -- The window is open: its comparisons are covered.
      rw [decide_eq_true_eq] at hin
      have hle := h.comparedIn_le hin.2
      simp only [Watch.comparedIn] at hle
      simp only [List.length_cons] at hroom ⊢
      omega
    · exact h.few t

/-- A recorded failure takes the place of the request in the balance. -/
theorem record (h : Tally m queue now) (hi : i ∈ m.unrecorded) :
    Tally { m with unrecorded := m.unrecorded.erase i } (queue ++ [now]) now := by
  have hlen : (m.unrecorded.erase i).length + 1 = m.unrecorded.length := by
    have hpos := List.length_pos_of_mem hi
    rw [List.length_erase_of_mem hi]
    omega
  refine ⟨h.past, ?_, fun t ht => ?_, h.few⟩
  · have hnew : (inWindow (queue ++ [now]) now).length = (inWindow queue now).length + 1 := by
      simp [inWindow, window_pos]
    have hold := h.room
    rw [hnew]
    dsimp only
    omega
  · have hold := h.covered t ht
    by_cases htn : t ≤ now
    · simp only [List.filter_append, List.length_append, htn, decide_true, List.filter_cons,
        if_true, List.filter_nil, List.length_singleton]
      omega
    · have hnone : (m.compared.filter fun x => t ≤ x.2) = [] := by
        refine List.filter_eq_nil_iff.2 fun x hx => ?_
        have hpast := h.past x hx
        rw [decide_eq_true_eq]
        omega
      rw [hnone]
      exact Nat.zero_le _

end Tally

end Auth
end Aardbin
