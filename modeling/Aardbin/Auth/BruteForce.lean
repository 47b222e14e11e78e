import Aardbin.Auth.Attempt
import Aardbin.Effect.Ownership
import Aardbin.PlainVendor

/-!
# How many wrong keys an address can try

The limiter counts failures that were recorded, and a request records its failure only after its
key was compared: requests between the two are not counted, so that any number of them can pass
the check together.  The bound holds in the runs where a request passes the check only if those
in between and the recorded failures are still fewer than `maxFailures`.
-/

namespace Aardbin
namespace Auth

open Effect LoginRateLimiter Rust

/-! ## Guesses within five minutes -/

/-- The key of the request is not looked at, and every answer to it is 429. -/
def Refused (i : ℕ) (tr : Log) : Prop :=
  (∀ e given expected r, .ask i e (.ctEq given expected) r ∉ tr) ∧
    ∀ out, .finish i out ∈ tr → ∃ resp, out = .answered resp ∧ resp.status = .tooManyRequests

/-- In every window at most `maxFailures` wrong keys are compared, and every request that comes
after as many in the window is refused. -/
structure Bounded (s : AppState) (ip : IpAddr) (tr : Log) : Prop where
  few : ∀ t, ((watch s ip tr).comparedIn t).length ≤ maxFailures
  rest : ∀ t A i e r B, tr = A ++ .ask i e (.check ip) r :: B →
    t ≤ e.instant → e.instant < t + window →
      maxFailures ≤ ((watch s ip A).comparedIn t).length → Refused i tr

/-- A login from the address does not carry the right key. -/
def Request.Wrong (s : AppState) (ip : IpAddr) : Request → Prop
  | .login ip' _ form => ip' = ip → form.accessKey ≠ s.cfg.accessKey
  | .api _ _ => True

instance (s : AppState) (ip : IpAddr) : (req : Request) → Decidable (req.Wrong s ip)
  | .login _ _ _ => inferInstanceAs (Decidable (_ → _))
  | .api _ _ => .isTrue trivial

/-- No login from the address carries the right key, and every request runs to its end. -/
def Attack (s : AppState) (ip : IpAddr) : Guard Reply World Env Unit Request Outcome
  | _, _, .start _ req => req.Wrong s ip
  | _, _, .abandon _ => False
  | _, _, .reboot _ => False
  | _, _, _ => True

/-- Whoever passes the check while guesses are between their check and their record leaves fewer
than `maxFailures` of these and of the failures in the window. -/
def Paced (s : AppState) (ip : IpAddr) : Guard Reply World Env Unit Request Outcome
  | tr, c, .ask i e (.check ip') (.ok _) =>
      ip' = ip → (watch s ip tr).rivals i ≠ [] →
        (inWindow (c.shared.limiter.failures ip) e.instant).length +
          ((watch s ip tr).rivals i).length < maxFailures
  | tr, c, e => Attack s ip tr c e

instance (s : AppState) (ip : IpAddr) (tr : Log) (c : Pool Reply World Outcome) :
    (e : Event Reply Env Unit Request Outcome) → Decidable (Attack s ip tr c e)
  | .start _ req => inferInstanceAs (Decidable (req.Wrong s ip))
  | .abandon _ => inferInstanceAs (Decidable False)
  | .reboot _ => inferInstanceAs (Decidable False)
  | .ask _ _ _ _ | .finish _ _ => inferInstanceAs (Decidable True)

instance (s : AppState) (ip : IpAddr) (tr : Log) (c : Pool Reply World Outcome) :
    (e : Event Reply Env Unit Request Outcome) → Decidable (Paced s ip tr c e)
  | .ask _ _ (.check _) (.ok _) => inferInstanceAs (Decidable (_ → _ → _ < _))
  | .ask _ _ (.check _) (.error _) => .isTrue trivial
  | .ask _ _ (.ctEq _ _) _ | .ask _ _ (.recordFailure _) _ => .isTrue trivial
  | .ask _ _ (.recordSuccess _) _ | .ask _ _ .unixTime _ => .isTrue trivial
  | .start _ req => inferInstanceAs (Decidable (req.Wrong s ip))
  | .abandon _ => inferInstanceAs (Decidable False)
  | .reboot _ => inferInstanceAs (Decidable False)
  | .finish _ _ => inferInstanceAs (Decidable True)

/-! ## The invariant -/

/-- What is known about one request in flight. -/
structure Known (s : AppState) (ip : IpAddr) (tr : Log) (i : ℕ) (g : Attempt) : Prop where
  guessing : i ∈ (watch s ip tr).guessing ↔ g.req.Guesses s ip
  admitted : i ∈ (watch s ip tr).admitted ↔ g.req.Guesses s ip ∧ g.phase = .admitted
  unrecorded : i ∈ (watch s ip tr).unrecorded ↔ g.req.Guesses s ip ∧ g.phase = .compared false
  key : ∀ right, g.phase = .compared right →
    ∃ key ∈ g.req.key?, right = decide (key = s.cfg.accessKey)
  wrong : g.req.Wrong s ip
  unlooked : g.phase = .fresh → ∀ e given expected r, .ask i e (.ctEq given expected) r ∉ tr

structure Counted (s : AppState) (ip : IpAddr) (tr : Log) (w : World)
    (gs : ℕ → Option Attempt) : Prop where
  tally : Tally (watch s ip tr) (w.limiter.failures ip) w.clock
  known : Each (Known s ip tr) gs
  nodup : (watch s ip tr).admitted.Nodup ∧ (watch s ip tr).unrecorded.Nodup
  full : ∀ t A i e r B, tr = A ++ .ask i e (.check ip) r :: B →
    t ≤ e.instant → e.instant < t + window →
      maxFailures ≤ ((watch s ip A).comparedIn t).length → ∃ remaining, r = .error remaining
  refused : ∀ i e ip' remaining, .ask i e (.check ip') (.error remaining) ∈ tr →
    Refused i tr ∧ ∀ g, gs i = some g → g.phase = .refused
  ended : ∀ i out, .finish i out ∈ tr → gs i = none

theorem Known.other {s : AppState} {ip : IpAddr} {tr : Log} {j : ℕ} {g : Attempt}
    {e : Event Reply Env Unit Request Outcome} (h : Known s ip tr j g) (he : e.thread? ≠ some j) :
    Known s ip (tr ++ [e]) j g := by
  rcases (watch s ip tr).mem_step_other s ip he with ⟨hguess, hpassed, hunrec⟩
  refine ⟨?_, ?_, ?_, h.key, h.wrong, ?_⟩
  · rw [watch_snoc, hguess, h.guessing]
  · rw [watch_snoc, hpassed, h.admitted]
  · rw [watch_snoc, hunrec, h.unrecorded]
  · intro hphase env given expected r hmem
    rcases List.mem_append.1 hmem with hold | hnew
    · exact h.unlooked hphase env given expected r hold
    · rw [← List.mem_singleton.1 hnew] at he
      exact he rfl

theorem World.answer_eq_some {e : Env} {w w' : World} {op : Call} {r : Reply op}
    (h : w.answer e op = some (r, w')) : w.clock ≤ e.instant ∧ w'.clock = e.instant := by
  unfold World.answer at h
  split_ifs at h with hclock
  refine ⟨by omega, ?_⟩
  cases op <;> cases h <;> rfl

/-- `full` for one more event: only a check of the address matters. -/
theorem full_snoc {s : AppState} {ip : IpAddr} {tr : Log}
    {x : Event Reply Env Unit Request Outcome}
    (h : ∀ t A i e r B, tr = A ++ .ask i e (.check ip) r :: B →
      t ≤ e.instant → e.instant < t + window →
        maxFailures ≤ ((watch s ip A).comparedIn t).length → ∃ remaining, r = .error remaining)
    (hx : ∀ t i e r, x = .ask i e (.check ip) r → t ≤ e.instant → e.instant < t + window →
      maxFailures ≤ ((watch s ip tr).comparedIn t).length → ∃ remaining, r = .error remaining) :
    ∀ t A i e r B, tr ++ [x] = A ++ .ask i e (.check ip) r :: B →
      t ≤ e.instant → e.instant < t + window →
        maxFailures ≤ ((watch s ip A).comparedIn t).length → ∃ remaining, r = .error remaining := by
  intro t A i e r B hsplit hlo hhi hmany
  -- The check is the new event, or it was there before.
  rcases snoc_eq_append_cons.1 hsplit with ⟨rfl, hx', -⟩ | ⟨B', -, hsplit'⟩
  · exact hx t i e r hx' hlo hhi hmany
  · exact h t A i e r B' hsplit' hlo hhi hmany

theorem Refused.snoc {i : ℕ} {tr : Log} {x : Event Reply Env Unit Request Outcome}
    (h : Refused i tr) (hask : ∀ e given expected r, x ≠ .ask i e (.ctEq given expected) r)
    (hfinish : ∀ out, x = .finish i out →
      ∃ resp, out = .answered resp ∧ resp.status = .tooManyRequests) : Refused i (tr ++ [x]) := by
  refine ⟨fun e given expected r hmem => ?_, fun out hmem => ?_⟩
  · rcases List.mem_append.1 hmem with hold | hnew
    · exact h.1 e given expected r hold
    · exact hask e given expected r (List.mem_singleton.1 hnew).symm
  · rcases List.mem_append.1 hmem with hold | hnew
    · exact h.2 out hold
    · exact hfinish out (List.mem_singleton.1 hnew).symm

namespace Counted

variable {s : AppState} {ip : IpAddr} {tr : Log} {w w' : World} {gs : ℕ → Option Attempt}
  {i : ℕ} {g : Attempt}

theorem empty (clock : ℕ) :
    Counted s ip [] { limiter := .new, clock } fun _ => none := by
  refine ⟨.empty clock, .idle, ⟨.nil, .nil⟩, ?_, ?_, fun _ _ _ => rfl⟩
  · intro t A i e r B hsplit
    simp at hsplit
  · intro i e ip' remaining hmem
    cases hmem

/-- A request that has had a wrong comparison guesses. -/
theorem guesses_of_compared (h : Known s ip tr i g) (hphase : g.phase = .compared false)
    (haddr : g.req.addr? = some ip) : g.req.Guesses s ip := by
  rcases h.key false hphase with ⟨key, hkey, hwrong⟩
  exact ⟨haddr, key, hkey, by simpa using hwrong.symm⟩

theorem tally_ask {c : Pool Reply World Outcome} (h : Counted s ip tr c.shared gs)
    (hi : gs i = some g) {e : Env} {op : Call} {r : Reply op} (hpre : g.pre s op)
    (hguard : Paced s ip tr c (.ask i e op r)) (hans : c.shared.answer e op = some (r, w')) :
    Tally (watch s ip (tr ++ [.ask i e op r])) (w'.limiter.failures ip) w'.clock := by
  rcases World.answer_eq_some hans with ⟨hle, hclock⟩
  have hk := h.known i g hi
  have hsame : Tally (watch s ip tr) (c.shared.limiter.failures ip) e.instant :=
    h.tally.tick hle fun _ _ => rfl
  have hdrained : Tally (watch s ip tr)
      (drainOld (c.shared.limiter.failures ip) e.instant) e.instant :=
    h.tally.tick hle fun _ hp => filter_drainOld _ hp
  unfold World.answer at hans
  rw [if_neg (by omega)] at hans
  rw [watch_snoc, hclock]
  cases op with
  | check ip' =>
      simp only [Option.some.injEq, Prod.mk.injEq] at hans
      rcases hans with ⟨hr, rfl⟩
      have htick : Tally (watch s ip tr)
          ((c.shared.limiter.check ip' e.instant).2.failures ip) e.instant := by
        rw [failures_check]
        by_cases hip : ip = ip'
        · subst hip
          simpa using hdrained
        · simpa [hip] using hsame
      cases r with
      | error remaining => exact htick
      | ok v =>
          simp only [Watch.step]
          split_ifs with hguess
          · -- The request may pass: the condition, or else the limiter, leaves room for it.
            have hip : ip' = ip := by
              have haddr := (hk.guessing.1 hguess).1
              rw [hpre.2] at haddr
              exact Option.some.inj haddr
            subst hip
            refine htick.passed ?_
            rw [failures_check, Function.update_self, inWindow_drainOld]
            by_cases hrivals : (watch s ip' tr).rivals i = []
            · have hok := length_of_check_ok (l := c.shared.limiter) hr
              simp only [Watch.rivals, hguess, if_true, List.append_eq_nil_iff] at hrivals
              simpa [hrivals.1, hrivals.2] using hok
            · have hroom := hguard rfl hrivals
              simp only [Watch.rivals, hguess, if_true, List.length_append] at hroom
              omega
          · exact htick
  | ctEq given expected =>
      simp only [Option.some.injEq, Prod.mk.injEq] at hans
      rcases hans with ⟨rfl, rfl⟩
      simp only [Watch.step]
      split_ifs with hguess
      · exact hsame.compare (hk.admitted.2 ⟨hk.guessing.1 hguess, hpre.1⟩)
      · exact hsame
  | recordFailure ip' =>
      simp only [Option.some.injEq, Prod.mk.injEq] at hans
      rcases hans with ⟨-, rfl⟩
      simp only [Watch.step, recordFailure]
      by_cases hip : ip = ip'
      · -- The failure of this request joins the queue, and the request leaves `unrecorded`.
        subst hip
        rw [Function.update_self]
        exact hdrained.record
          (hk.unrecorded.2 ⟨guesses_of_compared hk hpre.1 hpre.2, hpre.1⟩)
      · -- A request from another address is not on the lists of this one.
        have hnot : i ∉ (watch s ip tr).unrecorded := by
          intro hmem
          have haddr := (hk.unrecorded.1 hmem).1.1
          rw [hpre.2] at haddr
          exact hip (Option.some.inj haddr).symm
        rw [Function.update_of_ne hip, List.erase_of_not_mem hnot]
        exact hsame
  | recordSuccess ip' =>
      simp only [Option.some.injEq, Prod.mk.injEq] at hans
      rcases hans with ⟨-, rfl⟩
      simp only [Watch.step, recordSuccess]
      by_cases hip : ip = ip'
      · -- This would be a login from the address with the right key.
        subst hip
        rcases hpre with ⟨hphase, headers, form, hreq⟩
        rcases hk.key true hphase with ⟨key, hkey, hright⟩
        have hwrong := hk.wrong
        rw [hreq] at hkey hwrong
        simp only [Request.key?, Option.mem_def, Option.some.injEq] at hkey
        subst hkey
        exact absurd (of_decide_eq_true hright.symm) (hwrong rfl)
      · rw [Function.update_of_ne hip]
        exact hsame
  | unixTime =>
      simp only [Option.some.injEq, Prod.mk.injEq] at hans
      rcases hans with ⟨-, rfl⟩
      exact hsame

/-- What a request knows about itself after its own call. -/
theorem known_ask (h : Counted s ip tr w gs) (hi : gs i = some g) {e : Env} {op : Call}
    {r : Reply op} (hpre : g.pre s op) (hans : w.answer e op = some (r, w')) :
    Known s ip (tr ++ [.ask i e op r]) i (g.upd op r) := by
  have hk := h.known i g hi
  have hpassed := hk.admitted
  have hunrec := hk.unrecorded
  have hguessing : i ∈ (watch s ip (tr ++ [.ask i e op r])).guessing ↔
      (g.upd op r).req.Guesses s ip := by
    rw [guessing_ask, Attempt.req_upd]
    exact hk.guessing
  have hwrong : (g.upd op r).req.Wrong s ip := by
    rw [Attempt.req_upd]
    exact hk.wrong
  cases op with
  | check ip' =>
      rw [hpre.1] at hpassed hunrec
      refine ⟨hguessing, ?_, ?_, ?_, hwrong, ?_⟩
      · cases r with
        | error remaining => simpa [watch_snoc, Watch.step, Attempt.upd] using hpassed
        | ok v =>
            rw [watch_snoc]
            simp only [Watch.step]
            split_ifs with hguess
            · simpa [Attempt.upd] using hk.guessing.1 hguess
            · rw [hk.guessing] at hguess
              simpa [Attempt.upd, hguess] using hpassed
      · cases r with
        | error remaining => simpa [watch_snoc, Watch.step, Attempt.upd] using hunrec
        | ok v =>
            rw [watch_snoc]
            simp only [Watch.step]
            split_ifs <;> simpa [Attempt.upd] using hunrec
      · cases r <;> simp [Attempt.upd]
      · cases r <;> simp [Attempt.upd]
  | ctEq given expected =>
      rcases hpre with ⟨hphase, hkey, rfl⟩
      rw [hphase] at hpassed hunrec
      have hr : r = decide (given = s.cfg.accessKey) := by
        unfold World.answer at hans
        split_ifs at hans
        simp only [Option.some.injEq, Prod.mk.injEq] at hans
        exact hans.1.symm
      -- A guess compares a wrong key.
      have hfalse : g.req.Guesses s ip → r = false := by
        rintro ⟨-, key, hmem, hne⟩
        rw [hkey, Option.mem_def, Option.some.injEq] at hmem
        simpa [hr, hmem] using hne
      refine ⟨hguessing, ?_, ?_, ?_, hwrong, by simp [Attempt.upd]⟩
      · rw [watch_snoc]
        simp only [Watch.step]
        split_ifs with hguess
        · -- It was admitted once, so erasing it leaves no copy.
          simp [Attempt.upd, h.nodup.1.not_mem_erase]
        · rw [hk.guessing] at hguess
          simpa [Attempt.upd, hguess] using hpassed
      · rw [watch_snoc]
        simp only [Watch.step]
        split_ifs with hguess
        · have hguesses := hk.guessing.1 hguess
          simp [Attempt.upd, hguesses, hfalse hguesses]
        · rw [hk.guessing] at hguess
          simpa [Attempt.upd, hguess] using hunrec
      · intro right hright
        cases hright
        exact ⟨given, hkey, hr⟩
  | recordFailure ip' =>
      rw [hpre.1] at hpassed hunrec
      refine ⟨hguessing, ?_, ?_, by simp [Attempt.upd], hwrong, by simp [Attempt.upd]⟩
      · simpa [watch_snoc, Watch.step, Attempt.upd] using hpassed
      · simp [watch_snoc, Watch.step, Attempt.upd, h.nodup.2.not_mem_erase]
  | recordSuccess ip' =>
      rw [hpre.1] at hpassed hunrec
      refine ⟨hguessing, ?_, ?_, by simp [Attempt.upd], hwrong, by simp [Attempt.upd]⟩
      · simpa [watch_snoc, Watch.step, Attempt.upd] using hpassed
      · simpa [watch_snoc, Watch.step, Attempt.upd] using hunrec
  | unixTime =>
      refine ⟨hguessing, ?_, ?_, hk.key, hwrong, ?_⟩
      · simpa [watch_snoc, Watch.step, Attempt.upd] using hpassed
      · simpa [watch_snoc, Watch.step, Attempt.upd] using hunrec
      · intro hphase env given expected r' hmem
        rcases List.mem_append.1 hmem with hold | hnew
        · exact hk.unlooked hphase env given expected r' hold
        · simp at hnew

theorem nodup_ask (h : Counted s ip tr w gs) (hi : gs i = some g) {e : Env} {op : Call}
    {r : Reply op} (hpre : g.pre s op) :
    (watch s ip (tr ++ [.ask i e op r])).admitted.Nodup ∧
      (watch s ip (tr ++ [.ask i e op r])).unrecorded.Nodup := by
  have hk := h.known i g hi
  rw [watch_snoc]
  cases op with
  | check ip' =>
      cases r with
      | error remaining => exact h.nodup
      | ok v =>
          simp only [Watch.step]
          split_ifs
          · -- A fresh request is not on the list yet.
            refine ⟨List.nodup_cons.2 ⟨?_, h.nodup.1⟩, h.nodup.2⟩
            rw [hk.admitted, hpre.1]
            simp
          · exact h.nodup
  | ctEq given expected =>
      simp only [Watch.step]
      split_ifs
      · refine ⟨h.nodup.1.erase i, List.nodup_cons.2 ⟨?_, h.nodup.2⟩⟩
        rw [hk.unrecorded, hpre.1]
        simp
      · exact h.nodup
  | recordFailure ip' => exact ⟨h.nodup.1, h.nodup.2.erase i⟩
  | recordSuccess ip' => exact h.nodup
  | unixTime => exact h.nodup

/-- After as many comparisons as the window may have, nobody passes the check. -/
theorem full_ask {c : Pool Reply World Outcome} (h : Counted s ip tr c.shared gs) {e : Env}
    {r : Except Nat Unit} (hguard : Paced s ip tr c (.ask i e (.check ip) r))
    (hans : c.shared.answer e (.check ip) = some (r, w')) {t : ℕ}
    (hhi : e.instant < t + window) (hmany : maxFailures ≤ ((watch s ip tr).comparedIn t).length) :
    ∃ remaining, r = .error remaining := by
  cases r with
  | error remaining => exact ⟨remaining, rfl⟩
  | ok v =>
      exfalso
      have hle := (World.answer_eq_some hans).1
      have hnow : Tally (watch s ip tr) (c.shared.limiter.failures ip) e.instant :=
        h.tally.tick hle fun _ _ => rfl
      have hcount := hnow.comparedIn_le hhi
      -- Nobody in between: the limiter counts all; otherwise the condition does.
      by_cases hrivals : (watch s ip tr).rivals i = []
      · have hnone : (watch s ip tr).unrecorded = [] := by
          unfold Watch.rivals at hrivals
          split_ifs at hrivals
          · exact (List.append_eq_nil_iff.1 hrivals).2
          · exact hrivals
        have hok : (c.shared.limiter.check ip e.instant).1 = .ok () := by
          unfold World.answer at hans
          rw [if_neg (by omega)] at hans
          simp only [Option.some.injEq, Prod.mk.injEq] at hans
          exact hans.1
        have hless := length_of_check_ok hok
        rw [hnone, List.length_nil] at hcount
        omega
      · have hroom := hguard rfl hrivals
        have hsub : (watch s ip tr).unrecorded.length ≤ ((watch s ip tr).rivals i).length := by
          unfold Watch.rivals
          split_ifs
          · simp
          · exact Nat.le_refl _
        omega

theorem refused_ask (h : Counted s ip tr w gs) (hi : gs i = some g) {e : Env} {op : Call}
    {r : Reply op} (hpre : g.pre s op) :
    ∀ j e' ip' remaining,
      .ask j e' (.check ip') (.error remaining) ∈ tr ++ [.ask i e op r] →
        Refused j (tr ++ [.ask i e op r]) ∧
          ∀ g', Function.update gs i (some (g.upd op r)) j = some g' → g'.phase = .refused := by
  intro j e' ip' remaining hmem
  rcases List.mem_append.1 hmem with hold | hnew
  · -- Refused before: it asks nothing more.
    rcases h.refused j e' ip' remaining hold with ⟨hrefused, hphase⟩
    by_cases hji : j = i
    · subst hji
      have hg := hphase g hi
      cases op with
      | unixTime =>
          -- The one call that asks for no phase.
          refine ⟨hrefused.snoc (by simp) (by simp), fun g' hg' => ?_⟩
          rw [Function.update_self, Option.some.injEq] at hg'
          rw [← hg']
          exact hg
      | _ =>
          have hne := hpre.1
          rw [hg] at hne
          cases hne
    · refine ⟨hrefused.snoc ?_ (by simp), fun g' hg' => ?_⟩
      · intro env given expected r' heq
        cases heq
        exact hji rfl
      · rw [Function.update_of_ne hji] at hg'
        exact hphase g' hg'
  · -- Refused now: a fresh request has compared nothing.
    have heq := List.mem_singleton.1 hnew
    cases heq
    refine ⟨⟨?_, ?_⟩, fun g' hg' => ?_⟩
    · intro env given expected r' hmem'
      rcases List.mem_append.1 hmem' with hold | hnew'
      · exact (h.known i g hi).unlooked hpre.1 env given expected r' hold
      · simp at hnew'
    · intro out hmem'
      rcases List.mem_append.1 hmem' with hold | hnew'
      · rw [h.ended i out hold] at hi
        cases hi
      · simp at hnew'
    · rw [Function.update_self, Option.some.injEq] at hg'
      rw [← hg']
      rfl

theorem ask {c : Pool Reply World Outcome} (h : Counted s ip tr c.shared gs)
    (hi : gs i = some g) {e : Env} {op : Call} {r : Reply op} (hpre : g.pre s op)
    (hguard : Paced s ip tr c (.ask i e op r)) (hans : c.shared.answer e op = some (r, w')) :
    Counted s ip (tr ++ [.ask i e op r]) w' (Function.update gs i (some (g.upd op r))) := by
  refine ⟨h.tally_ask hi hpre hguard hans, h.known.set (h.known_ask hi hpre hans) ?_,
    h.nodup_ask hi hpre, full_snoc h.full ?_, h.refused_ask hi hpre, ?_⟩
  · exact fun j g' hj _ hk => hk.other (by simpa [Event.thread?] using Ne.symm hj)
  · intro t j e' r' hx _ hhi hmany
    cases hx
    exact h.full_ask hguard hans hhi hmany
  · intro j out hmem
    rcases List.mem_append.1 hmem with hold | hnew
    · have hji : j ≠ i := by
        rintro rfl
        rw [h.ended j out hold] at hi
        cases hi
      rw [Function.update_of_ne hji]
      exact h.ended j out hold
    · simp at hnew

theorem start (h : Counted s ip tr w gs) (req : Request) (hwrong : req.Wrong s ip)
    (hunused : Outline.Unused i tr) :
    Counted s ip (tr ++ [.start i req]) w
      (Function.update gs i (some { req, phase := .fresh })) := by
  rcases watch_unused s ip hunused with ⟨hguess, hpassed, hunrec⟩
  refine ⟨?_, h.known.set ⟨?_, ?_, ?_, by simp, hwrong, ?_⟩ ?_, ?_,
    full_snoc h.full (by simp), ?_, ?_⟩
  · rw [watch_snoc]
    simp only [Watch.step]
    split_ifs
    · exact ⟨h.tally.past, h.tally.room, h.tally.covered, h.tally.few⟩
    · exact h.tally
  · -- The new request is watched exactly when it is a guess from `ip`.
    rw [watch_snoc]
    simp only [Watch.step]
    split_ifs with hg
    · simp [hg]
    · simp [hg, hguess]
  · rw [watch_snoc]
    simp only [Watch.step]
    split_ifs <;> simp [hpassed]
  · rw [watch_snoc]
    simp only [Watch.step]
    split_ifs <;> simp [hunrec]
  · -- A number that was not given out yet has no comparison in the history.
    intro _ env given expected r hmem
    rcases List.mem_append.1 hmem with hold | hnew
    · exact hunused _ hold rfl
    · simp at hnew
  · exact fun j g' hj _ hk => hk.other (by simpa [Event.thread?] using Ne.symm hj)
  · rw [watch_snoc]
    simp only [Watch.step]
    split_ifs <;> exact h.nodup
  · intro j e ip' remaining hmem
    have hold : .ask j e (.check ip') (.error remaining) ∈ tr := by simpa using hmem
    have hji : j ≠ i := by
      rintro rfl
      exact hunused _ hold rfl
    rcases h.refused j e ip' remaining hold with ⟨hrefused, hphase⟩
    refine ⟨hrefused.snoc (by simp) (by simp), fun g' hg' => ?_⟩
    rw [Function.update_of_ne hji] at hg'
    exact hphase g' hg'
  · intro j out hmem
    have hold : .finish j out ∈ tr := by simpa using hmem
    have hji : j ≠ i := by
      rintro rfl
      exact hunused _ hold rfl
    rw [Function.update_of_ne hji]
    exact h.ended j out hold

theorem finish (h : Counted s ip tr w gs) (hi : gs i = some g) {out : Outcome}
    (hpost : AttemptPost out g) :
    Counted s ip (tr ++ [.finish i out]) w (Function.update gs i none) := by
  have hsame : watch s ip (tr ++ [.finish i out]) = watch s ip tr := watch_snoc s ip tr _
  refine ⟨hsame ▸ h.tally, h.known.drop ?_, hsame ▸ h.nodup, full_snoc h.full (by simp), ?_, ?_⟩
  · exact fun j g' hj _ hk => hk.other (by simpa [Event.thread?] using Ne.symm hj)
  · intro j e ip' remaining hmem
    have hold : .ask j e (.check ip') (.error remaining) ∈ tr := by simpa using hmem
    rcases h.refused j e ip' remaining hold with ⟨hrefused, hphase⟩
    refine ⟨hrefused.snoc (by simp) ?_, fun g' hg' => ?_⟩
    · -- A request that was refused can only answer 429.
      intro out' heq
      cases heq
      exact hpost (hphase g hi)
    · by_cases hji : j = i
      · subst hji
        simp at hg'
      · rw [Function.update_of_ne hji] at hg'
        exact hphase g' hg'
  · intro j out' hmem
    by_cases hji : j = i
    · subst hji
      simp
    · rw [Function.update_of_ne hji]
      rcases List.mem_append.1 hmem with hold | hnew
      · exact h.ended j out' hold
      · have heq := List.mem_singleton.1 hnew
        cases heq
        exact absurd rfl hji

end Counted

/-! ## Runs -/

def counting (s : AppState) (ip : IpAddr) : Outline (gate s) (attempt s) where
  born := fun _ req => { req, phase := .fresh }
  post := fun _ => AttemptPost
  inv := fun tr w gs => Counted s ip tr w gs

theorem counting_valid (s : AppState) (ip : IpAddr) : (counting s ip).Valid (Paced s ip) where
  handler := fun _ req => wp_attempt_handle s req
  start := by
    intro tr c gs i req hguard hunused _ h
    exact h.start req hguard hunused
  ask := by
    intro tr c gs i g e op r w' hguard _ hi hpre hans h
    exact ⟨g.upd op r, rfl, h.ask hi hpre hguard hans⟩
  finish := by
    intro tr c gs i g req out _ _ hi hpost h
    exact h.finish hi hpost
  abandon := by
    intro tr c gs i g hguard
    exact hguard.elim
  reboot := by
    intro tr c gs b hguard
    exact hguard.elim

/-- The brute-force bound, in the runs where nobody passes the check together with too many
guesses that are not recorded yet. -/
theorem guesses_bounded (s : AppState) (ip : IpAddr) {clock : ℕ} {tr : Log}
    {c : Pool Reply World Outcome}
    (h : (gate s).Run (Paced s ip) { limiter := .new, clock } tr c) : Bounded s ip tr := by
  rcases (counting_valid s ip).run (Counted.empty clock) h with ⟨gs, hinv, -, -⟩
  refine ⟨hinv.tally.few, ?_⟩
  intro t A i e r B hsplit hlo hhi hmany
  rcases hinv.full t A i e r B hsplit hlo hhi hmany with ⟨remaining, rfl⟩
  exact (hinv.refused i e ip remaining (by simp [hsplit])).1

/-- A client that tries a wrong key. -/
def wrongLogin : Request :=
  .login (.v4 1) noHeaders { accessKey := "guess" }

def wrongApi : Request :=
  .api (some (.v4 1)) fun name => if name = "authorization" then some "Bearer guess" else none

/-- Request `i` takes a step at each of the instants. -/
def stepsAt (i : ℕ) (instants : List ℕ) : List (Move Env Unit Request) :=
  instants.map fun t => .step i { instant := t }

/-- Two logins overlap, three API requests follow, and one more request is refused. -/
theorem guesses_bounded_run : ∃ tr c,
    (gate .plain).Run (Paced .plain (.v4 1)) { limiter := .new, clock := 0 } tr c ∧
      ((watch .plain (.v4 1) tr).comparedIn 0).length = 5 ∧ c.started = 6 ∧
        Bounded .plain (.v4 1) tr := by
  have hplay : ∃ tr c,
      (gate .plain).Run (Paced .plain (.v4 1)) { limiter := .new, clock := 0 } tr c ∧
        ((watch .plain (.v4 1) tr).comparedIn 0).length = 5 ∧ c.started = 6 := by
    refine Service.exists_run ([.start wrongLogin, .start wrongLogin] ++
      stepsAt 0 [1] ++ stepsAt 1 [2] ++ stepsAt 0 [3, 4, 4] ++ stepsAt 1 [5, 6, 6] ++
      .start wrongApi :: stepsAt 2 [7, 8, 9, 9] ++ .start wrongApi :: stepsAt 3 [10, 11, 12, 12] ++
      .start wrongApi :: stepsAt 4 [13, 14, 15, 15] ++ .start wrongLogin :: stepsAt 5 [16, 16]) ?_
    decide +kernel
  rcases hplay with ⟨tr, c, hrun, hcount, hstarted⟩
  exact ⟨tr, c, hrun, hcount, hstarted, guesses_bounded _ _ hrun⟩

/-- Six logins pass the check before the first of them records its failure. -/
theorem guesses_pass_together :
    ¬ ∀ (s : AppState) (ip : IpAddr) (clock : ℕ) (tr : Log) (c : Pool Reply World Outcome),
      (gate s).Run (Attack s ip) { limiter := .new, clock } tr c → Bounded s ip tr := by
  intro hall
  have hplay : ∃ tr c,
      (gate .plain).Run (Attack .plain (.v4 1)) { limiter := .new, clock := 0 } tr c ∧
        ((watch .plain (.v4 1) tr).comparedIn 0).length = 6 := by
    refine Service.exists_run (List.replicate 6 (.start wrongLogin) ++
      (List.range 6).flatMap (fun i => stepsAt i [1]) ++
      (List.range 6).flatMap fun i => stepsAt i [2, 2, 2]) ?_
    decide +kernel
  rcases hplay with ⟨tr, c, hrun, hcount⟩
  have hle := (hall _ _ _ tr c hrun).few 0
  rw [hcount] at hle
  exact absurd hle (by decide)

end Auth
end Aardbin
