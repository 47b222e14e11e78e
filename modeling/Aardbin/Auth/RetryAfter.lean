import Aardbin.Auth.BruteForce
import Aardbin.Auth.SlidingWindow
import Aardbin.Effect.Serial

/-!
# How long a refused client is told to wait

A refusal names the rest of the lockout in whole seconds, rounded down.  A client that waits as
long as it was told is refused again if it was refused at a fraction of a second.
-/

namespace Aardbin

/-! ## The queues between two requests -/

namespace LoginRateLimiter

/-- A queue as requests leave it that are handled one at a time. -/
structure Kept (clock : ℕ) (queue : List ℕ) : Prop where
  sorted : queue.Pairwise (· ≤ ·)
  past : ∀ f ∈ queue, f ≤ clock
  few : queue.length ≤ maxFailures

namespace Kept

variable {clock now : ℕ} {queue : List ℕ}

theorem empty (clock : ℕ) : Kept clock [] :=
  ⟨.nil, by simp, Nat.zero_le _⟩

theorem later (h : Kept clock queue) (hnow : clock ≤ now) : Kept now queue :=
  ⟨h.sorted, fun f hf => (h.past f hf).trans hnow, h.few⟩

theorem drain (h : Kept clock queue) (hnow : clock ≤ now) : Kept now (drainOld queue now) := by
  have hsub : (drainOld queue now).Sublist queue := List.dropWhile_sublist _
  exact ⟨h.sorted.sublist hsub, fun f hf => (h.past f (hsub.subset hf)).trans hnow,
    hsub.length_le.trans h.few⟩

theorem push (h : Kept now queue) (hroom : queue.length < maxFailures) :
    Kept now (queue ++ [now]) := by
  rcases sorted_push h.sorted h.past with ⟨hsorted, hpast⟩
  refine ⟨hsorted, hpast, ?_⟩
  rw [List.length_append, List.length_singleton]
  omega

theorem drainOld_eq (h : Kept clock queue) (hnow : clock ≤ now) :
    drainOld queue now = inWindow queue now :=
  (Pruned.mk ⟨[], rfl, by simp⟩ h.sorted h.past).drainOld_eq hnow

end Kept

theorem drainOld_length_le (queue : List ℕ) (now : ℕ) :
    (drainOld queue now).length ≤ queue.length :=
  (List.dropWhile_sublist _).length_le

theorem check_ok_iff (l : LoginRateLimiter) (ip : IpAddr) (now : ℕ) :
    (l.check ip now).1 = .ok () ↔ (drainOld (l.failures ip) now).length < maxFailures := by
  rw [check_fst]
  cases drainOld (l.failures ip) now with
  | nil => simp [maxFailures]
  | cons oldest rest =>
      dsimp only
      split_ifs with hfull
      · simpa using hfull
      · simpa using hfull

/-- A refused address has its failures in the queue, and waits for the oldest of them. -/
theorem check_error {l : LoginRateLimiter} {ip : IpAddr} {now d : ℕ}
    (h : (l.check ip now).1 = .error d) :
    maxFailures ≤ (drainOld (l.failures ip) now).length ∧
      ∃ oldest rest, drainOld (l.failures ip) now = oldest :: rest ∧
        d = max (window - (now - oldest)) second := by
  have hfull : maxFailures ≤ (drainOld (l.failures ip) now).length := by
    refine Nat.le_of_not_lt fun hlt => ?_
    rw [← check_ok_iff, h] at hlt
    cases hlt
  refine ⟨hfull, ?_⟩
  rw [check_fst] at h
  cases hq : drainOld (l.failures ip) now with
  | nil => simp [hq] at h
  | cons oldest rest =>
      rw [hq] at h hfull
      dsimp only at h
      rw [if_pos hfull] at h
      exact ⟨oldest, rest, rfl, (Except.error.inj h).symm⟩

/-- When the oldest failure has left the window, there is room for another one. -/
theorem check_ok_of_passed {l : LoginRateLimiter} {ip : IpAddr} {oldest now : ℕ} {rest : List ℕ}
    (hqueue : l.failures ip = oldest :: rest) (hfew : (oldest :: rest).length ≤ maxFailures)
    (hpassed : window ≤ now - oldest) : (l.check ip now).1 = .ok () := by
  have hdrop : drainOld (oldest :: rest) now = drainOld rest now :=
    List.dropWhile_cons_of_pos (decide_eq_true hpassed)
  have hle := drainOld_length_le rest now
  rw [check_ok_iff, hqueue, hdrop]
  rw [List.length_cons] at hfew
  omega

end LoginRateLimiter

namespace Auth

open Effect LoginRateLimiter Rust

/-! ## Refusals -/

def Outcome.TooMany : Outcome → Prop
  | .answered resp => resp.status = .tooManyRequests
  | .admitted => False

/-- The answer is 429, and the client shall come back after `n` seconds. -/
def Outcome.RetryAfter (n : ℕ) : Outcome → Prop
  | .answered resp => resp.status = .tooManyRequests ∧ ("retry-after", toString n) ∈ resp.headers
  | .admitted => False

instance (n : ℕ) : (out : Outcome) → Decidable (out.RetryAfter n)
  | .answered _ => inferInstanceAs (Decidable (_ ∧ _))
  | .admitted => .isFalse id

theorem Outcome.RetryAfter.tooMany {out : Outcome} {n : ℕ} (h : out.RetryAfter n) :
    out.TooMany := by
  cases out with
  | answered resp => exact h.1
  | admitted => exact h

/-- Different numbers of seconds are spelt differently, so a header names one number only. -/
theorem Outcome.retryAfter_iff {resp : Response} {n m : ℕ} {mime : String}
    (hstatus : resp.status = .tooManyRequests)
    (hheaders : resp.headers = [("retry-after", toString m), ("content-type", mime)]) :
    (Outcome.answered resp).RetryAfter n ↔ n = m := by
  constructor
  · rintro ⟨-, hn⟩
    rw [hheaders] at hn
    exact repr_injective (by simpa using hn)
  · rintro rfl
    refine ⟨hstatus, ?_⟩
    rw [hheaders]
    exact List.mem_cons_self

/-- The request from the address came at `t`: this is when it asked the limiter. -/
def ArrivedAt (log : List (Asked Reply Env)) (ip : IpAddr) (t : ℕ) : Prop :=
  ∃ x ∈ log, x.op = .check ip ∧ x.env.instant = t

instance (log : List (Asked Reply Env)) (ip : IpAddr) (t : ℕ) : Decidable (ArrivedAt log ip t) :=
  inferInstanceAs (Decidable (∃ x ∈ log, _))

/-! ## One request -/

/-- What a passed request makes of the limiter: it records at most one outcome of its key. -/
inductive Tried (ip : IpAddr) (l : LoginRateLimiter) (now : ℕ) : LoginRateLimiter → Prop
  | nothing : Tried ip l now l
  | failure : Tried ip l now (l.recordFailure ip now)
  | success : Tried ip l now (l.recordSuccess ip)

/-- A request from the address asks the limiter first, and is refused or goes on. -/
inductive Handled (ip : IpAddr) (w : World) : List (Asked Reply Env) → World → Outcome → Prop
  | refused {e : Env} {d : ℕ} {out : Outcome} :
      w.clock ≤ e.instant → (w.limiter.check ip e.instant).1 = .error d → out.TooMany →
      (∀ n, out.RetryAfter n ↔ n = d / second) →
      Handled ip w [⟨e, .check ip, .error d⟩]
        { limiter := (w.limiter.check ip e.instant).2, clock := e.instant } out
  | passed {e : Env} {rest : List (Asked Reply Env)} {w' : World} {now : ℕ} {out : Outcome} :
      w.clock ≤ e.instant → (w.limiter.check ip e.instant).1 = .ok () → ¬ out.TooMany →
      (∀ x ∈ rest, ∀ ip', x.op ≠ .check ip') → e.instant ≤ now → now ≤ w'.clock →
      Tried ip (w.limiter.check ip e.instant).2 now w'.limiter →
      Handled ip w (⟨e, .check ip, .ok ()⟩ :: rest) w' out

/-- What a call makes of the limiter. -/
def Call.act (l : LoginRateLimiter) (now : ℕ) : Call → LoginRateLimiter
  | .check ip => (l.check ip now).2
  | .recordFailure ip => l.recordFailure ip now
  | .recordSuccess ip => l.recordSuccess ip
  | .ctEq _ _ => l
  | .unixTime => l

theorem World.answer_act {e : Env} {w w' : World} {op : Call} {r : Reply op}
    (h : w.answer e op = some (r, w')) :
    w.clock ≤ e.instant ∧ w' = { limiter := op.act w.limiter e.instant, clock := e.instant } := by
  unfold World.answer at h
  split_ifs at h with hclock
  refine ⟨Nat.le_of_not_lt hclock, ?_⟩
  cases op <;> cases h <;> rfl

theorem World.reply_check {e : Env} {w w' : World} {ip : IpAddr} {r : Except Nat Unit}
    (h : w.answer e (.check ip) = some (r, w')) : (w.limiter.check ip e.instant).1 = r := by
  unfold World.answer at h
  split_ifs at h
  cases h
  rfl

theorem wp_handled_postLogin (s : AppState) (ip : IpAddr) (headers : HeaderMap) (form : LoginForm)
    (w : World) :
    wp (recording World.answer) (postLogin s ip headers form)
      (fun resp g => Handled ip w g.2 g.1 (.answered resp)) (w, []) := by
  simp only [postLogin, wp_bind]
  refine recording_step fun e r w₁ hcheck => ?_
  have hr := World.reply_check hcheck
  rcases World.answer_act hcheck with ⟨hle, rfl⟩
  cases r with
  | error d =>
      -- Refused: nothing else is asked.
      exact .refused hle hr rfl fun n => Outcome.retryAfter_iff rfl rfl
  | ok _ =>
      refine recording_step fun e₂ right w₂ hct => ?_
      rcases World.answer_act hct with ⟨hle₂, rfl⟩
      cases right with
      | true =>
          -- A right key clears the queue, and the cookie asks for the time.
          refine recording_step fun e₃ _ w₃ hsuccess => ?_
          rcases World.answer_act hsuccess with ⟨hle₃, rfl⟩
          refine recording_step fun e₄ now w₄ hnow => ?_
          rcases World.answer_act hnow with ⟨hle₄, rfl⟩
          refine .passed hle hr ?_ ?_ (hle₂.trans hle₃) hle₄ .success
          · simp [Outcome.TooMany]
          · simp
      | false =>
          refine recording_step fun e₃ _ w₃ hfailure => ?_
          rcases World.answer_act hfailure with ⟨hle₃, rfl⟩
          refine .passed hle hr ?_ ?_ (hle₂.trans hle₃) (Nat.le_refl _) .failure
          · simp [Outcome.TooMany]
          · simp

theorem wp_handled_fromRequestParts (s : AppState) (ip : IpAddr) (headers : HeaderMap)
    (w : World) :
    wp (recording World.answer) (fromRequestParts s (some ip) headers)
      (fun r g => Handled ip w g.2 g.1
        (match r with
          | .error resp => .answered resp
          | .ok () => .admitted)) (w, []) := by
  simp only [fromRequestParts, wp_bind]
  refine recording_step fun e r w₁ hcheck => ?_
  have hr := World.reply_check hcheck
  rcases World.answer_act hcheck with ⟨hle, rfl⟩
  cases r with
  | error d =>
      exact .refused hle hr rfl fun n => Outcome.retryAfter_iff rfl rfl
  | ok _ =>
      -- The header is missing, or bears no token: no key was tried.
      split
      · exact .passed hle hr (by simp [Outcome.TooMany, jsonError]) (by simp) (Nat.le_refl _)
          (Nat.le_refl _) .nothing
      · split
        · exact .passed hle hr (by simp [Outcome.TooMany, jsonError]) (by simp) (Nat.le_refl _)
            (Nat.le_refl _) .nothing
        · refine recording_step fun e₂ right w₂ hct => ?_
          rcases World.answer_act hct with ⟨hle₂, rfl⟩
          cases right with
          | true =>
              -- Unlike a login, a right token clears nothing.
              exact .passed hle hr (by simp [Outcome.TooMany]) (by simp) hle₂ (Nat.le_refl _)
                .nothing
          | false =>
              refine recording_step fun e₃ _ w₃ hfailure => ?_
              rcases World.answer_act hfailure with ⟨hle₃, rfl⟩
              exact .passed hle hr (by simp [Outcome.TooMany, jsonError]) (by simp)
                (hle₂.trans hle₃) (Nat.le_refl _) .failure

theorem handled_of_runs {s : AppState} {req : Request} {ip : IpAddr} {w w' : World}
    {log : List (Asked Reply Env)} {out : Outcome} (haddr : req.addr? = some ip)
    (h : Runs World.answer w (handle s req) log w' out) : Handled ip w log w' out := by
  refine h.of_recording (Q := fun out g => Handled ip w g.2 g.1 out) ?_
  cases req with
  | login ip' headers form =>
      cases haddr
      simp only [handle, wp_bind]
      exact wp_handled_postLogin s ip headers form w
  | api addr headers =>
      obtain rfl : addr = some ip := haddr
      simp only [handle, wp_bind]
      refine wp_mono (wp_handled_fromRequestParts s ip headers w) fun r g hr => ?_
      cases r <;> exact hr

namespace Handled

variable {ip : IpAddr} {w w' : World} {log : List (Asked Reply Env)} {out : Outcome}

theorem clock_le (h : Handled ip w log w' out) : w.clock ≤ w'.clock := by
  cases h with
  | refused hle _ _ _ => exact hle
  | passed hle _ _ _ hnow hclock _ => exact (hle.trans hnow).trans hclock

/-- The queues of the other addresses stay. -/
theorem other (h : Handled ip w log w' out) {ip' : IpAddr} (hip : ip' ≠ ip) :
    w'.limiter.failures ip' = w.limiter.failures ip' := by
  have hcheck : ∀ now, (w.limiter.check ip now).2.failures ip' = w.limiter.failures ip' := by
    intro now
    rw [failures_check, Function.update_of_ne hip]
  cases h with
  | refused _ _ _ _ => exact hcheck _
  | @passed e rest w' now out _ _ _ _ _ _ htried =>
      rw [← hcheck e.instant]
      generalize w'.limiter = l at htried
      cases htried with
      | nothing => rfl
      | failure => exact Function.update_of_ne hip _ _
      | success => exact Function.update_of_ne hip _ _

/-- A passed request finds room for the failure it records. -/
theorem keeps (h : Handled ip w log w' out) (hkept : Kept w.clock (w.limiter.failures ip)) :
    Kept w'.clock (w'.limiter.failures ip) := by
  have hcheck : ∀ now, (w.limiter.check ip now).2.failures ip =
      drainOld (w.limiter.failures ip) now := by
    intro now
    rw [failures_check, Function.update_self]
  cases h with
  | refused hle _ _ _ =>
      rw [hcheck]
      exact hkept.drain hle
  | @passed e rest w' now out hle hok _ _ hnow hclock htried =>
      have hdrained := hcheck e.instant
      have hroom := (check_ok_iff _ _ _).1 hok
      have hqueue := hkept.drain hle
      rw [← hdrained] at hroom hqueue
      generalize w'.limiter = l at htried
      cases htried with
      | nothing => exact hqueue.later (hnow.trans hclock)
      | failure =>
          -- The check left room for one more.
          simp only [recordFailure, Function.update_self]
          exact ((hqueue.drain hnow).push ((drainOld_length_le _ _).trans_lt hroom)).later hclock
      | success =>
          simp only [recordSuccess, Function.update_self]
          exact .empty _

end Handled

/-- A request without an address does not reach the limiter. -/
theorem eq_of_runs_none {s : AppState} {req : Request} {w w' : World}
    {log : List (Asked Reply Env)} {out : Outcome} (haddr : req.addr? = none)
    (h : Runs World.answer w (handle s req) log w' out) : w' = w := by
  cases req with
  | login ip headers form => cases haddr
  | api addr headers =>
      obtain rfl : addr = none := haddr
      cases h
      rfl

/-! ## Runs -/

/-- Every queue is as requests leave it. -/
def AllKept (w : World) : Prop :=
  ∀ ip, Kept w.clock (w.limiter.failures ip)

theorem allKept_of_runs {s : AppState} {req : Request} {w w' : World}
    {log : List (Asked Reply Env)} {out : Outcome}
    (h : Runs World.answer w (handle s req) log w' out) (hkept : AllKept w) : AllKept w' := by
  intro ip
  cases haddr : req.addr? with
  | none =>
      rw [eq_of_runs_none haddr h]
      exact hkept ip
  | some ip' =>
      have hhandled := handled_of_runs haddr h
      by_cases hip : ip = ip'
      · subst hip
        exact hhandled.keeps (hkept ip)
      · rw [hhandled.other hip]
        exact (hkept ip).later hhandled.clock_le

theorem allKept_of_serial {s : AppState} {turns : List (Turn Reply Env Request Outcome)}
    {w w' : World} (h : (gate s).Serial w turns w') (hkept : AllKept w) : AllKept w' :=
  h.keeps hkept fun _ _ _ _ hw hruns => allKept_of_runs hruns hw

/-- Requests that are not from the address leave its queue alone. -/
theorem untouched_of_serial {s : AppState} {turns : List (Turn Reply Env Request Outcome)}
    {w w' : World} {ip : IpAddr} (h : (gate s).Serial w turns w')
    (hothers : ∀ x ∈ turns, x.req.addr? ≠ some ip) :
    w'.limiter.failures ip = w.limiter.failures ip := by
  refine h.keeps (I := fun w' => w'.limiter.failures ip = w.limiter.failures ip) rfl ?_
  intro w₁ w₂ x hx hw hruns
  rw [← hw]
  cases haddr : x.req.addr? with
  | none => rw [eq_of_runs_none haddr hruns]
  | some ip' =>
      refine (handled_of_runs haddr hruns).other ?_
      rintro rfl
      exact hothers x hx haddr

/-! ## The promise -/

/-- Whoever comes back from the address after the `n` seconds, and is the first from there, is not
refused. -/
def Honest (s : AppState) (ip : IpAddr) (w : World) (t n : ℕ) : Prop :=
  ∀ others w₁ req log w₂ out t', (gate s).Serial w others w₁ →
    (∀ x ∈ others, x.req.addr? ≠ some ip) → req.addr? = some ip →
    Runs World.answer w₁ (handle s req) log w₂ out → ArrivedAt log ip t' → t + n * second ≤ t' →
    ¬ out.TooMany

/-- The oldest failure that counts at `t` was a whole number of seconds before, or leaves the
window within one second. -/
def Punctual (l : LoginRateLimiter) (ip : IpAddr) (t : ℕ) : Prop :=
  ∀ f ∈ (inWindow (l.failures ip) t).head?, second ∣ t - f ∨ window ≤ t - f + second

instance (l : LoginRateLimiter) (ip : IpAddr) (t : ℕ) : Decidable (Punctual l ip t) :=
  inferInstanceAs (Decidable (∀ f ∈ (inWindow (l.failures ip) t).head?, _))

/-- Waiting the whole seconds of the lockout is enough when it has no fraction, or when it is
raised to the least second. -/
theorem waited_iff {age : ℕ} (hage : age < window) :
    window ≤ age + max (window - age) second / second * second ↔
      second ∣ age ∨ window ≤ age + second := by
  unfold window second at *
  omega

/-- What is left of the queue after a refusal. -/
theorem refused_queue {l : LoginRateLimiter} {ip : IpAddr} {clock now d : ℕ}
    (hkept : Kept clock (l.failures ip)) (hle : clock ≤ now)
    (hcheck : (l.check ip now).1 = .error d) :
    ∃ oldest rest, (l.check ip now).2.failures ip = oldest :: rest ∧
      (oldest :: rest).length = maxFailures ∧ (inWindow (l.failures ip) now).head? = some oldest ∧
      oldest ≤ now ∧ now - oldest < window ∧ d = max (window - (now - oldest)) second := by
  rcases check_error hcheck with ⟨hfull, oldest, rest, hqueue, hd⟩
  have hdrained := hkept.drain hle
  have hwindow := hkept.drainOld_eq hle
  have hmem : oldest ∈ inWindow (l.failures ip) now := by
    rw [← hwindow, hqueue]
    exact List.mem_cons_self
  rw [hqueue] at hfull hdrained hwindow
  refine ⟨oldest, rest, ?_, Nat.le_antisymm hdrained.few hfull, by rw [← hwindow, List.head?_cons],
    hdrained.past _ List.mem_cons_self, of_decide_eq_true (List.mem_filter.1 hmem).2, hd⟩
  rw [failures_check, Function.update_self, hqueue]

/-- As long as the oldest of the failures counts, a request is refused. -/
theorem exists_refused (s : AppState) {w : World} {ip : IpAddr} {oldest now : ℕ} {rest : List ℕ}
    (hqueue : w.limiter.failures ip = oldest :: rest) (hlen : (oldest :: rest).length = maxFailures)
    (hclock : w.clock ≤ now) (hopen : now - oldest < window) :
    ∃ log w' out, Runs World.answer w (handle s (.api (some ip) noHeaders)) log w' out ∧
      ArrivedAt log ip now ∧ out.TooMany := by
  have hfull : drainOld (w.limiter.failures ip) now = oldest :: rest := by
    rw [hqueue]
    exact List.dropWhile_cons_of_neg (by simpa using hopen)
  have hanswer : ∃ d, w.answer { instant := now } (.check ip) = some (.error d,
      { limiter := (w.limiter.check ip now).2, clock := now }) := by
    have hcheck := check_fst w.limiter ip now
    rw [hfull] at hcheck
    dsimp only at hcheck
    rw [if_pos hlen.ge] at hcheck
    refine ⟨max (window - (now - oldest)) second, ?_⟩
    rw [World.answer, if_neg (Nat.not_lt.2 hclock)]
    dsimp only
    rw [hcheck]
  rcases hanswer with ⟨d, hanswer⟩
  refine ⟨_, _, _, .ask hanswer (.done _ _), ?_, rfl⟩
  simp [ArrivedAt]

/-- The promise holds exactly of the refusals whose lockout is no fraction of a second longer than
the header says. -/
theorem retry_after_honest_iff {s : AppState} {ip : IpAddr} {clock t n : ℕ}
    {turns : List (Turn Reply Env Request Outcome)} {w w' : World} {req : Request}
    {log : List (Asked Reply Env)} {out : Outcome}
    (hserial : (gate s).Serial { limiter := .new, clock } turns w) (haddr : req.addr? = some ip)
    (hruns : Runs World.answer w (handle s req) log w' out) (ht : ArrivedAt log ip t)
    (hn : out.RetryAfter n) : Honest s ip w' t n ↔ Punctual w.limiter ip t := by
  have hkept : AllKept w := allKept_of_serial hserial fun _ => .empty clock
  cases handled_of_runs haddr hruns with
  | passed _ _ hthrough _ _ _ _ => exact absurd hn.tooMany hthrough
  | @refused e d out hle hcheck _ hretry =>
      obtain rfl : e.instant = t := by simpa [ArrivedAt] using ht
      obtain rfl := (hretry n).1 hn
      rcases refused_queue (hkept ip) hle hcheck with
        ⟨oldest, rest, hqueue, hlen, hhead, hpast, hopen, rfl⟩
      have hpunctual : Punctual w.limiter ip e.instant ↔
          second ∣ e.instant - oldest ∨ window ≤ e.instant - oldest + second := by
        simp [Punctual, hhead]
      rw [hpunctual, ← waited_iff hopen]
      constructor
      · -- Whoever comes back right after the `n` seconds must find the oldest failure gone.
        intro hhonest
        by_contra hearly
        have hlate := Nat.le_add_right e.instant
          (max (window - (e.instant - oldest)) second / second * second)
        rcases exists_refused s (w := ⟨(w.limiter.check ip e.instant).2, e.instant⟩) hqueue hlen
          hlate (by omega) with ⟨log', w₂, out', hruns', ht', hmany⟩
        exact hhonest [] _ _ log' w₂ out' _ .nil (by simp) rfl hruns' ht' (Nat.le_refl _) hmany
      · intro hwaited others w₁ req' log' w₂ out' t' hothers hnone haddr' hruns' ht' hlate
        cases handled_of_runs haddr' hruns' with
        | passed _ _ hthrough _ _ _ _ => exact hthrough
        | @refused e' d' out' hle' hcheck' _ _ =>
            obtain rfl : e'.instant = t' := by simpa [ArrivedAt] using ht'
            have hsame := (untouched_of_serial hothers hnone).trans hqueue
            have hok : (w₁.limiter.check ip e'.instant).1 = .ok () :=
              check_ok_of_passed hsame hlen.le (by omega)
            rw [hcheck'] at hok
            cases hok

/-- Five wrong keys are tried at the first instant. -/
def fiveWrong : List (Request × List Env) :=
  List.replicate 5 (wrongLogin, [{}, {}, {}])

/-- The address comes back at `t`, and is told to wait for `n` seconds. -/
def Told (t n : ℕ) (w w' : World) : Prop :=
  ∃ log out, Runs World.answer w (handle .plain wrongLogin) log w' out ∧
    ArrivedAt log (.v4 1) t ∧ out.RetryAfter n

/-- What the wrong keys and a refusal lead to, found by running them. -/
theorem exists_told (t n : ℕ) {P : World → World → Prop} [∀ w w', Decidable (P w w')]
    (h : ((gate .plain).serve fiveWrong [] { limiter := .new, clock := 0 }).any (fun x =>
      decide (((handle .plain wrongLogin).run World.answer [{ instant := t }] x.2).any (fun y =>
        decide (ArrivedAt y.1 (.v4 1) t ∧ y.2.2.RetryAfter n ∧ P x.2 y.2.1)) = true)) = true) :
    ∃ turns w w', (gate .plain).Serial { limiter := .new, clock := 0 } turns w ∧ Told t n w w' ∧
      P w w' := by
  rcases Service.exists_serial fiveWrong
    (P := fun _ w => ((handle .plain wrongLogin).run World.answer [{ instant := t }] w).any
      (fun y => decide (ArrivedAt y.1 (.v4 1) t ∧ y.2.2.RetryAfter n ∧ P w y.2.1)) = true) h with
    ⟨turns, w, hserial, hlast⟩
  rcases exists_runs [{ instant := t }] (p := handle .plain wrongLogin)
    (P := fun log w' out => ArrivedAt log (.v4 1) t ∧ out.RetryAfter n ∧ P w w') hlast with
    ⟨log, w', out, hruns, ht, hn, hP⟩
  exact ⟨turns, w, w', hserial, ⟨log, out, hruns, ht, hn⟩, hP⟩

/-- Refused at a whole second, the address may come back after the 200 seconds it is told. -/
theorem retry_after_honest_whole : ∃ turns w w',
    (gate .plain).Serial { limiter := .new, clock := 0 } turns w ∧
      Told (100 * second) 200 w w' ∧ Honest .plain (.v4 1) w' (100 * second) 200 := by
  rcases exists_told (100 * second) 200 (P := fun w _ => Punctual w.limiter (.v4 1) (100 * second))
    (by decide +kernel) with ⟨turns, w, w', hserial, ⟨log, out, hruns, ht, hn⟩, hpunctual⟩
  exact ⟨turns, w, w', hserial, ⟨log, out, hruns, ht, hn⟩,
    (retry_after_honest_iff hserial rfl hruns ht hn).2 hpunctual⟩

/-- Refused after 100.5 seconds, the address is told to wait for 199 seconds, and is refused again
when it comes back after them. -/
theorem retry_after_half_second :
    ¬ ∀ (s : AppState) (ip : IpAddr) (clock t n : ℕ) (turns : List (Turn Reply Env Request Outcome))
      (w w' : World) (req : Request) (log : List (Asked Reply Env)) (out : Outcome),
      (gate s).Serial { limiter := .new, clock } turns w → req.addr? = some ip →
      Runs World.answer w (handle s req) log w' out → ArrivedAt log ip t → out.RetryAfter n →
      Honest s ip w' t n := by
  intro hall
  rcases exists_told (100 * second + second / 2) 199
    (P := fun _ w' => ((handle .plain wrongLogin).run World.answer
      [{ instant := 299 * second + second / 2 }] w').any (fun z =>
        decide (ArrivedAt z.1 (.v4 1) (299 * second + second / 2) ∧ z.2.2.RetryAfter 1)) = true)
    (by decide +kernel) with ⟨turns, w, w', hserial, ⟨log, out, hruns, ht, hn⟩, hagain⟩
  rcases exists_runs _ (p := handle .plain wrongLogin)
    (P := fun log _ out => ArrivedAt log (.v4 1) (299 * second + second / 2) ∧ out.RetryAfter 1)
    hagain with ⟨log', w₂, out', hruns', ht', hn'⟩
  exact hall .plain (.v4 1) 0 _ _ turns w w' wrongLogin log out hserial rfl hruns ht hn [] w'
    wrongLogin log' w₂ out' _ .nil (by simp) rfl hruns' ht' (by decide) hn'.tooMany

end Auth
end Aardbin
