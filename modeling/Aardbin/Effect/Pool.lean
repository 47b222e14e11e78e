import Mathlib.Logic.Function.Basic
import Mathlib.Tactic.Common
import Aardbin.Effect.Program

/-!
# Interleaved programs over a shared state

A `Service` answers every request with a program and every operation of a program with a reply
and a new shared state.  A `Pool` holds the shared state and the programs of the requests in
flight; `Service.move` lets one of them take one step, and `Service.Steps` collects the events of
any interleaving.

The rule `Outline.Valid.run` is the thread-modular invariant rule: every handler is verified alone
against a `Protocol`, every protocol step is verified once against the shared state, and the
invariant then holds in every state of every run.
-/

namespace Effect

variable {Op : Type} {Reply : Op → Type} {σ Env Boot Req Res G : Type}

/-! ## Services, pools and moves -/

structure Service (Reply : Op → Type) (σ Env Boot Req Res : Type) where
  handler : σ → Req → Program Reply Res
  /-- the reply to one operation; `none` where the environment may not choose so -/
  answer : Env → σ → (op : Op) → Option (Reply op × σ)
  /-- what stopping and starting the process does to the shared state -/
  reboot : Boot → σ → σ

structure Pool (Reply : Op → Type) (σ Res : Type) where
  shared : σ
  threads : ℕ → Option (Program Reply Res)
  /-- number of requests started so far; the next one gets this number -/
  started : ℕ

namespace Pool

def idle (s : σ) : Pool Reply σ Res :=
  { shared := s, threads := fun _ => none, started := 0 }

def setThread (c : Pool Reply σ Res) (i : ℕ) (t : Option (Program Reply Res)) : Pool Reply σ Res :=
  { c with threads := Function.update c.threads i t }

/-- No request is in flight. -/
def Quiet (c : Pool Reply σ Res) : Prop :=
  ∀ i, c.threads i = none

/-- `Quiet`, checked for the requests started so far. -/
def quietBelow (c : Pool Reply σ Res) : Bool :=
  (List.range c.started).all fun i => (c.threads i).isNone

end Pool

inductive Event (Reply : Op → Type) (Env Boot Req Res : Type) : Type
  | start (i : ℕ) (req : Req)
  | ask (i : ℕ) (env : Env) (op : Op) (reply : Reply op)
  | finish (i : ℕ) (res : Res)
  | abandon (i : ℕ)
  | reboot (b : Boot)

abbrev History (Reply : Op → Type) (Env Boot Req Res : Type) : Type :=
  List (Event Reply Env Boot Req Res)

/-- The request that an event belongs to. -/
def Event.thread? : Event Reply Env Boot Req Res → Option ℕ
  | .start i _ => some i
  | .ask i _ _ _ => some i
  | .finish i _ => some i
  | .abandon i => some i
  | .reboot _ => none

/-- The part of a history that belongs to one request. -/
def byThread (i : ℕ) (tr : History Reply Env Boot Req Res) : History Reply Env Boot Req Res :=
  tr.filter fun e => e.thread? = some i

theorem byThread_snoc_self {i : ℕ} {tr : History Reply Env Boot Req Res}
    {e : Event Reply Env Boot Req Res} (he : e.thread? = some i) :
    byThread i (tr ++ [e]) = byThread i tr ++ [e] := by
  simp [byThread, he]

theorem byThread_snoc_other {i : ℕ} {tr : History Reply Env Boot Req Res}
    {e : Event Reply Env Boot Req Res} (he : e.thread? ≠ some i) :
    byThread i (tr ++ [e]) = byThread i tr := by
  simp [byThread, he]

/-- An event of a longer history is the last one, or was there before. -/
theorem snoc_eq_append_cons {α : Type} {xs before after : List α} {x y : α} :
    xs ++ [x] = before ++ y :: after ↔ (xs = before ∧ x = y ∧ after = []) ∨
      ∃ after', after = after' ++ [x] ∧ xs = before ++ y :: after' := by
  constructor
  · intro h
    rcases List.eq_nil_or_concat after with rfl | ⟨after', z, rfl⟩
    · rcases List.append_inj' h rfl with ⟨rfl, hlast⟩
      exact .inl ⟨rfl, List.singleton_inj.1 hlast, rfl⟩
    · have h' : xs ++ [x] = (before ++ y :: after') ++ [z] := by simpa using h
      rcases List.append_inj' h' rfl with ⟨rfl, hlast⟩
      cases List.singleton_inj.1 hlast
      exact .inr ⟨after', List.concat_eq_append, rfl⟩
  · rintro (⟨rfl, rfl, rfl⟩ | ⟨after', rfl, rfl⟩) <;> simp

/-- A restriction on runs: may this event follow this history in this pool? -/
abbrev Guard (Reply : Op → Type) (σ Env Boot Req Res : Type) : Type :=
  History Reply Env Boot Req Res → Pool Reply σ Res → Event Reply Env Boot Req Res → Prop

/-- What a scheduler chooses at one step. -/
inductive Move (Env Boot Req : Type) : Type
  | start (req : Req)
  | step (i : ℕ) (env : Env)
  | abandon (i : ℕ)
  | reboot (b : Boot)

namespace Service

variable (S : Service Reply σ Env Boot Req Res)

def move (c : Pool Reply σ Res) :
    Move Env Boot Req → Option (Event Reply Env Boot Req Res × Pool Reply σ Res)
  | .start req =>
      some (.start c.started req,
        { c.setThread c.started (some (S.handler c.shared req)) with started := c.started + 1 })
  | .step i env =>
      match c.threads i with
      | none => none
      | some (.done a) => some (.finish i a, c.setThread i none)
      | some (.ask op k) =>
          match S.answer env c.shared op with
          | none => none
          | some (r, s') =>
              some (.ask i env op r, { c.setThread i (some (k r)) with shared := s' })
  | .abandon i =>
      match c.threads i with
      | none => none
      | some _ => some (.abandon i, c.setThread i none)
  | .reboot b =>
      some (.reboot b, { c with shared := S.reboot b c.shared, threads := fun _ => none })

/-- The events of some schedule from `c₀`, every one of which the guard admits. -/
inductive Steps
    (guard : Guard Reply σ Env Boot Req Res)
    (c₀ : Pool Reply σ Res) : History Reply Env Boot Req Res → Pool Reply σ Res → Prop
  | refl : Steps guard c₀ [] c₀
  | snoc {tr : History Reply Env Boot Req Res} {c c' : Pool Reply σ Res}
      {m : Move Env Boot Req} {e : Event Reply Env Boot Req Res} :
      Steps guard c₀ tr c → S.move c m = some (e, c') → guard tr c e →
      Steps guard c₀ (tr ++ [e]) c'

/-- Runs from a shared state without requests in flight. -/
def Run
    (guard : Guard Reply σ Env Boot Req Res)
    (s₀ : σ) : History Reply Env Boot Req Res → Pool Reply σ Res → Prop :=
  S.Steps guard (Pool.idle s₀)

/-! ## Playing a given schedule -/

section Play

variable (guard : Guard Reply σ Env Boot Req Res) [∀ tr c e, Decidable (guard tr c e)]

/-- Extends a history by the moves of a schedule, if all of them are possible and admitted. -/
def play : List (Move Env Boot Req) → History Reply Env Boot Req Res → Pool Reply σ Res →
    Option (History Reply Env Boot Req Res × Pool Reply σ Res)
  | [], tr, c => some (tr, c)
  | m :: ms, tr, c =>
      match S.move c m with
      | none => none
      | some (e, c') => if guard tr c e then play ms (tr ++ [e]) c' else none

variable {S} {guard}

theorem Steps.of_play {ms : List (Move Env Boot Req)} {c₀ c c' : Pool Reply σ Res}
    {tr tr' : History Reply Env Boot Req Res} (hsteps : S.Steps guard c₀ tr c)
    (h : S.play guard ms tr c = some (tr', c')) : S.Steps guard c₀ tr' c' := by
  induction ms generalizing tr c with
  | nil =>
      cases h
      exact hsteps
  | cons m ms ih =>
      simp only [play] at h
      split at h
      · cases h
      · rename_i e c₁ hm
        split_ifs at h with hg
        exact ih (.snoc hsteps hm hg) h

/-- A schedule that plays to its end shows that steps with the property `P` exist. -/
theorem exists_steps (ms : List (Move Env Boot Req)) {c₀ : Pool Reply σ Res}
    {P : History Reply Env Boot Req Res → Pool Reply σ Res → Prop} [∀ tr c, Decidable (P tr c)]
    (h : (S.play guard ms [] c₀).any (fun x => decide (P x.1 x.2)) = true) :
    ∃ tr c, S.Steps guard c₀ tr c ∧ P tr c := by
  cases hplay : S.play guard ms [] c₀ with
  | none => simp [hplay] at h
  | some x =>
      refine ⟨x.1, x.2, Steps.of_play .refl hplay, ?_⟩
      simpa [hplay] using h

theorem exists_run (ms : List (Move Env Boot Req)) {s₀ : σ}
    {P : History Reply Env Boot Req Res → Pool Reply σ Res → Prop} [∀ tr c, Decidable (P tr c)]
    (h : (S.play guard ms [] (Pool.idle s₀)).any (fun x => decide (P x.1 x.2)) = true) :
    ∃ tr c, S.Run guard s₀ tr c ∧ P tr c :=
  exists_steps ms h

end Play

variable {S} {guard : Guard Reply σ Env Boot Req Res}

theorem Steps.trans {c₀ c₁ c₂ : Pool Reply σ Res}
    {tr₁ tr₂ : History Reply Env Boot Req Res} (h₁ : S.Steps (fun _ _ _ => True) c₀ tr₁ c₁)
    (h₂ : S.Steps (fun _ _ _ => True) c₁ tr₂ c₂) :
    S.Steps (fun _ _ _ => True) c₀ (tr₁ ++ tr₂) c₂ := by
  induction h₂ with
  | refl => simpa using h₁
  | snoc _ hm hg ih => simpa using Steps.snoc ih hm hg

theorem Steps.mono {guard guard' : Guard Reply σ Env Boot Req Res} {c₀ c : Pool Reply σ Res}
    {tr : History Reply Env Boot Req Res} (h : S.Steps guard c₀ tr c)
    (hg : ∀ tr c e, guard tr c e → guard' tr c e) : S.Steps guard' c₀ tr c := by
  induction h with
  | refl => exact .refl
  | snoc _ hm he ih => exact .snoc ih hm (hg _ _ _ he)

/-! ## What one move can do -/

theorem move_cases {c c' : Pool Reply σ Res} {m : Move Env Boot Req}
    {e : Event Reply Env Boot Req Res} (h : S.move c m = some (e, c')) :
    (∃ req, e = .start c.started req ∧
      c' = { c.setThread c.started (some (S.handler c.shared req)) with
        started := c.started + 1 }) ∨
    (∃ i a, c.threads i = some (.done a) ∧ e = .finish i a ∧ c' = c.setThread i none) ∨
    (∃ i env op k r s', c.threads i = some (.ask op k) ∧
      S.answer env c.shared op = some (r, s') ∧ e = .ask i env op r ∧
      c' = { c.setThread i (some (k r)) with shared := s' }) ∨
    (∃ i p, c.threads i = some p ∧ e = .abandon i ∧ c' = c.setThread i none) ∨
    (∃ b, e = .reboot b ∧
      c' = { c with shared := S.reboot b c.shared, threads := fun _ => none }) := by
  cases m with
  | start req =>
      simp only [move, Option.some.injEq, Prod.mk.injEq] at h
      exact .inl ⟨req, h.1.symm, h.2.symm⟩
  | step i env =>
      cases ht : c.threads i with
      | none => simp [move, ht] at h
      | some p =>
          cases p with
          | done a =>
              simp only [move, ht, Option.some.injEq, Prod.mk.injEq] at h
              exact .inr (.inl ⟨i, a, ht, h.1.symm, h.2.symm⟩)
          | ask op k =>
              cases hans : S.answer env c.shared op with
              | none => simp [move, ht, hans] at h
              | some rs =>
                  rcases rs with ⟨r, s'⟩
                  simp only [move, ht, hans, Option.some.injEq, Prod.mk.injEq] at h
                  exact .inr (.inr (.inl ⟨i, env, op, k, r, s', ht, hans, h.1.symm, h.2.symm⟩))
  | abandon i =>
      cases ht : c.threads i with
      | none => simp [move, ht] at h
      | some p =>
          simp only [move, ht, Option.some.injEq, Prod.mk.injEq] at h
          exact .inr (.inr (.inr (.inl ⟨i, p, ht, h.1.symm, h.2.symm⟩)))
  | reboot b =>
      simp only [move, Option.some.injEq, Prod.mk.injEq] at h
      exact .inr (.inr (.inr (.inr ⟨b, h.1.symm, h.2.symm⟩)))

/-- No request has a number that was not given out yet. -/
theorem Run.fresh {s₀ : σ} {tr : History Reply Env Boot Req Res} {c : Pool Reply σ Res}
    (h : S.Run guard s₀ tr c) : ∀ i, c.started ≤ i → c.threads i = none := by
  induction h with
  | refl => exact fun _ _ => rfl
  | @snoc tr c _ m e _ hm _ ih =>
      -- A request that takes a step is in flight, so its number was given out.
      have hset : ∀ {c : Pool Reply σ Res} {i p} (t : Option (Program Reply Res)),
          (∀ j, c.started ≤ j → c.threads j = none) → c.threads i = some p →
          ∀ j, c.started ≤ j → Function.update c.threads i t j = none := by
        intro c i p t hc hi j hj
        have hne : j ≠ i := by
          rintro rfl
          simp [hc j hj] at hi
        simp [hne, hc j hj]
      rcases move_cases hm with ⟨req, rfl, rfl⟩ | ⟨i, a, ht, rfl, rfl⟩ |
        ⟨i, env, op, k, r, s', ht, hans, rfl, rfl⟩ | ⟨i, p, ht, rfl, rfl⟩ | ⟨b, rfl, rfl⟩
      · intro j hj
        have hne : j ≠ c.started := by simp only at hj; omega
        simpa [Pool.setThread, hne] using ih j (by simp only at hj; omega)
      · exact hset none ih ht
      · exact hset _ ih ht
      · exact hset none ih ht
      · exact fun _ _ => rfl

/-- A request that has ended does not come back. -/
theorem move_ended {c c' : Pool Reply σ Res} {m : Move Env Boot Req}
    {e : Event Reply Env Boot Req Res} (h : S.move c m = some (e, c')) {i : ℕ}
    (hi : i < c.started) (hnone : c.threads i = none) :
    i < c'.started ∧ c'.threads i = none := by
  -- The request that takes a step is another one.
  have hset : ∀ {j p} (t : Option (Program Reply Res)), c.threads j = some p →
      (c.setThread j t).threads i = none := by
    intro j p t hj
    have hij : i ≠ j := by
      rintro rfl
      rw [hnone] at hj
      cases hj
    simpa [Pool.setThread, hij] using hnone
  rcases move_cases h with ⟨req, -, rfl⟩ | ⟨j, a, ht, -, rfl⟩ |
    ⟨j, env, op, k, r, s', ht, -, -, rfl⟩ | ⟨j, p, ht, -, rfl⟩ | ⟨b, -, rfl⟩
  · have hne : i ≠ c.started := Nat.ne_of_lt hi
    exact ⟨Nat.lt_succ_of_lt hi, by simpa [Pool.setThread, hne] using hnone⟩
  · exact ⟨hi, hset none ht⟩
  · exact ⟨hi, hset _ ht⟩
  · exact ⟨hi, hset none ht⟩
  · exact ⟨hi, rfl⟩

theorem Run.quiet {s₀ : σ} {tr : History Reply Env Boot Req Res} {c : Pool Reply σ Res}
    (h : S.Run guard s₀ tr c) (hc : c.quietBelow = true) : c.Quiet := by
  intro i
  by_cases hi : i < c.started
  · simpa using List.all_eq_true.1 hc i (List.mem_range.2 hi)
  · exact h.fresh i (by omega)

end Service

/-! ## The thread-modular invariant rule -/

/-- What a thread-modular proof has to name: the ghost state a request is born with, what a
handler guarantees at its end, and the invariant over the history, the shared state and the ghost
states of the requests in flight. -/
structure Outline (S : Service Reply σ Env Boot Req Res) (π : Protocol Reply G) where
  born : σ → Req → G
  post : Req → Res → G → Prop
  inv : History Reply Env Boot Req Res → σ → (ℕ → Option G) → Prop

namespace Outline

variable {S : Service Reply σ Env Boot Req Res} {π : Protocol Reply G}

/-- The ghost states belong to the requests in flight. -/
structure Tracks (gs : ℕ → Option G) (c : Pool Reply σ Res) : Prop where
  live : ∀ i, c.threads i = none ↔ gs i = none
  fresh : ∀ i, c.started ≤ i → gs i = none

/-- The number `i` belongs to no event so far. -/
def Unused (i : ℕ) (tr : History Reply Env Boot Req Res) : Prop :=
  ∀ e ∈ tr, e.thread? ≠ some i

theorem Unused.byThread {i : ℕ} {tr : History Reply Env Boot Req Res} (h : Unused i tr) :
    byThread i tr = [] := by
  refine List.filter_eq_nil_iff.2 fun e he => ?_
  simpa using h e he

theorem Unused.snoc {i : ℕ} {tr : History Reply Env Boot Req Res} {e : Event Reply Env Boot Req Res}
    (h : Unused i tr) (he : e.thread? ≠ some i) : Unused i (tr ++ [e]) := by
  intro e' hmem
  rcases List.mem_append.1 hmem with hold | hnew
  · exact h e' hold
  · rwa [List.mem_singleton.1 hnew]

structure Valid (O : Outline S π)
    (guard : Guard Reply σ Env Boot Req Res) : Prop where
  handler : ∀ s req, wp π (S.handler s req) (O.post req) (O.born s req)
  start : ∀ tr (c : Pool Reply σ Res) gs i req, guard tr c (.start i req) → Unused i tr →
    gs i = none → O.inv tr c.shared gs →
    O.inv (tr ++ [.start i req]) c.shared (Function.update gs i (some (O.born c.shared req)))
  ask : ∀ tr (c : Pool Reply σ Res) gs i g env op r s', guard tr c (.ask i env op r) →
    Tracks gs c → gs i = some g → π.pre g op → S.answer env c.shared op = some (r, s') →
    O.inv tr c.shared gs →
    ∃ g', π.next g op r g' ∧
      O.inv (tr ++ [.ask i env op r]) s' (Function.update gs i (some g'))
  finish : ∀ tr (c : Pool Reply σ Res) gs i g req res, guard tr c (.finish i res) →
    .start i req ∈ tr → gs i = some g → O.post req res g → O.inv tr c.shared gs →
    O.inv (tr ++ [.finish i res]) c.shared (Function.update gs i none)
  abandon : ∀ tr (c : Pool Reply σ Res) gs i g, guard tr c (.abandon i) →
    gs i = some g → O.inv tr c.shared gs →
    O.inv (tr ++ [.abandon i]) c.shared (Function.update gs i none)
  reboot : ∀ tr (c : Pool Reply σ Res) gs b, guard tr c (.reboot b) → O.inv tr c.shared gs →
    O.inv (tr ++ [.reboot b]) (S.reboot b c.shared) (fun _ => none)

/-- A request in flight has a ghost state from which the rest of its program is verified. -/
def Follows (O : Outline S π) (tr : History Reply Env Boot Req Res) (i : ℕ) :
    Option (Program Reply Res) → Option G → Prop
  | none, none => True
  | some p, some g => ∃ req, .start i req ∈ tr ∧ wp π p (O.post req) g
  | _, _ => False

theorem Follows.none_iff {O : Outline S π} {tr : History Reply Env Boot Req Res} {i : ℕ}
    {t : Option (Program Reply Res)} {g : Option G} (h : O.Follows tr i t g) :
    t = none ↔ g = none := by
  cases t <;> cases g <;> simp [Follows] at h ⊢

theorem Follows.mono {O : Outline S π} {tr : History Reply Env Boot Req Res} {i : ℕ}
    {t : Option (Program Reply Res)} {g : Option G} (h : O.Follows tr i t g)
    (e : Event Reply Env Boot Req Res) : O.Follows (tr ++ [e]) i t g := by
  cases t <;> cases g <;> simp only [Follows] at h ⊢
  rcases h with ⟨req, hreq, hwp⟩
  exact ⟨req, by simp [hreq], hwp⟩

theorem follows_update {O : Outline S π} {tr : History Reply Env Boot Req Res}
    {ts : ℕ → Option (Program Reply Res)} {gs : ℕ → Option G}
    (h : ∀ j, O.Follows tr j (ts j) (gs j)) (e : Event Reply Env Boot Req Res) (i : ℕ)
    {t : Option (Program Reply Res)} {g : Option G} (hi : O.Follows (tr ++ [e]) i t g) (j : ℕ) :
    O.Follows (tr ++ [e]) j (Function.update ts i t j) (Function.update gs i g j) := by
  by_cases hj : j = i
  · subst hj
    simpa using hi
  · simpa [hj] using (h j).mono e

theorem Follows.ghost {O : Outline S π} {tr : History Reply Env Boot Req Res} {i : ℕ}
    {p : Program Reply Res} {g : Option G} (h : O.Follows tr i (some p) g) :
    ∃ g', g = some g' ∧ ∃ req, .start i req ∈ tr ∧ wp π p (O.post req) g' := by
  cases g with
  | none => exact h.elim
  | some g' => exact ⟨g', rfl, h⟩

/-- A request that takes a step is in flight, so its number is not one of those to come. -/
theorem unusedThread {c : Pool Reply σ Res} {tr : History Reply Env Boot Req Res} {i j : ℕ}
    {p : Program Reply Res}
    (hnew : ∀ i, c.started ≤ i → c.threads i = none ∧ Unused i tr) (hj : c.started ≤ j)
    (ht : c.threads i = some p) (t : Option (Program Reply Res)) :
    Function.update c.threads i t j = none := by
  have hne : j ≠ i := by
    rintro rfl
    simp [(hnew j hj).1] at ht
  simp [hne, (hnew j hj).1]

theorem unusedEvent {c : Pool Reply σ Res} {tr : History Reply Env Boot Req Res} {i j : ℕ}
    {p : Program Reply Res} {e : Event Reply Env Boot Req Res}
    (hnew : ∀ i, c.started ≤ i → c.threads i = none ∧ Unused i tr) (hj : c.started ≤ j)
    (ht : c.threads i = some p) (he : e.thread? = some i) : Unused j (tr ++ [e]) := by
  refine (hnew j hj).2.snoc ?_
  rw [he]
  intro hij
  rw [Option.some.injEq] at hij
  subst hij
  simp [(hnew i hj).1] at ht

theorem Valid.run {O : Outline S π}
    {guard : Guard Reply σ Env Boot Req Res}
    (hO : O.Valid guard) {s₀ : σ} (h₀ : O.inv [] s₀ (fun _ => none))
    {tr : History Reply Env Boot Req Res} {c : Pool Reply σ Res}
    (h : S.Run guard s₀ tr c) :
    ∃ gs, O.inv tr c.shared gs ∧ (∀ i, O.Follows tr i (c.threads i) (gs i)) ∧
      ∀ i, c.started ≤ i → c.threads i = none ∧ Unused i tr := by
  -- By induction on the run; the ghost states are chosen along with it.
  induction h with
  | refl =>
      refine ⟨fun _ => none, h₀, fun i => trivial, fun i _ => ⟨rfl, ?_⟩⟩
      intro e he
      cases he
  | @snoc tr c c' m e hrun hm hg ih =>
      rcases ih with ⟨gs, hinv, hfollow, hnew⟩
      rcases Service.move_cases hm with ⟨req, rfl, rfl⟩ | ⟨i, a, ht, rfl, rfl⟩ |
        ⟨i, env, op, k, r, s', ht, hans, rfl, rfl⟩ | ⟨i, p, ht, rfl, rfl⟩ | ⟨b, rfl, rfl⟩
      · -- A request starts under the next number.
        rcases hnew c.started (Nat.le_refl _) with ⟨hnone, hunused⟩
        have hgs : gs c.started = none := by
          have hf := hfollow c.started
          rw [hnone] at hf
          cases hg' : gs c.started with
          | none => rfl
          | some g => rw [hg'] at hf; exact hf.elim
        refine ⟨_, hO.start tr c gs c.started req hg hunused hgs hinv, ?_, ?_⟩
        · exact follows_update hfollow _ _ ⟨req, by simp, hO.handler c.shared req⟩
        · intro j hj
          have hne : j ≠ c.started := by simp only at hj; omega
          rcases hnew j (by simp only at hj; omega) with ⟨hjn, hju⟩
          exact ⟨by simp [Pool.setThread, hne, hjn],
            hju.snoc (by simpa [Event.thread?] using Ne.symm hne)⟩
      · -- A program has come to its end: its postcondition holds.
        have hf := hfollow i
        rw [ht] at hf
        rcases hf.ghost with ⟨g, hgi, req, hreq, hpost⟩
        refine ⟨_, hO.finish tr c gs i g req a hg hreq hgi hpost hinv, ?_, ?_⟩
        · exact follows_update hfollow _ _ trivial
        · intro j hj
          exact ⟨unusedThread hnew hj ht none, unusedEvent hnew hj ht rfl⟩
      · -- A program asks one operation: the protocol names the new ghost state.
        have hf := hfollow i
        rw [ht] at hf
        rcases hf.ghost with ⟨g, hgi, req, hreq, hpre, hnext⟩
        have htracks : Tracks gs c := ⟨fun j => (hfollow j).none_iff,
          fun j hj => (hfollow j).none_iff.1 (hnew j hj).1⟩
        rcases hO.ask tr c gs i g env op r s' hg htracks hgi hpre hans hinv with ⟨g', hg', hinv'⟩
        refine ⟨_, hinv', ?_, ?_⟩
        · exact follows_update hfollow _ _ ⟨req, by simp [hreq], hnext r g' hg'⟩
        · intro j hj
          exact ⟨unusedThread hnew hj ht _, unusedEvent hnew hj ht rfl⟩
      · -- A request is abandoned.
        have hf := hfollow i
        rw [ht] at hf
        rcases hf.ghost with ⟨g, hgi, -⟩
        refine ⟨_, hO.abandon tr c gs i g hg hgi hinv, ?_, ?_⟩
        · exact follows_update hfollow _ _ trivial
        · intro j hj
          exact ⟨unusedThread hnew hj ht none, unusedEvent hnew hj ht rfl⟩
      · -- The process restarts and loses every request.
        refine ⟨_, hO.reboot tr c gs b hg hinv, fun i => trivial, ?_⟩
        intro j hj
        exact ⟨rfl, (hnew j hj).2.snoc (by simp [Event.thread?])⟩

end Outline

end Effect
