import Mathlib.Data.List.Forall2
import Aardbin.Effect.Embedding

/-!
# Projecting a service to a part of it

A service handles its requests in stages: some operations of its own, and then perhaps a request
of a smaller service, handled as that service does.  Seen by the smaller service, every run of the
large one is a run of its own (`Projection.run`): the requests that get so far, over the part of
the state that is theirs.
-/

namespace Effect

variable {Op Op' : Type} {Reply : Op → Type} {Reply' : Op' → Type}
  {σ σ' Env Env' Boot Boot' Req Req' Res Res' α : Type}

/-! ## Programs in stages -/

/-- Silent operations, and then the end or the program of one request that is entered. -/
inductive Staged (e : Embedding Reply Reply') (silent : Op' → Prop)
    (handler : Req → Program Reply Res) (enters : Req → Prop) : Program Reply' Res' → Prop
  | done (a : Res') : Staged e silent handler enters (.done a)
  | ask {op : Op'} {k : Reply' op → Program Reply' Res'} : silent op →
      (∀ r, Staged e silent handler enters (k r)) → Staged e silent handler enters (.ask op k)
  | enter (req : Req) (f : Res → Res') : enters req →
      Staged e silent handler enters ((handler req).embed e >>= fun a => .done (f a))

namespace Staged

variable {e : Embedding Reply Reply'} {silent : Op' → Prop} {handler : Req → Program Reply Res}
  {enters : Req → Prop}

theorem bind {R : α → Prop} {p : Program Reply' α} {f : α → Program Reply' Res'}
    (h : Uses silent R p) (hf : ∀ a, R a → Staged e silent handler enters (f a)) :
    Staged e silent handler enters (p >>= f) := by
  induction p with
  | done a => exact hf a h
  | ask op next ih => exact .ask h.1 fun r => ih r (h.2 r () trivial)

/-- A program that asks an operation is still outside, or enters a request with it. -/
theorem ask_cases {op : Op'} {k : Reply' op → Program Reply' Res'}
    (h : Staged e silent handler enters (.ask op k)) :
    (silent op ∧ ∀ r, Staged e silent handler enters (k r)) ∨
    ∃ req o k₀, ∃ f : Res → Res', enters req ∧ handler req = .ask o k₀ ∧
      Program.ask op k = .ask (e.op o) fun r =>
        (k₀ (e.reply o r)).embed e >>= fun a => .done (f a) := by
  generalize hp : Program.ask op k = p at h
  cases h with
  | done a => cases hp
  | ask hsilent hk =>
      cases hp
      exact .inl ⟨hsilent, hk⟩
  | enter req f hreq =>
      cases hh : handler req with
      | done a =>
          rw [hh] at hp
          cases hp
      | ask o k₀ =>
          refine .inr ⟨req, o, k₀, f, hreq, hh, ?_⟩
          rw [← Program.embed_ask_bind, ← hh]

end Staged

theorem Pool.of_drop {c : Pool Reply σ Res} {i j : ℕ} {p : Program Reply Res}
    (h : (c.setThread i none).threads j = some p) : j ≠ i ∧ c.threads j = some p := by
  by_cases hji : j = i
  · simp [Pool.setThread, hji] at h
  · exact ⟨hji, by simpa [Pool.setThread, hji] using h⟩

/-! ## Projections -/

section Asked

variable (P : Op → Prop) [DecidablePred P]

def Event.asked? : Event Reply Env Boot Req Res → Option (ℕ × Asked Reply Env)
  | .ask i env op r => if P op then some (i, ⟨env, op, r⟩) else none
  | _ => none

/-- The operations of a history that satisfy `P`, with the requests that ask them. -/
def asked (tr : History Reply Env Boot Req Res) : List (ℕ × Asked Reply Env) :=
  tr.filterMap (Event.asked? P)

theorem asked_snoc (tr : History Reply Env Boot Req Res) (ev : Event Reply Env Boot Req Res) :
    asked P (tr ++ [ev]) = asked P tr ++ asked P [ev] :=
  List.filterMap_append

theorem asked_ask (i : ℕ) (env : Env) (op : Op) (r : Reply op) :
    asked P [(.ask i env op r : Event Reply Env Boot Req Res)] =
      if P op then [(i, ⟨env, op, r⟩)] else [] := by
  by_cases h : P op <;> simp [asked, Event.asked?, h]

theorem thread_of_asked {ev : Event Reply Env Boot Req Res} {x : ℕ × Asked Reply Env}
    (h : ev.asked? P = some x) : ev.thread? = some x.1 := by
  unfold Event.asked? at h
  split at h
  · split_ifs at h
    cases h
    rfl
  · cases h

theorem asked_byThread (i : ℕ) (tr : History Reply Env Boot Req Res) :
    asked P (byThread i tr) = (asked P tr).filter fun x => x.1 = i := by
  induction tr with
  | nil => rfl
  | cons ev tr ih =>
      simp only [asked, byThread] at ih
      cases hev : ev.asked? P with
      | none => by_cases hi : ev.thread? = some i <;> simp [asked, byThread, hev, hi, ih]
      | some x =>
          have hthread := thread_of_asked P hev
          by_cases hi : x.1 = i <;> simp [asked, byThread, hev, hthread, hi, ih]

end Asked

structure Projection (S : Service Reply' σ' Env' Boot' Req' Res')
    (T : Service Reply σ Env Boot Req Res) (e : Embedding Reply Reply') where
  state : σ' → σ
  env : Env' → Env
  boot : Boot' → Boot
  /-- the operations that do not change the part of the state -/
  silent : Op' → Prop
  /-- the requests of the part that a request may enter -/
  enters : Req' → Req → Prop
  state_silent : ∀ {x s op r s'}, S.answer x s op = some (r, s') → silent op → state s' = state s
  answer : ∀ {x s o r s'}, S.answer x s (e.op o) = some (r, s') →
    T.answer (env x) (state s) o = some (e.reply o r, state s')
  reboot : ∀ b s, state (S.reboot b s) = T.reboot (boot b) (state s)
  /-- only a restart changes how requests are handled -/
  handler : ∀ {x s o r s'}, T.answer x s o = some (r, s') → T.handler s' = T.handler s
  staged : ∀ s req, Staged e silent (T.handler (state s)) (enters req) (S.handler s req)

namespace Projection

variable {S : Service Reply' σ' Env' Boot' Req' Res'} {T : Service Reply σ Env Boot Req Res}
  {e : Embedding Reply Reply'} (P : Projection S T e)

/-- An operation of the large service, as the part sees it. -/
inductive Shows : Asked Reply' Env' → Asked Reply Env → Prop
  | mk (x : Env') (o : Op) (r : Reply' (e.op o)) :
      Shows ⟨x, e.op o, r⟩ ⟨P.env x, o, e.reply o r⟩

/-- What the guard of the large service admits, the guard of the part admits. -/
structure Carries (guard' : Guard Reply' σ' Env' Boot' Req' Res')
    (guard : Guard Reply σ Env Boot Req Res) : Prop where
  start : ∀ tr c j req, guard tr c (.start j req)
  ask : ∀ tr' c' tr c i j x o r, guard' tr' c' (.ask i x (e.op o) r) →
    c.shared = P.state c'.shared → guard tr c (.ask j (P.env x) o (e.reply o r))
  finish : ∀ tr c j res, guard tr c (.finish j res)
  abandon : ∀ tr' c' tr c i j req' req, guard' tr' c' (.abandon i) → .start i req' ∈ tr' →
    P.enters req' req → guard tr c (.abandon j)
  reboot : ∀ tr' c' tr c b, guard' tr' c' (.reboot b) → guard tr c (.reboot (P.boot b))

/-- A part without a guard. -/
theorem Carries.free (guard' : Guard Reply' σ' Env' Boot' Req' Res') :
    P.Carries guard' fun _ _ _ => True :=
  ⟨fun _ _ _ _ => trivial, fun _ _ _ _ _ _ _ _ _ _ _ => trivial, fun _ _ _ _ => trivial,
    fun _ _ _ _ _ _ _ _ _ _ _ => trivial, fun _ _ _ _ _ _ => trivial⟩

/-- The part has the requests that were entered, each where the large service has it; `ℓ i` is
the number that the request `i` has got there. -/
structure Follows (c' : Pool Reply' σ' Res') (c : Pool Reply σ Res) (ℓ : ℕ → Option ℕ)
    (tr' : History Reply' Env' Boot' Req' Res') : Prop where
  shared : c.shared = P.state c'.shared
  outside : ∀ i p, c'.threads i = some p → ℓ i = none → ∃ req', .start i req' ∈ tr' ∧
    Staged e P.silent (T.handler c.shared) (P.enters req') p
  inside : ∀ i j p', c'.threads i = some p' → ℓ i = some j → ∃ p, ∃ f : Res → Res',
    c.threads j = some p ∧ p' = p.embed e >>= fun a => .done (f a)
  covered : ∀ j p, c.threads j = some p → ∃ i p', ℓ i = some j ∧ c'.threads i = some p'
  injective : ∀ i i' j, ℓ i = some j → ℓ i' = some j → i = i'
  started : ∀ i j, ℓ i = some j → i < c'.started ∧ j < c.started

variable {P}

namespace Follows

variable {c' : Pool Reply' σ' Res'} {c : Pool Reply σ Res} {ℓ : ℕ → Option ℕ}
  {tr' : History Reply' Env' Boot' Req' Res'} {i j : ℕ}

theorem quiet (h : P.Follows c' c ℓ tr') (hquiet : c'.Quiet) : c.Quiet := by
  intro j
  cases hj : c.threads j with
  | none => rfl
  | some p =>
      rcases h.covered j p hj with ⟨i, p', -, hi⟩
      rw [hquiet i] at hi
      cases hi

/-- A request comes in; the part does not see it yet. -/
theorem start (h : P.Follows c' c ℓ tr') (req' : Req') :
    P.Follows { c'.setThread c'.started (some (S.handler c'.shared req')) with
      started := c'.started + 1 } c ℓ (tr' ++ [.start c'.started req']) := by
  have hne : ∀ i j, ℓ i = some j → i ≠ c'.started := fun i j hi =>
    Nat.ne_of_lt (h.started i j hi).1
  refine ⟨h.shared, fun i p hi hℓ => ?_, fun i j p' hi hℓ => ?_, fun j p hj => ?_, h.injective,
    fun i j hi => ⟨Nat.lt_succ_of_lt (h.started i j hi).1, (h.started i j hi).2⟩⟩
  · by_cases hnew : i = c'.started
    · subst hnew
      obtain rfl : S.handler c'.shared req' = p := by simpa [Pool.setThread] using hi
      exact ⟨req', by simp, h.shared ▸ P.staged c'.shared req'⟩
    · have hold : c'.threads i = some p := by simpa [Pool.setThread, hnew] using hi
      rcases h.outside i p hold hℓ with ⟨req, hreq, hstaged⟩
      exact ⟨req, by simp [hreq], hstaged⟩
  · exact h.inside i j p' (by simpa [Pool.setThread, hne i j hℓ] using hi) hℓ
  · rcases h.covered j p hj with ⟨i, p', hℓ, hi⟩
    exact ⟨i, p', hℓ, by simpa [Pool.setThread, hne i j hℓ] using hi⟩

/-- A request ends that the part has not seen. -/
theorem leave (h : P.Follows c' c ℓ tr') (hℓ : ℓ i = none)
    (ev : Event Reply' Env' Boot' Req' Res') :
    P.Follows (c'.setThread i none) c ℓ (tr' ++ [ev]) := by
  refine ⟨h.shared, fun k p hk hnone => ?_, fun k j p hk hsome => ?_, fun j p hj => ?_,
    h.injective, h.started⟩
  · rcases h.outside k p (Pool.of_drop hk).2 hnone with ⟨req, hreq, hstaged⟩
    exact ⟨req, by simp [hreq], hstaged⟩
  · exact h.inside k j p (Pool.of_drop hk).2 hsome
  · rcases h.covered j p hj with ⟨k, p', hk, hp'⟩
    have hki : k ≠ i := by
      rintro rfl
      rw [hℓ] at hk
      cases hk
    exact ⟨k, p', hk, by simpa [Pool.setThread, hki] using hp'⟩

/-- A request ends in both. -/
theorem leaveBoth (h : P.Follows c' c ℓ tr') (hℓ : ℓ i = some j)
    (ev : Event Reply' Env' Boot' Req' Res') :
    P.Follows (c'.setThread i none) (c.setThread j none) ℓ (tr' ++ [ev]) := by
  refine ⟨h.shared, fun k p hk hnone => ?_, fun k j' p hk hsome => ?_, fun j' p hj => ?_,
    h.injective, h.started⟩
  · rcases h.outside k p (Pool.of_drop hk).2 hnone with ⟨req, hreq, hstaged⟩
    exact ⟨req, by simp [hreq], hstaged⟩
  · rcases h.inside k j' p (Pool.of_drop hk).2 hsome with ⟨q, f, hq, hp⟩
    have hj' : j' ≠ j := by
      rintro rfl
      exact (Pool.of_drop hk).1 (h.injective k i j' hsome hℓ)
    exact ⟨q, f, by simpa [Pool.setThread, hj'] using hq, hp⟩
  · have hj' : j' ≠ j := by
      rintro rfl
      simp [Pool.setThread] at hj
    rcases h.covered j' p (by simpa [Pool.setThread, hj'] using hj) with ⟨k, p', hk, hp'⟩
    have hki : k ≠ i := by
      rintro rfl
      rw [hℓ, Option.some.injEq] at hk
      exact hj' hk.symm
    exact ⟨k, p', hk, by simpa [Pool.setThread, hki] using hp'⟩

/-- A request outside asks a silent operation. -/
theorem silent (h : P.Follows c' c ℓ tr') {x : Env'} {op : Op'}
    {k : Reply' op → Program Reply' Res'} {r : Reply' op} {s' : σ'} {req' : Req'}
    (hℓ : ℓ i = none) (hans : S.answer x c'.shared op = some (r, s'))
    (hsilent : P.silent op) (hreq : .start i req' ∈ tr')
    (hk : Staged e P.silent (T.handler c.shared) (P.enters req') (k r))
    (ht : c'.threads i = some (.ask op k)) :
    P.Follows { c'.setThread i (some (k r)) with shared := s' } c ℓ
      (tr' ++ [.ask i x op r]) := by
  refine ⟨h.shared.trans (P.state_silent hans hsilent).symm, fun n p hn hnone => ?_,
    fun n j p hn hsome => ?_, fun j p hj => ?_, h.injective, h.started⟩
  · by_cases hni : n = i
    · subst hni
      obtain rfl : k r = p := by simpa [Pool.setThread] using hn
      exact ⟨req', by simp [hreq], hk⟩
    · rcases h.outside n p (by simpa [Pool.setThread, hni] using hn) hnone with ⟨req, hr, hstaged⟩
      exact ⟨req, by simp [hr], hstaged⟩
  · have hni : n ≠ i := by
      rintro rfl
      rw [hℓ] at hsome
      cases hsome
    exact h.inside n j p (by simpa [Pool.setThread, hni] using hn) hsome
  · rcases h.covered j p hj with ⟨n, p', hn, hp'⟩
    have hni : n ≠ i := by
      rintro rfl
      rw [hℓ] at hn
      cases hn
    exact ⟨n, p', hn, by simpa [Pool.setThread, hni] using hp'⟩

/-- A request inside asks an operation in both. -/
theorem step (h : P.Follows c' c ℓ tr') {x : Env'} {o : Op} {k : Reply o → Program Reply Res}
    {f : Res → Res'} {r : Reply' (e.op o)} {s' : σ'} (hℓ : ℓ i = some j)
    (hans : S.answer x c'.shared (e.op o) = some (r, s')) (hi : c'.threads i ≠ none) :
    P.Follows
      { c'.setThread i (some ((k (e.reply o r)).embed e >>= fun a => .done (f a))) with
        shared := s' }
      { c.setThread j (some (k (e.reply o r))) with shared := P.state s' } ℓ
      (tr' ++ [.ask i x (e.op o) r]) := by
  have hanswer := P.answer hans
  rw [← h.shared] at hanswer
  refine ⟨rfl, fun n p hn hnone => ?_, fun n j' p hn hsome => ?_, fun j' p hj => ?_, h.injective,
    h.started⟩
  · have hni : n ≠ i := by
      rintro rfl
      rw [hℓ] at hnone
      cases hnone
    rcases h.outside n p (by simpa [Pool.setThread, hni] using hn) hnone with ⟨req, hreq, hstaged⟩
    exact ⟨req, by simp [hreq], (P.handler hanswer).symm ▸ hstaged⟩
  · by_cases hni : n = i
    · subst hni
      rw [hℓ, Option.some.injEq] at hsome
      subst hsome
      refine ⟨k (e.reply o r), f, by simp [Pool.setThread], ?_⟩
      simpa [Pool.setThread] using hn.symm
    · have hj' : j' ≠ j := by
        rintro rfl
        exact hni (h.injective n i j' hsome hℓ)
      rcases h.inside n j' p (by simpa [Pool.setThread, hni] using hn) hsome with ⟨q, g, hq, hp⟩
      exact ⟨q, g, by simpa [Pool.setThread, hj'] using hq, hp⟩
  · by_cases hj' : j' = j
    · exact ⟨i, _, hj' ▸ hℓ, Function.update_self ..⟩
    · rcases h.covered j' p (by simpa [Pool.setThread, hj'] using hj) with ⟨n, p', hn, hp'⟩
      have hni : n ≠ i := by
        rintro rfl
        rw [hℓ, Option.some.injEq] at hn
        exact hj' hn.symm
      exact ⟨n, p', hn, by simpa [Pool.setThread, hni] using hp'⟩

/-- A request is entered: it gets the next number of the part. -/
theorem enter (h : P.Follows c' c ℓ tr') (hℓ : ℓ i = none) (hi : i < c'.started) {req : Req}
    {f : Res → Res'}
    (ht : c'.threads i = some ((T.handler c.shared req).embed e >>= fun a => .done (f a))) :
    P.Follows c' { c.setThread c.started (some (T.handler c.shared req)) with
      started := c.started + 1 } (Function.update ℓ i (some c.started)) tr' := by
  have hnew : ∀ n j, ℓ n = some j → n ≠ i ∧ j ≠ c.started := by
    intro n j hn
    refine ⟨?_, Nat.ne_of_lt (h.started n j hn).2⟩
    rintro rfl
    rw [hℓ] at hn
    cases hn
  refine ⟨h.shared, fun n p hn hnone => ?_, fun n j p hn hsome => ?_, fun j p hj => ?_,
    fun n n' j hn hn' => ?_, fun n j hn => ?_⟩
  · by_cases hni : n = i
    · simp [hni] at hnone
    · exact h.outside n p hn (by simpa [hni] using hnone)
  · by_cases hni : n = i
    · subst hni
      obtain rfl : c.started = j := by simpa using hsome
      rw [ht, Option.some.injEq] at hn
      exact ⟨_, f, by simp [Pool.setThread], hn.symm⟩
    · have hold : ℓ n = some j := by simpa [hni] using hsome
      rcases h.inside n j p hn hold with ⟨q, g, hq, hp⟩
      exact ⟨q, g, by simpa [Pool.setThread, (hnew n j hold).2] using hq, hp⟩
  · by_cases hjc : j = c.started
    · subst hjc
      exact ⟨i, _, by simp, ht⟩
    · rcases h.covered j p (by simpa [Pool.setThread, hjc] using hj) with ⟨n, p', hn, hp'⟩
      exact ⟨n, p', by simpa [(hnew n j hn).1] using hn, hp'⟩
  · by_cases hni : n = i
    · by_cases hni' : n' = i
      · rw [hni, hni']
      · obtain rfl : c.started = j := by simpa [hni] using hn
        exact absurd rfl (hnew n' _ (by simpa [hni'] using hn')).2
    · have hold : ℓ n = some j := by simpa [hni] using hn
      by_cases hni' : n' = i
      · obtain rfl : c.started = j := by simpa [hni'] using hn'
        exact absurd rfl (hnew n _ hold).2
      · exact h.injective n n' j hold (by simpa [hni'] using hn')
  · by_cases hni : n = i
    · obtain rfl : c.started = j := by simpa [hni] using hn
      exact ⟨hni ▸ hi, Nat.lt_succ_self _⟩
    · have hold := h.started n j (by simpa [hni] using hn)
      exact ⟨hold.1, Nat.lt_succ_of_lt hold.2⟩

/-- Both lose their requests. -/
theorem reboot (h : P.Follows c' c ℓ tr') (b : Boot') :
    P.Follows { c' with shared := S.reboot b c'.shared, threads := fun _ => none }
      { c with shared := T.reboot (P.boot b) c.shared, threads := fun _ => none }
      ℓ (tr' ++ [.reboot b]) := by
  refine ⟨by rw [P.reboot, h.shared], ?_, ?_, ?_, h.injective, h.started⟩
  · intro i p hi
    cases hi
  · intro i j p hi
    cases hi
  · intro j p hj
    cases hj

end Follows

/-! ## What the two histories share -/

/-- The requests of the part are those that were entered, and both histories have the same
operations that are not silent, in the same order and of the same requests. -/
structure Mirrors (P : Projection S T e) [DecidablePred P.silent] (ℓ : ℕ → Option ℕ)
    (tr' : History Reply' Env' Boot' Req' Res') (tr : History Reply Env Boot Req Res) : Prop where
  starts : ∀ j req, .start j req ∈ tr → ∃ i req', ℓ i = some j ∧ .start i req' ∈ tr' ∧
    P.enters req' req
  entered : ∀ i j, ℓ i = some j → ∃ req' req, .start i req' ∈ tr' ∧ P.enters req' req
  changes : List.Forall₂ (fun x y => ℓ x.1 = some y.1 ∧ P.Shows x.2 y.2)
    (asked (fun op => ¬ P.silent op) tr') (asked (fun o => ¬ P.silent (e.op o)) tr)

namespace Mirrors

variable [DecidablePred P.silent] {ℓ : ℕ → Option ℕ} {tr' : History Reply' Env' Boot' Req' Res'}
  {tr : History Reply Env Boot Req Res}

theorem left (h : P.Mirrors ℓ tr' tr) {ev' : Event Reply' Env' Boot' Req' Res'}
    (hev : asked (fun op => ¬ P.silent op) [ev'] = []) : P.Mirrors ℓ (tr' ++ [ev']) tr := by
  refine ⟨fun j req hreq => ?_, fun i j hℓ => ?_, ?_⟩
  · rcases h.starts j req hreq with ⟨i, req', hℓ, hi, henters⟩
    exact ⟨i, req', hℓ, List.mem_append_left _ hi, henters⟩
  · rcases h.entered i j hℓ with ⟨req', req, hi, henters⟩
    exact ⟨req', req, List.mem_append_left _ hi, henters⟩
  · rw [asked_snoc, hev, List.append_nil]
    exact h.changes

theorem right (h : P.Mirrors ℓ tr' tr) {ev : Event Reply Env Boot Req Res}
    (hev : asked (fun o => ¬ P.silent (e.op o)) [ev] = []) (hstart : ∀ j req, ev ≠ .start j req) :
    P.Mirrors ℓ tr' (tr ++ [ev]) := by
  refine ⟨fun j req hreq => ?_, h.entered, ?_⟩
  · rcases List.mem_append.1 hreq with hold | hnew
    · exact h.starts j req hold
    · exact absurd (List.mem_singleton.1 hnew).symm (hstart j req)
  · rw [asked_snoc, hev, List.append_nil]
    exact h.changes

/-- A request is entered under the number `j`. -/
theorem enter (h : P.Mirrors ℓ tr' tr) {i : ℕ} (hℓ : ℓ i = none) {req' : Req'} {req : Req}
    (hreq' : .start i req' ∈ tr') (hreq : P.enters req' req) (j : ℕ) :
    P.Mirrors (Function.update ℓ i (some j)) tr' (tr ++ [.start j req]) := by
  have hold : ∀ i' j', ℓ i' = some j' → Function.update ℓ i (some j) i' = some j' := by
    intro i' j' hi'
    have hne : i' ≠ i := by
      rintro rfl
      rw [hℓ] at hi'
      cases hi'
    rw [Function.update_of_ne hne, hi']
  refine ⟨fun j' req₁ hstart => ?_, fun i' j' hi' => ?_, ?_⟩
  · rcases List.mem_append.1 hstart with hstart | hnew
    · rcases h.starts j' req₁ hstart with ⟨i', req₁', hi', hstart', henters⟩
      exact ⟨i', req₁', hold i' j' hi', hstart', henters⟩
    · cases List.mem_singleton.1 hnew
      exact ⟨i, req', Function.update_self .., hreq', hreq⟩
  · by_cases hne : i' = i
    · exact ⟨req', req, hne ▸ hreq', hreq⟩
    · exact h.entered i' j' (by rwa [Function.update_of_ne hne] at hi')
  · have hstart : asked (fun o => ¬ P.silent (e.op o))
        [(.start j req : Event Reply Env Boot Req Res)] = [] := rfl
    rw [asked_snoc, hstart, List.append_nil]
    exact h.changes.imp fun x y hxy => ⟨hold _ _ hxy.1, hxy.2⟩

/-- Both ask the same operation. -/
theorem ask (h : P.Mirrors ℓ tr' tr) {i j : ℕ} (hℓ : ℓ i = some j) (x : Env') (o : Op)
    (r : Reply' (e.op o)) :
    P.Mirrors ℓ (tr' ++ [.ask i x (e.op o) r]) (tr ++ [.ask j (P.env x) o (e.reply o r)]) := by
  refine ⟨fun j' req hreq => ?_, fun i' j' hi' => ?_, ?_⟩
  · have hold : .start j' req ∈ tr := by simpa using hreq
    rcases h.starts j' req hold with ⟨i', req', hi', hstart, henters⟩
    exact ⟨i', req', hi', List.mem_append_left _ hstart, henters⟩
  · rcases h.entered i' j' hi' with ⟨req', req, hstart, henters⟩
    exact ⟨req', req, List.mem_append_left _ hstart, henters⟩
  · rw [asked_snoc, asked_snoc, asked_ask, asked_ask]
    refine List.rel_append h.changes ?_
    split_ifs
    · exact .nil
    · exact .cons ⟨hℓ, Shows.mk x o r⟩ .nil

/-- Each request of the part asks what the request that entered it asks. -/
theorem thread (h : P.Mirrors ℓ tr' tr) (hinj : ∀ i i' j, ℓ i = some j → ℓ i' = some j → i = i')
    {i j : ℕ} (hℓ : ℓ i = some j) :
    List.Forall₂ (fun x y => P.Shows x.2 y.2) (asked (fun op => ¬ P.silent op) (byThread i tr'))
      (asked (fun o => ¬ P.silent (e.op o)) (byThread j tr)) := by
  rw [asked_byThread, asked_byThread]
  have hchanges := h.changes
  generalize asked (fun op => ¬ P.silent op) tr' = xs at hchanges ⊢
  generalize asked (fun o => ¬ P.silent (e.op o)) tr = ys at hchanges ⊢
  induction hchanges with
  | nil => exact .nil
  | @cons x y xs ys hxy _ ih =>
      have hsame : x.1 = i ↔ y.1 = j := by
        constructor
        · intro hx
          rw [← hx, hxy.1, Option.some.injEq] at hℓ
          exact hℓ
        · intro hy
          exact hinj _ _ j (hy ▸ hxy.1) hℓ
      by_cases hx : x.1 = i
      · simpa [hx, hsame.1 hx] using ⟨hxy.2, ih⟩
      · simpa [hx, mt hsame.2 hx] using ih

end Mirrors

/-! ## Every run is a run of the part -/

variable {guard' : Guard Reply' σ' Env' Boot' Req' Res'} {guard : Guard Reply σ Env Boot Req Res}

theorem Follows.idle (s₀ : σ') :
    P.Follows (Pool.idle s₀) (Pool.idle (P.state s₀)) (fun _ => none) [] := by
  refine ⟨rfl, ?_, ?_, ?_, ?_, ?_⟩
  · intro i p hi
    cases hi
  · intro i j p hi
    cases hi
  · intro j p hj
    cases hj
  · intro i i' j hi
    cases hi
  · intro i j hi
    cases hi

section Step

variable [DecidablePred P.silent] {s₀ : σ'}
  {tr' : History Reply' Env' Boot' Req' Res'} {c' c'' : Pool Reply' σ' Res'}
  {tr : History Reply Env Boot Req Res} {c : Pool Reply σ Res} {ℓ : ℕ → Option ℕ} {i : ℕ}

/-- The part keeps up with one operation: it stands still, or asks it too, or starts the request
whose first operation it is. -/
theorem Follows.ask (hguard : P.Carries guard' guard) (h : P.Follows c' c ℓ tr')
    (hmirrors : P.Mirrors ℓ tr' tr) (hrun' : S.Run guard' s₀ tr' c')
    (hrun : T.Run guard (P.state s₀) tr c) {x : Env'} {op : Op'}
    {k : Reply' op → Program Reply' Res'} {r : Reply' op} {s' : σ'}
    (ht : c'.threads i = some (.ask op k)) (hans : S.answer x c'.shared op = some (r, s'))
    (hg : guard' tr' c' (.ask i x op r)) :
    ∃ ext c₁ ℓ₁, T.Run guard (P.state s₀) (tr ++ ext) c₁ ∧
      P.Mirrors ℓ₁ (tr' ++ [.ask i x op r]) (tr ++ ext) ∧
      P.Follows { c'.setThread i (some (k r)) with shared := s' } c₁ ℓ₁
        (tr' ++ [.ask i x op r]) := by
  cases hℓ : ℓ i with
  | none =>
      rcases h.outside i _ ht hℓ with ⟨req', hreq', hstaged⟩
      rcases hstaged.ask_cases with ⟨hsilent, hk⟩ | ⟨req, o, k₀, f, hreq, hprog, hask⟩
      · have hev : asked (fun op => ¬ P.silent op)
            [(.ask i x op r : Event Reply' Env' Boot' Req' Res')] = [] := by
          rw [asked_ask, if_neg (not_not_intro hsilent)]
        refine ⟨[], c, ℓ, ?_, ?_, h.silent hℓ hans hsilent hreq' (hk r) ht⟩
        · simpa using hrun
        · simpa using hmirrors.left hev
      · -- The request is entered with its first operation.
        cases hask
        have hi : i < c'.started := by
          by_contra hlt
          rw [hrun'.fresh i (Nat.le_of_not_lt hlt)] at ht
          cases ht
        have hans' := P.answer hans
        rw [← h.shared] at hans'
        have hcall : c'.threads i =
            some ((T.handler c.shared req).embed e >>= fun a => .done (f a)) := by
          rw [hprog]
          exact ht
        have hentered := h.enter hℓ hi hcall
        have hfollows := hentered.step (k := k₀) (f := f) (Function.update_self ..) hans
          (by simp [ht])
        have hstart := hrun.snoc (m := .start req) rfl (hguard.start _ _ c.started req)
        have hmirrors' := hmirrors.enter hℓ hreq' hreq c.started
        refine ⟨[.start c.started req, .ask c.started (P.env x) o (e.reply o r)], _, _, ?_, ?_,
          hfollows⟩
        · have hask := hguard.ask _ _ (tr ++ [.start c.started req]) _ i c.started x o r hg
            hentered.shared
          rw [List.append_cons]
          refine hstart.snoc (m := .step c.started (P.env x)) ?_ hask
          simp [Service.move, Pool.setThread, hprog, hans']
        · have hask := hmirrors'.ask (Function.update_self ..) x o r
          rwa [List.append_assoc] at hask
  | some j =>
      rcases h.inside i j _ ht hℓ with ⟨p, f, hj, hp⟩
      cases p with
      | done a₀ => cases hp
      | ask o k₀ =>
          rw [Program.embed_ask_bind] at hp
          cases hp
          have hans' := P.answer hans
          rw [← h.shared] at hans'
          refine ⟨_, _, ℓ, hrun.snoc (m := .step j (P.env x)) ?_
            (hguard.ask _ _ _ _ i j x o r hg h.shared), hmirrors.ask hℓ x o r,
            h.step (k := k₀) (f := f) hℓ hans (by simp [ht])⟩
          simp only [Service.move, hj, hans']

/-- The part keeps up with the end of a request. -/
theorem Follows.finish [Nonempty Env] (hguard : P.Carries guard' guard) (h : P.Follows c' c ℓ tr')
    (hmirrors : P.Mirrors ℓ tr' tr) (hrun : T.Run guard (P.state s₀) tr c) {a : Res'}
    (ht : c'.threads i = some (.done a)) :
    ∃ ext c₁ ℓ₁, T.Run guard (P.state s₀) (tr ++ ext) c₁ ∧
      P.Mirrors ℓ₁ (tr' ++ [.finish i a]) (tr ++ ext) ∧
      P.Follows (c'.setThread i none) c₁ ℓ₁ (tr' ++ [.finish i a]) := by
  cases hℓ : ℓ i with
  | none =>
      refine ⟨[], c, ℓ, ?_, ?_, h.leave hℓ _⟩
      · simpa using hrun
      · have hmirrors' : P.Mirrors ℓ (tr' ++ [.finish i a]) tr := hmirrors.left rfl
        simpa using hmirrors'
  | some j =>
      rcases h.inside i j _ ht hℓ with ⟨p, f, hj, hp⟩
      cases p with
      | ask o k => cases hp
      | done a₀ =>
          refine ⟨[.finish j a₀], _, ℓ, hrun.snoc (m := .step j (Classical.arbitrary Env)) ?_
            (hguard.finish _ _ j a₀), ?_, h.leaveBoth hℓ _⟩
          · simp only [Service.move, hj]
          · exact (hmirrors.left rfl).right rfl (by simp)

/-- The part keeps up with a request that is given up. -/
theorem Follows.abandon (hguard : P.Carries guard' guard) (h : P.Follows c' c ℓ tr')
    (hmirrors : P.Mirrors ℓ tr' tr) (hrun : T.Run guard (P.state s₀) tr c)
    {p' : Program Reply' Res'} (ht : c'.threads i = some p')
    (hg : guard' tr' c' (.abandon i)) :
    ∃ ext c₁ ℓ₁, T.Run guard (P.state s₀) (tr ++ ext) c₁ ∧
      P.Mirrors ℓ₁ (tr' ++ [.abandon i]) (tr ++ ext) ∧
      P.Follows (c'.setThread i none) c₁ ℓ₁ (tr' ++ [.abandon i]) := by
  cases hℓ : ℓ i with
  | none =>
      refine ⟨[], c, ℓ, ?_, ?_, h.leave hℓ _⟩
      · simpa using hrun
      · have hmirrors' : P.Mirrors ℓ (tr' ++ [.abandon i]) tr := hmirrors.left rfl
        simpa using hmirrors'
  | some j =>
      rcases h.inside i j _ ht hℓ with ⟨p, f, hj, -⟩
      rcases hmirrors.entered i j hℓ with ⟨req', req, hstart, henters⟩
      refine ⟨[.abandon j], _, ℓ, hrun.snoc (m := .abandon j) ?_
        (hguard.abandon _ _ _ _ i j _ _ hg hstart henters), ?_, h.leaveBoth hℓ _⟩
      · simp only [Service.move, hj]
      · exact (hmirrors.left rfl).right rfl (by simp)

/-- The part keeps up with every move. -/
theorem Follows.move [Nonempty Env] (hguard : P.Carries guard' guard) (h : P.Follows c' c ℓ tr')
    (hmirrors : P.Mirrors ℓ tr' tr) (hrun' : S.Run guard' s₀ tr' c')
    (hrun : T.Run guard (P.state s₀) tr c) {m : Move Env' Boot' Req'}
    {ev : Event Reply' Env' Boot' Req' Res'} (hm : S.move c' m = some (ev, c''))
    (hg : guard' tr' c' ev) :
    ∃ ext c₁ ℓ₁, T.Run guard (P.state s₀) (tr ++ ext) c₁ ∧
      P.Mirrors ℓ₁ (tr' ++ [ev]) (tr ++ ext) ∧ P.Follows c'' c₁ ℓ₁ (tr' ++ [ev]) := by
  rcases Service.move_cases hm with ⟨req', rfl, rfl⟩ | ⟨i, a, ht, rfl, rfl⟩ |
    ⟨i, x, op, k, r, s', ht, hans, rfl, rfl⟩ | ⟨i, p, ht, rfl, rfl⟩ | ⟨b, rfl, rfl⟩
  · refine ⟨[], c, ℓ, ?_, ?_, h.start req'⟩
    · simpa using hrun
    · have hmirrors' : P.Mirrors ℓ (tr' ++ [.start c'.started req']) tr := hmirrors.left rfl
      simpa using hmirrors'
  · exact h.finish hguard hmirrors hrun ht
  · exact h.ask hguard hmirrors hrun' hrun ht hans hg
  · exact h.abandon hguard hmirrors hrun ht hg
  · refine ⟨[.reboot (P.boot b)], _, _,
      hrun.snoc (m := .reboot (P.boot b)) rfl (hguard.reboot _ _ _ _ b hg), ?_, h.reboot b⟩
    exact (hmirrors.left rfl).right rfl (by simp)

end Step

/-- The run `tr` of the part with the pool `c` is what the part sees of the run `tr'` with `c'`. -/
structure Sees (P : Projection S T e) [DecidablePred P.silent]
    (guard : Guard Reply σ Env Boot Req Res) (s₀ : σ')
    (tr' : History Reply' Env' Boot' Req' Res') (c' : Pool Reply' σ' Res')
    (tr : History Reply Env Boot Req Res) (c : Pool Reply σ Res) : Prop where
  run : T.Run guard (P.state s₀) tr c
  shared : c.shared = P.state c'.shared
  quiet : c'.Quiet → c.Quiet
  changes : List.Forall₂ (fun x y => P.Shows x.2 y.2) (asked (fun op => ¬ P.silent op) tr')
    (asked (fun o => ¬ P.silent (e.op o)) tr)
  threads : ∀ j req, .start j req ∈ tr → ∃ i req', .start i req' ∈ tr' ∧ P.enters req' req ∧
    List.Forall₂ (fun x y => P.Shows x.2 y.2) (asked (fun op => ¬ P.silent op) (byThread i tr'))
      (asked (fun o => ¬ P.silent (e.op o)) (byThread j tr))

theorem Follows.sees [DecidablePred P.silent] {s₀ : σ'}
    {tr' : History Reply' Env' Boot' Req' Res'} {c' : Pool Reply' σ' Res'}
    {tr : History Reply Env Boot Req Res} {c : Pool Reply σ Res} {ℓ : ℕ → Option ℕ}
    (h : P.Follows c' c ℓ tr') (hmirrors : P.Mirrors ℓ tr' tr)
    (hrun : T.Run guard (P.state s₀) tr c) : P.Sees guard s₀ tr' c' tr c := by
  refine ⟨hrun, h.shared, h.quiet, hmirrors.changes.imp fun x y hxy => hxy.2, ?_⟩
  intro j req hreq
  rcases hmirrors.starts j req hreq with ⟨i, req', hℓ, hstart, henters⟩
  exact ⟨i, req', hstart, henters, hmirrors.thread h.injective hℓ⟩

/-- The part sees every run as a run of its own, and every beginning of it as a beginning. -/
theorem run [Nonempty Env] [DecidablePred P.silent] (hguard : P.Carries guard' guard) {s₀ : σ'}
    {tr' : History Reply' Env' Boot' Req' Res'} {c' : Pool Reply' σ' Res'}
    (h : S.Run guard' s₀ tr' c') : ∃ tr c, P.Sees guard s₀ tr' c' tr c ∧
      ∀ before after, tr' = before ++ after → ∃ c₁' tr₁ c₁, S.Run guard' s₀ before c₁' ∧
        P.Sees guard s₀ before c₁' tr₁ c₁ ∧ tr₁ <+: tr := by
  have hall : ∃ tr c ℓ, T.Run guard (P.state s₀) tr c ∧ P.Mirrors ℓ tr' tr ∧ P.Follows c' c ℓ tr' ∧
      ∀ before after, tr' = before ++ after → ∃ c₁' tr₁ c₁, S.Run guard' s₀ before c₁' ∧
        P.Sees guard s₀ before c₁' tr₁ c₁ ∧ tr₁ <+: tr := by
    induction h with
    | refl =>
        have hmirrors : P.Mirrors (fun _ => none) [] [] := by
          refine ⟨?_, ?_, .nil⟩
          · intro j req hreq
            cases hreq
          · intro i j hℓ
            cases hℓ
        have hfollows := Follows.idle (P := P) s₀
        refine ⟨[], Pool.idle (P.state s₀), _, .refl, hmirrors, hfollows, ?_⟩
        intro before after hsplit
        obtain ⟨rfl, rfl⟩ := List.append_eq_nil_iff.1 hsplit.symm
        exact ⟨_, [], _, .refl, hfollows.sees hmirrors .refl, List.prefix_refl _⟩
    | @snoc tr' c' c'' m ev hrun' hm hg ih =>
        rcases ih with ⟨tr, c, ℓ, hrun, hmirrors, hfollows, hearlier⟩
        rcases hfollows.move hguard hmirrors hrun' hrun hm hg with
          ⟨ext, c₁, ℓ₁, hrun₁, hmirrors₁, hfollows₁⟩
        refine ⟨tr ++ ext, c₁, ℓ₁, hrun₁, hmirrors₁, hfollows₁, ?_⟩
        intro before after hsplit
        -- The whole run, or a beginning of the run before the last event.
        rcases List.eq_nil_or_concat after with rfl | ⟨after', e', rfl⟩
        · rw [List.append_nil] at hsplit
          subst hsplit
          exact ⟨c'', _, c₁, hrun'.snoc hm hg, hfollows₁.sees hmirrors₁ hrun₁,
            List.prefix_refl _⟩
        · rw [List.concat_eq_append, ← List.append_assoc] at hsplit
          rcases hearlier before after' (List.append_inj' hsplit rfl).1 with
            ⟨c₁', tr₁, c₂, hrun₂, hsees, hpre⟩
          exact ⟨c₁', tr₁, c₂, hrun₂, hsees, hpre.trans (List.prefix_append tr ext)⟩
  rcases hall with ⟨tr, c, ℓ, hrun, hmirrors, hfollows, hearlier⟩
  exact ⟨tr, c, hfollows.sees hmirrors hrun, hearlier⟩

/-! ## A request handled alone -/

theorem runs_embed {p : Program Reply α} {s s' : σ'} {log : List (Asked Reply' Env')} {a : α}
    (h : Runs S.answer s (p.embed e) log s' a) :
    ∃ log₀, Runs T.answer (P.state s) p log₀ (P.state s') a ∧
      ∀ y ∈ log₀, ∃ x ∈ log, P.Shows x y := by
  induction p generalizing s log with
  | done b =>
      cases h
      exact ⟨[], .done _ _, by simp⟩
  | ask o k ih =>
      cases h with
      | @ask _ s₁ _ x _ r _ _ _ hans hrest =>
          rcases ih _ hrest with ⟨log₀, hrun, hlog⟩
          refine ⟨_ :: log₀, .ask (P.answer hans) hrun, fun y hy => ?_⟩
          rcases List.mem_cons.1 hy with rfl | hy
          · exact ⟨_, List.mem_cons_self, .mk x o r⟩
          · rcases hlog y hy with ⟨x', hx', hshows⟩
            exact ⟨x', List.mem_cons_of_mem _ hx', hshows⟩

/-- The part stays as it was, or handles a request of its own. -/
theorem runs_staged {handler : Req → Program Reply Res} {enters : Req → Prop}
    {p : Program Reply' Res'} (hp : Staged e P.silent handler enters p) {s s' : σ'}
    {log : List (Asked Reply' Env')} {a : Res'} (h : Runs S.answer s p log s' a) :
    P.state s' = P.state s ∨ ∃ req log₀ res, enters req ∧
      Runs T.answer (P.state s) (handler req) log₀ (P.state s') res ∧
      ∀ y ∈ log₀, ∃ x ∈ log, P.Shows x y := by
  induction hp generalizing s log with
  | done b =>
      cases h
      exact .inl rfl
  | ask hsilent _ ih =>
      cases h with
      | ask hans hrest =>
          rw [← P.state_silent hans hsilent]
          rcases ih _ hrest with hsame | ⟨req, log₀, res, henters, hrun, hlog⟩
          · exact .inl hsame
          · refine .inr ⟨req, log₀, res, henters, hrun, fun y hy => ?_⟩
            rcases hlog y hy with ⟨x, hx, hshows⟩
            exact ⟨x, List.mem_cons_of_mem _ hx, hshows⟩
  | enter req f henters =>
      rcases h.of_bind with ⟨log₁, log₂, s₁, res, rfl, hreq, hdone⟩
      obtain ⟨-, rfl, -⟩ := hdone.of_done
      rcases P.runs_embed hreq with ⟨log₀, hrun, hlog⟩
      refine .inr ⟨req, log₀, res, henters, hrun, fun y hy => ?_⟩
      rcases hlog y hy with ⟨x, hx, hshows⟩
      exact ⟨x, List.mem_append_left _ hx, hshows⟩

end Projection

end Effect
