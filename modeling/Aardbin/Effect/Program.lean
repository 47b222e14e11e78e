import Mathlib.Logic.Function.Basic

/-!
# Programs over an effect signature

A `Program Reply α` is a finite tree of operations: it asks its environment an operation `op`,
waits for a reply of type `Reply op`, and continues.  The environment is not part of the program,
so one program can be

* run alone against a state (`Program.Runs`),
* interleaved with others over a shared state (`Effect/Pool.lean`), or
* checked against a `Protocol`, the ghost state machine that says which operations may be asked
  and what each reply means (`wp`).
-/

namespace Effect

variable {Op : Type} {Reply : Op → Type} {α β : Type}

/-! ## Programs -/

inductive Program (Reply : Op → Type) (α : Type) : Type
  | done (a : α)
  | ask (op : Op) (next : Reply op → Program Reply α)

namespace Program

def bind : Program Reply α → (α → Program Reply β) → Program Reply β
  | .done a, f => f a
  | .ask op next, f => .ask op (fun r => (next r).bind f)

instance : Monad (Program Reply) where
  pure := .done
  bind := bind

/-- Ask one operation and return its reply. -/
def perform (op : Op) : Program Reply (Reply op) :=
  .ask op .done

end Program

open Program

/-! ## Protocols and weakest preconditions -/

/-- A ghost state machine over the operations of a signature. -/
structure Protocol (Reply : Op → Type) (G : Type) where
  /-- what a program must know before it asks `op` -/
  pre : G → Op → Prop
  /-- the ghost states that the reply can lead to -/
  next : G → (op : Op) → Reply op → G → Prop

section WeakestPrecondition

variable {G : Type}

def wp (π : Protocol Reply G) : Program Reply α → (α → G → Prop) → G → Prop
  | .done a, Q, g => Q a g
  | .ask op k, Q, g => π.pre g op ∧ ∀ r g', π.next g op r g' → wp π (k r) Q g'

variable {π : Protocol Reply G}

@[simp] theorem wp_done (a : α) (Q : α → G → Prop) (g : G) :
    wp π (.done a) Q g ↔ Q a g := Iff.rfl

@[simp] theorem wp_pure (a : α) (Q : α → G → Prop) (g : G) :
    wp π (pure a) Q g ↔ Q a g := Iff.rfl

theorem wp_ask (op : Op) (k : Reply op → Program Reply α) (Q : α → G → Prop) (g : G) :
    wp π (.ask op k) Q g ↔ π.pre g op ∧ ∀ r g', π.next g op r g' → wp π (k r) Q g' := Iff.rfl

@[simp] theorem wp_perform (op : Op) (Q : Reply op → G → Prop) (g : G) :
    wp π (perform op) Q g ↔ π.pre g op ∧ ∀ r g', π.next g op r g' → Q r g' := Iff.rfl

@[simp] theorem wp_bind (p : Program Reply α) (f : α → Program Reply β)
    (Q : β → G → Prop) (g : G) :
    wp π (p >>= f) Q g ↔ wp π p (fun a g' => wp π (f a) Q g') g := by
  change wp π (p.bind f) Q g ↔ _
  -- The ghost state moves along with the program, so the induction is over both.
  induction p generalizing g with
  | done a => exact Iff.rfl
  | ask op next ih =>
      simp only [Program.bind, wp_ask]
      refine and_congr Iff.rfl ?_
      exact forall_congr' fun r => forall_congr' fun g' => imp_congr Iff.rfl (ih r g')

theorem wp_mono {p : Program Reply α} {Q Q' : α → G → Prop} {g : G}
    (h : wp π p Q g) (hQ : ∀ a g', Q a g' → Q' a g') : wp π p Q' g := by
  induction p generalizing g with
  | done a => exact hQ a g h
  | ask op next ih =>
      rcases h with ⟨hpre, hnext⟩
      exact ⟨hpre, fun r g' hr => ih r (hnext r g' hr)⟩

/-- A protocol that admits fewer replies leaves fewer cases to check. -/
theorem wp_restrict {π' : Protocol Reply G} {p : Program Reply α} {Q : α → G → Prop} {g : G}
    (hpre : ∀ g op, π.pre g op → π'.pre g op)
    (hnext : ∀ g op r g', π'.next g op r g' → π.next g op r g')
    (h : wp π p Q g) : wp π' p Q g := by
  induction p generalizing g with
  | done a => exact h
  | ask op next ih =>
      rcases h with ⟨h₁, h₂⟩
      exact ⟨hpre g op h₁, fun r g' hr => ih r (h₂ r g' (hnext g op r g' hr))⟩

end WeakestPrecondition

/-! ## Two protocols at once -/

section Both

variable {G₁ G₂ : Type}

/-- Both protocols watch the same program. -/
def both (π₁ : Protocol Reply G₁) (π₂ : Protocol Reply G₂) : Protocol Reply (G₁ × G₂) where
  pre := fun g op => π₁.pre g.1 op ∧ π₂.pre g.2 op
  next := fun g op r g' => π₁.next g.1 op r g'.1 ∧ π₂.next g.2 op r g'.2

theorem wp_both {π₁ : Protocol Reply G₁} {π₂ : Protocol Reply G₂} {p : Program Reply α}
    {Q₁ : α → G₁ → Prop} {Q₂ : α → G₂ → Prop} {g₁ : G₁} {g₂ : G₂} (h₁ : wp π₁ p Q₁ g₁)
    (h₂ : wp π₂ p Q₂ g₂) : wp (both π₁ π₂) p (fun a g => Q₁ a g.1 ∧ Q₂ a g.2) (g₁, g₂) := by
  induction p generalizing g₁ g₂ with
  | done a => exact ⟨h₁, h₂⟩
  | ask op next ih =>
      rcases h₁ with ⟨hpre₁, hnext₁⟩
      rcases h₂ with ⟨hpre₂, hnext₂⟩
      refine ⟨⟨hpre₁, hpre₂⟩, ?_⟩
      rintro r ⟨g₁', g₂'⟩ ⟨hr₁, hr₂⟩
      exact ih r (hnext₁ r g₁' hr₁) (hnext₂ r g₂' hr₂)

/-- Two protocols over the same ghost state. -/
def meet (π₁ π₂ : Protocol Reply G₁) : Protocol Reply G₁ where
  pre := fun g op => π₁.pre g op ∧ π₂.pre g op
  next := fun g op r g' => π₁.next g op r g' ∧ π₂.next g op r g'

theorem wp_meet {π₁ π₂ : Protocol Reply G₁} {p : Program Reply α} {Q₁ Q₂ : α → G₁ → Prop} {g : G₁}
    (h₁ : wp π₁ p Q₁ g) (h₂ : wp π₂ p Q₂ g) :
    wp (meet π₁ π₂) p (fun a g' => Q₁ a g' ∧ Q₂ a g') g := by
  induction p generalizing g with
  | done a => exact ⟨h₁, h₂⟩
  | ask op next ih =>
      rcases h₁ with ⟨hpre₁, hnext₁⟩
      rcases h₂ with ⟨hpre₂, hnext₂⟩
      refine ⟨⟨hpre₁, hpre₂⟩, ?_⟩
      rintro r g' ⟨hr₁, hr₂⟩
      exact ih r (hnext₁ r g' hr₁) (hnext₂ r g' hr₂)

theorem wp_and {π : Protocol Reply G₁} {p : Program Reply α} {Q₁ Q₂ : α → G₁ → Prop} {g : G₁}
    (h₁ : wp π p Q₁ g) (h₂ : wp π p Q₂ g) : wp π p (fun a g' => Q₁ a g' ∧ Q₂ a g') g :=
  wp_restrict (π := meet π π) (fun _ _ h => h.1) (fun _ _ _ _ h => ⟨h, h⟩) (wp_meet h₁ h₂)

end Both

/-! ## What a program asks and returns, whatever the replies -/

/-- The protocol without ghost state that only restricts the operations. -/
def only (P : Op → Prop) : Protocol Reply Unit where
  pre := fun _ op => P op
  next := fun _ _ _ _ => True

/-- Every operation of `p` satisfies `P` and every result satisfies `R`. -/
def Uses (P : Op → Prop) (R : α → Prop) (p : Program Reply α) : Prop :=
  wp (only P) p (fun a _ => R a) ()

theorem Uses.mono {P P' : Op → Prop} {R R' : α → Prop} {p : Program Reply α}
    (h : Uses P R p) (hP : ∀ op, P op → P' op) (hR : ∀ a, R a → R' a) : Uses P' R' p := by
  have hrestrict : wp (only P') p (fun a _ => R a) () :=
    wp_restrict (π := only P) (fun _ op => hP op) (fun _ _ _ _ _ => trivial) h
  exact wp_mono hrestrict (fun a _ => hR a)

namespace Uses

variable {P : Op → Prop} {R : α → Prop} {R' : β → Prop}

theorem pure {a : α} (h : R a) : Uses P R (Pure.pure a : Program Reply α) := h

theorem perform {op : Op} {R : Reply op → Prop} (hop : P op) (h : ∀ r, R r) :
    Uses P R (Program.perform op : Program Reply (Reply op)) :=
  ⟨hop, fun r _ _ => h r⟩

theorem any (p : Program Reply α) : Uses (fun _ => True) (fun _ => True) p := by
  induction p with
  | done a => trivial
  | ask op next ih => exact ⟨trivial, fun r _ _ => ih r⟩

theorem bind {p : Program Reply α} {f : α → Program Reply β} (h : Uses P R p)
    (hf : ∀ a, R a → Uses P R' (f a)) : Uses P R' (p >>= f) := by
  unfold Uses
  rw [wp_bind]
  exact wp_mono h fun a _ ha => hf a ha

theorem and {P' : Op → Prop} {S : α → Prop} {p : Program Reply α} (h : Uses P R p)
    (h' : Uses P' S p) : Uses (fun op => P op ∧ P' op) (fun a => R a ∧ S a) p := by
  induction p with
  | done a => exact ⟨h, h'⟩
  | ask op next ih =>
      exact ⟨⟨h.1, h'.1⟩, fun r _ _ => ih r (h.2 r () trivial) (h'.2 r () trivial)⟩

end Uses

/-- A program keeps what each of its operations keeps. -/
theorem wp_keeps {G : Type} {π : Protocol Reply G} {P : Op → Prop} {R : α → Prop}
    {p : Program Reply α} {Q : α → G → Prop} {g : G} (I : G → Prop)
    (hpre : ∀ g op, I g → P op → π.pre g op)
    (hnext : ∀ g op r g', I g → P op → π.next g op r g' → I g')
    (h : Uses P R p) (hI : I g) (hQ : ∀ a g', R a → I g' → Q a g') : wp π p Q g := by
  unfold Uses at h
  induction p generalizing g with
  | done a => exact hQ a g h hI
  | ask op next ih =>
      rcases h with ⟨hP, hrest⟩
      refine ⟨hpre g op hI hP, fun r g' hr => ?_⟩
      exact ih r (hrest r () trivial) (hnext g op r g' hI hP hr)

/-- A program whose operations the protocol ignores leaves the ghost state alone. -/
theorem wp_of_uses {G : Type} {π : Protocol Reply G} {P : Op → Prop} {R : α → Prop}
    {p : Program Reply α} {Q : α → G → Prop} {g : G} (h : Uses P R p)
    (hpre : ∀ op, P op → π.pre g op)
    (hnext : ∀ op r g', P op → π.next g op r g' → g' = g)
    (hQ : ∀ a, R a → Q a g) : wp π p Q g := by
  refine wp_keeps (fun g' => g' = g) ?_ ?_ h rfl ?_
  · rintro _ op rfl hop
    exact hpre op hop
  · rintro _ op r g' rfl hop hr
    exact hnext op r g' hop hr
  · rintro a _ ha rfl
    exact hQ a ha

theorem wp_with_uses {G : Type} {π : Protocol Reply G} {P : Op → Prop} {R : α → Prop}
    {p : Program Reply α} {Q : α → G → Prop} {g : G} (h : wp π p Q g) (huses : Uses P R p) :
    wp π p (fun a g' => R a ∧ Q a g') g := by
  unfold Uses at huses
  induction p generalizing g with
  | done a => exact ⟨huses, h⟩
  | ask op next ih => exact ⟨h.1, fun r g' hr => ih r (h.2 r g' hr) (huses.2 r () trivial)⟩

/-! ## Runs of one program alone -/

/-- One operation of a run, with what the environment chose and replied. -/
structure Asked (Reply : Op → Type) (Env : Type) where
  env : Env
  op : Op
  reply : Reply op

section Runs

variable {σ Env : Type}

/-- A complete run of one program, nobody else using the state. -/
inductive Runs (answer : Env → σ → (op : Op) → Option (Reply op × σ)) :
    σ → Program Reply α → List (Asked Reply Env) → σ → α → Prop
  | done (s : σ) (a : α) : Runs answer s (.done a) [] s a
  | ask {s s' s'' : σ} {e : Env} {op : Op} {r : Reply op} {k : Reply op → Program Reply α}
      {tr : List (Asked Reply Env)} {a : α} :
      answer e s op = some (r, s') → Runs answer s' (k r) tr s'' a →
      Runs answer s (.ask op k) (⟨e, op, r⟩ :: tr) s'' a

variable {answer : Env → σ → (op : Op) → Option (Reply op × σ)}

theorem Runs.perform {s s' : σ} {e : Env} {op : Op} {r : Reply op}
    (h : answer e s op = some (r, s')) :
    Runs answer s (Program.perform op) [⟨e, op, r⟩] s' r :=
  .ask h (.done s' r)

theorem Runs.bind {s s' s'' : σ} {p : Program Reply α} {f : α → Program Reply β} {a : α} {b : β}
    {tr tr' : List (Asked Reply Env)} (hp : Runs answer s p tr s' a)
    (hf : Runs answer s' (f a) tr' s'' b) : Runs answer s (p >>= f) (tr ++ tr') s'' b := by
  induction hp with
  | done s a => exact hf
  | ask hans _ ih => exact .ask hans (ih hf)

theorem Runs.of_done {s s' : σ} {a b : α} {tr : List (Asked Reply Env)}
    (h : Runs answer s (pure a) tr s' b) : tr = [] ∧ s' = s ∧ b = a := by
  cases h with
  | done => exact ⟨rfl, rfl, rfl⟩

/-- A run of a sequence is a run of its first part, and one of what follows on its result. -/
theorem Runs.of_bind {s s'' : σ} {p : Program Reply α} {f : α → Program Reply β} {b : β}
    {tr : List (Asked Reply Env)} (h : Runs answer s (p >>= f) tr s'' b) :
    ∃ tr₁ tr₂ s' a, tr = tr₁ ++ tr₂ ∧ Runs answer s p tr₁ s' a ∧ Runs answer s' (f a) tr₂ s'' b := by
  change Runs answer s (p.bind f) tr s'' b at h
  induction p generalizing s tr with
  | done a => exact ⟨[], tr, s, a, rfl, .done s a, h⟩
  | ask op next ih =>
      cases h with
      | ask hans hrest =>
          rcases ih _ hrest with ⟨tr₁, tr₂, s', a, rfl, hp, hf⟩
          exact ⟨_ :: tr₁, tr₂, s', a, rfl, .ask hans hp, hf⟩

/-- A run satisfies what is proved against a protocol that can watch it: `view` computes the ghost
state from the state and the log, and every step of a good log is a step of the protocol. -/
theorem Runs.of_view {G : Type} {π : Protocol Reply G} {p : Program Reply α} {Q : α → G → Prop}
    (view : σ → List (Asked Reply Env) → G) (Good : List (Asked Reply Env) → Prop)
    (log : List (Asked Reply Env))
    (hnext : ∀ s log x s', answer x.env s x.op = some (x.reply, s') → Good (log ++ [x]) →
      π.next (view s log) x.op x.reply (view s' (log ++ [x])))
    {s s' : σ} {tr : List (Asked Reply Env)} {a : α} (hrun : Runs answer s p tr s' a)
    (hgood : ∀ pre, pre <+: tr → Good (log ++ pre)) (h : wp π p Q (view s log)) :
    Q a (view s' (log ++ tr)) := by
  induction hrun generalizing log with
  | done s a => simpa using h
  | @ask s s₁ s₂ e op r k tr a hans _ ih =>
      -- The first operation is logged, and the rest runs on from there.
      have hhead : Good (log ++ [⟨e, op, r⟩]) := hgood [⟨e, op, r⟩] (by simp)
      have hk : wp π (k r) Q (view s₁ (log ++ [⟨e, op, r⟩])) :=
        h.2 r _ (hnext s log ⟨e, op, r⟩ s₁ hans hhead)
      have htail : ∀ pre, pre <+: tr → Good (log ++ [⟨e, op, r⟩] ++ pre) := by
        intro pre hpre
        simpa using hgood (⟨e, op, r⟩ :: pre) (by simpa using hpre)
      simpa using ih _ htail hk

theorem Runs.of_uses {P : Op → Prop} {R : α → Prop} {p : Program Reply α} {s s' : σ}
    {tr : List (Asked Reply Env)} {a : α} (hrun : Runs answer s p tr s' a) (h : Uses P R p) :
    R a := by
  induction hrun with
  | done s a => exact h
  | @ask s s₁ s₂ e op r k tr a _ _ ih => exact ih (h.2 r () trivial)

/-- The protocol whose ghost state is the real state. -/
def answering (answer : Env → σ → (op : Op) → Option (Reply op × σ)) : Protocol Reply σ where
  pre := fun _ _ => True
  next := fun s op r s' => ∃ e, answer e s op = some (r, s')

theorem Runs.of_wp {p : Program Reply α} {Q : α → σ → Prop} {s s' : σ}
    {tr : List (Asked Reply Env)} {a : α} (hrun : Runs answer s p tr s' a)
    (h : wp (answering answer) p Q s) : Q a s' := by
  refine Runs.of_view (π := answering answer) (fun s _ => s) (fun _ => True) [] ?_ hrun
    (fun _ _ => trivial) h
  exact fun s log x s' hans _ => ⟨x.env, hans⟩

/-- `answering` in the environments that `P` admits. -/
def answeringWhere (P : Env → Op → Prop) (answer : Env → σ → (op : Op) → Option (Reply op × σ)) :
    Protocol Reply σ where
  pre := fun _ _ => True
  next := fun s op r s' => ∃ e, P e op ∧ answer e s op = some (r, s')

theorem Runs.of_wpWhere {P : Env → Op → Prop} {p : Program Reply α} {Q : α → σ → Prop} {s s' : σ}
    {tr : List (Asked Reply Env)} {a : α} (hrun : Runs answer s p tr s' a)
    (hP : ∀ x ∈ tr, P x.env x.op) (h : wp (answeringWhere P answer) p Q s) : Q a s' := by
  refine Runs.of_view (π := answeringWhere P answer) (fun s _ => s)
    (fun log => ∀ x ∈ log, P x.env x.op) [] ?_ hrun ?_ h
  · exact fun s log x s' hans hgood => ⟨x.env, hgood x (by simp), hans⟩
  · exact fun pre hpre x hx => hP x (hpre.subset (by simpa using hx))

/-- The protocol whose ghost state is the real state with the run so far. -/
def recording (answer : Env → σ → (op : Op) → Option (Reply op × σ)) :
    Protocol Reply (σ × List (Asked Reply Env)) where
  pre := fun _ _ => True
  next := fun g op r g' => ∃ e, answer e g.1 op = some (r, g'.1) ∧ g'.2 = g.2 ++ [⟨e, op, r⟩]

theorem recording_step {op : Op} {s : σ} {log : List (Asked Reply Env)}
    {P : Reply op → σ × List (Asked Reply Env) → Prop}
    (h : ∀ e r s', answer e s op = some (r, s') → P r (s', log ++ [⟨e, op, r⟩])) :
    (recording answer).pre (s, log) op ∧
      ∀ r g', (recording answer).next (s, log) op r g' → P r g' := by
  refine ⟨trivial, ?_⟩
  rintro r ⟨s', log'⟩ ⟨e, hans, hlog⟩
  dsimp only at hans hlog
  subst hlog
  exact h e r s' hans

theorem Runs.of_recording {p : Program Reply α} {Q : α → σ × List (Asked Reply Env) → Prop}
    {s s' : σ} {tr : List (Asked Reply Env)} {a : α} (hrun : Runs answer s p tr s' a)
    (h : wp (recording answer) p Q (s, [])) : Q a (s', tr) := by
  refine Runs.of_view (π := recording answer) (fun s log => (s, log)) (fun _ => True) [] ?_ hrun
    (fun _ _ => trivial) h
  exact fun s log x s' hans _ => ⟨x.env, hans, rfl⟩

/-- A part of a program whose operations keep `I` adds only such operations to the run. -/
theorem wp_recording_of_uses {P : Op → Prop} {R : α → Prop} {p : Program Reply α}
    {Q : α → σ × List (Asked Reply Env) → Prop} {s : σ} {log : List (Asked Reply Env)}
    (I : σ → Prop)
    (hstep : ∀ e s op r s', P op → answer e s op = some (r, s') → I s → I s')
    (h : Uses P R p) (hI : I s)
    (hQ : ∀ a s' more, R a → I s' → (∀ x ∈ more, P x.op) → Q a (s', log ++ more)) :
    wp (recording answer) p Q (s, log) := by
  unfold Uses at h
  induction p generalizing s log with
  | done a => simpa using hQ a s [] h hI
  | ask op next ih =>
      rcases h with ⟨hop, hrest⟩
      refine recording_step fun e r s₁ hans => ?_
      refine ih r (hrest r () trivial) (hstep e s op r s₁ hop hans hI) fun a s' more ha hI' hmore => ?_
      have hmem : ∀ x ∈ ⟨e, op, r⟩ :: more, P x.op := by
        intro x hx
        rcases List.mem_cons.1 hx with rfl | hx
        · exact hop
        · exact hmore x hx
      simpa using hQ a s' (⟨e, op, r⟩ :: more) ha hI' hmem

/-- A run keeps what every step of the protocol keeps. -/
theorem Runs.keeps {G : Type} {π : Protocol Reply G} {p : Program Reply α} {Q : α → G → Prop}
    (Inv : σ → G → Prop)
    (hstep : ∀ s g e op r s', Inv s g → π.pre g op → answer e s op = some (r, s') →
      ∃ g', π.next g op r g' ∧ Inv s' g')
    {s s' : σ} {tr : List (Asked Reply Env)} {a : α} {g : G} (hrun : Runs answer s p tr s' a)
    (hinv : Inv s g) (h : wp π p Q g) : ∃ g', Inv s' g' ∧ Q a g' := by
  induction hrun generalizing g with
  | done s a => exact ⟨g, hinv, h⟩
  | @ask s s₁ s₂ e op r k tr a hans _ ih =>
      rcases hstep s g e op r s₁ hinv h.1 hans with ⟨g₁, hnext, hinv₁⟩
      exact ih hinv₁ (h.2 r g₁ hnext)

/-! ## Running in an environment that does not change -/

/-- The result when every operation gets the reply that `f` has for it. -/
def Program.eval (f : (op : Op) → Reply op) : Program Reply α → α
  | .done a => a
  | .ask op k => (k (f op)).eval f

section Eval

variable (f : (op : Op) → Reply op)

@[simp] theorem Program.eval_pure (a : α) : (pure a : Program Reply α).eval f = a := rfl

@[simp] theorem Program.eval_perform (op : Op) : (Program.perform op).eval f = f op := rfl

@[simp] theorem Program.eval_bind (p : Program Reply α) (k : α → Program Reply β) :
    (p >>= k).eval f = (k (p.eval f)).eval f := by
  change (p.bind k).eval f = _
  induction p with
  | done a => rfl
  | ask op next ih => exact ih (f op)

end Eval

theorem Runs.eval_eq {f : (op : Op) → Reply op} {p : Program Reply α} {s s' : σ}
    {tr : List (Asked Reply Env)} {a : α} (hrun : Runs answer s p tr s' a)
    (hf : ∀ x ∈ tr, x.reply = f x.op) : p.eval f = a := by
  induction hrun with
  | done s a => rfl
  | @ask s s₁ s₂ e op r k tr a _ _ ih =>
      obtain rfl : r = f op := hf _ List.mem_cons_self
      exact ih fun x hx => hf x (List.mem_cons_of_mem _ hx)

/-! ## Running in given environments -/

/-- Runs a program, one environment for every operation. -/
def Program.run (answer : Env → σ → (op : Op) → Option (Reply op × σ)) :
    Program Reply α → List Env → σ → Option (List (Asked Reply Env) × σ × α)
  | .done a, [], s => some ([], s, a)
  | .done _, _ :: _, _ => none
  | .ask _ _, [], _ => none
  | .ask op k, e :: es, s =>
      match answer e s op with
      | none => none
      | some (r, s') =>
          match (k r).run answer es s' with
          | none => none
          | some (tr, s'', a) => some (⟨e, op, r⟩ :: tr, s'', a)

theorem Runs.of_run {p : Program Reply α} {es : List Env} {s s' : σ}
    {tr : List (Asked Reply Env)} {a : α} (h : p.run answer es s = some (tr, s', a)) :
    Runs answer s p tr s' a := by
  induction p generalizing es s tr with
  | done b =>
      cases es with
      | nil =>
          cases h
          exact .done _ _
      | cons e es => cases h
  | ask op k ih =>
      cases es with
      | nil => cases h
      | cons e es =>
          simp only [Program.run] at h
          split at h
          · cases h
          · rename_i r s₁ hans
            split at h
            · cases h
            · rename_i tr₁ s₂ b hrest
              cases h
              exact .ask hans (ih r hrest)

/-- A program that comes to its end shows that a run with the property `P` exists. -/
theorem exists_runs (es : List Env) {p : Program Reply α} {s : σ}
    {P : List (Asked Reply Env) → σ → α → Prop} [∀ tr s a, Decidable (P tr s a)]
    (h : (p.run answer es s).any (fun x => decide (P x.1 x.2.1 x.2.2)) = true) :
    ∃ tr s' a, Runs answer s p tr s' a ∧ P tr s' a := by
  cases hrun : p.run answer es s with
  | none => simp [hrun] at h
  | some x =>
      refine ⟨x.1, x.2.1, x.2.2, .of_run hrun, ?_⟩
      simpa [hrun] using h

end Runs

end Effect
