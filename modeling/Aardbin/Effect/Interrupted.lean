import Aardbin.Effect.Program

/-!
# Programs that are cut off

A program that runs alone on a state that lasts may be stopped between any two of its operations.
`Program.cut` is the state that is left then; what every operation keeps is still there.
-/

namespace Effect

variable {Op : Type} {Reply : Op → Type} {α β σ : Type}

namespace Program

/-- The result of a program that nobody disturbs, and the state that it leaves. -/
def exec (step : σ → (op : Op) → Reply op × σ) : Program Reply α → σ → α × σ
  | .done a, s => (a, s)
  | .ask op k, s => (k (step s op).1).exec step (step s op).2

/-- The state after at most `n` operations and, if the program has come to its end by then, its
result and the number of operations that were left. -/
def cut (step : σ → (op : Op) → Reply op × σ) : Nat → Program Reply α → σ → σ × Option (α × Nat)
  | n, .done a, s => (s, some (a, n))
  | 0, .ask _ _, s => (s, none)
  | n + 1, .ask op k, s => (k (step s op).1).cut step n (step s op).2

variable {step : σ → (op : Op) → Reply op × σ}

@[simp] theorem cut_pure (n : Nat) (a : α) (s : σ) :
    (pure a : Program Reply α).cut step n s = (s, some (a, n)) := by
  cases n <;> rfl

@[simp] theorem cut_perform_succ (n : Nat) (op : Op) (s : σ) :
    (perform op : Program Reply (Reply op)).cut step (n + 1) s =
      ((step s op).2, some ((step s op).1, n)) := by
  cases n <;> rfl

/-- The second part of a program starts with the operations that the first one has left. -/
theorem cut_bind (n : Nat) (p : Program Reply α) (f : α → Program Reply β) (s : σ) :
    (p >>= f).cut step n s =
      match p.cut step n s with
      | (s', none) => (s', none)
      | (s', some (a, m)) => (f a).cut step m s' := by
  change (p.bind f).cut step n s = _
  induction p generalizing n s with
  | done a => cases n <;> rfl
  | ask op next ih =>
      cases n with
      | zero => rfl
      | succ n => exact ih (step s op).1 n (step s op).2

theorem cut_bind_of_none {n : Nat} {p : Program Reply α} (f : α → Program Reply β) {s s' : σ}
    (h : p.cut step n s = (s', none)) : (p >>= f).cut step n s = (s', none) := by
  rw [cut_bind, h]

theorem cut_bind_of_some {n m : Nat} {p : Program Reply α} (f : α → Program Reply β) {s s' : σ}
    {a : α} (h : p.cut step n s = (s', some (a, m))) :
    (p >>= f).cut step n s = (f a).cut step m s' := by
  rw [cut_bind, h]

/-- A program that has come to its end has not been disturbed. -/
theorem exec_of_cut {n m : Nat} {p : Program Reply α} {s s' : σ} {a : α}
    (h : p.cut step n s = (s', some (a, m))) : p.exec step s = (a, s') := by
  induction p generalizing n s with
  | done b =>
      cases n <;> cases h <;> rfl
  | ask op next ih =>
      cases n with
      | zero => cases h
      | succ n => exact ih (step s op).1 h

/-- What every operation keeps is there wherever the program is stopped. -/
theorem cut_keeps {I : σ → Prop} (hstep : ∀ s op, I s → I (step s op).2) (n : Nat)
    (p : Program Reply α) {s : σ} (h : I s) : I (p.cut step n s).1 := by
  induction p generalizing n s with
  | done a => cases n <;> exact h
  | ask op next ih =>
      cases n with
      | zero => exact h
      | succ n => exact ih _ n (hstep s op h)

end Program

end Effect
