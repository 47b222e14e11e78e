import Mathlib.Algebra.Group.Int.Defs
import Mathlib.Algebra.Group.Nat.Defs
import Mathlib.Tactic.Common

/-!
# `i64` arithmetic

A value of type `i64` is an `Int`; the operations below wrap around at 64 bits, as the release
profile compiles them.
-/

namespace Aardbin
namespace Rust
namespace I64

def Fits (x : Int) : Prop :=
  -2 ^ 63 ≤ x ∧ x < 2 ^ 63

instance (x : Int) : Decidable (Fits x) :=
  inferInstanceAs (Decidable (_ ∧ _))

def wrap (x : Int) : Int :=
  x.bmod (2 ^ 64)

def add (a b : Int) : Int := wrap (a + b)
def sub (a b : Int) : Int := wrap (a - b)
def mul (a b : Int) : Int := wrap (a * b)

/-- `a / b`, rounded towards zero; `none` where Rust panics. -/
def div? (a b : Int) : Option Int :=
  if b = 0 ∨ (a = -2 ^ 63 ∧ b = -1) then none else some (a.tdiv b)

theorem wrap_of_fits {x : Int} (h : Fits x) : wrap x = x := by
  rcases h with ⟨hlo, hhi⟩
  exact Int.bmod_eq_of_le (by omega) (by omega)

/-- A `u64` that is not negative as an `i64` is the same number. -/
theorem wrap_of_nonneg {n : Nat} (hn : n < 2 ^ 64) (h : 0 ≤ wrap n) : wrap n = n := by
  unfold wrap at *
  rw [Int.bmod_def] at *
  split_ifs at * <;> omega

end I64
end Rust
end Aardbin
