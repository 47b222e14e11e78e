import Mathlib.Algebra.BigOperators.Intervals
import Mathlib.Algebra.Order.BigOperators.Group.Finset
import Aardbin.Effect.Pool

/-!
# Ghost states of the requests in flight

`Each` says something about every ghost state of a pool, `Exclusive` says that no two of them own
the same key, and `Within` bounds a quantity that they share.  All are kept by a step of one
request when that request's new ghost state fits.
-/

namespace Effect

variable {G K : Type}

/-! ## A property of every ghost state -/

def Each (P : ℕ → G → Prop) (gs : ℕ → Option G) : Prop :=
  ∀ i g, gs i = some g → P i g

namespace Each

variable {P P' : ℕ → G → Prop} {gs : ℕ → Option G} {i : ℕ}

theorem idle : Each P fun _ => none := by
  intro j g h
  cases h

/-- Request `i` takes a step to `g'`, seen by the others as a change from `P` to `P'`. -/
theorem set {g' : G} (h : Each P gs) (hself : P' i g')
    (hother : ∀ j g, j ≠ i → gs j = some g → P j g → P' j g) :
    Each P' (Function.update gs i (some g')) := by
  intro j g hj
  by_cases hji : j = i
  · subst hji
    simp only [Function.update_self, Option.some.injEq] at hj
    exact hj ▸ hself
  · rw [Function.update_of_ne hji] at hj
    exact hother j g hji hj (h j g hj)

/-- Request `i` ends. -/
theorem drop (h : Each P gs) (hother : ∀ j g, j ≠ i → gs j = some g → P j g → P' j g) :
    Each P' (Function.update gs i none) := by
  intro j g hj
  by_cases hji : j = i
  · subst hji
    simp at hj
  · rw [Function.update_of_ne hji] at hj
    exact hother j g hji hj (h j g hj)

end Each

/-! ## Exclusive ownership -/

def Exclusive (own : G → List K) (gs : ℕ → Option G) : Prop :=
  ∀ i j g g', i ≠ j → gs i = some g → gs j = some g' → (own g).Disjoint (own g')

namespace Exclusive

variable {own : G → List K} {gs : ℕ → Option G} {i : ℕ}

theorem idle : Exclusive own fun _ => none := by
  intro i j g g' _ h
  cases h

theorem set {g' : G} (h : Exclusive own gs)
    (hnew : ∀ j g, j ≠ i → gs j = some g → (own g').Disjoint (own g)) :
    Exclusive own (Function.update gs i (some g')) := by
  intro j k g₁ g₂ hjk h₁ h₂
  -- At most one of the two is the request that has taken the step.
  by_cases hj : j = i
  · subst hj
    rw [Function.update_of_ne (Ne.symm hjk)] at h₂
    simp only [Function.update_self, Option.some.injEq] at h₁
    exact h₁ ▸ hnew k g₂ (Ne.symm hjk) h₂
  · rw [Function.update_of_ne hj] at h₁
    by_cases hk : k = i
    · subst hk
      simp only [Function.update_self, Option.some.injEq] at h₂
      exact h₂ ▸ List.disjoint_symm (hnew j g₁ hj h₁)
    · rw [Function.update_of_ne hk] at h₂
      exact h j k g₁ g₂ hjk h₁ h₂

theorem drop (h : Exclusive own gs) : Exclusive own (Function.update gs i none) := by
  intro j k g₁ g₂ hjk h₁ h₂
  have hj : j ≠ i := by
    rintro rfl
    simp at h₁
  have hk : k ≠ i := by
    rintro rfl
    simp at h₂
  rw [Function.update_of_ne hj] at h₁
  rw [Function.update_of_ne hk] at h₂
  exact h j k g₁ g₂ hjk h₁ h₂

end Exclusive

/-! ## A quantity shared by the requests -/

def share (w : G → ℕ) (gs : ℕ → Option G) (i : ℕ) : ℕ :=
  match gs i with
  | none => 0
  | some g => w g

/-- The requests in flight hold at most `n` together. -/
def Within (w : G → ℕ) (gs : ℕ → Option G) (n : ℕ) : Prop :=
  ∀ s : Finset ℕ, ∑ i ∈ s, share w gs i ≤ n

theorem share_update (w : G → ℕ) (gs : ℕ → Option G) (i j : ℕ) (g : Option G) :
    share w (Function.update gs i g) j = if j = i then share w (fun _ => g) i else share w gs j := by
  by_cases hj : j = i
  · subst hj
    simp [share]
  · simp [share, hj]

namespace Within

variable {w w' : G → ℕ} {gs gs' : ℕ → Option G} {i n k : ℕ}

theorem idle : Within w (fun _ => none) n := by
  intro s
  simp [share]

theorem mono (h : Within w gs n) (hle : ∀ j, share w' gs' j ≤ share w gs j) (hn : n ≤ k) :
    Within w' gs' k := by
  intro s
  calc ∑ j ∈ s, share w' gs' j ≤ ∑ j ∈ s, share w gs j := Finset.sum_le_sum fun j _ => hle j
    _ ≤ n := h s
    _ ≤ k := hn

theorem drop (h : Within w gs n) : Within w (Function.update gs i none) n := by
  refine h.mono (fun j => ?_) (Nat.le_refl n)
  rw [share_update]
  split_ifs
  · exact Nat.zero_le _
  · exact Nat.le_refl _

/-- Request `i` takes a step and holds no more than before. -/
theorem keep {g g' : G} (h : Within w gs n) (hi : gs i = some g) (hle : w g' ≤ w g) :
    Within w (Function.update gs i (some g')) n := by
  refine h.mono (fun j => ?_) (Nat.le_refl n)
  rw [share_update]
  split_ifs with hj
  · subst hj
    simpa [share, hi] using hle
  · exact Nat.le_refl _

/-- A new request holds nothing. -/
theorem start {g' : G} (h : Within w gs n) (hzero : w g' = 0) :
    Within w (Function.update gs i (some g')) n := by
  refine h.mono (fun j => ?_) (Nat.le_refl n)
  rw [share_update]
  split_ifs with hj
  · simp [share, hzero]
  · exact Nat.le_refl _

/-- Request `i` gives up `k`, which is then not held by anybody. -/
theorem give {g g' : G} (h : Within w gs (n + k)) (hi : gs i = some g) (hle : w g' + k ≤ w g) :
    Within w (Function.update gs i (some g')) n := by
  intro s
  -- The set with `i` added bounds `s`, and there the share of `i` can be split off.
  have hrest : ∑ j ∈ s.erase i, share w (Function.update gs i (some g')) j =
      ∑ j ∈ s.erase i, share w gs j := by
    refine Finset.sum_congr rfl fun j hj => ?_
    rw [share_update, if_neg (Finset.ne_of_mem_erase hj)]
  have hsum : ∑ j ∈ insert i (s.erase i), share w (Function.update gs i (some g')) j + k ≤
      ∑ j ∈ insert i (s.erase i), share w gs j := by
    rw [Finset.sum_insert (by simp), Finset.sum_insert (by simp), hrest]
    have hself : share w (Function.update gs i (some g')) i + k ≤ share w gs i := by
      simpa [share, hi] using hle
    omega
  have hsub : ∑ j ∈ s, share w (Function.update gs i (some g')) j ≤
      ∑ j ∈ insert i (s.erase i), share w (Function.update gs i (some g')) j :=
    Finset.sum_le_sum_of_subset (by intro j hj; by_cases hji : j = i <;> simp [hji, hj])
  have hbound := h (insert i (s.erase i))
  omega

/-- Request `i` holds at most `k` more than before. -/
theorem take {g g' : G} (h : Within w gs n) (hi : gs i = some g) (hle : w g' ≤ w g + k) :
    Within w (Function.update gs i (some g')) (n + k) := by
  intro s
  have hstep : ∀ j ∈ s, share w (Function.update gs i (some g')) j ≤
      share w gs j + if j = i then k else 0 := by
    intro j _
    rw [share_update]
    split_ifs with hj
    · subst hj
      simpa [share, hi] using hle
    · exact Nat.le_refl _
  calc ∑ j ∈ s, share w (Function.update gs i (some g')) j
      ≤ ∑ j ∈ s, (share w gs j + if j = i then k else 0) := Finset.sum_le_sum hstep
    _ = ∑ j ∈ s, share w gs j + ∑ j ∈ s, if j = i then k else 0 := Finset.sum_add_distrib
    _ ≤ n + k := by
        refine Nat.add_le_add (h s) ?_
        rw [Finset.sum_ite_eq']
        split_ifs <;> omega

/-- It is enough to add up the requests started so far. -/
theorem of_range {m : ℕ} (hfresh : ∀ j, m ≤ j → gs j = none)
    (h : ∑ j ∈ Finset.range m, share w gs j ≤ n) : Within w gs n := by
  intro s
  refine le_trans (Finset.sum_le_sum_of_ne_zero ?_) h
  intro j _ hj
  -- A request with a share is in flight, so it was started.
  rw [Finset.mem_range]
  by_contra hlt
  exact hj (by simp [share, hfresh j (by omega)])

end Within

end Effect
