import Mathlib.Algebra.Order.Floor.Div

/-!
# Pages of a list

A list is cut into pages of a fixed size; pages are counted from 1, and an empty list has one
page.
-/

namespace Paging

variable {α : Type}

def page (size p : ℕ) (rows : List α) : List α :=
  (rows.drop ((p - 1) * size)).take size

def pageCount (size : ℕ) (rows : List α) : ℕ :=
  max 1 (rows.length ⌈/⌉ size)

theorem one_le_pageCount (size : ℕ) (rows : List α) : 1 ≤ pageCount size rows :=
  le_max_left _ _

/-- The row after the last one of page `p` exists exactly when there is a page `p + 1`. -/
theorem pageCount_le_iff {size p : ℕ} {rows : List α} (hsize : 0 < size) (hp : 1 ≤ p) :
    pageCount size rows ≤ p ↔ rows.length ≤ p * size := by
  rw [pageCount, max_le_iff, ceilDiv_le_iff_le_mul hsize, mul_comm]
  exact and_iff_right hp

theorem page_eq_nil_iff {size p : ℕ} {rows : List α} (hsize : 0 < size) :
    page size p rows = [] ↔ rows.length ≤ (p - 1) * size := by
  rw [page, List.take_eq_nil_iff, List.drop_eq_nil_iff]
  exact or_iff_right hsize.ne'

/-- Past the end there is nothing. -/
theorem page_of_pageCount_lt {size p : ℕ} {rows : List α} (hsize : 0 < size)
    (h : pageCount size rows < p) : page size p rows = [] := by
  have hpos := one_le_pageCount size rows
  rw [page_eq_nil_iff hsize]
  exact (pageCount_le_iff hsize (by omega)).1 (by omega)

/-- Up to the end no page is empty, except the one page of an empty list. -/
theorem page_ne_nil {size p : ℕ} {rows : List α} (hsize : 0 < size) (hrows : rows ≠ [])
    (h : p ≤ pageCount size rows) : page size p rows ≠ [] := by
  rw [Ne, page_eq_nil_iff hsize]
  intro hle
  have hlen : 0 < rows.length := List.length_pos_of_ne_nil hrows
  rcases Nat.lt_or_ge (p - 1) 1 with hp | hp
  · have hzero : p - 1 = 0 := by omega
    rw [hzero, Nat.zero_mul] at hle
    omega
  · have hcount := (pageCount_le_iff hsize hp).2 hle
    omega

theorem pageCount_eq_one_iff {size : ℕ} {rows : List α} (hsize : 0 < size) :
    pageCount size rows = 1 ↔ rows.length ≤ size := by
  have hpos := one_le_pageCount size rows
  have hle : pageCount size rows ≤ 1 ↔ rows.length ≤ 1 * size :=
    pageCount_le_iff hsize (Nat.le_refl 1)
  rw [Nat.one_mul] at hle
  rw [← hle]
  omega

/-- The first `n` pages are the first `n * size` rows. -/
theorem flatMap_page (size n : ℕ) (rows : List α) :
    (List.range n).flatMap (fun i => page size (i + 1) rows) = rows.take (n * size) := by
  induction n with
  | zero => simp
  | succ n ih =>
      rw [List.range_succ, List.flatMap_append, ih, Nat.succ_mul, List.take_add]
      simp [page]

/-- All pages together are the list. -/
theorem flatMap_pages {size : ℕ} (hsize : 0 < size) (rows : List α) :
    (List.range (pageCount size rows)).flatMap (fun i => page size (i + 1) rows) = rows := by
  rw [flatMap_page]
  refine List.take_of_length_le ?_
  exact (pageCount_le_iff hsize (one_le_pageCount size rows)).1 (Nat.le_refl _)

/-- Every page but the last is full. -/
theorem length_page_of_lt {size p : ℕ} {rows : List α} (hsize : 0 < size) (hp : 1 ≤ p)
    (h : p < pageCount size rows) : (page size p rows).length = size := by
  have hmore : p * size < rows.length := by
    rwa [← Nat.not_le, ← pageCount_le_iff hsize hp, Nat.not_le]
  have hmul : p * size = (p - 1) * size + size := by
    rw [← Nat.succ_mul]
    congr 1
    omega
  rw [page, List.length_take, List.length_drop]
  omega

end Paging
