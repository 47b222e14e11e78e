import Aardbin.Pagination

/-!
# The pages partition the store

Fetched one after the other, the pages from 1 to the reported number of pages are all records, each
once, the latest first.
-/

namespace Aardbin

open Rust

/-! ## The order of the rows -/

/-- Strictly before in `ORDER BY updated_at DESC, id DESC`. -/
def StrictlyBefore (a b : RecordRow) : Prop :=
  b.updatedAt < a.updatedAt ∨ (b.updatedAt = a.updatedAt ∧ b.id < a.id)

instance : DecidableRel StrictlyBefore := fun a b =>
  inferInstanceAs (Decidable (b.updatedAt < a.updatedAt ∨ _))

/-- No two rows share their id, so that ties on the time are broken. -/
theorem sortedRecords_strict (db : Db) : db.sortedRecords.Pairwise StrictlyBefore := by
  have hids : db.sortedRecords.Pairwise fun a b => a.id ≠ b.id :=
    List.pairwise_map.1 db.sortedRecords_nodup
  refine (db.sortedRecords_pairwise.and hids).imp ?_
  rintro a b ⟨hlt | ⟨heq, hle⟩, hne⟩
  · exact .inl hlt
  · exact .inr ⟨heq, lt_of_le_of_ne hle (Ne.symm hne)⟩

/-! ## The pages -/

/-- The rows of page `p`. -/
def fetched (db : Db) (pageSize : Int) (p : ℕ) : List RecordRow :=
  (db.listRecords p pageSize).1

/-- The pages from 1 to `totalPages`, one after the other. -/
def fetchedAll (db : Db) (pageSize : Int) (totalPages : ℕ) : List RecordRow :=
  (List.range totalPages).flatMap fun i => fetched db pageSize (i + 1)

structure Partitioned (db : Db) (pageSize : Int) (totalPages : ℕ) : Prop where
  every : (fetchedAll db pageSize totalPages).Perm db.records
  order : (fetchedAll db pageSize totalPages).Pairwise StrictlyBefore
  full : ∀ p, 1 ≤ p → p < totalPages → ((fetched db pageSize p).length : Int) = pageSize
  last : fetched db pageSize totalPages = [] → db.records = []
  beyond : ∀ p : ℕ, totalPages < p → I64.Fits ((p - 1) * pageSize) → fetched db pageSize p = []

theorem fetched_eq {db : Db} {pageSize : Int} {p : ℕ} (hsize : 1 ≤ pageSize) (hp : 1 ≤ p)
    (hoffset : I64.Fits ((p - 1) * pageSize)) :
    fetched db pageSize p = Paging.page pageSize.toNat p db.sortedRecords :=
  listRecords_fst db hsize (by omega) hoffset

/-- The pages up to the last one begin inside the store, so that their offsets do not overflow. -/
theorem offset_fits {db : Db} {pageSize : Int} {p : ℕ} (hsize : 1 ≤ pageSize)
    (hfits : I64.Fits (db.records.length + pageSize - 1)) (hp : 1 ≤ p)
    (hle : p ≤ Paging.pageCount pageSize.toNat db.sortedRecords) :
    I64.Fits ((p - 1) * pageSize) := by
  have hinside : (p - 1) * pageSize.toNat ≤ db.records.length := by
    -- `pageCount` is at least one, so it says nothing of the first page.
    rcases Nat.lt_or_ge (p - 1) 1 with hfirst | hlater
    · simp [Nat.lt_one_iff.1 hfirst]
    · have hmore : ¬ Paging.pageCount pageSize.toNat db.sortedRecords ≤ p - 1 := by omega
      rw [Paging.pageCount_le_iff (by omega) hlater, db.length_sortedRecords] at hmore
      exact (Nat.lt_of_not_le hmore).le
  have hcast : ((p - 1) * pageSize.toNat : ℕ) = ((p : Int) - 1) * pageSize := by
    rw [Nat.cast_mul, Nat.cast_sub hp, Nat.cast_one, Int.toNat_of_nonneg (by omega)]
  rw [← hcast]
  have hlt := hfits.2
  exact ⟨by omega, by omega⟩

/-- With the number of pages that both lists compute, the pages partition the store. -/
theorem pages_partition (db : Db) {pageSize : Int} (hsize : 1 ≤ pageSize)
    (hfits : I64.Fits (db.records.length + pageSize - 1)) :
    ∃ totalPages : ℕ, totalPages? db.records.length pageSize = some totalPages ∧
      Partitioned db pageSize totalPages := by
  have hpos := Paging.one_le_pageCount pageSize.toNat db.sortedRecords
  have hsize₀ : 0 < pageSize.toNat := by omega
  refine ⟨Paging.pageCount pageSize.toNat db.sortedRecords, totalPages?_eq hsize hfits, ?_⟩
  have hpage : ∀ p, 1 ≤ p → p ≤ Paging.pageCount pageSize.toNat db.sortedRecords →
      fetched db pageSize p = Paging.page pageSize.toNat p db.sortedRecords :=
    fun p hp hle => fetched_eq hsize hp (offset_fits hsize hfits hp hle)
  have hall : fetchedAll db pageSize (Paging.pageCount pageSize.toNat db.sortedRecords) =
      db.sortedRecords :=
    calc
      fetchedAll db pageSize (Paging.pageCount pageSize.toNat db.sortedRecords)
          = (List.range (Paging.pageCount pageSize.toNat db.sortedRecords)).flatMap fun i =>
              Paging.page pageSize.toNat (i + 1) db.sortedRecords :=
            List.flatMap_congr fun i hi => hpage (i + 1) (by omega) (List.mem_range.1 hi)
      _ = db.sortedRecords := Paging.flatMap_pages hsize₀ db.sortedRecords
  refine ⟨?_, ?_, fun p hp hlt => ?_, fun hnil => ?_, fun p hlt hoffset => ?_⟩
  · rw [hall]
    exact db.sortedRecords_perm
  · rw [hall]
    exact sortedRecords_strict db
  · rw [hpage p hp hlt.le, Paging.length_page_of_lt hsize₀ hp hlt]
    omega
  · -- There is a first page even when there are no records.
    rw [hpage _ hpos (Nat.le_refl _)] at hnil
    by_contra hne
    exact Paging.page_ne_nil hsize₀ (mt sortedRecords_eq_nil.1 hne) (Nat.le_refl _) hnil
  · rw [fetched_eq hsize (by omega) hoffset]
    exact Paging.page_of_pageCount_lt hsize₀ hlt

/-- Three records on two pages of two. -/
theorem pages_partition_three : ∃ totalPages : ℕ,
    totalPages? threeRecords.db.records.length 2 = some totalPages ∧
      Partitioned threeRecords.db 2 totalPages :=
  pages_partition threeRecords.db (by decide) (by decide)

end Aardbin
