import Aardbin.Pagination

/-!
# The arithmetic behind the lists of records

`PAGE_SIZE` is parsed as a `u64` and cast to an `i64`.  The web list divides by the result as it
is, the API list raises it to 1 first.
-/

namespace Aardbin

open Effect Rust

/-! ## What the three expressions must not do -/

/-- `list_records`: the offset `(page.max(1) - 1) * page_size`, and what SQLite gets. -/
structure FetchSafe (page pageSize : Int) : Prop where
  sub : I64.Fits (max page 1 - 1)
  mul : I64.Fits ((max page 1 - 1) * pageSize)
  limit : 0 ≤ pageSize
  offset : 0 ≤ I64.mul (I64.sub (max page 1) 1) pageSize

/-- `((total + page_size - 1) / page_size).max(1)`, and `clamp` with the result. -/
structure TotalPagesSafe (total pageSize : Int) : Prop where
  add : I64.Fits (total + pageSize)
  sub : I64.Fits (total + pageSize - 1)
  div : I64.div? (total + pageSize - 1) pageSize ≠ none
  clamp : ∀ totalPages, totalPages? total pageSize = some totalPages → 1 ≤ totalPages

/-- Every fetch is safe, and nothing panics. -/
def safely : Protocol Reply Store where
  pre := fun _ op =>
    match op with
    | .db (.listRecords page pageSize) => FetchSafe page pageSize
    | .panic => False
    | _ => True
  next := (answering Store.answer).next

/-- In every run of `build_list_view` on this store. -/
def WebListSafe (s : AppState) (page : Int) (w : Store) : Prop :=
  (∀ lang, wp safely (buildListView s page lang) (fun _ _ => True) w) ∧
    TotalPagesSafe w.db.records.length s.cfg.pageSize

/-- In every run of `api_list_records` on this store. -/
def ApiListSafe (s : AppState) (q : ApiListQuery) (w : Store) : Prop :=
  wp safely (apiListRecords s q) (fun _ _ => True) w ∧
    TotalPagesSafe w.db.records.length (max (q.pageSize.getD s.cfg.pageSize) 1)

/-! ## Bounds that suffice -/

section Bounds

variable {page page' pageSize total : Int}

theorem fetchSafe_iff (hsize : 1 ≤ pageSize) :
    FetchSafe page pageSize ↔ (max page 1 - 1) * pageSize < 2 ^ 63 := by
  refine ⟨fun h => h.mul.2, fun hlt => ?_⟩
  have hpos : 0 ≤ (max page 1 - 1) * pageSize := Int.mul_nonneg (by omega) (by omega)
  have hle : max page 1 - 1 ≤ (max page 1 - 1) * pageSize :=
    le_mul_of_one_le_right (by omega) hsize
  have hsub : I64.Fits (max page 1 - 1) := ⟨by omega, by omega⟩
  have hmul : I64.Fits ((max page 1 - 1) * pageSize) := ⟨by omega, hlt⟩
  refine ⟨hsub, hmul, by omega, ?_⟩
  rw [I64.sub, I64.wrap_of_fits hsub, I64.mul, I64.wrap_of_fits hmul]
  exact hpos

/-- A page before a safe one is safe. -/
theorem FetchSafe.of_le (h : FetchSafe page pageSize) (hsize : 1 ≤ pageSize)
    (hle : page' ≤ max page 1) : FetchSafe page' pageSize := by
  rw [fetchSafe_iff hsize] at h ⊢
  have hmono : (max page' 1 - 1) * pageSize ≤ (max page 1 - 1) * pageSize :=
    Int.mul_le_mul_of_nonneg_right (by omega) (by omega)
  omega

theorem one_le_of_totalPages? {totalPages : Int} (h : totalPages? total pageSize = some totalPages) :
    1 ≤ totalPages := by
  rcases Option.map_eq_some_iff.1 h with ⟨q, -, rfl⟩
  exact le_max_right _ _

theorem totalPagesSafe_iff (htotal : 0 ≤ total) (hsize : 0 ≤ pageSize) :
    TotalPagesSafe total pageSize ↔ 1 ≤ pageSize ∧ total + pageSize < 2 ^ 63 := by
  refine ⟨fun h => ⟨?_, h.add.2⟩, fun ⟨hpos, hlt⟩ => ?_⟩
  · by_contra hlt
    have hzero : pageSize = 0 := by omega
    exact h.div (by simp [I64.div?, hzero])
  · refine ⟨⟨by omega, hlt⟩, ⟨by omega, by omega⟩, ?_, fun _ => one_le_of_totalPages?⟩
    rw [I64.div?, if_neg (by omega)]
    simp

theorem clamp_le (page totalPages : Int) : clamp page 1 totalPages ≤ max page 1 := by
  unfold clamp
  split_ifs <;> omega

end Bounds

/-! ## The two endpoints -/

section Endpoints

variable {w w' : Store}

theorem wp_showRows_safely (s : AppState) (lang : Lang) (page totalPages total : Int)
    (rows : List RecordRow) (w : Store) :
    wp safely (showRows s lang page totalPages total rows) (fun _ _ => True) w := by
  simp only [showRows, wp_bind, wp_perform]
  refine ⟨trivial, fun r w' _ => ?_⟩
  cases r <;> trivial

theorem webListSafe_iff (s : AppState) (page : Int) (w : Store) :
    WebListSafe s page w ↔ 1 ≤ s.cfg.pageSize ∧ (max page 1 - 1) * s.cfg.pageSize < 2 ^ 63 ∧
      w.db.records.length + s.cfg.pageSize < 2 ^ 63 := by
  have hmax : max (max page 1) 1 = max page 1 := max_eq_left (le_max_right _ _)
  constructor
  · rintro ⟨hwp, htotal⟩
    -- The first fetch is always asked.
    have hfetch : FetchSafe (max page 1) s.cfg.pageSize := by
      have h := hwp .en
      simp only [buildListView, wp_bind, wp_perform] at h
      exact h.1
    rcases (totalPagesSafe_iff (Int.natCast_nonneg _) hfetch.limit).1 htotal with ⟨hsize, hsum⟩
    have hmul := (fetchSafe_iff hsize).1 hfetch
    rw [hmax] at hmul
    exact ⟨hsize, hmul, hsum⟩
  · rintro ⟨hsize, hmul, hsum⟩
    have htotal : TotalPagesSafe w.db.records.length s.cfg.pageSize :=
      (totalPagesSafe_iff (Int.natCast_nonneg _) (by omega)).2 ⟨hsize, hsum⟩
    have hfetch : FetchSafe page s.cfg.pageSize := (fetchSafe_iff hsize).2 hmul
    refine ⟨fun lang => ?_, htotal⟩
    simp only [buildListView, wp_bind, wp_perform]
    refine ⟨hfetch.of_le hsize (Int.le_refl _), fun r w₁ hr => ?_⟩
    rcases answering_listRecords hr with ⟨rfl, hrows⟩
    cases r with
    | error e => trivial
    | ok v =>
        rcases v with ⟨rows, total⟩
        obtain rfl : total = w₁.db.records.length := congrArg Prod.snd (hrows _ rfl)
        have hcount : totalPages? w₁.db.records.length s.cfg.pageSize =
            some (Paging.pageCount s.cfg.pageSize.toNat w₁.db.sortedRecords : Int) :=
          totalPages?_eq hsize ⟨by omega, by omega⟩
        simp only [hcount]
        split_ifs
        · -- The clamped page comes no later than the requested one.
          simp only [wp_bind, wp_perform]
          refine ⟨hfetch.of_le hsize (clamp_le page _), fun r w₂ _ => ?_⟩
          cases r with
          | error e => trivial
          | ok v => exact wp_showRows_safely s lang _ _ _ _ _
        · exact wp_showRows_safely s lang _ _ _ _ _

theorem apiListSafe_iff (s : AppState) (q : ApiListQuery) (w : Store) :
    ApiListSafe s q w ↔
      (max (q.page.getD 1) 1 - 1) * max (q.pageSize.getD s.cfg.pageSize) 1 < 2 ^ 63 ∧
        w.db.records.length + max (q.pageSize.getD s.cfg.pageSize) 1 < 2 ^ 63 := by
  have hsize : 1 ≤ max (q.pageSize.getD s.cfg.pageSize) 1 := le_max_right _ _
  have hmax : max (max (q.page.getD 1) 1) 1 = max (q.page.getD 1) 1 :=
    max_eq_left (le_max_right _ _)
  unfold ApiListSafe
  rw [totalPagesSafe_iff (Int.natCast_nonneg _) (by omega)]
  simp only [apiListRecords, wp_bind, wp_perform]
  constructor
  · rintro ⟨⟨hfetch, -⟩, -, hsum⟩
    have hmul := (fetchSafe_iff hsize).1 hfetch
    rw [hmax] at hmul
    exact ⟨hmul, hsum⟩
  · rintro ⟨hmul, hsum⟩
    refine ⟨⟨(fetchSafe_iff hsize).2 (by rwa [hmax]), fun r w₁ hr => ?_⟩, hsize, hsum⟩
    rcases answering_listRecords hr with ⟨rfl, hrows⟩
    cases r with
    | error e => trivial
    | ok v =>
        rcases v with ⟨rows, total⟩
        obtain rfl : total = w₁.db.records.length := congrArg Prod.snd (hrows _ rfl)
        have hcount : totalPages? w₁.db.records.length (max (q.pageSize.getD s.cfg.pageSize) 1) =
            some (Paging.pageCount (max (q.pageSize.getD s.cfg.pageSize) 1).toNat
              w₁.db.sortedRecords : Int) := totalPages?_eq hsize ⟨by omega, by omega⟩
        simp only [hcount, wp_bind, wp_perform]
        refine ⟨trivial, fun r w₂ _ => ?_⟩
        cases r <;> trivial

end Endpoints

/-! ## For which page sizes the lists are safe -/

/-- Whatever number the operator has configured. -/
theorem list_arithmetic_iff {env : EnvVars} {cfg : Config} {n : ℕ}
    (hcfg : (Config.fromEnv env).run = some (.ok cfg))
    (hn : parseU64Env env "PAGE_SIZE" 20 = .ok n) (v : Vendor) (w : Store) :
    (∀ page, WebListSafe { cfg, vendor := v } page w ↔
      1 ≤ n ∧ (max page 1 - 1) * n < 2 ^ 63 ∧ (w.db.records.length + n : Int) < 2 ^ 63) ∧
    ∀ q, ApiListSafe { cfg, vendor := v } q w ↔
      (max (q.page.getD 1) 1 - 1) * max (q.pageSize.getD cfg.pageSize) 1 < 2 ^ 63 ∧
        w.db.records.length + max (q.pageSize.getD cfg.pageSize) 1 < 2 ^ 63 := by
  refine ⟨fun page => ?_, fun q => apiListSafe_iff _ q w⟩
  rcases (Config.readFrom_of_fromEnv hcfg).pageSize with ⟨m, hm, hsize⟩
  obtain rfl : n = m := Except.ok.inj (hn.symm.trans hm)
  have hlt : n < 2 ^ 64 := parseU64Env_lt (by decide) hn
  rw [webListSafe_iff]
  dsimp only
  rw [hsize]
  -- Half of the `u64`s are negative as page sizes; on the others the cast changes nothing.
  constructor
  · rintro ⟨hone, hmul, hsum⟩
    have hwrap : I64.wrap n = n := I64.wrap_of_nonneg hlt (by omega)
    rw [hwrap] at hone hmul hsum
    exact ⟨by omega, hmul, hsum⟩
  · rintro ⟨hone, hmul, hsum⟩
    rw [I64.wrap_of_fits ⟨by omega, by omega⟩]
    exact ⟨by omega, hmul, hsum⟩

/-- The variables of a process that is configured with this `PAGE_SIZE`. -/
def pageSizeVars (pageSize : String) : EnvVars := fun name =>
  if name = "ACCESS_KEY" then some "open sesame, please"
  else if name = "CRYPTO_KEY" then some (String.join (List.replicate 32 "0f"))
  else if name = "PAGE_SIZE" then some pageSize
  else none

theorem list_arithmetic_iff_twenty : ∃ cfg,
    (Config.fromEnv (pageSizeVars " 20 ")).run = some (.ok cfg) ∧
      WebListSafe { cfg, vendor := .plain } 3 .empty := by
  rcases @Config.exists_fromEnv _ (·.pageSize) (pageSizeVars " 20 ") 20 (by decide +kernel) with
    ⟨cfg, hcfg, -⟩
  have hn : parseU64Env (pageSizeVars " 20 ") "PAGE_SIZE" 20 = .ok 20 := by decide +kernel
  exact ⟨cfg, hcfg, ((list_arithmetic_iff hcfg hn .plain .empty).1 3).2 (by decide)⟩

/-- `PAGE_SIZE=0` is accepted, and the first list page divides by it. -/
theorem page_size_zero_panics : ∃ cfg,
    (Config.fromEnv (pageSizeVars "0")).run = some (.ok cfg) ∧
      totalPages? Store.empty.db.records.length cfg.pageSize = none ∧
      ¬ WebListSafe { cfg, vendor := .plain } 1 .empty := by
  rcases @Config.exists_fromEnv _ (·.pageSize) (pageSizeVars "0") 0 (by decide +kernel) with
    ⟨cfg, hcfg, hzero⟩
  refine ⟨cfg, hcfg, by rw [hzero]; decide, ?_⟩
  rw [webListSafe_iff]
  dsimp only
  rw [hzero]
  decide

end Aardbin
