import Aardbin.PageArithmetic
import Aardbin.Rust.Decimal

/-!
# The lists of records and the parameters of one statement

The query for the attachments of a page binds one parameter for each row, and nothing bounds the
rows of a page but the page size and the store.  SQLite refuses a statement with too many
parameters, and the lists answer 500 then.
-/

namespace Aardbin

open Effect Rust

/-! ## Runs without a database fault -/

/-- The database has no fault of its own, and every statement for the attachments binds no more
parameters than SQLite allows. -/
def unfailing : Protocol Reply Store where
  pre := fun _ op =>
    match op with
    | .db (.attachmentsForRecords ids) => ids.length ≤ Db.maxVariables
    | _ => True
  next := (answeringWhere (fun e _ => e.fault = false) Store.answer).next

/-- In every run without a database fault the statements are small enough, and the answer is not
500. -/
def NeverFails (p : Program Reply Response) (w : Store) : Prop :=
  wp unfailing p (fun resp _ => resp.status ≠ .internalServerError) w

/-- The templates of the lists render. -/
def Renders (s : AppState) : Prop :=
  ∀ lang view, (s.vendor.renderLang lang (.list view)).isSome = true ∧
    (s.vendor.renderLang lang (.records view)).isSome = true

/-- A call that succeeds has one reply. -/
theorem unfailing_db {w : Store} {c : DbCall} {x : c.Val × Db}
    {Q : Reply (.db c) → Store → Prop} (h : w.db.exec c = .ok x) :
    (∀ r w', unfailing.next w (.db c) r w' → Q r w') ↔ Q (.ok x.1) { w with db := x.2 } := by
  constructor
  · intro hall
    exact hall _ _ ⟨{}, rfl, by simp [Store.answer, h]⟩
  · rintro hQ r w' ⟨e, hfault, hans⟩
    rcases Store.answer_db_calm hans hfault h with ⟨rfl, rfl⟩
    exact hQ

/-! ## How many rows a page has -/

/-- How many of `total` rows page `page` has: `LIMIT page_size` after the offset. -/
def fetchCount (total : ℕ) (page pageSize : Int) : ℕ :=
  let rest := total - (I64.mul (I64.sub (max page 1) 1) pageSize).toNat
  if pageSize < 0 then rest else min pageSize.toNat rest

/-- How many rows the web list shows: those of the clamped page, when the page asked for has
none. -/
def shownCount (total : ℕ) (page pageSize totalPages : Int) : ℕ :=
  if fetchCount total (max page 1) pageSize = 0 ∧ 1 < clamp page 1 totalPages then
    fetchCount total (clamp page 1 totalPages) pageSize
  else fetchCount total (max page 1) pageSize

theorem attachmentsForRecords_of_many {db : Db} {ids : List String}
    (h : Db.maxVariables < ids.length) :
    db.attachmentsForRecords ids = .error .tooManyVariables := by
  have hne : ids ≠ [] := List.ne_nil_of_length_pos (by omega)
  rw [Db.attachmentsForRecords, if_neg hne, if_pos h]

theorem length_listRecords (db : Db) (page pageSize : Int) :
    (db.listRecords page pageSize).1.length = fetchCount db.records.length page pageSize := by
  simp only [Db.listRecords, Db.limitOffset, fetchCount]
  split_ifs
  · rw [List.length_drop, db.length_sortedRecords]
  · rw [List.length_take, List.length_drop, db.length_sortedRecords]

theorem length_shownRows (db : Db) (page pageSize totalPages : Int) :
    (shownRows db page pageSize totalPages).length =
      shownCount db.records.length page pageSize totalPages := by
  have hempty : ((db.listRecords (max page 1) pageSize).1.isEmpty : Prop) ↔
      fetchCount db.records.length (max page 1) pageSize = 0 := by
    rw [List.isEmpty_iff, ← List.length_eq_zero_iff, length_listRecords]
  unfold shownRows shownCount
  simp only [hempty]
  split_ifs <;> exact length_listRecords _ _ _

/-! ## The endpoints -/

section Endpoints

variable {s : AppState} {w : Store}

theorem wp_unfailing_attachments (w : Store) (rows : List RecordRow)
    {Q : Except DbError (List AttachmentRow) → Store → Prop}
    (hQ : ∀ attachments, Q (.ok attachments) w) :
    wp unfailing (AskDb.attachmentsForRecords (rows.map (·.id))) Q w ↔
      rows.length ≤ Db.maxVariables := by
  rw [wp_perform]
  have hlen : (rows.map (·.id)).length = rows.length := List.length_map _
  constructor
  · exact fun h => hlen ▸ h.1
  · intro hfew
    rw [← hlen] at hfew
    rcases exists_attachmentsForRecords w.db hfew with ⟨attachments, hatts⟩
    have hexec : w.db.exec (.attachmentsForRecords (rows.map (·.id))) = .ok (attachments, w.db) := by
      simp [Db.exec, hatts]
    exact ⟨hfew, (unfailing_db hexec).2 (hQ attachments)⟩

theorem wp_unfailing_listRecords (w : Store) (page pageSize : Int)
    {Q : Except DbError (List RecordRow × Int) → Store → Prop} :
    wp unfailing (AskDb.listRecords page pageSize) Q w ↔
      Q (.ok (w.db.listRecords page pageSize)) w := by
  rw [wp_perform]
  have hexec : w.db.exec (.listRecords page pageSize) = .ok (w.db.listRecords page pageSize, w.db) :=
    rfl
  exact (and_iff_right trivial).trans (unfailing_db hexec)

theorem wp_unfailing_showRows (w : Store) (lang : Lang) (page totalPages total : Int)
    (rows : List RecordRow) {Q : Except DbError ListView → Store → Prop}
    (hQ : ∀ view, Q (.ok view) w) :
    wp unfailing (showRows s lang page totalPages total rows) Q w ↔
      rows.length ≤ Db.maxVariables := by
  rw [showRows, wp_bind]
  exact wp_unfailing_attachments w rows fun attachments => hQ _

theorem wp_unfailing_buildListView (w : Store) (page : Int) (lang : Lang)
    {Q : Except DbError ListView → Store → Prop} (hQ : ∀ view, Q (.ok view) w) :
    wp unfailing (buildListView s page lang) Q w ↔
      ∀ totalPages, totalPages? w.db.records.length s.cfg.pageSize = some totalPages →
        shownCount w.db.records.length page s.cfg.pageSize totalPages ≤ Db.maxVariables := by
  rw [buildListView]
  simp only [wp_bind, wp_unfailing_listRecords]
  have htotal : (w.db.listRecords (max page 1) s.cfg.pageSize).2 = w.db.records.length := rfl
  generalize hfirst : w.db.listRecords (max page 1) s.cfg.pageSize = v at htotal
  rcases v with ⟨rows, total⟩
  obtain rfl : total = w.db.records.length := htotal
  dsimp only
  cases totalPages? w.db.records.length s.cfg.pageSize with
  | none =>
      -- A panic ends the request without an answer.
      simp only [reduceCtorEq, false_imp_iff, implies_true, iff_true]
      exact ⟨trivial, fun r => r.elim⟩
  | some totalPages =>
      simp only [Option.some.injEq, forall_eq', ← length_shownRows, shownRows, hfirst]
      split_ifs with hempty
      · simp only [wp_bind, wp_unfailing_listRecords]
        exact wp_unfailing_showRows w lang _ _ _ _ hQ
      · exact wp_unfailing_showRows w lang _ _ _ _ hQ

/-- The web list fails when the page that it shows has more rows than a statement has
parameters. -/
theorem neverFails_web_iff (hrender : Renders s) (headers : HeaderMap) (q : PageQuery)
    (w : Store) : NeverFails (recordsPartial s headers q) w ↔
      ∀ totalPages, totalPages? w.db.records.length s.cfg.pageSize = some totalPages →
        shownCount w.db.records.length (q.page.getD 1) s.cfg.pageSize totalPages ≤
          Db.maxVariables := by
  unfold NeverFails recordsPartial
  rw [wp_bind]
  refine wp_unfailing_buildListView w _ _ fun view => ?_
  rcases Option.isSome_iff_exists.1 (hrender (detectLang headers) view).2 with ⟨html, hhtml⟩
  simp [rendered, hhtml]

theorem neverFails_index_iff (hrender : Renders s) (headers : HeaderMap) (w : Store) :
    NeverFails (index s headers) w ↔
      ∀ totalPages, totalPages? w.db.records.length s.cfg.pageSize = some totalPages →
        shownCount w.db.records.length 1 s.cfg.pageSize totalPages ≤ Db.maxVariables := by
  unfold NeverFails index
  rw [wp_bind]
  refine wp_unfailing_buildListView w _ _ fun view => ?_
  rcases Option.isSome_iff_exists.1 (hrender (detectLang headers) view).1 with ⟨html, hhtml⟩
  simp [rendered, hhtml]

theorem exists_totalPages (total : Int) {pageSize : Int} (hsize : 1 ≤ pageSize) :
    ∃ totalPages, totalPages? total pageSize = some totalPages := by
  rw [totalPages?, I64.div?, if_neg (by omega)]
  exact ⟨_, rfl⟩

theorem neverFails_api_iff (s : AppState) (q : ApiListQuery) (w : Store) :
    NeverFails (apiListRecords s q) w ↔
      fetchCount w.db.records.length (max (q.page.getD 1) 1)
        (max (q.pageSize.getD s.cfg.pageSize) 1) ≤ Db.maxVariables := by
  unfold NeverFails apiListRecords
  simp only [wp_bind, wp_unfailing_listRecords]
  have hsize : 1 ≤ max (q.pageSize.getD s.cfg.pageSize) 1 := le_max_right _ _
  rw [← length_listRecords]
  rcases w.db.listRecords (max (q.page.getD 1) 1) (max (q.pageSize.getD s.cfg.pageSize) 1) with
    ⟨rows, total⟩
  rcases exists_totalPages total hsize with ⟨totalPages, htotal⟩
  simp only [htotal, wp_bind]
  exact wp_unfailing_attachments w rows fun attachments => by simp

/-- A page with too many rows is answered 500, without a database fault. -/
theorem apiListRecords_fails (s : AppState) (q : ApiListQuery) (w : Store)
    (hmany : Db.maxVariables < fetchCount w.db.records.length (max (q.page.getD 1) 1)
      (max (q.pageSize.getD s.cfg.pageSize) 1)) :
    ∃ log resp, Runs Store.answer w (apiListRecords s q) log w resp ∧
      (∀ x ∈ log, x.env.fault = false) ∧ resp.status = .internalServerError := by
  have hsize : 1 ≤ max (q.pageSize.getD s.cfg.pageSize) 1 := le_max_right _ _
  unfold apiListRecords
  dsimp only
  generalize max (q.page.getD 1) 1 = page at hmany
  generalize max (q.pageSize.getD s.cfg.pageSize) 1 = pageSize at hmany hsize
  have hfirst : Store.answer {} w (.db (.listRecords page pageSize)) =
      some (.ok (w.db.listRecords page pageSize), w) := rfl
  rw [← length_listRecords] at hmany
  generalize w.db.listRecords page pageSize = v at hmany hfirst
  rcases v with ⟨rows, total⟩
  -- The second statement cannot be prepared.
  have hrefused : w.db.attachmentsForRecords (rows.map (·.id)) = .error .tooManyVariables :=
    attachmentsForRecords_of_many (by rwa [List.length_map])
  have hsecond : Store.answer {} w (.db (.attachmentsForRecords (rows.map (·.id)))) =
      some (.error .tooManyVariables, w) := by
    simp [Store.answer, Db.exec, hrefused]
  rcases exists_totalPages total hsize with ⟨totalPages, htotal⟩
  refine ⟨[⟨{}, .db (.listRecords page pageSize), .ok (rows, total)⟩] ++
    ([⟨{}, .db (.attachmentsForRecords (rows.map (·.id))), .error .tooManyVariables⟩] ++ []),
    jsonError .internalServerError "internal error", (Runs.perform hfirst).bind ?_, by simp, rfl⟩
  simp only [htotal]
  exact (Runs.perform hsecond).bind (.done _ _)

end Endpoints

/-- The lists stay within the parameters of one statement, and so never answer 500 for it, exactly
when the rows of the page do. -/
theorem list_endpoints_never_fail_iff {s : AppState} (hrender : Renders s) (w : Store) :
    (∀ q, NeverFails (apiListRecords s q) w ↔
      fetchCount w.db.records.length (max (q.page.getD 1) 1)
        (max (q.pageSize.getD s.cfg.pageSize) 1) ≤ Db.maxVariables) ∧
    (∀ headers q, NeverFails (recordsPartial s headers q) w ↔
      ∀ totalPages, totalPages? w.db.records.length s.cfg.pageSize = some totalPages →
        shownCount w.db.records.length (q.page.getD 1) s.cfg.pageSize totalPages ≤
          Db.maxVariables) ∧
    ∀ headers, NeverFails (index s headers) w ↔
      ∀ totalPages, totalPages? w.db.records.length s.cfg.pageSize = some totalPages →
        shownCount w.db.records.length 1 s.cfg.pageSize totalPages ≤ Db.maxVariables :=
  ⟨fun q => neverFails_api_iff s q w, fun headers q => neverFails_web_iff hrender headers q w,
    fun headers => neverFails_index_iff hrender headers w⟩

theorem plain_renders : Renders .plain :=
  fun _ _ => ⟨rfl, rfl⟩

/-- Three records are few. -/
theorem list_endpoints_never_fail_three :
    NeverFails (apiListRecords .plain { page := none, pageSize := some 40000 }) threeRecords ∧
      NeverFails (index .plain noHeaders) threeRecords := by
  rcases list_endpoints_never_fail_iff plain_renders threeRecords with ⟨hapi, -, hindex⟩
  refine ⟨(hapi _).2 (by decide), (hindex _).2 ?_⟩
  rintro totalPages htotal
  cases htotal
  decide

/-- A store with `n` records. -/
def manyRecords (n : ℕ) : Store :=
  { Store.empty with
    db :=
      { Db.empty with
        records := (List.range n).map fun i =>
          { id := toString i, blob := [], createdAt := 0, updatedAt := 0 }
        recordsKey := by
          rw [List.map_map]
          exact List.nodup_range.map fun _ _ h => repr_injective h
        foreignKey := by simp } }

/-- A page of 32767 records is asked for, and the answer is 500. -/
theorem api_list_too_many_parameters :
    (¬ ∀ (s : AppState) (q : ApiListQuery) (w : Store), Renders s →
      NeverFails (apiListRecords s q) w) ∧
    ∃ log resp, Runs Store.answer (manyRecords 32767)
      (apiListRecords .plain { page := some 1, pageSize := some 40000 }) log (manyRecords 32767)
        resp ∧ (∀ x ∈ log, x.env.fault = false) ∧ resp.status = .internalServerError := by
  have hlen : (manyRecords 32767).db.records.length = 32767 := by
    simp [manyRecords]
  refine ⟨fun hall => ?_, apiListRecords_fails .plain _ _ ?_⟩
  · have hfew := (neverFails_api_iff .plain { page := some 1, pageSize := some 40000 }
      (manyRecords 32767)).1 (hall _ _ _ plain_renders)
    rw [hlen] at hfew
    exact absurd hfew (by decide)
  · rw [hlen]
    decide

end Aardbin
