import Mathlib.Algebra.Order.Ring.Int
import Mathlib.Data.Nat.Cast.Order.Ring
import Aardbin.Listing
import Aardbin.Paging
import Aardbin.PlainVendor

/-!
# What the lists of records show

The rows of the store in their order are cut into pages.  The web list and the API list both
report a page number, but the rows were fetched before the number was clamped: the web list
fetches again, except when the clamped page is the first; the API list never does.
-/

namespace Aardbin

open Effect Rust

/-! ## The order of the records -/

namespace Db

instance : Std.Total RowBefore where
  total := by
    intro a b
    unfold RowBefore
    rcases lt_trichotomy a.updatedAt b.updatedAt with h | h | h
    · exact .inr (.inl h)
    · rcases le_total a.id b.id with hid | hid
      · exact .inr (.inr ⟨h, hid⟩)
      · exact .inl (.inr ⟨h.symm, hid⟩)
    · exact .inl (.inl h)

instance : IsTrans RecordRow RowBefore where
  trans := by
    intro a b c hab hbc
    rcases hab with hab | ⟨hab, hid⟩
    · rcases hbc with hbc | ⟨hbc, -⟩
      · exact .inl (hbc.trans hab)
      · exact .inl (hbc ▸ hab)
    · rcases hbc with hbc | ⟨hbc, hid'⟩
      · exact .inl (hab ▸ hbc)
      · exact .inr ⟨hbc.trans hab, hid'.trans hid⟩

theorem sortedRecords_perm (db : Db) : db.sortedRecords.Perm db.records :=
  List.perm_insertionSort _ _

theorem sortedRecords_pairwise (db : Db) : db.sortedRecords.Pairwise RowBefore :=
  List.pairwise_insertionSort _ _

theorem length_sortedRecords (db : Db) : db.sortedRecords.length = db.records.length :=
  db.sortedRecords_perm.length_eq

theorem sortedRecords_nodup (db : Db) : (db.sortedRecords.map (·.id)).Nodup :=
  (db.sortedRecords_perm.map _).nodup_iff.2 db.recordsKey

end Db

/-! ## The page arithmetic -/

section Arithmetic

variable {db : Db} {page pageSize : Int}

/-- Adding the page size may wrap around, if the subtraction of 1 wraps back. -/
theorem totalPages?_eq (hsize : 1 ≤ pageSize)
    (htotal : I64.Fits (db.records.length + pageSize - 1)) :
    totalPages? db.records.length pageSize =
      some (Paging.pageCount pageSize.toNat db.sortedRecords : Int) := by
  have hsum : I64.sub (I64.add db.records.length pageSize) 1 =
      db.records.length + pageSize - 1 := by
    rw [← I64.wrap_of_fits htotal]
    simp only [I64.sub, I64.add, I64.wrap, Int.bmod_sub_bmod]
  -- Neither case in which the division panics.
  have hdiv : ¬ (pageSize = 0 ∨
      ((db.records.length : Int) + pageSize - 1 = -2 ^ 63 ∧ pageSize = -1)) := by omega
  lift pageSize to ℕ using by omega
  have hcast : (db.records.length : Int) + pageSize - 1 =
      ((db.records.length + pageSize - 1 : ℕ) : Int) := by omega
  have hquot : I64.div? (I64.sub (I64.add db.records.length pageSize) 1) pageSize =
      some (((db.records.length + pageSize - 1) / pageSize : ℕ) : Int) := by
    rw [hsum, I64.div?, if_neg hdiv, hcast, Int.tdiv_eq_ediv_of_nonneg (Int.natCast_nonneg _),
      Int.natCast_ediv]
  have hcount : Paging.pageCount pageSize db.sortedRecords =
      max 1 ((db.records.length + pageSize - 1) / pageSize) := by
    rw [Paging.pageCount, Nat.ceilDiv_eq_add_pred_div, db.length_sortedRecords]
  calc
    totalPages? db.records.length pageSize
        = some (max (((db.records.length + pageSize - 1) / pageSize : ℕ) : Int) 1) := by
            rw [totalPages?, hquot, Option.map_some]
    _ = some ((max 1 ((db.records.length + pageSize - 1) / pageSize) : ℕ) : Int) := by
            rw [Nat.cast_max, Nat.cast_one, max_comm]
    _ = some (Paging.pageCount (pageSize : Int).toNat db.sortedRecords : Int) := by
            rw [Int.toNat_natCast, hcount]

/-- One call fetches one page. -/
theorem listRecords_fst (db : Db) (hsize : 1 ≤ pageSize) (hpage : 1 ≤ page)
    (hoffset : I64.Fits ((page - 1) * pageSize)) :
    (db.listRecords page pageSize).1 =
      Paging.page pageSize.toNat page.toNat db.sortedRecords := by
  -- The offset fits, so the subtraction before it does not wrap either.
  have hle : page - 1 ≤ (page - 1) * pageSize := le_mul_of_one_le_right (by omega) hsize
  have hsub : I64.sub page 1 = page - 1 :=
    I64.wrap_of_fits ⟨by omega, by have := hoffset.2; omega⟩
  have hmul : I64.mul (page - 1) pageSize = (page - 1) * pageSize := I64.wrap_of_fits hoffset
  have hnat : ((page - 1) * pageSize).toNat = (page.toNat - 1) * pageSize.toNat := by
    rw [Int.toNat_mul (by omega) (by omega)]
    congr 1
    omega
  have hlimit : ¬ pageSize < 0 := by omega
  simp only [Db.listRecords, max_eq_left hpage, hsub, hmul, Db.limitOffset, if_neg hlimit, hnat,
    Paging.page]

theorem one_le_clamp (page : Int) {n : ℕ} (hn : 1 ≤ n) : 1 ≤ clamp page 1 n ∧ clamp page 1 n ≤ n := by
  unfold clamp
  split_ifs <;> omega

theorem clamp_of_le {n : ℕ} (h : max page 1 ≤ n) : clamp page 1 n = max page 1 := by
  unfold clamp
  split_ifs <;> omega

theorem clamp_of_lt {n : ℕ} (hn : 1 ≤ n) (h : (n : Int) < page) : clamp page 1 n = n := by
  unfold clamp
  split_ifs <;> omega

/-- The page number may be raised to 1 before it is clamped. -/
theorem clamp_max {n : ℕ} (hn : 1 ≤ n) : clamp (max page 1) 1 n = clamp page 1 n := by
  unfold clamp
  split_ifs <;> omega

end Arithmetic

/-! ## The rows of the web list -/

section Shown

variable {db : Db} {page pageSize : Int}

theorem pageCount_eq_one_iff (db : Db) (hsize : 1 ≤ pageSize) :
    Paging.pageCount pageSize.toNat db.sortedRecords = 1 ↔
      (db.records.length : Int) ≤ pageSize := by
  rw [Paging.pageCount_eq_one_iff (by omega), db.length_sortedRecords]
  omega

/-- The rows of the reported page, unless another page than the only one was asked for: then
nothing is fetched, and nothing is fetched again. -/
def webRows (db : Db) (page pageSize : Int) : List RecordRow :=
  if 2 ≤ page ∧ db.records.length ≤ pageSize then []
  else Paging.page pageSize.toNat
    (clamp page 1 (Paging.pageCount pageSize.toNat db.sortedRecords)).toNat db.sortedRecords

theorem shownRows_eq (hsize : 1 ≤ pageSize) (hoffset : I64.Fits ((max page 1 - 1) * pageSize)) :
    shownRows db page pageSize (Paging.pageCount pageSize.toNat db.sortedRecords) =
      webRows db page pageSize := by
  have hone := pageCount_eq_one_iff db hsize
  have hpos := Paging.one_le_pageCount pageSize.toNat db.sortedRecords
  have hfst : (db.listRecords (max page 1) pageSize).1 =
      Paging.page pageSize.toNat (max page 1).toNat db.sortedRecords :=
    listRecords_fst db hsize (le_max_right _ _) hoffset
  unfold webRows
  generalize htp : Paging.pageCount pageSize.toNat db.sortedRecords = n at *
  rcases le_or_gt (max page 1) (n : Int) with hle | hlt
  · -- The page exists: a second fetch would be the first one again.
    have hnot : ¬ (2 ≤ page ∧ (db.records.length : Int) ≤ pageSize) := by
      rintro ⟨hpage, hlen⟩
      have := hone.2 hlen
      omega
    rw [if_neg hnot, clamp_of_le hle, shownRows, clamp_of_le hle, hfst]
    exact ite_self _
  · have hpage : (n : Int) < page := by omega
    have hmax : max page 1 = page := by omega
    rw [hmax] at hfst hoffset
    -- Beyond the end the first fetch returns nothing.
    have hnil : (db.listRecords page pageSize).1 = [] := by
      rw [hfst]
      exact Paging.page_of_pageCount_lt (by omega) (by omega)
    rw [shownRows, hmax, clamp_of_lt hpos hpage, hnil]
    rcases Nat.lt_or_ge 1 n with htwo | hle
    · have hnot : ¬ (2 ≤ page ∧ (db.records.length : Int) ≤ pageSize) := by
        rintro ⟨-, hlen⟩
        have := hone.2 hlen
        omega
      have hback : I64.Fits (((n : Int) - 1) * pageSize) := by
        have hlo : 0 ≤ ((n : Int) - 1) * pageSize := Int.mul_nonneg (by omega) (by omega)
        have hhi : ((n : Int) - 1) * pageSize ≤ (page - 1) * pageSize :=
          Int.mul_le_mul_of_nonneg_right (by omega) (by omega)
        exact ⟨by omega, by have := hoffset.2; omega⟩
      rw [if_neg hnot, if_pos ⟨rfl, by omega⟩]
      exact listRecords_fst db hsize (by omega) hback
    · -- The clamped page is 1, for which the code does not fetch again.
      have hn : n = 1 := by omega
      have hlen := hone.1 hn
      have hfirst : ¬ ((([] : List RecordRow).isEmpty : Prop) ∧ (1 : Int) < n) := by omega
      have hmissed : 2 ≤ page ∧ (db.records.length : Int) ≤ pageSize := ⟨by omega, hlen⟩
      rw [if_neg hfirst, if_pos hmissed]

end Shown

/-! ## The attachments of the rows -/

/-- The ids of some rows, with the number of attachments that each of them has. -/
def attachmentCounts (db : Db) (rows : List RecordRow) : List (String × Int) :=
  rows.map fun r => (r.id, ((db.attachments.filter fun a => a.recordId = r.id).length : Int))

theorem attachmentCounts_ids (db : Db) (rows : List RecordRow) :
    (attachmentCounts db rows).map Prod.fst = rows.map (·.id) := by
  rw [attachmentCounts, List.map_map]
  rfl

/-- The query over all rows misses no attachment of any of them. -/
theorem length_byRecord {db : Db} {ids : List String} {attachments : List AttachmentRow}
    (h : db.attachmentsForRecords ids = .ok attachments) {id : String} (hid : id ∈ ids) :
    (byRecord attachments id).length =
      (db.attachments.filter fun a => a.recordId = id).length := by
  unfold Db.attachmentsForRecords at h
  split_ifs at h with hnil hmany
  · rw [hnil] at hid
    cases hid
  · cases h
    -- Sorting permutes the rows, and those of `id` are among the rows asked for.
    have hsorted := (List.perm_insertionSort Db.AttachmentBefore
      (db.attachments.filter fun a => a.recordId ∈ ids)).filter fun a => a.recordId = id
    rw [byRecord_eq, hsorted.length_eq, List.filter_filter]
    congr 1
    refine List.filter_congr fun a _ => ?_
    have hmem : a.recordId = id → a.recordId ∈ ids := fun heq => heq ▸ hid
    simpa using hmem

theorem withAttachments_counts {α : Type} {f : α → String × Int}
    {view : RecordRow → List AttachmentRow → α}
    (hf : ∀ r atts, f (view r atts) = (r.id, (atts.length : Int))) {db : Db}
    {rows : List RecordRow} {attachments : List AttachmentRow} (hrows : (rows.map (·.id)).Nodup)
    (h : db.attachmentsForRecords (rows.map (·.id)) = .ok attachments) :
    (withAttachments view (byRecord attachments) rows).map f = attachmentCounts db rows := by
  rw [withAttachments_eq view _ hrows, List.map_map, attachmentCounts]
  refine List.map_congr_left fun r hr => ?_
  rw [Function.comp_apply, hf, length_byRecord h (List.mem_map_of_mem hr)]

theorem recordView_counts (s : AppState) (lang : Lang) (r : RecordRow)
    (atts : List AttachmentRow) :
    ((recordView s lang r atts).id, (recordView s lang r atts).attachmentCount) =
      (r.id, (atts.length : Int)) := by
  unfold recordView
  split <;> rfl

theorem apiRecordSummary_counts (s : AppState) (r : RecordRow) (atts : List AttachmentRow) :
    ((apiRecordSummary s r atts).id, ((apiRecordSummary s r atts).attachmentCount : Int)) =
      (r.id, (atts.length : Int)) := by
  unfold apiRecordSummary
  split <;> rfl

/-! ## What the two lists return -/

section Returned

variable {s : AppState} {w w' : Store} {page pageSize : Int} {tr : List (Asked Reply Env)}

theorem page_ids_nodup (db : Db) (n p : ℕ) :
    ((Paging.page n p db.sortedRecords).map (·.id)).Nodup :=
  db.sortedRecords_nodup.sublist (((List.take_sublist _ _).trans (List.drop_sublist _ _)).map _)

/-- The rows of the API list: those of the page asked for. -/
def apiRows (db : Db) (page pageSize : Int) : List RecordRow :=
  Paging.page pageSize.toNat (max page 1).toNat db.sortedRecords

theorem webRows_nodup (db : Db) (page pageSize : Int) :
    ((webRows db page pageSize).map (·.id)).Nodup := by
  unfold webRows
  split_ifs
  · exact List.nodup_nil
  · exact page_ids_nodup db _ _

theorem runs_listRecords (w : Store) (page pageSize : Int) :
    ∃ tr, Runs Store.answer w (AskDb.listRecords page pageSize) tr w
      (.ok ((w.db.listRecords page pageSize).1, (w.db.records.length : Int))) :=
  ⟨_, .perform (e := {}) rfl⟩

/-- The query for few enough ids succeeds. -/
theorem exists_attachmentsForRecords (db : Db) {ids : List String}
    (h : ids.length ≤ Db.maxVariables) :
    ∃ attachments, db.attachmentsForRecords ids = .ok attachments := by
  unfold Db.attachmentsForRecords
  rw [if_neg (Nat.not_lt.2 h)]
  split_ifs
  · exact ⟨_, rfl⟩
  · exact ⟨_, rfl⟩

theorem runs_attachmentsForRecords (w : Store) {rows : List RecordRow}
    (h : rows.length ≤ Db.maxVariables) :
    ∃ tr attachments, Runs Store.answer w (AskDb.attachmentsForRecords (rows.map (·.id))) tr w
      (.ok attachments) := by
  have hids : (rows.map (·.id)).length ≤ Db.maxVariables := by rwa [List.length_map]
  rcases exists_attachmentsForRecords w.db hids with ⟨attachments, hatts⟩
  refine ⟨_, attachments, .perform (e := {}) ?_⟩
  simp [Store.answer, Db.exec, hatts]

theorem buildListView_returned {lang : Lang} {view : ListView} (hsize : 1 ≤ s.cfg.pageSize)
    (hoffset : I64.Fits ((max page 1 - 1) * s.cfg.pageSize))
    (htotal : I64.Fits (w.db.records.length + s.cfg.pageSize - 1))
    (hrun : Runs Store.answer w (buildListView s page lang) tr w' (.ok view)) :
    view.total = w.db.records.length ∧
      view.totalPages = Paging.pageCount s.cfg.pageSize.toNat w.db.sortedRecords ∧
      view.page = clamp page 1 (Paging.pageCount s.cfg.pageSize.toNat w.db.sortedRecords) ∧
      view.records.map (fun r => (r.id, r.attachmentCount)) =
        attachmentCounts w.db (webRows w.db page s.cfg.pageSize) := by
  rcases hrun.of_wp (wp_buildListView s page lang w) view rfl with
    ⟨totalPages, attachments, htp, hatts, rfl⟩
  rw [totalPages?_eq hsize htotal] at htp
  obtain rfl := Option.some.inj htp
  rw [shownRows_eq hsize hoffset] at hatts ⊢
  exact ⟨rfl, rfl, rfl,
    withAttachments_counts (recordView_counts s lang) (webRows_nodup _ _ _) hatts⟩

theorem apiListRecords_returned {resp : Response} {list : ApiListResponse} (hsize : 1 ≤ pageSize)
    (hoffset : I64.Fits ((max page 1 - 1) * pageSize))
    (htotal : I64.Fits (w.db.records.length + pageSize - 1))
    (hrun : Runs Store.answer w
      (apiListRecords s { page := some page, pageSize := some pageSize }) tr w' resp)
    (hresp : resp.body = .jsonList list) :
    list.total = w.db.records.length ∧
      list.totalPages = Paging.pageCount pageSize.toNat w.db.sortedRecords ∧
      list.page = clamp page 1 (Paging.pageCount pageSize.toNat w.db.sortedRecords) ∧
      list.records.map (fun r => (r.id, (r.attachmentCount : Int))) =
        attachmentCounts w.db (apiRows w.db page pageSize) := by
  rcases hrun.of_wp (wp_apiListRecords s page pageSize w) list hresp with
    ⟨totalPages, attachments, htp, hatts, rfl⟩
  rw [max_eq_left hsize] at htp hatts ⊢
  rw [totalPages?_eq hsize htotal] at htp
  obtain rfl := Option.some.inj htp
  rw [listRecords_fst w.db hsize (le_max_right _ _) hoffset] at hatts ⊢
  exact ⟨rfl, rfl, clamp_max (Paging.one_le_pageCount _ _),
    withAttachments_counts (apiRecordSummary_counts s) (page_ids_nodup _ _ _) hatts⟩

/-- The web list returns a view when the store is available and the second query can bind all
ids. -/
theorem buildListView_returns (lang : Lang) (hsize : 1 ≤ s.cfg.pageSize)
    (hoffset : I64.Fits ((max page 1 - 1) * s.cfg.pageSize))
    (htotal : I64.Fits (w.db.records.length + s.cfg.pageSize - 1))
    (hfew : (webRows w.db page s.cfg.pageSize).length ≤ Db.maxVariables) :
    ∃ tr view, Runs Store.answer w (buildListView s page lang) tr w (.ok view) := by
  rw [← shownRows_eq hsize hoffset] at hfew
  have htp := totalPages?_eq hsize htotal
  generalize Paging.pageCount s.cfg.pageSize.toNat w.db.sortedRecords = n at hfew htp
  rcases runs_attachmentsForRecords w hfew with ⟨tr₂, attachments, hatts⟩
  have hshow : ∃ tr view, Runs Store.answer w (showRows s lang (clamp page 1 n) n
      w.db.records.length (shownRows w.db page s.cfg.pageSize n)) tr w (.ok view) :=
    ⟨_, _, hatts.bind (.done _ _)⟩
  rcases hshow with ⟨tr₃, view, hshow⟩
  rcases runs_listRecords w (max page 1) s.cfg.pageSize with ⟨tr₁, hfirst⟩
  by_cases hempty : ((w.db.listRecords (max page 1) s.cfg.pageSize).1.isEmpty : Prop) ∧
      1 < clamp page 1 n
  · -- Three queries: the page asked for, the clamped page, and the attachments.
    rcases runs_listRecords w (clamp page 1 n) s.cfg.pageSize with ⟨tr₂, hsecond⟩
    rw [shownRows, if_pos hempty] at hshow
    refine ⟨tr₁ ++ (tr₂ ++ tr₃), view, hfirst.bind ?_⟩
    simp only [htp, if_pos hempty]
    exact hsecond.bind hshow
  · rw [shownRows, if_neg hempty] at hshow
    refine ⟨tr₁ ++ tr₃, view, hfirst.bind ?_⟩
    simp only [htp, if_neg hempty]
    exact hshow

theorem apiListRecords_returns (s : AppState) (hsize : 1 ≤ pageSize)
    (hoffset : I64.Fits ((max page 1 - 1) * pageSize))
    (htotal : I64.Fits (w.db.records.length + pageSize - 1))
    (hfew : (apiRows w.db page pageSize).length ≤ Db.maxVariables) :
    ∃ tr list, Runs Store.answer w
      (apiListRecords s { page := some page, pageSize := some pageSize }) tr w
      { status := .ok, headers := [("content-type", "application/json")]
        body := .jsonList list } := by
  have htp := totalPages?_eq hsize htotal
  have hrows := listRecords_fst w.db hsize (le_max_right page 1) hoffset
  rw [apiRows, ← hrows] at hfew
  rcases runs_listRecords w (max page 1) pageSize with ⟨tr₁, hfirst⟩
  rcases runs_attachmentsForRecords w hfew with ⟨tr₂, attachments, hatts⟩
  refine ⟨tr₁ ++ (tr₂ ++ []), apiList s (w.db.listRecords (max page 1) pageSize).1 attachments
    (clamp (max page 1) 1 (Paging.pageCount pageSize.toNat w.db.sortedRecords)) pageSize
    (Paging.pageCount pageSize.toNat w.db.sortedRecords) w.db.records.length, ?_⟩
  unfold apiListRecords
  simp only [Option.getD_some, max_eq_left hsize]
  refine hfirst.bind ?_
  simp only [htp]
  exact hatts.bind (.done _ _)

end Returned

/-! ## The web list shows the page that it reports -/

structure SelfConsistent (db : Db) (pageSize : Int) (view : ListView) : Prop where
  total : view.total = db.records.length
  totalPages : view.totalPages = Paging.pageCount pageSize.toNat db.sortedRecords
  page : 1 ≤ view.page ∧ view.page ≤ view.totalPages
  records : view.records.map (·.id) =
    (Paging.page pageSize.toNat view.page.toNat db.sortedRecords).map (·.id)
  nonempty : view.records = [] → db.records = []

theorem sortedRecords_eq_nil {db : Db} : db.sortedRecords = [] ↔ db.records = [] := by
  rw [← List.length_eq_zero_iff, db.length_sortedRecords, List.length_eq_zero_iff]

theorem webRows_of_not {db : Db} {page pageSize : Int}
    (h : ¬ (2 ≤ page ∧ 0 < db.records.length ∧ db.records.length ≤ pageSize)) :
    webRows db page pageSize = Paging.page pageSize.toNat
      (clamp page 1 (Paging.pageCount pageSize.toNat db.sortedRecords)).toNat
      db.sortedRecords := by
  unfold webRows
  split_ifs with hmissed
  · -- Without records every page is empty, also the reported one.
    have hempty : db.records = [] := by
      rw [← List.length_eq_zero_iff]
      by_contra hlen
      exact h ⟨hmissed.1, Nat.pos_of_ne_zero hlen, hmissed.2⟩
    rw [sortedRecords_eq_nil.2 hempty, Paging.page, List.drop_nil, List.take_nil]
  · rfl

/-- The view is consistent except when a later page is asked for and all records, of which there
are some, fit on the first: then the view is empty. -/
theorem view_selfConsistent_iff (s : AppState) (lang : Lang) {page : Int} {w w' : Store}
    {tr : List (Asked Reply Env)} {view : ListView} (hsize : 1 ≤ s.cfg.pageSize)
    (hoffset : I64.Fits ((max page 1 - 1) * s.cfg.pageSize))
    (htotal : I64.Fits (w.db.records.length + s.cfg.pageSize - 1))
    (hrun : Runs Store.answer w (buildListView s page lang) tr w' (.ok view)) :
    SelfConsistent w.db s.cfg.pageSize view ↔
      ¬ (2 ≤ page ∧ 0 < w.db.records.length ∧ w.db.records.length ≤ s.cfg.pageSize) := by
  rcases buildListView_returned hsize hoffset htotal hrun with ⟨hcount, htp, hpage, hrows⟩
  have hpos := Paging.one_le_pageCount s.cfg.pageSize.toNat w.db.sortedRecords
  have hone := pageCount_eq_one_iff w.db hsize
  have hids : view.records.map (·.id) = (webRows w.db page s.cfg.pageSize).map (·.id) := by
    rw [← attachmentCounts_ids w.db, ← hrows, List.map_map]
    rfl
  have hnil : view.records = [] ↔ webRows w.db page s.cfg.pageSize = [] := by
    rw [← List.map_eq_nil_iff (f := (·.id)), hids, List.map_eq_nil_iff]
  constructor
  · -- The excepted view shows no record of a store that has some.
    rintro hview ⟨hlate, hlen, hle⟩
    have hempty : w.db.records = [] := by
      apply hview.nonempty
      rw [hnil, webRows, if_pos ⟨hlate, hle⟩]
    rw [hempty] at hlen
    exact absurd hlen (Nat.lt_irrefl 0)
  · -- Otherwise the rows are those of the page that the view names.
    intro hnot
    have hclamp := one_le_clamp page hpos
    refine ⟨hcount, htp, ?_, ?_, ?_⟩
    · rwa [hpage, htp]
    · rw [hids, webRows_of_not hnot, hpage]
    · intro hrecords
      rw [hnil, webRows_of_not hnot] at hrecords
      by_contra hne
      refine Paging.page_ne_nil (by omega) (mt sortedRecords_eq_nil.1 hne) ?_ hrecords
      omega

/-- A store with three records, the last of them with an attachment. -/
def threeRecords : Store :=
  let row (id : String) (now : Int) : RecordRow :=
    { id, blob := AppState.plain.crypto.encrypt Plain.nonce "a" "b", createdAt := now
      updatedAt := now }
  { Store.empty with
    db :=
      { records := [row "r1" 1, row "r2" 2, row "r3" 3]
        attachments := [{ id := "f1", recordId := "r3", originalFilename := "a.bin"
                          sizeBytes := 1, mimeType := "application/octet-stream", createdAt := 3 }]
        recordsKey := by decide
        attachmentsKey := by decide
        foreignKey := by decide } }

/-- Page 5 of two: the view is that of page 2. -/
theorem view_selfConsistent_iff_run : ∃ tr view,
    Runs Store.answer threeRecords (buildListView .plain 5 .en) tr threeRecords (.ok view) ∧
      SelfConsistent threeRecords.db 2 view := by
  have hoffset : I64.Fits ((max 5 1 - 1) * AppState.plain.cfg.pageSize) := by decide
  have htotal : I64.Fits (threeRecords.db.records.length + AppState.plain.cfg.pageSize - 1) := by
    decide
  rcases buildListView_returns (w := threeRecords) (s := .plain) .en (by decide) hoffset htotal
    (by decide +kernel) with ⟨tr, view, hrun⟩
  refine ⟨tr, view, hrun, ?_⟩
  exact (view_selfConsistent_iff .plain .en (by decide) hoffset htotal hrun).2 (by decide)

/-- Page 2 of one: the view is empty, the store is not. -/
theorem view_empty_beyond_only_page :
    ¬ ∀ (s : AppState) (lang : Lang) (page : Int) (w w' : Store) (tr : List (Asked Reply Env))
      (view : ListView), 1 ≤ s.cfg.pageSize → I64.Fits ((max page 1 - 1) * s.cfg.pageSize) →
      I64.Fits (w.db.records.length + s.cfg.pageSize - 1) →
      Runs Store.answer w (buildListView s page lang) tr w' (.ok view) →
      SelfConsistent w.db s.cfg.pageSize view := by
  intro hall
  let s : AppState := { AppState.plain with cfg := { AppState.plain.cfg with pageSize := 5 } }
  have hsize : 1 ≤ s.cfg.pageSize := by decide
  have hoffset : I64.Fits ((max 2 1 - 1) * s.cfg.pageSize) := by decide
  have htotal : I64.Fits (threeRecords.db.records.length + s.cfg.pageSize - 1) := by decide
  rcases buildListView_returns (w := threeRecords) .en hsize hoffset htotal (by decide +kernel) with
    ⟨tr, view, hrun⟩
  have hview := hall s .en 2 threeRecords threeRecords tr view hsize hoffset htotal hrun
  rcases buildListView_returned hsize hoffset htotal hrun with ⟨-, -, -, hrows⟩
  have hmissed : webRows threeRecords.db 2 s.cfg.pageSize = [] := by decide
  rw [hmissed, attachmentCounts, List.map_nil, List.map_eq_nil_iff] at hrows
  cases hview.nonempty hrows

/-! ## The web list and the API list -/

/-- Both lists report the same page and show the same records. -/
structure Agree (view : ListView) (list : ApiListResponse) : Prop where
  page : view.page = list.page
  total : view.total = list.total
  totalPages : view.totalPages = list.totalPages
  records : view.records.map (fun r => (r.id, r.attachmentCount)) =
    list.records.map fun r => (r.id, (r.attachmentCount : Int))

theorem webRows_eq_apiRows {db : Db} {page pageSize : Int} (hsize : 1 ≤ pageSize)
    (hnot : ¬ (pageSize < db.records.length ∧
      Paging.pageCount pageSize.toNat db.sortedRecords < page)) :
    webRows db page pageSize = apiRows db page pageSize := by
  have hone := pageCount_eq_one_iff db hsize
  rcases le_or_gt (max page 1) (Paging.pageCount pageSize.toNat db.sortedRecords : Int)
    with hle | hlt
  · have hfound : ¬ (2 ≤ page ∧ (db.records.length : Int) ≤ pageSize) := by omega
    rw [webRows, if_neg hfound, clamp_of_le hle, apiRows]
  · -- Both lists are empty when the page is beyond the only one.
    have hpos := Paging.one_le_pageCount pageSize.toNat db.sortedRecords
    have hmissed : 2 ≤ page ∧ (db.records.length : Int) ≤ pageSize := by omega
    rw [webRows, if_pos hmissed, apiRows, Paging.page_of_pageCount_lt (by omega) (by omega)]

/-- Beyond the last of several pages, only the web list fetches again. -/
theorem rows_beyond_end {db : Db} {page pageSize : Int} (hsize : 1 ≤ pageSize)
    (hlen : pageSize < db.records.length)
    (hpage : Paging.pageCount pageSize.toNat db.sortedRecords < page) :
    apiRows db page pageSize = [] ∧ webRows db page pageSize ≠ [] := by
  have hpos := Paging.one_le_pageCount pageSize.toNat db.sortedRecords
  have hsize₀ : 0 < pageSize.toNat := by omega
  have hrows : db.sortedRecords ≠ [] := by
    rw [Ne, sortedRecords_eq_nil, ← List.length_eq_zero_iff]
    omega
  refine ⟨Paging.page_of_pageCount_lt hsize₀ (by omega), ?_⟩
  have hfound : ¬ (2 ≤ page ∧ (db.records.length : Int) ≤ pageSize) := by omega
  rw [webRows, if_neg hfound, clamp_of_lt hpos hpage]
  exact Paging.page_ne_nil hsize₀ hrows (by omega)

/-- The two lists agree except when the page asked for is beyond the last of several pages. -/
theorem lists_agree_iff (s : AppState) (lang : Lang) {page pageSize : Int} {w w₁ w₂ : Store}
    {tr₁ tr₂ : List (Asked Reply Env)} {view : ListView} {resp : Response}
    {list : ApiListResponse} (hcfg : s.cfg.pageSize = pageSize) (hsize : 1 ≤ pageSize)
    (hoffset : I64.Fits ((max page 1 - 1) * pageSize))
    (htotal : I64.Fits (w.db.records.length + pageSize - 1))
    (hweb : Runs Store.answer w (buildListView s page lang) tr₁ w₁ (.ok view))
    (hapi : Runs Store.answer w
      (apiListRecords s { page := some page, pageSize := some pageSize }) tr₂ w₂ resp)
    (hresp : resp.body = .jsonList list) :
    Agree view list ↔ ¬ (pageSize < w.db.records.length ∧
      Paging.pageCount pageSize.toNat w.db.sortedRecords < page) := by
  subst hcfg
  rcases buildListView_returned hsize hoffset htotal hweb with ⟨htotal₁, htp₁, hpage₁, hrows₁⟩
  rcases apiListRecords_returned hsize hoffset htotal hapi hresp with
    ⟨htotal₂, htp₂, hpage₂, hrows₂⟩
  constructor
  · rintro hagree ⟨hlen, hbeyond⟩
    rcases rows_beyond_end hsize hlen hbeyond with ⟨hnil, hne⟩
    have hcounts : attachmentCounts w.db [] =
        attachmentCounts w.db (webRows w.db page s.cfg.pageSize) := by
      calc
        attachmentCounts w.db []
            = attachmentCounts w.db (apiRows w.db page s.cfg.pageSize) := by rw [hnil]
        _ = list.records.map (fun r => (r.id, (r.attachmentCount : Int))) := hrows₂.symm
        _ = view.records.map (fun r => (r.id, r.attachmentCount)) := hagree.records.symm
        _ = attachmentCounts w.db (webRows w.db page s.cfg.pageSize) := hrows₁
    exact hne (List.map_eq_nil_iff.1 hcounts.symm)
  · intro hnot
    refine ⟨hpage₁.trans hpage₂.symm, htotal₁.trans htotal₂.symm, htp₁.trans htp₂.symm, ?_⟩
    rw [hrows₁, hrows₂, webRows_eq_apiRows hsize hnot]

/-- Page 2 of two. -/
theorem lists_agree_iff_run : ∃ tr₁ tr₂ view resp list,
    Runs Store.answer threeRecords (buildListView .plain 2 .en) tr₁ threeRecords (.ok view) ∧
      Runs Store.answer threeRecords
        (apiListRecords .plain { page := some 2, pageSize := some 2 }) tr₂ threeRecords resp ∧
      resp.body = .jsonList list ∧ Agree view list := by
  have hoffset : I64.Fits ((max 2 1 - 1) * 2) := by decide
  have htotal : I64.Fits (threeRecords.db.records.length + 2 - 1) := by decide
  rcases buildListView_returns (w := threeRecords) (s := .plain) .en (by decide) hoffset htotal
    (by decide +kernel) with ⟨tr₁, view, hweb⟩
  rcases apiListRecords_returns (w := threeRecords) .plain (by decide) hoffset htotal
    (by decide +kernel) with ⟨tr₂, list, hapi⟩
  refine ⟨tr₁, tr₂, view, _, list, hweb, hapi, rfl, ?_⟩
  exact (lists_agree_iff .plain .en rfl (by decide) hoffset htotal hweb hapi rfl).2
    (by decide +kernel)

/-- Page 3 of two: the API list reports page 2 as well, but is empty. -/
theorem api_list_empty_beyond_end :
    ¬ ∀ (s : AppState) (lang : Lang) (page pageSize : Int) (w w₁ w₂ : Store)
      (tr₁ tr₂ : List (Asked Reply Env)) (view : ListView) (resp : Response)
      (list : ApiListResponse), s.cfg.pageSize = pageSize → 1 ≤ pageSize →
      I64.Fits ((max page 1 - 1) * pageSize) → I64.Fits (w.db.records.length + pageSize - 1) →
      Runs Store.answer w (buildListView s page lang) tr₁ w₁ (.ok view) →
      Runs Store.answer w (apiListRecords s { page := some page, pageSize := some pageSize })
        tr₂ w₂ resp →
      resp.body = .jsonList list → Agree view list := by
  intro hall
  have hoffset : I64.Fits ((max 3 1 - 1) * 2) := by decide
  have htotal : I64.Fits (threeRecords.db.records.length + 2 - 1) := by decide
  rcases buildListView_returns (w := threeRecords) (s := .plain) .en (by decide) hoffset htotal
    (by decide +kernel) with ⟨tr₁, view, hweb⟩
  rcases apiListRecords_returns (w := threeRecords) .plain (by decide) hoffset htotal
    (by decide +kernel) with ⟨tr₂, list, hapi⟩
  have hagree := hall .plain .en 3 2 threeRecords threeRecords threeRecords tr₁ tr₂ view _ list
    rfl (by decide) hoffset htotal hweb hapi rfl
  rcases buildListView_returned (by decide) hoffset htotal hweb with ⟨-, -, -, hrows₁⟩
  rcases apiListRecords_returned (by decide) hoffset htotal hapi rfl with ⟨-, -, -, hrows₂⟩
  have hrecords := hagree.records
  rw [hrows₁, hrows₂] at hrecords
  exact absurd hrecords (by decide +kernel)

end Aardbin
