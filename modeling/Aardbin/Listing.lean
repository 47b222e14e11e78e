import Aardbin.Handlers

/-!
# The two lists of records (`build_list_view` in `routes.rs`, `api_list_records` in `api.rs`)

Both fetch one page of rows, clamp the page number, fetch the attachments of all rows at once,
and group them by record.
-/

namespace Aardbin

open Effect Rust

/-! ## Attachments by record -/

def byRecord (attachments : List AttachmentRow) : String → List AttachmentRow :=
  attachments.foldl
    (fun m a => Function.update m a.recordId (m a.recordId ++ [a])) fun _ => []

/-- Each row takes the attachments of its record out of the map. -/
def withAttachments {α : Type} (view : RecordRow → List AttachmentRow → α) :
    (String → List AttachmentRow) → List RecordRow → List α
  | _, [] => []
  | m, r :: rest =>
      view r (m r.id) :: withAttachments view (Function.update m r.id []) rest

/-- Grouping keeps the order of the rows. -/
theorem byRecord_eq (attachments : List AttachmentRow) (id : String) :
    byRecord attachments id = attachments.filter fun a => a.recordId = id := by
  unfold byRecord
  have hfold : ∀ (as : List AttachmentRow) (m : String → List AttachmentRow),
      as.foldl (fun m a => Function.update m a.recordId (m a.recordId ++ [a])) m id =
        m id ++ as.filter fun a => a.recordId = id := by
    intro as
    induction as with
    | nil => simp
    | cons a as ih =>
        intro m
        rw [List.foldl_cons, ih]
        by_cases ha : a.recordId = id
        · subst ha
          simp
        · rw [Function.update_of_ne (Ne.symm ha), List.filter_cons_of_neg (by simpa using ha)]
  simpa using hfold attachments fun _ => []

/-- With distinct ids, a row finds what the map held at first. -/
theorem withAttachments_eq {α : Type} (view : RecordRow → List AttachmentRow → α)
    (m : String → List AttachmentRow) {rows : List RecordRow} (h : (rows.map (·.id)).Nodup) :
    withAttachments view m rows = rows.map fun r => view r (m r.id) := by
  induction rows generalizing m with
  | nil => rfl
  | cons r rest ih =>
      rw [List.map_cons, List.nodup_cons] at h
      rw [withAttachments, ih _ h.2, List.map_cons]
      congr 1
      refine List.map_congr_left fun r' hr' => ?_
      have hne : r'.id ≠ r.id := fun heq => h.1 (heq ▸ List.mem_map_of_mem hr')
      rw [Function.update_of_ne hne]

/-! ## Pages -/

/-- `((total + page_size - 1) / page_size).max(1)`; `none` where the division panics. -/
def totalPages? (total pageSize : Int) : Option Int :=
  (I64.div? (I64.sub (I64.add total pageSize) 1) pageSize).map fun q => max q 1

/-- `Ord::clamp`. -/
def clamp (x lo hi : Int) : Int :=
  if x < lo then lo else if hi < x then hi else x

/-! ## The web list -/

def recordView (s : AppState) (lang : Lang) (r : RecordRow) (atts : List AttachmentRow) :
    RecordView :=
  let attachmentCount : Int := atts.length
  let firstAttachmentName := (atts.head?.map (·.originalFilename)).getD ""
  let firstAttachmentId := (atts.head?.map (·.id)).getD ""
  match s.crypto.decrypt r.blob with
  | .ok (title, content) =>
      let (title, untitled) := displayTitle title content lang
      { id := r.id, title, untitled, snippet := snippet content, updatedTs := r.updatedAt
        updatedText := formatTsUtc s.vendor r.updatedAt, attachmentCount, firstAttachmentName
        firstAttachmentId, extraAttachments := max (attachmentCount - 1) 0
        undecryptable := false }
  | .error _ =>
      { id := r.id, title := "", untitled := false, snippet := "", updatedTs := r.updatedAt
        updatedText := formatTsUtc s.vendor r.updatedAt, attachmentCount, firstAttachmentName
        firstAttachmentId, extraAttachments := max (attachmentCount - 1) 0
        undecryptable := true }

/-- The view of a page whose rows have been chosen. -/
def listView (s : AppState) (lang : Lang) (rows : List RecordRow)
    (attachments : List AttachmentRow) (page totalPages total : Int) : ListView :=
  { lang, records := withAttachments (recordView s lang) (byRecord attachments) rows, page
    totalPages, hasPrev := decide (1 < page), hasNext := decide (page < totalPages), total }

/-- The second half of `build_list_view`, once the rows are chosen. -/
def showRows (s : AppState) (lang : Lang) (page totalPages total : Int) (rows : List RecordRow) :
    Program Reply (Except DbError ListView) := do
  match ← AskDb.attachmentsForRecords (rows.map (·.id)) with
  | .error e => return .error e
  | .ok attachments => return .ok (listView s lang rows attachments page totalPages total)

def buildListView (s : AppState) (page : Int) (lang : Lang) :
    Program Reply (Except DbError ListView) := do
  let pageSize := s.cfg.pageSize
  match ← AskDb.listRecords (max page 1) pageSize with
  | .error e => return .error e
  | .ok (rows, total) =>
      match totalPages? total pageSize with
      | none => Ask.panic
      | some totalPages =>
          let page := clamp page 1 totalPages
          if rows.isEmpty ∧ 1 < page then do
            -- requested page was beyond the end: fetch the clamped page
            match ← AskDb.listRecords page pageSize with
            | .error e => return .error e
            | .ok (rows, _) => showRows s lang page totalPages total rows
          else showRows s lang page totalPages total rows

structure PageQuery where
  page : Option Int

/-- GET /: the full page. -/
def index (s : AppState) (headers : HeaderMap) : Program Reply Response := do
  let lang := detectLang headers
  match ← buildListView s 1 lang with
  | .error _ => return internal
  | .ok view => return rendered s lang (.list view)

/-- GET /records: the list region. -/
def recordsPartial (s : AppState) (headers : HeaderMap) (q : PageQuery) :
    Program Reply Response := do
  let lang := detectLang headers
  match ← buildListView s (q.page.getD 1) lang with
  | .error _ => return internal
  | .ok view => return rendered s lang (.records view)

/-! ## The API list -/

structure ApiListQuery where
  page : Option Int
  pageSize : Option Int

def apiRecordSummary (s : AppState) (r : RecordRow) (atts : List AttachmentRow) :
    ApiRecordSummary :=
  match s.crypto.decrypt r.blob with
  | .ok (title, content) =>
      let (title, untitled) := displayTitle title content .en
      { id := r.id, title, untitled, snippet := snippet content, updatedAt := r.updatedAt
        attachmentCount := atts.length }
  | .error _ =>
      { id := r.id, title := "", untitled := false, snippet := "", updatedAt := r.updatedAt
        attachmentCount := atts.length }

def apiList (s : AppState) (rows : List RecordRow) (attachments : List AttachmentRow)
    (page pageSize totalPages total : Int) : ApiListResponse :=
  { records := withAttachments (apiRecordSummary s) (byRecord attachments) rows, page, pageSize
    total, totalPages }

def apiListRecords (s : AppState) (q : ApiListQuery) : Program Reply Response := do
  let pageSize := max (q.pageSize.getD s.cfg.pageSize) 1
  let page := max (q.page.getD 1) 1
  match ← AskDb.listRecords page pageSize with
  | .error _ => return jsonError .internalServerError "internal error"
  | .ok (rows, total) =>
      match totalPages? total pageSize with
      | none => Ask.panic
      | some totalPages => do
          match ← AskDb.attachmentsForRecords (rows.map (·.id)) with
          | .error _ => return jsonError .internalServerError "internal error"
          | .ok attachments =>
              let list := apiList s rows attachments (clamp page 1 totalPages) pageSize totalPages total
              return { status := .ok, headers := [("content-type", "application/json")]
                       body := .jsonList list }

/-! ## What they return -/

section Specs

variable {w w' : Store}

/-- Reading the store leaves it as it is, and returns what was read unless the database fails. -/
theorem answering_read {c : DbCall} {x r : Except DbError c.Val}
    (hread : w.db.exec c = x.map fun v => (v, w.db))
    (h : (answering Store.answer).next w (.db c) r w') : w' = w ∧ ∀ v, r = .ok v → x = .ok v := by
  rcases h with ⟨e, hans⟩
  rcases Store.answer_db hans with ⟨err, rfl, rfl, -⟩ | ⟨v, db, -, hexec, rfl, rfl⟩
  · exact ⟨rfl, by simp⟩
  · rw [hread] at hexec
    cases x with
    | error err => cases hexec
    | ok a =>
        cases hexec
        exact ⟨rfl, fun _ hv => hv⟩

theorem answering_listRecords {page pageSize : Int}
    {r : Except DbError (List RecordRow × Int)}
    (h : (answering Store.answer).next w (.db (.listRecords page pageSize)) r w') :
    w' = w ∧ ∀ v, r = .ok v → v = w.db.listRecords page pageSize := by
  have hread := answering_read (x := .ok (w.db.listRecords page pageSize)) rfl h
  exact ⟨hread.1, fun v hv => (Except.ok.inj (hread.2 v hv)).symm⟩

theorem answering_attachmentsForRecords {ids : List String}
    {r : Except DbError (List AttachmentRow)}
    (h : (answering Store.answer).next w (.db (.attachmentsForRecords ids)) r w') :
    w' = w ∧ ∀ rows, r = .ok rows → w.db.attachmentsForRecords ids = .ok rows := by
  have hexec : w.db.exec (.attachmentsForRecords ids) =
      (w.db.attachmentsForRecords ids).map fun rows => (rows, w.db) := by
    rw [Db.exec]
    cases w.db.attachmentsForRecords ids <;> rfl
  exact answering_read hexec h

/-- The rows that the web list shows: those of the requested page, or, if there are none and the
clamped page is not the first, those of the clamped page. -/
def shownRows (db : Db) (page pageSize totalPages : Int) : List RecordRow :=
  let rows := (db.listRecords (max page 1) pageSize).1
  if rows.isEmpty ∧ 1 < clamp page 1 totalPages then
    (db.listRecords (clamp page 1 totalPages) pageSize).1
  else rows

theorem wp_showRows (s : AppState) (lang : Lang) (page totalPages total : Int)
    (rows : List RecordRow) (w : Store) {Q : Except DbError ListView → Store → Prop}
    (herr : ∀ e, Q (.error e) w)
    (hok : ∀ attachments, w.db.attachmentsForRecords (rows.map (·.id)) = .ok attachments →
      Q (.ok (listView s lang rows attachments page totalPages total)) w) :
    wp (answering Store.answer) (showRows s lang page totalPages total rows) Q w := by
  simp only [showRows, wp_bind, wp_perform]
  refine ⟨trivial, fun r w₁ hr => ?_⟩
  rcases answering_attachmentsForRecords hr with ⟨rfl, hatts⟩
  cases r with
  | error e => exact herr e
  | ok attachments => exact hok attachments (hatts attachments rfl)

theorem wp_buildListView (s : AppState) (page : Int) (lang : Lang) (w : Store) :
    wp (answering Store.answer) (buildListView s page lang) (fun r _ => ∀ view, r = .ok view →
      ∃ totalPages attachments, totalPages? w.db.records.length s.cfg.pageSize = some totalPages ∧
        w.db.attachmentsForRecords
          ((shownRows w.db page s.cfg.pageSize totalPages).map (·.id)) = .ok attachments ∧
        view = listView s lang (shownRows w.db page s.cfg.pageSize totalPages) attachments
          (clamp page 1 totalPages) totalPages w.db.records.length) w := by
  simp only [buildListView, wp_bind, wp_perform]
  refine ⟨trivial, fun r w₁ hr => ?_⟩
  rcases answering_listRecords hr with ⟨rfl, hrows⟩
  cases r with
  | error e => rintro view ⟨⟩
  | ok v =>
      rcases v with ⟨rows, total⟩
      have hfst : rows = (w₁.db.listRecords (max page 1) s.cfg.pageSize).1 :=
        congrArg Prod.fst (hrows _ rfl)
      obtain rfl : total = w₁.db.records.length := congrArg Prod.snd (hrows _ rfl)
      dsimp only
      cases htotal : totalPages? w₁.db.records.length s.cfg.pageSize with
      | none => exact ⟨trivial, fun r => r.elim⟩
      | some totalPages =>
          dsimp only
          split_ifs with hempty
          · -- The page past the end: the rows of the last page are fetched instead.
            simp only [wp_bind, wp_perform]
            refine ⟨trivial, fun r w₂ hr => ?_⟩
            rcases answering_listRecords hr with ⟨rfl, hrows₂⟩
            cases r with
            | error e => rintro view ⟨⟩
            | ok v =>
                obtain rfl := hrows₂ v rfl
                refine wp_showRows s lang _ _ _ _ w₂ (by simp) fun attachments hatts => ?_
                rintro view ⟨⟩
                refine ⟨totalPages, attachments, rfl, ?_⟩
                rw [shownRows, ← hfst, if_pos hempty]
                exact ⟨hatts, rfl⟩
          · refine wp_showRows s lang _ _ _ _ w₁ (by simp) fun attachments hatts => ?_
            rintro view ⟨⟩
            refine ⟨totalPages, attachments, rfl, ?_⟩
            rw [shownRows, ← hfst, if_neg hempty]
            exact ⟨hatts, rfl⟩

theorem wp_apiListRecords (s : AppState) (page pageSize : Int) (w : Store) :
    wp (answering Store.answer)
      (apiListRecords s { page := some page, pageSize := some pageSize })
      (fun resp _ => ∀ list, resp.body = .jsonList list → ∃ totalPages attachments,
        totalPages? w.db.records.length (max pageSize 1) = some totalPages ∧
        w.db.attachmentsForRecords
          ((w.db.listRecords (max page 1) (max pageSize 1)).1.map (·.id)) = .ok attachments ∧
        list = apiList s (w.db.listRecords (max page 1) (max pageSize 1)).1 attachments
          (clamp (max page 1) 1 totalPages) (max pageSize 1) totalPages w.db.records.length) w := by
  simp only [apiListRecords, Option.getD_some, wp_bind, wp_perform]
  refine ⟨trivial, fun r w₁ hr => ?_⟩
  rcases answering_listRecords hr with ⟨rfl, hrows⟩
  cases r with
  | error e => rintro list ⟨⟩
  | ok v =>
      obtain rfl := hrows v rfl
      cases htotal : totalPages? w₁.db.records.length (max pageSize 1) with
      | none =>
          simp only [Db.listRecords, htotal]
          exact ⟨trivial, fun r => r.elim⟩
      | some totalPages =>
          simp only [Db.listRecords, htotal, wp_bind, wp_perform]
          refine ⟨trivial, fun r w₂ hr => ?_⟩
          rcases answering_attachmentsForRecords hr with ⟨rfl, hatts⟩
          cases r with
          | error e => rintro list ⟨⟩
          | ok attachments =>
              rintro list ⟨⟩
              exact ⟨totalPages, attachments, rfl, hatts attachments rfl, rfl⟩

end Specs

end Aardbin
