import Aardbin.Bin.Refinement
import Aardbin.Http.Router

/-!
# Every answer is computed from the bin

What pages, lists, the API and downloads return, in terms of the bin alone, while no call fails and
no number leaves its range.  With the refinement before it this says what a client sees of what
clients have done.
-/

namespace Aardbin

open Effect Rust

/-! ## What a bin shows -/

namespace Bin

/-- The row that an attachment has. -/
def row (u : String × Attachment) : AttachmentRow :=
  { id := u.1, recordId := u.2.recordId, originalFilename := u.2.filename
    sizeBytes := u.2.bytes.length, mimeType := u.2.mimeType, createdAt := u.2.createdAt }

def apiRecord (id : String) (r : Record) (fs : List (String × Attachment)) : ApiRecord :=
  { id, title := (displayTitle r.title r.content .en).1, content := r.content
    untitled := (displayTitle r.title r.content .en).2, updatedAt := r.updatedAt
    createdAt := r.createdAt
    attachments := (fs.map row).map fun a =>
      { id := a.id, originalFilename := a.originalFilename, sizeBytes := a.sizeBytes
        mimeType := a.mimeType } }

def summary (x : String × Record) (fs : List (String × Attachment)) : ApiRecordSummary :=
  { id := x.1, title := (displayTitle x.2.title x.2.content .en).1
    untitled := (displayTitle x.2.title x.2.content .en).2, snippet := snippet x.2.content
    updatedAt := x.2.updatedAt, attachmentCount := fs.length }

def card (s : AppState) (lang : Lang) (x : String × Record) (fs : List (String × Attachment)) :
    RecordView :=
  { id := x.1, title := (displayTitle x.2.title x.2.content lang).1
    untitled := (displayTitle x.2.title x.2.content lang).2, snippet := snippet x.2.content
    updatedTs := x.2.updatedAt, updatedText := formatTsUtc s.vendor x.2.updatedAt
    attachmentCount := fs.length, firstAttachmentName := (fs.head?.map (·.2.filename)).getD ""
    firstAttachmentId := (fs.head?.map Prod.fst).getD ""
    extraAttachments := max ((fs.length : Int) - 1) 0, undecryptable := false }

/-- The records, the latest first. -/
structure Orders (b : Bin) (rs : List (String × Record)) : Prop where
  sorted : rs.Pairwise fun x y =>
    y.2.updatedAt < x.2.updatedAt ∨ y.2.updatedAt = x.2.updatedAt ∧ y.1 < x.1
  mem : ∀ x, x ∈ rs ↔ b.records x.1 = some x.2

/-- The records on a page of the web list: on no page but the first if one page is enough. -/
def webPage (page pageSize : Int) (rs : List (String × Record)) : List (String × Record) :=
  if 2 ≤ page ∧ (rs.length : Int) ≤ pageSize then []
  else Paging.page pageSize.toNat (clamp page 1 (Paging.pageCount pageSize.toNat rs)).toNat rs

variable (b : Bin)

def AnswersRecord (id : String) (r : Except Response ApiRecord) : Prop :=
  match b.records id with
  | none => r = .error (jsonError .notFound "record not found")
  | some rec => ∃ fs, b.Lists id fs ∧ r = .ok (apiRecord id rec fs)

def AnswersForm (s : AppState) (lang : Lang) (id : String) (r : Except Response FormView) : Prop :=
  match b.records id with
  | none => r = .error recordNotFound
  | some rec => ∃ fs, b.Lists id fs ∧
      r = .ok (formView s lang id rec.title rec.content (fs.map row))

def AnswersCopy (id : String) (resp : Response) : Prop :=
  match b.records id with
  | none => resp = recordNotFound
  | some rec => resp.status = .ok ∧ resp.body = .text rec.content

def AnswersFile (id : String) (inline : Option String) (missing : Response)
    (r : Except Response Http.Download) : Prop :=
  match b.files id with
  | none => r = .error missing
  | some f => r = .ok (Http.download (row (id, f)) inline f.bytes)

/-- The page of the web list, in an order of all records. -/
def AnswersList (s : AppState) (page : Int) (view : ListView) : Prop :=
  ∃ rs, b.Orders rs ∧ view.total = rs.length ∧
    List.Forall₂ (fun x v => ∃ fs, b.Lists x.1 fs ∧ v = card s view.lang x fs)
      (webPage page s.cfg.pageSize rs) view.records

/-- The page of the API list; a query without a size asks for the size `pageSize`. -/
def AnswersApiList (pageSize : Int) (q : ApiListQuery) (list : ApiListResponse) : Prop :=
  ∃ rs, b.Orders rs ∧ list.total = rs.length ∧ list.pageSize = max (q.pageSize.getD pageSize) 1 ∧
    List.Forall₂ (fun x v => ∃ fs, b.Lists x.1 fs ∧ v = summary x fs)
      (Paging.page list.pageSize.toNat (max (q.page.getD 1) 1).toNat rs) list.records

/-- Every answer of the server is that of the bin, while no call fails and no number overflows. -/
structure Shown (s : Server) : Prop where
  record : ∀ id log w' r, Runs Store.answer s.store (apiGetRecord s.app id) log w' r →
    (∀ x ∈ log, x.env.fault = false) → b.AnswersRecord id r
  form : ∀ id headers log w' r, Runs Store.answer s.store (editForm s.app id headers) log w' r →
    (∀ x ∈ log, x.env.fault = false) → b.AnswersForm s.app (detectLang headers) id r
  copy : ∀ id log w' resp, Runs Store.answer s.store (Http.copyRecord s.app id) log w' resp →
    (∀ x ∈ log, x.env.fault = false) → b.AnswersCopy id resp
  file : ∀ (w : Http.World) id inline log w' r, w.server = s →
    Runs Http.World.answer w (Http.downloadAttachment id inline) log w' r →
    (∀ x ∈ log, x.env.store.fault = false) →
    b.AnswersFile id inline (errResponse .notFound "attachment not found") r
  apiFile : ∀ (w : Http.World) id inline log w' r, w.server = s →
    Runs Http.World.answer w (Http.apiDownloadAttachment id inline) log w' r →
    (∀ x ∈ log, x.env.store.fault = false) →
    b.AnswersFile id inline (jsonError .notFound "attachment not found") r
  list : ∀ page lang log w' view, 1 ≤ s.app.cfg.pageSize →
    I64.Fits ((max page 1 - 1) * s.app.cfg.pageSize) →
    I64.Fits (s.store.db.records.length + s.app.cfg.pageSize - 1) →
    Runs Store.answer s.store (buildListView s.app page lang) log w' (.ok view) →
    view.lang = lang ∧ b.AnswersList s.app page view
  apiList : ∀ q log w' resp list,
    I64.Fits ((max (q.page.getD 1) 1 - 1) * max (q.pageSize.getD s.app.cfg.pageSize) 1) →
    Runs Store.answer s.store (apiListRecords s.app q) log w' resp → resp.body = .jsonList list →
    b.AnswersApiList s.app.cfg.pageSize q list

end Bin

/-! ## What the rows show -/

section Reads

variable {s : AppState} {w w' : Store} {log : List (Asked Reply Env)}

theorem row_file {c : Crypto} (h : Sound c w) {a : AttachmentRow} (ha : a ∈ w.db.attachments) :
    Bin.row (file w a) = a := by
  rcases h.holds a ha with ⟨bytes, hbytes, hsize⟩
  simp [Bin.row, file, AttachmentRow.attachment, hbytes, ← hsize]

theorem map_row_files {c : Crypto} (h : Sound c w) (recordId : String) :
    ((w.db.listAttachments recordId).map (file w)).map Bin.row =
      w.db.listAttachments recordId := by
  rw [List.map_map]
  refine (List.map_congr_left fun a ha => ?_).trans (List.map_id' _)
  exact row_file h (mem_listAttachments.1 ha).1

theorem Sound.record {c : Crypto} (h : Sound c w) {row : RecordRow} (hrow : row ∈ w.db.records) :
    ∃ title content, c.decrypt row.blob = .ok (title, content) ∧
      (w.bin c).records row.id = some
        { title, content, createdAt := row.createdAt, updatedAt := row.updatedAt } := by
  rcases h.reads row hrow with ⟨⟨title, content⟩, hread⟩
  exact ⟨title, content, hread, records_bin.2 ⟨row, hrow, rfl, RecordRow.record?_eq _ hread⟩⟩

/-- A record that is looked up is not there, or can be read. -/
theorem Sound.getRecord {c : Crypto} (h : Sound c w) (id : String) :
    (w.db.getRecord id = none ∧ (w.bin c).records id = none) ∨
    ∃ row title content, w.db.getRecord id = some row ∧ row.id = id ∧
      c.decrypt row.blob = .ok (title, content) ∧ (w.bin c).records id = some
        { title, content, createdAt := row.createdAt, updatedAt := row.updatedAt } := by
  cases hrow : w.db.getRecord id with
  | none => exact .inl ⟨rfl, by simp [Store.bin, hrow]⟩
  | some row =>
      rcases Db.getRecord_eq_some.1 hrow with ⟨hmem, rfl⟩
      rcases h.record hmem with ⟨title, content, hread, hrec⟩
      exact .inr ⟨row, title, content, rfl, rfl, hread, hrec⟩

/-! ## Single records and files -/

/-- No call fails. -/
abbrev calmly : Protocol Reply Store :=
  answeringWhere (fun e _ => e.fault = false) Store.answer

/-- A read in a calm environment gets what is there. -/
theorem wp_read {α : Type} {c : DbCall} {v : c.Val} (hexec : w.db.exec c = .ok (v, w.db))
    {k : Except DbError c.Val → Program Reply α} {Q : α → Store → Prop}
    (h : wp calmly (k (.ok v)) Q w) : wp calmly (.perform (Call.db c) >>= k) Q w := by
  rw [wp_bind, wp_perform]
  refine ⟨trivial, ?_⟩
  rintro r w₁ ⟨e, hfault, hans⟩
  rcases Store.answer_db_calm hans hfault hexec with ⟨rfl, rfl⟩
  exact h

theorem apiGetRecord_shown (hsound : Sound s.crypto w) {id : String} {r : Except Response ApiRecord}
    (hrun : Runs Store.answer w (apiGetRecord s id) log w' r)
    (hcalm : ∀ x ∈ log, x.env.fault = false) : (w.bin s.crypto).AnswersRecord id r := by
  refine hrun.of_wpWhere (P := fun e _ => e.fault = false)
    (Q := fun r _ => (w.bin s.crypto).AnswersRecord id r) hcalm ?_
  unfold apiGetRecord
  refine wp_read rfl ?_
  rcases hsound.getRecord id with ⟨hrow, hnone⟩ | ⟨row, title, content, hrow, rfl, hread, hrec⟩
  · simp only [hrow, wp_pure, Bin.AnswersRecord, hnone]
  · simp only [hrow]
    refine wp_read rfl ?_
    simp only [wp_pure, Bin.AnswersRecord, hrec]
    refine ⟨_, lists_bin hsound row.id, ?_⟩
    simp only [decryptRecord, hread, Bin.apiRecord, map_row_files hsound]

theorem editForm_shown (hsound : Sound s.crypto w) {id : String} {headers : HeaderMap}
    {r : Except Response FormView} (hrun : Runs Store.answer w (editForm s id headers) log w' r)
    (hcalm : ∀ x ∈ log, x.env.fault = false) :
    (w.bin s.crypto).AnswersForm s (detectLang headers) id r := by
  refine hrun.of_wpWhere (P := fun e _ => e.fault = false)
    (Q := fun r _ => (w.bin s.crypto).AnswersForm s (detectLang headers) id r) hcalm ?_
  unfold editForm
  refine wp_read rfl ?_
  rcases hsound.getRecord id with ⟨hrow, hnone⟩ | ⟨row, title, content, hrow, rfl, hread, hrec⟩
  · simp only [hrow, wp_pure, Bin.AnswersForm, hnone]
  · simp only [hrow, hread]
    refine wp_read rfl ?_
    simp only [wp_pure, Bin.AnswersForm, hrec]
    exact ⟨_, lists_bin hsound row.id, by rw [map_row_files hsound]⟩

theorem copyRecord_shown (hsound : Sound s.crypto w) {id : String} {resp : Response}
    (hrun : Runs Store.answer w (Http.copyRecord s id) log w' resp)
    (hcalm : ∀ x ∈ log, x.env.fault = false) : (w.bin s.crypto).AnswersCopy id resp := by
  refine hrun.of_wpWhere (P := fun e _ => e.fault = false)
    (Q := fun resp _ => (w.bin s.crypto).AnswersCopy id resp) hcalm ?_
  unfold Http.copyRecord
  refine wp_read rfl ?_
  rcases hsound.getRecord id with ⟨hrow, hnone⟩ | ⟨row, title, content, hrow, rfl, hread, hrec⟩
  · simp only [hrow, wp_pure, Bin.AnswersCopy, hnone]
  · simp [hrow, hread, Bin.AnswersCopy, hrec]

theorem download_shown {c : Crypto} {w w' : Http.World} {log : List (Asked Http.Reply Http.Env)}
    (hsound : Sound c w.server.store) {id : String} {inline : Option String} {failed : Response}
    {missing : String → Response} {r : Except Response Http.Download}
    (hrun : Runs Http.World.answer w (Http.downloadWith id inline failed missing) log w' r)
    (hcalm : ∀ x ∈ log, x.env.store.fault = false) :
    (w.server.store.bin c).AnswersFile id inline (missing "attachment not found") r := by
  refine hrun.of_wpWhere (P := fun e _ => e.store.fault = false)
    (Q := fun r _ => (w.server.store.bin c).AnswersFile id inline (missing "attachment not found") r)
    hcalm ?_
  simp only [Http.downloadWith, wp_bind, wp_perform]
  refine ⟨trivial, ?_⟩
  rintro r w₁ ⟨e, hfault, hans⟩
  replace hans := (Server.answer_eq_some (Http.World.answer_store hans)).1
  rcases Store.answer_db_calm hans hfault rfl with ⟨rfl, hsame⟩
  cases hrow : w.server.store.db.getAttachment id with
  | none =>
      have hnone : (w.server.store.bin c).files id = none := by simp [Store.bin, hrow]
      simp only [wp_pure, Bin.AnswersFile, hnone]
  | some a =>
      rcases Db.getAttachment_eq_some.1 hrow with ⟨ha, rfl⟩
      rcases hsound.holds a ha with ⟨bytes, hbytes, hsize⟩
      have hfile : (w.server.store.bin c).files a.id = some (a.attachment bytes) :=
        files_bin.2 ⟨a, ha, rfl, bytes, hbytes, rfl⟩
      have hbytes₁ : w₁.server.store.files.attachments a.id = some bytes := by
        rw [hsame]
        exact hbytes
      simp only [wp_bind, wp_perform]
      refine ⟨trivial, ?_⟩
      rintro r w₂ ⟨e', hfault', hans'⟩
      simp only [Http.World.answer, Http.World.openFile, hfault', hbytes₁, Bool.false_eq_true,
        if_false, Option.some.injEq, Prod.mk.injEq] at hans'
      rcases hans' with ⟨rfl, -⟩
      simp only [wp_pure, Bin.AnswersFile, hfile]
      simp [Bin.row, AttachmentRow.attachment, ← hsize]

/-! ## Lists -/

/-- The record of a row. -/
def entry (c : Crypto) (row : RecordRow) : String × Bin.Record :=
  (row.id, (row.record? c).getD { title := "", content := "", createdAt := 0, updatedAt := 0 })

theorem Sound.entry {c : Crypto} (h : Sound c w) {row : RecordRow} (hrow : row ∈ w.db.records) :
    ∃ title content, c.decrypt row.blob = .ok (title, content) ∧ Aardbin.entry c row = (row.id,
      { title, content, createdAt := row.createdAt, updatedAt := row.updatedAt }) := by
  rcases h.reads row hrow with ⟨⟨title, content⟩, hread⟩
  exact ⟨title, content, hread, by simp [Aardbin.entry, RecordRow.record?_eq _ hread]⟩

theorem orders_bin {c : Crypto} (h : Sound c w) :
    (w.bin c).Orders (w.db.sortedRecords.map (entry c)) where
  sorted := by
    rw [List.pairwise_map]
    have hne := List.pairwise_map.1 w.db.sortedRecords_nodup
    refine (w.db.sortedRecords_pairwise.and hne).imp_of_mem ?_
    rintro a b ha hb ⟨hab, hid⟩
    rcases h.entry (w.db.sortedRecords_perm.subset ha) with ⟨_, _, -, hentry⟩
    rcases h.entry (w.db.sortedRecords_perm.subset hb) with ⟨_, _, -, hentry'⟩
    rw [hentry, hentry']
    rcases hab with hlt | ⟨heq, hle⟩
    · exact .inl hlt
    · exact .inr ⟨heq, lt_of_le_of_ne hle hid.symm⟩
  mem := by
    rintro ⟨id, r⟩
    rw [records_bin, List.mem_map]
    constructor
    · rintro ⟨row, hrow, heq⟩
      have hmem := w.db.sortedRecords_perm.subset hrow
      rcases h.entry hmem with ⟨title, content, hread, hentry⟩
      rw [hentry, Prod.mk.injEq] at heq
      rcases heq with ⟨rfl, rfl⟩
      exact ⟨row, hmem, rfl, RecordRow.record?_eq _ hread⟩
    · rintro ⟨row, hrow, rfl, hr⟩
      exact ⟨row, w.db.sortedRecords_perm.symm.subset hrow, by rw [entry, hr, Option.getD_some]⟩

theorem recordView_card (hsound : Sound s.crypto w) (lang : Lang) {row : RecordRow}
    (hrow : row ∈ w.db.records) : recordView s lang row (w.db.listAttachments row.id) =
      Bin.card s lang (entry s.crypto row) ((w.db.listAttachments row.id).map (file w)) := by
  rcases hsound.entry hrow with ⟨title, content, hread, hentry⟩
  have hhead : ∀ rows : List AttachmentRow,
      ((rows.map (file w)).head?.map fun u => u.2.filename) = rows.head?.map (·.originalFilename) ∧
      (rows.map (file w)).head?.map Prod.fst = rows.head?.map (·.id) := by
    intro rows
    cases rows <;> exact ⟨rfl, rfl⟩
  rcases hhead (w.db.listAttachments row.id) with ⟨hname, hid⟩
  simp only [recordView, hread, hentry, Bin.card, hname, hid, List.length_map]

theorem apiRecordSummary_bin (hsound : Sound s.crypto w) {row : RecordRow}
    (hrow : row ∈ w.db.records) : apiRecordSummary s row (w.db.listAttachments row.id) =
      Bin.summary (entry s.crypto row) ((w.db.listAttachments row.id).map (file w)) := by
  rcases hsound.entry hrow with ⟨title, content, hread, hentry⟩
  simp only [apiRecordSummary, hread, hentry, Bin.summary, List.length_map]

theorem page_map {α β : Type} (f : α → β) (size p : ℕ) (rows : List α) :
    Paging.page size p (rows.map f) = (Paging.page size p rows).map f := by
  simp only [Paging.page, List.map_take, List.map_drop]

theorem webPage_map {c : Crypto} (page pageSize : Int) (db : Db) :
    Bin.webPage page pageSize (db.sortedRecords.map (entry c)) =
      (webRows db page pageSize).map (entry c) := by
  have hcount : Paging.pageCount pageSize.toNat (db.sortedRecords.map (entry c)) =
      Paging.pageCount pageSize.toNat db.sortedRecords := by
    simp only [Paging.pageCount, List.length_map]
  simp only [Bin.webPage, webRows, hcount, page_map, List.length_map, db.length_sortedRecords]
  split_ifs <;> rfl

/-- Views of rows are views of the records of the bin. -/
theorem forall₂_views {α : Type} {view : RecordRow → List AttachmentRow → α}
    {shown : String × Bin.Record → List (String × Bin.Attachment) → α} {c : Crypto}
    (hsound : Sound c w)
    (hview : ∀ row ∈ w.db.records, view row (w.db.listAttachments row.id) =
      shown (entry c row) ((w.db.listAttachments row.id).map (file w))) {rows : List RecordRow}
    (hrows : ∀ row ∈ rows, row ∈ w.db.records) :
    List.Forall₂ (fun x v => ∃ fs, (w.bin c).Lists x.1 fs ∧ v = shown x fs)
      (rows.map (entry c)) (rows.map fun row => view row (w.db.listAttachments row.id)) := by
  rw [List.forall₂_map_left_iff, List.forall₂_map_right_iff, List.forall₂_same]
  intro row hrow
  exact ⟨_, lists_bin hsound row.id, hview row (hrows row hrow)⟩

theorem buildListView_shown (hsound : Sound s.crypto w) {page : Int} {lang : Lang}
    {view : ListView} (hsize : 1 ≤ s.cfg.pageSize)
    (hoffset : I64.Fits ((max page 1 - 1) * s.cfg.pageSize))
    (htotal : I64.Fits (w.db.records.length + s.cfg.pageSize - 1))
    (hrun : Runs Store.answer w (buildListView s page lang) log w' (.ok view)) :
    view.lang = lang ∧ (w.bin s.crypto).AnswersList s page view := by
  rcases hrun.of_wp (wp_buildListView s page lang w) view rfl with
    ⟨totalPages, attachments, htp, hatts, rfl⟩
  rw [totalPages?_eq hsize htotal] at htp
  obtain rfl := Option.some.inj htp
  rw [shownRows_eq hsize hoffset] at hatts ⊢
  refine ⟨rfl, _, orders_bin hsound, ?_, ?_⟩
  · rw [List.length_map, w.db.length_sortedRecords]
    rfl
  · rw [webPage_map, listView, (handsOut (webRows_nodup _ _ _) hatts).consumed _ _ rfl]
    refine forall₂_views hsound (fun row hrow => recordView_card hsound lang hrow) fun row hrow => ?_
    rw [webRows] at hrow
    split_ifs at hrow
    · cases hrow
    · exact w.db.sortedRecords_perm.subset (List.mem_of_mem_drop (List.mem_of_mem_take hrow))

theorem apiListRecords_shown (hsound : Sound s.crypto w) {q : ApiListQuery} {resp : Response}
    {list : ApiListResponse}
    (hoffset : I64.Fits ((max (q.page.getD 1) 1 - 1) * max (q.pageSize.getD s.cfg.pageSize) 1))
    (hrun : Runs Store.answer w (apiListRecords s q) log w' resp)
    (hresp : resp.body = .jsonList list) :
    (w.bin s.crypto).AnswersApiList s.cfg.pageSize q list := by
  -- The defaults of the query are filled in before anything is asked.
  have hquery : apiListRecords s q = apiListRecords s
      { page := some (q.page.getD 1), pageSize := some (q.pageSize.getD s.cfg.pageSize) } := rfl
  rw [hquery] at hrun
  rcases hrun.of_wp (wp_apiListRecords s _ _ w) list hresp with
    ⟨totalPages, attachments, -, hatts, rfl⟩
  rw [listRecords_fst w.db (le_max_right _ _) (le_max_right _ _) hoffset] at hatts ⊢
  refine ⟨_, orders_bin hsound, ?_, rfl, ?_⟩
  · rw [List.length_map, w.db.length_sortedRecords]
    rfl
  · rw [page_map, apiList, (handsOut (page_ids_nodup _ _ _) hatts).consumed _ _ rfl]
    refine forall₂_views hsound (fun row hrow => apiRecordSummary_bin hsound hrow) fun row hrow => ?_
    exact w.db.sortedRecords_perm.subset (List.mem_of_mem_drop (List.mem_of_mem_take hrow))

end Reads

theorem Sound.shown {s : Server} (h : Sound s.app.crypto s.store) :
    (s.store.bin s.app.crypto).Shown s where
  record := fun _ _ _ _ hrun hcalm => apiGetRecord_shown h hrun hcalm
  form := fun _ _ _ _ _ hrun hcalm => editForm_shown h hrun hcalm
  copy := fun _ _ _ _ hrun hcalm => copyRecord_shown h hrun hcalm
  file := by
    rintro w id inline log w' r rfl hrun hcalm
    exact download_shown h hrun hcalm
  apiFile := by
    rintro w id inline log w' r rfl hrun hcalm
    exact download_shown h hrun hcalm
  list := fun _ _ _ _ _ hsize hoffset htotal hrun =>
    buildListView_shown h hsize hoffset htotal hrun
  apiList := fun _ _ _ _ _ hoffset hrun hresp => apiListRecords_shown h hoffset hrun hresp

/-- In every state of every lifetime, all that is read is computed from the bin. -/
theorem reads_show_bin {app : AppState} {ps : List (Phase Reply Env Boot Request Response)}
    {s : Server} (hundoes : app.crypto.Undoes)
    (h : server.Lifetime { app, store := .empty } ps s)
    (hadmits : ∀ p ∈ ps, Admits app.cfg.cryptoKey p) : (s.store.bin app.crypto).Shown s := by
  rcases Server.Stands.of_lifetime hundoes h hadmits with ⟨a, -, -, -, hcrypto, hsound⟩
  rw [← hcrypto] at hsound ⊢
  exact hsound.shown

/-- A record that was created is shown after a restart. -/
theorem reads_show_bin_run : ∃ ps s log w' r,
    server.Lifetime { app := .plain, store := .empty } ps s ∧
    Runs Store.answer s.store (apiGetRecord s.app "r1") log w' (.ok r) ∧
    r.title = "a" ∧ r.content = "b" ∧
    (s.store.bin AppState.plain.crypto).AnswersRecord "r1" (.ok r) := by
  have hlife : ∃ ps s, server.Lifetime { app := .plain, store := .empty } ps s ∧
      (∀ p ∈ ps, Admits AppState.plain.cfg.cryptoKey p) ∧
      ((apiGetRecord s.app "r1").run Store.answer [{}, {}] s.store).any (fun x =>
        decide ((∀ y ∈ x.1, y.env.fault = false) ∧
          (x.2.2.toOption.map fun r => (r.title, r.content)) = some ("a", "b"))) = true := by
    refine Service.exists_lifetime
      [.inl (.create noHeaders (form "a" "b" [[1]]),
        [{ uuid := "f1" }, {}, {}, { uuid := "r1" }, {}, {}, {}, {}, {}]),
      .inr { cfg := AppState.plain.cfg, stuck := fun _ => false }] ?_
    decide
  rcases hlife with ⟨ps, s, hlife, hadmits, hread⟩
  have hshown : (s.store.bin AppState.plain.crypto).Shown s :=
    reads_show_bin (plain_undoes _) hlife hadmits
  have hget : ∃ log w' r, Runs Store.answer s.store (apiGetRecord s.app "r1") log w' r ∧
      (∀ x ∈ log, x.env.fault = false) ∧
        (r.toOption.map fun r => (r.title, r.content)) = some ("a", "b") :=
    exists_runs [{}, {}] hread
  rcases hget with ⟨log, w', r, hrun, hcalm, htext⟩
  cases r with
  | error resp => cases htext
  | ok r =>
      have htext' : (r.title, r.content) = ("a", "b") := Option.some.inj htext
      rcases Prod.mk.inj htext' with ⟨htitle, hcontent⟩
      exact ⟨ps, s, log, w', r, hlife, hrun, htitle, hcontent, hshown.record _ _ _ _ hrun hcalm⟩

end Aardbin
