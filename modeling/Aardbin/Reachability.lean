import Aardbin.Pagination
import Aardbin.Templates

/-!
# What the pages lead to

A record card shows one attachment, and the edit page shows all of them.  A record that does not
decrypt has no edit page, and its card has no button to delete it either.
-/

namespace Aardbin

open Effect Rust Templates

/-! ## The edit page -/

def formView (s : AppState) (lang : Lang) (id title content : String)
    (attachments : List AttachmentRow) : FormView :=
  { lang, mode := .edit, action := s!"/records/{id}", id, title, content
    attachments := attachments.map (attachmentView s.vendor)
    maxAttachmentHuman := humanSize s.vendor (I64.wrap s.cfg.maxAttachmentBytes)
    maxAttachmentBytes := s.cfg.maxAttachmentBytes
    maxAttachments := maxAttachmentsPerRecord }

/-- The answer of `edit_form`, or the context that it renders. -/
def editForm (s : AppState) (id : String) (headers : HeaderMap) :
    Program Reply (Except Response FormView) := do
  let lang := detectLang headers
  match ← AskDb.getRecord id with
  | .error _ => return .error internal
  | .ok none => return .error recordNotFound
  | .ok (some row) =>
      match s.crypto.decrypt row.blob with
      | .error _ =>
          -- undecryptable records cannot be edited or overwritten
          return .error (errResponse .unprocessableEntity
            "Unable to decrypt this record; editing is disabled.")
      | .ok (title, content) =>
          match ← AskDb.listAttachments id with
          | .error _ => return .error internal
          | .ok attachments => return .ok (formView s lang id title content attachments)

/-- While the database answers, `edit_form` comes to this end and to no other. -/
structure EditAnswer (s : AppState) (w : Store) (id : String) (headers : HeaderMap)
    (r : Except Response FormView) : Prop where
  runs : ∃ log, Runs Store.answer w (editForm s id headers) log w r ∧ ∀ x ∈ log, x.env.fault = false
  unique : ∀ log w' r', Runs Store.answer w (editForm s id headers) log w' r' →
    (∀ x ∈ log, x.env.fault = false) → r' = r

section Edit

variable {s : AppState} {w : Store} {row : RecordRow} {headers : HeaderMap}

/-- A record that decrypts has an edit page with all its attachments. -/
theorem editForm_of_decrypts {title content : String} (hrow : w.db.getRecord row.id = some row)
    (hread : s.crypto.decrypt row.blob = .ok (title, content)) :
    EditAnswer s w row.id headers
      (.ok (formView s (detectLang headers) row.id title content
        (w.db.listAttachments row.id))) where
  runs := by
    have hget : Runs Store.answer w (AskDb.getRecord row.id)
        [⟨{}, .db (.getRecord row.id), .ok (some row)⟩] w (.ok (some row)) :=
      .perform (by simp [Store.answer, Db.exec, hrow])
    have hlist : Runs Store.answer w (AskDb.listAttachments row.id)
        [⟨{}, .db (.listAttachments row.id), .ok (w.db.listAttachments row.id)⟩] w
        (.ok (w.db.listAttachments row.id)) := .perform rfl
    refine ⟨[⟨{}, .db (.getRecord row.id), .ok (some row)⟩] ++
      ([⟨{}, .db (.listAttachments row.id), .ok (w.db.listAttachments row.id)⟩] ++ []),
      hget.bind ?_, by simp⟩
    simp only [hread]
    exact hlist.bind (.done _ _)
  unique := by
    intro log w' r' hrun hcalm
    refine hrun.of_wpWhere (P := fun e _ => e.fault = false)
      (Q := fun r _ => r = .ok (formView s (detectLang headers) row.id title content
        (w.db.listAttachments row.id))) hcalm ?_
    simp only [editForm, wp_bind, wp_perform]
    refine ⟨trivial, ?_⟩
    rintro r w₁ ⟨e, hfault, hans⟩
    rcases Store.answer_db_calm hans hfault rfl with ⟨rfl, rfl⟩
    -- The row is found and decrypts, so the attachments are asked for.
    simp only [hrow, hread, wp_bind, wp_perform]
    refine ⟨trivial, ?_⟩
    rintro r w₂ ⟨e', hfault', hans'⟩
    rcases Store.answer_db_calm hans' hfault' rfl with ⟨rfl, rfl⟩
    rfl

/-- A record that does not decrypt has no edit page. -/
theorem editForm_refused (hrow : w.db.getRecord row.id = some row)
    (hread : ∀ text, s.crypto.decrypt row.blob ≠ .ok text) {view : FormView} :
    ¬ EditAnswer s w row.id headers (.ok view) := by
  rintro ⟨⟨log, hrun, -⟩, -⟩
  have h : wp (answering Store.answer) (editForm s row.id headers)
      (fun r _ => ∀ view, r ≠ .ok view) w := by
    simp only [editForm, wp_bind, wp_perform]
    refine ⟨trivial, ?_⟩
    rintro r w₁ ⟨e, hans⟩
    rcases r with err | _ | row'
    · simp
    · simp
    · rcases Store.answer_db_ok hans with ⟨db, -, hexec, -⟩
      have hsame : w.db.getRecord row.id = some row' := (Prod.mk.inj (Except.ok.inj hexec)).1
      rw [hrow, Option.some.injEq] at hsame
      subst hsame
      cases hblob : s.crypto.decrypt row.blob with
      | ok text => exact absurd hblob (hread text)
      | error err => simp [hblob]
  exact hrun.of_wp h view rfl

end Edit

/-! ## The list page -/

section List

variable {s : AppState} {w w' : Store} {page : Int} {lang : Lang} {log : List (Asked Reply Env)}
  {view : ListView}

theorem limitOffset_sublist {α : Type} (limit offset : Int) (rows : List α) :
    (Db.limitOffset limit offset rows).Sublist rows := by
  unfold Db.limitOffset
  dsimp only
  split_ifs
  · exact List.drop_sublist _ _
  · exact (List.take_sublist _ _).trans (List.drop_sublist _ _)

theorem shownRows_sublist (db : Db) (page pageSize totalPages : Int) :
    (shownRows db page pageSize totalPages).Sublist db.sortedRecords := by
  unfold shownRows
  dsimp only
  split_ifs <;> exact limitOffset_sublist _ _ _

theorem mem_of_mem_byRecord {db : Db} {ids : List String} {attachments : List AttachmentRow}
    (h : db.attachmentsForRecords ids = .ok attachments) {id : String} {a : AttachmentRow}
    (ha : a ∈ byRecord attachments id) : a ∈ db.attachments ∧ a.recordId = id := by
  rw [byRecord_eq, List.mem_filter, decide_eq_true_eq] at ha
  refine ⟨?_, ha.2⟩
  unfold Db.attachmentsForRecords at h
  split_ifs at h
  · cases h
    cases ha.1
  · cases h
    exact List.mem_of_mem_filter ((List.mem_insertionSort _).1 ha.1)

/-- The list shows stored records, each with attachments of its own. -/
theorem buildListView_records
    (hrun : Runs Store.answer w (buildListView s page lang) log w' (.ok view)) :
    ∃ (rows : List RecordRow) (atts : String → List AttachmentRow),
      rows.Sublist w.db.sortedRecords ∧
      (∀ id, ∀ a ∈ atts id, a ∈ w.db.attachments ∧ a.recordId = id) ∧
      view.records = rows.map fun row => recordView s lang row (atts row.id) := by
  rcases hrun.of_wp (wp_buildListView s page lang w) view rfl with
    ⟨totalPages, attachments, -, hatts, rfl⟩
  have hsub := shownRows_sublist w.db page s.cfg.pageSize totalPages
  exact ⟨_, byRecord attachments, hsub, fun id a ha => mem_of_mem_byRecord hatts ha,
    withAttachments_eq _ _ (w.db.sortedRecords_nodup.sublist (hsub.map _))⟩

theorem recordView_id (s : AppState) (lang : Lang) (row : RecordRow) (atts : List AttachmentRow) :
    (recordView s lang row atts).id = row.id := by
  unfold recordView
  dsimp only
  split <;> rfl

theorem exists_row_of_mem_view
    (hrun : Runs Store.answer w (buildListView s page lang) log w' (.ok view)) {r : RecordView}
    (hr : r ∈ view.records) : ∃ row ∈ w.db.records, ∃ atts, r = recordView s lang row atts ∧
      ∀ a ∈ atts, a ∈ w.db.attachments ∧ a.recordId = row.id := by
  rcases buildListView_records hrun with ⟨rows, atts, hsub, hatts, hrecords⟩
  rw [hrecords] at hr
  rcases List.mem_map.1 hr with ⟨row, hrow, rfl⟩
  exact ⟨row, w.db.sortedRecords_perm.subset (hsub.subset hrow), _, rfl, hatts row.id⟩

theorem view_ids_nodup
    (hrun : Runs Store.answer w (buildListView s page lang) log w' (.ok view)) :
    (view.records.map (·.id)).Nodup := by
  rcases buildListView_records hrun with ⟨rows, atts, hsub, -, hrecords⟩
  have hids : view.records.map (·.id) = rows.map (·.id) := by
    rw [hrecords, List.map_map]
    exact List.map_congr_left fun row _ => recordView_id s lang row _
  rw [hids]
  exact w.db.sortedRecords_nodup.sublist (hsub.map _)

theorem recordView_undecryptable (s : AppState) (lang : Lang) (row : RecordRow)
    (atts : List AttachmentRow) : (recordView s lang row atts).undecryptable = false ↔
      ∃ text, s.crypto.decrypt row.blob = .ok text := by
  unfold recordView
  dsimp only
  split
  · rename_i title content hread
    exact iff_of_true rfl ⟨_, hread⟩
  · rename_i e hread
    simp [hread]

/-- The attachment with a link on the card is one of the record. -/
theorem recordView_first (s : AppState) (lang : Lang) (row : RecordRow)
    {atts : List AttachmentRow} (h : 0 < (recordView s lang row atts).attachmentCount) :
    ∃ a ∈ atts, (recordView s lang row atts).firstAttachmentId = a.id := by
  cases atts with
  | nil =>
      unfold recordView at h
      dsimp only at h
      split at h <;> cases h
  | cons a rest =>
      refine ⟨a, List.mem_cons_self, ?_⟩
      unfold recordView
      dsimp only
      split <;> rfl

end List

/-! ## Reachability -/

/-- The edit page of the record has a link to the attachment. -/
def LinkedOnEdit (s : AppState) (t : Lang → String → String) (w : Store)
    (recordId attachmentId : String) : Prop :=
  ∀ headers, ∃ view, EditAnswer s w recordId headers (.ok view) ∧
    (recordForm (t view.lang) view).has ("href", s!"/attachments/{attachmentId}") = true

/-- The attachment has a link on the list or on the edit page. -/
def Linked (s : AppState) (t : Lang → String → String) (w : Store) (view : ListView)
    (a : AttachmentRow) : Prop :=
  (recordsRegion (t view.lang) view).has ("href", s!"/attachments/{a.id}") = true ∨
    LinkedOnEdit s t w a.recordId a.id

/-- The list offers to delete the record, and all its attachments are linked. -/
structure Reachable (s : AppState) (t : Lang → String → String) (w : Store) (view : ListView)
    (id : String) : Prop where
  delete : (recordsRegion (t view.lang) view).has ("hx-post", s!"/records/{id}/delete") = true
  attachments : ∀ a ∈ w.db.attachments, a.recordId = id → Linked s t w view a

section Shown

variable {s : AppState} {w w' : Store} {page : Int} {lang : Lang} {log : List (Asked Reply Env)}
  {view : ListView}

/-- The list offers to delete those of the shown records that decrypt. -/
theorem delete_iff_decrypts (t : String → String)
    (hrun : Runs Store.answer w (buildListView s page lang) log w' (.ok view)) {row : RecordRow}
    (hrow : row ∈ w.db.records) (hshown : row.id ∈ view.records.map (·.id)) :
    (recordsRegion t view).has ("hx-post", s!"/records/{row.id}/delete") = true ↔
      ∃ text, s.crypto.decrypt row.blob = .ok text := by
  -- The card of the record is that of this row, since ids are unique.
  have hcard : ∀ r ∈ view.records, r.id = row.id →
      (r.undecryptable = false ↔ ∃ text, s.crypto.decrypt row.blob = .ok text) := by
    intro r hr hid
    rcases exists_row_of_mem_view hrun hr with ⟨row', hrow', atts, rfl, -⟩
    rw [recordView_id] at hid
    obtain rfl := List.inj_on_of_nodup_map w.db.recordsKey hrow' hrow hid
    exact recordView_undecryptable s lang row' atts
  rw [recordsRegion_delete]
  constructor
  · rintro ⟨r, hr, hid, hopen⟩
    exact (hcard r hr hid).1 hopen
  · intro hread
    rcases List.mem_map.1 hshown with ⟨r, hr, hid⟩
    exact ⟨r, hr, hid, (hcard r hr hid).2 hread⟩

/-- A record that the list shows is reachable, with its attachments, exactly when it decrypts. -/
theorem reachable_iff_decrypts (t : Lang → String → String)
    (hrun : Runs Store.answer w (buildListView s page lang) log w' (.ok view)) {row : RecordRow}
    (hrow : row ∈ w.db.records) (hshown : row.id ∈ view.records.map (·.id)) :
    Reachable s t w view row.id ↔ ∃ text, s.crypto.decrypt row.blob = .ok text := by
  have hdelete := delete_iff_decrypts (t view.lang) hrun hrow hshown
  constructor
  · exact fun h => hdelete.1 h.delete
  · rintro ⟨⟨title, content⟩, hread⟩
    refine ⟨hdelete.2 ⟨_, hread⟩, fun a ha hrecord => .inr fun headers => ?_⟩
    -- The edit page lists all attachments of the record.
    have hget : w.db.getRecord row.id = some row := Db.getRecord_of_mem hrow
    have hlisted : a ∈ w.db.listAttachments row.id := by
      simp [Db.listAttachments, List.mem_insertionSort, ha, hrecord]
    rw [hrecord]
    refine ⟨formView s (detectLang headers) row.id title content
      (w.db.listAttachments row.id), editForm_of_decrypts hget hread, ?_⟩
    exact recordForm_link (a := attachmentView s.vendor a) rfl (List.mem_map_of_mem hlisted)

/-- A record with two attachments. -/
def twoAttachments : Store :=
  let file (id : String) : PendingUpload :=
    { id, originalFilename := "a.bin", mimeType := "", size := 1 }
  { oneRecord with
    db :=
      { oneRecord.db with
        attachments := [attachmentRow "r1" 0 (file "a1"), attachmentRow "r1" 0 (file "a2")]
        attachmentsKey := by decide
        foreignKey := by simp [attachmentRow, oneRecord] } }

/-- A process that was started with another key than the one that encrypted `twoAttachments`. -/
def rekeyed : AppState :=
  { AppState.plain with
    cfg := { AppState.plain.cfg with cryptoKey := ⟨.replicate 32 8, rfl⟩ } }

/-- The first page of `twoAttachments` shows its record, under either key. -/
theorem twoAttachments_shown (s : AppState) (hs : s = .plain ∨ s = rekeyed) :
    ∃ log w' view, Runs Store.answer twoAttachments (buildListView s 1 .en) log w' (.ok view) ∧
      "r1" ∈ view.records.map (·.id) := by
  have hplay : ∃ log w' r, Runs Store.answer twoAttachments (buildListView s 1 .en) log w' r ∧
      ((r.toOption.any fun view => decide ("r1" ∈ view.records.map (·.id))) = true) := by
    rcases hs with rfl | rfl
    · exact exists_runs [{}, {}] (by decide +kernel)
    · exact exists_runs [{}, {}] (by decide +kernel)
  rcases hplay with ⟨log, w', r, hrun, hany⟩
  cases r with
  | error e => cases hany
  | ok view => exact ⟨log, w', view, hrun, of_decide_eq_true hany⟩

/-- With the right key the record and both its attachments are reachable. -/
theorem reachable_iff_decrypts_run : ∃ log w' view,
    Runs Store.answer twoAttachments (buildListView .plain 1 .en) log w' (.ok view) ∧
      Reachable .plain I18n.t twoAttachments view "r1" := by
  rcases twoAttachments_shown .plain (.inl rfl) with ⟨log, w', view, hrun, hshown⟩
  refine ⟨log, w', view, hrun, ?_⟩
  have hrow : oneRecord.db.records.head (by decide) ∈ twoAttachments.db.records := List.head_mem _
  exact (reachable_iff_decrypts I18n.t hrun hrow hshown).2 ⟨("a", "b"), plain_undoes _ _ _ _⟩

/-- With the wrong key the record cannot be deleted from the list. -/
theorem undecryptable_unreachable :
    ¬ ∀ (s : AppState) (t : Lang → String → String) (w w' : Store) (page : Int) (lang : Lang)
      (log : List (Asked Reply Env)) (view : ListView) (row : RecordRow),
      Runs Store.answer w (buildListView s page lang) log w' (.ok view) → row ∈ w.db.records →
      row.id ∈ view.records.map (·.id) → Reachable s t w view row.id := by
  intro hall
  rcases twoAttachments_shown rekeyed (.inr rfl) with ⟨log, w', view, hrun, hshown⟩
  have hrow : oneRecord.db.records.head (by decide) ∈ twoAttachments.db.records := List.head_mem _
  have hreach := hall rekeyed I18n.t _ _ _ _ _ _ _ hrun hrow hshown
  rcases (delete_iff_decrypts (I18n.t view.lang) hrun hrow hshown).1 hreach.delete with
    ⟨text, hread⟩
  have hwrong : (rekeyed.crypto.decrypt
      (oneRecord.db.records.head (by decide)).blob).isOk = false := by
    decide +kernel
  rw [hread] at hwrong
  cases hwrong

/-- Of the attachments of a record that does not decrypt, at most one is linked. -/
theorem linked_unique_of_undecryptable (t : Lang → String → String)
    (hrun : Runs Store.answer w (buildListView s page lang) log w' (.ok view)) {row : RecordRow}
    (hrow : row ∈ w.db.records) (hread : ∀ text, s.crypto.decrypt row.blob ≠ .ok text)
    {a b : AttachmentRow} (ha : a ∈ w.db.attachments) (hb : b ∈ w.db.attachments)
    (harow : a.recordId = row.id) (hbrow : b.recordId = row.id) (hla : Linked s t w view a)
    (hlb : Linked s t w view b) : a = b := by
  -- The edit page is refused, so the link is on a card, and that is the card of the record.
  have hfirst : ∀ {a : AttachmentRow}, a ∈ w.db.attachments → a.recordId = row.id →
      Linked s t w view a → ∃ r ∈ view.records, r.id = row.id ∧ a.id = r.firstAttachmentId := by
    intro a ha harow hlinked
    rcases hlinked with hlist | hedit
    · rcases recordsRegion_link.1 hlist with ⟨r, hr, hcount, hid⟩
      rcases exists_row_of_mem_view hrun hr with ⟨row', hrow', atts, rfl, hatts⟩
      rcases recordView_first s lang row' hcount with ⟨a', ha', hfirst⟩
      have hsame : a = a' :=
        List.inj_on_of_nodup_map w.db.attachmentsKey ha (hatts a' ha').1 (hid.trans hfirst)
      subst hsame
      exact ⟨_, hr, by rw [recordView_id, ← (hatts a ha').2, harow], hid⟩
    · rcases hedit noHeaders with ⟨form, hanswer, -⟩
      rw [harow] at hanswer
      exact absurd hanswer (editForm_refused (Db.getRecord_of_mem hrow) hread)
  rcases hfirst ha harow hla with ⟨r, hr, hid, hra⟩
  rcases hfirst hb hbrow hlb with ⟨r', hr', hid', hrb⟩
  obtain rfl : r = r' :=
    List.inj_on_of_nodup_map (view_ids_nodup hrun) hr hr' (hid.trans hid'.symm)
  exact List.inj_on_of_nodup_map w.db.attachmentsKey ha hb (hra.trans hrb.symm)

end Shown

end Aardbin
