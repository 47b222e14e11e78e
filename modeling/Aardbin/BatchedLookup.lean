import Aardbin.Reachability

/-!
# The attachments of a page, fetched at once

Both lists fetch the attachments of all their rows with one query and hand them out by record.
Each row gets what the query for this record alone would return, which is what its edit page shows.
-/

namespace Aardbin

open Effect Rust

/-! ## The order of the attachments -/

namespace Db

instance : Std.Total AttachmentBefore where
  total := by
    intro a b
    unfold AttachmentBefore
    rcases lt_trichotomy a.createdAt b.createdAt with h | h | h
    · exact .inl (.inl h)
    · rcases le_total a.id b.id with hid | hid
      · exact .inl (.inr ⟨h, hid⟩)
      · exact .inr (.inr ⟨h.symm, hid⟩)
    · exact .inr (.inl h)

instance : IsTrans AttachmentRow AttachmentBefore where
  trans := by
    intro a b c hab hbc
    rcases hab with hab | ⟨hab, hid⟩
    · rcases hbc with hbc | ⟨hbc, -⟩
      · exact .inl (hab.trans hbc)
      · exact .inl (hbc ▸ hab)
    · rcases hbc with hbc | ⟨hbc, hid'⟩
      · exact .inl (hab ▸ hbc)
      · exact .inr ⟨hab.trans hbc, hid.trans hid'⟩

/-- Of two different rows one is strictly before the other. -/
theorem eq_of_attachmentBefore {db : Db} {a b : AttachmentRow} (ha : a ∈ db.attachments)
    (hb : b ∈ db.attachments) (hab : AttachmentBefore a b) (hba : AttachmentBefore b a) :
    a = b := by
  refine eq_of_attachment_id ha hb ?_
  rcases hab with hlt | ⟨heq, hle⟩
  · rcases hba with hlt' | ⟨heq', -⟩ <;> omega
  · rcases hba with hlt' | ⟨-, hge⟩
    · omega
    · exact le_antisymm hle hge

/-- Rows picked from a sorted query are sorted as if they had been picked before. -/
theorem filter_insertionSort (db : Db) {p q : AttachmentRow → Bool}
    (h : ∀ a, q a = true → p a = true) :
    ((db.attachments.filter p).insertionSort AttachmentBefore).filter q =
      (db.attachments.filter q).insertionSort AttachmentBefore := by
  have hpick : (db.attachments.filter p).filter q = db.attachments.filter q := by
    rw [List.filter_filter]
    refine List.filter_congr fun a _ => ?_
    cases hq : q a with
    | false => rfl
    | true => simp [h a hq]
  have hperm : (((db.attachments.filter p).insertionSort AttachmentBefore).filter q).Perm
      ((db.attachments.filter q).insertionSort AttachmentBefore) := by
    have hfilter := (List.perm_insertionSort AttachmentBefore (db.attachments.filter p)).filter q
    rw [hpick] at hfilter
    exact hfilter.trans (List.perm_insertionSort _ _).symm
  -- Two sorted lists of the same rows are equal, since ids break the ties.
  refine hperm.eq_of_pairwise ?_ ((List.pairwise_insertionSort _ _).filter q)
    (List.pairwise_insertionSort _ _)
  intro a b ha hb
  have hmem : a ∈ db.attachments :=
    List.mem_of_mem_filter ((List.mem_insertionSort _).1 (List.mem_of_mem_filter ha))
  have hmem' : b ∈ db.attachments := List.mem_of_mem_filter ((List.mem_insertionSort _).1 hb)
  exact eq_of_attachmentBefore hmem hmem'

/-- What one record gets of the rows fetched for several. -/
theorem byRecord_eq_listAttachments {db : Db} {ids : List String}
    {attachments : List AttachmentRow} (h : db.attachmentsForRecords ids = .ok attachments)
    {id : String} (hid : id ∈ ids) : byRecord attachments id = db.listAttachments id := by
  unfold attachmentsForRecords at h
  split_ifs at h with hnil hmany
  · rw [hnil] at hid
    cases hid
  · cases h
    rw [byRecord_eq, listAttachments]
    refine filter_insertionSort db fun a ha => ?_
    rw [decide_eq_true_eq] at ha ⊢
    exact ha ▸ hid

end Db

/-- The rows fetched for `ids`, handed out by record, are those of the queries for each record. -/
structure HandsOut (db : Db) (ids : List String) (attachments : List AttachmentRow) : Prop where
  lookup : ∀ id ∈ ids, byRecord attachments id = db.listAttachments id
  consumed : ∀ {α : Type} (view : RecordRow → List AttachmentRow → α) (rows : List RecordRow),
    rows.map (·.id) = ids → withAttachments view (byRecord attachments) rows =
      rows.map fun r => view r (db.listAttachments r.id)

theorem handsOut {db : Db} {ids : List String} {attachments : List AttachmentRow}
    (hnodup : ids.Nodup) (h : db.attachmentsForRecords ids = .ok attachments) :
    HandsOut db ids attachments := by
  refine ⟨fun id hid => Db.byRecord_eq_listAttachments h hid, fun view rows hrows => ?_⟩
  subst hrows
  rw [withAttachments_eq view _ hnodup]
  refine List.map_congr_left fun r hr => ?_
  rw [Db.byRecord_eq_listAttachments h (List.mem_map_of_mem hr)]

/-! ## The lists and the edit page -/

section Pages

variable {s : AppState} {w w' : Store} {log : List (Asked Reply Env)}

theorem answering_getRecord {id : String} {r : Except DbError (Option RecordRow)}
    (h : (answering Store.answer).next w (.db (.getRecord id)) r w') : w' = w :=
  (answering_read (x := .ok (w.db.getRecord id)) rfl h).1

theorem answering_listAttachments {id : String} {r : Except DbError (List AttachmentRow)}
    (h : (answering Store.answer).next w (.db (.listAttachments id)) r w') :
    ∀ rows, r = .ok rows → rows = w.db.listAttachments id := by
  have hread := answering_read (x := .ok (w.db.listAttachments id)) rfl h
  exact fun rows hr => (Except.ok.inj (hread.2 rows hr)).symm

theorem wp_editForm (s : AppState) (id : String) (headers : HeaderMap) (w : Store) :
    wp (answering Store.answer) (editForm s id headers) (fun r _ => ∀ form, r = .ok form →
      form.attachments = (w.db.listAttachments id).map (attachmentView s.vendor)) w := by
  simp only [editForm, wp_bind, wp_perform]
  refine ⟨trivial, fun r w₁ hr => ?_⟩
  obtain rfl := answering_getRecord hr
  rcases r with err | _ | row
  · simp
  · simp
  · dsimp only
    split
    -- A record that does not decrypt has no form.
    · simp
    · simp only [wp_bind, wp_perform]
      refine ⟨trivial, fun r w₂ hr => ?_⟩
      have hrows := answering_listAttachments hr
      cases r with
      | error err => simp
      | ok rows =>
          rintro form ⟨⟩
          rw [hrows rows rfl]
          rfl

/-- The edit page of a record shows what the query for this record returns. -/
theorem EditAnswer.attachments {id : String} {headers : HeaderMap} {form : FormView}
    (h : EditAnswer s w id headers (.ok form)) :
    form.attachments = (w.db.listAttachments id).map (attachmentView s.vendor) := by
  rcases h.runs with ⟨log, hrun, -⟩
  exact hrun.of_wp (wp_editForm s id headers w) form rfl

/-- The card counts these attachments, and names the first of them. -/
structure Summarises (r : RecordView) (atts : List AttachmentView) : Prop where
  count : r.attachmentCount = atts.length
  firstName : r.firstAttachmentName = (atts.head?.map (·.originalFilename)).getD ""
  firstId : r.firstAttachmentId = (atts.head?.map (·.id)).getD ""
  extra : r.extraAttachments = max ((atts.length : Int) - 1) 0

theorem recordView_summarises (s : AppState) (lang : Lang) (row : RecordRow)
    (atts : List AttachmentRow) :
    Summarises (recordView s lang row atts) (atts.map (attachmentView s.vendor)) := by
  unfold recordView
  cases atts with
  | nil =>
      -- With no attachments the count minus one is negative, and is raised to zero.
      split
      · exact ⟨rfl, rfl, rfl, rfl⟩
      · exact ⟨rfl, rfl, rfl, rfl⟩
  | cons a rest =>
      have hlen : (((a :: rest).map (attachmentView s.vendor)).length : Int) = (a :: rest).length := by
        rw [List.length_map]
      split
      · exact ⟨hlen.symm, rfl, rfl, by rw [hlen]⟩
      · exact ⟨hlen.symm, rfl, rfl, by rw [hlen]⟩

/-- A card of the web list is that of a record with its own attachments. -/
theorem mem_buildListView {page : Int} {lang : Lang} {view : ListView}
    (hrun : Runs Store.answer w (buildListView s page lang) log w' (.ok view)) {r : RecordView}
    (hr : r ∈ view.records) :
    ∃ row ∈ w.db.records, r = recordView s lang row (w.db.listAttachments row.id) := by
  rcases hrun.of_wp (wp_buildListView s page lang w) view rfl with
    ⟨totalPages, attachments, -, hatts, rfl⟩
  have hsub := shownRows_sublist w.db page s.cfg.pageSize totalPages
  have hnodup := w.db.sortedRecords_nodup.sublist (hsub.map (·.id))
  rw [listView, (handsOut hnodup hatts).consumed _ _ rfl] at hr
  rcases List.mem_map.1 hr with ⟨row, hrow, rfl⟩
  exact ⟨row, w.db.sortedRecords_perm.subset (hsub.subset hrow), rfl⟩

theorem buildListView_summarises {page : Int} {lang : Lang} {view : ListView}
    (hrun : Runs Store.answer w (buildListView s page lang) log w' (.ok view)) :
    ∀ r ∈ view.records,
      Summarises r ((w.db.listAttachments r.id).map (attachmentView s.vendor)) := by
  intro r hr
  rcases mem_buildListView hrun hr with ⟨row, -, rfl⟩
  rw [recordView_id]
  exact recordView_summarises s lang row _

theorem listRecords_ids_nodup (db : Db) (page pageSize : Int) :
    ((db.listRecords page pageSize).1.map (·.id)).Nodup :=
  db.sortedRecords_nodup.sublist ((limitOffset_sublist _ _ _).map _)

/-- An entry of the API list is that of a record with its own attachments. -/
theorem mem_apiListRecords {q : ApiListQuery} {resp : Response} {list : ApiListResponse}
    (hrun : Runs Store.answer w (apiListRecords s q) log w' resp)
    (hresp : resp.body = .jsonList list) {r : ApiRecordSummary} (hr : r ∈ list.records) :
    ∃ row ∈ w.db.records, r = apiRecordSummary s row (w.db.listAttachments row.id) := by
  -- The defaults of the query are filled in before anything is asked.
  have hquery : apiListRecords s q = apiListRecords s
      { page := some (q.page.getD 1), pageSize := some (q.pageSize.getD s.cfg.pageSize) } := rfl
  rw [hquery] at hrun
  rcases hrun.of_wp (wp_apiListRecords s _ _ w) list hresp with
    ⟨totalPages, attachments, -, hatts, rfl⟩
  rw [apiList, (handsOut (listRecords_ids_nodup w.db _ _) hatts).consumed _ _ rfl] at hr
  rcases List.mem_map.1 hr with ⟨row, hrow, rfl⟩
  exact ⟨row, w.db.sortedRecords_perm.subset ((limitOffset_sublist _ _ _).subset hrow), rfl⟩

theorem apiListRecords_count {q : ApiListQuery} {resp : Response} {list : ApiListResponse}
    (hrun : Runs Store.answer w (apiListRecords s q) log w' resp)
    (hresp : resp.body = .jsonList list) :
    ∀ r ∈ list.records, r.attachmentCount = (w.db.listAttachments r.id).length := by
  intro r hr
  rcases mem_apiListRecords hrun hresp hr with ⟨row, -, rfl⟩
  have hcounts := apiRecordSummary_counts s row (w.db.listAttachments row.id)
  rw [Prod.mk.injEq] at hcounts
  rw [hcounts.1]
  omega

end Pages

/-- The one query for a page returns, record by record, what the query for each record does; so
the lists show of each record what its edit page shows. -/
theorem batched_lookup_agrees (s : AppState) (w : Store) :
    (∀ ids attachments, ids.Nodup → w.db.attachmentsForRecords ids = .ok attachments →
      HandsOut w.db ids attachments) ∧
    (∀ page lang log w' view, Runs Store.answer w (buildListView s page lang) log w' (.ok view) →
      ∀ r ∈ view.records,
        Summarises r ((w.db.listAttachments r.id).map (attachmentView s.vendor)) ∧
        ∀ headers form, EditAnswer s w r.id headers (.ok form) → Summarises r form.attachments) ∧
    ∀ q log w' resp list, Runs Store.answer w (apiListRecords s q) log w' resp →
      resp.body = .jsonList list → ∀ r ∈ list.records,
        r.attachmentCount = (w.db.listAttachments r.id).length ∧
        ∀ headers form, EditAnswer s w r.id headers (.ok form) →
          r.attachmentCount = form.attachments.length := by
  refine ⟨fun ids attachments => handsOut, ?_, ?_⟩
  · intro page lang log w' view hrun r hr
    have hsum := buildListView_summarises hrun r hr
    exact ⟨hsum, fun headers form hedit => hedit.attachments ▸ hsum⟩
  · intro q log w' resp list hrun hresp r hr
    have hcount := apiListRecords_count hrun hresp r hr
    refine ⟨hcount, fun headers form hedit => ?_⟩
    rw [hcount, hedit.attachments, List.length_map]

/-- The two attachments of the one record. -/
theorem batched_lookup_agrees_two : ∃ attachments log w' view log₂ w₂ list form,
    twoAttachments.db.attachmentsForRecords ["r1"] = .ok attachments ∧
    HandsOut twoAttachments.db ["r1"] attachments ∧
    Runs Store.answer twoAttachments (buildListView .plain 1 .en) log w' (.ok view) ∧
    Runs Store.answer twoAttachments (apiListRecords .plain { page := some 1, pageSize := some 2 })
      log₂ w₂ { status := .ok, headers := [("content-type", "application/json")]
                body := .jsonList list } ∧
    EditAnswer .plain twoAttachments "r1" noHeaders (.ok form) ∧
    (∀ r ∈ view.records, r.id = "r1" → Summarises r form.attachments) ∧
    ∀ r ∈ list.records, r.id = "r1" → r.attachmentCount = form.attachments.length := by
  rcases batched_lookup_agrees .plain twoAttachments with ⟨hrows, hweb, hapi⟩
  rcases twoAttachments_shown .plain (.inl rfl) with ⟨log, w', view, hview, -⟩
  have hoffset : I64.Fits ((max 1 1 - 1) * 2) := by decide
  rcases apiListRecords_returns (w := twoAttachments) .plain (by decide) hoffset (by decide)
    (by decide +kernel) with ⟨log₂, list, hlist⟩
  have hedit := @editForm_of_decrypts .plain twoAttachments (oneRecord.db.records.head (by decide))
    noHeaders "a" "b" rfl (plain_undoes _ Plain.nonce "a" "b")
  refine ⟨_, log, w', view, log₂, _, list, _, rfl, hrows ["r1"] _ (by decide) rfl, hview, hlist,
    hedit, ?_, ?_⟩
  · intro r hr hid
    refine (hweb _ _ _ _ _ hview r hr).2 noHeaders _ ?_
    rw [hid]
    exact hedit
  · intro r hr hid
    refine (hapi _ _ _ _ _ hlist rfl r hr).2 noHeaders _ ?_
    rw [hid]
    exact hedit

end Aardbin
