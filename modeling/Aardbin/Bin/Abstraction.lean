import Aardbin.BatchedLookup
import Aardbin.Bin.Spec

/-!
# The bin that a store holds

Rows are decrypted and joined with their files.  Each operation of the database is matched with an
operation of the bin.
-/

namespace Aardbin

open Effect

/-! ## The abstraction -/

def RecordRow.record? (c : Crypto) (row : RecordRow) : Option Bin.Record :=
  match c.decrypt row.blob with
  | .ok (title, content) =>
      some { title, content, createdAt := row.createdAt, updatedAt := row.updatedAt }
  | .error _ => none

def AttachmentRow.attachment (a : AttachmentRow) (bytes : Bytes) : Bin.Attachment :=
  { recordId := a.recordId, filename := a.originalFilename, mimeType := a.mimeType
    createdAt := a.createdAt, bytes }

def Store.bin (c : Crypto) (w : Store) : Bin where
  records := fun id => (w.db.getRecord id).bind (RecordRow.record? c)
  files := fun id =>
    (w.db.getAttachment id).bind fun a => (w.files.attachments id).map a.attachment

/-- Nothing is missing behind the rows: blobs can be read, and files are there in their size. -/
structure Sound (c : Crypto) (w : Store) : Prop where
  reads : ∀ row ∈ w.db.records, c.Reads row.blob
  holds : ∀ a ∈ w.db.attachments, ∃ bytes, w.files.attachments a.id = some bytes ∧
    a.sizeBytes = bytes.length

theorem Sound.empty (c : Crypto) : Sound c .empty :=
  ⟨by simp [Store.empty, Db.empty], by simp [Store.empty, Db.empty]⟩

section Abstraction

variable {c : Crypto} {w w' : Store}

theorem RecordRow.record?_eq (row : RecordRow) {title content : String}
    (h : c.decrypt row.blob = .ok (title, content)) : row.record? c =
      some { title, content, createdAt := row.createdAt, updatedAt := row.updatedAt } := by
  simp [record?, h]

theorem Db.getRecord_eq_some {db : Db} {id : String} {row : RecordRow} :
    db.getRecord id = some row ↔ row ∈ db.records ∧ row.id = id := by
  constructor
  · intro h
    exact ⟨List.mem_of_find?_eq_some h, by simpa using List.find?_some h⟩
  · rintro ⟨hrow, rfl⟩
    exact Db.getRecord_of_mem hrow

theorem Db.getAttachment_eq_some {db : Db} {id : String} {a : AttachmentRow} :
    db.getAttachment id = some a ↔ a ∈ db.attachments ∧ a.id = id := by
  constructor
  · intro h
    exact ⟨List.mem_of_find?_eq_some h, by simpa using List.find?_some h⟩
  · rintro ⟨ha, rfl⟩
    unfold getAttachment
    cases hfind : db.attachments.find? fun b => b.id = a.id with
    | none => simpa using List.find?_eq_none.1 hfind a ha
    | some b =>
        have hid : b.id = a.id := by simpa using List.find?_some hfind
        rw [Db.eq_of_attachment_id (List.mem_of_find?_eq_some hfind) ha hid]

theorem records_bin {id : String} {r : Bin.Record} : (w.bin c).records id = some r ↔
    ∃ row ∈ w.db.records, row.id = id ∧ row.record? c = some r := by
  simp only [Store.bin, Option.bind_eq_some_iff, Db.getRecord_eq_some, and_assoc]

theorem files_bin {id : String} {f : Bin.Attachment} : (w.bin c).files id = some f ↔
    ∃ a ∈ w.db.attachments, a.id = id ∧
      ∃ bytes, w.files.attachments id = some bytes ∧ f = a.attachment bytes := by
  simp only [Store.bin, Option.bind_eq_some_iff, Db.getAttachment_eq_some, and_assoc,
    Option.map_eq_some_iff, eq_comm (a := f)]

theorem Sound.records_eq_none (h : Sound c w) {id : String} :
    (w.bin c).records id = none ↔ id ∉ w.db.recordIds := by
  rw [← not_iff_not, ← ne_eq, Option.ne_none_iff_exists']
  simp only [records_bin, not_not, Db.recordIds, List.mem_map]
  constructor
  · rintro ⟨r, row, hrow, hid, -⟩
    exact ⟨row, hrow, hid⟩
  · rintro ⟨row, hrow, hid⟩
    rcases h.reads row hrow with ⟨⟨title, content⟩, hread⟩
    exact ⟨_, row, hrow, hid, RecordRow.record?_eq _ hread⟩

theorem files_eq_none {id : String} (h : id ∉ w.db.attachmentIds) :
    (w.bin c).files id = none := by
  refine Option.eq_none_iff_forall_ne_some.2 fun f hf => ?_
  rcases files_bin.1 hf with ⟨a, ha, rfl, -⟩
  exact h (List.mem_map_of_mem ha)

/-- Files without a row do not count. -/
theorem bin_congr (hdb : w'.db = w.db)
    (hfiles : ∀ a ∈ w.db.attachments, w'.files.attachments a.id = w.files.attachments a.id) :
    w'.bin c = w.bin c := by
  refine Bin.ext ?_ (funext fun id => Option.ext fun f => ?_)
  · simp only [Store.bin, hdb]
  · rw [files_bin, files_bin, hdb]
    refine exists_congr fun a => and_congr_right fun ha => and_congr_right fun hid => ?_
    rw [← hid, hfiles a ha]

theorem Sound.congr (h : Sound c w) (hdb : w'.db = w.db)
    (hfiles : ∀ a ∈ w.db.attachments, w'.files.attachments a.id = w.files.attachments a.id) :
    Sound c w' := by
  refine ⟨hdb ▸ h.reads, fun a ha => ?_⟩
  rw [hdb] at ha
  rw [hfiles a ha]
  exact h.holds a ha

/-! ## The operations of the database -/

/-- The rows of other records are left alone. -/
theorem bin_setRecord {id : String} (row' : RecordRow) {r : Bin.Record}
    (hmem : row' ∈ w'.db.records) (hid : row'.id = id) (hr : row'.record? c = some r)
    (hothers : ∀ row, row.id ≠ id → (row ∈ w'.db.records ↔ row ∈ w.db.records))
    (hatts : w'.db.attachments = w.db.attachments) (hfiles : w'.files = w.files) :
    w'.bin c = (w.bin c).setRecord id r := by
  refine Bin.ext (funext fun x => Option.ext fun r' => ?_) (funext fun x => Option.ext fun f => ?_)
  · by_cases hx : x = id
    · subst hx
      simp only [Bin.setRecord, Function.update_self, Store.bin, Option.bind_eq_some_iff]
      rw [Db.getRecord_eq_some.2 ⟨hmem, hid⟩]
      simp [hr]
    · simp only [Bin.setRecord, Function.update_of_ne hx]
      rw [records_bin, records_bin]
      refine exists_congr fun row => ?_
      constructor
      · rintro ⟨hrow, rfl, hr'⟩
        exact ⟨(hothers row hx).1 hrow, rfl, hr'⟩
      · rintro ⟨hrow, rfl, hr'⟩
        exact ⟨(hothers row hx).2 hrow, rfl, hr'⟩
  · rw [Bin.setRecord, files_bin, files_bin, hatts, hfiles]

theorem bin_createRecord {db : Db} {id : String} {blob : Bytes} {ts : Int} {title content : String}
    (h : w.db.createRecord id blob ts = .ok db) (hread : c.decrypt blob = .ok (title, content)) :
    ({ w with db } : Store).bin c =
      (w.bin c).setRecord id { title, content, createdAt := ts, updatedAt := ts } := by
  rcases Db.createRecord_eq_ok h with ⟨-, hrecords, hatts⟩
  refine bin_setRecord { id, blob, createdAt := ts, updatedAt := ts } ?_ rfl ?_ ?_ hatts rfl
  · simp [hrecords]
  · exact RecordRow.record?_eq _ hread
  · intro row hne
    have hrow : row ≠ { id, blob, createdAt := ts, updatedAt := ts } := by
      rintro rfl
      exact hne rfl
    simp [hrecords, hrow]

theorem mem_modifyRecord (db : Db) (id : String) (f : RecordRow → RecordRow)
    (hf : ∀ r, (f r).id = r.id) (row : RecordRow) : row ∈ (db.modifyRecord id f hf).records ↔
      ∃ old ∈ db.records, row = if old.id = id then f old else old := by
  simp only [Db.modifyRecord, List.mem_map, eq_comm]

theorem blob_updateRecord {db : Db} {id : String} {blob : Bytes} {ts : Int} {row : RecordRow}
    (h : row ∈ (db.updateRecord id blob ts).2.records) :
    row.blob = blob ∨ ∃ old ∈ db.records, row.blob = old.blob := by
  rcases (mem_modifyRecord db id (fun r => { r with blob, updatedAt := ts }) (fun _ => rfl) row).1 h
    with ⟨old, hold, rfl⟩
  split_ifs
  · exact .inl rfl
  · exact .inr ⟨old, hold, rfl⟩

/-- A change of the row of one record. -/
theorem bin_modifyRecord {id : String} {f : RecordRow → RecordRow} (hf : ∀ r, (f r).id = r.id)
    {row : RecordRow} {r : Bin.Record} (hrow : row ∈ w.db.records) (hid : row.id = id)
    (hr : (f row).record? c = some r) :
    ({ w with db := w.db.modifyRecord id f hf } : Store).bin c = (w.bin c).setRecord id r := by
  refine bin_setRecord (f row) ?_ ((hf row).trans hid) hr ?_ rfl rfl
  · exact (mem_modifyRecord _ _ _ hf _).2 ⟨row, hrow, by simp [hid]⟩
  · intro row' hne
    rw [mem_modifyRecord]
    constructor
    · rintro ⟨old, hold, rfl⟩
      split_ifs at hne ⊢ with h
      · exact absurd ((hf old).trans h) hne
      · exact hold
    · intro hrow'
      exact ⟨row', hrow', by simp [hne]⟩

theorem bin_updateRecord {id : String} {blob : Bytes} {ts : Int} {row : RecordRow} {r : Bin.Record}
    {title content : String} (hrow : w.db.getRecord id = some row) (hr : row.record? c = some r)
    (hread : c.decrypt blob = .ok (title, content)) :
    ({ w with db := (w.db.updateRecord id blob ts).2 } : Store).bin c =
      (w.bin c).setRecord id { r with title, content, updatedAt := ts } := by
  rcases Db.getRecord_eq_some.1 hrow with ⟨hmem, hid⟩
  refine bin_modifyRecord (f := fun row => { row with blob, updatedAt := ts }) (fun _ => rfl) hmem
    hid ?_
  rw [RecordRow.record?_eq { row with blob, updatedAt := ts } hread]
  unfold RecordRow.record? at hr
  split at hr
  · cases hr
    rfl
  · cases hr

theorem bin_touchRecord (h : Sound c w) {id : String} (hid : id ∈ w.db.recordIds) (ts : Int) :
    ({ w with db := w.db.touchRecord id ts } : Store).bin c = (w.bin c).touch id ts := by
  rcases List.mem_map.1 hid with ⟨row, hrow, rfl⟩
  rcases h.reads row hrow with ⟨⟨title, content⟩, hread⟩
  have hr : (w.bin c).records row.id = some
      { title, content, createdAt := row.createdAt, updatedAt := row.updatedAt } :=
    records_bin.2 ⟨row, hrow, rfl, RecordRow.record?_eq _ hread⟩
  have hset : ({ w with db := w.db.touchRecord row.id ts } : Store).bin c =
      (w.bin c).setRecord row.id { title, content, createdAt := row.createdAt, updatedAt := ts } :=
      bin_modifyRecord (f := fun row => { row with updatedAt := ts }) (fun _ => rfl) hrow rfl
      (RecordRow.record?_eq { row with updatedAt := ts } hread)
  rw [hset, Bin.touch, hr]
  rfl

/-- A record with all its rows goes; the files of these rows do not count any more. -/
theorem bin_deleteRecord {db : Db} {id : String} {ids : List String}
    (h : w.db.deleteRecord id = (some ids, db)) :
    ({ w with db } : Store).bin c = (w.bin c).deleteRecord id := by
  rcases Db.deleteRecord_eq_some h with ⟨-, -, hrecords, hatts⟩
  refine Bin.ext (funext fun x => Option.ext fun r => ?_) (funext fun x => Option.ext fun f => ?_)
  · rw [records_bin, hrecords]
    by_cases hx : x = id
    · subst hx
      simp only [Bin.deleteRecord, Function.update_self, reduceCtorEq, iff_false]
      rintro ⟨row, hrow, rfl, -⟩
      simp at hrow
    · simp only [Bin.deleteRecord, Function.update_of_ne hx, records_bin]
      refine exists_congr fun row => ?_
      constructor
      · rintro ⟨hrow, rfl, hr⟩
        exact ⟨(List.mem_filter.1 hrow).1, rfl, hr⟩
      · rintro ⟨hrow, rfl, hr⟩
        exact ⟨List.mem_filter.2 ⟨hrow, by simpa using hx⟩, rfl, hr⟩
  · rw [files_bin, hatts]
    simp only [Bin.deleteRecord, Option.filter_eq_some_iff, files_bin, List.mem_filter,
      decide_eq_true_eq]
    constructor
    · rintro ⟨a, ⟨ha, hne⟩, rfl, bytes, hbytes, rfl⟩
      exact ⟨⟨a, ha, rfl, bytes, hbytes, rfl⟩, hne⟩
    · rintro ⟨⟨a, ha, rfl, bytes, hbytes, rfl⟩, hne⟩
      exact ⟨a, ⟨ha, hne⟩, rfl, bytes, hbytes, rfl⟩

theorem bin_deleteAttachment {db : Db} {recordId id : String} {row : AttachmentRow}
    (h : w.db.deleteAttachment recordId id = (some row, db)) :
    ({ w with db } : Store).bin c = (w.bin c).deleteFile id := by
  rcases Db.deleteAttachment_eq_some h with ⟨hrow, rfl, rfl, hrecords, hatts⟩
  refine Bin.ext ?_ (funext fun x => Option.ext fun f => ?_)
  · funext x
    refine Option.ext fun r => ?_
    rw [records_bin, hrecords]
    exact records_bin.symm
  · rw [files_bin, hatts]
    by_cases hx : x = row.id
    · subst hx
      simp only [Bin.deleteFile, Function.update_self, reduceCtorEq, iff_false]
      rintro ⟨a, ha, hid, -⟩
      rcases List.mem_filter.1 ha with ⟨hmem, hne⟩
      rw [Db.eq_of_attachment_id hmem hrow hid] at hne
      simp at hne
    · simp only [Bin.deleteFile, Function.update_of_ne hx, files_bin]
      refine exists_congr fun a => ?_
      constructor
      · rintro ⟨ha, rfl, hbytes⟩
        exact ⟨(List.mem_filter.1 ha).1, rfl, hbytes⟩
      · rintro ⟨ha, rfl, hbytes⟩
        exact ⟨List.mem_filter.2 ⟨ha, by simp [hx]⟩, rfl, hbytes⟩

/-- The upload with the bytes of its file. -/
def upload (w : Store) (recordId : String) (ts : Int) (u : PendingUpload) :
    String × Bin.Attachment :=
  (u.id, (attachmentRow recordId ts u).attachment ((w.files.attachments u.id).getD []))

/-- Rows for files that are there. -/
theorem bin_addRows {us : List PendingUpload} {recordId : String} {ts : Int}
    (hnodup : (us.map (·.id)).Nodup) (hunlisted : ∀ u ∈ us, u.id ∉ w.db.attachmentIds)
    (hpresent : ∀ u ∈ us, w.files.attachments u.id ≠ none)
    (hrecords : w'.db.records = w.db.records)
    (hatts : w'.db.attachments = w.db.attachments ++ us.map (attachmentRow recordId ts))
    (hfiles : ∀ a ∈ w'.db.attachments, w'.files.attachments a.id = w.files.attachments a.id) :
    w'.bin c = (w.bin c).addFiles (us.map (upload w recordId ts)) := by
  have hkeys : (us.map (upload w recordId ts)).map Prod.fst = us.map (·.id) := by
    rw [List.map_map]
    rfl
  refine Bin.ext (funext fun x => Option.ext fun r => ?_) (funext fun x => Option.ext fun f => ?_)
  · rw [Bin.records_addFiles, records_bin, records_bin, hrecords]
  · rw [Bin.files_addFiles (hkeys ▸ hnodup), hkeys, files_bin, files_bin]
    constructor
    · rintro ⟨a, ha, rfl, bytes, hbytes, rfl⟩
      rw [hfiles a ha] at hbytes
      rw [hatts, List.mem_append, List.mem_map] at ha
      rcases ha with ha | ⟨u, hu, rfl⟩
      · refine .inr ⟨?_, a, ha, rfl, bytes, hbytes, rfl⟩
        intro hmem
        rcases List.mem_map.1 hmem with ⟨u, hu, hid⟩
        exact hunlisted u hu (hid ▸ List.mem_map_of_mem ha)
      · refine .inl (List.mem_map.2 ⟨u, hu, ?_⟩)
        have hbytes' : w.files.attachments u.id = some bytes := hbytes
        rw [upload, hbytes', Option.getD_some]
        rfl
    · rintro (hmem | ⟨-, a, ha, rfl, bytes, hbytes, rfl⟩)
      · rcases List.mem_map.1 hmem with ⟨u, hu, hx⟩
        rw [upload, Prod.mk.injEq] at hx
        rcases hx with ⟨rfl, rfl⟩
        rcases Option.ne_none_iff_exists'.1 (hpresent u hu) with ⟨bytes, hbytes⟩
        have hrow : attachmentRow recordId ts u ∈ w'.db.attachments := by
          rw [hatts]
          exact List.mem_append_right _ (List.mem_map_of_mem hu)
        refine ⟨_, hrow, rfl, bytes, ?_, by rw [hbytes, Option.getD_some]⟩
        exact (hfiles _ hrow).trans hbytes
      · have hrow : a ∈ w'.db.attachments := by
          rw [hatts]
          exact List.mem_append_left _ ha
        exact ⟨a, hrow, rfl, bytes, (hfiles a hrow).trans hbytes, rfl⟩

/-! ## The files of a record -/

/-- The row with the bytes of its file. -/
def file (w : Store) (a : AttachmentRow) : String × Bin.Attachment :=
  (a.id, a.attachment ((w.files.attachments a.id).getD []))

theorem mem_listAttachments {db : Db} {recordId : String} {a : AttachmentRow} :
    a ∈ db.listAttachments recordId ↔ a ∈ db.attachments ∧ a.recordId = recordId := by
  rw [Db.listAttachments, List.mem_insertionSort, List.mem_filter, decide_eq_true_eq]

theorem listAttachments_nodup (db : Db) (recordId : String) :
    ((db.listAttachments recordId).map (·.id)).Nodup := by
  refine ((List.perm_insertionSort _ _).map _).nodup_iff.2 ?_
  exact db.attachmentsKey.sublist (List.filter_sublist.map _)

/-- `list_attachments` gives the files of the record in their order. -/
theorem lists_bin (h : Sound c w) (recordId : String) :
    (w.bin c).Lists recordId ((w.db.listAttachments recordId).map (file w)) where
  sorted := by
    rw [List.pairwise_map]
    have hne := List.pairwise_map.1 (listAttachments_nodup w.db recordId)
    refine ((List.pairwise_insertionSort _ _).and hne).imp ?_
    rintro a b ⟨hlt | ⟨heq, hle⟩, hid⟩
    · exact .inl hlt
    · exact .inr ⟨heq, lt_of_le_of_ne hle hid⟩
  mem := by
    rintro ⟨id, f⟩
    rw [files_bin, List.mem_map]
    constructor
    · rintro ⟨a, ha, hfile⟩
      rcases mem_listAttachments.1 ha with ⟨hmem, hrecord⟩
      rcases h.holds a hmem with ⟨bytes, hbytes, -⟩
      rw [file, hbytes, Option.getD_some, Prod.mk.injEq] at hfile
      rcases hfile with ⟨rfl, rfl⟩
      exact ⟨⟨a, hmem, rfl, bytes, hbytes, rfl⟩, hrecord⟩
    · rintro ⟨⟨a, hmem, rfl, bytes, hbytes, rfl⟩, hrecord⟩
      refine ⟨a, mem_listAttachments.2 ⟨hmem, hrecord⟩, ?_⟩
      rw [file, hbytes, Option.getD_some]

theorem attachmentView_eq (h : Sound c w) (v : Vendor) (recordId : String) :
    (w.db.listAttachments recordId).map (attachmentView v) =
      ((w.db.listAttachments recordId).map (file w)).map (Bin.fileView v) := by
  rw [List.map_map]
  refine List.map_congr_left fun a ha => ?_
  rcases h.holds a (mem_listAttachments.1 ha).1 with ⟨bytes, hbytes, hsize⟩
  simp [attachmentView, Bin.fileView, file, AttachmentRow.attachment, hbytes, hsize]

end Abstraction

end Aardbin
