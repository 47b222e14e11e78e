import Mathlib.Data.List.Sort
import Mathlib.Data.String.Basic
import Aardbin.Rust.Int64
import Aardbin.Vendor

/-!
# The SQLite store (`db.rs`)

The two tables of the schema are lists in insertion order.  The constraints that SQLite enforces
(`PRIMARY KEY`, and the foreign key of `attachments.record_id`) are fields of `Db`, so a store
that violates them cannot be built.  Every method is one atomic call: it runs under the mutex
around the connection.
-/

namespace Aardbin

open Rust

/-! ## Rows and constraints -/

structure RecordRow where
  id : String
  blob : Bytes
  createdAt : Int
  updatedAt : Int
  deriving DecidableEq, Repr

structure AttachmentRow where
  id : String
  recordId : String
  originalFilename : String
  sizeBytes : Int
  mimeType : String
  createdAt : Int
  deriving DecidableEq, Repr

inductive DbError
  | unique
  | foreignKey
  | tooManyVariables
  /-- any failure that is not the statement's own fault (I/O, a lock, a full disk) -/
  | unavailable
  deriving DecidableEq, Repr

@[ext]
structure Db where
  records : List RecordRow
  attachments : List AttachmentRow
  recordsKey : (records.map (·.id)).Nodup
  attachmentsKey : (attachments.map (·.id)).Nodup
  foreignKey : ∀ a ∈ attachments, a.recordId ∈ records.map (·.id)

namespace Db

def empty : Db :=
  { records := [], attachments := [], recordsKey := by simp, attachmentsKey := by simp
    foreignKey := by simp }

def recordIds (db : Db) : List String :=
  db.records.map (·.id)

def attachmentIds (db : Db) : List String :=
  db.attachments.map (·.id)

@[simp] theorem attachments_empty : empty.attachments = [] := rfl
@[simp] theorem recordIds_empty : empty.recordIds = [] := rfl

/-! ## Records -/

def createRecord (db : Db) (id : String) (blob : Bytes) (now : Int) : Except DbError Db :=
  if h : id ∈ db.recordIds then .error .unique
  else .ok
    { db with
      records := db.records ++ [{ id, blob, createdAt := now, updatedAt := now }]
      recordsKey := by
        have hrow : ∀ r ∈ db.records, r.id ≠ id := by
          intro r hr heq
          exact h (List.mem_map.2 ⟨r, hr, heq⟩)
        simpa [List.nodup_append, db.recordsKey] using hrow
      foreignKey := by
        intro a ha
        simpa using Or.inl (List.mem_map.1 (db.foreignKey a ha)) }

theorem createRecord_eq_ok {db db' : Db} {id : String} {blob : Bytes} {now : Int}
    (h : db.createRecord id blob now = .ok db') :
    id ∉ db.recordIds ∧
      db'.records = db.records ++ [{ id, blob, createdAt := now, updatedAt := now }] ∧
      db'.attachments = db.attachments := by
  unfold createRecord at h
  split at h
  · cases h
  · rename_i hid
    cases h
    exact ⟨hid, rfl, rfl⟩

theorem createRecord_eq_error {db : Db} {id : String} {blob : Bytes} {now : Int} {e : DbError}
    (h : db.createRecord id blob now = .error e) : id ∈ db.recordIds := by
  unfold createRecord at h
  split at h
  · assumption
  · cases h

/-- Apply `f` to the row of one record. -/
def modifyRecord (db : Db) (id : String) (f : RecordRow → RecordRow)
    (hf : ∀ r, (f r).id = r.id) : Db :=
  have hids : (db.records.map fun r => if r.id = id then f r else r).map (·.id) =
      db.records.map (·.id) := by
    rw [List.map_map]
    refine List.map_congr_left fun r _ => ?_
    simp only [Function.comp_apply]
    split <;> simp [hf]
  { db with
    records := db.records.map fun r => if r.id = id then f r else r
    recordsKey := hids ▸ db.recordsKey
    foreignKey := hids ▸ db.foreignKey }

@[simp] theorem attachments_modifyRecord (db : Db) (id : String) (f : RecordRow → RecordRow)
    (hf : ∀ r, (f r).id = r.id) : (db.modifyRecord id f hf).attachments = db.attachments := rfl

@[simp] theorem recordIds_modifyRecord (db : Db) (id : String) (f : RecordRow → RecordRow)
    (hf : ∀ r, (f r).id = r.id) : (db.modifyRecord id f hf).recordIds = db.recordIds := by
  simp only [modifyRecord, recordIds, List.map_map]
  refine List.map_congr_left fun r _ => ?_
  simp only [Function.comp_apply]
  split <;> simp [hf]

def updateRecord (db : Db) (id : String) (blob : Bytes) (now : Int) : Bool × Db :=
  (decide (id ∈ db.recordIds),
    db.modifyRecord id (fun r => { r with blob, updatedAt := now }) fun _ => rfl)

def touchRecord (db : Db) (id : String) (now : Int) : Db :=
  db.modifyRecord id (fun r => { r with updatedAt := now }) fun _ => rfl

/-- Deletes the record; attachment rows cascade.  Returns the attachment ids. -/
def deleteRecord (db : Db) (id : String) : Option (List String) × Db :=
  let ids := (db.attachments.filter fun a => a.recordId = id).map (·.id)
  (if id ∈ db.recordIds then some ids else none,
    { records := db.records.filter fun r => r.id ≠ id
      attachments := db.attachments.filter fun a => a.recordId ≠ id
      recordsKey := db.recordsKey.sublist (List.filter_sublist.map _)
      attachmentsKey := db.attachmentsKey.sublist (List.filter_sublist.map _)
      foreignKey := by
        intro a ha
        rcases List.mem_filter.1 ha with ⟨hmem, hne⟩
        rcases List.mem_map.1 (db.foreignKey a hmem) with ⟨r, hr, hid⟩
        refine List.mem_map.2 ⟨r, List.mem_filter.2 ⟨hr, ?_⟩, hid⟩
        simpa [hid] using hne })

theorem deleteRecord_eq_some {db db' : Db} {id : String} {ids : List String}
    (h : db.deleteRecord id = (some ids, db')) :
    id ∈ db.recordIds ∧ ids = (db.attachments.filter fun a => a.recordId = id).map (·.id) ∧
      db'.records = db.records.filter (fun r => r.id ≠ id) ∧
      db'.attachments = db.attachments.filter fun a => a.recordId ≠ id := by
  simp only [deleteRecord, Prod.mk.injEq] at h
  rcases h with ⟨hids, rfl⟩
  split_ifs at hids with hid
  exact ⟨hid, (Option.some.inj hids).symm, rfl, rfl⟩

/-- Deleting a record that does not exist changes nothing: no attachment can refer to it. -/
theorem deleteRecord_eq_none {db db' : Db} {id : String}
    (h : db.deleteRecord id = (none, db')) : id ∉ db.recordIds ∧ db' = db := by
  simp only [deleteRecord, Prod.mk.injEq] at h
  rcases h with ⟨hids, rfl⟩
  split_ifs at hids with hid
  -- The two filters keep every row: no record has the id, and no attachment refers to it.
  refine ⟨hid, Db.ext ?_ ?_⟩
  · refine List.filter_eq_self.2 fun r hr => ?_
    simp only [ne_eq, decide_not, Bool.not_eq_eq_eq_not, Bool.not_true, decide_eq_false_iff_not]
    rintro rfl
    exact hid (List.mem_map_of_mem hr)
  · refine List.filter_eq_self.2 fun a ha => ?_
    simp only [ne_eq, decide_not, Bool.not_eq_eq_eq_not, Bool.not_true, decide_eq_false_iff_not]
    rintro rfl
    exact hid (db.foreignKey a ha)

/-- Deleting a new record, with the attachments it got, undoes its creation. -/
theorem deleteRecord_back {db db' : Db} {id : String} {row : RecordRow} {rows : List AttachmentRow}
    (hid : id ∉ db.recordIds) (hrecords : db'.records = db.records ++ [row]) (hrow : row.id = id)
    (hatts : db'.attachments = db.attachments ++ rows) (hrows : ∀ a ∈ rows, a.recordId = id) :
    (db'.deleteRecord id).2 = db := by
  -- The id is new, so nothing from before belongs to it.
  have hold : ∀ r ∈ db.records, r.id ≠ id := by
    rintro r hr rfl
    exact hid (List.mem_map_of_mem hr)
  have hold' : ∀ a ∈ db.attachments, a.recordId ≠ id := by
    rintro a ha rfl
    exact hid (db.foreignKey a ha)
  refine Db.ext ?_ ?_
  · simp only [deleteRecord, hrecords, List.filter_append]
    rw [List.filter_eq_self.2 (by simpa using hold)]
    simp [hrow]
  · simp only [deleteRecord, hatts, List.filter_append]
    rw [List.filter_eq_self.2 (by simpa using hold'), List.filter_eq_nil_iff.2 (by simpa using hrows),
      List.append_nil]

def getRecord (db : Db) (id : String) : Option RecordRow :=
  db.records.find? fun r => r.id = id

theorem getRecord_of_mem {db : Db} {row : RecordRow} (h : row ∈ db.records) :
    db.getRecord row.id = some row := by
  unfold getRecord
  cases hfind : db.records.find? fun r => r.id = row.id with
  | none => simpa using List.find?_eq_none.1 hfind row h
  | some r =>
      have hid : r.id = row.id := by simpa using List.find?_some hfind
      exact congrArg some
        (List.inj_on_of_nodup_map db.recordsKey (List.mem_of_find?_eq_some hfind) h hid)

/-- The record just created is found. -/
theorem getRecord_createRecord {db db' : Db} {id : String} {blob : Bytes} {now : Int}
    (h : db.createRecord id blob now = .ok db') :
    db'.getRecord id = some { id, blob, createdAt := now, updatedAt := now } := by
  rcases createRecord_eq_ok h with ⟨hnew, hrecords, -⟩
  have hnone : db.records.find? (fun r => r.id = id) = none := by
    refine List.find?_eq_none.2 fun r hr hid => hnew ?_
    exact List.mem_map.2 ⟨r, hr, of_decide_eq_true hid⟩
  simp [getRecord, hrecords, List.find?_append, hnone]

/-- `ORDER BY updated_at DESC, id DESC`. -/
def RowBefore (a b : RecordRow) : Prop :=
  b.updatedAt < a.updatedAt ∨ (b.updatedAt = a.updatedAt ∧ b.id ≤ a.id)

instance : DecidableRel RowBefore := fun a b =>
  inferInstanceAs (Decidable (b.updatedAt < a.updatedAt ∨ _))

def sortedRecords (db : Db) : List RecordRow :=
  db.records.insertionSort RowBefore

/-- SQLite's `LIMIT ?1 OFFSET ?2`: a negative limit is no limit, a negative offset is none. -/
def limitOffset {α : Type} (limit offset : Int) (rows : List α) : List α :=
  let rest := rows.drop offset.toNat
  if limit < 0 then rest else rest.take limit.toNat

/-- Page is 1-based.  Returns the rows and the total count. -/
def listRecords (db : Db) (page pageSize : Int) : List RecordRow × Int :=
  let total : Int := db.records.length
  let offset := I64.mul (I64.sub (max page 1) 1) pageSize
  (limitOffset pageSize offset db.sortedRecords, total)

/-- Writing the old text and time back undoes an update. -/
theorem updateRecord_back {db db' : Db} {id : String} {row : RecordRow} {blob : Bytes} {now : Int}
    (hrow : db.getRecord id = some row) (h : db'.records = (db.updateRecord id blob now).2.records) :
    (db'.updateRecord id row.blob row.updatedAt).2.records = db.records := by
  have hmem : row ∈ db.records := List.mem_of_find?_eq_some hrow
  have hid : row.id = id := by simpa using List.find?_some hrow
  simp only [updateRecord, modifyRecord] at h ⊢
  rw [h, List.map_map]
  -- Row by row: only the row of `id` was changed, and ids are unique.
  have hback : ∀ r ∈ db.records, ((fun r => if r.id = id then
      { r with blob := row.blob, updatedAt := row.updatedAt } else r) ∘
        fun r => if r.id = id then { r with blob, updatedAt := now } else r) r = r := by
    intro r hr
    by_cases hr' : r.id = id
    · have heq : r = row := List.inj_on_of_nodup_map db.recordsKey hr hmem (hr'.trans hid.symm)
      simp [← hid, heq]
    · simp [hr']
  exact (List.map_congr_left hback).trans (List.map_id' _)

/-! ## Attachments -/

def insertAttachment (db : Db) (a : AttachmentRow) : Except DbError Db :=
  if hkey : a.id ∈ db.attachmentIds then .error .unique
  else if href : a.recordId ∈ db.recordIds then .ok
    { db with
      attachments := db.attachments ++ [a]
      attachmentsKey := by
        have hrow : ∀ b ∈ db.attachments, b.id ≠ a.id := by
          intro b hb heq
          exact hkey (List.mem_map.2 ⟨b, hb, heq⟩)
        simpa [List.nodup_append, db.attachmentsKey] using hrow
      foreignKey := by
        intro b hb
        rcases List.mem_append.1 hb with hb | hb
        · exact db.foreignKey b hb
        · rw [List.mem_singleton.1 hb]
          exact href }
  else .error .foreignKey

theorem insertAttachment_eq_ok {db db' : Db} {a : AttachmentRow}
    (h : db.insertAttachment a = .ok db') :
    a.id ∉ db.attachmentIds ∧ a.recordId ∈ db.recordIds ∧ db'.records = db.records ∧
      db'.attachments = db.attachments ++ [a] := by
  unfold insertAttachment at h
  split_ifs at h with hkey href
  cases h
  exact ⟨hkey, href, rfl, rfl⟩

theorem insertAttachment_eq_foreignKey {db : Db} {a : AttachmentRow}
    (h : db.insertAttachment a = .error .foreignKey) : a.recordId ∉ db.recordIds := by
  unfold insertAttachment at h
  split_ifs at h with hkey href
  · cases h
  · exact href

theorem insertAttachment_eq_error {db : Db} {a : AttachmentRow} {e : DbError}
    (h : db.insertAttachment a = .error e) : a.id ∈ db.attachmentIds ∨ a.recordId ∉ db.recordIds := by
  unfold insertAttachment at h
  split_ifs at h with hkey href
  · exact .inl hkey
  · exact .inr href

/-- `ORDER BY created_at ASC, id ASC`. -/
def AttachmentBefore (a b : AttachmentRow) : Prop :=
  a.createdAt < b.createdAt ∨ (a.createdAt = b.createdAt ∧ a.id ≤ b.id)

instance : DecidableRel AttachmentBefore := fun a b =>
  inferInstanceAs (Decidable (a.createdAt < b.createdAt ∨ _))

def getAttachment (db : Db) (id : String) : Option AttachmentRow :=
  db.attachments.find? fun a => a.id = id

def listAttachments (db : Db) (recordId : String) : List AttachmentRow :=
  (db.attachments.filter fun a => a.recordId = recordId).insertionSort AttachmentBefore

/-- SQLite's default limit on the bound parameters of one statement. -/
def maxVariables : Nat := 32766

def attachmentsForRecords (db : Db) (recordIds : List String) :
    Except DbError (List AttachmentRow) :=
  if recordIds = [] then .ok []
  else if maxVariables < recordIds.length then .error .tooManyVariables
  else .ok ((db.attachments.filter fun a => a.recordId ∈ recordIds).insertionSort AttachmentBefore)

/-- Deletes one attachment belonging to the given record.  Returns the row when it existed. -/
def deleteAttachment (db : Db) (recordId attachmentId : String) : Option AttachmentRow × Db :=
  (db.attachments.find? fun a => a.id = attachmentId ∧ a.recordId = recordId,
    { db with
      attachments :=
        db.attachments.filter fun a => ¬ (a.id = attachmentId ∧ a.recordId = recordId)
      attachmentsKey := db.attachmentsKey.sublist (List.filter_sublist.map _)
      foreignKey := fun a ha => db.foreignKey a (List.mem_filter.1 ha).1 })

theorem deleteAttachment_eq_some {db db' : Db} {recordId attachmentId : String}
    {row : AttachmentRow} (h : db.deleteAttachment recordId attachmentId = (some row, db')) :
    row ∈ db.attachments ∧ row.id = attachmentId ∧ row.recordId = recordId ∧
      db'.records = db.records ∧ db'.attachments =
        db.attachments.filter fun a => ¬ (a.id = attachmentId ∧ a.recordId = recordId) := by
  simp only [deleteAttachment, Prod.mk.injEq] at h
  rcases h with ⟨hrow, rfl⟩
  have hid := List.find?_some hrow
  simp only [decide_eq_true_eq] at hid
  exact ⟨List.mem_of_find?_eq_some hrow, hid.1, hid.2, rfl, rfl⟩

theorem deleteAttachment_eq_none {db db' : Db} {recordId attachmentId : String}
    (h : db.deleteAttachment recordId attachmentId = (none, db')) : db' = db := by
  simp only [deleteAttachment, Prod.mk.injEq] at h
  rcases h with ⟨hrow, rfl⟩
  refine Db.ext rfl ?_
  refine List.filter_eq_self.2 fun a ha => ?_
  have hne := List.find?_eq_none.1 hrow a ha
  simp only [decide_eq_true_eq] at hne ⊢
  exact hne

theorem eq_of_attachment_id {db : Db} {a b : AttachmentRow} (ha : a ∈ db.attachments)
    (hb : b ∈ db.attachments) (h : a.id = b.id) : a = b :=
  List.inj_on_of_nodup_map db.attachmentsKey ha hb h

theorem eq_of_record_id {db : Db} {a b : RecordRow} (ha : a ∈ db.records)
    (hb : b ∈ db.records) (h : a.id = b.id) : a = b :=
  List.inj_on_of_nodup_map db.recordsKey ha hb h

def allAttachmentIds (db : Db) : List String :=
  db.attachments.map (·.id)

end Db

end Aardbin
