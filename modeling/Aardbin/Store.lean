import Aardbin.Effect.Pool
import Aardbin.Config
import Aardbin.Crypto
import Aardbin.Db
import Aardbin.Files

/-!
# The calls a handler makes, and the store that answers them

`Call` lists every interaction of a handler with the world outside it: one constructor for each
`Db` method, for each `FileStore` method, and for the clock, the random generators and the
broadcast channel.  `Store.answer` is the world: given what the environment decides (`Env`), it
computes the reply and the next store.
-/

namespace Aardbin

open Effect

/-! ## The signature -/

inductive DbCall
  | createRecord (id : String) (blob : Bytes) (now : Int)
  | updateRecord (id : String) (blob : Bytes) (now : Int)
  | touchRecord (id : String) (now : Int)
  | deleteRecord (id : String)
  | getRecord (id : String)
  | listRecords (page pageSize : Int)
  | insertAttachment (a : AttachmentRow)
  | getAttachment (id : String)
  | listAttachments (recordId : String)
  | attachmentsForRecords (recordIds : List String)
  | deleteAttachment (recordId attachmentId : String)
  | allAttachmentIds
  deriving DecidableEq

@[reducible] def DbCall.Val : DbCall → Type
  | .createRecord _ _ _ => Unit
  | .updateRecord _ _ _ => Bool
  | .touchRecord _ _ => Unit
  | .deleteRecord _ => Option (List String)
  | .getRecord _ => Option RecordRow
  | .listRecords _ _ => List RecordRow × Int
  | .insertAttachment _ => Unit
  | .getAttachment _ => Option AttachmentRow
  | .listAttachments _ => List AttachmentRow
  | .attachmentsForRecords _ => List AttachmentRow
  | .deleteAttachment _ _ => Option AttachmentRow
  | .allAttachmentIds => List String

/-- The record that a call has written, and the blob it has written there. -/
def DbCall.wrote? : (c : DbCall) → c.Val → Option (String × Bytes)
  | .createRecord id blob _, _ => some (id, blob)
  | .updateRecord id blob _, true => some (id, blob)
  | _, _ => none

inductive FileCall
  | beginUpload
  | writeAll (id : String) (chunk : Bytes)
  | finalizeUpload (id : String)
  | abortUpload (id : String)
  | deleteAttachment (id : String)
  deriving DecidableEq

@[reducible] def FileCall.Reply : FileCall → Type
  | .beginUpload => Except IoError String
  | .writeAll _ _ => Except IoError Unit
  | .finalizeUpload _ => Except IoError Nat
  | .abortUpload _ => Unit
  | .deleteAttachment _ => Unit

inductive Call
  | db (c : DbCall)
  | file (c : FileCall)
  | newV4
  | now
  | nonce
  | send
  | panic
  deriving DecidableEq

@[reducible] def Reply : Call → Type
  | .db c => Except DbError c.Val
  | .file c => c.Reply
  | .newV4 => String
  | .now => Int
  | .nonce => Nonce
  | .send => Unit
  | .panic => Empty

def Call.wrote? : (op : Call) → Reply op → Option (String × Bytes)
  | .db c, .ok v => c.wrote? v
  | _, _ => none

/-- The record that a call has deleted. -/
def Call.deleted? : (op : Call) → Reply op → Option String
  | .db (.deleteRecord id), .ok (some _) => some id
  | _, _ => none

/-! ## The calls as programs -/

namespace AskDb

abbrev createRecord (id : String) (blob : Bytes) (now : Int) :
    Program Reply (Except DbError Unit) :=
  .perform (Call.db (.createRecord id blob now))

abbrev updateRecord (id : String) (blob : Bytes) (now : Int) :
    Program Reply (Except DbError Bool) :=
  .perform (Call.db (.updateRecord id blob now))

abbrev touchRecord (id : String) (now : Int) : Program Reply (Except DbError Unit) :=
  .perform (Call.db (.touchRecord id now))

abbrev deleteRecord (id : String) : Program Reply (Except DbError (Option (List String))) :=
  .perform (Call.db (.deleteRecord id))

abbrev getRecord (id : String) : Program Reply (Except DbError (Option RecordRow)) :=
  .perform (Call.db (.getRecord id))

abbrev listRecords (page pageSize : Int) :
    Program Reply (Except DbError (List RecordRow × Int)) :=
  .perform (Call.db (.listRecords page pageSize))

abbrev insertAttachment (a : AttachmentRow) : Program Reply (Except DbError Unit) :=
  .perform (Call.db (.insertAttachment a))

abbrev listAttachments (recordId : String) :
    Program Reply (Except DbError (List AttachmentRow)) :=
  .perform (Call.db (.listAttachments recordId))

abbrev attachmentsForRecords (recordIds : List String) :
    Program Reply (Except DbError (List AttachmentRow)) :=
  .perform (Call.db (.attachmentsForRecords recordIds))

abbrev deleteAttachment (recordId attachmentId : String) :
    Program Reply (Except DbError (Option AttachmentRow)) :=
  .perform (Call.db (.deleteAttachment recordId attachmentId))

end AskDb

namespace AskFiles

abbrev beginUpload : Program Reply (Except IoError String) :=
  .perform (Call.file .beginUpload)

abbrev writeAll (id : String) (chunk : Bytes) : Program Reply (Except IoError Unit) :=
  .perform (Call.file (.writeAll id chunk))

abbrev finalizeUpload (id : String) : Program Reply (Except IoError Nat) :=
  .perform (Call.file (.finalizeUpload id))

abbrev abortUpload (id : String) : Program Reply Unit :=
  .perform (Call.file (.abortUpload id))

abbrev deleteAttachment (id : String) : Program Reply Unit :=
  .perform (Call.file (.deleteAttachment id))

end AskFiles

namespace Ask

abbrev newV4 : Program Reply String := .perform Call.newV4
abbrev now : Program Reply Int := .perform Call.now
abbrev nonce : Program Reply Nonce := .perform Call.nonce
abbrev send : Program Reply Unit := .perform Call.send

/-- A Rust panic: the request never gets a reply. -/
def panic {α : Type} : Program Reply α := .ask Call.panic fun r => r.elim

end Ask

/-! ## The store -/

structure Store where
  db : Db
  files : FileStore
  /-- ghost: every id that `Uuid::new_v4` has handed out -/
  issued : List String

/-- What the environment decides at one call. -/
structure Env where
  /-- the call fails and has no effect -/
  fault : Bool := false
  uuid : String := ""
  now : Int := 0
  nonce : Nonce := ⟨List.replicate 12 0, rfl⟩

namespace Store

def empty : Store :=
  { db := .empty, files := .empty, issued := [] }

/-- No id like this exists, and none was ever handed out. -/
structure Fresh (w : Store) (id : String) : Prop where
  issued : id ∉ w.issued
  record : id ∉ w.db.recordIds
  attachment : id ∉ w.db.attachmentIds
  file : w.files.attachments id = none
  tmp : w.files.tmp id = none

theorem fresh_iff (w : Store) (id : String) :
    w.Fresh id ↔ id ∉ w.issued ∧ id ∉ w.db.recordIds ∧ id ∉ w.db.attachmentIds ∧
      w.files.attachments id = none ∧ w.files.tmp id = none :=
  ⟨fun h => ⟨h.1, h.2, h.3, h.4, h.5⟩, fun h => ⟨h.1, h.2.1, h.2.2.1, h.2.2.2.1, h.2.2.2.2⟩⟩

instance (w : Store) (id : String) : Decidable (w.Fresh id) :=
  decidable_of_iff _ (w.fresh_iff id).symm

end Store

def Db.exec (db : Db) : (c : DbCall) → Except DbError (c.Val × Db)
  | .createRecord id blob now =>
      match db.createRecord id blob now with
      | .error e => .error e
      | .ok db' => .ok ((), db')
  | .updateRecord id blob now => .ok (db.updateRecord id blob now)
  | .touchRecord id now => .ok ((), db.touchRecord id now)
  | .deleteRecord id => .ok (db.deleteRecord id)
  | .getRecord id => .ok (db.getRecord id, db)
  | .listRecords page pageSize => .ok (db.listRecords page pageSize, db)
  | .insertAttachment a =>
      match db.insertAttachment a with
      | .error e => .error e
      | .ok db' => .ok ((), db')
  | .getAttachment id => .ok (db.getAttachment id, db)
  | .listAttachments recordId => .ok (db.listAttachments recordId, db)
  | .attachmentsForRecords ids =>
      match db.attachmentsForRecords ids with
      | .error e => .error e
      | .ok rows => .ok (rows, db)
  | .deleteAttachment recordId attachmentId => .ok (db.deleteAttachment recordId attachmentId)
  | .allAttachmentIds => .ok (db.allAttachmentIds, db)

namespace Db

theorem of_exec_createRecord {db db' : Db} {id : String} {blob : Bytes} {now : Int} {v : Unit}
    (h : db.exec (.createRecord id blob now) = .ok (v, db')) :
    db.createRecord id blob now = .ok db' := by
  simp only [exec] at h
  split at h
  · cases h
  · rename_i db₁ hdb
    cases h
    exact hdb

theorem of_exec_createRecord_error {db : Db} {id : String} {blob : Bytes} {now : Int}
    {e : DbError} (h : db.exec (.createRecord id blob now) = .error e) : id ∈ db.recordIds := by
  simp only [exec] at h
  split at h
  · rename_i hdb
    exact createRecord_eq_error hdb
  · cases h

theorem of_exec_insertAttachment_error {db : Db} {a : AttachmentRow} {e : DbError}
    (h : db.exec (.insertAttachment a) = .error e) :
    a.id ∈ db.attachmentIds ∨ a.recordId ∉ db.recordIds := by
  simp only [exec] at h
  split at h
  · rename_i hdb
    exact insertAttachment_eq_error hdb
  · cases h

theorem of_exec_insertAttachment {db db' : Db} {a : AttachmentRow} {v : Unit}
    (h : db.exec (.insertAttachment a) = .ok (v, db')) : db.insertAttachment a = .ok db' := by
  simp only [exec] at h
  split at h
  · cases h
  · rename_i db₁ hdb
    cases h
    exact hdb

theorem of_exec_attachmentsForRecords {db db' : Db} {ids : List String} {v : List AttachmentRow}
    (h : db.exec (.attachmentsForRecords ids) = .ok (v, db')) :
    db.attachmentsForRecords ids = .ok v ∧ db' = db := by
  simp only [exec] at h
  split at h
  · cases h
  · rename_i rows hrows
    cases h
    exact ⟨hrows, rfl⟩

end Db

namespace Store

def answerFile (e : Env) (w : Store) : (c : FileCall) → Option (c.Reply × Store)
  | .beginUpload =>
      if e.fault then some (.error .other, w)
      else if w.Fresh e.uuid then
        some (.ok e.uuid,
          { w with files := w.files.beginUpload e.uuid, issued := e.uuid :: w.issued })
      else none
  | .writeAll id chunk =>
      if e.fault then some (.error .other, w)
      else some (.ok (), { w with files := w.files.writeAll id chunk })
  | .finalizeUpload id =>
      if e.fault then some (.error .other, w)
      else
        match w.files.finalizeUpload id with
        | .error err => some (.error err, w)
        | .ok (size, files) => some (.ok size, { w with files })
  | .abortUpload id =>
      if e.fault then some ((), w)
      else some ((), { w with files := w.files.abortUpload id })
  | .deleteAttachment id =>
      if e.fault then some ((), w)
      else some ((), { w with files := w.files.deleteAttachment id })

def answer (e : Env) (w : Store) : (op : Call) → Option (Reply op × Store)
  | .db c =>
      if e.fault then some (.error .unavailable, w)
      else
        match w.db.exec c with
        | .error err => some (.error err, w)
        | .ok (v, db) => some (.ok v, { w with db })
  | .file c => w.answerFile e c
  | .newV4 =>
      if w.Fresh e.uuid then some (e.uuid, { w with issued := e.uuid :: w.issued }) else none
  | .now => some (e.now, w)
  | .nonce => some (e.nonce, w)
  | .send => some ((), w)
  | .panic => none

section FileCalls

variable {e : Env} {w w' : Store} {id : String}

/-- A new upload gets a fresh id. -/
theorem answer_beginUpload {r : Except IoError String}
    (h : w.answerFile e .beginUpload = some (r, w')) :
    (r = .error .other ∧ w' = w ∧ e.fault = true) ∨
      ∃ id, r = .ok id ∧ w.Fresh id ∧
        w' = { w with files := w.files.beginUpload id, issued := id :: w.issued } := by
  simp only [answerFile] at h
  split_ifs at h with hfault hfresh
  · cases h
    exact .inl ⟨rfl, rfl, hfault⟩
  · cases h
    exact .inr ⟨e.uuid, rfl, hfresh, rfl⟩

theorem answer_writeAll {chunk : Bytes} {r : Except IoError Unit}
    (h : w.answerFile e (.writeAll id chunk) = some (r, w')) :
    (r = .error .other ∧ w' = w ∧ e.fault = true) ∨
      (r = .ok () ∧ w' = { w with files := w.files.writeAll id chunk }) := by
  simp only [answerFile] at h
  split_ifs at h with hfault
  · cases h
    exact .inl ⟨rfl, rfl, hfault⟩
  · cases h
    exact .inr ⟨rfl, rfl⟩

/-- Only an upload that has a temp file is finished. -/
theorem answer_finalizeUpload {r : Except IoError Nat}
    (h : w.answerFile e (.finalizeUpload id) = some (r, w')) :
    (∃ err, r = .error err ∧ w' = w ∧ (e.fault = true ∨ w.files.tmp id = none)) ∨
      ∃ bytes, w.files.tmp id = some bytes ∧ r = .ok bytes.length ∧
        w' =
          { w with
            files :=
              { attachments := Function.update w.files.attachments id (some bytes)
                tmp := Function.update w.files.tmp id none } } := by
  simp only [answerFile] at h
  split_ifs at h with hfault
  · cases h
    exact .inl ⟨_, rfl, rfl, .inl hfault⟩
  · cases htmp : w.files.tmp id with
    | none =>
        simp only [FileStore.finalizeUpload, htmp] at h
        cases h
        exact .inl ⟨_, rfl, rfl, .inr rfl⟩
    | some bytes =>
        simp only [FileStore.finalizeUpload, htmp] at h
        cases h
        exact .inr ⟨bytes, rfl, rfl, rfl⟩

theorem answer_abortUpload {r : Unit} (h : w.answerFile e (.abortUpload id) = some (r, w')) :
    (w' = w ∧ e.fault = true) ∨ w' = { w with files := w.files.abortUpload id } := by
  simp only [answerFile] at h
  split_ifs at h with hfault
  · cases h
    exact .inl ⟨rfl, hfault⟩
  · cases h
    exact .inr rfl

theorem answer_abortUpload_calm {r : Unit} (h : w.answerFile e (.abortUpload id) = some (r, w'))
    (hfault : e.fault = false) : w' = { w with files := w.files.abortUpload id } := by
  simpa [hfault] using answer_abortUpload h

theorem answer_deleteAttachment {r : Unit}
    (h : w.answerFile e (.deleteAttachment id) = some (r, w')) :
    (w' = w ∧ e.fault = true) ∨ w' = { w with files := w.files.deleteAttachment id } := by
  simp only [answerFile] at h
  split_ifs at h with hfault
  · cases h
    exact .inl ⟨rfl, hfault⟩
  · cases h
    exact .inr rfl

theorem answer_deleteAttachment_calm {r : Unit}
    (h : w.answerFile e (.deleteAttachment id) = some (r, w')) (hfault : e.fault = false) :
    w' = { w with files := w.files.deleteAttachment id } := by
  simpa [hfault] using answer_deleteAttachment h

theorem db_answerFile {c : FileCall} {r : c.Reply} (h : w.answerFile e c = some (r, w')) :
    w'.db = w.db := by
  cases c with
  | beginUpload => rcases answer_beginUpload h with ⟨-, rfl, -⟩ | ⟨_, -, -, rfl⟩ <;> rfl
  | writeAll id chunk => rcases answer_writeAll h with ⟨-, rfl, -⟩ | ⟨-, rfl⟩ <;> rfl
  | finalizeUpload id =>
      rcases answer_finalizeUpload h with ⟨_, -, rfl, -⟩ | ⟨_, -, -, rfl⟩ <;> rfl
  | abortUpload id => rcases answer_abortUpload h with ⟨rfl, -⟩ | rfl <;> rfl
  | deleteAttachment id => rcases answer_deleteAttachment h with ⟨rfl, -⟩ | rfl <;> rfl

end FileCalls

/-- A database call fails and changes nothing, or executes. -/
theorem answer_db {e : Env} {w w' : Store} {c : DbCall} {r : Except DbError c.Val}
    (h : w.answer e (.db c) = some (r, w')) :
    (∃ err, r = .error err ∧ w' = w ∧ (e.fault = true ∨ w.db.exec c = .error err)) ∨
    ∃ v db, e.fault = false ∧ w.db.exec c = .ok (v, db) ∧ r = .ok v ∧ w' = { w with db } := by
  cases hf : e.fault with
  | true =>
      simp only [answer, hf, if_true, Option.some.injEq, Prod.mk.injEq] at h
      exact .inl ⟨_, h.1.symm, h.2.symm, .inl rfl⟩
  | false =>
      cases hx : w.db.exec c with
      | error err =>
          simp only [answer, hf, hx, Bool.false_eq_true, if_false, Option.some.injEq,
            Prod.mk.injEq] at h
          exact .inl ⟨err, h.1.symm, h.2.symm, .inr rfl⟩
      | ok vd =>
          rcases vd with ⟨v, db⟩
          simp only [answer, hf, hx, Bool.false_eq_true, if_false, Option.some.injEq,
            Prod.mk.injEq] at h
          exact .inr ⟨v, db, rfl, rfl, h.1.symm, h.2.symm⟩

theorem answer_newV4 {e : Env} {w w' : Store} {id : String}
    (h : w.answer e .newV4 = some (id, w')) :
    w.Fresh id ∧ w' = { w with issued := id :: w.issued } := by
  simp only [answer] at h
  split_ifs at h with hfresh
  cases h
  exact ⟨hfresh, rfl⟩

theorem answer_db_error {e : Env} {w w' : Store} {c : DbCall} {err : DbError}
    (h : w.answer e (.db c) = some (.error err, w')) :
    w' = w ∧ (e.fault = true ∨ w.db.exec c = .error err) := by
  rcases answer_db h with ⟨err', hr, rfl, hwhy⟩ | ⟨v, db, -, -, hr, -⟩
  · cases hr
    exact ⟨rfl, hwhy⟩
  · cases hr

theorem answer_db_ok {e : Env} {w w' : Store} {c : DbCall} {v : c.Val}
    (h : w.answer e (.db c) = some (.ok v, w')) :
    ∃ db, e.fault = false ∧ w.db.exec c = .ok (v, db) ∧ w' = { w with db } := by
  rcases answer_db h with ⟨err', hr, -⟩ | ⟨v', db, hfault, hexec, hr, hw⟩
  · cases hr
  · cases hr
    exact ⟨db, hfault, hexec, hw⟩

/-- Without a fault a call does what it does. -/
theorem answer_db_calm {e : Env} {w w' : Store} {c : DbCall} {x : c.Val × Db}
    {r : Except DbError c.Val} (h : w.answer e (.db c) = some (r, w')) (hfault : e.fault = false)
    (hexec : w.db.exec c = .ok x) : r = .ok x.1 ∧ w' = { w with db := x.2 } := by
  rcases answer_db h with ⟨err, -, -, hf | herr⟩ | ⟨v', db', -, hexec', rfl, rfl⟩
  · rw [hfault] at hf
    cases hf
  · rw [hexec] at herr
    cases herr
  · rw [hexec] at hexec'
    cases hexec'
    exact ⟨rfl, rfl⟩

/-- Without a fault a record can be created under every new id. -/
theorem answer_createRecord_calm {e : Env} {w w' : Store} {id : String} {blob : Bytes} {now : Int}
    {r : Except DbError Unit}
    (h : w.answer e (.db (.createRecord id blob now)) = some (r, w')) (hfault : e.fault = false)
    (hid : id ∉ w.db.recordIds) :
    r = .ok () ∧ ∃ db, w.db.createRecord id blob now = .ok db ∧ w' = { w with db } := by
  rcases answer_db h with ⟨err, -, -, hf | hexec⟩ | ⟨v, db, -, hexec, rfl, rfl⟩
  · rw [hfault] at hf
    cases hf
  · exact absurd (Db.of_exec_createRecord_error hexec) hid
  · exact ⟨rfl, db, Db.of_exec_createRecord hexec, rfl⟩

/-- Only `insert_attachment` makes attachment rows. -/
theorem attachments_exec {db db' : Db} {c : DbCall} {v : c.Val} (h : db.exec c = .ok (v, db')) :
    db'.attachments.Sublist db.attachments ∨
      ∃ a, c = .insertAttachment a ∧ db'.attachments = db.attachments ++ [a] := by
  cases c with
  | createRecord id blob now =>
      rw [(Db.createRecord_eq_ok (Db.of_exec_createRecord h)).2.2]
      exact .inl (.refl _)
  | insertAttachment a =>
      exact .inr ⟨a, rfl, (Db.insertAttachment_eq_ok (Db.of_exec_insertAttachment h)).2.2.2⟩
  | deleteRecord id =>
      cases h
      exact .inl List.filter_sublist
  | deleteAttachment recordId attachmentId =>
      cases h
      exact .inl List.filter_sublist
  | attachmentsForRecords ids =>
      rw [(Db.of_exec_attachmentsForRecords h).2]
      exact .inl (.refl _)
  | _ =>
      cases h
      exact .inl (.refl _)

theorem rows_exec {db db' : Db} {c : DbCall} {v : c.Val} (h : db.exec c = .ok (v, db')) :
    ∀ a ∈ db'.attachments, a ∈ db.attachments ∨ c = .insertAttachment a := by
  intro a ha
  rcases attachments_exec h with hsub | ⟨a', rfl, hrows⟩
  · exact .inl (hsub.subset ha)
  · rw [hrows, List.mem_append, List.mem_singleton] at ha
    rcases ha with ha | rfl
    · exact .inl ha
    · exact .inr rfl

/-- A row holds what the call has written, or what it held before if the call writes elsewhere. -/
theorem blobs_exec {db db' : Db} {c : DbCall} {v : c.Val} (h : db.exec c = .ok (v, db')) :
    ∀ row' ∈ db'.records, c.wrote? v = some (row'.id, row'.blob) ∨
      ∃ row ∈ db.records, row.id = row'.id ∧ row.blob = row'.blob ∧
        ∀ b, c.wrote? v ≠ some (row'.id, b) := by
  intro row' hrow'
  cases c with
  | createRecord id blob now =>
      rcases Db.createRecord_eq_ok (Db.of_exec_createRecord h) with ⟨hnew, hrecords, -⟩
      rw [hrecords, List.mem_append, List.mem_singleton] at hrow'
      rcases hrow' with hold | rfl
      · -- An old row has another id than the new one.
        refine .inr ⟨row', hold, rfl, rfl, fun b hb => ?_⟩
        simp only [DbCall.wrote?, Option.some.injEq, Prod.mk.injEq] at hb
        exact hnew (hb.1 ▸ List.mem_map_of_mem hold)
      · exact .inl rfl
  | updateRecord id blob now =>
      simp only [Db.exec, Db.updateRecord, Except.ok.injEq, Prod.mk.injEq] at h
      rcases h with ⟨hv, rfl⟩
      simp only [Db.modifyRecord, List.mem_map] at hrow'
      rcases hrow' with ⟨row, hrow, rfl⟩
      cases v with
      | false =>
          -- The update has found no row.
          have hid : row.id ≠ id := by
            rintro rfl
            exact of_decide_eq_false hv (List.mem_map_of_mem hrow)
          exact .inr ⟨row, hrow, by simp [hid], by simp [hid], by simp [DbCall.wrote?]⟩
      | true =>
          by_cases hid : row.id = id
          · exact .inl (by simp [DbCall.wrote?, hid])
          · refine .inr ⟨row, hrow, by simp [hid], by simp [hid], ?_⟩
            simp [DbCall.wrote?, hid, Ne.symm hid]
  | touchRecord id now =>
      cases h
      simp only [Db.touchRecord, Db.modifyRecord, List.mem_map] at hrow'
      rcases hrow' with ⟨row, hrow, rfl⟩
      refine .inr ⟨row, hrow, ?_, ?_, by simp [DbCall.wrote?]⟩ <;> split_ifs <;> rfl
  | deleteRecord id =>
      cases h
      exact .inr ⟨row', (List.mem_filter.1 hrow').1, rfl, rfl, by simp [DbCall.wrote?]⟩
  | insertAttachment a =>
      rw [(Db.insertAttachment_eq_ok (Db.of_exec_insertAttachment h)).2.2.1] at hrow'
      exact .inr ⟨row', hrow', rfl, rfl, by simp [DbCall.wrote?]⟩
  | attachmentsForRecords ids =>
      rw [(Db.of_exec_attachmentsForRecords h).2] at hrow'
      exact .inr ⟨row', hrow', rfl, rfl, by simp [DbCall.wrote?]⟩
  | _ =>
      cases h
      exact .inr ⟨row', hrow', rfl, rfl, by simp [DbCall.wrote?]⟩

/-- A row that is neither updated nor deleted stays, with its blob. -/
theorem kept_exec {db db' : Db} {c : DbCall} {v : c.Val} (h : db.exec c = .ok (v, db'))
    {row : RecordRow} (hrow : row ∈ db.records) (hupdate : ∀ b now, c ≠ .updateRecord row.id b now)
    (hdelete : c ≠ .deleteRecord row.id) :
    ∃ row' ∈ db'.records, row'.id = row.id ∧ row'.blob = row.blob := by
  cases c with
  | createRecord id blob now =>
      rw [(Db.createRecord_eq_ok (Db.of_exec_createRecord h)).2.1]
      exact ⟨row, List.mem_append_left _ hrow, rfl, rfl⟩
  | updateRecord id blob now =>
      cases h
      have hid : row.id ≠ id := fun heq => hupdate blob now (by rw [heq])
      exact ⟨row, List.mem_map.2 ⟨row, hrow, by simp [hid]⟩, rfl, rfl⟩
  | touchRecord id now =>
      cases h
      refine ⟨_, List.mem_map.2 ⟨row, hrow, rfl⟩, ?_, ?_⟩ <;> split_ifs <;> rfl
  | deleteRecord id =>
      cases h
      have hid : row.id ≠ id := fun heq => hdelete (by rw [heq])
      exact ⟨row, List.mem_filter.2 ⟨hrow, by simpa using hid⟩, rfl, rfl⟩
  | insertAttachment a =>
      rw [(Db.insertAttachment_eq_ok (Db.of_exec_insertAttachment h)).2.2.1]
      exact ⟨row, hrow, rfl, rfl⟩
  | attachmentsForRecords ids =>
      rw [(Db.of_exec_attachmentsForRecords h).2]
      exact ⟨row, hrow, rfl, rfl⟩
  | _ =>
      cases h
      exact ⟨row, hrow, rfl, rfl⟩

/-- Only `create_record` makes records, and only under an id that is not one yet. -/
theorem recordIds_exec {db db' : Db} {c : DbCall} {v : c.Val} (h : db.exec c = .ok (v, db')) :
    ∀ id ∈ db'.recordIds, id ∈ db.recordIds ∨ ∃ blob now, c = .createRecord id blob now := by
  intro id hid
  cases c with
  | createRecord id' blob now =>
      simp only [Db.recordIds, (Db.createRecord_eq_ok (Db.of_exec_createRecord h)).2.1,
        List.map_append, List.map_cons, List.map_nil, List.mem_append, List.mem_singleton] at hid
      rcases hid with hid | rfl
      · exact .inl hid
      · exact .inr ⟨blob, now, rfl⟩
  | updateRecord id' blob now =>
      cases h
      exact .inl (by simpa using hid)
  | touchRecord id' now =>
      cases h
      exact .inl (by simpa [Db.touchRecord] using hid)
  | insertAttachment a =>
      rw [Db.recordIds, (Db.insertAttachment_eq_ok (Db.of_exec_insertAttachment h)).2.2.1] at hid
      exact .inl hid
  | deleteRecord id' =>
      cases h
      exact .inl ((List.filter_sublist.map _).subset hid)
  | attachmentsForRecords ids =>
      rw [(Db.of_exec_attachmentsForRecords h).2] at hid
      exact .inl hid
  | _ =>
      cases h
      exact .inl hid

/-- What holds of the database after an executed call, and of the database as it was after any other
call, holds after every call. -/
theorem answer_cases {e : Env} {w w' : Store} {op : Call} {r : Reply op}
    (h : w.answer e op = some (r, w')) {P : (op : Call) → Reply op → Db → Prop}
    (hexec : ∀ c v db, w.db.exec c = .ok (v, db) → P (.db c) (.ok v) db)
    (hsame : op.wrote? r = none → op.deleted? r = none → P op r w.db) : P op r w'.db := by
  cases op with
  | db c =>
      rcases answer_db h with ⟨err, rfl, rfl, -⟩ | ⟨v, db, -, hc, rfl, rfl⟩
      · exact hsame rfl (by cases c <;> rfl)
      · exact hexec c v db hc
  | file c =>
      rw [db_answerFile h]
      exact hsame rfl rfl
  | newV4 =>
      rcases answer_newV4 h with ⟨-, rfl⟩
      exact hsame rfl rfl
  | panic => cases h
  | _ =>
      cases h
      exact hsame rfl rfl

theorem attachments_answer {e : Env} {w w' : Store} {op : Call} {r : Reply op}
    (h : w.answer e op = some (r, w')) :
    w'.db.attachments.Sublist w.db.attachments ∨
      ∃ a, op = .db (.insertAttachment a) ∧ w'.db.attachments = w.db.attachments ++ [a] := by
  refine answer_cases (P := fun op _ db' => db'.attachments.Sublist w.db.attachments ∨
    ∃ a, op = .db (.insertAttachment a) ∧ db'.attachments = w.db.attachments ++ [a]) h ?_ ?_
  · intro c v db hexec
    rcases attachments_exec hexec with hsub | ⟨a, rfl, hrows⟩
    · exact .inl hsub
    · exact .inr ⟨a, rfl, hrows⟩
  · exact fun _ _ => .inl (.refl _)

theorem rows_answer {e : Env} {w w' : Store} {op : Call} {r : Reply op}
    (h : w.answer e op = some (r, w')) :
    ∀ a ∈ w'.db.attachments, a ∈ w.db.attachments ∨ op = .db (.insertAttachment a) := by
  intro a ha
  rcases attachments_answer h with hsub | ⟨a', rfl, hrows⟩
  · exact .inl (hsub.subset ha)
  · rw [hrows, List.mem_append, List.mem_singleton] at ha
    rcases ha with ha | rfl
    · exact .inl ha
    · exact .inr rfl

theorem recordIds_answer {e : Env} {w w' : Store} {op : Call} {r : Reply op}
    (h : w.answer e op = some (r, w')) : ∀ id ∈ w'.db.recordIds,
      id ∈ w.db.recordIds ∨ ∃ blob now, op = .db (.createRecord id blob now) := by
  refine answer_cases (P := fun op _ db' => ∀ id ∈ db'.recordIds,
    id ∈ w.db.recordIds ∨ ∃ blob now, op = .db (.createRecord id blob now)) h ?_ ?_
  · intro c v db hexec id hid
    rcases recordIds_exec hexec id hid with hold | ⟨blob, now, rfl⟩
    · exact .inl hold
    · exact .inr ⟨blob, now, rfl⟩
  · exact fun _ _ id hid => .inl hid

theorem blobs_answer {e : Env} {w w' : Store} {op : Call} {r : Reply op}
    (h : w.answer e op = some (r, w')) : ∀ row' ∈ w'.db.records,
      op.wrote? r = some (row'.id, row'.blob) ∨
        ∃ row ∈ w.db.records, row.id = row'.id ∧ row.blob = row'.blob ∧
          ∀ b, op.wrote? r ≠ some (row'.id, b) := by
  refine answer_cases (P := fun op r db' => ∀ row' ∈ db'.records,
    op.wrote? r = some (row'.id, row'.blob) ∨
      ∃ row ∈ w.db.records, row.id = row'.id ∧ row.blob = row'.blob ∧
        ∀ b, op.wrote? r ≠ some (row'.id, b)) h ?_ ?_
  · intro c v db hexec row' hrow'
    exact blobs_exec hexec row' hrow'
  · intro hwrote _ row' hrow'
    exact .inr ⟨row', hrow', rfl, rfl, by simp [hwrote]⟩

theorem kept_answer {e : Env} {w w' : Store} {op : Call} {r : Reply op}
    (h : w.answer e op = some (r, w')) {row : RecordRow} (hrow : row ∈ w.db.records)
    (hupdate : ∀ b now, op ≠ .db (.updateRecord row.id b now)) (hdelete : op.deleted? r ≠ some row.id) :
    ∃ row' ∈ w'.db.records, row'.id = row.id ∧ row'.blob = row.blob := by
  revert hupdate hdelete
  refine answer_cases (P := fun op r db' => (∀ b now, op ≠ .db (.updateRecord row.id b now)) →
    op.deleted? r ≠ some row.id → ∃ row' ∈ db'.records, row'.id = row.id ∧ row'.blob = row.blob)
    h ?_ ?_
  · intro c v db hexec hupdate hdelete
    refine kept_exec hexec hrow (fun b now hc => hupdate b now (by rw [hc])) ?_
    rintro rfl
    -- The row is there, so the delete has found it.
    cases v with
    | none =>
        have hgone := (Db.deleteRecord_eq_none (Except.ok.inj hexec)).1
        exact hgone (List.mem_map_of_mem hrow)
    | some ids => exact hdelete rfl
  · exact fun _ _ _ _ => ⟨row, hrow, rfl, rfl⟩

/-- Ids are never taken back. -/
theorem issued_answer {e : Env} {w w' : Store} {op : Call} {r : Reply op}
    (h : w.answer e op = some (r, w')) : ∀ id ∈ w.issued, id ∈ w'.issued := by
  intro id hid
  cases op with
  | db c =>
      rcases answer_db h with ⟨err, -, rfl, -⟩ | ⟨v, db, -, -, -, rfl⟩ <;> exact hid
  | file c =>
      cases c with
      | beginUpload =>
          rcases answer_beginUpload h with ⟨-, rfl, -⟩ | ⟨_, -, -, rfl⟩
          · exact hid
          · exact List.mem_cons_of_mem _ hid
      | writeAll id' chunk => rcases answer_writeAll h with ⟨-, rfl, -⟩ | ⟨-, rfl⟩ <;> exact hid
      | finalizeUpload id' =>
          rcases answer_finalizeUpload h with ⟨_, -, rfl, -⟩ | ⟨_, -, -, rfl⟩ <;> exact hid
      | abortUpload id' => rcases answer_abortUpload h with ⟨rfl, -⟩ | rfl <;> exact hid
      | deleteAttachment id' => rcases answer_deleteAttachment h with ⟨rfl, -⟩ | rfl <;> exact hid
  | newV4 =>
      rcases answer_newV4 h with ⟨-, rfl⟩
      exact List.mem_cons_of_mem _ hid
  | panic => cases h
  | _ =>
      cases h
      exact hid

end Store

end Aardbin
