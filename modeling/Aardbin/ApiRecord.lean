import Aardbin.Handlers

/-!
# Reading one record through the API (`api.rs`) and posting it back (`cli`, `cmd_upload`)
-/

namespace Aardbin

open Effect Rust

/-! ## The answer of `GET /api/records/:id` -/

structure ApiAttachmentMeta where
  id : String
  originalFilename : String
  sizeBytes : Int
  mimeType : String
  deriving DecidableEq, Repr

structure ApiRecord where
  id : String
  title : String
  content : String
  untitled : Bool
  updatedAt : Int
  createdAt : Int
  attachments : List ApiAttachmentMeta
  deriving DecidableEq, Repr

def decryptRecord (s : AppState) (row : RecordRow) (attachments : List AttachmentRow) :
    Except Response ApiRecord :=
  match s.crypto.decrypt row.blob with
  | .ok (title, content) =>
      let (title, untitled) := displayTitle title content .en
      .ok
        { id := row.id, title, content, untitled, updatedAt := row.updatedAt
          createdAt := row.createdAt
          attachments := attachments.map fun a =>
            { id := a.id, originalFilename := a.originalFilename, sizeBytes := a.sizeBytes
              mimeType := a.mimeType } }
  | .error _ => .error (jsonError .unprocessableEntity "undecryptable")

/-- A record is answered as its JSON. -/
def apiGetRecord (s : AppState) (id : String) : Program Reply (Except Response ApiRecord) := do
  match ← AskDb.getRecord id with
  | .error _ => return .error (jsonError .internalServerError "internal error")
  | .ok none => return .error (jsonError .notFound "record not found")
  | .ok (some row) =>
      match ← AskDb.listAttachments id with
      | .error _ => return .error (jsonError .internalServerError "internal error")
      | .ok attachments => return decryptRecord s row attachments

/-! ## The form that is posted back -/

/-- A text field of a form: no file name and no content type. -/
def formField (name text : String) : Part :=
  { name := some name, chunks := [bytes text] }

/-- The title and the content of a record that was read, and some files. -/
def repostForm (record : ApiRecord) (files : List Part) : List Part :=
  formField "title" record.title :: formField "content" record.content :: files

/-- The form of `cmd_upload`. -/
def cmdUpload (record : ApiRecord) (filename : String) (data : Bytes) : List Part :=
  repostForm record [{ name := some "files", fileName := some filename, chunks := [data] }]

/-! ## What the record holds -/

theorem decryptRecord_eq_ok {s : AppState} {row : RecordRow} {attachments : List AttachmentRow}
    {record : ApiRecord} (h : decryptRecord s row attachments = .ok record) :
    ∃ title, s.crypto.decrypt row.blob = .ok (title, record.content) ∧
      record.title = (displayTitle title record.content .en).1 ∧
      record.untitled = (displayTitle title record.content .en).2 := by
  unfold decryptRecord at h
  split at h
  · rename_i title content hread
    cases hshown : displayTitle title content .en with
    | mk shown untitled =>
        rw [hshown] at h
        cases h
        exact ⟨title, hread, by rw [hshown], by rw [hshown]⟩
  · cases h

/-- A record that is answered is a row of the store, decrypted. -/
theorem apiGetRecord_eq_ok {s : AppState} {id : String} {w w' : Store}
    {tr : List (Asked Reply Env)} {record : ApiRecord}
    (hrun : Runs Store.answer w (apiGetRecord s id) tr w' (.ok record)) :
    ∃ row attachments, w.db.getRecord id = some row ∧
      decryptRecord s row attachments = .ok record := by
  have h : wp (answering Store.answer) (apiGetRecord s id) (fun r _ => ∀ record, r = .ok record →
      ∃ row attachments, w.db.getRecord id = some row ∧
        decryptRecord s row attachments = .ok record) w := by
    simp only [apiGetRecord, wp_bind, wp_perform]
    refine ⟨trivial, ?_⟩
    rintro r w₁ ⟨e, hans⟩
    rcases r with err | _ | row
    · rintro record ⟨⟩
    · rintro record ⟨⟩
    · rcases Store.answer_db_ok hans with ⟨db, -, hexec, -⟩
      have hrow : w.db.getRecord id = some row := (Prod.mk.inj (Except.ok.inj hexec)).1
      simp only [wp_bind, wp_perform]
      refine ⟨trivial, ?_⟩
      rintro r w₂ -
      cases r with
      | error err => rintro record ⟨⟩
      | ok attachments =>
          exact fun record heq => ⟨row, attachments, hrow, heq⟩
  exact hrun.of_wp h record rfl

end Aardbin
