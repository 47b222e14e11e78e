import Aardbin.Form

/-!
# The handlers that change the store (`routes.rs`, `api.rs`)
-/

namespace Aardbin

open Effect

/-! ## Creating -/

def attachmentRow (recordId : String) (ts : Int) (u : PendingUpload) : AttachmentRow :=
  { id := u.id, recordId, originalFilename := u.originalFilename, sizeBytes := u.size
    mimeType := u.mimeType, createdAt := ts }

def insertUploads (recordId : String) (ts : Int) :
    List PendingUpload → Program Reply (Except DbError Unit)
  | [] => return .ok ()
  | u :: rest => do
      match ← AskDb.insertAttachment (attachmentRow recordId ts u) with
      | .error e =>
          -- the insert failed after the rename: remove the file to avoid orphans
          AskFiles.deleteAttachment u.id
          return .error e
      | .ok () => insertUploads recordId ts rest

/-- The common body of `create_record` and `api_create_record`, which differ in their answers. -/
def createWith (s : AppState) (headers : HeaderMap) (multipart : Multipart)
    (failed : Response) (done : String → Response) : Program Reply Response := do
  match ← parseRecordForm s multipart (contentLength headers) with
  | .error resp => return resp
  | .ok form =>
      let id ← Ask.newV4
      let ts ← Ask.now
      let nonce ← Ask.nonce
      let blob := s.crypto.encrypt nonce form.title form.content
      match ← AskDb.createRecord id blob ts with
      | .error _ =>
          cleanupUploads form.uploads
          return failed
      | .ok () =>
          match ← insertUploads id ts form.uploads with
          | .error _ =>
              let _ ← AskDb.deleteRecord id
              return failed
          | .ok () =>
              Ask.send
              return done id

def seeHome : Response :=
  { status := .noContent, headers := [("hx-redirect", "/")], body := .empty }

def createRecord (s : AppState) (headers : HeaderMap) (multipart : Multipart) :
    Program Reply Response :=
  createWith s headers multipart internal fun _ => seeHome

def apiCreated (id : String) : Response :=
  { status := .created, headers := [("content-type", "application/json")], body := .jsonCreated id }

def apiCreateRecord (s : AppState) (headers : HeaderMap) (multipart : Multipart) :
    Program Reply Response :=
  createWith s headers multipart (jsonError .internalServerError "internal error") apiCreated

/-! ## Updating -/

def recordNotFound : Response :=
  errResponse .notFound "record not found"

def updateRecord (s : AppState) (id : String) (headers : HeaderMap) (multipart : Multipart) :
    Program Reply Response := do
  match ← AskDb.getRecord id with
  | .error _ => return internal
  | .ok none => return recordNotFound
  | .ok (some row) =>
      match s.crypto.decrypt row.blob with
      | .error _ =>
          return errResponse .unprocessableEntity
            "Unable to decrypt this record; refusing to overwrite."
      | .ok _ =>
          match ← parseRecordForm s multipart (contentLength headers) with
          | .error resp => return resp
          | .ok form =>
              let ts ← Ask.now
              let nonce ← Ask.nonce
              let blob := s.crypto.encrypt nonce form.title form.content
              let oldBlob := row.blob
              match ← AskDb.updateRecord id blob ts with
              | .error _ =>
                  cleanupUploads form.uploads
                  return internal
              | .ok false => return recordNotFound
              | .ok true =>
                  match ← insertUploads id ts form.uploads with
                  | .error _ =>
                      -- restore the old encrypted blob so the record is not lost
                      let _ ← AskDb.updateRecord id oldBlob row.updatedAt
                      return internal
                  | .ok () =>
                      Ask.send
                      return seeHome

/-! ## Deleting -/

def deleteFiles : List String → Program Reply Unit
  | [] => pure ()
  | aid :: rest => do
      AskFiles.deleteAttachment aid
      deleteFiles rest

/-- The common body of `delete_record` and `api_delete_record`, which differ in their answers. -/
def deleteWith (id : String) (deleted missing failed : Response) : Program Reply Response := do
  match ← AskDb.deleteRecord id with
  | .error _ => return failed
  | .ok none => return missing
  | .ok (some attachmentIds) =>
      deleteFiles attachmentIds
      Ask.send
      return deleted

def deleteRecord (id : String) : Program Reply Response :=
  deleteWith id { status := .ok, headers := [], body := .empty } recordNotFound internal

def apiDeleted : Response :=
  { status := .ok, headers := [("content-type", "application/json")], body := .jsonDeleted }

def apiDeleteRecord (id : String) : Program Reply Response :=
  deleteWith id apiDeleted
    (jsonError .notFound "record not found") (jsonError .internalServerError "internal error")

def attachmentView (v : Vendor) (a : AttachmentRow) : AttachmentView :=
  { id := a.id, recordId := a.recordId, originalFilename := a.originalFilename
    sizeText := humanSize v a.sizeBytes }

/-- The answer with a rendered template. -/
def rendered (s : AppState) (lang : Lang) (page : Page) : Response :=
  match s.vendor.renderLang lang page with
  | some html =>
      { status := .ok, headers := [("content-type", "text/html; charset=utf-8")], body := .html html }
  | none => internal

def deleteAttachment (s : AppState) (recordId attachmentId : String) (headers : HeaderMap) :
    Program Reply Response := do
  let lang := detectLang headers
  match ← AskDb.deleteAttachment recordId attachmentId with
  | .error _ => return internal
  | .ok none => return errResponse .notFound "attachment not found"
  | .ok (some _) =>
      AskFiles.deleteAttachment attachmentId
      -- attachment changes bump the record's updated_at
      let ts ← Ask.now
      match ← AskDb.touchRecord recordId ts with
      | .error _ => return internal
      | .ok () =>
          Ask.send
          match ← AskDb.listAttachments recordId with
          | .error _ => return internal
          | .ok attachments =>
              return rendered s lang (.attachments lang (attachments.map (attachmentView s.vendor)))

/-! ## The service -/

/-- The requests that may change the store. -/
inductive Request
  | create (headers : HeaderMap) (multipart : Multipart)
  | apiCreate (headers : HeaderMap) (multipart : Multipart)
  | update (id : String) (headers : HeaderMap) (multipart : Multipart)
  | delete (id : String)
  | apiDelete (id : String)
  | deleteAttachment (recordId attachmentId : String) (headers : HeaderMap)

def handle (s : AppState) : Request → Program Reply Response
  | .create headers multipart => createRecord s headers multipart
  | .apiCreate headers multipart => apiCreateRecord s headers multipart
  | .update id headers multipart => updateRecord s id headers multipart
  | .delete id => deleteRecord id
  | .apiDelete id => apiDeleteRecord id
  | .deleteAttachment recordId attachmentId headers =>
      deleteAttachment s recordId attachmentId headers

/-- The running process and what it keeps on disk. -/
structure Server where
  app : AppState
  store : Store

/-- A restart: the environment variables of the new process, and the stale temp files that its
startup scan fails to remove. -/
structure Boot where
  cfg : Config
  stuck : String → Bool

def Server.reboot (b : Boot) (s : Server) : Server :=
  { app := { s.app with cfg := b.cfg }
    store := { s.store with files := s.store.files.orphanScan b.stuck } }

def Server.answer (e : Env) (s : Server) (op : Call) : Option (Reply op × Server) :=
  match s.store.answer e op with
  | none => none
  | some (r, store) => some (r, { s with store })

theorem Server.answer_eq_some {e : Env} {s s' : Server} {op : Call} {r : Reply op}
    (h : s.answer e op = some (r, s')) :
    s.store.answer e op = some (r, s'.store) ∧ s'.app = s.app := by
  unfold Server.answer at h
  split at h
  · cases h
  · rename_i r' store hans
    cases h
    exact ⟨hans, rfl⟩

def server : Service Reply Server Env Boot Request Response where
  handler := fun s req => handle s.app req
  answer := Server.answer
  reboot := Server.reboot

abbrev Log : Type := History Reply Env Boot Request Response

end Aardbin
