import Aardbin.ApiRecord
import Aardbin.Auth.Guard
import Aardbin.Disposition
import Aardbin.Effect.Embedding
import Aardbin.Reachability

/-!
# The other handlers (`routes.rs`, `api.rs`)

Pages that need no store, the text of a record, and the two downloads.  A download asks the
database for the attachment and opens its file in a second call.
-/

namespace Aardbin
namespace Http

open Effect Rust

/-! ## Calls -/

/-- Everything a request can ask. -/
inductive Call
  | auth (c : Auth.Call)
  | store (c : Aardbin.Call)
  /-- `File::open(attachment_path(id))`; an open file can be read to its end whatever happens to
  its name -/
  | openFile (id : String)
  | subscribe
  deriving DecidableEq

@[reducible] def Reply : Call → Type
  | .auth c => Auth.Reply c
  | .store c => Aardbin.Reply c
  | .openFile _ => Except IoError Bytes
  | .subscribe => Unit

def authCalls : Embedding Auth.Reply Reply where
  op := .auth
  reply := fun _ r => r

def storeCalls : Embedding Aardbin.Reply Reply where
  op := .store
  reply := fun _ r => r

namespace Ask

abbrev getAttachment (id : String) : Program Reply (Except DbError (Option AttachmentRow)) :=
  .perform (Call.store (.db (.getAttachment id)))

abbrev openFile (id : String) : Program Reply (Except IoError Bytes) :=
  .perform (Call.openFile id)

abbrev subscribe : Program Reply Unit := .perform Call.subscribe

end Ask

/-! ## Pages without a record -/

def healthz : Response :=
  { status := .ok, headers := [("content-type", "text/plain; charset=utf-8")], body := .text "ok" }

/-- The template of the record form. -/
structure Pages where
  form : Lang → FormView → Option String

def getLogin (s : AppState) (headers : HeaderMap) (error : Option String) : Response :=
  let lang := detectLang headers
  rendered s lang (.login { lang, error := error.map fun _ => I18n.t lang "login.error" })

def clearSetCookie (m : SessionManager) : String :=
  s!"{cookieName}=; Path=/; HttpOnly; SameSite=Lax; Max-Age=0" ++
    if m.cookieSecure then "; Secure" else ""

def postLogout (s : AppState) : Response :=
  { status := .seeOther
    headers := [("location", "/login"), ("set-cookie", clearSetCookie s.sessions)], body := .empty }

/-- The cookie of `POST /lang`; everything but `zh` is English. -/
def langCookie (lang : String) : String :=
  let langVal := if lang = "zh" then "zh" else "en"
  s!"aardbin_lang={langVal}; Path=/; SameSite=Lax; Max-Age={365 * 86400}"

def postLang (headers : HeaderMap) (lang : String) : Response :=
  { status := .seeOther
    headers := [("location", (headers "referer").getD "/"), ("set-cookie", langCookie lang)]
    body := .empty }

/-- The answer with a rendered record form. -/
def renderedForm (pages : Pages) (view : FormView) : Response :=
  match pages.form view.lang view with
  | some html =>
      { status := .ok, headers := [("content-type", "text/html; charset=utf-8")], body := .html html }
  | none => internal

def newForm (s : AppState) (pages : Pages) (headers : HeaderMap) : Response :=
  renderedForm pages
    { lang := detectLang headers, mode := .new, action := "/records", id := "", title := ""
      content := "", attachments := []
      maxAttachmentHuman := humanSize s.vendor (I64.wrap s.cfg.maxAttachmentBytes)
      maxAttachmentBytes := s.cfg.maxAttachmentBytes
      maxAttachments := maxAttachmentsPerRecord }

/-! ## The text of a record -/

def copyRecord (s : AppState) (id : String) : Program Aardbin.Reply Response := do
  match ← AskDb.getRecord id with
  | .error _ => return internal
  | .ok none => return recordNotFound
  | .ok (some row) =>
      match s.crypto.decrypt row.blob with
      | .ok (_, content) =>
          return { status := .ok
                   headers := [("content-type", "text/plain; charset=utf-8"),
                     ("cache-control", "no-store")]
                   body := .text content }
      | .error _ => return errResponse .unprocessableEntity "unable to decrypt"

/-! ## Downloads -/

def inlineWhitelist : List String :=
  ["image/png", "image/jpeg", "image/gif", "image/webp"]

structure Download where
  headers : List (String × String)
  body : Bytes
  deriving DecidableEq

/-- May the browser show the file instead of saving it? -/
def inlineOk (row : AttachmentRow) (inline : Option String) : Bool :=
  inline = some "1" ∧ row.mimeType ∈ inlineWhitelist

def download (row : AttachmentRow) (inline : Option String) (body : Bytes) : Download :=
  { headers :=
      [("content-type", row.mimeType),
        ("content-disposition", contentDisposition
          (if inlineOk row inline then "inline" else "attachment") row.originalFilename),
        ("x-content-type-options", "nosniff"),
        ("content-length", toString row.sizeBytes),
        ("cache-control", "private, no-store")]
    body }

/-- The common body of `download_attachment` and `api_download_attachment`, which differ in their
errors. -/
def downloadWith (id : String) (inline : Option String) (failed : Response)
    (missing : String → Response) : Program Reply (Except Response Download) := do
  match ← Ask.getAttachment id with
  | .error _ => return .error failed
  | .ok none => return .error (missing "attachment not found")
  | .ok (some row) =>
      match ← Ask.openFile id with
      | .error _ => return .error (missing "attachment file missing")
      | .ok body => return .ok (download row inline body)

def downloadAttachment (id : String) (inline : Option String) :
    Program Reply (Except Response Download) :=
  downloadWith id inline internal (errResponse .notFound)

def apiDownloadAttachment (id : String) (inline : Option String) :
    Program Reply (Except Response Download) :=
  downloadWith id inline (jsonError .internalServerError "internal error") (jsonError .notFound)

end Http
end Aardbin
