import Aardbin.I18n

/-!
# What the handlers hand to the templates and to the JSON encoder (`routes.rs`, `api.rs`)
-/

namespace Aardbin

abbrev Bytes : Type := List UInt8

/-! ## Template contexts -/

structure RecordView where
  id : String
  title : String
  untitled : Bool
  snippet : String
  updatedTs : Int
  updatedText : String
  attachmentCount : Int
  firstAttachmentName : String
  firstAttachmentId : String
  extraAttachments : Int
  undecryptable : Bool
  deriving DecidableEq, Repr

structure ListView where
  lang : Lang
  records : List RecordView
  page : Int
  totalPages : Int
  hasPrev : Bool
  hasNext : Bool
  total : Int
  deriving DecidableEq, Repr

structure LoginView where
  lang : Lang
  error : Option String
  deriving DecidableEq, Repr

structure AttachmentView where
  id : String
  recordId : String
  originalFilename : String
  sizeText : String
  deriving DecidableEq, Repr

/-- A template with its context. -/
inductive Page
  | login (view : LoginView)
  /-- the whole page, with the region that `records` renders alone -/
  | list (view : ListView)
  | records (view : ListView)
  | attachments (lang : Lang) (views : List AttachmentView)
  deriving DecidableEq, Repr

/-! ## JSON answers -/

structure ApiRecordSummary where
  id : String
  title : String
  untitled : Bool
  snippet : String
  updatedAt : Int
  attachmentCount : Nat
  deriving DecidableEq, Repr

structure ApiListResponse where
  records : List ApiRecordSummary
  page : Int
  pageSize : Int
  total : Int
  totalPages : Int
  deriving DecidableEq, Repr

/-! ## Responses -/

inductive StatusCode
  | ok
  | created
  | noContent
  | seeOther
  | unauthorized
  | notFound
  | payloadTooLarge
  | unprocessableEntity
  | tooManyRequests
  | internalServerError
  deriving DecidableEq, Repr

def StatusCode.isSuccess : StatusCode → Bool
  | .ok | .created | .noContent => true
  | _ => false

inductive Body
  | empty
  | text (s : String)
  | html (s : String)
  | jsonError (msg : String)
  | jsonCreated (id : String)
  | jsonDeleted
  | jsonList (r : ApiListResponse)
  deriving DecidableEq, Repr

structure Response where
  status : StatusCode
  headers : List (String × String)
  body : Body
  deriving DecidableEq, Repr

def Response.Success (r : Response) : Prop :=
  r.status.isSuccess = true

instance (r : Response) : Decidable r.Success :=
  inferInstanceAs (Decidable (_ = true))

def errResponse (status : StatusCode) (msg : String) : Response :=
  { status, headers := [("content-type", "text/plain; charset=utf-8")], body := .text msg }

/-- The error itself is only logged. -/
def internal : Response :=
  errResponse .internalServerError "internal error"

def jsonError (status : StatusCode) (msg : String) : Response :=
  { status, headers := [("content-type", "application/json")], body := .jsonError msg }

end Aardbin
