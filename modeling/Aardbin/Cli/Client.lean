import Aardbin.Http.Lifetime

/-!
# The command-line client (`cli/src/main.rs`)

A command is a program over the calls of its own machine and one more, `execute`, which sends an
HTTP request.  The next module answers that call with the server.
-/

namespace Aardbin
namespace Cli

open Effect Rust

/-! ## Calls -/

/-- A `reqwest::Request`; the client sends its key with every one. -/
structure HttpRequest where
  method : Http.Method
  url : String
  authorization : String
  /-- the parts of a multipart body -/
  form : Option (List Part) := none

/-- A `reqwest::Response`; the body is kept as what the server has answered. -/
structure HttpResponse where
  status : ℕ
  retryAfter : Option String
  answer : Http.Answer
  /-- the body as it is read by `bytes` -/
  body : Bytes

inductive Call
  | var (name : String)
  | isTerminal
  | readLine
  | readToString
  /-- `std::fs::read_to_string` -/
  | readText (path : String)
  /-- `tokio::fs::read` -/
  | read (path : String)
  | write (path : String) (data : Bytes)
  | println (text : String)
  | printBytes (data : Bytes)
  | eprint (text : String)
  | execute (req : HttpRequest)
  | sleep (secs : ℕ)

@[reducible] def Reply : Call → Type
  | .var _ => Option String
  | .isTerminal => Bool
  | .readLine => Except IoError String
  | .readToString => Except IoError String
  | .readText _ => Except IoError String
  | .read _ => Except IoError Bytes
  | .write _ _ => Except IoError Unit
  | .println _ => Unit
  | .printBytes _ => Except IoError Unit
  | .eprint _ => Unit
  | .execute _ => Except IoError HttpResponse
  | .sleep _ => Unit

namespace Ask

abbrev var (name : String) : Program Reply (Option String) := .perform (Call.var name)
abbrev isTerminal : Program Reply Bool := .perform Call.isTerminal
abbrev readLine : Program Reply (Except IoError String) := .perform Call.readLine
abbrev readToString : Program Reply (Except IoError String) := .perform Call.readToString

abbrev readText (path : String) : Program Reply (Except IoError String) :=
  .perform (Call.readText path)

abbrev read (path : String) : Program Reply (Except IoError Bytes) := .perform (Call.read path)

abbrev write (path : String) (data : Bytes) : Program Reply (Except IoError Unit) :=
  .perform (Call.write path data)

abbrev println (text : String) : Program Reply Unit := .perform (Call.println text)

abbrev printBytes (data : Bytes) : Program Reply (Except IoError Unit) :=
  .perform (Call.printBytes data)

abbrev eprint (text : String) : Program Reply Unit := .perform (Call.eprint text)

abbrev execute (req : HttpRequest) : Program Reply (Except IoError HttpResponse) :=
  .perform (Call.execute req)

abbrev sleep (secs : ℕ) : Program Reply Unit := .perform (Call.sleep secs)

end Ask

/-- What a command ends with when it does not succeed. -/
inductive Failure
  | io (e : IoError)
  /-- the answer is not the JSON that is expected -/
  | json
  | accessKey
  | bail (msg : String)
  deriving DecidableEq

/-! ## Where the server is and what the key is -/

structure ServerConfig where
  url : Option String
  accessKey : Option String

structure ConfigFile where
  server : Option ServerConfig

/-- Third-party functions of the client. -/
structure Lib where
  /-- `toml::from_str` -/
  toml : String → Option ConfigFile
  /-- `PathBuf::join` -/
  join : String → String → String
  /-- `file_name`, as text; empty for a path that has none -/
  fileName : String → String
  /-- `Display` of a `StatusCode` -/
  statusText : ℕ → String

/-- Third-party functions that suffice for a concrete run. -/
def Lib.plain : Lib where
  toml := fun _ => none
  join := fun dir path => dir ++ "/" ++ path
  fileName := id
  statusText := fun n => toString n

structure Client where
  baseUrl : String
  authorization : String

/-- `HeaderValue::from_str`. -/
def validHeader (value : String) : Bool :=
  (bytes value).all fun b => (32 ≤ b ∧ b ≠ 127) ∨ b = 9

def Client.new (baseUrl accessKey : String) : Except Failure Client :=
  let authorization := s!"Bearer {accessKey}"
  if validHeader authorization then
    .ok { baseUrl := trimEndMatches baseUrl '/', authorization }
  else .error .accessKey

def Client.get (c : Client) (path : String) : HttpRequest :=
  { method := .get, url := c.baseUrl ++ path, authorization := c.authorization }

def Client.delete (c : Client) (path : String) : HttpRequest :=
  { method := .delete, url := c.baseUrl ++ path, authorization := c.authorization }

def Client.post (c : Client) (path : String) (form : List Part) : HttpRequest :=
  { method := .post, url := c.baseUrl ++ path, authorization := c.authorization, form := some form }

/-- `RequestBuilder::send`. -/
def send (req : HttpRequest) : Program Reply (Except Failure HttpResponse) := do
  match ← Ask.execute req with
  | .error e => return .error (.io e)
  | .ok resp => return .ok resp

/-- `Request::try_clone`: a multipart body is a stream, and can be sent only once. -/
def HttpRequest.tryClone (req : HttpRequest) : Option HttpRequest :=
  match req.form with
  | none => some req
  | some _ => none

/-- The seconds to wait before the next of several attempts. -/
def HttpResponse.wait (resp : HttpResponse) (attempts : ℕ) : ℕ :=
  min ((resp.retryAfter.bind parseU64).getD 1) 30 * (attempts + 1)

/-- The loop of `send_with_retry`; with `left` retries to go, `attempts` is `3 - left`. -/
def sendAttempts (req : HttpRequest) : ℕ → Program Reply (Except Failure HttpResponse)
  | 0 => send req
  | left + 1 =>
      match req.tryClone with
      | none => send req
      | some r => do
          match ← send r with
          | .error e => return .error e
          | .ok resp =>
              if resp.status ≠ 429 then return .ok resp
              else
                let wait := resp.wait (3 - (left + 1))
                Ask.eprint s!"Rate limited. Retrying in {wait}s..."
                Ask.sleep wait
                sendAttempts req left

def sendWithRetry (req : HttpRequest) : Program Reply (Except Failure HttpResponse) :=
  sendAttempts req 3

/-! ## The JSON of the answers -/

/-- Reads an `ApiCreated`; fields that it does not have are skipped. -/
def created? : Http.Answer → Option String
  | .response { body := .jsonCreated id, .. } => some id
  | .record r => some r.id
  | _ => none

def record? : Http.Answer → Option ApiRecord
  | .record r => some r
  | _ => none

def list? : Http.Answer → Option ApiListResponse
  | .response { body := .jsonList list, .. } => some list
  | _ => none

def error? : Http.Answer → Option String
  | .response { body := .jsonError msg, .. } => some msg
  | _ => none

/-- `StatusCode::is_success`. -/
def HttpResponse.isSuccess (resp : HttpResponse) : Bool :=
  200 ≤ resp.status ∧ resp.status < 300

/-- The JSON that is expected of an answer that succeeds, or the error of one that does not. -/
def expect {α : Type} (resp : HttpResponse) (parse : Http.Answer → Option α) (failed : String) :
    Except Failure α :=
  if resp.isSuccess then
    match parse resp.answer with
    | some a => .ok a
    | none => .error .json
  else .error (.bail ((error? resp.answer).getD failed))

theorem record?_eq_some {ans : Http.Answer} {record : ApiRecord} (h : record? ans = some record) :
    ans = .record record := by
  unfold record? at h
  split at h
  · exact congrArg _ (Option.some.inj h)
  · cases h

theorem expect_eq_ok {α : Type} {resp : HttpResponse} {parse : Http.Answer → Option α}
    {failed : String} {a : α} (h : expect resp parse failed = .ok a) :
    resp.isSuccess = true ∧ parse resp.answer = some a := by
  unfold expect at h
  split_ifs at h with hsuccess
  split at h
  · rename_i a' hparse
    cases h
    exact ⟨hsuccess, hparse⟩
  · cases h

/-! ## Commands -/

def printAll : List String → Program Reply Unit
  | [] => pure ()
  | text :: rest => do
      Ask.println text
      printAll rest

def attached (lib : Lib) (path : String) (data : Bytes) : Part :=
  { name := some "files", fileName := some (lib.fileName path), chunks := [data] }

/-- The parts of the files at the given paths. -/
def readFiles (lib : Lib) : List String → Program Reply (Except Failure (List Part))
  | [] => return .ok []
  | path :: rest => do
      match ← Ask.read path with
      | .error e => return .error (.io e)
      | .ok data =>
          match ← readFiles lib rest with
          | .error e => return .error e
          | .ok parts =>
              return .ok (attached lib path data :: parts)

/-- Posts a form, and tells the id of the record that it has made. -/
def postRecord (lib : Lib) (c : Client) (form : List Part) :
    Program Reply (Except Failure String) := do
  match ← sendWithRetry (c.post "/api/records" form) with
  | .error e => return .error e
  | .ok resp =>
      if resp.status = 201 then
        match created? resp.answer with
        | some id => return .ok id
        | none => return .error .json
      else
        return .error
          (.bail ((error? resp.answer).getD s!"HTTP {lib.statusText resp.status}"))

/-- The content that is given, or all of the standard input. -/
def bodyContent (content : Option String) : Program Reply (Except IoError String) :=
  match content with
  | some text => return .ok text
  | none => Ask.readToString

def cmdPaste (lib : Lib) (c : Client) (title content : Option String) (files : List String) :
    Program Reply (Except Failure Unit) := do
  match ← bodyContent content with
  | .error e => return .error (.io e)
  | .ok text =>
      match ← readFiles lib files with
      | .error e => return .error e
      | .ok parts =>
          let form := formField "title" (title.getD "") :: formField "content" text :: parts
          match ← postRecord lib c form with
          | .error e => return .error e
          | .ok id =>
              Ask.println id
              return .ok ()

def summaryLine (r : ApiRecordSummary) : String :=
  let title := if r.untitled then "(untitled)" else r.title
  let att := if 0 < r.attachmentCount then s!" 📎×{r.attachmentCount}" else ""
  s!"{r.id}  {title}{att}  {r.snippet}"

def cmdList (c : Client) (page : Int) (pageSize : Option Int) :
    Program Reply (Except Failure Unit) := do
  let size := match pageSize with
    | some n => s!"&page_size={n}"
    | none => ""
  match ← send (c.get (s!"/api/records?page={page}" ++ size)) with
  | .error e => return .error e
  | .ok resp =>
      match expect resp list? "request failed" with
      | .error e => return .error e
      | .ok list =>
          printAll (list.records.map summaryLine)
          Ask.eprint s!"Page {list.page}/{list.totalPages} · {list.total} records"
          return .ok ()

def attachmentLine (a : ApiAttachmentMeta) : String :=
  s!"  {a.id} ({a.sizeBytes} bytes) — {a.originalFilename}"

/-- What `get` prints of a record. -/
def recordLines (record : ApiRecord) : List String :=
  let title := if record.untitled then "(untitled)" else s!"Title: {record.title}"
  let attachments :=
    if record.attachments = [] then []
    else "Attachments:" :: record.attachments.map attachmentLine
  [title, s!"Updated: {record.updatedAt}"] ++ attachments ++ ["---", record.content]

def cmdGet (c : Client) (id : String) : Program Reply (Except Failure Unit) := do
  match ← send (c.get ("/api/records/" ++ id)) with
  | .error e => return .error e
  | .ok resp =>
      match expect resp record? "request failed" with
      | .error e => return .error e
      | .ok record =>
          printAll (recordLines record)
          return .ok ()

def cmdDelete (c : Client) (id : String) : Program Reply (Except Failure Unit) := do
  match ← send (c.delete ("/api/records/" ++ id)) with
  | .error e => return .error e
  | .ok resp =>
      if resp.isSuccess then
        Ask.println s!"Deleted {id}"
        return .ok ()
      else return .error (.bail ((error? resp.answer).getD "request failed"))

def cmdUpload (lib : Lib) (c : Client) (recordId file : String) :
    Program Reply (Except Failure Unit) := do
  match ← send (c.get ("/api/records/" ++ recordId)) with
  | .error e => return .error e
  | .ok resp =>
      match expect resp record? "record not found" with
      | .error e => return .error e
      | .ok record =>
          match ← Ask.read file with
          | .error e => return .error (.io e)
          | .ok data =>
              match ← postRecord lib c (Aardbin.cmdUpload record (lib.fileName file) data) with
              | .error e => return .error e
              | .ok id =>
                  Ask.println s!"Created new record {id} with attachment (API does not support adding to existing record)"
                  return .ok ()

def cmdDownload (c : Client) (id : String) (output : Option String) :
    Program Reply (Except Failure Unit) := do
  match ← send (c.get ("/api/attachments/" ++ id)) with
  | .error e => return .error e
  | .ok resp =>
      if resp.isSuccess then
        match output with
        | some path =>
            match ← Ask.write path resp.body with
            | .error e => return .error (.io e)
            | .ok () =>
                Ask.println s!"Saved {resp.body.length} bytes to {path}"
                return .ok ()
        | none =>
            match ← Ask.printBytes resp.body with
            | .error e => return .error (.io e)
            | .ok () => return .ok ()
      else return .error (.bail ((error? resp.answer).getD "attachment not found"))

inductive Cmd
  | paste (title content : Option String) (file : List String)
  | list (page : Int) (pageSize : Option Int)
  | get (id : String)
  | delete (id : String)
  | upload (recordId file : String)
  | download (id : String) (output : Option String)

def Cmd.run (lib : Lib) (c : Client) : Cmd → Program Reply (Except Failure Unit)
  | .paste title content file => cmdPaste lib c title content file
  | .list page pageSize => cmdList c page pageSize
  | .get id => cmdGet c id
  | .delete id => cmdDelete c id
  | .upload recordId file => cmdUpload lib c recordId file
  | .download id output => cmdDownload c id output

end Cli
end Aardbin
