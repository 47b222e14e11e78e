import Aardbin.Effect.Pool
import Aardbin.Http.Handlers
import Aardbin.Http.OriginGuard

/-!
# The router (`main.rs`)

The whole process as one service.  Every request passes the origin guard; the protected routes
then ask for a session, and the API asks for the access key.
-/

namespace Aardbin
namespace Http

open Effect

/-! ## Requests and answers -/

/-- The routes with what their extractors yield; `none` where an extractor refuses the request. -/
inductive Endpoint
  | healthz
  | getLogin (error : Option (Option String))
  | postLogin (form : Option Auth.LoginForm)
  | postLogout
  | postLang (lang : Option String)
  | apiListRecords (q : Option ApiListQuery)
  | apiCreateRecord (multipart : Option Multipart)
  | apiGetRecord (id : String)
  | apiDeleteRecord (id : String)
  | apiDownloadAttachment (id : String) (inline : Option (Option String))
  /-- a file below `/static` -/
  | asset (path : String)
  | index
  | recordsPartial (q : Option PageQuery)
  | createRecord (multipart : Option Multipart)
  | newForm
  | editForm (id : String)
  | updateRecord (id : String) (multipart : Option Multipart)
  | deleteRecord (id : String)
  | copyRecord (id : String)
  | deleteAttachment (recordId attachmentId : String)
  | downloadAttachment (id : String) (inline : Option (Option String))
  | events
  /-- no route has this path and method -/
  | unrouted (method : Method)

def Endpoint.method : Endpoint → Method
  | .postLogin _ | .postLogout | .postLang _ | .apiCreateRecord _ | .createRecord _
  | .updateRecord _ _ | .deleteRecord _ | .deleteAttachment _ _ => .post
  | .apiDeleteRecord _ => .delete
  | .unrouted method => method
  | _ => .get

structure Request where
  endpoint : Endpoint
  headers : Headers
  /-- the address of the client -/
  addr : Option IpAddr

inductive Answer
  | response (r : Response)
  | record (r : ApiRecord)
  | file (d : Download)
  | stream
  | asset (path : String)
  /-- 403, from the origin guard -/
  | forbidden (msg : String)
  /-- any refusal by the router or an extractor -/
  | refused

/-! ## The routes -/

/-- The routes below `require_auth`. -/
def protect (s : AppState) (headers : HeaderMap) (handler : Program Reply Answer) :
    Program Reply Answer := do
  match ← (Auth.requireAuth s headers).embed authCalls with
  | .error resp => return .response resp
  | .ok () => handler

/-- The routes that extract `ApiAuth`. -/
def withApiAuth (s : AppState) (addr : Option IpAddr) (headers : HeaderMap)
    (handler : Program Reply Answer) : Program Reply Answer := do
  match ← (Auth.fromRequestParts s addr headers).embed authCalls with
  | .error resp => return .response resp
  | .ok () => handler

/-- What is answered with the response of a program over the store. -/
def responding (p : Program Aardbin.Reply Response) : Program Reply Answer :=
  p.embed storeCalls >>= fun r => return .response r

/-- A handler whose extractors may refuse the request. -/
def extracted {α : Type} (x : Option α) (handler : α → Program Reply Answer) :
    Program Reply Answer :=
  match x with
  | none => return .refused
  | some a => handler a

def downloaded : Except Response Download → Answer
  | .error resp => .response resp
  | .ok d => .file d

def serve (s : AppState) (pages : Pages) (addr : Option IpAddr) (headers : HeaderMap) :
    Endpoint → Program Reply Answer
  | .healthz => return .response Http.healthz
  | .getLogin error => extracted error fun error =>
      return .response (Http.getLogin s headers error)
  | .postLogin form =>
      match addr, form with
      | some ip, some form => do
          return .response (← (Auth.postLogin s ip headers form).embed authCalls)
      | _, _ => return .refused
  | .postLogout => return .response (Http.postLogout s)
  | .postLang lang => extracted lang fun lang => return .response (Http.postLang headers lang)
  | .apiListRecords q => withApiAuth s addr headers <| extracted q fun q =>
      responding (Aardbin.apiListRecords s q)
  | .apiCreateRecord multipart => withApiAuth s addr headers <| extracted multipart fun parts =>
      responding (handle s (.apiCreate headers parts))
  | .apiGetRecord id => withApiAuth s addr headers do
      match ← (Aardbin.apiGetRecord s id).embed storeCalls with
      | .error resp => return .response resp
      | .ok record => return .record record
  | .apiDeleteRecord id => withApiAuth s addr headers <| responding (handle s (.apiDelete id))
  | .apiDownloadAttachment id inline => withApiAuth s addr headers <| extracted inline fun inline =>
      return downloaded (← Http.apiDownloadAttachment id inline)
  | .asset path => return .asset path
  | .index => protect s headers <| responding (Aardbin.index s headers)
  | .recordsPartial q => protect s headers <| extracted q fun q =>
      responding (Aardbin.recordsPartial s headers q)
  | .createRecord multipart => protect s headers <| extracted multipart fun parts =>
      responding (handle s (.create headers parts))
  | .newForm => protect s headers <| return .response (Http.newForm s pages headers)
  | .editForm id => protect s headers do
      match ← (Aardbin.editForm s id headers).embed storeCalls with
      | .error resp => return .response resp
      | .ok view => return .response (renderedForm pages view)
  | .updateRecord id multipart => protect s headers <| extracted multipart fun parts =>
      responding (handle s (.update id headers parts))
  | .deleteRecord id => protect s headers <| responding (handle s (.delete id))
  | .copyRecord id => protect s headers <| responding (Http.copyRecord s id)
  | .deleteAttachment recordId attachmentId => protect s headers <|
      responding (handle s (.deleteAttachment recordId attachmentId headers))
  | .downloadAttachment id inline => protect s headers <| extracted inline fun inline =>
      return downloaded (← Http.downloadAttachment id inline)
  | .events => protect s headers do
      Ask.subscribe
      return .stream
  | .unrouted _ => return .refused

def route (s : AppState) (pages : Pages) (req : Request) : Program Reply Answer :=
  match originGuard req.endpoint.method req.headers with
  | .error msg => return .forbidden msg
  | .ok () => serve s pages req.addr req.headers.readable req.endpoint

/-! ## The service -/

structure World where
  server : Server
  auth : Auth.World
  pages : Pages

structure Env where
  auth : Auth.Env := {}
  store : Aardbin.Env := {}

def World.openFile (e : Env) (w : World) (id : String) : Except IoError Bytes :=
  if e.store.fault then .error .other
  else
    match w.server.store.files.attachments id with
    | none => .error .notFound
    | some bytes => .ok bytes

def World.answer (e : Env) (w : World) : (op : Call) → Option (Reply op × World)
  | .auth c =>
      match w.auth.answer e.auth c with
      | none => none
      | some (r, auth) => some (r, { w with auth })
  | .store c =>
      match w.server.answer e.store c with
      | none => none
      | some (r, server) => some (r, { w with server })
  | .openFile id => some (w.openFile e id, w)
  | .subscribe => some ((), w)

theorem World.answer_store {e : Env} {w w' : World} {c : Aardbin.Call} {r : Aardbin.Reply c}
    (h : w.answer e (.store c) = some (r, w')) :
    w.server.answer e.store c = some (r, w'.server) := by
  simp only [World.answer] at h
  split at h
  · cases h
  · rename_i r₀ server hans
    cases h
    exact hans

/-- The process; a restart reads the configuration again and forgets the failed logins. -/
def app : Service Reply World Env Boot Request Answer where
  handler := fun w req => route w.server.app w.pages req
  answer := World.answer
  reboot := fun b w =>
    { w with server := w.server.reboot b, auth := { w.auth with limiter := .new } }

abbrev Log : Type := History Reply Env Boot Request Answer

end Http
end Aardbin
