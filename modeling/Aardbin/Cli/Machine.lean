import Aardbin.Cli.Client

/-!
# A machine, the network and the server

Here `execute` is a whole request to the server of `Http/Router.lean`.  Before it comes there the
server may have handled any requests of others and have been restarted; a request may not arrive,
and its answer may be lost.  What arrives is handled to its end, also when nobody hears the answer:
the server handles its requests one at a time here, and gives none of them up.
-/

namespace Aardbin

def StatusCode.code : StatusCode → ℕ
  | .ok => 200
  | .created => 201
  | .noContent => 204
  | .seeOther => 303
  | .unauthorized => 401
  | .notFound => 404
  | .payloadTooLarge => 413
  | .unprocessableEntity => 422
  | .tooManyRequests => 429
  | .internalServerError => 500

namespace Cli

open Effect

/-! ## The network -/

/-- What is between a URL and a route, and what the body of an answer is. -/
structure Net where
  /-- the route that a method and a URL come to; the form as it arrives -/
  endpoint : Http.Method → String → Option Multipart → Http.Endpoint
  /-- the status of a refusal by the router or an extractor -/
  refusal : {n : ℕ // 400 ≤ n ∧ n < 500 ∧ n ≠ 429}
  /-- the files below `/static` -/
  asset : String → Option Bytes
  /-- the bytes of any other answer than a file -/
  encode : Http.Answer → Bytes

namespace Net

variable (net : Net)

def status : Http.Answer → ℕ
  | .response r => r.status.code
  | .record _ | .file _ | .stream => 200
  | .asset path => if (net.asset path).isSome then 200 else 404
  | .forbidden _ => 403
  | .refused => net.refusal

def body : Http.Answer → Bytes
  | .file d => d.body
  | .asset path => (net.asset path).getD []
  | ans => net.encode ans

def receive (ans : Http.Answer) : HttpResponse where
  status := net.status ans
  retryAfter :=
    match ans with
    | .response r => r.headers.lookup "retry-after"
    | _ => none
  answer := ans
  body := net.body ans

/-- An id that a URL can carry as it is, like those of `Uuid::new_v4`. -/
def UrlSafe (id : String) : Prop :=
  ∀ c ∈ id.toList, c.isAlphanum = true ∨ c = '-'

instance : DecidablePred UrlSafe := fun id =>
  inferInstanceAs (Decidable (∀ c ∈ id.toList, c.isAlphanum = true ∨ c = '-'))

/-- The URLs below `base` are those of the server. -/
structure Serves (base : String) : Prop where
  create : ∀ parts, net.endpoint .post (base ++ "/api/records") (some parts) =
    .apiCreateRecord (some parts)
  record : ∀ id, UrlSafe id →
    net.endpoint .get (base ++ ("/api/records/" ++ id)) none = .apiGetRecord id
  file : ∀ id, UrlSafe id →
    net.endpoint .get (base ++ ("/api/attachments/" ++ id)) none =
      .apiDownloadAttachment id (some none)

end Net

/-! ## The machine -/

inductive Output
  | out (text : String)
  | bytes (data : Bytes)
  | err (text : String)
  deriving DecidableEq

structure Machine where
  vars : String → Option String := fun _ => none
  terminal : Bool := false
  stdin : String := ""
  disk : String → Option Bytes := fun _ => none
  output : List Output := []

/-- The text of a file, if it is UTF-8. -/
def textOf (data : Bytes) : Except IoError String :=
  match String.fromUTF8? ⟨data.toArray⟩ with
  | some text => .ok text
  | none => .error .other

abbrev ServerPhase : Type := Phase Http.Reply Http.Env Boot Http.Request Http.Answer

structure World where
  server : Http.World
  /-- all that the server has handled -/
  past : List ServerPhase
  machine : Machine

/-- What the environment decides at one call. -/
structure Env where
  /-- the call fails; a request does not get to the server -/
  fault : Bool := false
  /-- what the server does for others before the request -/
  others : List ((Http.Request × List Http.Env) ⊕ Boot) := []
  steps : List Http.Env := []
  addr : Option IpAddr := none
  /-- the headers besides the key -/
  headers : Http.Headers := { get := fun _ => none }
  /-- the form as it arrives -/
  parts : Multipart := []
  /-- the connection breaks after the request was handled, before the answer has come -/
  lost : Bool := false

namespace World

variable (w : World)

def setDisk (path : String) (data : Bytes) : World :=
  { w with machine := { w.machine with disk := Function.update w.machine.disk path (some data) } }

def emit (o : Output) : World :=
  { w with machine := { w.machine with output := w.machine.output ++ [o] } }

def setStdin (text : String) : World :=
  { w with machine := { w.machine with stdin := text } }

end World

/-- The key as `to_str` reads it, and the other headers. -/
def HttpRequest.headers (req : HttpRequest) (others : Http.Headers) : Http.Headers where
  get := fun name =>
    if name = "authorization" then
      some (if req.authorization.toList.all fun c => ' ' ≤ c ∧ c < '\x7f' ∨ c = '\t' then
        some req.authorization else none)
    else others.get name

/-- The form arrives with its contents; how a part is cut into chunks is up to the network. -/
def Arrives : List Part → Multipart → Bool
  | [], [] => true
  | p :: form, .ok q :: parts =>
      p.name = q.name ∧ p.fileName = q.fileName ∧ p.contentType = q.contentType ∧
        p.bytes = q.bytes ∧ q.broken = none ∧ Arrives form parts = true
  | _, _ => false

def HttpRequest.arrives (req : HttpRequest) (parts : Multipart) : Bool :=
  match req.form with
  | none => true
  | some form => Arrives form parts

def HttpRequest.request (req : HttpRequest) (net : Net) (e : Env) : Http.Request where
  endpoint := net.endpoint req.method req.url (req.form.map fun _ => e.parts)
  headers := req.headers e.headers
  addr := e.addr

theorem HttpRequest.request_of_endpoint (req : HttpRequest) {net : Net} {e : Env}
    {endpoint : Http.Endpoint}
    (h : net.endpoint req.method req.url (req.form.map fun _ => e.parts) = endpoint) :
    req.request net e = { endpoint, headers := req.headers e.headers, addr := e.addr } := by
  rw [HttpRequest.request, h]

def World.execute (net : Net) (e : Env) (w : World) (req : HttpRequest) :
    Option (Except IoError HttpResponse × World) :=
  match Http.app.live e.others w.past w.server with
  | none => none
  | some (past, server) =>
      if e.fault then some (.error .other, { w with past, server })
      -- Of a request that is cut off, anything may have arrived.
      else if e.lost ∨ req.arrives e.parts then
        let request := req.request net e
        match (Http.app.handler server request).run Http.World.answer e.steps server with
        | none => none
        | some (log, server, ans) =>
            some (if e.lost then .error .other else .ok (net.receive ans),
              { w with server, past := past ++ [.turn ⟨request, log, ans⟩] })
      else none

/-- The first line of a text, with its end, and the rest. -/
def splitLine (text : String) : String × String :=
  let line := text.toList.takeWhile (· ≠ '\n')
  let rest := text.toList.drop line.length
  (.ofList (line ++ rest.take 1), .ofList (rest.drop 1))

/-- A call of the machine that can fail. -/
def World.attempt {α : Type} (e : Env) (w : World) (r : Except IoError α) (w' : World) :
    Option (Except IoError α × World) :=
  some (if e.fault then (.error .other, w) else (r, w'))

theorem World.attempt_eq_some {α : Type} {e : Env} {w w₁ w' : World} {r r' : Except IoError α}
    (h : w.attempt e r w₁ = some (r', w')) : r' = .error .other ∧ w' = w ∨ r' = r ∧ w' = w₁ := by
  unfold World.attempt at h
  split_ifs at h <;> cases h
  · exact .inl ⟨rfl, rfl⟩
  · exact .inr ⟨rfl, rfl⟩

def World.answer (net : Net) (e : Env) (w : World) : (op : Call) → Option (Reply op × World)
  | .var name => some (w.machine.vars name, w)
  | .isTerminal => some (w.machine.terminal, w)
  | .readLine =>
      let (line, rest) := splitLine w.machine.stdin
      w.attempt e (.ok line) (w.setStdin rest)
  | .readToString => w.attempt e (.ok w.machine.stdin) (w.setStdin "")
  | .readText path =>
      match w.machine.disk path with
      | none => some (.error .notFound, w)
      | some data => w.attempt e (textOf data) w
  | .read path =>
      match w.machine.disk path with
      | none => some (.error .notFound, w)
      | some data => w.attempt e (.ok data) w
  | .write path data => w.attempt e (.ok ()) (w.setDisk path data)
  | .println text => some ((), w.emit (.out text))
  | .printBytes data => w.attempt e (.ok ()) (w.emit (.bytes data))
  | .eprint text => some ((), w.emit (.err text))
  | .execute req => w.execute net e req
  | .sleep _ => some ((), w)

/-! ## What a request has done -/

/-- The request came to the server after the phases `before` and was answered with `ans`. -/
structure Exchange (net : Net) (req : HttpRequest) (w w' : World) (ans : Http.Answer) : Prop where
  machine : w'.machine = w.machine
  served : ∃ (e : Env) (before : List ServerPhase) (server : Http.World)
    (log : List (Asked Http.Reply Http.Env)),
    Http.app.Lifetime w.server before server ∧
    w'.past = w.past ++ (before ++ [.turn ⟨req.request net e, log, ans⟩]) ∧
    req.arrives e.parts = true ∧
    Runs Http.World.answer server (Http.route server.server.app server.pages (req.request net e))
      log w'.server ans

theorem exchange_of_execute {net : Net} {e : Env} {w w' : World} {req : HttpRequest}
    {resp : HttpResponse} (h : w.execute net e req = some (.ok resp, w')) :
    ∃ ans, resp = net.receive ans ∧ Exchange net req w w' ans := by
  unfold World.execute at h
  split at h
  · cases h
  · rename_i past server hlive
    rcases Service.exists_lifetime_of_live hlive with ⟨before, rfl, hlife⟩
    cases hlost : e.lost with
    | true =>
        simp only [hlost, true_or, if_true] at h
        split_ifs at h
        · cases h
        · split at h <;> cases h
    | false =>
        simp only [hlost, Bool.false_eq_true, false_or, if_false] at h
        split_ifs at h with hfault harrives
        · cases h
        · split at h
          · cases h
          · rename_i log server' ans hrun
            cases h
            refine ⟨ans, rfl, rfl, e, before, server, log, hlife, ?_, harrives, .of_run hrun⟩
            exact List.append_assoc _ _ _

theorem wp_send_exchange {net : Net} {req : HttpRequest} {w : World} :
    wp (answering (World.answer net)) (send req) (fun r w' => ∀ resp, r = .ok resp →
      ∃ ans, resp = net.receive ans ∧ Exchange net req w w' ans) w := by
  simp only [send, wp_bind, wp_perform]
  refine ⟨trivial, ?_⟩
  rintro r w' ⟨e, hans⟩
  cases r with
  | error err => rintro resp ⟨⟩
  | ok resp' =>
      rintro resp ⟨⟩
      exact exchange_of_execute hans

end Cli
end Aardbin
