import Aardbin.Auth.Limiter
import Aardbin.Auth.Session
import Aardbin.Effect.Pool

/-!
# Checking the access key (`post_login` in `routes.rs`, `ApiAuth` in `api.rs`)

Both share the limiter.  A request asks the limiter whether it may try its key, compares the key,
and records the outcome; other requests may come in between any two of these calls.
-/

namespace Aardbin
namespace Auth

open Effect Rust

/-! ## The calls -/

inductive Call
  | check (ip : IpAddr)
  | recordFailure (ip : IpAddr)
  | recordSuccess (ip : IpAddr)
  /-- `ct_eq` of a given key and the access key -/
  | ctEq (given expected : String)
  | unixTime
  deriving DecidableEq

@[reducible] def Reply : Call → Type
  | .check _ => Except Nat Unit
  | .recordFailure _ => Unit
  | .recordSuccess _ => Unit
  | .ctEq _ _ => Bool
  | .unixTime => Nat

/-- What the environment decides at one call: the readings of the clocks. -/
structure Env where
  instant : Nat := 0
  unixTime : Nat := 0

/-- The limiter, and the last reading of the monotonic clock. -/
structure World where
  limiter : LoginRateLimiter
  clock : Nat

/-- The clock never goes backwards. -/
def World.answer (e : Env) (w : World) (op : Call) : Option (Reply op × World) :=
  if e.instant < w.clock then none
  else
    match op with
    | .check ip =>
        some ((w.limiter.check ip e.instant).1,
          { limiter := (w.limiter.check ip e.instant).2, clock := e.instant })
    | .recordFailure ip =>
        some ((), { limiter := w.limiter.recordFailure ip e.instant, clock := e.instant })
    | .recordSuccess ip =>
        some ((), { limiter := w.limiter.recordSuccess ip, clock := e.instant })
    | .ctEq given expected => some (decide (given = expected), { w with clock := e.instant })
    | .unixTime => some (e.unixTime, { w with clock := e.instant })

namespace Ask

abbrev check (ip : IpAddr) : Program Reply (Except Nat Unit) := .perform (Call.check ip)
abbrev recordFailure (ip : IpAddr) : Program Reply Unit := .perform (Call.recordFailure ip)
abbrev recordSuccess (ip : IpAddr) : Program Reply Unit := .perform (Call.recordSuccess ip)

abbrev ctEq (given expected : String) : Program Reply Bool :=
  .perform (Call.ctEq given expected)

abbrev unixTime : Program Reply Nat := .perform Call.unixTime

end Ask

/-! ## The handlers -/

structure LoginForm where
  accessKey : String

def postLogin (s : AppState) (ip : IpAddr) (headers : HeaderMap) (form : LoginForm) :
    Program Reply Response := do
  let lang := detectLang headers
  match ← Ask.check ip with
  | .error remaining =>
      let secs := remaining / second
      let minutes := (secs + 59) / 60
      let plural := if minutes = 1 then "" else "s"
      let errorMsg := replace (replace (I18n.t lang "rate.too_many") "\x7bminutes\x7d"
        (toString minutes)) "\x7bplural\x7d" plural
      let view : LoginView := { lang, error := some errorMsg }
      let html := (s.vendor.renderLang lang (.login view)).getD "Too many attempts"
      return { status := .tooManyRequests
               headers :=
                 [("retry-after", toString secs), ("content-type", "text/html; charset=utf-8")]
               body := .html html }
  | .ok () =>
      if ← Ask.ctEq form.accessKey s.cfg.accessKey then
        Ask.recordSuccess ip
        let now ← Ask.unixTime
        return { status := .seeOther
                 headers := [("location", "/"), ("set-cookie", s.sessions.issueSetCookie now)]
                 body := .empty }
      else
        Ask.recordFailure ip
        return { status := .seeOther, headers := [("location", "/login?error=1")], body := .empty }

/-- `ApiAuth::from_request_parts`; the address is missing when the server does not provide it. -/
def fromRequestParts (s : AppState) (addr : Option IpAddr) (headers : HeaderMap) :
    Program Reply (Except Response Unit) :=
  match addr with
  | none => return .error (jsonError .internalServerError "internal error")
  | some ip => do
      match ← Ask.check ip with
      | .error remaining =>
          let secs := remaining / second
          return .error
            { status := .tooManyRequests
              headers :=
                [("retry-after", toString secs), ("content-type", "text/plain; charset=utf-8")]
              body := .jsonError s!"Too many attempts. Try again in {secs} seconds." }
      | .ok () =>
          match headers "authorization" with
          | none => return .error (jsonError .unauthorized "missing Authorization header")
          | some authHeader =>
              match stripPrefix authHeader "Bearer " with
              | none => return .error (jsonError .unauthorized "invalid Authorization format")
              | some token =>
                  if ← Ask.ctEq token s.cfg.accessKey then
                    -- A success does not clear the counter.
                    return .ok ()
                  else
                    Ask.recordFailure ip
                    return .error (jsonError .unauthorized "invalid access key")

/-! ## The service -/

inductive Request
  | login (ip : IpAddr) (headers : HeaderMap) (form : LoginForm)
  | api (addr : Option IpAddr) (headers : HeaderMap)

/-- What becomes of a request here; an API request that is admitted goes on to its handler. -/
inductive Outcome
  | answered (resp : Response)
  | admitted

def handle (s : AppState) : Request → Program Reply Outcome
  | .login ip headers form => do
      return .answered (← postLogin s ip headers form)
  | .api addr headers => do
      match ← fromRequestParts s addr headers with
      | .error resp => return .answered resp
      | .ok () => return .admitted

/-- The process; a restart forgets the failures. -/
def gate (s : AppState) : Service Reply World Env Unit Request Outcome where
  handler := fun _ req => handle s req
  answer := World.answer
  reboot := fun _ w => { w with limiter := .new }

abbrev Log : Type := History Reply Env Unit Request Outcome

end Auth
end Aardbin
