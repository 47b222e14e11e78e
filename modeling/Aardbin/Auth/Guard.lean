import Aardbin.Auth.Login
import Aardbin.Effect.Transcript

/-!
# The session guard (`guard.rs`, and how `session.rs` reads a cookie)

Every protected route is behind `requireAuth`, which looks at nothing but the headers of the
request, the session key and the clock.
-/

namespace Aardbin

open Effect Rust

/-! ## Reading a cookie -/

namespace SessionManager

/-- The expiry in a cookie issued at `now`. -/
def expiry (m : SessionManager) (now : Nat) : Nat :=
  (now + m.ttl) % 2 ^ 64

def validate (m : SessionManager) (value : String) : Program Auth.Reply Bool :=
  match splitn 3 value '.' with
  | [version, expiryS, macHex] =>
      if version = "v1" then
        match parseU64 expiryS with
        | none => return false
        | some expiry => do
            let now ← Auth.Ask.unixTime
            if expiry ≤ now then
              return false
            else
              return decide (m.macFor expiry = macHex)
      else
        return false
  | _ => return false

end SessionManager

/-- The value of the first session cookie in a `Cookie` header. -/
def sessionValue (header : String) : Option String :=
  (split header ';').findSome? fun pair => stripPrefix (trim pair) s!"{cookieName}="

def extractValidSession (cookieHeader : Option String) (mgr : SessionManager) :
    Program Auth.Reply Bool :=
  match cookieHeader with
  | none => return false
  | some header =>
      match sessionValue header with
      | none => return false
      | some value => mgr.validate value

namespace Auth

/-- Lets the request through to its route, or answers it. -/
def requireAuth (s : AppState) (headers : HeaderMap) :
    Program Reply (Except Response Unit) := do
  if ← extractValidSession (headers "cookie") s.sessions then
    return .ok ()
  else if headers "hx-request" = some "true" then
    return .error
      { status := .unauthorized
        headers := [("hx-redirect", "/login"), ("content-type", "text/plain; charset=utf-8")]
        body := .text "session expired" }
  else
    return .error { status := .seeOther, headers := [("location", "/login")], body := .empty }

/-! ## The service -/

/-- A request that brings an access key, or one to a protected route. -/
inductive Visit
  | key (req : Request)
  | route (headers : HeaderMap)

inductive Ending
  | key (out : Outcome)
  | answered (resp : Response)
  | forwarded

def receive (s : AppState) : Visit → Program Reply Ending
  | .key req => do
      return .key (← handle s req)
  | .route headers => do
      match ← requireAuth s headers with
      | .error resp => return .answered resp
      | .ok () => return .forwarded

/-- The process; what it knows of its sessions is the access key. -/
def site (s : AppState) : Service Reply World Env Unit Visit Ending where
  handler := fun _ visit => receive s visit
  answer := World.answer
  reboot := fun _ w => { w with limiter := .new }

abbrev SiteLog : Type := History Reply Env Unit Visit Ending

/-! ## What a request asks, and when it is let through -/

/-- The replies that the world gives: a comparison is right, a clock reads anything. -/
def Answers : (op : Call) → Reply op → Prop
  | .ctEq given expected, right => right = decide (given = expected)
  | _, _ => True

theorem answers_of_answer (env : Env) (w : World) (op : Call) (r : Reply op) (w' : World)
    (h : w.answer env op = some (r, w')) : Answers op r := by
  unfold World.answer at h
  split_ifs at h
  cases op with
  | ctEq given expected =>
      cases h
      rfl
  | _ => trivial

abbrev Asks : Type := List (Asked Reply Env)

/-- The token names the expiry `e` and is signed for it. -/
def Signed (m : SessionManager) (value : String) (e : ℕ) : Prop :=
  ∃ expiryS, splitn 3 value '.' = ["v1", expiryS, m.macFor e] ∧ parseU64 expiryS = some e

/-- The session cookie among the headers is signed for the expiry `e`. -/
def Bears (m : SessionManager) (headers : HeaderMap) (e : ℕ) : Prop :=
  ∃ cookie value, headers "cookie" = some cookie ∧ sessionValue cookie = some value ∧
    Signed m value e

/-- The three parts of a token fix the expiry it is signed for. -/
theorem signed_iff_of_parts {m : SessionManager} {value expiryS macHex : String} {expiry : ℕ}
    (hparts : splitn 3 value '.' = ["v1", expiryS, macHex])
    (hexpiry : parseU64 expiryS = some expiry) (e : ℕ) :
    Signed m value e ↔ m.macFor expiry = macHex ∧ e = expiry := by
  simp only [Signed, hparts, List.cons.injEq, true_and, and_true]
  constructor
  · rintro ⟨_, ⟨rfl, hmac⟩, he⟩
    rw [hexpiry, Option.some.injEq] at he
    exact ⟨he ▸ hmac.symm, he.symm⟩
  · rintro ⟨hmac, rfl⟩
    exact ⟨expiryS, ⟨rfl, hmac.symm⟩, hexpiry⟩

/-- A token is valid when it is signed for an expiry after the one clock reading. -/
theorem wp_validate (m : SessionManager) (value : String) (log : Asks) :
    wp (logging Env Answers) (m.validate value)
      (fun valid log' => valid = true ↔ ∃ e env n, Signed m value e ∧ n < e ∧
        log' = log ++ [⟨env, .unixTime, n⟩]) log := by
  unfold SessionManager.validate
  split
  · rename_i version expiryS macHex hparts
    split_ifs with hversion
    · subst hversion
      cases hexpiry : parseU64 expiryS with
      | none => simp [Signed, hparts, hexpiry]
      | some expiry =>
          simp only [wp_bind]
          refine wp_logging_perform fun env n _ => ?_
          have hsigned : ∀ e, Signed m value e ↔ m.macFor expiry = macHex ∧ e = expiry :=
            signed_iff_of_parts hparts hexpiry
          split_ifs with hle
          · simp only [wp_pure, Bool.false_eq_true, false_iff]
            rintro ⟨e, env', n', he, hlt, hlog⟩
            have hn : env = env' ∧ n = n' := by simpa using hlog
            rw [((hsigned e).1 he).2, ← hn.2] at hlt
            omega
          · simp only [wp_pure, decide_eq_true_eq]
            constructor
            · exact fun hmac => ⟨expiry, env, n, (hsigned _).2 ⟨hmac, rfl⟩, by omega, rfl⟩
            · rintro ⟨e, _, _, he, -, -⟩
              exact ((hsigned e).1 he).1
    · simp [Signed, hparts, hversion]
  · rename_i hparts
    simp only [wp_pure, Bool.false_eq_true, false_iff]
    rintro ⟨e, _, _, ⟨expiryS, hsigned, -⟩, -, -⟩
    exact hparts _ _ _ hsigned

/-- A request is let through when its session cookie is signed for an expiry after the one clock
reading. -/
theorem wp_requireAuth (s : AppState) (headers : HeaderMap) :
    wp (logging Env Answers) (requireAuth s headers)
      (fun r log => r = .ok () ↔ ∃ e env n, Bears s.sessions headers e ∧ n < e ∧
        log = [⟨env, .unixTime, n⟩]) [] := by
  have hextract : wp (logging Env Answers) (extractValidSession (headers "cookie") s.sessions)
      (fun valid log => valid = true ↔ ∃ e env n, Bears s.sessions headers e ∧ n < e ∧
        log = [⟨env, .unixTime, n⟩]) [] := by
    unfold extractValidSession
    cases hcookie : headers "cookie" with
    | none => simp [Bears, hcookie]
    | some header =>
        dsimp only
        cases hvalue : sessionValue header with
        | none => simp [Bears, hcookie, hvalue]
        | some value =>
            refine wp_mono (wp_validate s.sessions value []) fun valid log h => ?_
            simpa [Bears, hcookie, hvalue] using h
  unfold requireAuth
  rw [wp_bind]
  refine wp_mono hextract fun valid log h => ?_
  cases valid with
  | true => simpa using h
  | false =>
      simp only [Bool.false_eq_true, if_false]
      split_ifs <;> simpa using h

end Auth
end Aardbin
