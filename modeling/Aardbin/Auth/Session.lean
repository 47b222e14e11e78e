import Aardbin.Form

/-!
# Session cookies (`session.rs`)
-/

namespace Aardbin

open Rust

def cookieName : String := "aardbin_session"

structure SessionManager where
  vendor : Vendor
  key : Bytes
  /-- in seconds -/
  ttl : Nat
  cookieSecure : Bool

/-- `hex::encode`. -/
def hexEncode (b : Bytes) : String :=
  .ofList (b.flatMap fun byte =>
    [Nat.digitChar (byte.toNat / 16), Nat.digitChar (byte.toNat % 16)])

namespace SessionManager

def new (v : Vendor) (accessKey : String) (ttl : Nat) (cookieSecure : Bool) : SessionManager :=
  { vendor := v, key := v.sha256 (bytes "aardbin-session-v1:" ++ bytes accessKey), ttl, cookieSecure }

def macFor (m : SessionManager) (expiry : Nat) : String :=
  hexEncode (m.vendor.hmacSha256 m.key (bytes s!"v1.{expiry}"))

/-- The cookie value for a client that has just logged in; the sum wraps as a `u64`. -/
def issue (m : SessionManager) (now : Nat) : String :=
  let expiry := (now + m.ttl) % 2 ^ 64
  s!"v1.{expiry}.{m.macFor expiry}"

def issueSetCookie (m : SessionManager) (now : Nat) : String :=
  s!"{cookieName}={m.issue now}; Path=/; HttpOnly; SameSite=Lax; Max-Age={m.ttl}" ++
    if m.cookieSecure then "; Secure" else ""

end SessionManager

def AppState.sessions (s : AppState) : SessionManager :=
  .new s.vendor s.cfg.accessKey s.cfg.sessionTtl s.cfg.cookieSecure

end Aardbin
