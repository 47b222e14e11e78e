import Aardbin.Rust.Int64
import Aardbin.Vendor

/-!
# Configuration (`config.rs`)
-/

namespace Aardbin

open Rust

/-- Maximum number of attachments allowed per record. -/
def maxAttachmentsPerRecord : Nat := 20

def CryptoKey : Type := { k : Bytes // k.length = 32 }

structure Config where
  accessKey : String
  cryptoKey : CryptoKey
  maxAttachmentBytes : Nat
  maxRequestBytes : Nat
  maxContentBytes : Nat
  pageSize : Int
  /-- in seconds -/
  sessionTtl : Nat
  cookieSecure : Bool

/-! ## Reading the environment -/

inductive ConfigError
  | missing (key : String)
  | invalid (msg : String)
  deriving DecidableEq, Repr

/-- The environment variables that are set to valid Unicode. -/
abbrev EnvVars : Type := String → Option String

/-- The value of one hexadecimal digit, given as a byte. -/
def hexDigit (b : UInt8) : Option Nat :=
  if 48 ≤ b ∧ b ≤ 57 then some (b.toNat - 48)
  else if 97 ≤ b ∧ b ≤ 102 then some (b.toNat - 87)
  else if 65 ≤ b ∧ b ≤ 70 then some (b.toNat - 55)
  else none

/-- `hex::decode`. -/
def hexDecode : Bytes → Option Bytes
  | [] => some []
  | [_] => none
  | hi :: lo :: rest =>
      match hexDigit hi, hexDigit lo, hexDecode rest with
      | some h, some l, some tail => some ((h * 16 + l).toUInt8 :: tail)
      | _, _, _ => none

theorem length_hexDecode {b k : Bytes} (h : hexDecode b = some k) : b.length = 2 * k.length := by
  induction b using hexDecode.induct generalizing k with
  | case1 =>
      cases h
      rfl
  | case2 => cases h
  | case3 hi lo rest high low tail htail hhigh hlow ih =>
      simp only [hexDecode, hhigh, hlow, htail, Option.some.injEq] at h
      subst h
      have hlen := ih htail
      simp only [List.length_cons, hlen]
      omega
  | case4 hi lo rest hnone ih =>
      simp only [hexDecode] at h
      cases h

def parseCryptoKey (s : String) : Except ConfigError CryptoKey :=
  let t := bytes (trim s)
  if hlen : t.length = 64 then
    match hkey : hexDecode t with
    | none => .error (.invalid "CRYPTO_KEY is not valid hex")
    | some key => .ok ⟨key, by have := length_hexDecode hkey; omega⟩
  else .error (.invalid "CRYPTO_KEY must be 64 hex characters (32 bytes)")

def parseU64Env (env : EnvVars) (name : String) (default : Nat) : Except ConfigError Nat :=
  match env name with
  | none => .ok default
  | some v =>
      match parseU64 (trim v) with
      | some n => .ok n
      | none => .error (.invalid s!"{name} must be a positive integer")

theorem parseU64Env_lt {env : EnvVars} {name : String} {default n : Nat}
    (hdefault : default < 2 ^ 64) (h : parseU64Env env name default = .ok n) : n < 2 ^ 64 := by
  unfold parseU64Env at h
  split at h
  · cases h
    exact hdefault
  · split at h
    · rename_i m hm
      cases h
      exact parseU64_lt hm
    · cases h

def parseBoolEnv (env : EnvVars) (name : String) (default : Bool) : Except ConfigError Bool :=
  match env name with
  | none => .ok default
  | some v =>
      let word := toAsciiLowercase (trim v)
      if word ∈ ["true", "1", "yes"] then .ok true
      else if word ∈ ["false", "0", "no"] then .ok false
      else .error (.invalid s!"{name} must be true/false")

def unitSeconds : Char → Option Nat
  | 'd' | 'D' => some 86400
  | 'h' | 'H' => some 3600
  | 'm' | 'M' => some 60
  | 's' | 'S' => some 1
  | _ => none

/-- Parses "7d" / "12h" / "30m" / plain seconds; the outer `none` is the panic of `split_at`
inside a character, and the product wraps as a `u64`. -/
def parseDuration (s : String) : Option (Option Nat) :=
  let s := trim s
  match s.toList.getLast? with
  | none => some none
  | some unit =>
      if unit.utf8Size ≠ 1 then none
      else
        match unitSeconds unit with
        -- no unit suffix: treat whole string as seconds
        | none => some (parseU64 s)
        | some multiplier =>
            some ((parseU64 (.ofList s.toList.dropLast)).map fun n => n * multiplier % 2 ^ 64)

def parseDurationEnv (env : EnvVars) (name : String) (default : Nat) :
    Option (Except ConfigError Nat) :=
  match env name with
  | none => some (.ok default)
  | some v =>
      (parseDuration v).map fun d =>
        match d with
        | some secs => .ok secs
        | none => .error (.invalid s!"{name} must be like 7d/12h/30m/seconds")

namespace Config

/-- `none` where Rust panics. -/
def fromEnv (env : EnvVars) : ExceptT ConfigError Option Config := do
  let some accessKey := env "ACCESS_KEY" | throw (.missing "ACCESS_KEY")
  if accessKey.utf8ByteSize < 16 then
    throw (.invalid "ACCESS_KEY must be at least 16 characters")
  let some cryptoKeyHex := env "CRYPTO_KEY" | throw (.missing "CRYPTO_KEY")
  let cryptoKey ← liftExcept (parseCryptoKey cryptoKeyHex)
  let maxAttachmentBytes ← liftExcept (parseU64Env env "MAX_ATTACHMENT_BYTES" (2 * 1024 * 1024))
  let maxRequestBytes ← liftExcept (parseU64Env env "MAX_REQUEST_BYTES" (8 * 1024 * 1024))
  let maxContentBytes ← liftExcept (parseU64Env env "MAX_CONTENT_BYTES" (1024 * 1024))
  let pageSize ← liftExcept (parseU64Env env "PAGE_SIZE" 20)
  let sessionTtl ← ExceptT.mk (parseDurationEnv env "SESSION_TTL" (7 * 24 * 3600))
  let cookieSecure ← liftExcept (parseBoolEnv env "COOKIE_SECURE" true)
  return { accessKey, cryptoKey, maxAttachmentBytes, maxRequestBytes, maxContentBytes
           pageSize := I64.wrap pageSize, sessionTtl, cookieSecure }

/-- Every field comes from its own variable. -/
structure ReadFrom (cfg : Config) (env : EnvVars) : Prop where
  accessKey : env "ACCESS_KEY" = some cfg.accessKey
  accessKeyLength : 16 ≤ cfg.accessKey.utf8ByteSize
  cryptoKey : ∃ hex, env "CRYPTO_KEY" = some hex ∧ parseCryptoKey hex = .ok cfg.cryptoKey
  maxAttachmentBytes :
    parseU64Env env "MAX_ATTACHMENT_BYTES" (2 * 1024 * 1024) = .ok cfg.maxAttachmentBytes
  maxRequestBytes : parseU64Env env "MAX_REQUEST_BYTES" (8 * 1024 * 1024) = .ok cfg.maxRequestBytes
  maxContentBytes : parseU64Env env "MAX_CONTENT_BYTES" (1024 * 1024) = .ok cfg.maxContentBytes
  pageSize : ∃ n : ℕ, parseU64Env env "PAGE_SIZE" 20 = .ok n ∧ cfg.pageSize = I64.wrap n
  sessionTtl : parseDurationEnv env "SESSION_TTL" (7 * 24 * 3600) = some (.ok cfg.sessionTtl)
  cookieSecure : parseBoolEnv env "COOKIE_SECURE" true = .ok cfg.cookieSecure

theorem run_bind_eq_ok {ε α β : Type} {x : ExceptT ε Option α} {f : α → ExceptT ε Option β} {b : β} :
    (x >>= f).run = some (.ok b) ↔ ∃ a, x.run = some (.ok a) ∧ (f a).run = some (.ok b) := by
  rw [ExceptT.run_bind]
  cases x.run with
  | none => simp
  | some r => cases r <;> simp

theorem run_liftExcept {ε α : Type} (x : Except ε α) :
    (liftExcept x : ExceptT ε Option α).run = some x := by
  cases x <;> rfl

theorem readFrom_of_fromEnv {env : EnvVars} {cfg : Config}
    (h : (fromEnv env).run = some (.ok cfg)) : cfg.ReadFrom env := by
  unfold fromEnv at h
  split at h
  · rename_i accessKey haccess
    split_ifs at h with hlen
    · cases h
    · split at h
      · rename_i hex hhex
        simp only [run_bind_eq_ok, run_liftExcept, Option.some.injEq, -Nat.reduceMul] at h
        rcases h with ⟨key, hkey, att, hatt, req, hreq, content, hcontent, n, hn, ttl, httl,
          secure, hsecure, h⟩
        cases h
        exact
          { accessKey := haccess
            accessKeyLength := Nat.le_of_not_lt hlen
            cryptoKey := ⟨hex, hhex, hkey⟩
            maxAttachmentBytes := hatt
            maxRequestBytes := hreq
            maxContentBytes := hcontent
            pageSize := ⟨n, hn, by dsimp only⟩
            sessionTtl := httl
            cookieSecure := hsecure }
      · cases h
  · cases h

/-- Variables that are accepted with the value `x` of a field show that there is a configuration
with it. -/
theorem exists_fromEnv {α : Type} {field : Config → α} {env : EnvVars} {x : α}
    (h : ((fromEnv env).run.bind (·.toOption)).map field = some x) :
    ∃ cfg, (fromEnv env).run = some (.ok cfg) ∧ field cfg = x := by
  rcases Option.map_eq_some_iff.1 h with ⟨cfg, hcfg, hx⟩
  rcases Option.bind_eq_some_iff.1 hcfg with ⟨r, hr, htoOption⟩
  cases r with
  | error e => cases htoOption
  | ok cfg' =>
      cases htoOption
      exact ⟨cfg, hr, hx⟩

end Config

end Aardbin
