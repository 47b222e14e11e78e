import Aardbin.Form
import Aardbin.Rust.Pattern

/-!
# The origin guard (`origin_guard` in `guard.rs`)

Every request passes it first.  It refuses a POST that a browser marks as coming from another
site: by `Sec-Fetch-Site`, or by an `Origin` whose host is not the `Host` of the request.
-/

namespace Aardbin
namespace Http

open Rust

inductive Method
  | get
  | post
  | delete
  | other
  deriving DecidableEq, Repr

/-- The headers by lower-case name; `some none` is a value that is not visible ASCII. -/
structure Headers where
  get : String → Option (Option String)

/-- The values that `to_str` can read. -/
def Headers.readable (h : Headers) : HeaderMap := fun name =>
  (h.get name).join

/-- The host in an `Origin`. -/
def originHost (origin : String) : Option String :=
  (splitStr origin "://")[1]?.map fun host => toAsciiLowercase (trimEndMatches host '/')

/-- The check of `Sec-Fetch-Site`. -/
def fetchSiteOk (h : Headers) : Bool :=
  match h.get "sec-fetch-site" with
  | none => true
  | some value => value ∈ [some "same-origin", some "same-site", some "none"]

/-- The check of `Origin`. -/
def originOk (h : Headers) : Bool :=
  match h.get "origin" with
  | none => true
  | some origin =>
      match origin.bind originHost, (h.readable "host").map toAsciiLowercase with
      | some o, some host => o = host
      | _, _ => false

/-- Lets the request through, or tells why it is forbidden. -/
def originGuard (method : Method) (h : Headers) : Except String Unit :=
  if method = .post then
    if fetchSiteOk h then
      if originOk h then .ok () else .error "origin mismatch"
    else .error "cross-site request rejected"
  else .ok ()

theorem originGuard_eq_ok {method : Method} {h : Headers} :
    originGuard method h = .ok () ↔
      (method = .post → fetchSiteOk h = true ∧ originOk h = true) := by
  unfold originGuard
  split_ifs with hpost hfetch horigin <;> simp_all

/-! ## What a browser sends -/

/-- An origin as browsers write it; an authority has no slash. -/
theorem originHost_of_parts {scheme authority : String} (hscheme : ':' ∉ scheme.toList)
    (hauthority : '/' ∉ authority.toList) :
    originHost (scheme ++ "://" ++ authority) = some (toAsciiLowercase authority) := by
  have hsplit : splitStr (scheme ++ "://" ++ authority) "://" = [scheme, authority] := by
    have hchars : (scheme ++ "://" ++ authority).toList =
        scheme.toList ++ (':' :: ['/', '/'] ++ authority.toList) := by
      simp
    have hpat : "://".toList = ':' :: ['/', '/'] := rfl
    rw [splitStr, hchars, hpat, splitStrChars_match hscheme,
      splitStrChars_of_not_mem (q := '/') (by decide) hauthority]
    simp
  rw [originHost, hsplit]
  simp [trimEndMatches_of_not_mem hauthority]

/-- The browser says that a page of another site has sent the request. -/
def CrossSite (h : Headers) : Prop :=
  h.get "sec-fetch-site" = some (some "cross-site") ∨
  (∃ scheme authority host, ':' ∉ scheme.toList ∧ '/' ∉ authority.toList ∧
    h.get "origin" = some (some (scheme ++ "://" ++ authority)) ∧
    h.get "host" = some (some host) ∧ toAsciiLowercase authority ≠ toAsciiLowercase host) ∨
  h.get "origin" = some (some "null")

theorem CrossSite.refused {h : Headers} (hcross : CrossSite h) :
    ∃ msg, originGuard .post h = .error msg := by
  have hbad : ¬ (fetchSiteOk h = true ∧ originOk h = true) := by
    rintro ⟨hfetch, horigin⟩
    rcases hcross with hsite | ⟨scheme, authority, host, hs, ha, ho, hh, hne⟩ | hnull
    · simp [fetchSiteOk, hsite] at hfetch
    · simp [originOk, ho, Headers.readable, hh, originHost_of_parts hs ha, hne] at horigin
    · have hhost : originHost "null" = none := by decide
      simp [originOk, hnull, hhost] at horigin
  cases hguard : originGuard .post h with
  | error msg => exact ⟨msg, rfl⟩
  | ok _ => exact absurd (originGuard_eq_ok.1 hguard rfl) hbad

end Http
end Aardbin
