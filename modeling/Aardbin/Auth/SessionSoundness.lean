import Aardbin.Auth.Guard
import Aardbin.PlainVendor

/-!
# Whoever is let through has logged in

The cookie that a request brings is any string.  What is assumed of it is that nobody can write
down the MAC of an expiry before a cookie with that expiry was handed out (`IdealMac`); the rest
is what the login handler and the guard do with the cookies.
-/

namespace Aardbin
namespace Auth

open Effect Rust

/-! ## Cookies that were handed out -/

/-- Some response carries a session cookie that expires at `e`. -/
def CookieIssued (s : AppState) (tr : SiteLog) (e : ℕ) : Prop :=
  ∃ j resp now, .finish j (.key (.answered resp)) ∈ tr ∧
    ("set-cookie", s.sessions.issueSetCookie now) ∈ resp.headers ∧ s.sessions.expiry now = e

/-- A request to a protected route whose `Cookie` header holds the MAC of an expiry, anywhere in
it, comes after a cookie with that expiry. -/
def IdealMac (s : AppState) : Guard Reply World Env Unit Visit Ending
  | tr, _, .start _ (.route headers) => ∀ cookie e, headers "cookie" = some cookie → e < 2 ^ 64 →
      (s.sessions.macFor e).toList <:+: cookie.toList → CookieIssued s tr e
  | _, _, _ => True

/-- Request `j` logged in at time `t`: the limiter let its address try, its key is the access key,
and its response sets the cookie. -/
def LoggedIn (s : AppState) (tr : SiteLog) (j t : ℕ) : Prop :=
  ∃ ip headers form resp e₁ e₂ e₃ e₄,
    Transcript tr j (.key (.login ip headers form))
      [⟨e₁, .check ip, .ok ()⟩, ⟨e₂, .ctEq form.accessKey s.cfg.accessKey, true⟩,
        ⟨e₃, .recordSuccess ip, ()⟩, ⟨e₄, .unixTime, t⟩] (.key (.answered resp)) ∧
    form.accessKey = s.cfg.accessKey ∧
    ("set-cookie", s.sessions.issueSetCookie t) ∈ resp.headers

/-- A cookie shows its expiry. -/
theorem expiry_eq_of_issueSetCookie {m : SessionManager} {t t' : ℕ}
    (h : m.issueSetCookie t = m.issueSetCookie t') : m.expiry t = m.expiry t' := by
  have hform : ∀ now, ∃ rest, (m.issueSetCookie now).toList =
      "aardbin_session=v1.".toList ++ ((m.expiry now).repr.toList ++ '.' :: rest) := by
    intro now
    refine ⟨(m.macFor (m.expiry now)).toList ++
      ("; Path=/; HttpOnly; SameSite=Lax; Max-Age=".toList ++
        (m.ttl.repr.toList ++ (if m.cookieSecure then "; Secure" else "").toList)), ?_⟩
    simp [SessionManager.issueSetCookie, SessionManager.issue, SessionManager.expiry, cookieName,
      toString, Nat.repr]
  rcases hform t with ⟨rest, hrest⟩
  rcases hform t' with ⟨rest', hrest'⟩
  rw [h, hrest'] at hrest
  exact (repr_append_inj (by decide) (List.append_cancel_left hrest)).symm

/-- The MAC of a session cookie stands in the `Cookie` header. -/
theorem Bears.mac {m : SessionManager} {headers : HeaderMap} {e : ℕ} (h : Bears m headers e) :
    ∃ cookie, headers "cookie" = some cookie ∧ e < 2 ^ 64 ∧
      (m.macFor e).toList <:+: cookie.toList := by
  rcases h with ⟨cookie, value, hcookie, hvalue, expiryS, hparts, hexpiry⟩
  refine ⟨cookie, hcookie, parseU64_lt hexpiry, ?_⟩
  rcases List.exists_of_findSome?_eq_some hvalue with ⟨pair, hpair, hstrip⟩
  have hmem : m.macFor e ∈ splitn 3 value '.' := by simp [hparts]
  have hrest : value.toList <:+: (trim pair).toList := by
    rw [stripPrefix_eq_some hstrip]
    exact (List.suffix_append _ _).isInfix
  have hcookiePair : (trim pair).toList <:+: cookie.toList :=
    (infix_trim pair).trans (infix_of_mem_split hpair)
  exact (infix_of_mem_splitn hmem).trans (hrest.trans hcookiePair)

/-! ## What the handlers do -/

/-- A request that is let through bears a cookie, and a response that sets one is a login's. -/
def VisitPost (s : AppState) (visit : Visit) : Ending → Asks → Prop
  | .forwarded, log => ∃ headers e env n, visit = .route headers ∧ Bears s.sessions headers e ∧ n < e ∧
      log = [⟨env, .unixTime, n⟩]
  | .key (.answered resp), log => ∀ cookie, ("set-cookie", cookie) ∈ resp.headers →
      ∃ ip headers form e₁ e₂ e₃ e₄ t, visit = .key (.login ip headers form) ∧
        form.accessKey = s.cfg.accessKey ∧ cookie = s.sessions.issueSetCookie t ∧
        log = [⟨e₁, .check ip, .ok ()⟩, ⟨e₂, .ctEq form.accessKey s.cfg.accessKey, true⟩,
          ⟨e₃, .recordSuccess ip, ()⟩, ⟨e₄, .unixTime, t⟩]
  | _, _ => True

theorem wp_postLogin_cookie (s : AppState) (ip : IpAddr) (headers : HeaderMap) (form : LoginForm) :
    wp (logging Env Answers) (postLogin s ip headers form)
      (fun resp log => VisitPost s (.key (.login ip headers form)) (.key (.answered resp)) log)
      [] := by
  simp only [postLogin, wp_bind]
  refine wp_logging_perform fun e₁ r _ => ?_
  cases r with
  | error remaining => simp [VisitPost]
  | ok _ =>
      simp only [wp_bind]
      refine wp_logging_perform fun e₂ right hright => ?_
      cases right with
      | false =>
          -- A wrong key is answered without a cookie.
          refine wp_logging_perform fun e₃ _ _ => ?_
          simp [VisitPost]
      | true =>
          have hkey : form.accessKey = s.cfg.accessKey := by simpa [Answers] using hright.symm
          refine wp_logging_perform fun e₃ _ _ => ?_
          refine wp_logging_perform fun e₄ t _ => ?_
          intro cookie hcookie
          refine ⟨ip, headers, form, e₁, e₂, e₃, e₄, t, rfl, hkey, ?_, rfl⟩
          simpa using hcookie

theorem wp_fromRequestParts_cookie (s : AppState) (addr : Option IpAddr) (headers : HeaderMap) :
    wp (logging Env Answers) (fromRequestParts s addr headers)
      (fun r _ => ∀ resp, r = .error resp → ∀ cookie, ("set-cookie", cookie) ∉ resp.headers)
      [] := by
  cases addr with
  | none => simp [fromRequestParts, jsonError]
  | some ip =>
      simp only [fromRequestParts, wp_bind]
      refine wp_logging_perform fun e₁ r _ => ?_
      cases r with
      | error remaining => simp
      | ok _ =>
          dsimp only
          split
          · simp [jsonError]
          · split
            · simp [jsonError]
            · simp only [wp_bind]
              refine wp_logging_perform fun e₂ right _ => ?_
              cases right with
              | true => simp
              | false =>
                  refine wp_logging_perform fun e₃ _ _ => ?_
                  simp [jsonError]

theorem wp_receive (s : AppState) (visit : Visit) :
    wp (logging Env Answers) (receive s visit) (VisitPost s visit) [] := by
  cases visit with
  | key req =>
      simp only [receive, wp_bind]
      cases req with
      | login ip headers form =>
          simp only [handle, wp_bind]
          exact wp_postLogin_cookie s ip headers form
      | api addr headers =>
          simp only [handle, wp_bind]
          refine wp_mono (wp_fromRequestParts_cookie s addr headers) fun r log h => ?_
          cases r with
          | ok _ => trivial
          | error resp => exact fun cookie hcookie => absurd hcookie (h resp rfl cookie)
  | route headers =>
      simp only [receive, wp_bind]
      refine wp_mono (wp_requireAuth s headers) fun r log h => ?_
      cases r with
      | error resp => trivial
      | ok _ =>
          rcases h.1 rfl with ⟨e, env, n, hbears, hlt, hlog⟩
          exact ⟨headers, e, env, n, rfl, hbears, hlt, hlog⟩

/-! ## Runs -/

section Runs

variable {s : AppState} {w₀ : World} {tr : SiteLog} {c : Pool Reply World Ending}
  {guard : Guard Reply World Env Unit Visit Ending}

/-- Every cookie that was handed out was handed out to a login. -/
theorem loggedIn_of_cookieIssued (hrun : (site s).Run guard w₀ tr c) {e : ℕ}
    (h : CookieIssued s tr e) : ∃ j t, LoggedIn s tr j t ∧ s.sessions.expiry t = e := by
  rcases h with ⟨j, resp, now, hfin, hcookie, rfl⟩
  rcases hrun.transcript answers_of_answer (fun _ => wp_receive s) hfin with
    ⟨visit, log, hpost, htranscript⟩
  rcases hpost _ hcookie with ⟨ip, headers, form, e₁, e₂, e₃, e₄, t, rfl, hkey, hissue, rfl⟩
  refine ⟨j, t, ⟨ip, headers, form, resp, e₁, e₂, e₃, e₄, htranscript, hkey, ?_⟩, ?_⟩
  · rwa [← hissue]
  · exact (expiry_eq_of_issueSetCookie hissue).symm

/-- Whenever the guard lets a request through at time `n`, its cookie names an expiry `e` after
`n`, and an earlier login got a cookie with the same expiry less than `ttl` before. -/
theorem forwarded_loggedIn (hrun : (site s).Run (IdealMac s) w₀ tr c) {i : ℕ}
    (h : .finish i .forwarded ∈ tr) :
    ∃ headers env n e before after j t,
      Transcript tr i (.route headers) [⟨env, .unixTime, n⟩] .forwarded ∧
      tr = before ++ .start i (.route headers) :: after ∧
      Bears s.sessions headers e ∧ LoggedIn s before j t ∧ s.sessions.expiry t = e ∧
      n < e ∧ n < t + s.cfg.sessionTtl := by
  rcases hrun.transcript answers_of_answer (fun _ => wp_receive s) h with
    ⟨visit, log, hpost, htranscript⟩
  rcases hpost with ⟨headers, e, env, n, rfl, hbears, hlt, rfl⟩
  have hstart : .start i (.route headers) ∈ tr := by
    rw [← mem_byThread rfl, htranscript]
    simp
  rcases List.append_of_mem hstart with ⟨before, after, htr⟩
  -- The guard looked at the cookie when the request came in.
  rcases hrun.split htr with ⟨c₁, hrun₁, hideal⟩
  rcases hbears.mac with ⟨cookie, hcookie, hsmall, hmac⟩
  rcases loggedIn_of_cookieIssued hrun₁ (hideal cookie e hcookie hsmall hmac) with
    ⟨j, t, hlogin, hexpiry⟩
  refine ⟨headers, env, n, e, before, after, j, t, htranscript, htr, hbears, hlogin, hexpiry,
    hlt, ?_⟩
  calc n < e := hlt
    _ = (t + s.cfg.sessionTtl) % 2 ^ 64 := hexpiry.symm
    _ ≤ t + s.cfg.sessionTtl := Nat.mod_le _ _

end Runs

/-! ## A run -/

/-- A process whose MACs can be computed. -/
def stamped : AppState where
  vendor :=
    { Vendor.plain with
      hmacSha256 := fun _ msg => .replicate 8 (if msg = bytes "v1.5" then 1 else 2) }
  cfg := { AppState.plain.cfg with sessionTtl := 3 }

/-- The cookie that a login gets at time 2, with its expiry spelt in another way. -/
def respelt : String :=
  s!"aardbin_lang=en; aardbin_session=v1.+05.{stamped.sessions.macFor 5}"

def handsOut (m : SessionManager) (now : ℕ) : Event Reply Env Unit Visit Ending → Bool
  | .finish _ (.key (.answered resp)) =>
      resp.headers.any fun h => decide (h = ("set-cookie", m.issueSetCookie now))
  | _ => false

/-- Routes are asked with the one cookie only, after it was handed out. -/
def Respelling : Guard Reply World Env Unit Visit Ending
  | tr, _, .start _ (.route headers) =>
      headers "cookie" = some respelt ∧ tr.any (handsOut stamped.sessions 2) = true
  | _, _, _ => True

instance (tr : SiteLog) (c : Pool Reply World Ending) :
    (e : Event Reply Env Unit Visit Ending) → Decidable (Respelling tr c e)
  | .start _ (.route _) => inferInstanceAs (Decidable (_ ∧ _))
  | .start _ (.key _) => .isTrue trivial
  | .ask _ _ _ _ | .finish _ _ | .abandon _ | .reboot _ => .isTrue trivial

theorem macFor_stamped {e : ℕ} (he : e ≠ 5) :
    stamped.sessions.macFor e = hexEncode (.replicate 8 2) := by
  have hne : bytes s!"v1.{e}" ≠ bytes "v1.5" := by
    intro h
    have hdigits : Nat.toDigits 10 e = ['5'] := by
      simpa [toString] using congrArg String.toList (bytes_inj.1 h)
    refine he ?_
    calc e = Nat.ofDigitChars 10 (Nat.toDigits 10 e) 0 := Nat.ofDigitChars_ten_toDigits.symm
      _ = Nat.ofDigitChars 10 ['5'] 0 := by rw [hdigits]
      _ = 5 := rfl
  exact congrArg hexEncode (congrArg (List.replicate 8) (if_neg hne))

theorem idealMac_of_respelling {tr : SiteLog} {c : Pool Reply World Ending}
    {x : Event Reply Env Unit Visit Ending} (h : Respelling tr c x) : IdealMac stamped tr c x := by
  cases x with
  | start i visit =>
      cases visit with
      | key req => trivial
      | route headers =>
          rcases h with ⟨hcookie, hany⟩
          rcases List.any_eq_true.1 hany with ⟨x, hx, hout⟩
          intro cookie e hcookie' _ hmac
          rw [hcookie, Option.some.injEq] at hcookie'
          subst hcookie'
          by_cases he : e = 5
          · subst he
            unfold handsOut at hout
            split at hout
            · exact ⟨_, _, 2, hx, by simpa using hout, rfl⟩
            · cases hout
          · rw [macFor_stamped he] at hmac
            exact absurd hmac (by decide +kernel)
  | _ => trivial

/-- One client logs in at time 2 and is let through with its cookie at time 4. -/
theorem forwarded_loggedIn_run : ∃ tr c,
    (site stamped).Run (IdealMac stamped) { limiter := .new, clock := 0 } tr c ∧
      .finish 1 .forwarded ∈ tr ∧
      ∃ headers env n e before after j t,
        Transcript tr 1 (.route headers) [⟨env, .unixTime, n⟩] .forwarded ∧
        tr = before ++ .start 1 (.route headers) :: after ∧
        Bears stamped.sessions headers e ∧ LoggedIn stamped before j t ∧
        stamped.sessions.expiry t = e ∧ n < e ∧ n < t + stamped.cfg.sessionTtl := by
  have hplay : ∃ tr c,
      (site stamped).Run Respelling { limiter := .new, clock := 0 } tr c ∧
        (tr.getLast?.any fun x => match x with
          | .finish 1 .forwarded => true
          | _ => false) = true := by
    refine Service.exists_run
      (.start (.key (.login (.v4 1) noHeaders { accessKey := "open sesame, please" })) ::
        List.replicate 5 (.step 0 { unixTime := 2 }) ++
        .start (.route fun name => if name = "cookie" then some respelt else none) ::
        List.replicate 2 (.step 1 { unixTime := 4 })) ?_
    decide +kernel
  rcases hplay with ⟨tr, c, hrespelling, hlast⟩
  have hfin : .finish 1 .forwarded ∈ tr := by
    rcases (Option.any_eq_true _ _).1 hlast with ⟨x, hx, hforwards⟩
    split at hforwards
    · exact List.mem_of_getLast? hx
    · cases hforwards
  have hrun := hrespelling.mono fun _ _ _ => idealMac_of_respelling
  exact ⟨tr, c, hrun, hfin, forwarded_loggedIn hrun hfin⟩

end Auth
end Aardbin
