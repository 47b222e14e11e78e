import Aardbin.Auth.Guesses

/-!
# One login attempt

A request checks, compares its key, and records the outcome, in this order and each at most once.
-/

namespace Aardbin
namespace Auth

open Effect Rust

/-! ## The protocol -/

inductive Phase
  | fresh
  | refused
  | admitted
  | compared (right : Bool)
  | recorded
  deriving DecidableEq

structure Attempt where
  req : Request
  phase : Phase

namespace Attempt

def pre (s : AppState) (g : Attempt) : Call → Prop
  | .check ip => g.phase = .fresh ∧ g.req.addr? = some ip
  | .ctEq given expected =>
      g.phase = .admitted ∧ g.req.key? = some given ∧ expected = s.cfg.accessKey
  | .recordFailure ip => g.phase = .compared false ∧ g.req.addr? = some ip
  | .recordSuccess ip => g.phase = .compared true ∧ ∃ headers form, g.req = .login ip headers form
  | .unixTime => True

def upd (g : Attempt) : (op : Call) → Reply op → Attempt
  | .check _, .ok _ => { g with phase := .admitted }
  | .check _, .error _ => { g with phase := .refused }
  | .ctEq _ _, right => { g with phase := .compared right }
  | .recordFailure _, _ => { g with phase := .recorded }
  | .recordSuccess _, _ => { g with phase := .recorded }
  | .unixTime, _ => g

@[simp] theorem req_upd (g : Attempt) (op : Call) (r : Reply op) : (g.upd op r).req = g.req := by
  cases op with
  | check ip => cases r <;> rfl
  | _ => rfl

end Attempt

def attempt (s : AppState) : Protocol Reply Attempt where
  pre := Attempt.pre s
  next := fun g op r g' => g' = g.upd op r

/-- A refused request is answered 429. -/
def AttemptPost (out : Outcome) (g : Attempt) : Prop :=
  g.phase = .refused → ∃ resp, out = .answered resp ∧ resp.status = .tooManyRequests

/-! ## The handlers follow it -/

theorem wp_attempt_postLogin (s : AppState) (ip : IpAddr) (headers : HeaderMap) (form : LoginForm) :
    wp (attempt s) (postLogin s ip headers form) (fun resp g => AttemptPost (.answered resp) g)
      { req := .login ip headers form, phase := .fresh } := by
  simp only [postLogin, wp_bind, wp_perform]
  refine ⟨⟨rfl, rfl⟩, ?_⟩
  rintro r g₁ rfl
  cases r with
  | error remaining => exact fun _ => ⟨_, rfl, rfl⟩
  | ok _ =>
      -- Admitted: from here on the request is not refused any more.
      simp only [wp_bind, wp_perform]
      refine ⟨⟨rfl, rfl, rfl⟩, ?_⟩
      rintro right g₂ rfl
      cases right with
      | true =>
          refine ⟨⟨rfl, headers, form, rfl⟩, ?_⟩
          rintro _ g₃ rfl
          refine ⟨trivial, ?_⟩
          rintro now g₄ rfl hphase
          cases hphase
      | false =>
          refine ⟨⟨rfl, rfl⟩, ?_⟩
          rintro _ g₃ rfl hphase
          cases hphase

theorem wp_attempt_fromRequestParts (s : AppState) (addr : Option IpAddr) (headers : HeaderMap) :
    wp (attempt s) (fromRequestParts s addr headers)
      (fun r g => g.phase = .refused → ∃ resp, r = .error resp ∧ resp.status = .tooManyRequests)
      { req := .api addr headers, phase := .fresh } := by
  cases addr with
  | none =>
      -- Without an address the limiter is not asked.
      intro hphase
      cases hphase
  | some ip =>
      simp only [fromRequestParts, wp_bind, wp_perform]
      refine ⟨⟨rfl, rfl⟩, ?_⟩
      rintro r g₁ rfl
      cases r with
      | error remaining => exact fun _ => ⟨_, rfl, rfl⟩
      | ok _ =>
          dsimp only
          split
          · intro hphase
            cases hphase
          · rename_i authHeader hauth
            split
            · intro hphase
              cases hphase
            · rename_i token htoken
              simp only [wp_bind, wp_perform]
              refine ⟨⟨rfl, by simp [Attempt.upd, Request.key?, hauth, htoken], rfl⟩, ?_⟩
              rintro right g₂ rfl
              cases right with
              | true =>
                  intro hphase
                  cases hphase
              | false =>
                  refine ⟨⟨rfl, rfl⟩, ?_⟩
                  rintro _ g₃ rfl hphase
                  cases hphase

theorem wp_attempt_handle (s : AppState) (req : Request) :
    wp (attempt s) (handle s req) AttemptPost { req, phase := .fresh } := by
  cases req with
  | login ip headers form =>
      simp only [handle, wp_bind]
      exact wp_attempt_postLogin s ip headers form
  | api addr headers =>
      simp only [handle, wp_bind]
      refine wp_mono (wp_attempt_fromRequestParts s addr headers) fun r g h => ?_
      cases r with
      | error resp =>
          intro hphase
          rcases h hphase with ⟨resp', heq, hstatus⟩
          cases heq
          exact ⟨resp, rfl, hstatus⟩
      | ok _ =>
          intro hphase
          rcases h hphase with ⟨resp', heq, -⟩
          cases heq

end Auth
end Aardbin
