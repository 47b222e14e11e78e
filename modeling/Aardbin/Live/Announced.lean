import Aardbin.Http.Refinement
import Aardbin.Notify.Announced

/-!
# Every write of the process is announced

What is proved of the six requests that write holds in the whole process, where they run among
logins, lists, downloads and event streams, and where any other request may be given up.
-/

namespace Aardbin
namespace Http

open Effect

/-! ## The runs -/

/-- Is the event the beginning of a request `i` that may write? -/
def startsWrite (i : ℕ) : Event Reply Env Boot Request Answer → Bool
  | .start j req => j = i ∧ req.write?.isSome
  | _ => false

/-- A database call fails only where the foreign key refuses a row, no request that writes is given
up, and the process does not stop. -/
def Orderly : Guard Reply World Env Boot Request Answer
  | _, _, .ask _ _ (.store (.db _)) (.error err) => err = .foreignKey
  | tr, _, .abandon i => tr.any (startsWrite i) = false
  | _, _, .reboot _ => False
  | _, _, _ => True

instance (tr : Log) (c : Pool Reply World Answer) :
    (e : Event Reply Env Boot Request Answer) → Decidable (Orderly tr c e)
  | .ask _ _ (.store (.db _)) (.error err) => inferInstanceAs (Decidable (err = .foreignKey))
  | .ask _ _ (.store (.db _)) (.ok _) => inferInstanceAs (Decidable True)
  | .ask _ _ (.store (.file _)) _ => inferInstanceAs (Decidable True)
  | .ask _ _ (.store .newV4) _ => inferInstanceAs (Decidable True)
  | .ask _ _ (.store .now) _ => inferInstanceAs (Decidable True)
  | .ask _ _ (.store .nonce) _ => inferInstanceAs (Decidable True)
  | .ask _ _ (.store .send) _ => inferInstanceAs (Decidable True)
  | .ask _ _ (.store .panic) r => r.elim
  | .ask _ _ (.auth _) _ => inferInstanceAs (Decidable True)
  | .ask _ _ (.openFile _) _ => inferInstanceAs (Decidable True)
  | .ask _ _ .subscribe _ => inferInstanceAs (Decidable True)
  | .abandon i => inferInstanceAs (Decidable (tr.any (startsWrite i) = false))
  | .reboot _ => inferInstanceAs (Decidable False)
  | .start _ _ => inferInstanceAs (Decidable True)
  | .finish _ _ => inferInstanceAs (Decidable True)

def unannouncedAfter (unsent : Bool) : Event Reply Env Boot Request Answer → Bool
  | .ask _ _ (.store c) r => unsentStep unsent c r
  | _ => unsent

/-- Has a write been left without a `send` after it? -/
def unannounced (tr : Log) : Bool :=
  tr.foldl unannouncedAfter false

theorem unannounced_snoc (tr : Log) (e : Event Reply Env Boot Request Answer) :
    unannounced (tr ++ [e]) = unannouncedAfter (unannounced tr) e := by
  rw [unannounced, List.foldl_append]
  rfl

end Http
end Aardbin
