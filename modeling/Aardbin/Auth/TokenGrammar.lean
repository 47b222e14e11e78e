import Aardbin.Auth.Guard
import Aardbin.PlainVendor
import Aardbin.Rust.Decimal

/-!
# Which tokens are valid

A token names its expiry in decimal digits and is signed for the number.  The MAC does not cover
the spelling, so that the digits may be replaced by others that Rust reads as the same number.
-/

namespace Aardbin

open Effect Rust

/-! ## Validation at one clock reading -/

namespace Auth

/-- The replies while the clock reads `now`; `validate` asks for nothing else. -/
def repliesAt (now : ℕ) : (op : Call) → Reply op
  | .check _ => .ok ()
  | .recordFailure _ => ()
  | .recordSuccess _ => ()
  | .ctEq given expected => decide (given = expected)
  | .unixTime => now

end Auth

namespace SessionManager

def validateAt (m : SessionManager) (now : ℕ) (value : String) : Bool :=
  (m.validate value).eval (Auth.repliesAt now)

theorem validateAt_iff_signed {m : SessionManager} {now : ℕ} {value : String} :
    m.validateAt now value = true ↔ ∃ e, Auth.Signed m value e ∧ now < e := by
  unfold validateAt validate
  split
  · -- Three parts: the version, the expiry and the MAC are checked in this order.
    rename_i version expiryS macHex hparts
    split_ifs with hversion
    · subst hversion
      cases hexpiry : parseU64 expiryS with
      | none => simp [Auth.Signed, hparts, hexpiry]
      | some expiry =>
          have hclock : Auth.Ask.unixTime.eval (Auth.repliesAt now) = now :=
            Program.eval_perform (Auth.repliesAt now) Auth.Call.unixTime
          simp only [Auth.signed_iff_of_parts hparts hexpiry]
          rw [Program.eval_bind, hclock]
          by_cases hle : expiry ≤ now
          · rw [if_pos hle, Program.eval_pure]
            simp only [Bool.false_eq_true, false_iff]
            rintro ⟨e, ⟨-, rfl⟩, hlt⟩
            omega
          · rw [if_neg hle, Program.eval_pure, decide_eq_true_eq]
            constructor
            · intro hmac
              exact ⟨expiry, ⟨hmac, rfl⟩, by omega⟩
            · rintro ⟨_, ⟨hmac, -⟩, -⟩
              exact hmac
    · simp [Auth.Signed, hparts, hversion]
  · rename_i hparts
    simp only [Program.eval_pure, Bool.false_eq_true, false_iff]
    rintro ⟨e, ⟨expiryS, hsigned, -⟩, -⟩
    exact hparts _ _ _ hsigned

/-- What a run of `validate` returns when the clock reads `now`. -/
theorem validateAt_of_runs {m : SessionManager} {now : ℕ} {value : String} {w w' : Auth.World}
    {log : Auth.Asks} {valid : Bool}
    (h : Runs Auth.World.answer w (m.validate value) log w' valid)
    (hnow : ∀ x ∈ log, x.reply = Auth.repliesAt now x.op) : m.validateAt now value = valid :=
  h.eval_eq hnow

/-! ## The grammar of tokens -/

/-- The token with the expiry `e`, spelt `spelling`. -/
def token (m : SessionManager) (spelling : String) (e : ℕ) : String :=
  s!"v1.{spelling}.{m.macFor e}"

theorem toList_token (m : SessionManager) (spelling : String) (e : ℕ) :
    (m.token spelling e).toList =
      "v1".toList ++ '.' :: (spelling.toList ++ '.' :: (m.macFor e).toList) := by
  simp [token, toString]

theorem signed_iff_token {m : SessionManager} {value : String} {e : ℕ} :
    Auth.Signed m value e ↔ ∃ spelling, parseU64 spelling = some e ∧ value = m.token spelling e := by
  have hparts : ∀ spelling, parseU64 spelling = some e →
      (splitn 3 value '.' = ["v1", spelling, m.macFor e] ↔ value = m.token spelling e) := by
    intro spelling hparse
    have hnone := not_mem_of_parseU64 hparse (c := '.') (by decide) (by decide)
    rw [splitn_eq_three, ← String.toList_inj, toList_token]
    exact ⟨fun h => h.2.2, fun h => ⟨by decide, hnone, h⟩⟩
  constructor
  · rintro ⟨spelling, hsplit, hparse⟩
    exact ⟨spelling, hparse, (hparts spelling hparse).1 hsplit⟩
  · rintro ⟨spelling, hparse, hvalue⟩
    exact ⟨spelling, (hparts spelling hparse).2 hvalue, hparse⟩

/-- A token spells its expiry in one way, whatever its MAC is. -/
theorem spelling_inj {m : SessionManager} {s s' : String} {e e' n n' : ℕ}
    (hs : parseU64 s = some n) (hs' : parseU64 s' = some n') (h : m.token s e = m.token s' e') :
    s = s' := by
  have hparts : ∀ {s n} e, parseU64 s = some n →
      splitn 3 (m.token s e) '.' = ["v1", s, m.macFor e] := by
    intro s n e hparse
    exact splitn_eq_three.2
      ⟨by decide, not_mem_of_parseU64 hparse (by decide) (by decide), toList_token m s e⟩
  have hsplit : ["v1", s, m.macFor e] = ["v1", s', m.macFor e'] :=
    calc
      ["v1", s, m.macFor e] = splitn 3 (m.token s e) '.' := (hparts e hs).symm
      _ = splitn 3 (m.token s' e') '.' := by rw [h]
      _ = ["v1", s', m.macFor e'] := hparts e' hs'
  simp only [List.cons.injEq] at hsplit
  exact hsplit.2.1

/-- The string that `issue` makes for an expiry after `now`. -/
def Canonical (m : SessionManager) (now : ℕ) (value : String) : Prop :=
  ∃ e, e < 2 ^ 64 ∧ now < e ∧ value = m.token (toString e) e

/-- The expiry has a plus sign or superfluous zeros, and the MAC of the number it is read as. -/
def RespeltToken (m : SessionManager) (now : ℕ) (value : String) : Prop :=
  ∃ spelling e, parseU64 spelling = some e ∧ Respelt spelling ∧ now < e ∧
    value = m.token spelling e

/-- Some login could have handed out the value. -/
def Issuable (m : SessionManager) (value : String) : Prop :=
  ∃ t < 2 ^ 64, value = m.issue t

theorem Canonical.issuable {m : SessionManager} {now : ℕ} {value : String}
    (h : m.Canonical now value) : m.Issuable value := by
  rcases h with ⟨e, hfits, -, rfl⟩
  -- The login lies one lifetime before the expiry, around the wrap of the sum.
  refine ⟨(e + (2 ^ 64 - m.ttl % 2 ^ 64)) % 2 ^ 64, Nat.mod_lt _ (by decide), ?_⟩
  have hsum : ((e + (2 ^ 64 - m.ttl % 2 ^ 64)) % 2 ^ 64 + m.ttl) % 2 ^ 64 = e := by omega
  rw [issue, hsum]
  rfl

theorem validateAt_iff_token {m : SessionManager} {now : ℕ} {value : String} :
    m.validateAt now value = true ↔ m.Canonical now value ∨ m.RespeltToken now value := by
  rw [validateAt_iff_signed]
  constructor
  · rintro ⟨e, hsigned, hlt⟩
    rcases signed_iff_token.1 hsigned with ⟨spelling, hparse, rfl⟩
    by_cases hrespelt : Respelt spelling
    · exact .inr ⟨spelling, e, hparse, hrespelt, hlt, rfl⟩
    · refine .inl ⟨e, parseU64_lt hparse, hlt, ?_⟩
      rw [Nat.toString_eq_repr, ← (eq_repr_iff_of_parseU64 hparse).2 hrespelt]
  · rintro (⟨e, hfits, hlt, rfl⟩ | ⟨spelling, e, hparse, -, hlt, rfl⟩)
    · exact ⟨e, signed_iff_token.2 ⟨_, parseU64_repr hfits, rfl⟩, hlt⟩
    · exact ⟨e, signed_iff_token.2 ⟨_, hparse, rfl⟩, hlt⟩

theorem RespeltToken.not_canonical {m : SessionManager} {now now' : ℕ} {value : String}
    (h : m.RespeltToken now value) : ¬ m.Canonical now' value := by
  rintro ⟨e', hfits, -, hvalue⟩
  rcases h with ⟨spelling, e, hparse, hrespelt, -, rfl⟩
  obtain rfl := spelling_inj hparse (parseU64_repr hfits) hvalue
  exact not_respelt_repr e' hrespelt

/-- The tokens that are valid are those that `issue` makes, unless the expiry is spelt in another
way. -/
theorem validate_grammar_iff (m : SessionManager) (now : ℕ) (value : String) :
    ((m.validateAt now value = true ↔ m.Canonical now value) ∧
      (m.validateAt now value = true → m.Issuable value)) ↔ ¬ m.RespeltToken now value := by
  constructor
  · rintro ⟨hiff, -⟩ hrespelt
    exact hrespelt.not_canonical (hiff.1 (validateAt_iff_token.2 (.inr hrespelt)))
  · intro hplain
    have hiff : m.validateAt now value = true ↔ m.Canonical now value := by
      rw [validateAt_iff_token, or_iff_left hplain]
    exact ⟨hiff, fun hvalid => (hiff.1 hvalid).issuable⟩

/-- The plus sign is not signed. -/
theorem validate_plus :
    ¬ ∀ (m : SessionManager) (now : ℕ) (value : String),
      m.validateAt now value = true ↔ m.Canonical now value := by
  intro hall
  have hrespelt : AppState.plain.sessions.RespeltToken 0 (AppState.plain.sessions.token "+5" 5) :=
    ⟨"+5", 5, by decide, by decide, by decide, rfl⟩
  exact hrespelt.not_canonical ((hall _ _ _).1 (validateAt_iff_token.2 (.inr hrespelt)))

end SessionManager

end Aardbin
