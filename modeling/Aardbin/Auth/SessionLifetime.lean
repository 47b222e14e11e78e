import Aardbin.Auth.TokenGrammar

/-!
# How long a session lasts

A cookie is valid for the configured lifetime after its login, as long as the sum of the two fits
in 64 bits.  Where it does not, the expiry wraps around into the past.
-/

namespace Aardbin

open Rust

/-! ## Accepted lifetimes -/

theorem parseDuration_lt {s : String} {n : ℕ} (h : parseDuration s = some (some n)) :
    n < 2 ^ 64 := by
  unfold parseDuration at h
  dsimp only at h
  split at h
  · cases h
  · split_ifs at h
    split at h
    · exact parseU64_lt (Option.some.inj h)
    · rcases Option.map_eq_some_iff.1 (Option.some.inj h) with ⟨literal, -, rfl⟩
      exact Nat.mod_lt _ (by decide)

theorem parseDurationEnv_lt {env : EnvVars} {name : String} {default n : ℕ}
    (hdefault : default < 2 ^ 64) (h : parseDurationEnv env name default = some (.ok n)) :
    n < 2 ^ 64 := by
  unfold parseDurationEnv at h
  split at h
  · cases h
    exact hdefault
  · rcases Option.map_eq_some_iff.1 h with ⟨d, hd, hok⟩
    cases d with
    | none => cases hok
    | some secs =>
        cases hok
        exact parseDuration_lt hd

namespace SessionManager

/-! ## The life of a cookie -/

/-- A cookie is accepted before the expiry that was computed for it. -/
theorem validateAt_issue (m : SessionManager) (t t' : ℕ) :
    m.validateAt t' (m.issue t) = true ↔ t' < m.expiry t := by
  have hfits : m.expiry t < 2 ^ 64 := Nat.mod_lt _ (by decide)
  have hissue : m.issue t = m.token (m.expiry t).repr (m.expiry t) := rfl
  have hsigned : ∀ e, Auth.Signed m (m.issue t) e ↔ e = m.expiry t := by
    intro e
    rw [hissue, signed_iff_token]
    constructor
    · -- The token is spelt in one way, so that its expiry can be read in one way only.
      rintro ⟨spelling, hparse, htoken⟩
      obtain rfl := spelling_inj (parseU64_repr hfits) hparse htoken
      rw [parseU64_repr hfits] at hparse
      exact (Option.some.inj hparse).symm
    · rintro rfl
      exact ⟨_, parseU64_repr hfits, rfl⟩
  simp [validateAt_iff_signed, hsigned]

/-- The cookie that is issued at `t` is valid for the lifetime, and the sum does not overflow. -/
structure Lasts (m : SessionManager) (t : ℕ) : Prop where
  exact : m.expiry t = t + m.ttl
  accepted : ∀ t' ≥ t, m.validateAt t' (m.issue t) = true ↔ t' < t + m.ttl

/-- A wrapped expiry lies before the login. -/
theorem expiry_le_of_overflow {m : SessionManager} {t : ℕ} (httl : m.ttl < 2 ^ 64)
    (ht : t < 2 ^ 64) (h : 2 ^ 64 ≤ t + m.ttl) : m.expiry t ≤ t := by
  unfold expiry
  omega

/-- Sessions last as configured exactly when their expiry fits in 64 bits; otherwise not even the
fresh cookie is accepted. -/
theorem session_lasts_iff {env : EnvVars} {cfg : Config} {t : ℕ}
    (hcfg : (Config.fromEnv env).run = some (.ok cfg)) (ht : t < 2 ^ 40) (v : Vendor) :
    (AppState.sessions { vendor := v, cfg }).Lasts t ↔ t + cfg.sessionTtl < 2 ^ 64 := by
  have httl : cfg.sessionTtl < 2 ^ 64 :=
    parseDurationEnv_lt (by decide) (Config.readFrom_of_fromEnv hcfg).sessionTtl
  have hm : (AppState.sessions { vendor := v, cfg }).ttl = cfg.sessionTtl := rfl
  generalize AppState.sessions { vendor := v, cfg } = m at hm
  rw [← hm] at httl ⊢
  constructor
  · intro hlasts
    by_contra hover
    -- The cookie would have to be valid at the instant of its login.
    have hpast := expiry_le_of_overflow httl (by omega) (Nat.le_of_not_lt hover)
    have hnow := (hlasts.accepted t (Nat.le_refl t)).2 (by omega)
    rw [validateAt_issue] at hnow
    omega
  · intro hfits
    have hexact : m.expiry t = t + m.ttl := Nat.mod_eq_of_lt hfits
    refine ⟨hexact, fun t' _ => ?_⟩
    rw [validateAt_issue, hexact]

/-- The variables of a process that is configured with this `SESSION_TTL`. -/
def sessionTtlVars (ttl : String) : EnvVars := fun name =>
  if name = "ACCESS_KEY" then some "open sesame, please"
  else if name = "CRYPTO_KEY" then some (String.join (List.replicate 32 "0f"))
  else if name = "SESSION_TTL" then some ttl
  else none

theorem session_lasts_week : ∃ cfg,
    (Config.fromEnv (sessionTtlVars "7d")).run = some (.ok cfg) ∧
      (AppState.sessions { vendor := .plain, cfg }).Lasts 1700000000 := by
  rcases @Config.exists_fromEnv _ (·.sessionTtl) (sessionTtlVars "7d") 604800 (by decide +kernel)
    with ⟨cfg, hcfg, httl⟩
  refine ⟨cfg, hcfg, (session_lasts_iff hcfg (by decide) .plain).2 ?_⟩
  rw [httl]
  decide

/-- The greatest number of seconds is accepted as a lifetime; its cookies are rejected at once. -/
theorem session_ttl_overflows :
    ¬ ∀ (env : EnvVars) (cfg : Config) (t : ℕ) (v : Vendor),
      (Config.fromEnv env).run = some (.ok cfg) → t < 2 ^ 40 →
        (AppState.sessions { vendor := v, cfg }).Lasts t := by
  intro hall
  rcases @Config.exists_fromEnv _ (·.sessionTtl) (sessionTtlVars "18446744073709551615") (2 ^ 64 - 1)
    (by decide +kernel) with ⟨cfg, hcfg, httl⟩
  have hlasts := hall _ cfg 1700000000 .plain hcfg (by decide)
  have hnow := (hlasts.accepted 1700000000 (Nat.le_refl _)).2
  have hexpiry : (AppState.sessions { vendor := .plain, cfg }).expiry 1700000000 = 1699999999 := by
    simp only [expiry, AppState.sessions, new, httl]
    decide
  rw [validateAt_issue, hexpiry] at hnow
  exact absurd (hnow (by simp only [AppState.sessions, new, httl]; decide)) (by decide)

end SessionManager

end Aardbin
