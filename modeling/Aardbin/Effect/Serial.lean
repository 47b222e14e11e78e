import Aardbin.Effect.Pool

/-!
# Requests handled one at a time

The runs of a service in which every request comes to its end before the next one starts.  Their
invariant rule is `Serial.keeps`: what a whole request keeps, all of them keep.  With restarts
between the requests they are the lifetimes of the service, and `Lifetime.refines` shows that it
meets a specification.
-/

namespace Effect

variable {Op : Type} {Reply : Op → Type} {σ Env Boot Req Res : Type}

/-- One request, all that it asked, and its result. -/
structure Turn (Reply : Op → Type) (Env Req Res : Type) where
  req : Req
  log : List (Asked Reply Env)
  res : Res

namespace Service

variable (S : Service Reply σ Env Boot Req Res)

inductive Serial (s₀ : σ) : List (Turn Reply Env Req Res) → σ → Prop
  | nil : Serial s₀ [] s₀
  | snoc {turns : List (Turn Reply Env Req Res)} {s s' : σ} {t : Turn Reply Env Req Res} :
      Serial s₀ turns s → Runs S.answer s (S.handler s t.req) t.log s' t.res →
      Serial s₀ (turns ++ [t]) s'

/-- Handles requests in the given environments, one for every operation. -/
def serve : List (Req × List Env) → List (Turn Reply Env Req Res) → σ →
    Option (List (Turn Reply Env Req Res) × σ)
  | [], turns, s => some (turns, s)
  | (req, envs) :: rest, turns, s =>
      match (S.handler s req).run S.answer envs s with
      | none => none
      | some (log, s', res) => serve rest (turns ++ [⟨req, log, res⟩]) s'

variable {S}

theorem Serial.of_serve {reqs : List (Req × List Env)} {s₀ s s' : σ}
    {turns turns' : List (Turn Reply Env Req Res)} (h : S.Serial s₀ turns s)
    (hserve : S.serve reqs turns s = some (turns', s')) : S.Serial s₀ turns' s' := by
  induction reqs generalizing turns s with
  | nil =>
      cases hserve
      exact h
  | cons r rest ih =>
      simp only [serve] at hserve
      split at hserve
      · cases hserve
      · rename_i log s₁ res hrun
        exact ih (.snoc h (.of_run hrun)) hserve

/-- Requests that can be handled to the end show that a serial run with the property `P` exists. -/
theorem exists_serial (reqs : List (Req × List Env)) {s₀ : σ}
    {P : List (Turn Reply Env Req Res) → σ → Prop} [∀ turns s, Decidable (P turns s)]
    (h : (S.serve reqs [] s₀).any (fun x => decide (P x.1 x.2)) = true) :
    ∃ turns s, S.Serial s₀ turns s ∧ P turns s := by
  cases hserve : S.serve reqs [] s₀ with
  | none => simp [hserve] at h
  | some x =>
      refine ⟨x.1, x.2, .of_serve .nil hserve, ?_⟩
      simpa [hserve] using h

/-- The invariant rule. -/
theorem Serial.keeps {I : σ → Prop} {s₀ s : σ} {turns : List (Turn Reply Env Req Res)}
    (h : S.Serial s₀ turns s) (hinit : I s₀)
    (hstep : ∀ s s' t, t ∈ turns → I s → Runs S.answer s (S.handler s t.req) t.log s' t.res →
      I s') : I s := by
  induction h with
  | nil => exact hinit
  | @snoc turns s s' t _ hrun ih =>
      have hbefore : I s := ih fun s s' t ht => hstep s s' t (List.mem_append_left _ ht)
      exact hstep s s' t (by simp) hbefore hrun

end Service

/-! ## Restarts between the requests -/

/-- One request handled alone, or a restart. -/
inductive Phase (Reply : Op → Type) (Env Boot Req Res : Type)
  | turn (t : Turn Reply Env Req Res)
  | boot (b : Boot)

inductive Service.Lifetime (S : Service Reply σ Env Boot Req Res) (s₀ : σ) :
    List (Phase Reply Env Boot Req Res) → σ → Prop
  | nil : S.Lifetime s₀ [] s₀
  | turn {ps : List (Phase Reply Env Boot Req Res)} {s s' : σ} {t : Turn Reply Env Req Res} :
      S.Lifetime s₀ ps s → Runs S.answer s (S.handler s t.req) t.log s' t.res →
      S.Lifetime s₀ (ps ++ [.turn t]) s'
  | boot {ps : List (Phase Reply Env Boot Req Res)} {s : σ} {b : Boot} :
      S.Lifetime s₀ ps s → S.Lifetime s₀ (ps ++ [.boot b]) (S.reboot b s)

namespace Service

variable {S : Service Reply σ Env Boot Req Res}

/-- Handles requests in the given environments, and restarts. -/
def live (S : Service Reply σ Env Boot Req Res) : List ((Req × List Env) ⊕ Boot) →
    List (Phase Reply Env Boot Req Res) → σ → Option (List (Phase Reply Env Boot Req Res) × σ)
  | [], ps, s => some (ps, s)
  | .inr b :: rest, ps, s => S.live rest (ps ++ [.boot b]) (S.reboot b s)
  | .inl (req, envs) :: rest, ps, s =>
      match (S.handler s req).run S.answer envs s with
      | none => none
      | some (log, s', res) => S.live rest (ps ++ [.turn ⟨req, log, res⟩]) s'

theorem Lifetime.of_live {plan : List ((Req × List Env) ⊕ Boot)} {s₀ s s' : σ}
    {ps ps' : List (Phase Reply Env Boot Req Res)} (h : S.Lifetime s₀ ps s)
    (hlive : S.live plan ps s = some (ps', s')) : S.Lifetime s₀ ps' s' := by
  induction plan generalizing ps s with
  | nil =>
      cases hlive
      exact h
  | cons x rest ih =>
      cases x with
      | inr b => exact ih h.boot hlive
      | inl r =>
          simp only [live] at hlive
          split at hlive
          · cases hlive
          · rename_i log s₁ res hrun
            exact ih (.turn h (.of_run hrun)) hlive

/-- What is carried out is appended to what was done before. -/
theorem exists_lifetime_of_live {plan : List ((Req × List Env) ⊕ Boot)} {s s' : σ}
    {ps ps' : List (Phase Reply Env Boot Req Res)} (hlive : S.live plan ps s = some (ps', s')) :
    ∃ qs, ps' = ps ++ qs ∧ S.Lifetime s qs s' := by
  have hrest : ∀ {plan} {s₁ : σ} {before : List (Phase Reply Env Boot Req Res)} {ps},
      S.Lifetime s before s₁ → S.live plan (ps ++ before) s₁ = some (ps', s') →
      ∃ qs, ps' = ps ++ qs ∧ S.Lifetime s qs s' := by
    intro plan
    induction plan with
    | nil =>
        rintro s₁ before ps h hlive
        cases hlive
        exact ⟨before, rfl, h⟩
    | cons x rest ih =>
        rintro s₁ before ps h hlive
        cases x with
        | inr b =>
            rw [live, List.append_assoc] at hlive
            exact ih h.boot hlive
        | inl r =>
            simp only [live] at hlive
            split at hlive
            · cases hlive
            · rename_i log s₂ res hrun
              rw [List.append_assoc] at hlive
              exact ih (.turn h (.of_run hrun)) hlive
  exact hrest .nil (by simpa using hlive)

/-- A plan that can be carried out shows that a lifetime with the property `P` exists. -/
theorem exists_lifetime (plan : List ((Req × List Env) ⊕ Boot)) {s₀ : σ}
    {P : List (Phase Reply Env Boot Req Res) → σ → Prop} [∀ ps s, Decidable (P ps s)]
    (h : (S.live plan [] s₀).any (fun x => decide (P x.1 x.2)) = true) :
    ∃ ps s, S.Lifetime s₀ ps s ∧ P ps s := by
  cases hlive : S.live plan [] s₀ with
  | none => simp [hlive] at h
  | some x =>
      refine ⟨x.1, x.2, .of_live .nil hlive, ?_⟩
      simpa [hlive] using h

/-- The invariant rule for lifetimes. -/
theorem Lifetime.keeps {I : σ → Prop} {Good : Phase Reply Env Boot Req Res → Prop} {s₀ s : σ}
    {ps : List (Phase Reply Env Boot Req Res)} (h : S.Lifetime s₀ ps s)
    (hgood : ∀ p ∈ ps, Good p) (hinit : I s₀)
    (hturn : ∀ s s' t, Good (.turn t) → I s → Runs S.answer s (S.handler s t.req) t.log s' t.res →
      I s')
    (hboot : ∀ s b, Good (.boot b) → I s → I (S.reboot b s)) : I s := by
  induction h with
  | nil => exact hinit
  | turn _ hrun ih =>
      exact hturn _ _ _ (hgood _ (by simp)) (ih fun p hp => hgood p (by simp [hp])) hrun
  | boot _ ih => exact hboot _ _ (hgood _ (by simp)) (ih fun p hp => hgood p (by simp [hp]))

end Service

/-- What a service is for: how a request and a restart may change a state of another kind. -/
structure Spec (Reply : Op → Type) (A Env Boot Req Res : Type) where
  turn : A → Turn Reply Env Req Res → A → Prop
  boot : A → Boot → A

section Refinement

variable {A : Type}

/-- The abstract states that the phases may lead to. -/
inductive Spec.Allows (P : Spec Reply A Env Boot Req Res) (a₀ : A) :
    List (Phase Reply Env Boot Req Res) → A → Prop
  | nil : P.Allows a₀ [] a₀
  | turn {ps : List (Phase Reply Env Boot Req Res)} {a a' : A} {t : Turn Reply Env Req Res} :
      P.Allows a₀ ps a → P.turn a t a' → P.Allows a₀ (ps ++ [.turn t]) a'
  | boot {ps : List (Phase Reply Env Boot Req Res)} {a : A} {b : Boot} :
      P.Allows a₀ ps a → P.Allows a₀ (ps ++ [.boot b]) (P.boot a b)

/-- The refinement rule: what holds for one phase holds for a lifetime. -/
theorem Service.Lifetime.refines {S : Service Reply σ Env Boot Req Res}
    {P : Spec Reply A Env Boot Req Res} (R : σ → A → Prop)
    (Good : Phase Reply Env Boot Req Res → Prop)
    (hturn : ∀ s s' t a, R s a → Good (.turn t) →
      Runs S.answer s (S.handler s t.req) t.log s' t.res → ∃ a', P.turn a t a' ∧ R s' a')
    (hboot : ∀ s b a, R s a → Good (.boot b) → R (S.reboot b s) (P.boot a b))
    {s₀ s : σ} {a₀ : A} {ps : List (Phase Reply Env Boot Req Res)} (h : S.Lifetime s₀ ps s)
    (hgood : ∀ p ∈ ps, Good p) (hR : R s₀ a₀) : ∃ a, P.Allows a₀ ps a ∧ R s a := by
  induction h with
  | nil => exact ⟨a₀, .nil, hR⟩
  | @turn ps s s' t _ hrun ih =>
      rcases ih fun p hp => hgood p (List.mem_append_left _ hp) with ⟨a, ha, hRa⟩
      rcases hturn s s' t a hRa (hgood _ (by simp)) hrun with ⟨a', ht, hRa'⟩
      exact ⟨a', .turn ha ht, hRa'⟩
  | @boot ps s b _ ih =>
      rcases ih fun p hp => hgood p (List.mem_append_left _ hp) with ⟨a, ha, hRa⟩
      exact ⟨P.boot a b, .boot ha, hboot s b a hRa (hgood _ (by simp))⟩

end Refinement

end Effect
