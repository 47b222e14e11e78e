import Aardbin.Effect.Pool

/-!
# What one request did, read off a run

A handler that is verified against `logging` has a postcondition about its own log: the operations
it asked, in order, with their replies.  `Run.transcript` finds that log in the history of any
interleaving, as all that the history holds of a request that came to its end.
-/

namespace Effect

variable {Op : Type} {Reply : Op → Type} {σ Env Boot Req Res α : Type}

/-! ## Logs -/

/-- The ghost state is the log of the request; `ok` says which replies an operation can get. -/
def logging (Env : Type) (ok : (op : Op) → Reply op → Prop) :
    Protocol Reply (List (Asked Reply Env)) where
  pre := fun _ _ => True
  next := fun log op r log' => ok op r ∧ ∃ env, log' = log ++ [⟨env, op, r⟩]

section Logging

variable {ok : (op : Op) → Reply op → Prop}

theorem wp_logging_ask {op : Op} {k : Reply op → Program Reply α}
    {Q : α → List (Asked Reply Env) → Prop} {log : List (Asked Reply Env)}
    (h : ∀ env r, ok op r → wp (logging Env ok) (k r) Q (log ++ [⟨env, op, r⟩])) :
    wp (logging Env ok) (.ask op k) Q log := by
  refine ⟨trivial, ?_⟩
  rintro r _ ⟨hr, env, rfl⟩
  exact h env r hr

theorem wp_logging_perform {op : Op} {Q : Reply op → List (Asked Reply Env) → Prop}
    {log : List (Asked Reply Env)} (h : ∀ env r, ok op r → Q r (log ++ [⟨env, op, r⟩])) :
    wp (logging Env ok) (Program.perform op) Q log :=
  wp_logging_ask h

end Logging

/-- The event of a logged operation of request `i`. -/
def Event.asked (i : ℕ) (x : Asked Reply Env) : Event Reply Env Boot Req Res :=
  .ask i x.env x.op x.reply

/-! ## The transcript rule -/

section Transcript

variable {S : Service Reply σ Env Boot Req Res} {guard : Guard Reply σ Env Boot Req Res}
  {ok : (op : Op) → Reply op → Prop} {Post : Req → Res → List (Asked Reply Env) → Prop}

/-- The whole history of request `i`, which answered `req` with `res` and asked `log`. -/
def Transcript (tr : History Reply Env Boot Req Res) (i : ℕ) (req : Req)
    (log : List (Asked Reply Env)) (res : Res) : Prop :=
  byThread i tr = .start i req :: log.map (Event.asked i) ++ [.finish i res]

/-- The history of a request in flight is its log; that of a finished one satisfies `Post`. -/
def Recorded (Post : Req → Res → List (Asked Reply Env) → Prop)
    (tr : History Reply Env Boot Req Res) (i : ℕ) : Option (List (Asked Reply Env)) → Prop
  | some log => ∃ req, byThread i tr = .start i req :: log.map (Event.asked i)
  | none => ∀ res, .finish i res ∈ tr → ∃ req log, Post req res log ∧ Transcript tr i req log res

theorem mem_byThread {i : ℕ} {tr : History Reply Env Boot Req Res}
    {e : Event Reply Env Boot Req Res} (he : e.thread? = some i) : e ∈ byThread i tr ↔ e ∈ tr := by
  simp [byThread, he]

/-- An event of another request leaves the history of request `i` alone. -/
theorem Recorded.other {tr : History Reply Env Boot Req Res} {i : ℕ}
    {g : Option (List (Asked Reply Env))} {e : Event Reply Env Boot Req Res}
    (h : Recorded Post tr i g) (he : e.thread? ≠ some i) : Recorded Post (tr ++ [e]) i g := by
  cases g with
  | some log =>
      rcases h with ⟨req, hreq⟩
      exact ⟨req, by rw [byThread_snoc_other he, hreq]⟩
  | none =>
      intro res hmem
      have hold : Event.finish i res ∈ tr := by
        rcases List.mem_append.1 hmem with hold | hnew
        · exact hold
        · rw [← List.mem_singleton.1 hnew] at he
          exact absurd rfl he
      rcases h res hold with ⟨req, log, hpost, hlog⟩
      exact ⟨req, log, hpost, by rw [Transcript, byThread_snoc_other he, hlog]⟩

/-- A request that is given up in flight has no end in the history. -/
theorem Recorded.lost {tr : History Reply Env Boot Req Res} {i : ℕ} {log : List (Asked Reply Env)}
    (h : Recorded Post tr i (some log)) (res : Res) : .finish i res ∉ tr := by
  rcases h with ⟨req, hreq⟩
  intro hmem
  rw [← mem_byThread rfl, hreq] at hmem
  simp [Event.asked] at hmem

/-- The events of one step are those of its own request, and the others keep their records. -/
theorem Recorded.update {tr : History Reply Env Boot Req Res}
    {gs : ℕ → Option (List (Asked Reply Env))} (h : ∀ j, Recorded Post tr j (gs j)) {i : ℕ}
    {e : Event Reply Env Boot Req Res} (he : e.thread? = some i)
    {g : Option (List (Asked Reply Env))}
    (hi : Recorded Post (tr ++ [e]) i g) (j : ℕ) :
    Recorded Post (tr ++ [e]) j (Function.update gs i g j) := by
  by_cases hj : j = i
  · subst hj
    simpa using hi
  · have hne : e.thread? ≠ some j := by
      rw [he, ne_eq, Option.some.injEq]
      exact Ne.symm hj
    simpa [hj] using (h j).other hne

def transcriptOutline (S : Service Reply σ Env Boot Req Res)
    (ok : (op : Op) → Reply op → Prop) (Post : Req → Res → List (Asked Reply Env) → Prop) :
    Outline S (logging Env ok) where
  born := fun _ _ => []
  post := Post
  inv := fun tr _ gs => ∀ i, Recorded Post tr i (gs i)

theorem transcriptOutline_valid
    (hok : ∀ env s op r s', S.answer env s op = some (r, s') → ok op r)
    (hwp : ∀ s req, wp (logging Env ok) (S.handler s req) (Post req) []) :
    (transcriptOutline S ok Post).Valid guard where
  handler := hwp
  start := by
    intro tr c gs i req _ hunused _ hinv
    refine Recorded.update hinv rfl ⟨req, ?_⟩
    rw [byThread_snoc_self rfl, hunused.byThread]
    rfl
  ask := by
    intro tr c gs i log env op r s' _ _ hi _ hans hinv
    refine ⟨log ++ [⟨env, op, r⟩], ⟨hok env c.shared op r s' hans, env, rfl⟩, ?_⟩
    refine Recorded.update hinv rfl ?_
    have hrec := hinv i
    rw [hi] at hrec
    rcases hrec with ⟨req, hreq⟩
    refine ⟨req, ?_⟩
    rw [byThread_snoc_self rfl, hreq]
    simp [Event.asked]
  finish := by
    intro tr c gs i log req res _ hstart hi hpost hinv
    refine Recorded.update hinv rfl fun res' hmem => ?_
    have hrec := hinv i
    rw [hi] at hrec
    -- The request ends only now, so this is the result it ends with.
    have hres : res' = res := by
      rcases List.mem_append.1 hmem with hold | hnew
      · exact absurd hold (hrec.lost res')
      · cases List.mem_singleton.1 hnew
        rfl
    subst hres
    rcases hrec with ⟨req', hreq'⟩
    have hsame : req = req' := by
      rw [← mem_byThread rfl, hreq'] at hstart
      simpa [Event.asked] using hstart
    subst hsame
    refine ⟨req, log, hpost, ?_⟩
    rw [Transcript, byThread_snoc_self rfl, hreq']
  abandon := by
    intro tr c gs i log _ hi hinv
    have hrec := hinv i
    rw [hi] at hrec
    refine Recorded.update hinv rfl fun res hmem => ?_
    rcases List.mem_append.1 hmem with hold | hnew
    · exact absurd hold (hrec.lost res)
    · cases List.mem_singleton.1 hnew
  reboot := by
    intro tr c gs b _ hinv i
    have hrec : Recorded Post (tr ++ [.reboot b]) i (gs i) :=
      (hinv i).other (by simp [Event.thread?])
    cases hi : gs i with
    | none => rwa [hi] at hrec
    | some log =>
        rw [hi] at hrec
        exact fun res hmem => absurd hmem (hrec.lost res)

/-- What is proved of every handler's log holds of every request that came to its end. -/
theorem Service.Run.transcript
    (hok : ∀ env s op r s', S.answer env s op = some (r, s') → ok op r)
    (hwp : ∀ s req, wp (logging Env ok) (S.handler s req) (Post req) []) {s₀ : σ}
    {tr : History Reply Env Boot Req Res} {c : Pool Reply σ Res} (h : S.Run guard s₀ tr c) {i : ℕ}
    {res : Res} (hfin : .finish i res ∈ tr) :
    ∃ req log, Post req res log ∧ Transcript tr i req log res := by
  have hnil : (transcriptOutline S ok Post).inv [] s₀ fun _ => none := by
    intro i res hmem
    cases hmem
  rcases (transcriptOutline_valid hok hwp).run hnil h with ⟨gs, hinv, -, -⟩
  have hrec := hinv i
  cases hi : gs i with
  | none =>
      rw [hi] at hrec
      exact hrec res hfin
  | some log =>
      rw [hi] at hrec
      exact absurd hfin (hrec.lost res)

end Transcript

/-! ## Looking back from an event -/

theorem Service.Steps.split {S : Service Reply σ Env Boot Req Res}
    {guard : Guard Reply σ Env Boot Req Res} {c₀ c : Pool Reply σ Res}
    {tr : History Reply Env Boot Req Res} (h : S.Steps guard c₀ tr c)
    {before after : History Reply Env Boot Req Res} {e : Event Reply Env Boot Req Res}
    (htr : tr = before ++ e :: after) :
    ∃ c₁, S.Steps guard c₀ before c₁ ∧ guard before c₁ e := by
  induction h generalizing after with
  | refl => simp at htr
  | @snoc tr c c' m e' hsteps hm hg ih =>
      -- The last event is `e` itself, or comes after it.
      rcases snoc_eq_append_cons.1 htr with ⟨rfl, rfl, -⟩ | ⟨after', -, htr'⟩
      · exact ⟨c, hsteps, hg⟩
      · exact ih htr'

section LookingBack

variable {S : Service Reply σ Env Boot Req Res} {guard : Guard Reply σ Env Boot Req Res} {s₀ : σ}
  {c : Pool Reply σ Res} {tr before after : History Reply Env Boot Req Res} {i : ℕ}

theorem Service.Run.move_at {e : Event Reply Env Boot Req Res} (h : S.Run guard s₀ tr c)
    (htr : tr = before ++ e :: after) :
    ∃ c₁ c₂ m, S.Run guard s₀ before c₁ ∧ S.move c₁ m = some (e, c₂) ∧ guard before c₁ e := by
  induction h generalizing after with
  | refl => simp at htr
  | @snoc tr c c' m e' hsteps hm hg ih =>
      rcases snoc_eq_append_cons.1 htr with ⟨rfl, rfl, -⟩ | ⟨after', -, htr'⟩
      · exact ⟨c, c', m, hsteps, hm, hg⟩
      · exact ih htr'

/-- An event says all about the move. -/
theorem Service.move_unique {c₁ c₂ : Pool Reply σ Res} {m₁ m₂ : Move Env Boot Req}
    {e : Event Reply Env Boot Req Res} (h₁ : S.move c m₁ = some (e, c₁))
    (h₂ : S.move c m₂ = some (e, c₂)) : c₁ = c₂ := by
  rcases Service.move_cases h₁ with ⟨req, rfl, rfl⟩ | ⟨i, a, ht, rfl, rfl⟩ |
    ⟨i, env, op, k, r, s', ht, hans, rfl, rfl⟩ | ⟨i, p, ht, rfl, rfl⟩ | ⟨b, rfl, rfl⟩ <;>
  rcases Service.move_cases h₂ with ⟨req', heq, rfl⟩ | ⟨i', a', ht', heq, rfl⟩ |
    ⟨i', env', op', k', r', s'', ht', hans', heq, rfl⟩ | ⟨i', p', ht', heq, rfl⟩ |
    ⟨b', heq, rfl⟩ <;> cases heq
  · rfl
  · rfl
  · rw [ht] at ht'
    rw [hans] at hans'
    cases ht'
    cases hans'
    rfl
  · rfl
  · rfl

theorem Service.Steps.unique {c₀ c₁ c₂ : Pool Reply σ Res} (h₁ : S.Steps guard c₀ tr c₁)
    (h₂ : S.Steps guard c₀ tr c₂) : c₁ = c₂ := by
  induction h₁ generalizing c₂ with
  | refl =>
      generalize htr : ([] : History Reply Env Boot Req Res) = tr at h₂
      cases h₂ with
      | refl => rfl
      | snoc _ _ _ => simp at htr
  | @snoc tr c c₁ m e _ hm _ ih =>
      generalize htr : tr ++ [e] = tr' at h₂
      cases h₂ with
      | refl => simp at htr
      | snoc hsteps hm' _ =>
          rcases List.append_inj' htr rfl with ⟨rfl, hlast⟩
          cases List.singleton_inj.1 hlast
          cases ih hsteps
          exact Service.move_unique hm hm'

/-- Before an operation was answered, its request was in flight and asked it. -/
theorem Service.Run.ask_at {env : Env} {op : Op} {r : Reply op} (h : S.Run guard s₀ tr c)
    (htr : tr = before ++ .ask i env op r :: after) :
    ∃ c₁ k s', S.Run guard s₀ before c₁ ∧ c₁.threads i = some (.ask op k) ∧
      S.answer env c₁.shared op = some (r, s') := by
  rcases h.move_at htr with ⟨c₁, c₂, m, hrun, hm, -⟩
  rcases Service.move_cases hm with ⟨req, heq, -⟩ | ⟨j, a, -, heq, -⟩ |
    ⟨j, env', op', k, r', s', ht, hans, heq, -⟩ | ⟨j, p, -, heq, -⟩ | ⟨b, heq, -⟩ <;> cases heq
  exact ⟨c₁, k, s', hrun, ht, hans⟩

/-- An operation is asked only where the protocol allows it. -/
theorem Outline.Valid.ask_at {G : Type} {π : Protocol Reply G} {O : Outline S π}
    (hO : O.Valid guard) (h₀ : O.inv [] s₀ fun _ => none) (h : S.Run guard s₀ tr c) {env : Env}
    {op : Op} {r : Reply op} (htr : tr = before ++ .ask i env op r :: after) :
    ∃ c₁ gs g, S.Run guard s₀ before c₁ ∧ O.inv before c₁.shared gs ∧ gs i = some g ∧
      π.pre g op := by
  rcases h.ask_at htr with ⟨c₁, k, s', hrun, ht, -⟩
  rcases hO.run h₀ hrun with ⟨gs, hinv, hfollows, -⟩
  have hi := hfollows i
  rw [ht] at hi
  rcases hi.ghost with ⟨g, hg, req, -, hwp⟩
  exact ⟨c₁, gs, g, hrun, hinv, hg, hwp.1⟩

end LookingBack

end Effect
