import Aardbin.Effect.Ownership
import Aardbin.Http.Refinement

/-!
# Complete mediation

No request reaches the records, the files or the event stream before it has passed the origin
guard and then, by its own clock reading or its own check of the key, the authentication of its
route.  What writes is either such a request of the API or a POST that is not cross-site.
-/

namespace Aardbin

open Effect Rust

/-! ## The access key -/

/-- The extractor lets a request through only after the limiter and the comparison of the key. -/
theorem Auth.wp_fromRequestParts (s : AppState) (addr : Option IpAddr) (headers : HeaderMap) :
    wp (logging Env Answers) (fromRequestParts s addr headers)
      (fun r log => r = .ok () → ∃ ip, addr = some ip ∧
        headers "authorization" = some ("Bearer " ++ s.cfg.accessKey) ∧ ∃ env env',
          log = [⟨env, .check ip, .ok ()⟩, ⟨env', .ctEq s.cfg.accessKey s.cfg.accessKey, true⟩])
      [] := by
  cases addr with
  | none =>
      intro h
      cases h
  | some ip =>
      simp only [fromRequestParts, wp_bind]
      refine wp_logging_perform fun env checked _ => ?_
      rcases checked with remaining | ⟨⟩
      · intro h
        cases h
      · cases hauth : headers "authorization" with
        | none =>
            intro h
            cases h
        | some authHeader =>
            cases htoken : stripPrefix authHeader "Bearer " with
            | none =>
                simp only [htoken]
                intro h
                cases h
            | some token =>
                simp only [htoken, wp_bind]
                refine wp_logging_perform fun env' right hright => ?_
                cases right with
                | true =>
                    intro _
                    obtain rfl : token = s.cfg.accessKey := of_decide_eq_true hright.symm
                    refine ⟨ip, rfl, ?_, env, env', rfl⟩
                    have hbearer : authHeader = "Bearer " ++ s.cfg.accessKey := by
                      rw [← String.toList_inj, stripPrefix_eq_some htoken, String.toList_append]
                    rw [hbearer]
                | false =>
                    simp only [Bool.false_eq_true, if_false, wp_bind]
                    refine wp_logging_perform fun _ _ _ => ?_
                    intro h
                    cases h

namespace Http

/-! ## Credentials -/

/-- The routes that ask for the access key. -/
def Endpoint.isApi : Endpoint → Bool
  | .apiListRecords _ | .apiCreateRecord _ | .apiGetRecord _ | .apiDeleteRecord _
  | .apiDownloadAttachment _ _ => true
  | _ => false

/-- What a request has to show on its route; `did` are the calls it has made. -/
def Credential (s : AppState) (req : Request) (did : (c : Auth.Call) → Auth.Reply c → Prop) :
    Prop :=
  if req.endpoint.isApi then
    ∃ ip, req.addr = some ip ∧
      req.headers.readable "authorization" = some ("Bearer " ++ s.cfg.accessKey) ∧
      did (.check ip) (.ok ()) ∧ did (.ctEq s.cfg.accessKey s.cfg.accessKey) true
  else
    ∃ e n, Auth.Bears s.sessions req.headers.readable e ∧ n < e ∧ did .unixTime n

theorem Credential.mono {s : AppState} {req : Request}
    {did did' : (c : Auth.Call) → Auth.Reply c → Prop} (h : Credential s req did)
    (hdid : ∀ c r, did c r → did' c r) : Credential s req did' := by
  unfold Credential at h ⊢
  split_ifs at h ⊢
  · rcases h with ⟨ip, haddr, hkey, hcheck, heq⟩
    exact ⟨ip, haddr, hkey, hdid _ _ hcheck, hdid _ _ heq⟩
  · rcases h with ⟨e, n, hbears, hlt, hclock⟩
    exact ⟨e, n, hbears, hlt, hdid _ _ hclock⟩

/-! ## The protocol of a request -/

/-- The calls that give out or change what is kept. -/
def Call.isData : Call → Bool
  | .auth _ => false
  | _ => true

structure Visitor where
  app : AppState
  req : Request
  /-- what the request has asked for its authentication -/
  asked : Auth.Asks

namespace Visitor

def did (g : Visitor) (c : Auth.Call) (r : Auth.Reply c) : Prop :=
  ∃ env, ⟨env, c, r⟩ ∈ g.asked

def Admitted (g : Visitor) : Prop :=
  originGuard g.req.endpoint.method g.req.headers = .ok () ∧ Credential g.app g.req g.did

/-- What a reply adds to the calls. -/
inductive Hears (g : Visitor) : (op : Call) → Reply op → Visitor → Prop
  | auth (env : Auth.Env) (c : Auth.Call) (r : Auth.Reply c) : Auth.Answers c r →
      Hears g (.auth c) r { g with asked := g.asked ++ [⟨env, c, r⟩] }
  | other {op : Call} (r : Reply op) : op.isData = true → Hears g op r g

theorem Hears.admitted {g g' : Visitor} {op : Call} {r : Reply op} (h : g.Hears op r g')
    (hg : g.Admitted) : g'.Admitted := by
  cases h with
  | auth env c r hr =>
      exact ⟨hg.1, hg.2.mono fun c' r' ⟨env', hmem⟩ => ⟨env', List.mem_append_left _ hmem⟩⟩
  | other r hdata => exact hg

end Visitor

/-- No data before the credential. -/
def admission : Protocol Reply Visitor where
  pre := fun g op => op.isData = true → g.Admitted
  next := fun g op r g' => g.Hears op r g'

/-- No change of the server but by the requests that write. -/
def writing : Protocol Reply Visitor where
  pre := fun g op => op.silent = false → ∃ r, g.req.write? = some r
  next := fun g _ _ g' => g'.req = g.req

section Admission

variable {α : Type} {g : Visitor}

/-- An admitted request may do anything. -/
theorem wp_of_admitted (p : Program Reply α) (hg : g.Admitted) :
    wp admission p (fun _ _ => True) g := by
  induction p generalizing g with
  | done a => trivial
  | ask op k ih => exact ⟨fun _ => hg, fun r g' hr => ih r (hr.admitted hg)⟩

/-- The authentication is verified on its own log. -/
theorem wp_admission_auth {p : Program Auth.Reply α} {Q : α → Auth.Asks → Prop}
    (h : wp (logging Auth.Env Auth.Answers) p Q g.asked) :
    wp admission (p.embed authCalls)
      (fun a g' => Q a g'.asked ∧ g'.app = g.app ∧ g'.req = g.req) g := by
  induction p generalizing g with
  | done a => exact ⟨h, rfl, rfl⟩
  | ask c k ih =>
      refine ⟨?_, ?_⟩
      · intro hdata
        cases hdata
      rintro r g' hr
      cases hr with
      | auth env _ _ hans =>
          exact ih r (g := { g with asked := g.asked ++ [⟨env, c, r⟩] })
            (h.2 r _ ⟨hans, env, rfl⟩)
      | other _ hdata => cases hdata

variable {s : AppState} {req : Request}

theorem wp_admission_protect {handler : Program Reply Answer} (hapi : req.endpoint.isApi = false)
    (hguard : originGuard req.endpoint.method req.headers = .ok ()) :
    wp admission (protect s req.headers.readable handler) (fun _ _ => True)
      { app := s, req, asked := [] } := by
  unfold protect
  rw [wp_bind]
  have hauth := wp_admission_auth (g := { app := s, req, asked := [] })
    (Auth.wp_requireAuth s req.headers.readable)
  refine wp_mono hauth ?_
  rintro r ⟨_, _, asked⟩ ⟨hr, rfl, rfl⟩
  cases r with
  | error resp => trivial
  | ok _ =>
      rcases hr.1 rfl with ⟨e, env, n, hbears, hlt, hasked⟩
      refine wp_of_admitted handler ⟨hguard, ?_⟩
      rw [Credential, if_neg (by simp [hapi])]
      exact ⟨e, n, hbears, hlt, env, by rw [hasked]; exact List.mem_singleton_self _⟩

theorem wp_admission_withApiAuth {handler : Program Reply Answer} (hapi : req.endpoint.isApi = true)
    (hguard : originGuard req.endpoint.method req.headers = .ok ()) :
    wp admission (withApiAuth s req.addr req.headers.readable handler) (fun _ _ => True)
      { app := s, req, asked := [] } := by
  unfold withApiAuth
  rw [wp_bind]
  have hauth := wp_admission_auth (g := { app := s, req, asked := [] })
    (Auth.wp_fromRequestParts s req.addr req.headers.readable)
  refine wp_mono hauth ?_
  rintro r ⟨_, _, asked⟩ ⟨hr, rfl, rfl⟩
  cases r with
  | error resp => trivial
  | ok _ =>
      rcases hr rfl with ⟨ip, haddr, hkey, env, env', hasked⟩
      refine wp_of_admitted handler ⟨hguard, ?_⟩
      rw [Credential, if_pos hapi]
      dsimp only at hasked
      subst hasked
      exact ⟨ip, haddr, hkey, ⟨env, by simp⟩, env', by simp⟩

theorem wp_admission_extracted {β : Type} {x : Option β} {handler : β → Program Reply Answer}
    (h : ∀ a, wp admission (handler a) (fun _ _ => True) g) :
    wp admission (extracted x handler) (fun _ _ => True) g := by
  cases x with
  | none => trivial
  | some a => exact h a

/-- Every route is behind the authentication that it is classified under, or asks for no data. -/
theorem wp_admission_route (pages : Pages) :
    wp admission (route s pages req) (fun _ _ => True) { app := s, req, asked := [] } := by
  unfold route
  split
  · trivial
  · rename_i hguard
    rcases req with ⟨endpoint, headers, addr⟩
    cases endpoint with
    | healthz | asset _ | postLogout | unrouted _ => trivial
    | getLogin error => exact wp_admission_extracted fun _ => trivial
    | postLang lang => exact wp_admission_extracted fun _ => trivial
    | postLogin form =>
        simp only [serve]
        split
        · rename_i ip form
          rw [wp_bind]
          refine wp_keeps (fun _ => True) ?_ (fun _ _ _ _ _ _ _ => trivial)
            (uses_embed (Auth.postLogin s ip headers.readable form)) trivial fun _ _ _ _ => trivial
          rintro g op - ⟨c, rfl⟩ hdata
          cases hdata
        · trivial
    | apiListRecords _ | apiCreateRecord _ | apiGetRecord _ | apiDeleteRecord _
    | apiDownloadAttachment _ _ => exact wp_admission_withApiAuth rfl hguard
    | _ => exact wp_admission_protect rfl hguard

end Admission

section Writing

variable {α : Type} {g : Visitor} {s : AppState}

theorem wp_of_write {r : Aardbin.Request} (p : Program Reply α) (hg : g.req.write? = some r) :
    wp writing p (fun _ _ => True) g := by
  induction p generalizing g with
  | done a => trivial
  | ask op k ih =>
      refine ⟨fun _ => ⟨r, hg⟩, fun r' g' hr => ih r' ?_⟩
      rw [hr, hg]

theorem wp_writing_of_stages {p : Program Reply Answer} (h : Stages s g.req p) :
    wp writing p (fun _ _ => True) g := by
  generalize hreq : g.req = req at h
  induction h generalizing g with
  | done a => trivial
  | ask hsilent _ ih =>
      refine ⟨fun hloud => ?_, fun r g' hr => ih r (hr.trans hreq)⟩
      rw [hloud] at hsilent
      cases hsilent
  | enter r f hr => exact wp_of_write _ (hreq ▸ hr)

end Writing

/-! ## The process -/

def gatekeeper : Protocol Reply Visitor :=
  meet admission writing

theorem wp_gatekeeper_route (s : AppState) (pages : Pages) (req : Request) :
    wp gatekeeper (route s pages req) (fun _ _ => True) { app := s, req, asked := [] } :=
  wp_mono (wp_meet (wp_admission_route pages) (wp_writing_of_stages (stages_route s pages req)))
    fun _ _ _ => trivial

/-- The call of request `i` in a history. -/
def Did (tr : Log) (i : ℕ) (c : Auth.Call) (r : Auth.Reply c) : Prop :=
  ∃ env, .ask i env (.auth c) r ∈ tr

/-- What the ghost state knows is in the history, and the process has not been restarted since. -/
structure Observed (tr : Log) (w : World) (i : ℕ) (g : Visitor) : Prop where
  app : g.app = w.server.app
  start : .start i g.req ∈ tr
  did : ∀ c r, g.did c r → Did tr i c r

theorem Observed.snoc {tr : Log} {w w' : World} {i : ℕ} {g : Visitor} (h : Observed tr w i g)
    (happ : w'.server.app = w.server.app) (ev : Event Reply Env Boot Request Answer) :
    Observed (tr ++ [ev]) w' i g := by
  refine ⟨h.app.trans happ.symm, List.mem_append_left _ h.start, fun c r hdid => ?_⟩
  rcases h.did c r hdid with ⟨env, hmem⟩
  exact ⟨env, List.mem_append_left _ hmem⟩

theorem World.answers_of_answer {e : Env} {w w' : World} {c : Auth.Call} {r : Auth.Reply c}
    (h : w.answer e (.auth c) = some (r, w')) : Auth.Answers c r := by
  simp only [World.answer] at h
  split at h
  · cases h
  · rename_i r' auth hans
    cases h
    exact Auth.answers_of_answer _ _ _ _ _ hans

def watching : Outline app gatekeeper where
  born := fun w req => { app := w.server.app, req, asked := [] }
  post := fun _ _ _ => True
  inv := fun tr w gs => Each (Observed tr w) gs

theorem watching_valid {guard : Guard Reply World Env Boot Request Answer} :
    watching.Valid guard where
  handler := fun w req => wp_gatekeeper_route w.server.app w.pages req
  start := by
    intro tr c gs i req _ _ _ hinv
    refine Each.set hinv ⟨rfl, List.mem_append_right _ (List.mem_singleton_self _), ?_⟩
      fun j g _ _ hg => hg.snoc rfl _
    rintro c r ⟨env, hmem⟩
    cases hmem
  ask := by
    intro tr c gs i g env op r s' _ _ hi _ hans hinv
    have happ := World.app_answer hans
    have hg := hinv i g hi
    cases op with
    | auth call =>
        refine ⟨_, ⟨.auth env.auth call r (World.answers_of_answer hans), rfl⟩, ?_⟩
        refine Each.set hinv ?_ fun j g _ _ hg => hg.snoc happ _
        refine ⟨hg.app.trans happ.symm, List.mem_append_left _ hg.start, ?_⟩
        rintro c' r' ⟨env', hmem⟩
        rcases List.mem_append.1 hmem with hold | hnew
        · exact (hg.snoc happ _).did c' r' ⟨env', hold⟩
        · cases List.mem_singleton.1 hnew
          exact ⟨env, by simp⟩
    | _ =>
        refine ⟨g, ⟨.other r rfl, rfl⟩, ?_⟩
        exact Each.set hinv (hg.snoc happ _) fun j g _ _ hg => hg.snoc happ _
  finish := by
    intro tr c gs i g req res _ _ _ _ hinv
    exact Each.drop hinv fun j g _ _ hg => hg.snoc rfl _
  abandon := by
    intro tr c gs i g _ _ hinv
    exact Each.drop hinv fun j g _ _ hg => hg.snoc rfl _
  reboot := fun _ _ _ _ _ _ => Each.idle

/-! ## The result -/

theorem Request.post_or_api {req : Request} {r : Aardbin.Request} (h : req.write? = some r) :
    req.endpoint.method = .post ∨ req.endpoint.isApi = true := by
  rcases req with ⟨endpoint, headers, addr⟩
  cases endpoint <;> first | exact .inl rfl | exact .inr rfl | cases h

/-- Whenever data is asked for, the request has passed the guard and shown its credential to the
process that is running then; and a request that changes the server is one of the API, or a POST
that is not cross-site. -/
theorem complete_mediation {guard : Guard Reply World Env Boot Request Answer} {w₀ : World}
    {tr : Log} {c : Pool Reply World Answer} (h : app.Run guard w₀ tr c) {before after : Log} {i : ℕ}
    {env : Env} {op : Call} {r : Reply op} (htr : tr = before ++ .ask i env op r :: after)
    (hdata : op.isData = true) :
    ∃ req c₁, app.Run guard w₀ before c₁ ∧ .start i req ∈ before ∧
      originGuard req.endpoint.method req.headers = .ok () ∧
      Credential c₁.shared.server.app req (Did before i) ∧
      (op.silent = false → req.endpoint.isApi = true ∨
        req.endpoint.method = .post ∧ ¬ CrossSite req.headers) := by
  rcases watching_valid.ask_at Each.idle h htr with ⟨c₁, gs, g, hrun, hinv, hi, hadmit, hwrite⟩
  have hg := hinv i g hi
  rcases hadmit hdata with ⟨hguard, hcredential⟩
  refine ⟨g.req, c₁, hrun, hg.start, hguard, hg.app ▸ hcredential.mono hg.did, ?_⟩
  intro hloud
  rcases hwrite hloud with ⟨r', hr'⟩
  rcases Request.post_or_api hr' with hpost | hapi
  · refine .inr ⟨hpost, fun hcross => ?_⟩
    rcases hcross.refused with ⟨msg, hmsg⟩
    rw [hpost, hmsg] at hguard
    cases hguard
  · exact .inl hapi

/-- A record is created under the id `r1`. -/
def createsRecord : Event Reply Env Boot Request Answer → Bool
  | .ask 0 _ (.store (.db (.createRecord id _ _))) (.ok ()) => id = "r1"
  | _ => false

/-- A client with the access key creates a record. -/
theorem complete_mediation_run : ∃ tr c before after i env op,
    ∃ r : Reply op, app.Run (fun _ _ _ => True) World.plain tr c ∧
      tr = before ++ .ask i env op r :: after ∧ op.silent = false ∧
      ∃ req c₁, app.Run (fun _ _ _ => True) World.plain before c₁ ∧ .start i req ∈ before ∧
        originGuard req.endpoint.method req.headers = .ok () ∧
        Credential c₁.shared.server.app req (Did before i) ∧
        (op.silent = false → req.endpoint.isApi = true ∨
          req.endpoint.method = .post ∧ ¬ CrossSite req.headers) := by
  have hplay : ∃ tr c, app.Run (fun _ _ _ => True) World.plain tr c ∧
      tr.any createsRecord = true := by
    refine Service.exists_run
      (.start { endpoint := .apiCreateRecord (some (form "a" "b" []))
                headers := keyHeaders, addr := some (.v4 1) } ::
        stepsOf 0 [{}, {}, { store := { uuid := "r1" } }, {}, {}, {}]) ?_
    decide
  rcases hplay with ⟨tr, c, hrun, hany⟩
  rcases List.any_eq_true.1 hany with ⟨ev, hev, hcreates⟩
  rcases List.append_of_mem hev with ⟨before, after, htr⟩
  unfold createsRecord at hcreates
  split at hcreates
  · exact ⟨tr, c, before, after, _, _, _, _, hrun, htr, rfl, complete_mediation hrun htr rfl⟩
  · cases hcreates

end Http
end Aardbin
