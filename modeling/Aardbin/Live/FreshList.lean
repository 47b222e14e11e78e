import Aardbin.Http.Refinement
import Aardbin.Notify.Unsent

/-!
# The answer to `GET /records`

The list is put together from two or three calls to the database, and other requests run in
between.  If none of them has written since the request came in, its answer is the list of the
tables as they are when it ends.
-/

namespace Aardbin

open Effect

/-! ## The list of a state of the tables -/

/-- `view` is the page `page` of the web list. -/
def Lists (s : AppState) (db : Db) (page : Int) (lang : Lang) (view : ListView) : Prop :=
  ∃ totalPages attachments, totalPages? db.records.length s.cfg.pageSize = some totalPages ∧
    db.attachmentsForRecords ((shownRows db page s.cfg.pageSize totalPages).map (·.id)) =
      .ok attachments ∧
    view = listView s lang (shownRows db page s.cfg.pageSize totalPages) attachments
      (clamp page 1 totalPages) totalPages db.records.length

/-- The list region of `GET /records` for the query `q`. -/
def Region (s : AppState) (db : Db) (headers : HeaderMap) (q : PageQuery) (html : String) : Prop :=
  ∃ view, Lists s db (q.page.getD 1) (detectLang headers) view ∧
    s.vendor.renderLang (detectLang headers) (.records view) = some html

/-- The region that a response carries. -/
def Response.region? (resp : Response) : Option String :=
  match resp.status, resp.body with
  | .ok, .html html => some html
  | _, _ => none

theorem region?_of_status {resp : Response} (h : resp.status ≠ .ok) : resp.region? = none := by
  unfold Response.region?
  split
  · rename_i hstatus _
    exact absurd hstatus h
  · rfl

theorem wp_recordsPartial (s : AppState) (headers : HeaderMap) (q : PageQuery) (w : Store) :
    wp (answering Store.answer) (recordsPartial s headers q)
      (fun resp _ => ∀ html, resp.region? = some html → Region s w.db headers q html) w := by
  simp only [recordsPartial, wp_bind]
  refine wp_mono (wp_buildListView s _ _ w) fun r w' hr => ?_
  cases r with
  | error e => rintro html ⟨⟩
  | ok view =>
      intro html hhtml
      refine ⟨view, hr view rfl, ?_⟩
      simp only [rendered] at hhtml
      split at hhtml
      · rename_i html' hrender
        cases hhtml
        exact hrender
      · cases hhtml

/-- What a call to the database returns depends on the tables alone. -/
theorem Store.answer_of_db {e : Env} {w w₁ w₁' : Store} {op : Call} {r : Reply op}
    (hread : op.isRead = true) (hdb : w₁.db = w.db) (h : w₁.answer e op = some (r, w₁')) :
    w.answer e op = some (r, w) := by
  cases op with
  | db c =>
      rcases answer_db h with ⟨err, rfl, -, hf | hexec⟩ | ⟨v, db, hf, hexec, rfl, -⟩
      · simp only [answer, hf, if_true] at h ⊢
        cases h
        rfl
      · cases hf : e.fault with
        | true =>
            simp only [answer, hf, if_true] at h ⊢
            cases h
            rfl
        | false => simp [answer, hf, ← hdb, hexec]
      · have hsame : db = w₁.db := Db.exec_of_isRead hread hexec
        rw [hdb] at hexec hsame
        subst hsame
        simp [answer, hf, hexec]
  | panic => exact r.elim
  | _ => cases hread

namespace Http

/-! ## Requests that no write has overtaken -/

/-- Does the event write to one of the tables? -/
def writes : Event Reply Env Boot Request Answer → Bool
  | .ask _ _ (.store c) r => c.writes r
  | _ => false

/-- Nothing has been written since request `i` came in. -/
def Fresh (tr : Log) (i : ℕ) : Prop :=
  ∃ before req after, tr = before ++ .start i req :: after ∧ ∀ e ∈ after, writes e = false

theorem fresh_snoc {tr : Log} {e : Event Reply Env Boot Request Answer} {i : ℕ} :
    Fresh (tr ++ [e]) i ↔ (∃ req, e = .start i req) ∨ (Fresh tr i ∧ writes e = false) := by
  constructor
  · rintro ⟨before, req, after, heq, hafter⟩
    rcases snoc_eq_append_cons.1 heq with ⟨rfl, rfl, -⟩ | ⟨after', rfl, rfl⟩
    · exact .inl ⟨req, rfl⟩
    · refine .inr ⟨⟨before, req, after', rfl, fun e he => hafter e (by simp [he])⟩, ?_⟩
      exact hafter e (by simp)
  · rintro (⟨req, rfl⟩ | ⟨⟨before, req, after, rfl, hafter⟩, hwrites⟩)
    · exact ⟨tr, req, [], rfl, by simp⟩
    · refine ⟨before, req, after ++ [e], by simp, fun e' he' => ?_⟩
      rcases List.mem_append.1 he' with hold | hnew
      · exact hafter e' hold
      · rwa [List.mem_singleton.1 hnew]

/-! ## What a request that is not overtaken reads -/

/-- `r` is a reply that the tables of `srv` can give. -/
def Consistent (srv : Server) : (op : Call) → Reply op → Prop
  | .store c, r => ∃ e w w', w.db = srv.store.db ∧ Store.answer e w c = some (r, w')
  | _, _ => True

/-- The ghost state is the server as the request has found it, until it is overtaken. -/
def viewing : Protocol Reply (Option Server) where
  pre := fun _ _ => True
  next := fun g op r g' => g' = none ∨ (g' = g ∧ ∀ srv, g = some srv → Consistent srv op r)

/-- Whatever is asked, the ghost state stays or is given up. -/
theorem wp_viewing {α : Type} {p : Program Reply α} {Q : α → Option Server → Prop}
    {g : Option Server} (h : ∀ a g', g' = none ∨ g' = g → Q a g') : wp viewing p Q g := by
  induction p generalizing g with
  | done a => exact h a g (.inr rfl)
  | ask op k ih =>
      refine ⟨trivial, fun r g' hnext => ih r fun a g'' hg'' => h a g'' ?_⟩
      rcases hnext with rfl | ⟨rfl, -⟩
      · exact .inl (hg''.elim id id)
      · exact hg''

/-- A program that reads finds the tables that the request has found. -/
theorem wp_viewing_reads {α : Type} {p : Program Aardbin.Reply α} {R : α → Prop} {srv : Server}
    (hreads : OnlyReads p) (h : wp (answering Store.answer) p (fun a _ => R a) srv.store) :
    wp viewing (p.embed storeCalls) (fun a g => ∀ srv', g = some srv' → srv' = srv ∧ R a)
      (some srv) := by
  induction p with
  | done a =>
      rintro srv' ⟨⟩
      exact ⟨rfl, h⟩
  | ask op k ih =>
      refine ⟨trivial, fun r g' hnext => ?_⟩
      rcases hnext with rfl | ⟨rfl, hr⟩
      · refine wp_viewing fun a g' hg' srv' hsome => ?_
        rw [hg'.elim id id] at hsome
        cases hsome
      · rcases hr srv rfl with ⟨e, w, w', hdb, hans⟩
        have hsame : srv.store.answer e op = some (r, srv.store) :=
          Store.answer_of_db hreads.1 hdb hans
        exact ih r (hreads.2 r () trivial) (h.2 r _ ⟨e, hsame⟩)

theorem requireAuth_status (s : AppState) (headers : HeaderMap) :
    Uses (fun _ => True) (fun r => ∀ resp, r = .error resp → resp.status ≠ .ok)
      (Auth.requireAuth s headers) := by
  refine (Uses.any _).bind fun valid _ => ?_
  split_ifs <;> exact Uses.pure (by simp)

/-- The answer to `GET /records`, if it has the list, has that of the tables of `srv`. -/
def ShowsRegion (srv : Server) (req : Request) (a : Answer) : Prop :=
  ∀ x resp html, req.endpoint = .recordsPartial x → a = .response resp →
    resp.region? = some html →
      ∃ q, x = some q ∧ Region srv.app srv.store.db req.headers.readable q html

theorem wp_viewing_route (srv : Server) (pages : Pages) (req : Request) :
    wp viewing (route srv.app pages req)
      (fun a g => ∀ srv', g = some srv' → ShowsRegion srv' req a) (some srv) := by
  by_cases hlist : ∃ x, req.endpoint = .recordsPartial x
  · rcases hlist with ⟨x, hx⟩
    have hshows : ∀ {srv' a}, (∀ resp html, a = .response resp → resp.region? = some html →
        ∃ q, x = some q ∧ Region srv'.app srv'.store.db req.headers.readable q html) →
        ShowsRegion srv' req a := by
      intro srv' a h x' resp html hx' ha hhtml
      rw [hx] at hx'
      cases hx'
      exact h resp html ha hhtml
    unfold route
    split
    · refine fun srv' _ => hshows ?_
      rintro resp html ⟨⟩
    · rw [hx]
      simp only [serve, protect, wp_bind]
      -- Nothing that the session check asks concerns the tables.
      have hauth : wp viewing ((Auth.requireAuth srv.app req.headers.readable).embed authCalls)
          (fun _ g => g = none ∨ g = some srv) (some srv) := wp_viewing fun _ _ hg => hg
      have hstatus : Uses (fun _ => True) (fun r => ∀ resp, r = .error resp → resp.status ≠ .ok)
          ((Auth.requireAuth srv.app req.headers.readable).embed authCalls) :=
        (requireAuth_status srv.app req.headers.readable).embed fun _ _ => trivial
      refine wp_mono (wp_with_uses hauth hstatus) fun r g hr => ?_
      rcases hr with ⟨hresp, hg⟩
      cases r with
      | error resp =>
          refine fun srv' _ => hshows ?_
          rintro _ html ⟨⟩ hhtml
          rw [region?_of_status (hresp resp rfl)] at hhtml
          cases hhtml
      | ok _ =>
          cases x with
          | none =>
              refine fun srv' _ => hshows ?_
              rintro resp html ⟨⟩
          | some q =>
              simp only [extracted, responding, wp_bind]
              rcases hg with rfl | rfl
              · refine wp_viewing fun a g' hg' => ?_
                rintro srv' rfl
                rcases hg' with h | h <;> cases h
              · refine wp_mono (wp_viewing_reads (onlyReads_recordsPartial srv.app _ q)
                  (wp_recordsPartial srv.app _ q srv.store)) fun resp g h srv' hg => hshows ?_
                rcases h srv' hg with ⟨rfl, hregion⟩
                rintro _ html ⟨⟩ hhtml
                exact ⟨q, rfl, hregion html hhtml⟩
  · refine wp_viewing fun a g _ srv' _ x resp html hx => ?_
    exact absurd ⟨x, hx⟩ hlist

/-! ## In every interleaving -/

/-- A request that is not overtaken has found the tables as they are. -/
def listing : Outline app viewing where
  born := fun w _ => some w.server
  post := fun req a g => ∀ srv, g = some srv → ShowsRegion srv req a
  inv := fun tr w gs =>
    (∀ i req req', .start i req ∈ tr → .start i req' ∈ tr → req = req') ∧
    ∀ i g, gs i = some g → Fresh tr i →
      ∃ srv, g = some srv ∧ srv.app = w.server.app ∧ srv.store.db = w.server.store.db

theorem World.server_of_not_writes {e : Env} {w w' : World} {op : Call} {r : Reply op} {i : ℕ}
    (h : w.answer e op = some (r, w')) (hwrites : writes (.ask i e op r) = false) :
    w'.server.app = w.server.app ∧ w'.server.store.db = w.server.store.db := by
  refine ⟨World.app_answer h, ?_⟩
  cases op with
  | store c =>
      have hstore := (Server.answer_eq_some (World.answer_store h)).1
      exact Store.db_answer_of_not_writes hstore hwrites
  | _ => rw [World.server_answer_of_silent h rfl]

/-- A request ends, in one way or another. -/
theorem listing_drop {tr : Log} {w : World} {gs : ℕ → Option (Option Server)}
    (h : listing.inv tr w gs) {e : Event Reply Env Boot Request Answer} {i : ℕ}
    (he : ∀ j req, e ≠ .start j req) : listing.inv (tr ++ [e]) w (Function.update gs i none) := by
  rcases h with ⟨honce, hfresh⟩
  have hold : ∀ j req, .start j req ∈ tr ++ [e] → .start j req ∈ tr := by
    intro j req hmem
    rcases List.mem_append.1 hmem with hold | hnew
    · exact hold
    · exact absurd (List.mem_singleton.1 hnew).symm (he j req)
  refine ⟨fun j req req' h h' => honce j req req' (hold j req h) (hold j req' h'), ?_⟩
  intro j g hj hnew
  by_cases hji : j = i
  · subst hji
    rw [Function.update_self] at hj
    cases hj
  · rw [Function.update_of_ne hji] at hj
    rcases fresh_snoc.1 hnew with ⟨req, heq⟩ | ⟨hfresh', -⟩
    · exact absurd heq (he j req)
    · exact hfresh j g hj hfresh'

theorem listing_nil (w : World) : listing.inv [] w fun _ => none := by
  refine ⟨?_, ?_⟩
  · intro i req req' hmem
    cases hmem
  · intro i g hi
    cases hi

theorem listing_valid (guard : Guard Reply World Env Boot Request Answer) :
    listing.Valid guard where
  handler := fun w req => wp_viewing_route w.server w.pages req
  start := by
    rintro tr c gs i req - hunused hnone ⟨honce, hfresh⟩
    refine ⟨fun j req₁ req₂ h₁ h₂ => ?_, fun j g hj hnew => ?_⟩
    · -- The number `i` is new, so the two starts are both old or both this one.
      have hne : ∀ r, .start i r ∉ tr := fun r hmem => hunused _ hmem rfl
      rcases List.mem_append.1 h₁ with h₁ | h₁ <;> rcases List.mem_append.1 h₂ with h₂ | h₂
      · exact honce j req₁ req₂ h₁ h₂
      · cases List.mem_singleton.1 h₂
        exact absurd h₁ (hne req₁)
      · cases List.mem_singleton.1 h₁
        exact absurd h₂ (hne req₂)
      · cases List.mem_singleton.1 h₁
        cases List.mem_singleton.1 h₂
        rfl
    · by_cases hji : j = i
      · subst hji
        rw [Function.update_self] at hj
        cases hj
        exact ⟨c.shared.server, rfl, rfl, rfl⟩
      · rw [Function.update_of_ne hji] at hj
        rcases fresh_snoc.1 hnew with ⟨req', heq⟩ | ⟨hold, -⟩
        · cases heq
          exact absurd rfl hji
        · exact hfresh j g hj hold
  ask := by
    rintro tr c gs i g env op r w' - - hi - hans ⟨honce, hfresh⟩
    have honce' : ∀ j req req', Event.start j req ∈ tr ++ [.ask i env op r] →
        .start j req' ∈ tr ++ [.ask i env op r] → req = req' := by
      intro j req req' h h'
      exact honce j req req' (by simpa using h) (by simpa using h')
    -- Whoever is not overtaken yet has found the tables as they are now.
    have hkeep : ∀ j g, gs j = some g → Fresh (tr ++ [.ask i env op r]) j →
        ∃ srv, g = some srv ∧ srv.app = w'.server.app ∧ srv.store.db = w'.server.store.db := by
      intro j g hj hnew
      rcases fresh_snoc.1 hnew with ⟨req', heq⟩ | ⟨hold, hwrites⟩
      · cases heq
      · rcases hfresh j g hj hold with ⟨srv, hg, happ, hdb⟩
        rcases World.server_of_not_writes hans hwrites with ⟨happ', hdb'⟩
        exact ⟨srv, hg, happ.trans happ'.symm, hdb.trans hdb'.symm⟩
    by_cases hnew : Fresh tr i
    · rcases hfresh i g hi hnew with ⟨srv, rfl, -, hdb⟩
      refine ⟨some srv, .inr ⟨rfl, ?_⟩, honce', fun j g' hj hnew' => ?_⟩
      · rintro _ ⟨⟩
        cases op with
        | store c =>
            have hstore := (Server.answer_eq_some (World.answer_store hans)).1
            exact ⟨env.store, _, _, hdb.symm, hstore⟩
        | _ => trivial
      · by_cases hji : j = i
        · subst hji
          rw [Function.update_self] at hj
          cases hj
          exact hkeep j _ hi hnew'
        · rw [Function.update_of_ne hji] at hj
          exact hkeep j g' hj hnew'
    · refine ⟨none, .inl rfl, honce', fun j g' hj hnew' => ?_⟩
      by_cases hji : j = i
      · subst hji
        rcases fresh_snoc.1 hnew' with ⟨req', heq⟩ | ⟨hold, -⟩
        · cases heq
        · exact absurd hold hnew
      · rw [Function.update_of_ne hji] at hj
        exact hkeep j g' hj hnew'
  finish := by
    rintro tr c gs i g req res - - - - hinv
    exact listing_drop hinv fun j req => nofun
  abandon := by
    rintro tr c gs i g - - hinv
    exact listing_drop hinv fun j req => nofun
  reboot := by
    rintro tr c gs b - ⟨honce, -⟩
    refine ⟨fun j req req' h h' => honce j req req' (by simpa using h) (by simpa using h'), ?_⟩
    intro j g hj
    cases hj

/-- A list that no write has overtaken when it is answered is the list of that time. -/
theorem answer_shows {guard : Guard Reply World Env Boot Request Answer} {w₀ : World} {tr : Log}
    {c : Pool Reply World Answer} (h : app.Run guard w₀ tr c) {i : ℕ} {req : Request} {a : Answer}
    (hi : c.threads i = some (.done a)) (hreq : .start i req ∈ tr) (hfresh : Fresh tr i) :
    ShowsRegion c.shared.server req a := by
  rcases (listing_valid guard).run (listing_nil w₀) h with ⟨gs, ⟨honce, hkeep⟩, hfollows, -⟩
  have hf := hfollows i
  rw [hi] at hf
  rcases hf.ghost with ⟨g, hg, req', hreq', hpost⟩
  obtain rfl : req = req' := honce i req req' hreq hreq'
  rcases hkeep i g hg hfresh with ⟨srv, rfl, happ, hdb⟩
  have hshows : ShowsRegion srv req a := hpost srv rfl
  intro q resp html hq ha hhtml
  rw [← happ, ← hdb]
  exact hshows q resp html hq ha hhtml

end Http

end Aardbin
