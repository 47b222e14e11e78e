import Aardbin.Effect.Projection
import Aardbin.Http.Router
import Aardbin.PlainVendor

/-!
# The process refines the six requests that write

Guards, limiter, pages, lists, downloads and event streams come in between, but what the whole
process does to the store, in any interleaving of its requests, is a run of `server`.
-/

namespace Aardbin

open Effect

/-! ## Calls that leave the store alone -/

def DbCall.isRead : DbCall → Bool
  | .getRecord _ | .listRecords _ _ | .getAttachment _ | .listAttachments _
  | .attachmentsForRecords _ | .allAttachmentIds => true
  | _ => false

def Call.isRead : Call → Bool
  | .db c => c.isRead
  | .panic => true
  | _ => false

theorem Db.exec_of_isRead {db db' : Db} {c : DbCall} {v : c.Val} (hread : c.isRead = true)
    (h : db.exec c = .ok (v, db')) : db' = db := by
  cases c with
  | attachmentsForRecords ids => exact (of_exec_attachmentsForRecords h).2
  | getRecord _ | listRecords _ _ | getAttachment _ | listAttachments _ | allAttachmentIds =>
      cases h
      rfl
  | _ => cases hread

theorem Store.answer_of_isRead {e : Env} {w w' : Store} {op : Call} {r : Reply op}
    (hread : op.isRead = true) (h : w.answer e op = some (r, w')) : w' = w := by
  cases op with
  | db c =>
      rcases answer_db h with ⟨err, -, rfl, -⟩ | ⟨v, db, -, hexec, -, rfl⟩
      · rfl
      · rw [Db.exec_of_isRead hread hexec]
  | panic => cases h
  | _ => cases hread

/-! ## Handlers that only read -/

/-- Whatever the replies, the program asks nothing but reads. -/
abbrev OnlyReads {α : Type} (p : Program Reply α) : Prop :=
  Uses (fun op => op.isRead = true) (fun _ => True) p

theorem onlyReads_bind {α : Type} {c : DbCall} (h : c.isRead = true)
    {f : Except DbError c.Val → Program Reply α} (hf : ∀ r, OnlyReads (f r)) :
    OnlyReads (.perform (Call.db c) >>= f) :=
  ⟨h, fun r _ _ => hf r⟩

theorem onlyReads_panic {α : Type} : OnlyReads (Ask.panic : Program Reply α) :=
  ⟨rfl, fun r => r.elim⟩

theorem onlyReads_showRows (s : AppState) (lang : Lang) (page totalPages total : Int)
    (rows : List RecordRow) : OnlyReads (showRows s lang page totalPages total rows) := by
  refine onlyReads_bind rfl fun r => ?_
  cases r <;> exact Uses.pure trivial

theorem onlyReads_buildListView (s : AppState) (page : Int) (lang : Lang) :
    OnlyReads (buildListView s page lang) := by
  refine onlyReads_bind rfl fun r => ?_
  rcases r with err | ⟨rows, total⟩
  · exact Uses.pure trivial
  · dsimp only
    split
    · exact onlyReads_panic
    · split_ifs
      · refine onlyReads_bind rfl fun r => ?_
        rcases r with err | ⟨rows, -⟩
        · exact Uses.pure trivial
        · exact onlyReads_showRows _ _ _ _ _ _
      · exact onlyReads_showRows _ _ _ _ _ _

theorem onlyReads_index (s : AppState) (headers : HeaderMap) : OnlyReads (index s headers) := by
  refine Uses.bind (onlyReads_buildListView s 1 _) fun r _ => ?_
  cases r <;> exact Uses.pure trivial

theorem onlyReads_recordsPartial (s : AppState) (headers : HeaderMap) (q : PageQuery) :
    OnlyReads (recordsPartial s headers q) := by
  refine Uses.bind (onlyReads_buildListView s _ _) fun r _ => ?_
  cases r <;> exact Uses.pure trivial

theorem onlyReads_apiListRecords (s : AppState) (q : ApiListQuery) :
    OnlyReads (apiListRecords s q) := by
  refine onlyReads_bind rfl fun r => ?_
  rcases r with err | ⟨rows, total⟩
  · exact Uses.pure trivial
  · dsimp only
    split
    · exact onlyReads_panic
    · refine onlyReads_bind rfl fun r => ?_
      cases r <;> exact Uses.pure trivial

theorem onlyReads_apiGetRecord (s : AppState) (id : String) : OnlyReads (apiGetRecord s id) := by
  refine onlyReads_bind rfl fun r => ?_
  rcases r with err | _ | row
  · exact Uses.pure trivial
  · exact Uses.pure trivial
  · refine onlyReads_bind rfl fun r => ?_
    cases r <;> exact Uses.pure trivial

theorem onlyReads_editForm (s : AppState) (id : String) (headers : HeaderMap) :
    OnlyReads (editForm s id headers) := by
  refine onlyReads_bind rfl fun r => ?_
  rcases r with err | _ | row
  · exact Uses.pure trivial
  · exact Uses.pure trivial
  · dsimp only
    split
    · exact Uses.pure trivial
    · refine onlyReads_bind rfl fun r => ?_
      cases r <;> exact Uses.pure trivial

theorem Http.onlyReads_copyRecord (s : AppState) (id : String) : OnlyReads (copyRecord s id) := by
  refine onlyReads_bind rfl fun r => ?_
  rcases r with err | _ | row
  · exact Uses.pure trivial
  · exact Uses.pure trivial
  · dsimp only
    split <;> exact Uses.pure trivial

namespace Http

/-! ## The projection -/

/-- The calls that do not change the server. -/
def Call.silent : Call → Bool
  | .store c => c.isRead
  | _ => true

/-- The request to the server that a request comes to. -/
def Request.write? (req : Request) : Option Aardbin.Request :=
  let headers := req.headers.readable
  match req.endpoint with
  | .apiCreateRecord multipart => multipart.map (.apiCreate headers)
  | .apiDeleteRecord id => some (.apiDelete id)
  | .createRecord multipart => multipart.map (.create headers)
  | .updateRecord id multipart => multipart.map (.update id headers)
  | .deleteRecord id => some (.delete id)
  | .deleteAttachment recordId attachmentId =>
      some (.deleteAttachment recordId attachmentId headers)
  | _ => none

/-- A program of the process, as the server sees it. -/
abbrev Stages (s : AppState) (req : Request) : Program Reply Answer → Prop :=
  Staged storeCalls (fun op => op.silent = true) (Aardbin.handle s) fun r => req.write? = some r

section Stages

variable {s : AppState} {req : Request}

theorem stages_embed_auth {α : Type} (p : Program Auth.Reply α)
    {f : α → Program Reply Answer} (hf : ∀ a, Stages s req (f a)) :
    Stages s req (p.embed authCalls >>= f) := by
  refine Staged.bind (R := fun _ => True) ((uses_embed p).mono ?_ fun _ _ => trivial)
    fun a _ => hf a
  rintro _ ⟨o, rfl⟩
  rfl

theorem stages_reads {α : Type} {p : Program Aardbin.Reply α} (h : OnlyReads p)
    {f : α → Program Reply Answer} (hf : ∀ a, Stages s req (f a)) :
    Stages s req (p.embed storeCalls >>= f) :=
  Staged.bind (h.embed fun _ ho => ho) fun a _ => hf a

theorem stages_download (id : String) (inline : Option String) (failed : Response)
    (missing : String → Response) :
    Stages s req (downloadWith id inline failed missing >>= fun d => return downloaded d) := by
  have huses : Uses (fun op : Call => op.silent = true) (fun _ => True)
      (downloadWith id inline failed missing) := by
    refine Uses.bind (R := fun _ => True) (.perform rfl fun _ => trivial) fun r _ => ?_
    rcases r with err | _ | row
    · exact Uses.pure trivial
    · exact Uses.pure trivial
    · refine Uses.bind (R := fun _ => True) (.perform rfl fun _ => trivial) fun r _ => ?_
      cases r <;> exact Uses.pure trivial
  exact Staged.bind huses fun d _ => .done _

theorem stages_extracted {α : Type} {x : Option α} {handler : α → Program Reply Answer}
    (h : ∀ a, x = some a → Stages s req (handler a)) : Stages s req (extracted x handler) := by
  cases x with
  | none => exact .done _
  | some a => exact h a rfl

theorem stages_protect {headers : HeaderMap} {handler : Program Reply Answer}
    (h : Stages s req handler) : Stages s req (protect s headers handler) := by
  refine stages_embed_auth _ fun r => ?_
  cases r with
  | error resp => exact .done _
  | ok _ => exact h

theorem stages_withApiAuth {addr : Option IpAddr} {headers : HeaderMap}
    {handler : Program Reply Answer} (h : Stages s req handler) :
    Stages s req (withApiAuth s addr headers handler) := by
  refine stages_embed_auth _ fun r => ?_
  cases r with
  | error resp => exact .done _
  | ok _ => exact h

/-- The six handlers that write are those of the server. -/
theorem stages_write {r : Aardbin.Request} (h : req.write? = some r) :
    Stages s req (responding (handle s r)) :=
  .enter r Answer.response h

end Stages

theorem stages_route (s : AppState) (pages : Pages) (req : Request) :
    Stages s req (route s pages req) := by
  unfold route
  split
  · exact .done _
  · rename_i hguard
    rcases req with ⟨endpoint, headers, addr⟩
    cases endpoint with
    | healthz | asset _ | postLogout | unrouted _ => exact .done _
    | getLogin error => exact stages_extracted fun _ _ => .done _
    | postLang lang => exact stages_extracted fun _ _ => .done _
    | postLogin form =>
        simp only [serve]
        split
        · exact stages_embed_auth _ fun _ => .done _
        · exact .done _
    | apiListRecords q =>
        exact stages_withApiAuth (stages_extracted fun q _ =>
          stages_reads (onlyReads_apiListRecords s q) fun _ => .done _)
    | apiCreateRecord multipart =>
        refine stages_withApiAuth (stages_extracted fun parts hparts => stages_write ?_)
        simp [Request.write?, hparts]
    | apiGetRecord id =>
        refine stages_withApiAuth (stages_reads (onlyReads_apiGetRecord s id) fun r => ?_)
        cases r <;> exact .done _
    | apiDeleteRecord id => exact stages_withApiAuth (stages_write rfl)
    | apiDownloadAttachment id inline =>
        exact stages_withApiAuth (stages_extracted fun _ _ => stages_download _ _ _ _)
    | index => exact stages_protect (stages_reads (onlyReads_index s _) fun _ => .done _)
    | recordsPartial q =>
        exact stages_protect (stages_extracted fun q _ =>
          stages_reads (onlyReads_recordsPartial s _ q) fun _ => .done _)
    | createRecord multipart =>
        refine stages_protect (stages_extracted fun parts hparts => stages_write ?_)
        simp [Request.write?, hparts]
    | newForm => exact stages_protect (.done _)
    | editForm id =>
        refine stages_protect (stages_reads (onlyReads_editForm s id _) fun r => ?_)
        cases r <;> exact .done _
    | updateRecord id multipart =>
        refine stages_protect (stages_extracted fun parts hparts => stages_write ?_)
        simp [Request.write?, hparts]
    | deleteRecord id => exact stages_protect (stages_write rfl)
    | copyRecord id =>
        exact stages_protect (stages_reads (onlyReads_copyRecord s id) fun _ => .done _)
    | deleteAttachment recordId attachmentId => exact stages_protect (stages_write rfl)
    | downloadAttachment id inline =>
        exact stages_protect (stages_extracted fun _ _ => stages_download _ _ _ _)
    | events => exact stages_protect (.ask rfl fun _ => .done _)

theorem World.server_answer_of_silent {e : Env} {w w' : World} {op : Call} {r : Reply op}
    (h : w.answer e op = some (r, w')) (hsilent : op.silent = true) : w'.server = w.server := by
  cases op with
  | auth c =>
      simp only [World.answer] at h
      split at h <;> cases h
      rfl
  | store c =>
      simp only [World.answer] at h
      split at h
      · cases h
      · rename_i r₀ server hans
        cases h
        rcases Server.answer_eq_some hans with ⟨hstore, happ⟩
        obtain rfl : server = w.server := by
          cases server
          cases hw : w.server
          rw [hw] at hstore happ
          exact congr (congrArg Server.mk happ) (Store.answer_of_isRead hsilent hstore)
        rfl
  | openFile _ | subscribe =>
      cases h
      rfl

theorem World.app_answer {e : Env} {w w' : World} {op : Call} {r : Reply op}
    (h : w.answer e op = some (r, w')) : w'.server.app = w.server.app := by
  cases op with
  | store c => exact (Server.answer_eq_some (World.answer_store h)).2
  | _ => rw [World.server_answer_of_silent h rfl]

instance : Nonempty Aardbin.Env := ⟨{}⟩

def projection : Projection app Aardbin.server storeCalls where
  state := World.server
  env := Env.store
  boot := id
  silent := fun op => op.silent = true
  enters := fun req r => req.write? = some r
  state_silent := World.server_answer_of_silent
  answer := World.answer_store
  reboot := fun _ _ => rfl
  handler := by
    intro e s c r s' h
    exact funext fun req => congrArg (handle · req) (Server.answer_eq_some h).2
  staged := fun w req => stages_route w.server.app w.pages req

instance : DecidablePred projection.silent := fun op =>
  inferInstanceAs (Decidable (op.silent = true))

/-- The calls that are not silent are the same in both histories. -/
def SameWrites (tr : Log) (tr₀ : Aardbin.Log) : Prop :=
  List.Forall₂ (fun x y => projection.Shows x.2 y.2)
    (asked (fun op => ¬ projection.silent op) tr)
    (asked (fun c => ¬ projection.silent (storeCalls.op c)) tr₀)

/-- Every run of the process is a run of the server: the requests that come to it are those that
write, each makes the same calls to the store in both, and both end with the same store. -/
theorem app_refines_server {w₀ : World} {tr : Log} {c : Pool Reply World Answer}
    (h : app.Run (fun _ _ _ => True) w₀ tr c) :
    ∃ tr₀ c₀, Aardbin.server.Run (fun _ _ _ => True) w₀.server tr₀ c₀ ∧
      c₀.shared = c.shared.server ∧ (c.Quiet → c₀.Quiet) ∧
      SameWrites tr tr₀ ∧ ∀ j r, .start j r ∈ tr₀ → ∃ i req, .start i req ∈ tr ∧
        req.write? = some r ∧ SameWrites (byThread i tr) (byThread j tr₀) := by
  rcases projection.run (.free _ _) h with ⟨tr₀, c₀, hsees, -⟩
  exact ⟨tr₀, c₀, hsees.run, hsees.shared, hsees.quiet, hsees.changes, hsees.threads⟩

/-! ## A concrete run -/

/-- A new process with `Vendor.plain`. -/
def World.plain : World where
  server := { app := .plain, store := .empty }
  auth := { limiter := .new, clock := 0 }
  pages := { form := fun _ _ => none }

/-- The headers of a client that has the access key. -/
def keyHeaders : Headers where
  get := fun name =>
    if name = "authorization" then some (some "Bearer open sesame, please") else none

/-- Request `i` takes one step in each of the given environments. -/
def stepsOf (i : ℕ) (envs : List Env) : List (Move Env Boot Request) :=
  envs.map fun e => .step i e

/-- A record is created with the access key, while another client lists the records. -/
theorem app_refines_server_run : ∃ tr c,
    app.Run (fun _ _ _ => True) World.plain tr c ∧ c.Quiet ∧
      c.shared.server.store.db.recordIds = ["r1"] ∧
      ∃ tr₀ c₀, Aardbin.server.Run (fun _ _ _ => True) World.plain.server tr₀ c₀ ∧
        c₀.shared = c.shared.server ∧ (c.Quiet → c₀.Quiet) ∧
        SameWrites tr tr₀ ∧ ∀ j r, .start j r ∈ tr₀ → ∃ i req, .start i req ∈ tr ∧
          req.write? = some r ∧ SameWrites (byThread i tr) (byThread j tr₀) := by
  have hplay : ∃ tr c, app.Run (fun _ _ _ => True) World.plain tr c ∧ c.quietBelow = true ∧
      c.shared.server.store.db.recordIds = ["r1"] := by
    refine Service.exists_run
      (.start { endpoint := .apiCreateRecord (some (form "a" "b" [[1, 2, 3]]))
                headers := keyHeaders, addr := some (.v4 1) } ::
        stepsOf 0 [{}, {}, { store := { uuid := "f1" } }, {}] ++
        .start { endpoint := .apiListRecords (some { page := none, pageSize := none })
                 headers := keyHeaders, addr := some (.v4 1) } ::
        stepsOf 1 [{}, {}, {}, {}, {}] ++
        stepsOf 0 [{}, { store := { uuid := "r1" } }, {}, {}, {}, {}, {}, {}]) ?_
    decide
  rcases hplay with ⟨tr, c, hrun, hquiet, hids⟩
  exact ⟨tr, c, hrun, hrun.quiet hquiet, hids, app_refines_server hrun⟩

end Http
end Aardbin
