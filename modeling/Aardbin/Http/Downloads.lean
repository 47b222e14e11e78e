import Aardbin.Custody.Provenance
import Aardbin.Effect.Transcript
import Aardbin.Http.Refinement

/-!
# Downloads

A download looks up the row of its attachment and then opens the file, and uploads and deletions
may come in between.  What it sends is nevertheless the content that was uploaded under its id, and
no name of an attachment's file ever comes from a request.
-/

namespace Aardbin
namespace Http

open Effect

/-! ## The protocol of a download -/

abbrev Asks : Type := List (Asked Reply Env)

/-- The database has answered with the row of the attachment. -/
def Found (log : Asks) (id : String) (row : AttachmentRow) : Prop :=
  ∃ env, ⟨env, .store (.db (.getAttachment id)), .ok (some row)⟩ ∈ log

/-- A file is opened only after its row was found. -/
def opening : Protocol Reply Asks where
  pre := fun log op => ∀ id, op = .openFile id → ∃ row, Found log id row
  next := fun log op r log' => ∃ env, log' = log ++ [⟨env, op, r⟩]

/-- The row and the file that the download was made of. -/
def Fetched (log : Asks) (id : String) (inline : Option String) (d : Download) : Prop :=
  ∃ row env, Found log id row ∧ ⟨env, .openFile id, .ok d.body⟩ ∈ log ∧
    d = download row inline d.body

def Request.download? (req : Request) : Option (String × Option String) :=
  match req.endpoint with
  | .apiDownloadAttachment id (some inline) | .downloadAttachment id (some inline) =>
      some (id, inline)
  | _ => none

/-- A file is sent by downloads only, and they send what they have fetched. -/
def DownloadPost (req : Request) (a : Answer) (log : Asks) : Prop :=
  ∀ d, a = .file d → ∃ id inline, req.download? = some (id, inline) ∧ Fetched log id inline d

section Opening

variable {α : Type} {log : Asks} {s : AppState} {headers : HeaderMap} {req : Request}

theorem wp_opening_of_uses {R : α → Prop} {p : Program Reply α}
    (h : Uses (fun op => ∀ id, op ≠ .openFile id) R p) : wp opening p (fun a _ => R a) log :=
  wp_keeps (fun _ => True) (fun _ _ _ hop id heq => absurd heq (hop id))
    (fun _ _ _ _ _ _ _ => trivial) h trivial fun _ _ ha _ => ha

theorem uses_embed_auth (p : Program Auth.Reply α) :
    Uses (fun op => ∀ id, op ≠ .openFile id) (fun _ => True) (p.embed authCalls) := by
  refine (uses_embed p).mono ?_ fun _ _ => trivial
  rintro _ ⟨c, rfl⟩ id
  simp [authCalls]

theorem uses_embed_store (p : Program Aardbin.Reply α) :
    Uses (fun op => ∀ id, op ≠ .openFile id) (fun _ => True) (p.embed storeCalls) := by
  refine (uses_embed p).mono ?_ fun _ _ => trivial
  rintro _ ⟨c, rfl⟩ id
  simp [storeCalls]

theorem post_of_not_file {a : Answer} (h : ∀ d, a ≠ .file d) : DownloadPost req a log :=
  fun d hd => absurd hd (h d)

theorem wp_opening_protect {handler : Program Reply Answer}
    (h : ∀ log, wp opening handler (DownloadPost req) log) :
    wp opening (protect s headers handler) (DownloadPost req) log := by
  unfold protect
  rw [wp_bind]
  refine wp_mono (wp_opening_of_uses (uses_embed_auth _)) fun r log' _ => ?_
  cases r with
  | error resp => exact post_of_not_file (by simp)
  | ok _ => exact h log'

theorem wp_opening_withApiAuth {addr : Option IpAddr} {handler : Program Reply Answer}
    (h : ∀ log, wp opening handler (DownloadPost req) log) :
    wp opening (withApiAuth s addr headers handler) (DownloadPost req) log := by
  unfold withApiAuth
  rw [wp_bind]
  refine wp_mono (wp_opening_of_uses (uses_embed_auth _)) fun r log' _ => ?_
  cases r with
  | error resp => exact post_of_not_file (by simp)
  | ok _ => exact h log'

theorem wp_opening_extracted {x : Option α} {handler : α → Program Reply Answer}
    (h : ∀ a, x = some a → wp opening (handler a) (DownloadPost req) log) :
    wp opening (extracted x handler) (DownloadPost req) log := by
  cases x with
  | none => exact post_of_not_file (by simp)
  | some a => exact h a rfl

/-- A program over the store, and an answer that is not a file. -/
theorem wp_opening_store {p : Program Aardbin.Reply α} {f : α → Program Reply Answer}
    (h : ∀ a, ∃ b, f a = .done b ∧ ∀ d, b ≠ .file d) :
    wp opening (p.embed storeCalls >>= f) (DownloadPost req) log := by
  rw [wp_bind]
  refine wp_mono (wp_opening_of_uses (uses_embed_store p)) fun a log' _ => ?_
  rcases h a with ⟨b, hb, hfile⟩
  rw [hb]
  exact post_of_not_file hfile

theorem wp_opening_responding (p : Program Aardbin.Reply Response) :
    wp opening (responding p) (DownloadPost req) log :=
  wp_opening_store fun r => ⟨.response r, rfl, by simp⟩

theorem wp_opening_download {id : String} {inline : Option String} {failed : Response}
    {missing : String → Response} (hreq : req.download? = some (id, inline)) :
    wp opening (downloadWith id inline failed missing >>= fun d => return downloaded d)
      (DownloadPost req) log := by
  simp only [downloadWith, wp_bind, wp_perform]
  refine ⟨fun id' heq => (by cases heq), ?_⟩
  rintro r _ ⟨env, rfl⟩
  rcases r with err | _ | row
  · exact post_of_not_file (by simp [downloaded])
  · exact post_of_not_file (by simp [downloaded])
  · have hfound : Found (log ++ [⟨env, .store (.db (.getAttachment id)), .ok (some row)⟩]) id row :=
      ⟨env, by simp⟩
    simp only [wp_bind, wp_perform]
    refine ⟨?_, ?_⟩
    · rintro id' heq
      cases heq
      exact ⟨row, hfound⟩
    · rintro body _ ⟨env', rfl⟩
      cases body with
      | error err => exact post_of_not_file (by simp [downloaded])
      | ok body =>
          intro d hd
          cases hd
          rcases hfound with ⟨env, hmem⟩
          exact ⟨id, inline, hreq, row, env', ⟨env, List.mem_append_left _ hmem⟩, by simp [download],
            rfl⟩

theorem wp_opening_route (pages : Pages) :
    wp opening (route s pages req) (DownloadPost req) log := by
  unfold route
  split
  · exact post_of_not_file (by simp)
  · rcases req with ⟨endpoint, headers, addr⟩
    cases endpoint with
    | healthz | asset _ | postLogout | unrouted _ => exact post_of_not_file (by simp)
    | getLogin error => exact wp_opening_extracted fun _ _ => post_of_not_file (by simp)
    | postLang lang => exact wp_opening_extracted fun _ _ => post_of_not_file (by simp)
    | postLogin form =>
        simp only [serve]
        split
        · rw [wp_bind]
          exact wp_mono (wp_opening_of_uses (uses_embed_auth _)) fun _ _ _ =>
            post_of_not_file (by simp)
        · exact post_of_not_file (by simp)
    | apiListRecords q =>
        exact wp_opening_withApiAuth fun _ => wp_opening_extracted fun _ _ =>
          wp_opening_responding _
    | apiCreateRecord multipart =>
        exact wp_opening_withApiAuth fun _ => wp_opening_extracted fun _ _ =>
          wp_opening_responding _
    | apiGetRecord id =>
        refine wp_opening_withApiAuth fun _ => wp_opening_store fun r => ?_
        cases r <;> exact ⟨_, rfl, by simp⟩
    | apiDeleteRecord id => exact wp_opening_withApiAuth fun _ => wp_opening_responding _
    | apiDownloadAttachment id inline =>
        refine wp_opening_withApiAuth fun _ => wp_opening_extracted fun inline' hinline => ?_
        exact wp_opening_download (by simp [Request.download?, hinline])
    | recordsPartial _ | createRecord _ | updateRecord _ _ =>
        exact wp_opening_protect fun _ => wp_opening_extracted fun _ _ => wp_opening_responding _
    | index | deleteRecord _ | copyRecord _ | deleteAttachment _ _ =>
        exact wp_opening_protect fun _ => wp_opening_responding _
    | newForm => exact wp_opening_protect fun _ => post_of_not_file (by simp)
    | editForm id =>
        refine wp_opening_protect fun _ => wp_opening_store fun r => ?_
        cases r <;> exact ⟨_, rfl, by simp⟩
    | downloadAttachment id inline =>
        refine wp_opening_protect fun _ => wp_opening_extracted fun inline' hinline => ?_
        exact wp_opening_download (by simp [Request.download?, hinline])
    | events =>
        refine wp_opening_protect fun _ => ⟨fun id heq => (by cases heq), fun _ _ _ => ?_⟩
        exact post_of_not_file (by simp)

end Opening

/-! ## Requests in flight -/

/-- The calls of request `i` so far. -/
def Logged (tr : Log) (i : ℕ) (log : Asks) : Prop :=
  ∀ x ∈ log, Event.asked i x ∈ tr

/-- Request `i` has downloaded what it fetched. -/
def Served (tr : Log) (i : ℕ) (d : Download) : Prop :=
  ∃ req id inline log, .start i req ∈ tr ∧ Logged tr i log ∧ req.download? = some (id, inline) ∧
    Fetched log id inline d

theorem Logged.snoc {tr : Log} {i : ℕ} {log : Asks} (h : Logged tr i log)
    (ev : Event Reply Env Boot Request Answer) : Logged (tr ++ [ev]) i log :=
  fun x hx => List.mem_append_left _ (h x hx)

theorem Served.snoc {tr : Log} {i : ℕ} {d : Download} (h : Served tr i d)
    (ev : Event Reply Env Boot Request Answer) : Served (tr ++ [ev]) i d := by
  rcases h with ⟨req, id, inline, log, hstart, hlog, hreq, hd⟩
  exact ⟨req, id, inline, log, List.mem_append_left _ hstart, hlog.snoc ev, hreq, hd⟩

def fetching : Outline app opening where
  born := fun _ _ => []
  post := DownloadPost
  inv := fun tr _ gs => Each (Logged tr) gs ∧ ∀ i d, .finish i (.file d) ∈ tr → Served tr i d

theorem served_snoc {tr : Log} (h : ∀ i d, .finish i (.file d) ∈ tr → Served tr i d)
    {ev : Event Reply Env Boot Request Answer} (hev : ∀ i res, ev ≠ .finish i res) :
    ∀ i d, .finish i (.file d) ∈ tr ++ [ev] → Served (tr ++ [ev]) i d := by
  intro i d hmem
  rcases List.mem_append.1 hmem with hold | hnew
  · exact (h i d hold).snoc ev
  · exact absurd (List.mem_singleton.1 hnew).symm (hev i _)

theorem fetching_valid {guard : Guard Reply World Env Boot Request Answer} :
    fetching.Valid guard where
  handler := fun w req => wp_opening_route w.pages
  start := by
    rintro tr c gs i req - - - ⟨hlogged, hserved⟩
    refine ⟨hlogged.set ?_ fun j log _ _ h => h.snoc _, served_snoc hserved (by simp)⟩
    intro x hx
    cases hx
  ask := by
    rintro tr c gs i log env op r s' - - hi - - ⟨hlogged, hserved⟩
    refine ⟨log ++ [⟨env, op, r⟩], ⟨env, rfl⟩, hlogged.set ?_ fun j log _ _ h => h.snoc _,
      served_snoc hserved (by simp)⟩
    intro x hx
    rcases List.mem_append.1 hx with hold | hnew
    · exact (hlogged i log hi).snoc _ x hold
    · rw [List.mem_singleton.1 hnew]
      exact List.mem_append_right _ (List.mem_singleton_self _)
  finish := by
    rintro tr c gs i log req res - hstart hi hpost ⟨hlogged, hserved⟩
    refine ⟨hlogged.drop fun j log _ _ h => h.snoc _, fun j d hmem => ?_⟩
    rcases List.mem_append.1 hmem with hold | hnew
    · exact (hserved j d hold).snoc _
    · cases List.mem_singleton.1 hnew
      rcases hpost d rfl with ⟨id, inline, hreq, hfetched⟩
      exact ⟨req, id, inline, log, List.mem_append_left _ hstart, (hlogged i log hi).snoc _, hreq,
        hfetched⟩
  abandon := by
    rintro tr c gs i log - - ⟨hlogged, hserved⟩
    exact ⟨hlogged.drop fun j log _ _ h => h.snoc _, served_snoc hserved (by simp)⟩
  reboot := by
    rintro tr c gs b - ⟨-, hserved⟩
    exact ⟨Each.idle, served_snoc hserved (by simp)⟩

theorem fetching_empty (w : World) : fetching.inv [] w fun _ => none :=
  ⟨Each.idle, fun _ _ hmem => absurd hmem List.not_mem_nil⟩

/-! ## What the calls of a download answer -/

theorem World.getAttachment_answer {e : Env} {w w' : World} {id : String} {row : AttachmentRow}
    (h : w.answer e (.store (.db (.getAttachment id))) = some (.ok (some row), w')) :
    row ∈ w.server.store.db.attachments ∧ row.id = id := by
  have hserver : Aardbin.server.answer e.store w.server (.db (.getAttachment id)) =
      some (.ok (some row), w'.server) := projection.answer h
  rcases Store.answer_db_ok (Server.answer_eq_some hserver).1 with ⟨db, -, hexec, -⟩
  simp only [Db.exec, Db.getAttachment, Except.ok.injEq, Prod.mk.injEq] at hexec
  exact ⟨List.mem_of_find?_eq_some hexec.1, by simpa using List.find?_some hexec.1⟩

theorem World.openFile_answer {e : Env} {w w' : World} {id : String} {b : Bytes}
    (h : w.answer e (.openFile id) = some (.ok b, w')) :
    w.server.store.files.attachments id = some b := by
  simp only [World.answer, World.openFile, Option.some.injEq, Prod.mk.injEq] at h
  rcases h with ⟨hfile, -⟩
  split_ifs at hfile
  split at hfile
  · cases hfile
  · rename_i bytes hbytes
    cases hfile
    exact hbytes

/-! ## Uploads -/

/-- The id that `begin_upload` returns in this event. -/
def begun? : Event Reply Env Boot Request Answer → Option String
  | .ask _ _ (.store (.file .beginUpload)) (.ok id) => some id
  | _ => none

def begun (tr : Log) : List String :=
  tr.filterMap begun?

/-- The bytes `b` are the content of the file part for which `begin_upload` returned `id`. -/
def Uploaded (tr : Log) (id : String) (b : Bytes) : Prop :=
  ∃ i req r, .start i req ∈ tr ∧ req.write? = some r ∧
    (id, b) ∈ (begun (byThread i tr)).zip r.fileBytes

def begunCall? : ℕ × Asked Reply Env → Option String
  | (_, ⟨_, .store (.file .beginUpload), .ok id⟩) => some id
  | _ => none

def serverBegunCall? : ℕ × Asked Aardbin.Reply Aardbin.Env → Option String
  | (_, ⟨_, .file .beginUpload, .ok id⟩) => some id
  | _ => none

theorem begun_eq_asked (tr : Log) :
    begun tr = (asked (fun op => ¬ projection.silent op) tr).filterMap begunCall? := by
  rw [begun, asked, List.filterMap_filterMap]
  refine List.filterMap_congr fun ev _ => ?_
  cases ev with
  | ask i env op r =>
      by_cases hop : projection.silent op
      · -- `begin_upload` is not silent.
        have hnone : (Event.ask i env op r : Event Reply Env Boot Request Answer).asked?
            (fun op => ¬ projection.silent op) = none := by simp [Event.asked?, hop]
        rw [hnone]
        cases op with
        | store c =>
            cases c with
            | file c => cases hop
            | _ => rfl
        | _ => rfl
      · have hsome : (Event.ask i env op r : Event Reply Env Boot Request Answer).asked?
            (fun op => ¬ projection.silent op) = some (i, ⟨env, op, r⟩) := by
          simp [Event.asked?, hop]
        rw [hsome]
        cases op with
        | store c =>
            cases c with
            | file c =>
                cases c with
                | beginUpload => cases r <;> rfl
                | _ => rfl
            | _ => rfl
        | _ => rfl
  | _ => rfl

theorem serverBegun_eq_asked (tr : Aardbin.Log) : Aardbin.begun tr =
    (asked (fun c => ¬ projection.silent (storeCalls.op c)) tr).filterMap serverBegunCall? := by
  rw [Aardbin.begun, asked, List.filterMap_filterMap]
  refine List.filterMap_congr fun ev _ => ?_
  cases ev with
  | ask i env op r =>
      by_cases hop : projection.silent (storeCalls.op op)
      · have hnone : (Event.ask i env op r :
            Event Aardbin.Reply Aardbin.Env Boot Aardbin.Request Response).asked?
            (fun c => ¬ projection.silent (storeCalls.op c)) = none := by simp [Event.asked?, hop]
        rw [hnone]
        cases op with
        | file c => cases hop
        | _ => rfl
      · have hsome : (Event.ask i env op r :
            Event Aardbin.Reply Aardbin.Env Boot Aardbin.Request Response).asked?
            (fun c => ¬ projection.silent (storeCalls.op c)) = some (i, ⟨env, op, r⟩) := by
          simp [Event.asked?, hop]
        rw [hsome]
        cases op with
        | file c =>
            cases c with
            | beginUpload => cases r <;> rfl
            | _ => rfl
        | _ => rfl
  | _ => rfl

theorem begun_of_sameWrites {tr : Log} {tr₀ : Aardbin.Log} (h : SameWrites tr tr₀) :
    begun tr = Aardbin.begun tr₀ := by
  rw [begun_eq_asked, serverBegun_eq_asked]
  unfold SameWrites at h
  generalize asked (fun op => ¬ projection.silent op) tr = xs at h ⊢
  generalize asked (fun c => ¬ projection.silent (storeCalls.op c)) tr₀ = ys at h ⊢
  induction h with
  | nil => rfl
  | @cons x y xs ys hxy _ ih =>
      have hcall : begunCall? x = serverBegunCall? y := by
        rcases x with ⟨i, x⟩
        rcases y with ⟨j, y⟩
        cases hxy with
        | mk env c r =>
            cases c with
            | file c =>
                cases c with
                | beginUpload => cases r <;> rfl
                | _ => rfl
            | _ => rfl
      rw [List.filterMap_cons, List.filterMap_cons, hcall, ih]

theorem exists_of_forall₂ {α β : Type} {R : α → β → Prop} {xs : List α} {ys : List β}
    (h : List.Forall₂ R xs ys) {x : α} (hx : x ∈ xs) : ∃ y ∈ ys, R x y := by
  induction h with
  | nil => cases hx
  | @cons a b as bs hab _ ih =>
      rcases List.mem_cons.1 hx with rfl | hx
      · exact ⟨b, List.mem_cons_self, hab⟩
      · rcases ih hx with ⟨y, hy, hxy⟩
        exact ⟨y, List.mem_cons_of_mem _ hy, hxy⟩

/-- A call to the files is one of the server. -/
theorem mem_server_of_file {tr : Log} {tr₀ : Aardbin.Log} (h : SameWrites tr tr₀) {i : ℕ} {env : Env}
    {call : FileCall} {r : call.Reply} (hmem : .ask i env (.store (.file call)) r ∈ tr) :
    ∃ j env' r', .ask j env' (.file call) r' ∈ tr₀ := by
  have hasked : (i, ⟨env, .store (.file call), r⟩) ∈ asked (fun op => ¬ projection.silent op) tr :=
    List.mem_filterMap.2 ⟨_, hmem, rfl⟩
  rcases exists_of_forall₂ h hasked with ⟨⟨j, y⟩, hy, hshows⟩
  cases hshows with
  | mk env c r =>
      rcases List.mem_filterMap.1 hy with ⟨ev, hev, hask⟩
      unfold Event.asked? at hask
      split at hask
      · split_ifs at hask
        cases hask
        exact ⟨j, _, _, hev⟩
      · cases hask

theorem Uploaded.of_server {tr : Log} {tr₀ : Aardbin.Log} {id : String} {b : Bytes}
    (hthreads : ∀ j r, .start j r ∈ tr₀ → ∃ i req, .start i req ∈ tr ∧ req.write? = some r ∧
      SameWrites (byThread i tr) (byThread j tr₀)) (h : Aardbin.Uploaded tr₀ id b) :
    Uploaded tr id b := by
  rcases h with ⟨j, r, hstart, hmem⟩
  rcases hthreads j r hstart with ⟨i, req, hreq, hwrite, hsame⟩
  exact ⟨i, req, r, hreq, hwrite, by rwa [begun_of_sameWrites hsame]⟩

/-! ## Downloads are what was uploaded -/

section Runs

variable {s : AppState} {auth : Auth.World} {pages : Pages} {tr : Log}
  {c : Pool Reply World Answer}

/-- At every call the server was in a state that its own run has passed. -/
theorem server_at (h : app.Run (fun _ _ _ => True)
    { server := { app := s, store := .empty }, auth, pages } tr c) :
    ∃ tr₀ w₀, Provenance tr₀ w₀ ∧
      (∀ j r, .start j r ∈ tr₀ → ∃ i req, .start i req ∈ tr ∧ req.write? = some r ∧
        SameWrites (byThread i tr) (byThread j tr₀)) ∧
      ∀ i env op r, .ask i env op r ∈ tr → ∃ w w' : World, ∃ tr₁, w.answer env op = some (r, w') ∧
        tr₁ <+: tr₀ ∧ Listed tr₁ w.server.store ∧ Provenance tr₁ w.server.store := by
  rcases projection.run (.free _ _) h with ⟨tr₀, c₀, hsees, hearlier⟩
  refine ⟨tr₀, _, (tracing_run hsees.run).2.1, hsees.threads, fun i env op r hmem => ?_⟩
  rcases List.append_of_mem hmem with ⟨before, after, htr⟩
  rcases h.ask_at htr with ⟨c₁, k, w', hrun, -, hans⟩
  rcases hearlier before _ htr with ⟨c₁', tr₁, c₂, hrun', hsees₁, hpre⟩
  rcases tracing_run hsees₁.run with ⟨hlisted, hprov, -⟩
  rw [hsees₁.shared, Service.Steps.unique hrun' hrun] at hlisted hprov
  exact ⟨c₁.shared, w', tr₁, hans, hpre, hlisted, hprov⟩

/-- Whatever comes in between, a download sends exactly the bytes that were uploaded under its id,
with their number as its length and with the headers of the row that the database has answered to
it. -/
theorem download_intact (h : app.Run (fun _ _ _ => True)
    { server := { app := s, store := .empty }, auth, pages } tr c) {i : ℕ} {d : Download}
    (hfin : .finish i (.file d) ∈ tr) :
    ∃ req id inline row, .start i req ∈ tr ∧ req.download? = some (id, inline) ∧
      (∃ env, .ask i env (.store (.db (.getAttachment id))) (.ok (some row)) ∈ tr) ∧ row.id = id ∧
      d = download row inline d.body ∧ row.sizeBytes = d.body.length ∧ Uploaded tr id d.body := by
  rcases fetching_valid.run (fetching_empty _) h with ⟨gs, ⟨-, hserved⟩, -⟩
  rcases hserved i d hfin with ⟨req, id, inline, log, hstart, hlog, hreq, row, env', ⟨env, hget⟩,
    hopen, hd⟩
  rcases server_at h with ⟨tr₀, w₀, hprov, hthreads, hat⟩
  rcases hat _ _ _ _ (hlog _ hget) with ⟨w₁, w₁', tr₁, hans₁, ⟨more₁, rfl⟩, hlisted, -⟩
  rcases World.getAttachment_answer hans₁ with ⟨hrow, rfl⟩
  rcases hlisted row hrow with ⟨-, b, -, hsize, hup⟩
  rcases hat _ _ _ _ (hlog _ hopen) with ⟨w₂, w₂', tr₂, hans₂, ⟨more₂, heq⟩, -, hprov₂⟩
  have hup₂ : Aardbin.Uploaded (tr₁ ++ more₁) row.id d.body := by
    rw [← heq]
    exact (hprov₂.stored _ _ (World.openFile_answer hans₂)).append more₂
  -- The row and the file are of the same upload, since ids are handed out once.
  have hbody : b = d.body := hprov.functional (hup.append more₁) hup₂
  subst hbody
  exact ⟨req, row.id, inline, row, hstart, hreq, ⟨env, hlog _ hget⟩, rfl, hd, hsize,
    .of_server hthreads hup₂⟩

end Runs

def sendsFile : Event Reply Env Boot Request Answer → Bool
  | .finish _ (.file d) => d.body = [1, 2, 3]
  | _ => false

def opensFile : Event Reply Env Boot Request Answer → Bool
  | .ask 1 _ (.openFile id) _ => id = "f1"
  | _ => false

/-- A file is uploaded, and downloaded while its record is being deleted. -/
theorem downloads_while_deleting : ∃ tr c, app.Run (fun _ _ _ => True) World.plain tr c ∧
    tr.any sendsFile = true ∧ tr.any opensFile = true ∧
      c.shared.server.store.db.attachmentIds = [] := by
  refine Service.exists_run
    (.start { endpoint := .apiCreateRecord (some (form "a" "b" [[1, 2, 3]]))
              headers := keyHeaders, addr := some (.v4 1) } ::
      stepsOf 0 [{}, {}, { store := { uuid := "f1" } }, {}, {}, { store := { uuid := "r1" } }, {},
        {}, {}, {}, {}, {}] ++
      .start { endpoint := .apiDownloadAttachment "f1" (some (some "1"))
               headers := keyHeaders, addr := some (.v4 1) } ::
      stepsOf 1 [{}, {}, {}] ++
      .start { endpoint := .apiDeleteRecord "r1", headers := keyHeaders, addr := some (.v4 1) } ::
      stepsOf 2 [{}, {}, {}] ++ stepsOf 1 [{}, {}] ++ stepsOf 2 [{}, {}, {}]) ?_
  decide

theorem download_intact_run : ∃ tr c i d,
    app.Run (fun _ _ _ => True) World.plain tr c ∧ .finish i (.file d) ∈ tr ∧
      c.shared.server.store.db.attachmentIds = [] ∧
      ∃ req id inline row, .start i req ∈ tr ∧ req.download? = some (id, inline) ∧
        (∃ env, .ask i env (.store (.db (.getAttachment id))) (.ok (some row)) ∈ tr) ∧ row.id = id ∧
        d = download row inline d.body ∧ row.sizeBytes = d.body.length ∧ Uploaded tr id d.body := by
  rcases downloads_while_deleting with ⟨tr, c, hrun, hany, -, hids⟩
  rcases List.any_eq_true.1 hany with ⟨ev, hev, hsends⟩
  unfold sendsFile at hsends
  split at hsends
  · exact ⟨tr, c, _, _, hrun, hev, hids, download_intact hrun hev⟩
  · cases hsends

/-! ## No name of an attachment's file comes from a request -/

section Runs

variable {s : AppState} {auth : Auth.World} {pages : Pages} {tr : Log}
  {c : Pool Reply World Answer}

/-- The attachment file or temporary file that a call names. -/
def Call.path? : Call → Option String
  | .store (.file c) => c.path?
  | .openFile id => some id
  | _ => none

/-- The id that a call draws. -/
def Call.drawn? : (op : Call) → Reply op → Option String
  | .store c, r => c.drawn? r
  | _, _ => none

/-- The process has drawn this id itself. -/
def Drawn (tr : Log) (id : String) : Prop :=
  ∃ i env op r, .ask i env op r ∈ tr ∧ op.drawn? r = some id

theorem Drawn.mono {tr tr' : Log} {id : String} (h : Drawn tr id) (hsub : tr ⊆ tr') :
    Drawn tr' id := by
  rcases h with ⟨i, env, op, r, hmem, hid⟩
  exact ⟨i, env, op, r, hsub hmem, hid⟩

theorem World.issued_answer {e : Env} {w w' : World} {op : Call} {r : Reply op}
    (h : w.answer e op = some (r, w')) : ∀ id ∈ w'.server.store.issued,
      id ∈ w.server.store.issued ∨ op.drawn? r = some id := by
  intro id hid
  cases op with
  | store c =>
      have hserver : Aardbin.server.answer e.store w.server c = some (r, w'.server) :=
        projection.answer h
      exact issued_or_drawn (Server.answer_eq_some hserver).1 id hid
  | _ =>
      rw [World.server_answer_of_silent h rfl] at hid
      exact .inl hid

theorem issued_drawn {guard : Guard Reply World Env Boot Request Answer} {w₀ : World}
    (hempty : w₀.server.store.issued = []) (h : app.Run guard w₀ tr c) :
    ∀ id ∈ c.shared.server.store.issued, Drawn tr id := by
  induction h with
  | refl =>
      intro id hid
      simp [Pool.idle, hempty] at hid
  | @snoc tr c c' m ev _ hm _ ih =>
      have hold : ∀ id ∈ c.shared.server.store.issued, Drawn (tr ++ [ev]) id := fun id hid =>
        (ih id hid).mono (List.subset_append_left _ _)
      rcases Service.move_cases hm with ⟨req, rfl, rfl⟩ | ⟨i, a, -, rfl, rfl⟩ |
        ⟨i, env, op, k, r, s', -, hans, rfl, rfl⟩ | ⟨i, p, -, rfl, rfl⟩ | ⟨b, rfl, rfl⟩
      · exact hold
      · exact hold
      · intro id hid
        rcases World.issued_answer hans id hid with hissued | hdrawn
        · exact hold id hissued
        · exact ⟨i, env, op, r, by simp, hdrawn⟩
      · exact hold
      · exact hold

theorem drawn_of_found (h : app.Run (fun _ _ _ => True)
    { server := { app := s, store := .empty }, auth, pages } tr c) {i : ℕ} {env : Env} {id : String}
    {row : AttachmentRow}
    (hmem : .ask i env (.store (.db (.getAttachment id))) (.ok (some row)) ∈ tr) : Drawn tr id := by
  rcases List.append_of_mem hmem with ⟨before, after, htr⟩
  rcases h.ask_at htr with ⟨c₁, k, w', hrun, -, hans⟩
  rcases World.getAttachment_answer hans with ⟨hrow, rfl⟩
  rcases projection.run (.free _ _) hrun with ⟨tr₀, c₀, hsees, -⟩
  have hlisted := (tracing_run hsees.run).1
  rw [hsees.shared] at hlisted
  refine (issued_drawn rfl hrun _ (hlisted row hrow).1).mono ?_
  rw [htr]
  exact List.subset_append_left _ _

theorem drawn_of_file (h : app.Run (fun _ _ _ => True)
    { server := { app := s, store := .empty }, auth, pages } tr c) {i : ℕ} {env : Env}
    {call : FileCall} {r : call.Reply} (hmem : .ask i env (.store (.file call)) r ∈ tr) {id : String}
    (hpath : call.path? = some id) : Drawn tr id := by
  rcases projection.run (.free _ _) h with ⟨tr₀, c₀, hsees, -⟩
  have hpaths := (tracing_run hsees.run).2.2
  rcases mem_server_of_file hsees.changes hmem with ⟨j, env', r', hmem'⟩
  have hid := hpaths j env' call r' id hmem' hpath
  rw [hsees.shared] at hid
  exact issued_drawn rfl h id hid

/-- Every attachment file and temporary file that a request writes, renames, removes or opens has a
name that the process has drawn itself before, never one that a request brings along. -/
theorem path_drawn (h : app.Run (fun _ _ _ => True)
    { server := { app := s, store := .empty }, auth, pages } tr c) {before after : Log} {i : ℕ}
    {env : Env} {op : Call} {r : Reply op} (htr : tr = before ++ .ask i env op r :: after)
    {id : String} (hpath : op.path? = some id) : Drawn before id := by
  cases op with
  | auth c => cases hpath
  | subscribe => cases hpath
  | openFile id' =>
      -- The row of an opened file was found before, and a row has an issued id.
      cases hpath
      rcases fetching_valid.ask_at (fetching_empty _) h htr with
        ⟨c₁, gs, log, hrun, ⟨hlogged, -⟩, hi, hpre⟩
      rcases hpre id rfl with ⟨row, env', hget⟩
      exact drawn_of_found hrun (hlogged i log hi _ hget)
  | store call =>
      cases call with
      | file c =>
          rcases h.move_at htr with ⟨c₁, c₂, m, hrun, hm, hg⟩
          have hdrawn := drawn_of_file (hrun.snoc hm hg) (List.mem_append_right _
            (List.mem_singleton_self _)) hpath
          -- The call itself draws nothing.
          rcases hdrawn with ⟨j, env', op', r', hmem, hid⟩
          rcases List.mem_append.1 hmem with hold | hnew
          · exact ⟨j, env', op', r', hold, hid⟩
          · cases List.mem_singleton.1 hnew
            cases c with
            | beginUpload => cases hpath
            | _ => simp [Call.drawn?, Aardbin.Call.drawn?] at hid
      | _ => cases hpath

end Runs

theorem path_drawn_run : ∃ tr c before after i env op, ∃ r : Reply op,
    app.Run (fun _ _ _ => True) World.plain tr c ∧ tr = before ++ .ask i env op r :: after ∧
      ∃ id, op.path? = some id ∧ Drawn before id := by
  rcases downloads_while_deleting with ⟨tr, c, hrun, -, hany, -⟩
  rcases List.any_eq_true.1 hany with ⟨ev, hev, hopens⟩
  rcases List.append_of_mem hev with ⟨before, after, htr⟩
  unfold opensFile at hopens
  split at hopens
  · exact ⟨tr, c, before, after, _, _, _, _, hrun, htr, _, rfl, path_drawn hrun htr rfl⟩
  · cases hopens

end Http
end Aardbin
