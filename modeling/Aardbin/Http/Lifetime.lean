import Aardbin.Bin.Frame
import Aardbin.Http.Refinement

/-!
# Lifetimes of the whole process

Requests of every route one at a time, with restarts between them.  What the bin's specification
says of the six requests that write is carried over to the routes, and three of the API's routes
are told what their answers say of the bin.
-/

namespace Aardbin
namespace Http

open Effect Rust

/-! ## Phases -/

/-- Where the call is `remove_file`, it succeeds. -/
def Clears (x : Asked Reply Env) : Prop :=
  match x.op with
  | .store c => Removes x.env.store c
  | _ => True

instance : DecidablePred Clears
  | ⟨e, .store c, _⟩ => inferInstanceAs (Decidable (Removes e.store c))
  | ⟨_, .auth _, _⟩ => inferInstanceAs (Decidable True)
  | ⟨_, .openFile _, _⟩ => inferInstanceAs (Decidable True)
  | ⟨_, .subscribe, _⟩ => inferInstanceAs (Decidable True)

/-- `remove_file` succeeds, and a restart keeps the key. -/
def Admits (key : CryptoKey) : Phase Reply Env Boot Request Answer → Prop
  | .turn t => ∀ x ∈ t.log, Clears x
  | .boot b => b.cfg.cryptoKey = key

instance (key : CryptoKey) : DecidablePred (Admits key)
  | .turn t => inferInstanceAs (Decidable (∀ x ∈ t.log, Clears x))
  | .boot b => inferInstanceAs (Decidable (Aardbin.Admits key (.boot b)))

/-- The phase is no request that is addressed to the record `id`. -/
def Spares (id : String) : Phase Reply Env Boot Request Answer → Prop
  | .turn t => ∀ r ∈ t.req.write?, r.target? ≠ some id
  | .boot _ => True

instance (id : String) : DecidablePred (Spares id)
  | .turn t => inferInstanceAs (Decidable (∀ r ∈ t.req.write?, r.target? ≠ some id))
  | .boot _ => inferInstanceAs (Decidable True)

/-! ## The bin of the process -/

abbrev World.bin (c : Crypto) (w : World) : Bin :=
  w.server.store.bin c

/-- The process works under the key of `c`, and nothing is missing in its store. -/
structure World.Ready (c : Crypto) (w : World) : Prop where
  crypto : w.server.app.crypto = c
  sound : Sound c w.server.store

/-- A new installation. -/
def World.fresh (app : AppState) (auth : Auth.World) (pages : Pages) : World where
  server := { app, store := .empty }
  auth := auth
  pages := pages

section Runs

variable {c : Crypto} {w w' : World} {log : List (Asked Reply Env)} {ans : Answer}

theorem World.Ready.fresh (app : AppState) (auth : Auth.World) (pages : Pages) :
    (World.fresh app auth pages).Ready app.crypto :=
  ⟨rfl, .empty _⟩

theorem World.Ready.of_server (h : w.Ready c) (hserver : w'.server = w.server) : w'.Ready c :=
  ⟨hserver ▸ h.crypto, hserver ▸ h.sound⟩

theorem tame_of_clears {log₀ : List (Asked Aardbin.Reply Aardbin.Env)}
    (hclears : ∀ x ∈ log, Clears x) (hlog : ∀ y ∈ log₀, ∃ x ∈ log, projection.Shows x y) :
    ∀ y ∈ log₀, Tame (∀ x ∈ log, x.env.store.fault = false) y.env y.op := by
  intro y hy
  rcases hlog y hy with ⟨x, hx, hshows⟩
  cases hshows with
  | mk e o r => exact ⟨hclears _ hx, fun hcalm => hcalm _ hx⟩

/-- What a request that writes does to the bin, once it has come to its handler. -/
theorem World.Ready.handle (hundoes : c.Undoes) (h : w.Ready c) {r : Aardbin.Request}
    {resp : Response} {log₀ : List (Asked Aardbin.Reply Aardbin.Env)}
    (hrun : Runs Server.answer w.server (handle w.server.app r) log₀ w'.server resp)
    (hclears : ∀ x ∈ log, Clears x) (hlog : ∀ y ∈ log₀, ∃ x ∈ log, projection.Shows x y) :
    w'.Ready c ∧ Bin.Step w.server.app (∀ x ∈ log, x.env.store.fault = false) (w.bin c) r resp
      (w'.bin c) := by
  rcases h with ⟨rfl, hsound⟩
  rcases Server.runs_store hrun with ⟨hstore, happ⟩
  rcases hstore.of_wpWhere (tame_of_clears hclears hlog) (wp_handle_bin hundoes hsound r) with
    ⟨hsound', hstep⟩
  exact ⟨⟨by rw [happ], hsound'⟩, hstep⟩

/-- A request leaves the bin as it was, or it writes as the specification allows. -/
theorem World.Ready.turn (hundoes : c.Undoes) (h : w.Ready c) {req : Request}
    (hrun : Runs World.answer w (route w.server.app w.pages req) log w' ans)
    (hclears : ∀ x ∈ log, Clears x) : w'.Ready c ∧ (w'.bin c = w.bin c ∨
      ∃ r resp, req.write? = some r ∧ Bin.Step w.server.app (∀ x ∈ log, x.env.store.fault = false)
        (w.bin c) r resp (w'.bin c)) := by
  rcases projection.runs_staged (stages_route w.server.app w.pages req) hrun with
    hsame | ⟨r, log₀, resp, hwrite, hserver, hlog⟩
  · have hsame' : w'.server = w.server := hsame
    exact ⟨h.of_server hsame', .inl (by rw [World.bin, hsame'])⟩
  · rcases h.handle hundoes hserver hclears hlog with ⟨hready, hstep⟩
    exact ⟨hready, .inr ⟨r, resp, hwrite, hstep⟩⟩

theorem World.Ready.reboot (h : w.Ready c) {b : Boot} (hkey : b.cfg.cryptoKey = c.key) :
    (app.reboot b w).Ready c ∧ (app.reboot b w).bin c = w.bin c := by
  rcases h with ⟨rfl, hsound⟩
  refine ⟨⟨?_, hsound.congr rfl fun _ _ => rfl⟩, rfl⟩
  simp only [app, Server.reboot, AppState.crypto, hkey]

theorem World.Ready.of_lifetime (hundoes : c.Undoes) (h : w.Ready c)
    {ps : List (Phase Reply Env Boot Request Answer)} (hlife : app.Lifetime w ps w')
    (hadmits : ∀ p ∈ ps, Admits c.key p) : w'.Ready c := by
  refine hlife.keeps (I := World.Ready c) hadmits h ?_ ?_
  · exact fun w₁ w₂ t hclears h₁ hrun => (h₁.turn hundoes hrun hclears).1
  · exact fun w₁ b hkey h₁ => (h₁.reboot hkey).1

/-- A record stays as it is as long as no request is addressed to it. -/
theorem World.Ready.sameAt (hundoes : c.Undoes) (h : w.Ready c) {id : String}
    (hid : (w.bin c).records id ≠ none) {ps : List (Phase Reply Env Boot Request Answer)}
    (hlife : app.Lifetime w ps w') (hadmits : ∀ p ∈ ps, Admits c.key p)
    (hspares : ∀ p ∈ ps, Spares id p) : w'.Ready c ∧ Bin.SameAt id (w.bin c) (w'.bin c) := by
  have hgood : ∀ p ∈ ps, Admits c.key p ∧ Spares id p := fun p hp => ⟨hadmits p hp, hspares p hp⟩
  refine hlife.keeps (I := fun w' => w'.Ready c ∧ Bin.SameAt id (w.bin c) (w'.bin c)) hgood
    ⟨h, .refl _⟩ ?_ ?_
  · rintro w₁ w₂ t ⟨hclears, hspare⟩ ⟨h₁, hsame₁⟩ hrun
    rcases h₁.turn hundoes hrun hclears with ⟨h₂, hbin | ⟨r, resp, hwrite, hstep⟩⟩
    · exact ⟨h₂, hbin ▸ hsame₁⟩
    · have hid₁ : (w₁.bin c).records id ≠ none := hsame₁.records ▸ hid
      exact ⟨h₂, hsame₁.trans (hstep.sameAt hid₁ (hspare r hwrite))⟩
  · rintro w₁ b ⟨hkey, -⟩ ⟨h₁, hsame₁⟩
    rcases h₁.reboot hkey with ⟨h₂, hbin⟩
    exact ⟨h₂, hbin ▸ hsame₁⟩

/-! ## Routes of the API -/

/-- A file that is answered is that of the bin, also where calls can fail. -/
theorem apiDownload_ok (hsound : Sound c w.server.store) {id : String} {inline : Option String}
    {d : Download}
    (hrun : Runs World.answer w (apiDownloadAttachment id inline) log w' (.ok d)) :
    ∃ f, (w.bin c).files id = some f ∧ d = download (Bin.row (id, f)) inline f.bytes := by
  have h : wp (answering World.answer) (apiDownloadAttachment id inline) (fun r _ => ∀ d,
      r = .ok d → ∃ f, (w.bin c).files id = some f ∧
        d = download (Bin.row (id, f)) inline f.bytes) w := by
    simp only [apiDownloadAttachment, downloadWith, wp_bind, wp_perform]
    refine ⟨trivial, ?_⟩
    rintro r w₁ ⟨e, hans⟩
    rcases r with err | _ | row
    · rintro d ⟨⟩
    · rintro d ⟨⟩
    · have hstore := (Server.answer_eq_some (World.answer_store hans)).1
      rcases Store.answer_db_ok hstore with ⟨db, -, hexec, hsame⟩
      obtain ⟨hrow, rfl⟩ := Prod.mk.inj (Except.ok.inj hexec)
      rcases Db.getAttachment_eq_some.1 hrow with ⟨hmem, rfl⟩
      rcases hsound.holds row hmem with ⟨bytes, hbytes, -⟩
      simp only [wp_bind, wp_perform]
      refine ⟨trivial, ?_⟩
      rintro r w₂ ⟨e₂, hans₂⟩
      obtain ⟨rfl, -⟩ := Prod.mk.inj (Option.some.inj hans₂)
      cases hopen : w₁.openFile e₂ row.id with
      | error err => rintro d ⟨⟩
      | ok body =>
          have hbody : body = bytes := by
            simp only [World.openFile, hsame, hbytes] at hopen
            split_ifs at hopen
            exact (Except.ok.inj hopen).symm
          rintro d ⟨⟩
          refine ⟨row.attachment bytes, files_bin.2 ⟨row, hmem, rfl, bytes, hbytes, rfl⟩, ?_⟩
          have hrow' := row_file hsound hmem
          simp only [file, hbytes, Option.getD_some] at hrow'
          rw [hbody, hrow']
          rfl
  exact hrun.of_wp h d rfl

theorem uses_fromRequestParts (s : AppState) (addr : Option IpAddr) (headers : HeaderMap) :
    Uses (fun _ => True) (fun r => ∀ resp, r = .error resp → ¬ resp.Success)
      (Auth.fromRequestParts s addr headers) := by
  have hrefused : ∀ {resp : Response}, resp.status.isSuccess = false →
      ∀ resp', (.error resp : Except Response Unit) = .error resp' → ¬ resp'.Success := by
    rintro resp hstatus _ ⟨⟩
    simp [Response.Success, hstatus]
  cases addr with
  | none => exact .pure (hrefused rfl)
  | some ip =>
      refine Uses.bind (.perform trivial fun _ => trivial) fun r _ => ?_
      cases r with
      | error remaining => exact .pure (hrefused rfl)
      | ok _ =>
          cases headers "authorization" with
          | none => exact .pure (hrefused rfl)
          | some authHeader =>
              dsimp only
              cases stripPrefix authHeader "Bearer " with
              | none => exact .pure (hrefused rfl)
              | some token =>
                  refine Uses.bind (.perform trivial fun _ => trivial) fun right _ => ?_
                  cases right with
                  | true =>
                      refine .pure fun resp hresp => ?_
                      cases hresp
                  | false =>
                      exact Uses.bind (.perform trivial fun _ => trivial) fun _ _ =>
                        .pure (hrefused rfl)

/-- The answer does not have the status of an error. -/
def Answer.Success : Answer → Prop
  | .response r => r.Success
  | .forbidden _ | .refused => False
  | _ => True

/-- A request to the API is refused, or comes to its handler with the server as it was. -/
theorem runs_withApiAuth {s : AppState} {addr : Option IpAddr} {headers : HeaderMap}
    {handler : Program Reply Answer}
    (hrun : Runs World.answer w (withApiAuth s addr headers handler) log w' ans)
    (hsuccess : ans.Success) : ∃ log₁ w₁, w₁.server = w.server ∧ (∀ x ∈ log₁, x ∈ log) ∧
      Runs World.answer w₁ handler log₁ w' ans := by
  rcases hrun.of_bind with ⟨log₁, log₂, w₁, r, rfl, hauth, hrest⟩
  have hresult : ∀ resp, r = .error resp → ¬ resp.Success := by
    have huses : Uses (fun _ => True) (fun r => ∀ resp, r = .error resp → ¬ resp.Success)
        ((Auth.fromRequestParts s addr headers).embed authCalls) :=
      (uses_fromRequestParts s addr headers).embed fun _ _ => trivial
    exact hauth.of_uses huses
  have hserver : w₁.server = w.server := by
    refine hauth.of_wp (Q := fun _ w₁ => w₁.server = w.server) ?_
    refine wp_keeps (fun w₁ => w₁.server = w.server) (fun _ _ _ _ => trivial) ?_
      (uses_embed (Auth.fromRequestParts s addr headers)) rfl fun _ _ _ h => h
    rintro w₁ _ r w₂ hsame ⟨o, rfl⟩ ⟨e, hans⟩
    exact (World.server_answer_of_silent hans rfl).trans hsame
  cases r with
  | error resp =>
      obtain ⟨-, -, rfl⟩ := hrest.of_done
      exact absurd hsuccess (hresult resp rfl)
  | ok _ => exact ⟨log₂, w₁, hserver, fun x hx => List.mem_append_right _ hx, hrest⟩

/-- A request of the API that succeeds has been handled, with the server as it was. -/
theorem runs_handler_of_route {s : AppState} {pages : Pages} {req : Request}
    {handler : Program Reply Answer}
    (hserve : serve s pages req.addr req.headers.readable req.endpoint =
      withApiAuth s req.addr req.headers.readable handler)
    (hrun : Runs World.answer w (route s pages req) log w' ans) (hsuccess : ans.Success) :
    ∃ log₁ w₁, w₁.server = w.server ∧ (∀ x ∈ log₁, x ∈ log) ∧
      Runs World.answer w₁ handler log₁ w' ans := by
  unfold route at hrun
  split at hrun
  · obtain ⟨-, -, rfl⟩ := hrun.of_done
    exact hsuccess.elim
  · rw [hserve] at hrun
    exact runs_withApiAuth hrun hsuccess

/-- A record that was created through the API, with its files. -/
theorem World.Ready.created (hundoes : c.Undoes) (h : w.Ready c) {headers : Headers}
    {addr : Option IpAddr} {parts : Multipart} {resp : Response}
    (hrun : Runs World.answer w (route w.server.app w.pages
      { endpoint := .apiCreateRecord (some parts), headers, addr }) log w' (.response resp))
    (hsuccess : resp.Success) (hclears : ∀ x ∈ log, Clears x) :
    w'.Ready c ∧ ∃ id ts us, resp = apiCreated id ∧ (w.bin c).records id = none ∧
      Bin.Uploads w.server.app parts (w.bin c) id ts us ∧
      w'.bin c = ((w.bin c).setRecord id (.new w.server.app parts ts)).addFiles us := by
  rcases runs_handler_of_route rfl hrun hsuccess with ⟨log₁, w₁, hserver, hlog₁, hhandler⟩
  rcases Runs.of_bind hhandler with ⟨log₂, log₃, w₂, resp', rfl, hhandle, hdone⟩
  obtain ⟨-, rfl, heq⟩ := hdone.of_done
  obtain rfl : resp = resp' := Answer.response.inj heq
  rcases projection.runs_embed hhandle with ⟨log₀, hserved, hlog₀⟩
  have hlog : ∀ y ∈ log₀, ∃ x ∈ log, projection.Shows x y := by
    intro y hy
    rcases hlog₀ y hy with ⟨x, hx, hxy⟩
    exact ⟨x, hlog₁ x (List.mem_append_left _ hx), hxy⟩
  have hstart : projection.state w₁ = w.server := hserver
  rw [hstart] at hserved
  rcases h.handle hundoes hserved hclears hlog with ⟨h₂, hstep⟩
  refine ⟨h₂, ?_⟩
  have hcreates : Bin.Creates w.server.app (∀ x ∈ log, x.env.store.fault = false)
      headers.readable parts (w.bin c) (jsonError .internalServerError "internal error") apiCreated
      resp (w'.bin c) := hstep
  generalize hb : w'.bin c = b at hcreates
  cases hcreates with
  | refused _ hfailed => exact absurd hsuccess hfailed
  | @stored id ts us _ hnone hups => exact ⟨id, ts, us, rfl, hnone, hups, rfl⟩
  | torn => exact absurd hsuccess (by decide)

/-- A record that the API answers is that of the bin. -/
theorem World.Ready.record (h : w.Ready c) {headers : Headers} {addr : Option IpAddr}
    {id : String} {record : ApiRecord} (hrun : Runs World.answer w (route w.server.app w.pages
      { endpoint := .apiGetRecord id, headers, addr }) log w' (.record record)) :
    ∃ r fs, (w.bin c).records id = some r ∧ (w.bin c).Lists id fs ∧
      record = Bin.apiRecord id r fs := by
  rcases runs_handler_of_route rfl hrun trivial with ⟨log₁, w₁, hserver, -, hhandler⟩
  rcases Runs.of_bind hhandler with ⟨log₂, log₃, w₂, r, rfl, hget, hdone⟩
  rcases projection.runs_embed hget with ⟨log₀, hserved, -⟩
  cases r with
  | error resp =>
      obtain ⟨-, -, heq⟩ := hdone.of_done
      cases heq
  | ok record' =>
      obtain ⟨-, -, heq⟩ := hdone.of_done
      obtain rfl : record = record' := Answer.record.inj heq
      rcases h with ⟨rfl, hsound⟩
      have hstart : projection.state w₁ = w.server := hserver
      rw [hstart] at hserved
      exact apiGetRecord_ok hsound (Server.runs_store hserved).1

theorem uses_apiDownload (id : String) (inline : Option String) : Uses (fun _ => True)
    (fun r => ∀ resp, r = .error resp → ¬ resp.Success) (apiDownloadAttachment id inline) := by
  have hrefused : ∀ {status : StatusCode} {msg : String}, status.isSuccess = false →
      ∀ resp, (.error (jsonError status msg) : Except Response Download) = .error resp →
        ¬ resp.Success := by
    rintro status msg hstatus _ ⟨⟩
    simp [Response.Success, jsonError, hstatus]
  refine Uses.bind (.perform trivial fun _ => trivial) fun r _ => ?_
  rcases r with err | _ | row
  · exact .pure (hrefused rfl)
  · exact .pure (hrefused rfl)
  · refine Uses.bind (.perform trivial fun _ => trivial) fun r _ => ?_
    cases r with
    | error err => exact .pure (hrefused rfl)
    | ok body =>
        refine .pure fun resp hresp => ?_
        cases hresp

/-- A file that the API answers is that of the bin. -/
theorem World.Ready.file (h : w.Ready c) {headers : Headers} {addr : Option IpAddr}
    {id : String} {inline : Option String} (hrun : Runs World.answer w (route w.server.app w.pages
      { endpoint := .apiDownloadAttachment id (some inline), headers, addr }) log w' ans)
    (hsuccess : ans.Success) : ∃ f, (w.bin c).files id = some f ∧
      ans = .file (download (Bin.row (id, f)) inline f.bytes) := by
  rcases runs_handler_of_route rfl hrun hsuccess with ⟨log₁, w₁, hserver, -, hhandler⟩
  rcases Runs.of_bind hhandler with ⟨log₂, log₃, w₂, r, rfl, hget, hdone⟩
  obtain ⟨-, -, rfl⟩ := hdone.of_done
  have hsound₁ : Sound c w₁.server.store := hserver ▸ h.sound
  cases r with
  | error resp => exact absurd hsuccess (hget.of_uses (uses_apiDownload id inline) resp rfl)
  | ok d =>
      rcases apiDownload_ok hsound₁ hget with ⟨f, hf, rfl⟩
      rw [World.bin, ← hserver]
      exact ⟨f, hf, rfl⟩

end Runs

end Http
end Aardbin
