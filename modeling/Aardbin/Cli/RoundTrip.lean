import Aardbin.Cli.Machine

/-!
# From one machine to another

What `paste` has sent from one machine, `get` prints and `download` writes on any other, whatever
the server has done for others in the meantime, as long as nobody writes to the record.
-/

namespace Aardbin
namespace Cli

open Effect Rust

/-! ## What a paste sends -/

section Paste

variable {net : Net} {lib : Lib} {w : World}

/-- The files at the given paths that have a name, with their bytes. -/
def namedFiles (lib : Lib) (disk : String → Option Bytes) (paths : List String) :
    List (String × Bytes) :=
  paths.filterMap fun path =>
    if lib.fileName path = "" then none
    else (disk path).map fun data => (lib.fileName path, data)

theorem wp_readFiles (paths : List String) (w : World) :
    wp (answering (World.answer net)) (readFiles lib paths) (fun r w' => w' = w ∧
      ∀ parts, r = .ok parts → List.Forall₂ (fun path p => ∃ data,
        w.machine.disk path = some data ∧ p = attached lib path data) paths parts) w := by
  induction paths with
  | nil =>
      refine ⟨rfl, ?_⟩
      rintro parts ⟨⟩
      exact .nil
  | cons path rest ih =>
      simp only [readFiles, wp_bind, wp_perform]
      refine ⟨trivial, ?_⟩
      rintro r w' ⟨e, hans⟩
      have hread : w' = w ∧ ∀ data, r = .ok data → w.machine.disk path = some data := by
        simp only [World.answer] at hans
        split at hans
        · cases hans
          exact ⟨rfl, by rintro _ ⟨⟩⟩
        · rename_i data hdata
          rcases World.attempt_eq_some hans with ⟨rfl, rfl⟩ | ⟨rfl, rfl⟩
          · exact ⟨rfl, by rintro _ ⟨⟩⟩
          · refine ⟨rfl, ?_⟩
            rintro _ ⟨⟩
            exact hdata
      rcases hread with ⟨rfl, hread⟩
      cases r with
      | error err => exact ⟨rfl, by rintro _ ⟨⟩⟩
      | ok data =>
          simp only [wp_bind]
          refine wp_mono ih ?_
          rintro r w' ⟨rfl, hparts⟩
          cases r with
          | error err => exact ⟨rfl, by rintro _ ⟨⟩⟩
          | ok parts =>
              refine ⟨rfl, ?_⟩
              rintro _ ⟨⟩
              exact .cons ⟨data, hread data rfl, rfl⟩ (hparts parts rfl)

theorem wp_bodyContent (content : Option String) (w : World) :
    wp (answering (World.answer net)) (bodyContent content) (fun r w' =>
      w'.server = w.server ∧ w'.past = w.past ∧ w'.machine.disk = w.machine.disk ∧
        w'.machine.output = w.machine.output ∧
        ∀ text, r = .ok text → text = content.getD w.machine.stdin) w := by
  cases content with
  | some text =>
      refine ⟨rfl, rfl, rfl, rfl, ?_⟩
      rintro _ ⟨⟩
      rfl
  | none =>
      simp only [bodyContent, wp_perform]
      refine ⟨trivial, ?_⟩
      rintro r w' ⟨e, hans⟩
      rcases World.attempt_eq_some hans with ⟨rfl, rfl⟩ | ⟨rfl, rfl⟩
      · exact ⟨rfl, rfl, rfl, rfl, by rintro _ ⟨⟩⟩
      · refine ⟨rfl, rfl, rfl, rfl, ?_⟩
        rintro _ ⟨⟩
        rfl

theorem wp_postRecord_exchange {c : Client} {form : List Part} :
    wp (answering (World.answer net)) (postRecord lib c form) (fun r w' => ∀ id, r = .ok id →
      ∃ ans, Exchange net (c.post "/api/records" form) w w' ans ∧ net.status ans = 201 ∧
        created? ans = some id) w := by
  have honce : sendWithRetry (c.post "/api/records" form) = send (c.post "/api/records" form) := rfl
  simp only [postRecord, honce, wp_bind]
  refine wp_mono wp_send_exchange fun r w' h => ?_
  cases r with
  | error e => rintro _ ⟨⟩
  | ok resp =>
      rcases h resp rfl with ⟨ans, rfl, hexchange⟩
      dsimp only
      split_ifs with hstatus
      · split
        · rename_i id hid
          rintro _ ⟨⟩
          exact ⟨ans, hexchange, hstatus, hid⟩
        · rintro _ ⟨⟩
      · rintro _ ⟨⟩

/-- The form of a paste. -/
def pasteForm (title text : String) (parts : List Part) : List Part :=
  formField "title" title :: formField "content" text :: parts

/-- A paste that succeeds has posted its form and printed the id of the record. -/
structure Pasted (net : Net) (lib : Lib) (c : Client) (title content : Option String)
    (paths : List String) (w w' : World) (id : String) : Prop where
  output : w'.machine.output = w.machine.output ++ [.out id]
  posted : ∃ parts w₁ w₂ ans, List.Forall₂ (fun path p => ∃ data,
      w.machine.disk path = some data ∧ p = attached lib path data) paths parts ∧
    w₁.server = w.server ∧ w₁.past = w.past ∧ w'.server = w₂.server ∧ w'.past = w₂.past ∧
    Exchange net (c.post "/api/records"
      (pasteForm (title.getD "") (content.getD w.machine.stdin) parts)) w₁ w₂ ans ∧
    net.status ans = 201 ∧ created? ans = some id

theorem wp_cmdPaste_exchange {c : Client} {title content : Option String} {paths : List String} :
    wp (answering (World.answer net)) (cmdPaste lib c title content paths) (fun r w' => r = .ok () →
      ∃ id, Pasted net lib c title content paths w w' id) w := by
  simp only [cmdPaste, wp_bind]
  refine wp_mono (wp_bodyContent content w) ?_
  rintro r w₁ ⟨hserver, hpast, hdisk, hout, htext⟩
  cases r with
  | error e => rintro ⟨⟩
  | ok text =>
      obtain rfl := htext text rfl
      simp only [wp_bind]
      refine wp_mono (wp_readFiles paths w₁) ?_
      rintro r w₁ ⟨rfl, hparts⟩
      cases r with
      | error e => rintro ⟨⟩
      | ok parts =>
          have hparts := hparts parts rfl
          rw [hdisk] at hparts
          simp only [wp_bind]
          refine wp_mono wp_postRecord_exchange fun r w₂ h => ?_
          cases r with
          | error e => rintro ⟨⟩
          | ok id =>
              rcases h id rfl with ⟨ans, hexchange, hstatus, hid⟩
              simp only [wp_bind, wp_perform]
              refine ⟨trivial, ?_⟩
              rintro _ w₃ ⟨e, hans⟩
              cases hans
              refine fun _ => ⟨id, ?_, parts, w₁, w₂, ans, hparts, hserver, hpast, rfl, rfl,
                hexchange, hstatus, hid⟩
              simp only [World.emit, hexchange.machine, hout]

end Paste

/-! ## What the server makes of it -/

theorem sameContent_of_arrives {form : List Part} {parts : Multipart}
    (h : Arrives form parts = true) : ∃ ps, parts = ps.map .ok ∧
      List.Forall₂ Part.SameContent form ps ∧ ∀ p ∈ ps, p.broken = none := by
  fun_induction Arrives form parts with
  | case1 => exact ⟨[], rfl, .nil, by simp⟩
  | case2 p form q parts ih =>
      simp only [decide_eq_true_eq] at h
      rcases h with ⟨hname, hfile, htype, hbytes, hbroken, hrest⟩
      rcases ih hrest with ⟨ps, rfl, hsame, hps⟩
      exact ⟨q :: ps, rfl, .cons ⟨hname, hfile, htype, hbytes⟩ hsame,
        List.forall_mem_cons.2 ⟨hbroken, hps⟩⟩
  | case3 => cases h

/-- A part as a name and bytes. -/
def named (p : Part) : String × Bytes :=
  (p.fileName.getD "", p.bytes)

theorem map_named_of_same {ps qs : List Part} (h : List.Forall₂ Part.SameContent ps qs) :
    ps.map named = qs.map named := by
  induction h with
  | nil => rfl
  | cons hpq _ ih =>
      rw [List.map_cons, List.map_cons, ih, named, named, hpq.fileName, hpq.bytes]

theorem fileParts_attached {lib : Lib} {disk : String → Option Bytes} {paths : List String}
    {parts : List Part} (h : List.Forall₂ (fun path p => ∃ data,
      disk path = some data ∧ p = attached lib path data) paths parts) :
    (fileParts (parts.map .ok)).map named = namedFiles lib disk paths := by
  unfold namedFiles
  induction h with
  | nil => rfl
  | @cons path p paths parts hp _ ih =>
      rcases hp with ⟨data, hdata, rfl⟩
      have hup : (attached lib path data).isUpload = decide (lib.fileName path ≠ "") := by
        by_cases hname : lib.fileName path = "" <;>
          simp [Part.isUpload, Part.upload?, attached, hname]
      rw [List.filterMap_cons, List.map_cons, fileParts, hup]
      by_cases hname : lib.fileName path = ""
      · simpa [hname] using ih
      · simpa [hname, hdata, named, attached, Part.bytes] using ih

theorem attached_files {lib : Lib} {disk : String → Option Bytes} {paths : List String}
    {parts : List Part} (h : List.Forall₂ (fun path p => ∃ data,
      disk path = some data ∧ p = attached lib path data) paths parts) :
    ∀ p ∈ parts, p.name = some "files" ∧ p.broken = none := by
  induction h with
  | nil => simp
  | cons hp _ ih =>
      rcases hp with ⟨data, -, rfl⟩
      exact List.forall_mem_cons.2 ⟨⟨rfl, rfl⟩, ih⟩

theorem formText_pasteForm {s : AppState} {title text : String} {parts : List Part}
    (hdecode : ∀ t ∈ [title, text], s.vendor.decodeText none (bytes t) = stripBom t)
    (hfiles : ∀ p ∈ parts, p.name = some "files") :
    formText s ((pasteForm title text parts).map .ok) = (postedTitle title, stripBom text) := by
  let record : ApiRecord :=
    { id := "", title, content := text, untitled := false, updatedAt := 0, createdAt := 0
      attachments := [] }
  exact @formText_repostForm s record parts hdecode hfiles

theorem fileParts_pasteForm (title text : String) (parts : List Part) :
    fileParts ((pasteForm title text parts).map .ok) = fileParts (parts.map .ok) := by
  have hfield : ∀ name t, (formField name t).isUpload = false := by
    intro name t
    simp [Part.isUpload, Part.upload?, formField]
  simp [pasteForm, fileParts, hfield]

section Server

variable {net : Net} {cr : Crypto} {w w' : World}

theorem status_eq_created {ans : Http.Answer} (h : net.status ans = 201) :
    ∃ r, ans = .response r ∧ r.Success := by
  cases ans with
  | response r =>
      refine ⟨r, rfl, ?_⟩
      rcases r with ⟨status, headers, body⟩
      cases status <;> simp [Net.status, StatusCode.code] at h ⊢
      rfl
  | asset path =>
      simp only [Net.status] at h
      split_ifs at h <;> cases h
  | refused =>
      have hrefusal := net.refusal.2
      simp only [Net.status] at h
      omega
  | _ => simp [Net.status] at h

theorem success_of_isSuccess {ans : Http.Answer} (h : (net.receive ans).isSuccess = true) :
    ans.Success := by
  have hrefusal := net.refusal.2
  cases ans with
  | response r =>
      rcases r with ⟨status, headers, body⟩
      cases status <;>
        simp [HttpResponse.isSuccess, Net.receive, Net.status, StatusCode.code] at h <;> rfl
  | forbidden msg => simp [HttpResponse.isSuccess, Net.receive, Net.status] at h
  | refused =>
      have hrange : 200 ≤ (net.refusal : ℕ) ∧ (net.refusal : ℕ) < 300 := of_decide_eq_true h
      omega
  | _ => trivial

/-- A record that was posted from a machine is in the bin, with its files. -/
theorem Exchange.created {c : Client} {form : List Part} {ans : Http.Answer} {id : String}
    (hx : Exchange net (c.post "/api/records" form) w w' ans) (hserves : net.Serves c.baseUrl)
    (hundoes : cr.Undoes) (hready : w.server.Ready cr) (hstatus : net.status ans = 201)
    (hid : created? ans = some id) (hadmits : ∀ p ∈ w'.past, Http.Admits cr.key p) :
    w'.server.Ready cr ∧ ∃ s ts ps b us, s.crypto = cr ∧
      List.Forall₂ Part.SameContent form ps ∧ (∀ p ∈ ps, p.broken = none) ∧
      Bin.Uploads s (ps.map .ok) b id ts us ∧
      (w'.server.bin cr).Has id (formText s (ps.map .ok)).1 (formText s (ps.map .ok)).2 us := by
  rcases hx.served with ⟨e, before, server, log, hlife, hpast, harrives, hrun⟩
  rw [hpast] at hadmits
  have hserver : server.Ready cr := hready.of_lifetime hundoes hlife fun p hp =>
    hadmits p (by simp [hp])
  have hclears : ∀ x ∈ log, Http.Clears x := hadmits (.turn ⟨_, log, ans⟩)
    (List.mem_append_right _ (List.mem_append_right _ (List.mem_singleton_self _)))
  rcases status_eq_created hstatus with ⟨resp, rfl, hsuccess⟩
  rw [(c.post "/api/records" form).request_of_endpoint (hserves.create e.parts)] at hrun
  rcases hserver.created hundoes hrun hsuccess hclears with
    ⟨hready', id', ts, us, hresp, hnone, hups, hbin⟩
  obtain rfl : id' = id := by
    rw [hresp] at hid
    exact Option.some.inj hid
  rcases sameContent_of_arrives harrives with ⟨ps, hps, hsame, hbroken⟩
  rw [hps] at hups hbin
  refine ⟨hready', server.server.app, ts, ps, server.bin cr, us, hserver.crypto, hsame, hbroken,
    hups, ?_⟩
  rw [hbin]
  exact hups.has fun x f hf => hserver.sound.owner hnone hf

/-- Since `w` the server has worked under the key, and nobody has written to the record. -/
def Undisturbed (key : CryptoKey) (id : String) (w w' : World) : Prop :=
  ∀ p ∈ w'.past.drop w.past.length, Http.Admits key p ∧ Http.Spares id p

/-- The state of the server in which a request is handled. -/
theorem Exchange.served_undisturbed {req : HttpRequest} {ans : Http.Answer} {id title content : String}
    {files : List (String × Bin.Attachment)} (hx : Exchange net req w w' ans)
    (hundoes : cr.Undoes) (hready : w.server.Ready cr)
    (hhas : (w.server.bin cr).Has id title content files)
    (hquiet : Undisturbed cr.key id w w') : ∃ (e : Env) (server : Http.World)
      (log : List (Asked Http.Reply Http.Env)), server.Ready cr ∧
      (server.bin cr).Has id title content files ∧
      Runs Http.World.answer server
        (Http.route server.server.app server.pages (req.request net e)) log w'.server ans := by
  rcases hx.served with ⟨e, before, server, log, hlife, hpast, -, hrun⟩
  have hbefore : ∀ p ∈ before, Http.Admits cr.key p ∧ Http.Spares id p := by
    intro p hp
    refine hquiet p ?_
    rw [hpast, List.drop_left]
    exact List.mem_append_left _ hp
  rcases hready.sameAt hundoes hhas.ne_none hlife (fun p hp => (hbefore p hp).1)
    (fun p hp => (hbefore p hp).2) with ⟨hready', hsame⟩
  exact ⟨e, server, log, hready', hhas.congr hsame, hrun⟩

theorem Exchange.record {c : Client} {record : ApiRecord} {id title content : String}
    {files : List (String × Bin.Attachment)}
    (hx : Exchange net (c.get ("/api/records/" ++ id)) w w' (.record record))
    (hserves : net.Serves c.baseUrl) (hsafe : Net.UrlSafe id) (hundoes : cr.Undoes)
    (hready : w.server.Ready cr) (hhas : (w.server.bin cr).Has id title content files)
    (hquiet : Undisturbed cr.key id w w') : ∃ r fs, r.title = title ∧ r.content = content ∧
      fs.Perm files ∧ record = Bin.apiRecord id r fs := by
  rcases hx.served_undisturbed hundoes hready hhas hquiet with
    ⟨e, server, log, hready', hhas', hrun⟩
  rw [(c.get ("/api/records/" ++ id)).request_of_endpoint (hserves.record id hsafe)] at hrun
  rcases hready'.record hrun with ⟨r, fs, hr, hfs, hrecord⟩
  rcases hhas'.record with ⟨r', hr', htitle, hcontent⟩
  obtain rfl : r = r' := Option.some.inj (hr.symm.trans hr')
  exact ⟨r, fs, htitle, hcontent, hhas'.perm hfs, hrecord⟩

theorem Exchange.file {c : Client} {ans : Http.Answer} {id title content : String}
    {files : List (String × Bin.Attachment)} {x : String × Bin.Attachment}
    (hx : Exchange net (c.get ("/api/attachments/" ++ x.1)) w w' ans)
    (hserves : net.Serves c.baseUrl) (hsafe : Net.UrlSafe x.1) (hundoes : cr.Undoes)
    (hready : w.server.Ready cr) (hhas : (w.server.bin cr).Has id title content files)
    (hmem : x ∈ files) (hquiet : Undisturbed cr.key id w w')
    (hsuccess : (net.receive ans).isSuccess = true) : net.body ans = x.2.bytes := by
  rcases hx.served_undisturbed hundoes hready hhas hquiet with
    ⟨e, server, log, hready', hhas', hrun⟩
  rw [(c.get ("/api/attachments/" ++ x.1)).request_of_endpoint (hserves.file x.1 hsafe)] at hrun
  rcases hready'.file hrun (success_of_isSuccess hsuccess) with ⟨f, hf, rfl⟩
  obtain rfl : f = x.2 := Option.some.inj (hf.symm.trans ((hhas'.files x).1 hmem).1)
  rfl

end Server

/-! ## What the other commands print and write -/

section Commands

variable {net : Net} {w : World}

theorem wp_printAll (lines : List String) (w : World) :
    wp (answering (World.answer net)) (printAll lines) (fun _ w' => w'.past = w.past ∧
      w'.machine.output = w.machine.output ++ lines.map .out) w := by
  induction lines generalizing w with
  | nil => exact ⟨rfl, by simp⟩
  | cons text rest ih =>
      simp only [printAll, wp_bind, wp_perform]
      refine ⟨trivial, ?_⟩
      rintro _ w₁ ⟨e, hans⟩
      cases hans
      refine wp_mono (ih _) ?_
      rintro _ w₂ ⟨hpast, hout⟩
      exact ⟨hpast, by rw [hout]; simp [World.emit]⟩

theorem wp_cmdGet_exchange {c : Client} {id : String} :
    wp (answering (World.answer net)) (cmdGet c id) (fun r w' => r = .ok () → ∃ record w₁,
      Exchange net (c.get ("/api/records/" ++ id)) w w₁ (.record record) ∧ w'.past = w₁.past ∧
      w'.machine.output = w.machine.output ++ (recordLines record).map .out) w := by
  simp only [cmdGet, wp_bind]
  refine wp_mono wp_send_exchange fun r w₁ h => ?_
  cases r with
  | error e => rintro ⟨⟩
  | ok resp =>
      rcases h resp rfl with ⟨ans, rfl, hexchange⟩
      dsimp only
      cases hexpect : expect (net.receive ans) record? "request failed" with
      | error e => rintro ⟨⟩
      | ok record =>
          obtain rfl : ans = .record record := record?_eq_some (expect_eq_ok hexpect).2
          simp only [wp_bind]
          refine wp_mono (wp_printAll _ w₁) ?_
          rintro _ w₂ ⟨hpast, hout⟩ -
          exact ⟨record, w₁, hexchange, hpast, by rw [hout, hexchange.machine]⟩

theorem wp_cmdDownload_exchange {c : Client} {id path : String} :
    wp (answering (World.answer net)) (cmdDownload c id (some path)) (fun r w' => r = .ok () →
      ∃ ans w₁, Exchange net (c.get ("/api/attachments/" ++ id)) w w₁ ans ∧ w'.past = w₁.past ∧
        (net.receive ans).isSuccess = true ∧ w'.machine.disk path = some (net.body ans)) w := by
  simp only [cmdDownload, wp_bind]
  refine wp_mono wp_send_exchange fun r w₁ h => ?_
  cases r with
  | error e => rintro ⟨⟩
  | ok resp =>
      rcases h resp rfl with ⟨ans, rfl, hexchange⟩
      dsimp only
      split_ifs with hsuccess
      · simp only [wp_bind, wp_perform]
        refine ⟨trivial, ?_⟩
        rintro r w₂ ⟨e, hans⟩
        rcases World.attempt_eq_some hans with ⟨rfl, rfl⟩ | ⟨rfl, rfl⟩
        · rintro ⟨⟩
        · simp only [wp_bind, wp_perform]
          refine ⟨trivial, ?_⟩
          rintro _ w₃ ⟨e', hans'⟩
          cases hans'
          refine fun _ => ⟨ans, w₁, hexchange, rfl, hsuccess, ?_⟩
          simp [World.emit, World.setDisk, Net.receive]
      · rintro ⟨⟩

end Commands

/-! ## The round trip -/

/-- While nobody writes to the record, every machine gets it and its files as they are. -/
structure Kept (net : Net) (key : CryptoKey) (w₁ : World) (id title content : String)
    (files : List (String × Bin.Attachment)) : Prop where
  get : ∀ m c log w₂, net.Serves c.baseUrl → Net.UrlSafe id →
    Runs (World.answer net) { w₁ with machine := m } (cmdGet c id) log w₂ (.ok ()) →
    Undisturbed key id w₁ w₂ → ∃ r fs, r.title = title ∧ r.content = content ∧ fs.Perm files ∧
      w₂.machine.output = m.output ++ (recordLines (Bin.apiRecord id r fs)).map .out
  download : ∀ x ∈ files, ∀ m c path log w₂, net.Serves c.baseUrl → Net.UrlSafe x.1 →
    Runs (World.answer net) { w₁ with machine := m } (cmdDownload c x.1 (some path)) log w₂
      (.ok ()) →
    Undisturbed key id w₁ w₂ → w₂.machine.disk path = some x.2.bytes

theorem kept_of_has {net : Net} {cr : Crypto} {w₁ : World} {id title content : String}
    {files : List (String × Bin.Attachment)} (hundoes : cr.Undoes) (hready : w₁.server.Ready cr)
    (hhas : (w₁.server.bin cr).Has id title content files) :
    Kept net cr.key w₁ id title content files where
  get := by
    intro m c log w₂ hserves hsafe hrun hquiet
    rcases hrun.of_wp wp_cmdGet_exchange rfl with ⟨record, w', hexchange, hpast, hout⟩
    unfold Undisturbed at hquiet
    rw [hpast] at hquiet
    rcases hexchange.record hserves hsafe hundoes hready hhas hquiet with
      ⟨r, fs, htitle, hcontent, hperm, rfl⟩
    exact ⟨r, fs, htitle, hcontent, hperm, hout⟩
  download := by
    intro x hx m c path log w₂ hserves hsafe hrun hquiet
    rcases hrun.of_wp wp_cmdDownload_exchange rfl with
      ⟨ans, w', hexchange, hpast, hsuccess, hdisk⟩
    unfold Undisturbed at hquiet
    rw [hpast] at hquiet
    rw [hdisk, hexchange.file hserves hsafe hundoes hready hhas hx hquiet hsuccess]

/-- From a fresh installation on, whatever was done before: a paste that succeeds prints the id of
a record that every machine gets back, with the files under their names, until it is written to. -/
theorem paste_round_trip {net : Net} {lib : Lib} {c : Client} {app : AppState} {auth : Auth.World}
    {pages : Http.Pages} {w w₁ : World} {title content : Option String} {paths : List String}
    {log : List (Asked Reply Env)} (hundoes : app.crypto.Undoes)
    (hdecode : ∀ t ∈ [title.getD "", content.getD w.machine.stdin],
      app.vendor.decodeText none (bytes t) = stripBom t)
    (hserves : net.Serves c.baseUrl)
    (hlife : Http.app.Lifetime (.fresh app auth pages) w.past w.server)
    (hpaste : Runs (World.answer net) w (cmdPaste lib c title content paths) log w₁ (.ok ()))
    (hadmits : ∀ p ∈ w₁.past, Http.Admits app.cfg.cryptoKey p) :
    ∃ id files, w₁.machine.output = w.machine.output ++ [.out id] ∧
      files.map (fun x => (x.2.filename, x.2.bytes)) = namedFiles lib w.machine.disk paths ∧
      Kept net app.cfg.cryptoKey w₁ id (postedTitle (title.getD ""))
        (stripBom (content.getD w.machine.stdin)) files := by
  rcases hpaste.of_wp wp_cmdPaste_exchange rfl with
    ⟨id, hout, parts, v, v', ans, hparts, hserver, hpast, hserver', hpast', hexchange, hstatus, hid⟩
  rw [hpast'] at hadmits
  have hbefore : ∀ p ∈ w.past, Http.Admits app.cfg.cryptoKey p := by
    intro p hp
    rcases hexchange.served with ⟨e, before, server, log, -, hext, -⟩
    exact hadmits p (by rw [hext, hpast]; exact List.mem_append_left _ hp)
  have hready : v.server.Ready app.crypto := by
    rw [hserver]
    exact (Http.World.Ready.fresh app auth pages).of_lifetime hundoes hlife hbefore
  rcases hexchange.created hserves hundoes hready hstatus hid hadmits with
    ⟨hready', s, ts, ps, b, us, hcrypto, hsame, hbroken, hups, hhas⟩
  -- What the posted form holds.
  have hvendor : s.vendor = app.vendor := congrArg Crypto.vendor hcrypto
  have htext : formText s (ps.map .ok) =
      (postedTitle (title.getD ""), stripBom (content.getD w.machine.stdin)) := by
    have hfiles := attached_files hparts
    rw [← hvendor] at hdecode
    rw [← formText_pasteForm hdecode fun p hp => (hfiles p hp).1]
    refine (formText_of_same hsame ?_ hbroken).symm
    simp only [pasteForm, List.forall_mem_cons]
    exact ⟨rfl, rfl, fun p hp => (hfiles p hp).2⟩
  simp only [htext] at hhas
  refine ⟨id, us, hout, ?_, ?_⟩
  · have hmap : us.map (fun x => (x.2.filename, x.2.bytes)) =
        (fileParts (ps.map .ok)).map named := by
      have hstored := congrArg (List.map fun f : Bin.Attachment => (f.filename, f.bytes)) hups.stored
      rw [List.map_map, List.map_map] at hstored
      exact hstored
    rw [hmap, ← map_named_of_same (fileParts_of_same hsame), fileParts_pasteForm,
      fileParts_attached hparts]
  · rw [← hserver'] at hready' hhas
    exact kept_of_has hundoes hready' hhas

/-! ## A concrete run -/

/-- A network with one server. -/
def Net.plain (base : String) : Net where
  endpoint := fun method url form =>
    match method with
    | .post => .apiCreateRecord form
    | .get =>
        match stripPrefix url (base ++ "/api/records/"),
          stripPrefix url (base ++ "/api/attachments/") with
        | some id, _ => .apiGetRecord id
        | none, some id => .apiDownloadAttachment id (some none)
        | none, none => .unrouted .get
    | method => .unrouted method
  refusal := ⟨404, by decide⟩
  asset := fun _ => none
  encode := fun _ => []

theorem plain_serves (base : String) : (Net.plain base).Serves base where
  create := fun _ => rfl
  record := by
    intro id _
    have hid : stripPrefix (base ++ ("/api/records/" ++ id)) (base ++ "/api/records/") = some id :=
      stripPrefix_of_append (by simp)
    simp only [Net.plain, hid]
  file := by
    intro id _
    have hid : stripPrefix (base ++ ("/api/attachments/" ++ id)) (base ++ "/api/attachments/") =
        some id := stripPrefix_of_append (by simp)
    have hother : stripPrefix (base ++ ("/api/attachments/" ++ id)) (base ++ "/api/records/") =
        none := by
      refine stripPrefix_eq_none fun rest hrest => ?_
      simp at hrest
    simp only [Net.plain, hid, hother]

/-- A machine with a file. -/
def oneFile : Machine where
  disk := fun path => if path = "a.bin" then some [1, 2, 3] else none

/-- The client of somebody who has the access key. -/
def plainClient : Client :=
  { baseUrl := "u", authorization := "Bearer open sesame, please" }

/-- A file is pasted on one machine, and its record is printed on another. -/
theorem paste_round_trip_run : ∃ log w₁ files log₂ w₂,
    Runs (World.answer (Net.plain "u")) { server := .plain, past := [], machine := oneFile }
      (cmdPaste .plain plainClient (some "a") (some "b") ["a.bin"]) log w₁ (.ok ()) ∧
    w₁.machine.output = [.out "r1"] ∧
    files.map (fun x => (x.2.filename, x.2.bytes)) = [("a.bin", [1, 2, 3])] ∧
    Kept (Net.plain "u") AppState.plain.cfg.cryptoKey w₁ "r1" "a" "b" files ∧
    Runs (World.answer (Net.plain "u")) { w₁ with machine := {} } (cmdGet plainClient "r1") log₂ w₂
      (.ok ()) ∧
    Undisturbed AppState.plain.cfg.cryptoKey "r1" w₁ w₂ := by
  have hruns : ∃ log w₁ r,
      Runs (World.answer (Net.plain "u")) { server := .plain, past := [], machine := oneFile }
        (cmdPaste .plain plainClient (some "a") (some "b") ["a.bin"]) log w₁ r ∧
      r = .ok () ∧ w₁.machine.output = [.out "r1"] ∧
      (∀ p ∈ w₁.past, Http.Admits AppState.plain.cfg.cryptoKey p) ∧
      ((cmdGet plainClient "r1").run (World.answer (Net.plain "u"))
        [{ addr := some (.v4 1), steps := [{}, {}, {}, {}] }, {}, {}, {}, {}, {}, {}]
        { w₁ with machine := {} }).any (fun x => decide (x.2.2 = .ok () ∧
          ∀ p ∈ x.2.1.past.drop w₁.past.length,
            Http.Admits AppState.plain.cfg.cryptoKey p ∧ Http.Spares "r1" p)) = true := by
    refine exists_runs
      [{}, { addr := some (.v4 1), parts := form "a" "b" [[1, 2, 3]]
             steps := [{}, {}, { store := { uuid := "f1" } }, {}, {}, { store := { uuid := "r1" } },
               {}, {}, {}, {}, {}] }, {}] ?_
    simp only [cmdPaste, formField, bytes_eq_flatMap]
    decide
  rcases hruns with ⟨log, w₁, r, hpaste, rfl, hout, hadmits, hget⟩
  have hdecode : ∀ t ∈ [(some "a").getD "", (some "b").getD oneFile.stdin],
      AppState.plain.vendor.decodeText none (bytes t) = stripBom t :=
    fun t _ => plain_decodes none t
  have hstart : Http.app.Lifetime
      (.fresh .plain Http.World.plain.auth Http.World.plain.pages) [] Http.World.plain := .nil
  have hundoes : AppState.plain.crypto.Undoes := plain_undoes _
  rcases paste_round_trip hundoes hdecode (plain_serves "u") hstart hpaste hadmits with
    ⟨id, files, hout', hfiles, hkept⟩
  obtain rfl : "r1" = id := by simpa [oneFile, hout] using hout'
  have htitle : postedTitle "a" = "a" ∧ stripBom "b" = "b" := by decide
  have hnamed : namedFiles .plain oneFile.disk ["a.bin"] = [("a.bin", [1, 2, 3])] := by decide
  have hshown : ∃ log₂ w₂ r, Runs (World.answer (Net.plain "u")) { w₁ with machine := {} }
      (cmdGet plainClient "r1") log₂ w₂ r ∧ r = .ok () ∧
        ∀ p ∈ w₂.past.drop w₁.past.length,
          Http.Admits AppState.plain.cfg.cryptoKey p ∧ Http.Spares "r1" p :=
    exists_runs _ hget
  rcases hshown with ⟨log₂, w₂, r, hread, rfl, hquiet⟩
  refine ⟨log, w₁, files, log₂, w₂, hpaste, hout, hfiles.trans hnamed, ?_, hread, hquiet⟩
  simpa [htitle] using hkept

end Cli
end Aardbin
