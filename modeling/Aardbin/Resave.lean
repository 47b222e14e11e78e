import Aardbin.BatchedLookup
import Aardbin.Bin.Refinement
import Aardbin.Repost
import Aardbin.Saving.Protocol

/-!
# Saving the edit page as it is

A title is trimmed and cut off on its way in, and again where it is shown.  A stored title is left
alone by both, so a record with a title is shown under it everywhere.  Saving the edit page without
a change stores the same text, unless a field begins with a byte order mark: decoding removes it.
-/

namespace Aardbin

open Effect Rust

/-- The title that is stored for a submitted title. -/
def storedTitle (s : String) : String :=
  truncateChars (trim s) 200

theorem storedTitle_storedTitle (s : String) : storedTitle (storedTitle s) = storedTitle s := by
  have h : SavedTitle (storedTitle s) := savedTitle_of_text s
  calc
    storedTitle (storedTitle s) = truncateChars (storedTitle s) 200 := by rw [storedTitle, h.trim]
    _ = storedTitle s := h.truncate

/-! ## What a record shows -/

/-- The record is stored with this title and this content. -/
def Shows (c : Crypto) (w : Store) (id : String) (text : String × String) : Prop :=
  ∃ row ∈ w.db.records, row.id = id ∧ c.decrypt row.blob = .ok text

theorem Shows.decrypt {c : Crypto} {w : Store} {row : RecordRow} {text : String × String}
    (h : Shows c w row.id text) (hrow : row ∈ w.db.records) : c.decrypt row.blob = .ok text := by
  rcases h with ⟨row', hrow', hid, hread⟩
  rwa [← Db.eq_of_record_id hrow' hrow hid]

theorem Shows.of_getRecord {c : Crypto} {w : Store} {id : String} {row : RecordRow}
    {text : String × String} (h : Shows c w id text) (hrow : w.db.getRecord id = some row) :
    c.decrypt row.blob = .ok text := by
  obtain rfl : row.id = id := by simpa using List.find?_some hrow
  exact h.decrypt (List.mem_of_find?_eq_some hrow)

/-- A call keeps what the record shows unless it writes or deletes it. -/
theorem Shows.next {c : Crypto} {w w' : Store} {id : String} {text : String × String} {op : Call}
    {r : Reply op} (h : Shows c w id text) (hnext : (answering Store.answer).next w op r w')
    (hwrite : ∀ blob now, op ≠ .db (.updateRecord id blob now))
    (hdelete : op ≠ .db (.deleteRecord id)) : Shows c w' id text := by
  rcases hnext with ⟨e, hans⟩
  rcases h with ⟨row, hrow, rfl, hread⟩
  have hdel : op.deleted? r ≠ some row.id := by
    intro hdel
    unfold Call.deleted? at hdel
    split at hdel
    · cases hdel
      exact hdelete rfl
    · cases hdel
  rcases Store.kept_answer hans hrow hwrite hdel with ⟨row', hrow', hid, hblob⟩
  exact ⟨row', hrow', hid, by rw [hblob, hread]⟩

/-- A write that goes through stores its text, and one that fails leaves the old one. -/
theorem Shows.updated {c : Crypto} {w w' : Store} {id : String} {old new : String × String}
    {blob : Bytes} {now : Int} {r : Except DbError Bool} (h : Shows c w id old)
    (hblob : c.decrypt blob = .ok new)
    (hnext : (answering Store.answer).next w (.db (.updateRecord id blob now)) r w') :
    (∃ err, r = .error err ∧ Shows c w' id old) ∨ ∃ b, r = .ok b ∧ Shows c w' id new := by
  rcases hnext with ⟨e, hans⟩
  rcases h with ⟨row, hrow, rfl, hread⟩
  rcases Store.answer_db hans with ⟨err, rfl, rfl, -⟩ | ⟨v, db, -, hexec, rfl, rfl⟩
  · exact .inl ⟨err, rfl, row, hrow, rfl, hread⟩
  · cases hexec
    exact .inr ⟨_, rfl, { row with blob, updatedAt := now },
      List.mem_map.2 ⟨row, hrow, by simp⟩, rfl, hblob⟩

/-- Uploads leave what the record shows. -/
theorem Shows.of_uploads {α : Type} {R : α → Prop} {p : Program Reply α} {c : Crypto} {w : Store}
    {id : String} {text : String × String} {Q : α → Store → Prop} (h : Shows c w id text)
    (huses : Uses Call.IsUpload R p) (hQ : ∀ a w', R a → Shows c w' id text → Q a w') :
    wp (answering Store.answer) p Q w := by
  refine wp_keeps (fun w => Shows c w id text) (fun _ _ _ _ => trivial) ?_ huses h hQ
  rintro w op r w' h hop hnext
  refine h.next hnext ?_ ?_
  · rintro blob now rfl
    exact hop
  · rintro rfl
    exact hop

/-! ## Saving the page -/

/-- A form that holds the title and the content of the edit page. -/
structure Resubmits (page : FormView) (parts : Multipart) : Prop where
  title : ∃ p, .ok p ∈ parts ∧ p.name = some "title"
  content : ∃ p, .ok p ∈ parts ∧ p.name = some "content"
  fields : ∀ p, .ok p ∈ parts → p.name = some "title" ∨ p.name = some "content" →
    p.broken = none ∧ p.contentType = none
  titles : ∀ p, .ok p ∈ parts → p.name = some "title" → p.bytes = bytes page.title
  contents : ∀ p, .ok p ∈ parts → p.name = some "content" → p.bytes = bytes page.content

/-- Neither the title nor the content begins with a byte order mark. -/
def Unmarked (text : String × String) : Prop :=
  text.1.toList.head? ≠ some bom ∧ text.2.toList.head? ≠ some bom

instance (text : String × String) : Decidable (Unmarked text) :=
  inferInstanceAs (Decidable (_ ≠ _ ∧ _ ≠ _))

/-- The last step that sets a value decides it. -/
theorem foldl_eq_of_set {α β γ : Type} {f : β → α → β} {g : β → γ} {v : γ} {as : List α}
    (hstep : ∀ b, ∀ a ∈ as, g (f b a) = g b ∨ g (f b a) = v)
    (hset : ∃ a ∈ as, ∀ b, g (f b a) = v) (b : β) : g (as.foldl f b) = v := by
  induction as generalizing b with
  | nil =>
      rcases hset with ⟨a, ha, -⟩
      cases ha
  | cons a as ih =>
      have hrest : ∀ b, ∀ a' ∈ as, g (f b a') = g b ∨ g (f b a') = v :=
        fun b a' ha' => hstep b a' (List.mem_cons_of_mem _ ha')
      by_cases hlater : ∃ a' ∈ as, ∀ b, g (f b a') = v
      · exact ih hrest hlater (f b a)
      · -- It is the first step that sets the value, and no later one sets another.
        have hfirst : g (f b a) = v := by
          rcases hset with ⟨a', ha', hv⟩
          rcases List.mem_cons.1 ha' with rfl | ha'
          · exact hv b
          · exact absurd ⟨a', ha', hv⟩ hlater
        refine List.foldlRecOn (motive := fun b => g b = v) as f hfirst fun b hb a' ha' => ?_
        rcases hrest b a' ha' with heq | heq
        · rw [heq, hb]
        · exact heq

theorem formText_of_resubmits {s : AppState} {page : FormView} {parts : Multipart}
    (hdecode : ∀ t, s.vendor.decodeText none (bytes t) = stripBom t) (h : Resubmits page parts) :
    formText s parts = (postedTitle page.title, stripBom page.content) := by
  have htitles : ∀ p, .ok p ∈ parts → p.name = some "title" →
      fieldText s p = .ok (stripBom page.title) := by
    intro p hp hname
    rcases h.fields p hp (.inl hname) with ⟨hbroken, htype⟩
    simp only [fieldText, hbroken, htype, h.titles p hp hname, hdecode]
  have hcontents : ∀ p, .ok p ∈ parts → p.name = some "content" →
      fieldText s p = .ok (stripBom page.content) := by
    intro p hp hname
    rcases h.fields p hp (.inr hname) with ⟨hbroken, htype⟩
    simp only [fieldText, hbroken, htype, h.contents p hp hname, hdecode]
  -- A part sets one component to the value of its field, or leaves both as they are.
  have hstep : ∀ (text : String × String), ∀ part ∈ parts,
      ((textStep s text part).1 = text.1 ∨ (textStep s text part).1 = postedTitle page.title) ∧
      ((textStep s text part).2 = text.2 ∨ (textStep s text part).2 = stripBom page.content) := by
    intro text part hpart
    cases part with
    | error e => exact ⟨.inl rfl, .inl rfl⟩
    | ok p =>
        cases hfield : fieldText s p with
        | error e => simp [textStep, hfield]
        | ok t =>
            simp only [textStep, hfield]
            split_ifs with hname hname'
            · obtain rfl : t = stripBom page.title :=
                Except.ok.inj (hfield.symm.trans (htitles p hpart hname))
              simp [postedTitle]
            · obtain rfl : t = stripBom page.content :=
                Except.ok.inj (hfield.symm.trans (hcontents p hpart hname'))
              simp
            · simp
  have htitle : (formText s parts).1 = postedTitle page.title := by
    rcases h.title with ⟨p, hp, hname⟩
    refine foldl_eq_of_set (f := textStep s) (g := Prod.fst)
      (fun text part hpart => (hstep text part hpart).1) ⟨.ok p, hp, fun text => ?_⟩ ("", "")
    simp [textStep, htitles p hp hname, hname, postedTitle]
  have hcontent : (formText s parts).2 = stripBom page.content := by
    rcases h.content with ⟨p, hp, hname⟩
    refine foldl_eq_of_set (f := textStep s) (g := Prod.snd)
      (fun text part hpart => (hstep text part hpart).2) ⟨.ok p, hp, fun text => ?_⟩ ("", "")
    simp [textStep, hcontents p hp hname, hname]
  rw [← htitle, ← hcontent]

/-- The page comes back as the text that is stored exactly if nothing of it is dropped. -/
theorem posted_eq_iff_unmarked {title content : String} (h : SavedTitle title) :
    (postedTitle title, stripBom content) = (title, content) ↔ Unmarked (title, content) := by
  rw [Prod.mk.injEq, postedTitle_eq_self_iff h, stripBom_eq_self_iff]
  exact Iff.rfl

/-- After an update the record has its old text or that of the form; a successful one stores the
text of the form. -/
structure Saves (s : AppState) (id : String) (old new : String × String) (resp : Response)
    (w' : Store) : Prop where
  text : Shows s.crypto w' id old ∨ Shows s.crypto w' id new
  saved : resp.Success → Shows s.crypto w' id new

theorem Saves.of_failed {s : AppState} {id : String} {old new : String × String} {resp : Response}
    {w' : Store} (hresp : ¬ resp.Success) (h : Shows s.crypto w' id old ∨ Shows s.crypto w' id new) :
    Saves s id old new resp w' :=
  ⟨h, fun hsucc => absurd hsucc hresp⟩

theorem wp_updateRecord_saves {s : AppState} (hundoes : s.crypto.Undoes) {id : String}
    {headers : HeaderMap} {parts : Multipart} {w : Store} {text : String × String}
    (h : Shows s.crypto w id text) :
    wp (answering Store.answer) (updateRecord s id headers parts)
      (Saves s id text (formText s parts)) w := by
  simp only [updateRecord, wp_bind, wp_perform]
  refine ⟨trivial, fun r w₁ hr => ?_⟩
  rcases answering_read (x := .ok (w.db.getRecord id)) rfl hr with ⟨rfl, hfound⟩
  rcases r with err | _ | row
  · exact .of_failed not_success_internal (.inl h)
  · exact .of_failed (not_success_errResponse rfl) (.inl h)
  · have hrow := Except.ok.inj (hfound _ rfl)
    simp only [h.of_getRecord hrow, wp_bind]
    -- Reading the form writes no record.
    refine h.of_uploads (((uses_parseRecordForm s parts _).and
      (uses_parseRecordForm_decided s parts _)).mono (fun _ hop => hop.1.isUpload)
        fun _ hr => hr) fun r w₂ hform h₂ => ?_
    cases r with
    | error resp => exact .of_failed hform.2 (.inl h₂)
    | ok form =>
        -- Whatever the nonce is, the new blob holds the text of the form.
        have hblob : ∀ nonce, s.crypto.decrypt (s.crypto.encrypt nonce form.title form.content) =
            .ok (formText s parts) := by
          intro nonce
          rw [hundoes, hform.1 form rfl]
        simp only [wp_bind, wp_perform]
        refine ⟨trivial, fun ts w₃ hnext => ?_⟩
        have h₃ := h₂.next hnext (by simp) (by simp)
        refine ⟨trivial, fun nonce w₄ hnext => ?_⟩
        have h₄ := h₃.next hnext (by simp) (by simp)
        refine ⟨trivial, fun r w₅ hnext => ?_⟩
        rcases h₄.updated (hblob nonce) hnext with ⟨err, rfl, h₅⟩ | ⟨_ | _, rfl, h₅⟩
        · simp only [wp_bind]
          exact h₅.of_uploads ((uses_cleanupUploads _).mono (fun _ hop => hop.isUpload)
            fun _ ha => ha) fun _ w₆ _ h₆ => .of_failed not_success_internal (.inl h₆)
        · exact .of_failed (not_success_errResponse rfl) (.inr h₅)
        · simp only [wp_bind]
          refine h₅.of_uploads (uses_insertUploads id ts form.uploads) fun r w₆ _ h₆ => ?_
          cases r with
          | error err =>
              -- The blob that was read is written back, unless that call fails too.
              simp only [wp_bind, wp_perform]
              refine ⟨trivial, fun r w₇ hnext => .of_failed not_success_internal ?_⟩
              rcases h₆.updated (h.of_getRecord hrow) hnext with ⟨err', -, h₇⟩ | ⟨b, -, h₇⟩
              · exact .inr h₇
              · exact .inl h₇
          | ok _ =>
              simp only [wp_bind, wp_perform]
              refine ⟨trivial, fun _ w₇ hnext => ?_⟩
              have h₇ := h₆.next hnext (by simp) (by simp)
              exact ⟨.inr h₇, fun _ => h₇⟩

/-- The edit page holds the stored text, whatever its title is. -/
theorem wp_editForm_text {s : AppState} {id : String} (headers : HeaderMap) {w : Store}
    {text : String × String} (h : Shows s.crypto w id text) :
    wp (answering Store.answer) (editForm s id headers)
      (fun r _ => ∀ page, r = .ok page → (page.title, page.content) = text) w := by
  simp only [editForm, wp_bind, wp_perform]
  refine ⟨trivial, fun r w₁ hr => ?_⟩
  rcases answering_read (x := .ok (w.db.getRecord id)) rfl hr with ⟨rfl, hfound⟩
  rcases r with err | _ | row
  · simp
  · simp
  · simp only [h.of_getRecord (Except.ok.inj (hfound _ rfl)), wp_bind, wp_perform]
    refine ⟨trivial, fun r w₂ _ => ?_⟩
    cases r with
    | error err => simp
    | ok rows =>
        rintro page ⟨⟩
        rfl

theorem Shows.unique {c : Crypto} {w : Store} {id : String} {text text' : String × String}
    (h : Shows c w id text) (h' : Shows c w id text') : text = text' := by
  rcases h with ⟨row, hrow, rfl, hread⟩
  exact Except.ok.inj (hread.symm.trans (h'.decrypt hrow))

/-- Saving the edit page without a change leaves the record with the text it had if nothing of it
is dropped, and a successful save leaves it so only then. -/
theorem resave {s : AppState} (hundoes : s.crypto.Undoes)
    (hdecode : ∀ t, s.vendor.decodeText none (bytes t) = stripBom t) {w w' w₁ w₂ : Store}
    {id t content : String} {headers headers₁ : HeaderMap} {log log₁ : List (Asked Reply Env)}
    {page : FormView} {parts : Multipart} {resp : Response}
    (h : Shows s.crypto w id (storedTitle t, content))
    (hedit : Runs Store.answer w (editForm s id headers) log w' (.ok page))
    (h₁ : Shows s.crypto w₁ id (storedTitle t, content)) (hparts : Resubmits page parts)
    (hsave : Runs Store.answer w₁ (updateRecord s id headers₁ parts) log₁ w₂ resp) :
    (Unmarked (storedTitle t, content) → Shows s.crypto w₂ id (storedTitle t, content)) ∧
    (resp.Success → Shows s.crypto w₂ id (storedTitle t, content) →
      Unmarked (storedTitle t, content)) := by
  have hpage := hedit.of_wp (wp_editForm_text headers h) page rfl
  rw [Prod.mk.injEq] at hpage
  have htext : formText s parts = (postedTitle (storedTitle t), stripBom content) := by
    rw [formText_of_resubmits hdecode hparts, hpage.1, hpage.2]
  have hiff : (postedTitle (storedTitle t), stripBom content) = (storedTitle t, content) ↔
      Unmarked (storedTitle t, content) := posted_eq_iff_unmarked (savedTitle_of_text t)
  rcases hsave.of_wp (wp_updateRecord_saves hundoes h₁) with ⟨hold, hsaved⟩
  rw [htext] at hold hsaved
  constructor
  · intro hunmarked
    rwa [hiff.2 hunmarked, or_self] at hold
  · intro hsucc h₂
    exact hiff.1 ((hsaved hsucc).unique h₂)

/-! ## The title that is shown -/

/-- Every view of the record shows this title, and none calls it untitled. -/
structure ShownAs (s : AppState) (w : Store) (id title : String) : Prop where
  list : ∀ page lang log w' view, Runs Store.answer w (buildListView s page lang) log w' (.ok view) →
    ∀ r ∈ view.records, r.id = id → r.title = title ∧ r.untitled = false
  apiList : ∀ q log w' resp list, Runs Store.answer w (apiListRecords s q) log w' resp →
    resp.body = .jsonList list → ∀ r ∈ list.records, r.id = id →
      r.title = title ∧ r.untitled = false
  api : ∀ log w' record, Runs Store.answer w (apiGetRecord s id) log w' (.ok record) →
    record.title = title ∧ record.untitled = false
  edit : ∀ headers log w' page, Runs Store.answer w (editForm s id headers) log w' (.ok page) →
    page.title = title

theorem shownAs_of_saved {s : AppState} {w : Store} {id title content : String}
    (h : Shows s.crypto w id (title, content)) (hsaved : SavedTitle title) (hne : title ≠ "") :
    ShownAs s w id title where
  list := by
    intro page lang log w' view hrun r hr hid
    rcases mem_buildListView hrun hr with ⟨row, hrow, rfl⟩
    rw [recordView_id] at hid
    subst hid
    simp [recordView, h.decrypt hrow, displayTitle_of_saved hsaved hne]
  apiList := by
    intro q log w' resp list hrun hresp r hr hid
    rcases mem_apiListRecords hrun hresp hr with ⟨row, hrow, rfl⟩
    have hrowid : (apiRecordSummary s row (w.db.listAttachments row.id)).id = row.id := by
      simp only [apiRecordSummary]
      split <;> rfl
    rw [hrowid] at hid
    subst hid
    simp [apiRecordSummary, h.decrypt hrow, displayTitle_of_saved hsaved hne]
  api := by
    intro log w' record hrun
    rcases apiGetRecord_eq_ok hrun with ⟨row, attachments, hrow, hrecord⟩
    rcases decryptRecord_eq_ok hrecord with ⟨title', hread, htitle, huntitled⟩
    rw [h.of_getRecord hrow, Except.ok.injEq, Prod.mk.injEq] at hread
    rw [htitle, huntitled, ← hread.1, displayTitle_of_saved hsaved hne]
    exact ⟨rfl, rfl⟩
  edit := by
    intro headers log w' page hrun
    have hpage := hrun.of_wp (wp_editForm_text headers h) page rfl
    exact (Prod.mk.inj hpage).1

/-- A stored title is stored again as it is, and is what every view shows; saving the edit page
changes nothing exactly if neither field begins with a byte order mark. -/
theorem title_stable {s : AppState} (hundoes : s.crypto.Undoes)
    (hdecode : ∀ t, s.vendor.decodeText none (bytes t) = stripBom t) :
    (∀ t, storedTitle (storedTitle t) = storedTitle t) ∧
    (∀ t content lang, storedTitle t ≠ "" →
      displayTitle (storedTitle t) content lang = (storedTitle t, false)) ∧
    (∀ t content id w, Shows s.crypto w id (storedTitle t, content) →
      ∀ headers log w' page, Runs Store.answer w (editForm s id headers) log w' (.ok page) →
      ∀ w₁ headers₁ parts log₁ w₂ resp, Shows s.crypto w₁ id (storedTitle t, content) →
        Resubmits page parts →
        Runs Store.answer w₁ (updateRecord s id headers₁ parts) log₁ w₂ resp →
          (Unmarked (storedTitle t, content) → Shows s.crypto w₂ id (storedTitle t, content)) ∧
          (resp.Success → Shows s.crypto w₂ id (storedTitle t, content) →
            Unmarked (storedTitle t, content))) ∧
    ∀ t content id w, Shows s.crypto w id (storedTitle t, content) → storedTitle t ≠ "" →
      ShownAs s w id (storedTitle t) := by
  refine ⟨storedTitle_storedTitle, fun t content lang hne => ?_, ?_, fun t content id w h hne => ?_⟩
  · exact displayTitle_of_saved (savedTitle_of_text t) hne content lang
  · intro t content id w h headers log w' page hedit w₁ headers₁ parts log₁ w₂ resp h₁ hparts hsave
    exact resave hundoes hdecode h hedit h₁ hparts hsave
  · exact shownAs_of_saved h (savedTitle_of_text t) hne

/-- The fields of the page as a browser posts them. -/
def pageForm (page : FormView) : Multipart :=
  [.ok (formField "title" page.title), .ok (formField "content" page.content)]

theorem resubmits_pageForm (page : FormView) : Resubmits page (pageForm page) := by
  refine ⟨⟨_, List.mem_cons_self, rfl⟩, ⟨_, List.mem_cons_of_mem _ List.mem_cons_self, rfl⟩,
    ?_, ?_, ?_⟩ <;>
  · simp only [pageForm, List.mem_cons, List.not_mem_nil, or_false, Except.ok.injEq]
    rintro p (rfl | rfl) <;> simp [formField, Part.bytes]

/-- The edit page of the one record, saved as it is. -/
theorem title_stable_run : ∃ log w' page log₁ w₂ resp,
    Runs Store.answer oneRecord (editForm .plain "r1" noHeaders) log w' (.ok page) ∧
    Runs Store.answer oneRecord (updateRecord .plain "r1" noHeaders (pageForm page)) log₁ w₂ resp ∧
    resp.Success ∧ Shows AppState.plain.crypto w₂ "r1" ("a", "b") ∧
    ShownAs .plain oneRecord "r1" "a" := by
  have hedit : ∃ log w' r, Runs Store.answer oneRecord (editForm .plain "r1" noHeaders) log w' r ∧
      r = .ok (formView .plain (detectLang noHeaders) "r1" "a" "b" []) := by
    refine exists_runs [{}, {}] ?_
    decide
  have hsave : ∃ log w₂ resp, Runs Store.answer oneRecord (updateRecord .plain "r1" noHeaders
      [.ok (formField "title" "a"), .ok (formField "content" "b")]) log w₂ resp ∧ resp.Success := by
    simp only [formField, bytes_eq_flatMap]
    refine exists_runs [{}, {}, {}, {}, {}] ?_
    decide
  have hshows : Shows AppState.plain.crypto oneRecord "r1" (storedTitle "a", "b") :=
    ⟨_, List.mem_cons_self, rfl, by decide⟩
  rcases hedit with ⟨log, w', r, hedit, rfl⟩
  rcases hsave with ⟨log₁, w₂, resp, hsave, hresp⟩
  rcases title_stable (plain_undoes AppState.plain.cfg.cryptoKey) (s := .plain)
    (plain_decodes none) with ⟨-, -, hresave, hshown⟩
  refine ⟨log, w', _, log₁, w₂, resp, hedit, hsave, hresp, ?_, ?_⟩
  · exact (hresave "a" "b" "r1" _ hshows _ _ _ _ hedit _ _ _ _ _ _ hshows
      (resubmits_pageForm _) hsave).1 (by decide)
  · exact hshown "a" "b" "r1" _ hshows (by decide)

/-- A record whose title begins with a byte order mark. -/
def markedRecord : Store :=
  { Store.empty with
    db :=
      { Db.empty with
        records := [{ id := "r1", createdAt := 0, updatedAt := 0
                      blob := AppState.plain.crypto.encrypt Plain.nonce "\uFEFFT" "b" }]
        recordsKey := by simp
        foreignKey := by simp } }

/-- The title " \uFEFFT" is stored without its blank, and from then on a save of the edit page drops
the mark. -/
theorem mark_dropped_on_resave :
    ¬ ∀ (s : AppState), s.crypto.Undoes →
      (∀ t, s.vendor.decodeText none (bytes t) = stripBom t) →
      ∀ t content id w, Shows s.crypto w id (storedTitle t, content) →
      ∀ headers log w' page, Runs Store.answer w (editForm s id headers) log w' (.ok page) →
      ∀ w₁ headers₁ parts log₁ w₂ resp, Shows s.crypto w₁ id (storedTitle t, content) →
        Resubmits page parts →
        Runs Store.answer w₁ (updateRecord s id headers₁ parts) log₁ w₂ resp →
          Shows s.crypto w₂ id (storedTitle t, content) := by
  intro hall
  have hedit : ∃ log w' r,
      Runs Store.answer markedRecord (editForm .plain "r1" noHeaders) log w' r ∧
      r = .ok (formView .plain (detectLang noHeaders) "r1" "\uFEFFT" "b" []) := by
    refine exists_runs [{}, {}] ?_
    decide
  have hsave : ∃ log w₂ resp, Runs Store.answer markedRecord (updateRecord .plain "r1" noHeaders
      [.ok (formField "title" "\uFEFFT"), .ok (formField "content" "b")]) log w₂ resp ∧
        w₂.db.records.map (fun row => AppState.plain.crypto.decrypt row.blob) = [.ok ("T", "b")] := by
    simp only [formField, bytes_eq_flatMap]
    refine exists_runs [{}, {}, {}, {}, {}] ?_
    decide
  have htitle : storedTitle " \uFEFFT" = "\uFEFFT" := by decide
  have hshows : Shows AppState.plain.crypto markedRecord "r1" (storedTitle " \uFEFFT", "b") :=
    ⟨_, List.mem_cons_self, rfl, by rw [htitle]; exact plain_undoes _ _ _ _⟩
  rcases hedit with ⟨log, w', r, hedit, rfl⟩
  rcases hsave with ⟨log₁, w₂, resp, hsave, hsaved⟩
  rcases hall .plain (plain_undoes _) (plain_decodes none) " \uFEFFT" "b" "r1" _ hshows _ _ _ _
    hedit _ _ _ _ _ _ hshows (resubmits_pageForm _) hsave with ⟨row, hrow, -, hread⟩
  -- The one record has another title now.
  have hmem := List.mem_map_of_mem (f := fun row => AppState.plain.crypto.decrypt row.blob) hrow
  rw [hsaved, List.mem_singleton, hread, htitle] at hmem
  exact absurd hmem (by decide)

end Aardbin
