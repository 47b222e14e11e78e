import Aardbin.ApiRecord
import Aardbin.FormLimits
import Aardbin.Rollback

/-!
# Reading a record and posting it back

The API answers the display title of a record, and a client that posts it back stores it as the
title.  A title that was saved is its own display title; an empty title comes back as the first line
of the content or as the placeholder.
-/

namespace Aardbin

open Effect Rust

/-! ## Titles -/

/-- A title as `parse_record_form` leaves it. -/
structure SavedTitle (title : String) : Prop where
  trim : trim title = title
  truncate : truncateChars title 200 = title

theorem savedTitle_of_text (t : String) : SavedTitle (truncateChars (trim t) 200) :=
  ⟨trim_truncateChars (trim_trim t) (by decide), truncateChars_truncateChars _ _⟩

theorem textStep_fst (s : AppState) (text : String × String) (part : Except String Part) :
    (textStep s text part).1 = text.1 ∨
      ∃ t, (textStep s text part).1 = truncateChars (trim t) 200 := by
  cases part with
  | error e => exact .inl rfl
  | ok p =>
      cases htext : fieldText s p with
      | error e => simp [textStep, htext]
      | ok t =>
          simp only [textStep, htext]
          split_ifs
          · refine .inr ⟨t, ?_⟩
            dsimp only
          · exact .inl rfl
          · exact .inl rfl

theorem savedTitle_formText (s : AppState) (parts : Multipart) :
    SavedTitle (formText s parts).1 := by
  have hfold : ∀ (parts : Multipart) (text : String × String), SavedTitle text.1 →
      SavedTitle (parts.foldl (textStep s) text).1 := by
    intro parts
    induction parts with
    | nil => exact fun _ h => h
    | cons part rest ih =>
        intro text h
        refine ih _ ?_
        rcases textStep_fst s text part with heq | ⟨t, heq⟩
        · rwa [heq]
        · rw [heq]
          exact savedTitle_of_text t
  exact hfold parts ("", "") ⟨by decide, by decide⟩

theorem SavedTitle.length_le {title : String} (h : SavedTitle title) :
    title.toList.length ≤ 201 := by
  have hle := length_truncateChars_le title 200
  rwa [h.truncate] at hle

/-- A saved title is shown as it is. -/
theorem displayTitle_of_saved {title : String} (h : SavedTitle title) (hne : title ≠ "")
    (content : String) (lang : Lang) : displayTitle title content lang = (title, false) := by
  rw [displayTitle_of_title (h.trim.symm ▸ hne), h.trim, h.truncate]

/-! ## Decoding a title -/

/-- The title that is stored when `t` is posted as the title. -/
def postedTitle (t : String) : String :=
  truncateChars (trim (stripBom t)) 200

theorem postedTitle_eq_self_iff {title : String} (h : SavedTitle title) :
    postedTitle title = title ↔ title.toList.head? ≠ some bom := by
  rw [← stripBom_eq_self_iff]
  constructor
  · intro heq
    by_contra hne
    have hhead := not_not.1 (stripBom_eq_self_iff.not.1 hne)
    -- Without the mark the title is shorter, and nothing makes it longer again.
    have hstrip : (stripBom title).toList.length = title.toList.length - 1 := by
      rw [stripBom, if_pos hhead, String.toList_ofList, List.length_tail]
    have htrim := length_trim_le (stripBom title)
    have hpos : 0 < title.toList.length := by
      cases ht : title.toList with
      | nil => simp [ht] at hhead
      | cons c rest => simp
    have hle := h.length_le
    rw [postedTitle, truncateChars_of_le (by omega)] at heq
    rw [heq] at htrim
    omega
  · intro heq
    rw [postedTitle, heq, h.trim, h.truncate]

/-- What is shown for an empty title comes back as an empty title only if it is a lone byte order
mark. -/
theorem postedTitle_eq_empty_iff {shown : String} (h : trim shown = shown) (hne : shown ≠ "") :
    postedTitle shown = "" ↔ shown = .ofList [bom] := by
  have hempty : postedTitle shown = "" ↔ ∀ c ∈ (stripBom shown).toList, isWhitespace c = true := by
    rw [postedTitle, truncateChars_eq_empty_iff, trim_eq_empty_iff]
  rw [hempty]
  constructor
  · intro hall
    by_cases hhead : shown.toList.head? = some bom
    · rw [stripBom, if_pos hhead, String.toList_ofList] at hall
      cases hchars : shown.toList with
      | nil => simp [hchars] at hhead
      | cons c rest =>
          obtain rfl : c = bom := by simpa [hchars] using hhead
          rw [← String.toList_inj, String.toList_ofList, hchars]
          -- A character after the mark would end the text, and be whitespace.
          cases hlast : rest.getLast? with
          | none => rw [List.getLast?_eq_none_iff.1 hlast]
          | some d =>
              have hd : isWhitespace d = false := by
                refine @getLast?_trim shown d ?_
                rw [h, hchars, List.getLast?_cons, hlast]
                rfl
              have hmem : d ∈ shown.toList.tail := by
                rw [hchars]
                exact List.mem_of_getLast? hlast
              rw [hall d hmem] at hd
              cases hd
    · -- Nothing is removed, so there is a character that is no whitespace.
      rw [stripBom, if_neg hhead, ← trim_eq_empty_iff, h] at hall
      exact absurd hall hne
  · rintro rfl
    simp [stripBom]

theorem truncateChars_eq_bom_iff {t : String} :
    truncateChars t 80 = .ofList [bom] ↔ t = .ofList [bom] := by
  rcases Nat.lt_or_ge 80 t.toList.length with hlt | hle
  · refine iff_of_false (fun h => ?_) fun h => ?_
    · have hlen := length_truncateChars hlt
      rw [h, String.toList_ofList] at hlen
      cases hlen
    · rw [h, String.toList_ofList] at hlt
      exact absurd hlt (by decide)
  · rw [truncateChars_of_le hle]

theorem posted_placeholder_iff (content : String) :
    postedTitle (displayTitle "" content .en).1 = "" ↔ firstLine content = .ofList [bom] := by
  rw [displayTitle_of_no_title (by decide)]
  split_ifs with hline
  · have htrim : trim (truncateChars (firstLine content) 80) = truncateChars (firstLine content) 80 :=
      trim_truncateChars (trim_trim _) (by decide)
    rw [postedTitle_eq_empty_iff htrim (truncateChars_eq_empty_iff.not.2 hline),
      truncateChars_eq_bom_iff]
  · rw [not_not.1 hline]
    decide

/-- The title and content that can be read and posted back without a change. -/
def Repostable (title content : String) : Prop :=
  content.toList.head? ≠ some bom ∧
    if title = "" then firstLine content = .ofList [bom] else title.toList.head? ≠ some bom

instance (title content : String) : Decidable (Repostable title content) :=
  inferInstanceAs (Decidable (content.toList.head? ≠ some bom ∧
    if title = "" then firstLine content = .ofList [bom] else title.toList.head? ≠ some bom))

theorem posted_eq_iff {title content : String} (h : SavedTitle title) :
    postedTitle (displayTitle title content .en).1 = title ∧ stripBom content = content ↔
      Repostable title content := by
  rw [Repostable, stripBom_eq_self_iff, and_comm]
  refine and_congr_right fun _ => ?_
  by_cases hne : title = ""
  · subst hne
    rw [if_pos rfl]
    exact posted_placeholder_iff content
  · rw [if_neg hne, displayTitle_of_saved h hne]
    exact postedTitle_eq_self_iff h

/-! ## Posting the form -/

theorem formText_files (s : AppState) (text : String × String) {files : List Part}
    (h : ∀ p ∈ files, p.name = some "files") :
    (files.map .ok).foldl (textStep s) text = text := by
  induction files with
  | nil => rfl
  | cons p rest ih =>
      have hstep : textStep s text (.ok p) = text := by
        cases htext : fieldText s p <;> simp [textStep, htext, h p List.mem_cons_self]
      rw [List.map_cons, List.foldl_cons, hstep]
      exact ih fun q hq => h q (List.mem_cons_of_mem _ hq)

theorem formText_repostForm {s : AppState} {record : ApiRecord} {files : List Part}
    (hdecode : ∀ t ∈ [record.title, record.content],
      s.vendor.decodeText none (bytes t) = stripBom t)
    (hfiles : ∀ p ∈ files, p.name = some "files") :
    formText s ((repostForm record files).map .ok) =
      (postedTitle record.title, stripBom record.content) := by
  have hfield : ∀ name t, t ∈ [record.title, record.content] →
      fieldText s (formField name t) = .ok (stripBom t) := by
    intro name t ht
    rw [← hdecode t ht]
    simp [fieldText, formField, Part.bytes]
  have htitle : textStep s ("", "") (.ok (formField "title" record.title)) =
      (postedTitle record.title, "") := by
    simp only [textStep, hfield "title" _ List.mem_cons_self]
    rfl
  have hcontent : textStep s (postedTitle record.title, "")
      (.ok (formField "content" record.content)) =
        (postedTitle record.title, stripBom record.content) := by
    simp only [textStep, hfield "content" record.content (by simp)]
    rfl
  calc
    formText s ((repostForm record files).map .ok)
        = (files.map .ok).foldl (textStep s)
            (textStep s (textStep s ("", "") (.ok (formField "title" record.title)))
              (.ok (formField "content" record.content))) := by
            rw [formText, repostForm, List.map_cons, List.map_cons, List.foldl_cons,
              List.foldl_cons]
    _ = (files.map .ok).foldl (textStep s) (postedTitle record.title, stripBom record.content) := by
        rw [htitle, hcontent]
    _ = (postedTitle record.title, stripBom record.content) := formText_files s _ hfiles

/-- Without failures a form within the limits becomes a new record. -/
theorem wp_createWith_calm (s : AppState) (headers : HeaderMap) {ps : List Part}
    (hwhole : ∀ p ∈ ps, p.Whole) (haccepted : Accepted s ps (contentLength headers))
    (failed : Response) (done : String → Response) (w : Store) :
    wp (answeringWhere (fun e _ => e.fault = false) Store.answer)
      (createWith s headers (ps.map .ok) failed done)
      (fun resp w' => ∃ id nonce row, resp = done id ∧ id ∉ w.db.recordIds ∧
        w'.db.getRecord id = some row ∧ row.blob = s.crypto.encrypt nonce
          (formText s (ps.map .ok)).1 (formText s (ps.map .ok)).2) w := by
  simp only [createWith, wp_bind]
  refine wp_mono (wp_with_uses (wp_parseRecordForm_files (fun _ _ h _ => h) (ps.map .ok) _ w)
    (uses_parseRecordForm s (ps.map .ok) _)) ?_
  rintro r w₁ ⟨htext, hr⟩
  cases r with
  | error resp =>
      exact absurd (fits_iff_accepted.2 haccepted) (hr.2 (fun _ _ h => h) (whole_map hwhole))
  | ok form =>
      have hfiled := hr.1
      simp only [wp_bind, wp_perform]
      refine ⟨trivial, ?_⟩
      rintro id w₂ ⟨e, hfault, hans⟩
      rcases Store.answer_newV4 hans with ⟨hfresh, rfl⟩
      refine ⟨trivial, ?_⟩
      rintro ts w₂ ⟨e₂, -, hans⟩
      cases hans
      refine ⟨trivial, ?_⟩
      rintro nonce w₂ ⟨e₃, -, hans⟩
      cases hans
      refine ⟨trivial, ?_⟩
      rintro r w₂ ⟨e₄, hfault₄, hans⟩
      rcases Store.answer_createRecord_calm hans hfault₄ hfresh.record with ⟨rfl, db, hdb, rfl⟩
      rcases Db.createRecord_eq_ok hdb with ⟨-, hrecords, hatt⟩
      simp only [wp_bind]
      refine wp_mono (wp_calm_of_mishap (wp_insertUploads_mishap id e₂.now form.uploads _
        ?_ hfiled.nodup ?_)) ?_
      · simp [Db.recordIds, hrecords]
      · intro u hu
        rw [Db.attachmentIds, hatt, hfiled.db]
        exact hfiled.unlisted u hu
      · intro r w₃ hr
        cases r with
        | error err =>
            -- An insert fails only with a fault.
            rcases hr.failed with ⟨a, ha⟩
            cases ha
        | ok _ =>
            simp only [wp_bind, wp_perform]
            refine ⟨trivial, ?_⟩
            rintro _ w₄ ⟨e₅, -, hans⟩
            cases hans
            have hid : id ∉ w.db.recordIds := by
              rw [← hfiled.db]
              exact hfresh.record
            have hrow : w₃.db.getRecord id = db.getRecord id := by
              rw [Db.getRecord, hr.2]
              rfl
            rw [← htext form rfl]
            exact ⟨id, e₃.nonce, _, rfl, hid,
              hrow.trans (Db.getRecord_createRecord hdb), rfl⟩

/-! ## Reading and posting back -/

/-- Title and content of some form that was accepted. -/
def SavedText (title content : String) : Prop :=
  ∃ s parts len w tr w' form, Runs Store.answer w (parseRecordForm s parts len) tr w' (.ok form) ∧
    form.title = title ∧ form.content = content

theorem SavedText.title {title content : String} (h : SavedText title content) :
    SavedTitle title := by
  rcases h with ⟨s, parts, len, w, tr, w', form, hrun, rfl, -⟩
  have htext := hrun.of_uses (uses_parseRecordForm s parts len) form rfl
  have htitle := savedTitle_formText s parts
  rwa [← htext] at htitle

/-- The request has made a new record with this title, this content and their untitled flag. -/
def Recreates (s : AppState) (w w' : Store) (resp : Response) (title content : String) : Prop :=
  ∃ id row title' content', resp = apiCreated id ∧ id ∉ w.db.recordIds ∧
    w'.db.getRecord id = some row ∧ s.crypto.decrypt row.blob = .ok (title', content') ∧
    title' = title ∧ content' = content ∧
    (displayTitle title' content' .en).2 = (displayTitle title content .en).2

/-- A record that is read and posted back comes out the same exactly when it is `Repostable`. -/
theorem recreates_iff_repostable (s : AppState) (hundoes : s.crypto.Undoes) {w w₁ w₂ w₃ : Store}
    {tr tr₂ : List (Asked Reply Env)} {id : String} {record : ApiRecord} {row : RecordRow}
    {title content : String} {files ps : List Part} {headers : HeaderMap} {resp : Response}
    (hrow : w.db.getRecord id = some row) (hread : s.crypto.decrypt row.blob = .ok (title, content))
    (hsaved : SavedText title content)
    (hget : Runs Store.answer w (apiGetRecord s id) tr w₁ (.ok record))
    (hdecode : ∀ t ∈ [record.title, record.content],
      s.vendor.decodeText none (bytes t) = stripBom t)
    (hfiles : ∀ p ∈ files, p.name = some "files" ∧ p.broken = none)
    (hform : List.Forall₂ Part.SameContent (repostForm record files) ps)
    (hwhole : ∀ p ∈ ps, p.Whole) (hlimits : Accepted s ps (contentLength headers))
    (hpost : Runs Store.answer w₂ (handle s (.apiCreate headers (ps.map .ok))) tr₂ w₃ resp)
    (hcalm : ∀ x ∈ tr₂, x.env.fault = false) :
    Recreates s w₂ w₃ resp title content ↔ Repostable title content := by
  -- The record that was read is the row that was saved.
  rcases apiGetRecord_eq_ok hget with ⟨row', attachments, hrow', hrecord⟩
  obtain rfl : row' = row := Option.some.inj (hrow'.symm.trans hrow)
  rcases decryptRecord_eq_ok hrecord with ⟨title', hread', hshown, -⟩
  rw [hread, Except.ok.injEq, Prod.mk.injEq] at hread'
  rcases hread' with ⟨rfl, rfl⟩
  -- What the posted form holds.
  have htext : formText s (ps.map .ok) =
      (postedTitle (displayTitle title record.content .en).1, stripBom record.content) := by
    rw [← hshown, ← formText_repostForm hdecode fun p hp => (hfiles p hp).1]
    refine (formText_of_same hform ?_ hwhole).symm
    simp only [repostForm, List.forall_mem_cons]
    exact ⟨rfl, rfl, fun p hp => (hfiles p hp).2⟩
  have hpost' : Runs Store.answer w₂ (createWith s headers (ps.map .ok)
      (jsonError .internalServerError "internal error") apiCreated) tr₂ w₃ resp := hpost
  rcases hpost'.of_wpWhere hcalm (wp_createWith_calm s headers hwhole hlimits _ _ w₂) with
    ⟨id', nonce, new, rfl, hid', hnew, hblob⟩
  simp only [htext] at hblob
  have hnewtext := hundoes nonce (postedTitle (displayTitle title record.content .en).1)
    (stripBom record.content)
  rw [← hblob] at hnewtext
  rw [← posted_eq_iff hsaved.title]
  constructor
  · rintro ⟨id₂, row₂, title₂, content₂, hresp, -, hrow₂, hread₂, rfl, rfl, -⟩
    obtain rfl : id' = id₂ := Body.jsonCreated.inj (Response.mk.inj hresp).2.2
    obtain rfl : new = row₂ := Option.some.inj (hnew.symm.trans hrow₂)
    rw [hnewtext, Except.ok.injEq, Prod.mk.injEq] at hread₂
    exact hread₂
  · rintro ⟨htitle, hcontent⟩
    rw [htitle, hcontent] at hnewtext
    exact ⟨id', new, title, record.content, rfl, hid', hnew, hnewtext, rfl, rfl, rfl⟩

/-- The record of `oneRecord`, as it is read. -/
def oneApiRecord : ApiRecord :=
  { id := "r1", title := "a", content := "b", untitled := false, updatedAt := 0, createdAt := 0
    attachments := [] }

/-- A title, a content and a file of one byte. -/
def reposted (title content : String) : List Part :=
  [textPart "title" title, textPart "content" content, filePart "a.bin" [1]]

theorem recreates_iff_repostable_run : ∃ tr₂ w₃ resp,
    Runs Store.answer oneRecord
      (handle .plain (.apiCreate noHeaders ((reposted "a" "b").map .ok))) tr₂ w₃ resp ∧
    Recreates .plain oneRecord w₃ resp "a" "b" := by
  have hget : ∃ tr w₁ r, Runs Store.answer oneRecord (apiGetRecord .plain "r1") tr w₁ r ∧
      r = .ok oneApiRecord := by
    refine exists_runs [{}, {}] ?_
    decide
  have hsaved : ∃ tr w' r, Runs Store.answer .empty
      (parseRecordForm .plain (form "a" "b" []) none) tr w' r ∧
        r = .ok { title := "a", content := "b", uploads := [] } := by
    refine exists_runs [] ?_
    decide
  have hread : ∃ tr w' r, Runs Store.answer .empty
      (parseRecordForm .plain ((reposted "a" "b").map .ok) none) tr w' r ∧
        (∀ x ∈ tr, x.env.fault = false) ∧ r.isOk = true := by
    refine exists_runs [{ uuid := "f1" }, {}, {}] ?_
    decide
  have hpost : ∃ tr₂ w₃ resp, Runs Store.answer oneRecord
      (handle .plain (.apiCreate noHeaders ((reposted "a" "b").map .ok))) tr₂ w₃ resp ∧
        ∀ x ∈ tr₂, x.env.fault = false := by
    refine exists_runs [{ uuid := "f1" }, {}, {}, { uuid := "r2" }, {}, {}, {}, {}, {}] ?_
    decide
  have hwhole : ∀ p ∈ reposted "a" "b", p.Whole := by
    simp [reposted, textPart, filePart, Part.Whole]
  have hlimits : Accepted .plain (reposted "a" "b") (contentLength noHeaders) := by
    rcases hread with ⟨tr, w', r, hrun, hcalm, hok⟩
    refine (accepted_iff hwhole hrun hcalm).1 ?_
    cases r with
    | ok form => exact ⟨form, rfl⟩
    | error resp => cases hok
  have hdecode : ∀ t ∈ [oneApiRecord.title, oneApiRecord.content],
      AppState.plain.vendor.decodeText none (bytes t) = stripBom t :=
    fun t _ => plain_decodes none t
  have hform : List.Forall₂ Part.SameContent (cmdUpload oneApiRecord "a.bin" [1])
      (reposted "a" "b") := by
    refine .cons ⟨rfl, rfl, rfl, ?_⟩ (.cons ⟨rfl, rfl, rfl, ?_⟩ (.cons ⟨rfl, rfl, rfl, rfl⟩ .nil))
    all_goals
      simp only [formField, Part.bytes, bytes_eq_flatMap]
      decide
  rcases hget with ⟨tr, w₁, r, hget, rfl⟩
  rcases hsaved with ⟨tr', w', r', hsaved, rfl⟩
  rcases hpost with ⟨tr₂, w₃, resp, hpost, hcalm⟩
  refine ⟨tr₂, w₃, resp, hpost, ?_⟩
  refine (recreates_iff_repostable .plain (plain_undoes _) rfl (by decide)
    ⟨_, _, _, _, _, _, _, hsaved, rfl, rfl⟩ hget hdecode ?_ hform hwhole hlimits hpost hcalm).2 ?_
  · simp
  · decide

/-- A record without a title. -/
def untitledRecord : Store :=
  { Store.empty with
    db :=
      { Db.empty with
        records := [{ id := "r1", blob := AppState.plain.crypto.encrypt Plain.nonce "" "x"
                      createdAt := 0, updatedAt := 0 }]
        recordsKey := by simp
        foreignKey := by simp } }

/-- The first line of the content, which is shown for the title, is posted and stored as the title. -/
theorem untitled_gets_title : SavedText "" "x" ∧
    AppState.plain.crypto.decrypt (AppState.plain.crypto.encrypt Plain.nonce "" "x") = .ok ("", "x") ∧
    ∃ tr w₁ record ps tr₂ w₃ resp,
      Runs Store.answer untitledRecord (apiGetRecord .plain "r1") tr w₁ (.ok record) ∧
      List.Forall₂ Part.SameContent (cmdUpload record "a.bin" [1]) ps ∧
      Runs Store.answer untitledRecord (handle .plain (.apiCreate noHeaders (ps.map .ok))) tr₂ w₃
        resp ∧ (∀ x ∈ tr₂, x.env.fault = false) ∧ resp.Success ∧
      ¬ Recreates .plain untitledRecord w₃ resp "" "x" := by
  have hsaved : ∃ tr w' r, Runs Store.answer .empty
      (parseRecordForm .plain (form "" "x" []) none) tr w' r ∧
        r = .ok { title := "", content := "x", uploads := [] } := by
    refine exists_runs [] ?_
    decide
  have hget : ∃ tr w₁ r, Runs Store.answer untitledRecord (apiGetRecord .plain "r1") tr w₁ r ∧
      r = .ok { id := "r1", title := "x", content := "x", untitled := false, updatedAt := 0
                createdAt := 0, attachments := [] } := by
    refine exists_runs [{}, {}] ?_
    decide
  have hpost : ∃ tr₂ w₃ resp, Runs Store.answer untitledRecord
      (handle .plain (.apiCreate noHeaders ((reposted "x" "x").map .ok))) tr₂ w₃ resp ∧
        (∀ x ∈ tr₂, x.env.fault = false) ∧ resp = apiCreated "r2" ∧
        (w₃.db.getRecord "r2").map (fun row => AppState.plain.crypto.decrypt row.blob) =
          some (.ok ("x", "x")) := by
    refine exists_runs [{ uuid := "f1" }, {}, {}, { uuid := "r2" }, {}, {}, {}, {}, {}] ?_
    decide
  rcases hsaved with ⟨tr', w', r', hsaved, rfl⟩
  rcases hget with ⟨tr, w₁, r, hget, rfl⟩
  rcases hpost with ⟨tr₂, w₃, resp, hpost, hcalm, rfl, htext⟩
  refine ⟨⟨_, _, _, _, _, _, _, hsaved, rfl, rfl⟩, by decide, tr, w₁, _, reposted "x" "x", tr₂, w₃, _,
    hget, ?_, hpost, hcalm, rfl, ?_⟩
  · refine .cons ⟨rfl, rfl, rfl, ?_⟩ (.cons ⟨rfl, rfl, rfl, ?_⟩ (.cons ⟨rfl, rfl, rfl, rfl⟩ .nil))
    all_goals
      simp only [formField, Part.bytes, bytes_eq_flatMap]
      decide
  · rintro ⟨id, row, title, content, hresp, -, hrow, hread, rfl, -⟩
    obtain rfl : "r2" = id := Body.jsonCreated.inj (Response.mk.inj hresp).2.2
    simp only [hrow, Option.map_some, hread, Option.some.injEq, Except.ok.injEq,
      Prod.mk.injEq] at htext
    exact absurd htext.1 (by decide)

end Aardbin
