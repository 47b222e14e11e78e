import Aardbin.Bin.Abstraction

/-!
# The program refines the bin

Requests are handled one at a time, with restarts between them, and any call but `remove_file` may
fail.  Each handler is proved against one constructor of the specification, and the library's rule
carries that over to a lifetime.
-/

namespace Aardbin

open Effect

/-! ## Reading a form -/

/-- A form that is turned down is answered with an error, and one that is not is intact. -/
def Decided (parts : Multipart) {α : Type} : Except Response α → Prop
  | .error resp => ¬ resp.Success
  | .ok _ => Bin.Intact parts

theorem not_success_errResponse {status : StatusCode} {msg : String}
    (h : status.isSuccess = false) : ¬ (errResponse status msg).Success := by
  simp [Response.Success, errResponse, h]

theorem not_success_internal : ¬ internal.Success :=
  not_success_errResponse rfl

theorem intact_text {p : Part} (h : p.broken = none) : Bin.Intact [.ok p] := by
  intro x hx
  obtain rfl := List.mem_singleton.1 hx
  exact ⟨p, rfl, fun _ => h⟩

theorem intact_other {p : Part} (htext : ¬ (p.name = some "title" ∨ p.name = some "content"))
    (hup : p.isUpload = false) : Bin.Intact [.ok p] := by
  intro x hx
  obtain rfl := List.mem_singleton.1 hx
  refine ⟨p, rfl, ?_⟩
  rintro (h | h | h)
  · exact absurd (.inl h) htext
  · exact absurd (.inr h) htext
  · rw [hup] at h
    cases h

theorem uses_reject_decided {α : Type} (us : List PendingUpload) {resp : Response}
    {R : Except Response α → Prop} (h : R (.error resp)) :
    Uses (fun _ => True) R (reject us resp) :=
  (uses_reject us resp h).mono (fun _ _ => trivial) fun _ hr => hr

theorem uses_writeChunks_decided (s : AppState) (filename id : String) (broken : Option String)
    (chunks : List Bytes) (size totalBytes : Nat) :
    Uses (fun _ => True) (fun r => match r.1 with
        | some resp => ¬ resp.Success
        | none => broken = none)
      (writeChunks s filename id broken chunks size totalBytes) := by
  induction chunks generalizing size totalBytes with
  | nil =>
      cases broken with
      | none => exact .pure rfl
      | some e => exact .pure (not_success_errResponse rfl)
  | cons chunk rest ih =>
      simp only [writeChunks]
      split_ifs
      · exact .pure (not_success_errResponse rfl)
      · exact .pure (not_success_errResponse rfl)
      · refine Uses.bind (.perform trivial fun _ => trivial) fun r _ => ?_
        cases r with
        | error e => exact .pure not_success_internal
        | ok _ => exact ih _ _

theorem uses_readFileField_decided (s : AppState) (acc : FormState) {p : Part}
    (hname : p.name = some "files") :
    Uses (fun _ => True) (Decided [.ok p]) (readFileField s acc p) := by
  have htext : ¬ (p.name = some "title" ∨ p.name = some "content") := by
    simp [hname]
  cases hfile : p.fileName with
  | none =>
      simp only [readFileField, hfile]
      exact .pure (intact_other htext (by simp [Part.isUpload, Part.upload?, hfile]))
  | some filename =>
      simp only [readFileField, hfile]
      split_ifs with hempty
      · exact .pure (intact_other htext (by simp [Part.isUpload, Part.upload?, hfile, hempty]))
      · exact uses_reject_decided _ (not_success_errResponse rfl)
      · refine Uses.bind (.perform trivial fun _ => trivial) fun r _ => ?_
        cases r with
        | error e => exact uses_reject_decided _ not_success_internal
        | ok id =>
            refine Uses.bind (uses_writeChunks_decided s filename id p.broken p.chunks 0 _) ?_
            rintro ⟨failed, size, totalBytes⟩ hchunks
            cases failed with
            | some resp =>
                exact Uses.bind (.perform trivial fun _ => trivial) fun _ _ =>
                  uses_reject_decided _ hchunks
            | none =>
                refine Uses.bind (.perform trivial fun _ => trivial) fun r _ => ?_
                cases r with
                | error e =>
                    exact Uses.bind (.perform trivial fun _ => trivial) fun _ _ =>
                      uses_reject_decided _ not_success_internal
                | ok _ => exact .pure (intact_text hchunks)

theorem uses_readField_decided (s : AppState) (acc : FormState) (p : Part) :
    Uses (fun _ => True) (Decided [.ok p]) (readField s acc p) := by
  simp only [readField, Part.getD_name_eq_iff (show "title" ≠ "" by decide),
    Part.getD_name_eq_iff (show "content" ≠ "" by decide),
    Part.getD_name_eq_iff (show "files" ≠ "" by decide)]
  split_ifs with htext hfiles
  · unfold readTextField fieldText
    cases hbroken : p.broken with
    | some e => exact uses_reject_decided _ (not_success_errResponse rfl)
    | none =>
        dsimp only
        split_ifs
        · exact uses_reject_decided _ (not_success_errResponse rfl)
        · exact uses_reject_decided _ (not_success_errResponse rfl)
        · exact .pure (intact_text hbroken)
        · exact .pure (intact_text hbroken)
  · exact uses_readFileField_decided s acc hfiles
  · have hintact : Bin.Intact [.ok p] := by
      refine intact_other htext ?_
      simp [Part.isUpload, Part.upload?, hfiles]
    split <;> exact .pure hintact

theorem uses_readFields_decided (s : AppState) (parts : Multipart) (acc : FormState) :
    Uses (fun _ => True) (Decided parts) (readFields s parts acc) := by
  induction parts generalizing acc with
  | nil => exact .pure fun x hx => by cases hx
  | cons part rest ih =>
      cases part with
      | error e => exact uses_reject_decided _ (not_success_errResponse rfl)
      | ok p =>
          refine Uses.bind (uses_readField_decided s acc p) fun r hr => ?_
          cases r with
          | error resp => exact .pure hr
          | ok acc' =>
              refine (ih acc').mono (fun _ _ => trivial) fun r hrest => ?_
              cases r with
              | error resp => exact hrest
              | ok _ =>
                  intro x hx
                  rcases List.mem_cons.1 hx with rfl | hx
                  · exact hr _ List.mem_cons_self
                  · exact hrest x hx

theorem uses_parseRecordForm_decided (s : AppState) (parts : Multipart) (len : Option Nat) :
    Uses (fun _ => True) (Decided parts) (parseRecordForm s parts len) := by
  unfold parseRecordForm
  split_ifs
  · exact .pure (not_success_errResponse rfl)
  · refine Uses.bind (uses_readFields_decided s parts {}) fun r hr => ?_
    cases r with
    | error resp => exact .pure hr
    | ok acc => exact .pure hr

/-! ## The environment -/

/-- `remove_file` succeeds, and where it is `calm` every other call does too. -/
def Tame (calm : Prop) (e : Env) (op : Call) : Prop :=
  Removes e op ∧ (calm → e.fault = false)

abbrev taming (calm : Prop) : Protocol Reply Store :=
  answeringWhere (Tame calm) Store.answer

section Handlers

variable {s : AppState} {calm : Prop} {w w' : Store}

/-- A call of the database that is refused by no constraint fails only where it is not calm. -/
theorem not_calm_of_error {e : Env} {c : DbCall} {err : DbError} (he : Tame calm e (.db c))
    (hans : w.answer e (.db c) = some (.error err, w')) (hexec : w.db.exec c ≠ .error err) :
    w' = w ∧ ¬ calm := by
  rcases Store.answer_db_error hans with ⟨rfl, hfault | herr⟩
  · exact ⟨rfl, fun hcalm => by simp [he.2 hcalm] at hfault⟩
  · exact absurd herr hexec

theorem wp_cleanupUploads_bin {c : Crypto} (us : List PendingUpload) (hsound : Sound c w)
    (hunlisted : ∀ u ∈ us, u.id ∉ w.db.attachmentIds) :
    wp (taming calm) (cleanupUploads us) (fun _ w' => Sound c w' ∧ w'.bin c = w.bin c) w := by
  refine wp_cleanupUploads_files id ?_ (fun _ _ => trivial) us w fun files _ hfiles => ?_
  · rintro w id r w' ⟨e, he, hans⟩
    exact Store.answer_deleteAttachment_calm hans (he.1 trivial)
  · have hsame : ∀ a ∈ w.db.attachments, files.attachments a.id = w.files.attachments a.id := by
      intro a ha
      refine (hfiles a.id).trans (if_neg fun hmem => ?_)
      rcases List.mem_map.1 hmem with ⟨u, hu, hid⟩
      exact hunlisted u hu (hid ▸ List.mem_map_of_mem ha)
    exact ⟨hsound.congr rfl hsame, bin_congr rfl hsame⟩

/-! ## Forms -/

theorem Filed.others_rows {us : List PendingUpload} {ps : List Part} (h : Filed s w us ps w') :
    ∀ a ∈ w.db.attachments, w'.files.attachments a.id = w.files.attachments a.id := by
  intro a ha
  refine h.others _ fun hmem => ?_
  rcases List.mem_map.1 hmem with ⟨u, hu, hid⟩
  exact h.unlisted u hu (hid ▸ List.mem_map_of_mem ha)

theorem Filed.bin {c : Crypto} {us : List PendingUpload} {ps : List Part}
    (h : Filed s w us ps w') : w'.bin c = w.bin c :=
  bin_congr h.db h.others_rows

/-- The uploads of an accepted form are the files that it holds. -/
theorem Filed.uploads {c : Crypto} {us : List PendingUpload} {parts : Multipart}
    (h : Filed s w us (fileParts parts) w') (recordId : String) (ts : Int) :
    Bin.Uploads s parts (w.bin c) recordId ts (us.map (upload w' recordId ts)) where
  nodup := by
    rw [List.map_map]
    exact h.nodup
  fresh := by
    intro u hu
    rcases List.mem_map.1 hu with ⟨v, hv, rfl⟩
    exact files_eq_none (h.unlisted v hv)
  stored := by
    have hholds := h.holds
    clear h
    generalize fileParts parts = ps at hholds ⊢
    induction hholds with
    | nil => rfl
    | @cons u p us ps hhead _ ih =>
        have hfirst : (upload w' recordId ts u).2 = Part.stored s recordId ts p := by
          simp [upload, AttachmentRow.attachment, attachmentRow, Part.stored, hhead.file,
            hhead.filename, hhead.mimeType]
        rw [List.map_cons, List.map_cons, List.map_cons, ih, hfirst]

/-- Reading a form leaves the bin, whatever comes of it. -/
theorem wp_parseRecordForm_bin (hsound : Sound s.crypto w) (headers : HeaderMap)
    (parts : Multipart) :
    wp (taming calm) (parseRecordForm s parts (contentLength headers)) (fun r w₁ =>
      match r with
      | .error resp => Sound s.crypto w₁ ∧ w₁.bin s.crypto = w.bin s.crypto ∧
          Bin.MayRefuse s calm headers parts ∧ ¬ resp.Success
      | .ok form => Filed s w form.uploads (fileParts parts) w₁ ∧
          (form.title, form.content) = formText s parts ∧ Bin.MayStore s headers parts) w := by
  have hdb : wp (taming calm) (parseRecordForm s parts (contentLength headers))
      (fun _ w₁ => w₁.db = w.db) w := by
    refine wp_keeps (fun w₁ => w₁.db = w.db) (fun _ _ _ _ => trivial) ?_
      (uses_parseRecordForm s parts _) rfl fun _ _ _ h => h
    rintro w₁ op r w₂ h hop ⟨e, -, hans⟩
    cases op with
    | file c => exact (Store.db_answerFile hans).trans h
    | _ => exact hop.elim
  refine wp_mono (wp_and hdb (wp_with_uses (wp_with_uses
    (wp_parseRecordForm_files (fun _ _ h => h.1) parts (contentLength headers) w)
    (uses_parseRecordForm s parts _)) (uses_parseRecordForm_decided s parts _))) ?_
  rintro r w₁ ⟨hsame, hdecided, htext, hresult⟩
  cases r with
  | error resp =>
      rcases hresult with ⟨hfiles, hlimits⟩
      have hrows : ∀ a ∈ w.db.attachments,
          w₁.files.attachments a.id = w.files.attachments a.id := by
        intro a _
        rw [hfiles]
      refine ⟨hsound.congr hsame hrows, bin_congr hsame hrows, ?_, hdecided⟩
      rintro hcalm ps rfl hwhole haccepted
      exact hlimits (fun _ _ h => h.2 hcalm) (whole_map hwhole) (fits_iff_accepted.2 haccepted)
  | ok form =>
      refine ⟨hresult.1, htext form rfl, hdecided, ?_⟩
      rintro ps rfl hwhole
      exact fits_iff_accepted.1 (hresult.2 (whole_map hwhole))

/-! ## Entering the uploads -/

/-- `w'` is `w` with rows for the uploads `us`. -/
structure Inserted (w : Store) (recordId : String) (ts : Int) (us : List PendingUpload)
    (w' : Store) : Prop where
  records : w'.db.records = w.db.records
  attachments : w'.db.attachments = w.db.attachments ++ us.map (attachmentRow recordId ts)
  files : ∀ a ∈ w'.db.attachments, w'.files.attachments a.id = w.files.attachments a.id

/-- The uploads have no row yet, and their files are there. -/
structure Ready (w : Store) (us : List PendingUpload) : Prop where
  nodup : (us.map (·.id)).Nodup
  unlisted : ∀ u ∈ us, u.id ∉ w.db.attachmentIds
  holds : ∀ u ∈ us, ∃ bytes, w.files.attachments u.id = some bytes ∧ u.size = bytes.length

theorem Filed.ready {us : List PendingUpload} {ps : List Part} (h : Filed s w us ps w') :
    Ready w' us where
  nodup := h.nodup
  unlisted := by
    rw [h.db]
    exact h.unlisted
  holds := by
    have hholds := h.holds
    clear h
    induction hholds with
    | nil => simp
    | @cons u p us ps hhead _ ih => exact List.forall_mem_cons.2 ⟨⟨_, hhead.file, hhead.size⟩, ih⟩

namespace Inserted

variable {c : Crypto} {recordId : String} {ts : Int} {us : List PendingUpload}

theorem bin (h : Inserted w recordId ts us w') (hready : Ready w us) :
    w'.bin c = (w.bin c).addFiles (us.map (upload w recordId ts)) := by
  refine bin_addRows hready.nodup hready.unlisted ?_ h.records h.attachments h.files
  intro u hu
  rcases hready.holds u hu with ⟨bytes, hbytes, -⟩
  simp [hbytes]

theorem sound (h : Inserted w recordId ts us w') (hready : Ready w us) (hsound : Sound c w) :
    Sound c w' := by
  refine ⟨h.records ▸ hsound.reads, fun a ha => ?_⟩
  rw [h.files a ha]
  rw [h.attachments, List.mem_append, List.mem_map] at ha
  rcases ha with ha | ⟨u, hu, rfl⟩
  · exact hsound.holds a ha
  · rcases hready.holds u hu with ⟨bytes, hbytes, hsize⟩
    exact ⟨bytes, hbytes, by simp [attachmentRow, hsize]⟩

end Inserted

theorem Ready.append_left {us after : List PendingUpload} {u : PendingUpload}
    (h : Ready w (us ++ u :: after)) : Ready w us where
  nodup := by
    have hnodup := h.nodup
    rw [List.map_append] at hnodup
    exact hnodup.of_append_left
  unlisted := fun v hv => h.unlisted v (List.mem_append_left _ hv)
  holds := fun v hv => h.holds v (List.mem_append_left _ hv)

/-- The result of `insert_uploads`. -/
def InsertResult (calm : Prop) (w : Store) (recordId : String) (ts : Int)
    (us : List PendingUpload) : Except DbError Unit → Store → Prop
  | .ok _, w' => Inserted w recordId ts us w'
  | .error _, w' => ¬ calm ∧ ∃ before u after, us = before ++ u :: after ∧
      Inserted w recordId ts before w'

theorem wp_insertUploads_rows (recordId : String) (ts : Int) (us : List PendingUpload) (w : Store)
    (hrecord : recordId ∈ w.db.recordIds) (hready : Ready w us) :
    wp (taming calm) (insertUploads recordId ts us) (InsertResult calm w recordId ts us) w := by
  induction us generalizing w with
  | nil => exact ⟨rfl, by simp, fun _ _ => rfl⟩
  | cons u rest ih =>
      have hnodup := hready.nodup
      simp only [List.map_cons, List.nodup_cons] at hnodup
      simp only [insertUploads, wp_bind, wp_perform]
      refine ⟨trivial, ?_⟩
      rintro r w₁ ⟨e, he, hans⟩
      cases r with
      | error err =>
          have hexec : w.db.exec (.insertAttachment (attachmentRow recordId ts u)) ≠ .error err := by
            intro herr
            rcases Db.of_exec_insertAttachment_error herr with hkey | href
            · exact hready.unlisted u List.mem_cons_self hkey
            · exact href hrecord
          rcases not_calm_of_error he hans hexec with ⟨rfl, hcalm⟩
          simp only [wp_bind, wp_perform]
          refine ⟨trivial, ?_⟩
          rintro r w₂ ⟨e', he', hans⟩
          obtain rfl := Store.answer_deleteAttachment_calm hans (he'.1 trivial)
          -- The failure is here: the file of this upload is removed, and it has no row.
          refine ⟨hcalm, [], u, rest, rfl, rfl, by simp, fun a ha => ?_⟩
          refine Function.update_of_ne (fun hid => ?_) _ _
          exact hready.unlisted u List.mem_cons_self (hid ▸ List.mem_map_of_mem ha)
      | ok _ =>
          rcases Store.answer_db_ok hans with ⟨db, -, hexec, rfl⟩
          rcases Db.insertAttachment_eq_ok (Db.of_exec_insertAttachment hexec) with
            ⟨-, -, hrecords, hrows⟩
          have hrest : Ready { w with db } rest := by
            refine ⟨hnodup.2, fun v hv hmem => ?_, fun v hv =>
              hready.holds v (List.mem_cons_of_mem _ hv)⟩
            simp only [Db.attachmentIds, hrows, List.map_append, List.mem_append, List.map_cons,
              List.map_nil, List.mem_singleton] at hmem
            rcases hmem with hmem | hid
            · exact hready.unlisted v (List.mem_cons_of_mem _ hv) hmem
            · exact hnodup.1 (List.mem_map.2 ⟨v, hv, hid⟩)
          have hthen : ∀ {us : List PendingUpload} {w' : Store},
              Inserted { w with db } recordId ts us w' → Inserted w recordId ts (u :: us) w' := by
            intro us w' h
            exact ⟨h.records.trans hrecords, by simp [h.attachments, hrows], h.files⟩
          refine wp_mono (ih { w with db } ?_ hrest) fun r w' hr => ?_
          · rw [Db.recordIds, hrecords]
            exact hrecord
          · cases r with
            | ok _ => exact hthen hr
            | error err =>
                rcases hr with ⟨hcalm, before, v, after, rfl, hinserted⟩
                exact ⟨hcalm, u :: before, v, after, rfl, hthen hinserted⟩

/-! ## The handlers -/

theorem Ready.of_attachments {us : List PendingUpload} (h : Ready w us)
    (hatts : w'.db.attachments = w.db.attachments) (hfiles : w'.files = w.files) : Ready w' us where
  nodup := h.nodup
  unlisted := by
    rw [Db.attachmentIds, hatts]
    exact h.unlisted
  holds := hfiles ▸ h.holds

theorem Sound.of_attachments {c : Crypto} (h : Sound c w)
    (hreads : ∀ row ∈ w'.db.records, c.Reads row.blob)
    (hatts : w'.db.attachments = w.db.attachments) (hfiles : w'.files = w.files) : Sound c w' where
  reads := hreads
  holds := by
    rw [hatts, hfiles]
    exact h.holds

/-- The uploads before the one that failed are among those of the form. -/
theorem Filed.torn {c : Crypto} {before after : List PendingUpload} {u : PendingUpload}
    {parts : Multipart} (h : Filed s w (before ++ u :: after) (fileParts parts) w')
    (recordId : String) (ts : Int) :
    Bin.Uploads s parts (w.bin c) recordId ts (before.map (upload w' recordId ts) ++
      upload w' recordId ts u :: after.map (upload w' recordId ts)) := by
  have hall := h.uploads (c := c) recordId ts
  rwa [List.map_append, List.map_cons] at hall

theorem wp_createWith_bin (hundoes : s.crypto.Undoes) (hsound : Sound s.crypto w)
    (headers : HeaderMap) (parts : Multipart) {failed : Response} (done : String → Response)
    (hfailed : ¬ failed.Success) :
    wp (taming calm) (createWith s headers parts failed done) (fun resp w' =>
      Sound s.crypto w' ∧ Bin.Creates s calm headers parts (w.bin s.crypto) failed done resp
        (w'.bin s.crypto)) w := by
  simp only [createWith, wp_bind]
  refine wp_mono (wp_parseRecordForm_bin hsound headers parts) fun r w₁ hr => ?_
  cases r with
  | error resp =>
      rcases hr with ⟨hsound₁, hbin, hrefuse, hresp⟩
      exact ⟨hsound₁, hbin ▸ .refused hrefuse hresp⟩
  | ok form =>
      rcases hr with ⟨hfiled, htext, hstore⟩
      have hsound₁ : Sound s.crypto w₁ := hsound.congr hfiled.db hfiled.others_rows
      have hback : ∀ w' : Store, w'.bin s.crypto = w₁.bin s.crypto → ¬ calm →
          Bin.Creates s calm headers parts (w.bin s.crypto) failed done failed
            (w'.bin s.crypto) := by
        intro w' hbin hcalm
        rw [hbin, hfiled.bin]
        exact .refused (fun h => absurd h hcalm) hfailed
      simp only [wp_bind, wp_perform]
      refine ⟨trivial, ?_⟩
      rintro id w₂ ⟨e₁, -, hans⟩
      rcases Store.answer_newV4 hans with ⟨hfresh, rfl⟩
      refine ⟨trivial, ?_⟩
      rintro ts w₂ ⟨e₂, -, hans⟩
      cases hans
      refine ⟨trivial, ?_⟩
      rintro nonce w₂ ⟨e₃, -, hans⟩
      cases hans
      refine ⟨trivial, ?_⟩
      rintro r w₂ ⟨e₄, he, hans⟩
      cases r with
      | error err =>
          have hexec := not_calm_of_error he hans fun herr =>
            hfresh.record (Db.of_exec_createRecord_error herr)
          rcases hexec with ⟨rfl, hcalm⟩
          simp only [wp_bind]
          refine wp_mono (wp_cleanupUploads_bin form.uploads (hsound₁.congr rfl fun _ _ => rfl)
            hfiled.ready.unlisted) ?_
          rintro _ w₃ ⟨hsound₃, hbin⟩
          exact ⟨hsound₃, hback w₃ hbin hcalm⟩
      | ok _ =>
          rcases Store.answer_db_ok hans with ⟨db, -, hexec, rfl⟩
          have hcreate := Db.of_exec_createRecord hexec
          rcases Db.createRecord_eq_ok hcreate with ⟨hid, hrecords, hatts⟩
          -- The store with the new record.
          have hread := hundoes e₃.nonce form.title form.content
          have hbin : Store.bin s.crypto { w₁ with db, issued := id :: w₁.issued } =
              (w.bin s.crypto).setRecord id (.new s parts e₂.now) := by
            rw [Bin.Record.new, ← htext, ← hfiled.bin]
            exact bin_createRecord (w := { w₁ with issued := id :: w₁.issued }) hcreate hread
          have hsound₂ : Sound s.crypto { w₁ with db, issued := id :: w₁.issued } := by
            refine hsound₁.of_attachments ?_ hatts rfl
            intro row hrow
            rw [hrecords, List.mem_append, List.mem_singleton] at hrow
            rcases hrow with hrow | rfl
            · exact hsound₁.reads row hrow
            · exact ⟨_, hread⟩
          have hready : Ready { w₁ with db, issued := id :: w₁.issued } form.uploads :=
            hfiled.ready.of_attachments hatts rfl
          have hnew : (w.bin s.crypto).records id = none := by
            rw [hsound.records_eq_none, ← hfiled.db]
            exact hid
          simp only [wp_bind]
          refine wp_mono (wp_insertUploads_rows id e₂.now form.uploads _ ?_ hready)
            fun r w₃ hr => ?_
          · simp [Db.recordIds, hrecords]
          · cases r with
            | ok _ =>
                have hinserted : Inserted _ _ _ _ w₃ := hr
                simp only [wp_bind, wp_perform]
                refine ⟨trivial, ?_⟩
                rintro _ w₄ ⟨e₅, -, hans⟩
                cases hans
                refine ⟨hinserted.sound hready hsound₂, ?_⟩
                rw [hinserted.bin hready, hbin]
                exact .stored hstore hnew (hfiled.uploads id e₂.now)
            | error err =>
                rcases hr with ⟨hcalm, before, u, after, hus, hinserted⟩
                rw [hus] at hready hfiled
                simp only [wp_bind, wp_perform]
                refine ⟨trivial, ?_⟩
                rintro r w₄ ⟨e₅, -, hans⟩
                rcases Store.answer_db hans with ⟨err', -, rfl, -⟩ | ⟨v, db', -, hdelete, -, rfl⟩
                · -- The record cannot be taken back.
                  refine ⟨hinserted.sound hready.append_left hsound₂, ?_⟩
                  rw [hinserted.bin hready.append_left, hbin]
                  exact .torn hcalm hstore hnew (hfiled.torn id e₂.now)
                · obtain rfl : db' = w₁.db := by
                    cases hdelete
                    exact Db.deleteRecord_back hid (hinserted.records.trans hrecords) rfl
                      (hatts ▸ hinserted.attachments) (by simp [attachmentRow])
                  have hrows : ∀ a ∈ w₁.db.attachments,
                      w₃.files.attachments a.id = w₁.files.attachments a.id := by
                    intro a ha
                    refine hinserted.files a ?_
                    rw [hinserted.attachments, hatts]
                    exact List.mem_append_left _ ha
                  exact ⟨hsound₁.congr rfl hrows, hback _ (bin_congr rfl hrows) hcalm⟩

theorem wp_updateRecord_bin (hundoes : s.crypto.Undoes) (hsound : Sound s.crypto w) (id : String)
    (headers : HeaderMap) (parts : Multipart) :
    wp (taming calm) (updateRecord s id headers parts) (fun resp w' =>
      Sound s.crypto w' ∧ Bin.Step s calm (w.bin s.crypto) (.update id headers parts) resp
        (w'.bin s.crypto)) w := by
  simp only [updateRecord, wp_bind, wp_perform]
  refine ⟨trivial, ?_⟩
  rintro r w₀ ⟨e₀, he, hans⟩
  rcases r with err | _ | row
  · -- Nothing has been read yet, so the answer is the same for every record.
    rcases not_calm_of_error he hans (by simp [Db.exec]) with ⟨rfl, hcalm⟩
    refine ⟨hsound, ?_⟩
    cases hr : (w₀.bin s.crypto).records id with
    | none => exact (Bin.step_update_of_none hr).2 ⟨rfl, .inr ⟨hcalm, rfl⟩⟩
    | some r =>
        refine (Bin.step_update_of_some hr).2 ?_
        exact .refused (fun h => absurd h hcalm) not_success_internal
  · rcases Store.answer_db_ok hans with ⟨db, -, hexec, rfl⟩
    rcases Prod.mk.inj (Except.ok.inj hexec) with ⟨hrow, rfl⟩
    have hnone : (w.bin s.crypto).records id = none := by
      rw [Store.bin]
      simp only [hrow, Option.bind_none]
    exact ⟨hsound, (Bin.step_update_of_none hnone).2 ⟨rfl, .inl rfl⟩⟩
  · rcases Store.answer_db_ok hans with ⟨db, -, hexec, rfl⟩
    rcases Prod.mk.inj (Except.ok.inj hexec) with ⟨hrow, rfl⟩
    rcases Db.getRecord_eq_some.1 hrow with ⟨hmem, hid⟩
    rcases hsound.reads row hmem with ⟨⟨title, content⟩, hold⟩
    have hr : row.record? s.crypto = some
        { title, content, createdAt := row.createdAt, updatedAt := row.updatedAt } :=
      RecordRow.record?_eq _ hold
    have hrec : (w.bin s.crypto).records id = some
        { title, content, createdAt := row.createdAt, updatedAt := row.updatedAt } :=
      records_bin.2 ⟨row, hmem, hid, hr⟩
    simp only [hold, wp_bind, Bin.step_update_of_some hrec]
    refine wp_mono (wp_parseRecordForm_bin hsound headers parts) fun r w₁ hform => ?_
    cases r with
    | error resp =>
        rcases hform with ⟨hsound₁, hbin, hrefuse, hresp⟩
        exact ⟨hsound₁, hbin ▸ .refused hrefuse hresp⟩
    | ok form =>
        rcases hform with ⟨hfiled, htext, hstore⟩
        have hsound₁ : Sound s.crypto w₁ := hsound.congr hfiled.db hfiled.others_rows
        have hrow₁ : w₁.db.getRecord id = some row := by
          rw [hfiled.db]
          exact hrow
        have hmem₁ : id ∈ w₁.db.recordIds := by
          rw [hfiled.db, ← hid]
          exact List.mem_map_of_mem hmem
        simp only [wp_bind, wp_perform]
        refine ⟨trivial, ?_⟩
        rintro ts w₂ ⟨e₁, -, hans⟩
        cases hans
        refine ⟨trivial, ?_⟩
        rintro nonce w₂ ⟨e₂, -, hans⟩
        cases hans
        have hread := hundoes e₂.nonce form.title form.content
        generalize s.crypto.encrypt e₂.nonce form.title form.content = blob at hread ⊢
        refine ⟨trivial, ?_⟩
        rintro r w₂ ⟨e₃, he, hans⟩
        rcases r with err | _ | _
        · rcases not_calm_of_error he hans (by simp [Db.exec]) with ⟨rfl, hcalm⟩
          simp only [wp_bind]
          refine wp_mono (wp_cleanupUploads_bin form.uploads hsound₁ hfiled.ready.unlisted) ?_
          rintro _ w₃ ⟨hsound₃, hbin⟩
          refine ⟨hsound₃, ?_⟩
          rw [hbin, hfiled.bin]
          exact .refused (fun h => absurd h hcalm) not_success_internal
        · -- The record is still there.
          rcases Store.answer_db_ok hans with ⟨db, -, hexec, -⟩
          have hfound := (Prod.mk.inj (Except.ok.inj hexec)).1
          exact absurd hmem₁ (of_decide_eq_false hfound)
        · rcases Store.answer_db_ok hans with ⟨db, -, hexec, rfl⟩
          obtain rfl : db = (w₁.db.updateRecord id blob e₁.now).2 :=
            (Prod.mk.inj (Except.ok.inj hexec)).2.symm
          have hbin : Store.bin s.crypto { w₁ with db := (w₁.db.updateRecord id blob e₁.now).2 } =
              (w.bin s.crypto).setRecord id (Bin.Record.save s parts
                { title, content, createdAt := row.createdAt, updatedAt := row.updatedAt }
                e₁.now) := by
            rw [Bin.Record.save, ← htext, ← hfiled.bin]
            exact bin_updateRecord hrow₁ hr hread
          have hsound₂ : Sound s.crypto
              { w₁ with db := (w₁.db.updateRecord id blob e₁.now).2 } := by
            refine hsound₁.of_attachments ?_ rfl rfl
            intro row' hrow'
            rcases blob_updateRecord hrow' with hblob | ⟨old, hmem', hblob⟩
            · exact ⟨_, hblob ▸ hread⟩
            · exact hblob ▸ hsound₁.reads old hmem'
          have hready : Ready
              { w₁ with db := (w₁.db.updateRecord id blob e₁.now).2 } form.uploads :=
            hfiled.ready.of_attachments rfl rfl
          simp only [wp_bind]
          refine wp_mono (wp_insertUploads_rows id e₁.now form.uploads _ ?_ hready)
            fun r w₃ hr => ?_
          · simpa [Db.updateRecord] using hmem₁
          · cases r with
            | ok _ =>
                have hinserted : Inserted _ _ _ _ w₃ := hr
                simp only [wp_bind, wp_perform]
                refine ⟨trivial, ?_⟩
                rintro _ w₄ ⟨e₄, -, hans⟩
                cases hans
                refine ⟨hinserted.sound hready hsound₂, ?_⟩
                rw [hinserted.bin hready, hbin]
                exact .stored hstore (hfiled.uploads id e₁.now)
            | error err =>
                rcases hr with ⟨hcalm, before, u, after, hus, hinserted⟩
                rw [hus] at hready hfiled
                simp only [wp_bind, wp_perform]
                refine ⟨trivial, ?_⟩
                rintro r w₄ ⟨e₄, -, hans⟩
                rcases Store.answer_db hans with ⟨err', -, rfl, -⟩ | ⟨v, db', -, hback, -, rfl⟩
                · -- The old text cannot be written back.
                  refine ⟨hinserted.sound hready.append_left hsound₂, ?_⟩
                  rw [hinserted.bin hready.append_left, hbin]
                  exact .torn hcalm hstore (hfiled.torn id e₁.now) (.inr rfl)
                · obtain rfl : db' = (w₃.db.updateRecord id row.blob row.updatedAt).2 :=
                    (Prod.mk.inj (Except.ok.inj hback)).2.symm
                  have hinserted₁ : Inserted w₁ id e₁.now before
                      { w₃ with db := (w₃.db.updateRecord id row.blob row.updatedAt).2 } :=
                    ⟨Db.updateRecord_back hrow₁ hinserted.records, hinserted.attachments,
                      hinserted.files⟩
                  have hready₁ : Ready w₁ before := hfiled.ready.append_left
                  refine ⟨hinserted₁.sound hready₁ hsound₁, ?_⟩
                  rw [hinserted₁.bin hready₁, hfiled.bin]
                  nth_rewrite 2 [← Bin.setRecord_self hrec]
                  exact .torn hcalm hstore (hfiled.torn id e₁.now) (.inl rfl)

/-- Rows that stay keep what is behind them. -/
theorem Sound.of_subset {c : Crypto} (h : Sound c w)
    (hrecords : ∀ row ∈ w'.db.records, row ∈ w.db.records)
    (hatts : ∀ a ∈ w'.db.attachments, a ∈ w.db.attachments)
    (hfiles : ∀ a ∈ w'.db.attachments, w'.files.attachments a.id = w.files.attachments a.id) :
    Sound c w' where
  reads := fun row hrow => h.reads row (hrecords row hrow)
  holds := by
    intro a ha
    rw [hfiles a ha]
    exact h.holds a (hatts a ha)

theorem wp_deleteFiles_bin {c : Crypto} (ids : List String) (hsound : Sound c w)
    (hunlisted : ∀ id ∈ ids, id ∉ w.db.attachmentIds) :
    wp (taming calm) (deleteFiles ids) (fun _ w' => Sound c w' ∧ w'.bin c = w.bin c) w := by
  induction ids generalizing w with
  | nil => exact ⟨hsound, rfl⟩
  | cons id rest ih =>
      simp only [deleteFiles, wp_bind, wp_perform]
      refine ⟨trivial, ?_⟩
      rintro r w₁ ⟨e, he, hans⟩
      obtain rfl := Store.answer_deleteAttachment_calm hans (he.1 trivial)
      have hsame : ∀ a ∈ w.db.attachments,
          (w.files.deleteAttachment id).attachments a.id = w.files.attachments a.id := by
        intro a ha
        refine Function.update_of_ne (fun hid => ?_) _ _
        exact hunlisted id List.mem_cons_self (hid ▸ List.mem_map_of_mem ha)
      refine wp_mono (ih (hsound.congr rfl hsame) fun x hx =>
        hunlisted x (List.mem_cons_of_mem _ hx)) ?_
      rintro _ w₂ ⟨hsound₂, hbin⟩
      exact ⟨hsound₂, hbin.trans (bin_congr rfl hsame)⟩

theorem wp_deleteWith_bin {c : Crypto} (hsound : Sound c w) (id : String)
    (deleted missing failed : Response) :
    wp (taming calm) (deleteWith id deleted missing failed) (fun resp w' =>
      Sound c w' ∧ Bin.Deletes calm (w.bin c) id deleted missing failed resp (w'.bin c)) w := by
  simp only [deleteWith, wp_bind, wp_perform]
  refine ⟨trivial, ?_⟩
  rintro r w₁ ⟨e, he, hans⟩
  rcases r with err | _ | ids
  · rcases not_calm_of_error he hans (by simp [Db.exec]) with ⟨rfl, hcalm⟩
    exact ⟨hsound, .failed hcalm⟩
  · rcases Store.answer_db_ok hans with ⟨db, -, hexec, rfl⟩
    rcases Db.deleteRecord_eq_none (Except.ok.inj hexec) with ⟨hid, rfl⟩
    exact ⟨hsound, .missing (hsound.records_eq_none.2 hid)⟩
  · rcases Store.answer_db_ok hans with ⟨db, -, hexec, rfl⟩
    have hdelete : w.db.deleteRecord id = (some ids, db) := Except.ok.inj hexec
    rcases Db.deleteRecord_eq_some hdelete with ⟨hid, rfl, hrecords, hatts⟩
    have hsound₁ : Sound c { w with db } := by
      refine hsound.of_subset (fun row hrow => ?_) (fun a ha => ?_) fun _ _ => rfl
      · rw [hrecords] at hrow
        exact (List.mem_filter.1 hrow).1
      · rw [hatts] at ha
        exact (List.mem_filter.1 ha).1
    simp only [wp_bind]
    refine wp_mono (wp_deleteFiles_bin _ hsound₁ ?_) ?_
    · -- The rows of the deleted files are gone.
      intro x hx hmem
      rcases List.mem_map.1 hx with ⟨a, ha, rfl⟩
      rcases List.mem_map.1 hmem with ⟨b, hb, hba⟩
      rw [hatts] at hb
      rcases List.mem_filter.1 ha with ⟨ha, hrecord⟩
      rcases List.mem_filter.1 hb with ⟨hb, hother⟩
      rw [Db.eq_of_attachment_id hb ha hba] at hother
      simp only [ne_eq, decide_not, hrecord, Bool.not_true, Bool.false_eq_true] at hother
    · rintro _ w₂ ⟨hsound₂, hbin⟩
      simp only [wp_perform]
      refine ⟨trivial, ?_⟩
      rintro _ w₃ ⟨e', -, hans⟩
      cases hans
      refine ⟨hsound₂, ?_⟩
      rw [hbin, bin_deleteRecord hdelete]
      rcases Option.ne_none_iff_exists'.1 (hsound.records_eq_none.not.2 (not_not.2 hid)) with
        ⟨r, hr⟩
      exact .deleted hr

theorem wp_deleteAttachment_bin (hsound : Sound s.crypto w) (recordId id : String)
    (headers : HeaderMap) :
    wp (taming calm) (deleteAttachment s recordId id headers) (fun resp w' =>
      Sound s.crypto w' ∧ Bin.DeletesFile s calm (w.bin s.crypto) recordId id (detectLang headers)
        resp (w'.bin s.crypto)) w := by
  simp only [deleteAttachment, wp_bind, wp_perform]
  refine ⟨trivial, ?_⟩
  rintro r w₁ ⟨e, he, hans⟩
  rcases r with err | _ | row
  · rcases not_calm_of_error he hans (by simp [Db.exec]) with ⟨rfl, hcalm⟩
    exact ⟨hsound, .failed hcalm⟩
  · rcases Store.answer_db_ok hans with ⟨db, -, hexec, rfl⟩
    obtain rfl := Db.deleteAttachment_eq_none (Except.ok.inj hexec)
    refine ⟨hsound, .missing fun f hf hrecord => ?_⟩
    rcases files_bin.1 hf with ⟨a, ha, hid, bytes, -, rfl⟩
    have hnone := List.find?_eq_none.1 (Prod.mk.inj (Except.ok.inj hexec)).1 a ha
    exact hnone (decide_eq_true ⟨hid, hrecord⟩)
  · rcases Store.answer_db_ok hans with ⟨db, -, hexec, rfl⟩
    have hdelete : w.db.deleteAttachment recordId id = (some row, db) := Except.ok.inj hexec
    rcases Db.deleteAttachment_eq_some hdelete with ⟨hrow, rfl, rfl, hrecords, hatts⟩
    rcases hsound.holds row hrow with ⟨bytes, hbytes, -⟩
    have hfile : (w.bin s.crypto).files row.id = some (row.attachment bytes) :=
      files_bin.2 ⟨row, hrow, rfl, bytes, hbytes, rfl⟩
    simp only [wp_bind, wp_perform]
    refine ⟨trivial, ?_⟩
    rintro _ w₁ ⟨e₁, he₁, hans₁⟩
    obtain rfl := Store.answer_deleteAttachment_calm hans₁ (he₁.1 trivial)
    -- The row is gone, and then its file.
    have hsame : ∀ a ∈ db.attachments,
        (w.files.deleteAttachment row.id).attachments a.id = w.files.attachments a.id := by
      intro a ha
      rw [hatts] at ha
      rcases List.mem_filter.1 ha with ⟨hmem, hne⟩
      refine Function.update_of_ne (fun hid => ?_) _ _
      rw [Db.eq_of_attachment_id hmem hrow hid] at hne
      simp at hne
    have hsound₁ : Sound s.crypto { w with db, files := w.files.deleteAttachment row.id } := by
      refine hsound.of_subset (fun r hr => hrecords ▸ hr) (fun a ha => ?_) hsame
      rw [hatts] at ha
      exact (List.mem_filter.1 ha).1
    have hbin : Store.bin s.crypto { w with db, files := w.files.deleteAttachment row.id } =
        (w.bin s.crypto).deleteFile row.id := by
      rw [← bin_deleteAttachment hdelete]
      exact bin_congr (w := { w with db }) rfl hsame
    have hrecord : row.recordId ∈ db.recordIds := by
      rw [Db.recordIds, hrecords]
      exact w.db.foreignKey row hrow
    refine ⟨trivial, ?_⟩
    rintro ts w₂ ⟨e₂, -, hans₂⟩
    cases hans₂
    refine ⟨trivial, ?_⟩
    rintro r w₂ ⟨e₃, he₃, hans₃⟩
    cases r with
    | error err =>
        rcases not_calm_of_error he₃ hans₃ (by simp [Db.exec]) with ⟨rfl, hcalm⟩
        refine ⟨hsound₁, ?_⟩
        rw [hbin]
        exact .torn hcalm hfile rfl
    | ok _ =>
        rcases Store.answer_db_ok hans₃ with ⟨db', -, hexec₃, rfl⟩
        obtain rfl : db' = db.touchRecord row.recordId e₂.now :=
          (Prod.mk.inj (Except.ok.inj hexec₃)).2.symm
        have hsound₂ : Sound s.crypto
            { w with db := db.touchRecord row.recordId e₂.now
                     files := w.files.deleteAttachment row.id } := by
          refine hsound₁.of_attachments ?_ rfl rfl
          intro row' hrow'
          rcases (mem_modifyRecord db row.recordId (fun r => { r with updatedAt := e₂.now })
            (fun _ => rfl) row').1 hrow' with ⟨old, hold, rfl⟩
          split_ifs
          · exact hsound₁.reads old hold
          · exact hsound₁.reads old hold
        have hbin₂ : Store.bin s.crypto
            { w with db := db.touchRecord row.recordId e₂.now
                     files := w.files.deleteAttachment row.id } =
              ((w.bin s.crypto).deleteFile row.id).touch row.recordId e₂.now := by
          rw [← hbin]
          exact bin_touchRecord hsound₁ hrecord e₂.now
        simp only [wp_bind, wp_perform]
        refine ⟨trivial, ?_⟩
        rintro _ w₃ ⟨e₄, -, hans₄⟩
        cases hans₄
        refine ⟨trivial, ?_⟩
        rintro r w₃ ⟨e₅, he₅, hans₅⟩
        cases r with
        | error err =>
            rcases not_calm_of_error he₅ hans₅ (by simp [Db.exec]) with ⟨rfl, hcalm⟩
            refine ⟨hsound₂, ?_⟩
            rw [hbin₂]
            exact .deleted hfile rfl (.inl ⟨hcalm, rfl⟩)
        | ok rows =>
            rcases Store.answer_db_ok hans₅ with ⟨db'', -, hexec₅, rfl⟩
            rcases Prod.mk.inj (Except.ok.inj hexec₅) with ⟨rfl, rfl⟩
            refine ⟨hsound₂, ?_⟩
            rw [hbin₂]
            refine .deleted hfile rfl (.inr ⟨_, hbin₂ ▸ lists_bin hsound₂ row.recordId, ?_⟩)
            rw [← attachmentView_eq hsound₂]

/-- One request, alone. -/
theorem wp_handle_bin (hundoes : s.crypto.Undoes) (hsound : Sound s.crypto w) (req : Request) :
    wp (taming calm) (handle s req) (fun resp w' =>
      Sound s.crypto w' ∧ Bin.Step s calm (w.bin s.crypto) req resp (w'.bin s.crypto)) w := by
  cases req with
  | create headers parts => exact wp_createWith_bin hundoes hsound headers parts _ not_success_internal
  | apiCreate headers parts =>
      exact wp_createWith_bin hundoes hsound headers parts apiCreated (by decide)
  | update id headers parts => exact wp_updateRecord_bin hundoes hsound id headers parts
  | delete id => exact wp_deleteWith_bin hsound id _ _ _
  | apiDelete id => exact wp_deleteWith_bin hsound id _ _ _
  | deleteAttachment recordId id headers => exact wp_deleteAttachment_bin hsound recordId id headers

end Handlers

/-! ## Lifetimes -/

theorem Server.runs_store {α : Type} {p : Program Reply α} {s s' : Server}
    {log : List (Asked Reply Env)} {a : α} (h : Runs Server.answer s p log s' a) :
    Runs Store.answer s.store p log s'.store a ∧ s'.app = s.app := by
  induction h with
  | done s a => exact ⟨.done _ _, rfl⟩
  | ask hans _ ih =>
      rcases Server.answer_eq_some hans with ⟨hans, happ⟩
      exact ⟨.ask hans ih.1, ih.2.trans happ⟩

/-- The state of the specification that a server is in. -/
structure Server.Stands (c : Crypto) (s : Server) (a : AppState × Bin) : Prop where
  app : a.1 = s.app
  bin : a.2 = s.store.bin c
  crypto : s.app.crypto = c
  sound : Sound c s.store

/-- `remove_file` succeeds, and a restart keeps the key. -/
def Admits (key : CryptoKey) : Phase Reply Env Boot Request Response → Prop
  | .turn t => ∀ x ∈ t.log, Removes x.env x.op
  | .boot b => b.cfg.cryptoKey = key

instance (key : CryptoKey) : DecidablePred (Admits key)
  | .turn t => inferInstanceAs (Decidable (∀ x ∈ t.log, Removes x.env x.op))
  | .boot b => decidable_of_iff (b.cfg.cryptoKey.1 = key.1) Subtype.ext_iff.symm

/-- In a lifetime each phase is matched by a step of the specification. -/
theorem Server.Stands.of_lifetime {app : AppState}
    {ps : List (Phase Reply Env Boot Request Response)} {s : Server} (hundoes : app.crypto.Undoes)
    (h : server.Lifetime { app, store := .empty } ps s)
    (hadmits : ∀ p ∈ ps, Admits app.cfg.cryptoKey p) :
    ∃ a, Bin.spec.Allows (app, .empty) ps a ∧ s.Stands app.crypto a := by
  have hstart : Server.Stands app.crypto { app, store := .empty } (app, .empty) :=
    ⟨rfl, rfl, rfl, .empty _⟩
  refine h.refines (P := Bin.spec) (Server.Stands app.crypto) (Admits app.cfg.cryptoKey) ?_ ?_
    hadmits hstart
  · rintro s₁ s₂ t ⟨app₁, b⟩ ⟨happ, hbin, hcrypto, hsound⟩ hgood hrun
    rcases Server.runs_store hrun with ⟨hrun, happ₂⟩
    rw [← hcrypto] at hsound hundoes hbin ⊢
    rcases hrun.of_wpWhere (P := Tame (Bin.Calm t))
      (fun x hx => ⟨hgood x hx, fun hcalm => hcalm x hx⟩) (wp_handle_bin hundoes hsound t.req) with
      ⟨hsound₂, hstep⟩
    refine ⟨(s₂.app, s₂.store.bin s₁.app.crypto), ⟨happ₂.trans happ.symm, ?_⟩, rfl, rfl, ?_, hsound₂⟩
    · obtain rfl : app₁ = s₁.app := happ
      obtain rfl : b = s₁.store.bin s₁.app.crypto := hbin
      exact hstep
    · rw [happ₂]
  · rintro s₁ b ⟨app₁, b'⟩ ⟨happ, hbin, hcrypto, hsound⟩ hgood
    obtain rfl : app₁ = s₁.app := happ
    -- The key is the same, and a restart touches neither rows nor attachment files.
    have hvendor : s₁.app.vendor = app.vendor := congrArg Crypto.vendor hcrypto
    refine ⟨rfl, hbin, ?_, hsound.congr rfl fun _ _ => rfl⟩
    have hkey : b.cfg.cryptoKey = app.cfg.cryptoKey := hgood
    simp only [server, Server.reboot, AppState.crypto, hvendor, hkey]

/-- Every lifetime of the program, from a fresh installation on, is one that the specification
allows, with the bin that the store holds in the end. -/
theorem server_refines_bin {app : AppState} {ps : List (Phase Reply Env Boot Request Response)}
    {s : Server} (hundoes : app.crypto.Undoes)
    (h : server.Lifetime { app, store := .empty } ps s)
    (hadmits : ∀ p ∈ ps, Admits app.cfg.cryptoKey p) :
    Bin.spec.Allows (app, .empty) ps (s.app, s.store.bin app.crypto) ∧
      Sound app.crypto s.store := by
  rcases Server.Stands.of_lifetime hundoes h hadmits with
    ⟨⟨app', b⟩, hallows, happ, hbin, -, hsound⟩
  obtain rfl : app' = s.app := happ
  obtain rfl : b = s.store.bin app.crypto := hbin
  exact ⟨hallows, hsound⟩

/-- A record with a file, a restart, and the file deleted while the time cannot be set. -/
theorem server_refines_bin_run : ∃ ps s,
    server.Lifetime { app := .plain, store := .empty } ps s ∧ ps.length = 3 ∧
    (s.store.db.getRecord "r1").isSome = true ∧ s.store.files.attachments "f1" = none ∧
    Bin.spec.Allows (.plain, .empty) ps (s.app, s.store.bin AppState.plain.crypto) ∧
    Sound AppState.plain.crypto s.store := by
  have hlife : ∃ ps s, server.Lifetime { app := .plain, store := .empty } ps s ∧
      ps.length = 3 ∧ (s.store.db.getRecord "r1").isSome = true ∧
      s.store.files.attachments "f1" = none ∧
      ∀ p ∈ ps, Admits AppState.plain.cfg.cryptoKey p := by
    refine Service.exists_lifetime
      [.inl (.create noHeaders (form "a" "b" [[1]]),
        [{ uuid := "f1" }, {}, {}, { uuid := "r1" }, {}, {}, {}, {}, {}]),
      .inr { cfg := AppState.plain.cfg, stuck := fun _ => false },
      .inl (.deleteAttachment "r1" "f1" noHeaders, [{}, {}, {}, { fault := true }])] ?_
    decide
  rcases hlife with ⟨ps, s, hlife, hlen, hrecord, hfile, hadmits⟩
  exact ⟨ps, s, hlife, hlen, hrecord, hfile, server_refines_bin (plain_undoes _) hlife hadmits⟩

end Aardbin
