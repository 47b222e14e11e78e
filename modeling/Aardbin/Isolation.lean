import Aardbin.Custody.Protocol
import Aardbin.FormText
import Aardbin.PlainVendor

/-!
# A request changes its own record only

A request addressed to a record writes no other record, inserts and deletes attachments of that
record only, and removes only files that it has brought itself or whose rows it has deleted;
a request that creates a record leaves everything alone that exists.
-/

namespace Aardbin

open Effect

/-! ## What a write leaves alone -/

/-- The record that a write goes to. -/
def DbCall.record? : DbCall → Option String
  | .createRecord id _ _ => some id
  | .updateRecord id _ _ => some id
  | .touchRecord id _ => some id
  | .deleteRecord id => some id
  | .insertAttachment a => some a.recordId
  | .deleteAttachment recordId _ => some recordId
  | _ => none

/-- The rows that belong to a record. -/
def Db.attachmentsOf (db : Db) (id : String) : List AttachmentRow :=
  db.attachments.filter fun a => a.recordId = id

namespace Db

theorem getRecord_modifyRecord {db : Db} {id x : String} {f : RecordRow → RecordRow}
    (hf : ∀ r, (f r).id = r.id) (hx : x ≠ id) :
    (db.modifyRecord id f hf).getRecord x = db.getRecord x := by
  have hid : ∀ r : RecordRow, (if r.id = id then f r else r).id = r.id := by
    intro r
    split_ifs
    · exact hf r
    · rfl
  simp only [getRecord, modifyRecord, List.find?_map, Function.comp_def, hid]
  cases hfind : db.records.find? fun r => r.id = x with
  | none => rfl
  | some r =>
      have hr : r.id = x := by simpa using List.find?_some hfind
      simp [hr, hx]

theorem frame_exec {db db' : Db} {c : DbCall} {v : c.Val} (h : db.exec c = .ok (v, db'))
    {x : String} (hx : c.record? ≠ some x) :
    db'.getRecord x = db.getRecord x ∧ db'.attachmentsOf x = db.attachmentsOf x := by
  cases c with
  | createRecord id blob now =>
      rcases createRecord_eq_ok (of_exec_createRecord h) with ⟨-, hrecords, hatts⟩
      have hne : id ≠ x := fun heq => hx (by rw [heq]; rfl)
      refine ⟨?_, by rw [attachmentsOf, hatts]; rfl⟩
      simp [getRecord, hrecords, List.find?_append, hne]
  | updateRecord id blob now =>
      cases h
      have hne : x ≠ id := fun heq => hx (by rw [heq]; rfl)
      exact ⟨getRecord_modifyRecord _ hne, rfl⟩
  | touchRecord id now =>
      cases h
      have hne : x ≠ id := fun heq => hx (by rw [heq]; rfl)
      exact ⟨getRecord_modifyRecord _ hne, rfl⟩
  | deleteRecord id =>
      -- The rows go with their record; those of `x` pass both filters.
      cases h
      have hne : x ≠ id := fun heq => hx (by rw [heq]; rfl)
      constructor
      · simp only [getRecord, List.find?_filter]
        refine congrArg (fun p => db.records.find? p) (funext fun r => ?_)
        by_cases hr : r.id = x <;> simp [hr, hne]
      · simp only [attachmentsOf, List.filter_filter]
        refine List.filter_congr fun a _ => ?_
        by_cases ha : a.recordId = x <;> simp [ha, hne]
  | insertAttachment a =>
      rcases insertAttachment_eq_ok (of_exec_insertAttachment h) with ⟨-, -, hrecords, hatts⟩
      have hne : a.recordId ≠ x := fun heq => hx (by rw [← heq]; rfl)
      refine ⟨by rw [getRecord, hrecords]; rfl, ?_⟩
      simp [attachmentsOf, hatts, hne]
  | deleteAttachment recordId attachmentId =>
      cases h
      have hne : x ≠ recordId := fun heq => hx (by rw [heq]; rfl)
      refine ⟨rfl, ?_⟩
      simp only [attachmentsOf, List.filter_filter]
      refine List.filter_congr fun a _ => ?_
      by_cases ha : a.recordId = x <;> simp [ha, hne]
  | attachmentsForRecords ids =>
      rw [(of_exec_attachmentsForRecords h).2]
      exact ⟨rfl, rfl⟩
  | _ =>
      cases h
      exact ⟨rfl, rfl⟩

end Db

/-! ## The records a request aims at -/

/-- The record that a request is addressed to; a create has none. -/
def Request.target? : Request → Option String
  | .create _ _ => none
  | .apiCreate _ _ => none
  | .update id _ _ => some id
  | .delete id => some id
  | .apiDelete id => some id
  | .deleteAttachment recordId _ _ => some recordId

/-- Every write goes to the target, or to the last id that `Uuid::new_v4` has handed out. -/
def aims (target : Option String) : Protocol Reply (Option String) where
  pre := fun created op =>
    match op with
    | .db c => c.record? = none ∨ target = c.record? ∨ created = c.record?
    | _ => True
  next := fun created op r created' =>
    created' =
      match op, r with
      | .newV4, id => some id
      | _, _ => created

section Aims

variable {target created : Option String}

theorem wp_aims_of_isFile {α : Type} {R : α → Prop} {p : Program Reply α}
    {Q : α → Option String → Prop} (h : Uses Call.IsFile R p) (hQ : ∀ a, R a → Q a created) :
    wp (aims target) p Q created := by
  refine wp_of_uses h ?_ ?_ hQ
  · intro op hop
    cases op with
    | file c => trivial
    | _ => exact hop.elim
  · rintro op r g' hop rfl
    cases op with
    | file c => rfl
    | _ => exact hop.elim

theorem wp_aims_insertUploads (recordId : String) (ts : Int) (us : List PendingUpload)
    (h : target = some recordId ∨ created = some recordId) {Q : Except DbError Unit → Option String → Prop}
    (hQ : ∀ r, Q r created) : wp (aims target) (insertUploads recordId ts us) Q created := by
  induction us with
  | nil => exact hQ _
  | cons u rest ih =>
      simp only [insertUploads, wp_bind, wp_perform]
      refine ⟨.inr h, ?_⟩
      rintro r g rfl
      cases r with
      | error e =>
          simp only [wp_bind, wp_perform]
          refine ⟨trivial, ?_⟩
          rintro _ g rfl
          exact hQ _
      | ok _ => exact ih

theorem wp_aims_createWith (s : AppState) (headers : HeaderMap) (parts : Multipart)
    (failed : Response) (done : String → Response) :
    wp (aims target) (createWith s headers parts failed done) (fun _ _ => True) created := by
  simp only [createWith, wp_bind]
  refine wp_aims_of_isFile (uses_parseRecordForm s parts _) fun r _ => ?_
  cases r with
  | error resp => trivial
  | ok form =>
      simp only [wp_bind, wp_perform]
      refine ⟨trivial, ?_⟩
      rintro id g rfl
      refine ⟨trivial, ?_⟩
      rintro ts g rfl
      refine ⟨trivial, ?_⟩
      rintro nonce g rfl
      refine ⟨.inr (.inr rfl), ?_⟩
      rintro r g rfl
      cases r with
      | error e =>
          simp only [wp_bind]
          exact wp_aims_of_isFile (uses_cleanupUploads _) fun _ _ => trivial
      | ok _ =>
          simp only [wp_bind]
          refine wp_aims_insertUploads id ts form.uploads (.inr rfl) fun r => ?_
          cases r with
          | error e =>
              simp only [wp_bind, wp_perform]
              exact ⟨.inr (.inr rfl), fun _ _ _ => trivial⟩
          | ok _ =>
              simp only [wp_bind, wp_perform]
              exact ⟨trivial, fun _ _ _ => trivial⟩

theorem wp_aims_updateRecord (s : AppState) (id : String) (headers : HeaderMap)
    (parts : Multipart) :
    wp (aims (some id)) (updateRecord s id headers parts) (fun _ _ => True) created := by
  simp only [updateRecord, wp_bind, wp_perform]
  refine ⟨.inl rfl, ?_⟩
  rintro r g rfl
  rcases r with err | _ | row
  · trivial
  · trivial
  · dsimp only
    split
    · trivial
    simp only [wp_bind]
    refine wp_aims_of_isFile (uses_parseRecordForm s parts _) fun r _ => ?_
    cases r with
    | error resp => trivial
    | ok form =>
        simp only [wp_bind, wp_perform]
        refine ⟨trivial, ?_⟩
        rintro ts g rfl
        refine ⟨trivial, ?_⟩
        rintro nonce g rfl
        refine ⟨.inr (.inl rfl), ?_⟩
        rintro r g rfl
        rcases r with err | _ | _
        · simp only [wp_bind]
          exact wp_aims_of_isFile (uses_cleanupUploads _) fun _ _ => trivial
        · trivial
        · simp only [wp_bind]
          refine wp_aims_insertUploads id ts form.uploads (.inl rfl) fun r => ?_
          cases r with
          | error e =>
              simp only [wp_bind, wp_perform]
              exact ⟨.inr (.inl rfl), fun _ _ _ => trivial⟩
          | ok _ =>
              simp only [wp_bind, wp_perform]
              exact ⟨trivial, fun _ _ _ => trivial⟩

theorem wp_aims_deleteWith (id : String) (deleted missing failed : Response) :
    wp (aims (some id)) (deleteWith id deleted missing failed) (fun _ _ => True) created := by
  simp only [deleteWith, wp_bind, wp_perform]
  refine ⟨.inr (.inl rfl), ?_⟩
  rintro r g rfl
  rcases r with err | _ | ids
  · trivial
  · trivial
  · simp only [wp_bind, wp_perform]
    exact wp_aims_of_isFile (uses_deleteFiles ids) fun _ _ => ⟨trivial, fun _ _ _ => trivial⟩

theorem wp_aims_deleteAttachment (s : AppState) (recordId attachmentId : String)
    (headers : HeaderMap) :
    wp (aims (some recordId)) (deleteAttachment s recordId attachmentId headers)
      (fun _ _ => True) created := by
  simp only [deleteAttachment, wp_bind, wp_perform]
  refine ⟨.inr (.inl rfl), ?_⟩
  rintro r g rfl
  rcases r with err | _ | row
  · trivial
  · trivial
  · simp only [wp_bind, wp_perform]
    refine ⟨trivial, ?_⟩
    rintro _ g rfl
    refine ⟨trivial, ?_⟩
    rintro ts g rfl
    refine ⟨.inr (.inl rfl), ?_⟩
    rintro r g rfl
    cases r with
    | error err => trivial
    | ok _ =>
        simp only [wp_bind, wp_perform]
        refine ⟨trivial, ?_⟩
        rintro _ g rfl
        refine ⟨.inl rfl, ?_⟩
        rintro r g rfl
        cases r <;> trivial

theorem wp_aims_handle (s : AppState) (req : Request) :
    wp (aims req.target?) (handle s req) (fun _ _ => True) created := by
  cases req with
  | create headers parts => exact wp_aims_createWith s headers parts _ _
  | apiCreate headers parts => exact wp_aims_createWith s headers parts _ _
  | update id headers parts => exact wp_aims_updateRecord s id headers parts
  | delete id => exact wp_aims_deleteWith id _ _ _
  | apiDelete id => exact wp_aims_deleteWith id _ _ _
  | deleteAttachment recordId attachmentId headers =>
      exact wp_aims_deleteAttachment s recordId attachmentId headers

end Aims

/-! ## The frame -/

/-- The attachment belongs to the target. -/
def OfTarget (target : Option String) (w : Store) (id : String) : Prop :=
  ∃ a ∈ w.db.attachments, a.id = id ∧ target = some a.recordId

/-- Every record but the target is as before: its row, its attachment rows, and all files that
are not the target's. -/
structure Untouched (target : Option String) (w w' : Store) : Prop where
  row : ∀ id ∈ w.db.recordIds, target ≠ some id → w'.db.getRecord id = w.db.getRecord id
  rows : ∀ id ∈ w.db.recordIds, target ≠ some id → w'.db.attachmentsOf id = w.db.attachmentsOf id
  files : ∀ id, w.files.attachments id ≠ none ∨ id ∈ w.db.attachmentIds →
    ¬ OfTarget target w id → w'.files.attachments id = w.files.attachments id

/-- The request may change this file: it is new since `w`, or the target's. -/
def Own (target : Option String) (w : Store) (id : String) : Prop :=
  (w.files.attachments id = none ∧ id ∉ w.db.attachmentIds) ∨ OfTarget target w id

/-- What holds in a run from `w₀`; the ghost state is that of `custody` and that of `aims`. -/
structure Framed (target : Option String) (w₀ w : Store) (g : Held × Option String) : Prop where
  untouched : Untouched target w₀ w
  tmp : ∀ f ∈ g.1.tmp, Own target w₀ f.1
  files : ∀ f ∈ g.1.files, Own target w₀ f.1
  doomed : ∀ id ∈ g.1.doomed, Own target w₀ id
  created : ∀ id, g.2 = some id → id ∉ w₀.db.recordIds ∨ target = some id
  rows : ∀ a ∈ w.db.attachments, target = some a.recordId ∨ g.2 = some a.recordId →
    Own target w₀ a.id

namespace Untouched

variable {target : Option String} {w w' : Store}

theorem refl (target : Option String) (w : Store) : Untouched target w w :=
  ⟨fun _ _ _ => rfl, fun _ _ _ => rfl, fun _ _ _ => rfl⟩

/-- A record is where it was, or it is the target. -/
theorem mem_recordIds (h : Untouched target w w') {id : String} (hid : id ∈ w.db.recordIds)
    (hne : target ≠ some id) : id ∈ w'.db.recordIds := by
  have hsome : (w.db.getRecord id).isSome = true := by
    rcases List.mem_map.1 hid with ⟨row, hrow, rfl⟩
    exact List.find?_isSome.2 ⟨row, hrow, by simp⟩
  rw [← h.row id hid hne, Option.isSome_iff_exists] at hsome
  rcases hsome with ⟨row, hfind⟩
  exact List.mem_map.2 ⟨row, List.mem_of_find?_eq_some hfind, by simpa using List.find?_some hfind⟩

/-- An id that is fresh now was fresh at the start, or belonged to the target. -/
theorem own_of_fresh (h : Untouched target w w') {id : String} (hfresh : w'.Fresh id) :
    Own target w id := by
  by_cases hown : OfTarget target w id
  · exact .inr hown
  refine .inl ?_
  by_contra hnot
  have hold : w.files.attachments id ≠ none ∨ id ∈ w.db.attachmentIds := by
    by_cases hfile : w.files.attachments id = none
    · exact .inr (by simpa [hfile] using hnot)
    · exact .inl hfile
  have hfile := h.files id hold hown
  rcases hold with hfile' | hrow
  · exact hfile' (hfile ▸ hfresh.file)
  · -- The row belongs to another record, so it is still there.
    rcases List.mem_map.1 hrow with ⟨a, ha, rfl⟩
    have hne : target ≠ some a.recordId := fun heq => hown ⟨a, ha, rfl, heq⟩
    have hmem : a ∈ w'.db.attachmentsOf a.recordId := by
      rw [h.rows a.recordId (w.db.foreignKey a ha) hne]
      exact List.mem_filter.2 ⟨ha, by simp⟩
    exact hfresh.attachment (List.mem_map_of_mem (List.mem_filter.1 hmem).1)

theorem of_own (h : Untouched target w w') {w'' : Store} (hdb : w''.db = w'.db)
    (hfiles : ∀ id, ¬ Own target w id → w''.files.attachments id = w'.files.attachments id) :
    Untouched target w w'' := by
  refine ⟨fun id hid hne => ?_, fun id hid hne => ?_, fun id hold hnot => ?_⟩
  · rw [hdb]
    exact h.row id hid hne
  · rw [hdb]
    exact h.rows id hid hne
  · rw [hfiles id, h.files id hold hnot]
    rintro (⟨hfile, hrow⟩ | hof)
    · rcases hold with hold | hold
      · exact hold hfile
      · exact hrow hold
    · exact hnot hof

end Untouched

namespace Framed

variable {target : Option String} {w₀ w w' : Store} {g : Held} {created : Option String}

theorem born (req : Request) (w : Store) :
    Framed req.target? w w (Held.born req, none) := by
  refine ⟨.refl _ w, by simp [Held.born], by simp [Held.born], by simp [Held.born], by simp, ?_⟩
  rintro a ha (htarget | hnone)
  · exact .inr ⟨a, ha, rfl, htarget⟩
  · cases hnone

/-- The files that the precondition lets the request touch are its own. -/
theorem file (h : Framed target w₀ w (g, created)) {e : Env} {c : FileCall} {r : c.Reply}
    (hpre : g.pre (.file c)) (hans : w.answerFile e c = some (r, w')) :
    Framed target w₀ w' (g.updFile c r, created) := by
  have hdb := Store.db_answerFile hans
  have hrows : ∀ a ∈ w'.db.attachments, target = some a.recordId ∨ created = some a.recordId →
      Own target w₀ a.id := by
    rw [hdb]
    exact h.rows
  cases c with
  | beginUpload =>
      rcases Store.answer_beginUpload hans with ⟨rfl, rfl, -⟩ | ⟨id, rfl, hfresh, rfl⟩
      · exact h
      · -- The new temporary file has a fresh id, so no file of the start has it.
        refine ⟨h.untouched.of_own rfl fun _ _ => rfl, ?_, h.files, h.doomed, h.created, hrows⟩
        rintro f ⟨⟩
        exact h.untouched.own_of_fresh hfresh
  | writeAll id chunk =>
      rcases Store.answer_writeAll hans with ⟨rfl, rfl, -⟩ | ⟨rfl, rfl⟩
      · exact h
      · refine ⟨h.untouched.of_own rfl fun _ _ => rfl, fun f hf => ?_, h.files, h.doomed,
          h.created, hrows⟩
        rcases Option.map_eq_some_iff.1 hf with ⟨f', hf', rfl⟩
        exact h.tmp f' hf'
  | finalizeUpload id =>
      rcases hpre with ⟨-, b, hb, -⟩
      have hown : Own target w₀ id := h.tmp (id, b) hb
      rcases Store.answer_finalizeUpload hans with ⟨_, rfl, rfl, -⟩ | ⟨_, -, rfl, rfl⟩
      · exact h
      · -- The file moves from the temporary files to the kept ones, and stays the request's own.
        refine ⟨h.untouched.of_own rfl fun id' hid' => ?_, by simp [Held.updFile], ?_, h.doomed,
          h.created, hrows⟩
        · have hne : id' ≠ id := fun heq => hid' (heq ▸ hown)
          simp [hne]
        · intro f hf
          rcases List.mem_append.1 hf with hf | hf
          · exact h.files f hf
          · exact h.tmp f (by simpa using hf)
  | abortUpload id =>
      rcases Store.answer_abortUpload hans with ⟨rfl, -⟩ | rfl
      · exact ⟨h.untouched, by simp [Held.updFile], h.files, h.doomed, h.created, hrows⟩
      · exact ⟨h.untouched.of_own rfl fun _ _ => rfl, by simp [Held.updFile], h.files, h.doomed,
          h.created, hrows⟩
  | deleteAttachment id =>
      -- Either the request uploaded the file, or its row was the target's.
      have hown : Own target w₀ id := by
        rcases hpre with hfile | hdoomed
        · rcases List.mem_map.1 hfile with ⟨f, hf, rfl⟩
          exact h.files f hf
        · exact h.doomed id hdoomed
      have hfiles : ∀ f ∈ (g.updFile (.deleteAttachment id) r).files, Own target w₀ f.1 :=
        fun f hf => h.files f (List.eraseP_subset hf)
      have hdoomed : ∀ id' ∈ (g.updFile (.deleteAttachment id) r).doomed, Own target w₀ id' :=
        fun id' hid' => h.doomed id' (List.mem_of_mem_erase hid')
      rcases Store.answer_deleteAttachment hans with ⟨rfl, -⟩ | rfl
      · exact ⟨h.untouched, h.tmp, hfiles, hdoomed, h.created, hrows⟩
      · refine ⟨h.untouched.of_own rfl fun id' hid' => ?_, h.tmp, hfiles, hdoomed, h.created,
          hrows⟩
        have hne : id' ≠ id := fun heq => hid' (heq ▸ hown)
        simp [FileStore.deleteAttachment, hne]

/-- A record that a write may go to is the target, or did not exist at the start. -/
theorem record_ne (h : Framed target w₀ w (g, created)) {c : DbCall}
    (haim : (aims target).pre created (.db c)) {x : String} (hx : x ∈ w₀.db.recordIds)
    (hne : target ≠ some x) : c.record? ≠ some x := by
  intro hc
  rcases haim with hnone | htarget | hcreated
  · rw [hc] at hnone
    cases hnone
  · exact hne (htarget.trans hc)
  · rcases h.created x (hcreated.trans hc) with hnew | htarget
    · exact hnew hx
    · exact hne htarget

theorem exec (h : Framed target w₀ w (g, created)) {c : DbCall} {v : c.Val} {db : Db}
    (hpre : g.pre (.db c)) (haim : (aims target).pre created (.db c))
    (hexec : w.db.exec c = .ok (v, db)) :
    Framed target w₀ { w with db } (g.updDb c (.ok v), created) := by
  have huntouched : Untouched target w₀ { w with db } := by
    refine ⟨fun x hx hne => ?_, fun x hx hne => ?_, h.untouched.files⟩
    · rw [← h.untouched.row x hx hne]
      exact (Db.frame_exec hexec (h.record_ne haim hx hne)).1
    · rw [← h.untouched.rows x hx hne]
      exact (Db.frame_exec hexec (h.record_ne haim hx hne)).2
  have hrows : ∀ a ∈ db.attachments, target = some a.recordId ∨ created = some a.recordId →
      Own target w₀ a.id := by
    intro a ha hrecord
    rcases Store.rows_exec hexec a ha with hold | rfl
    · exact h.rows a hold hrecord
    · -- The new row is that of an upload.
      rcases hpre with ⟨-, b, hmem, -, -⟩
      exact h.files (a.id, b) hmem
  have hfiles : ∀ f ∈ (g.updDb c (.ok v)).files, Own target w₀ f.1 := by
    intro f hf
    by_cases hinsert : ∃ a, c = .insertAttachment a
    · rcases hinsert with ⟨a, rfl⟩
      exact h.files f (List.eraseP_subset hf)
    · rw [g.files_updDb _ fun a hc => hinsert ⟨a, hc⟩] at hf
      exact h.files f hf
  have htmp : ∀ f ∈ (g.updDb c (.ok v)).tmp, Own target w₀ f.1 := by
    rw [g.tmp_updDb]
    exact h.tmp
  refine ⟨huntouched, htmp, hfiles, ?_, h.created, hrows⟩
  intro id hid
  cases c with
  | deleteRecord recordId =>
      cases v with
      | none => exact h.doomed id hid
      | some ids =>
          rcases List.mem_append.1 hid with hid | hid
          · exact h.doomed id hid
          · -- The cascade hits rows of a record that the request may write.
            rcases Db.deleteRecord_eq_some (Except.ok.inj hexec) with ⟨-, rfl, -, -⟩
            rcases List.mem_map.1 hid with ⟨a, ha, rfl⟩
            rcases List.mem_filter.1 ha with ⟨hmem, hrecord⟩
            rw [decide_eq_true_eq] at hrecord
            refine h.rows a hmem ?_
            rw [hrecord]
            exact haim.resolve_left (by simp [DbCall.record?])
  | deleteAttachment recordId attachmentId =>
      cases v with
      | none => exact h.doomed id hid
      | some row =>
          rcases Db.deleteAttachment_eq_some (Except.ok.inj hexec) with ⟨hmem, hid', hrecord, -, -⟩
          rcases List.mem_append.1 hid with hid | hid
          · exact h.doomed id hid
          · rw [List.mem_singleton.1 hid, ← hid']
            refine h.rows row hmem ?_
            rw [hrecord]
            exact haim.resolve_left (by simp [DbCall.record?])
  | updateRecord id' blob now => cases v <;> exact h.doomed id hid
  | _ => exact h.doomed id hid

/-- An id that was just handed out names nothing. -/
theorem newV4 (h : Framed target w₀ w (g, created)) {id : String} (hfresh : w.Fresh id)
    (hdb : w'.db = w.db) (hfiles : w'.files = w.files) :
    Framed target w₀ w' ({ g with newId := some id }, some id) := by
  refine ⟨h.untouched.of_own hdb fun _ _ => by rw [hfiles], h.tmp, h.files, h.doomed, ?_, ?_⟩
  · rintro x ⟨⟩
    by_contra hnot
    rw [not_or, not_not] at hnot
    exact hfresh.record (h.untouched.mem_recordIds hnot.1 hnot.2)
  · rw [hdb]
    rintro a ha (htarget | hid)
    · exact h.rows a ha (.inl htarget)
    · cases hid
      exact absurd (w.db.foreignKey a ha) hfresh.record

theorem ask (h : Framed target w₀ w (g, created)) {e : Env} {op : Call} {r : Reply op}
    (hpre : g.pre op) (haim : (aims target).pre created op)
    (hans : w.answer e op = some (r, w')) :
    ∃ g', (both (custody False) (aims target)).next (g, created) op r g' ∧
      Framed target w₀ w' g' := by
  cases op with
  | file c => exact ⟨(g.updFile c r, created), ⟨⟨rfl, False.elim⟩, rfl⟩, h.file hpre hans⟩
  | db c =>
      refine ⟨(g.updDb c r, created), ⟨⟨rfl, False.elim⟩, rfl⟩, ?_⟩
      rcases Store.answer_db hans with ⟨err, rfl, rfl, -⟩ | ⟨v, db, -, hexec, rfl, rfl⟩
      · -- A failed call changes nothing but the list of records known to be gone.
        cases c with
        | insertAttachment a => exact ⟨h.untouched, h.tmp, h.files, h.doomed, h.created, h.rows⟩
        | _ => exact h
      · exact h.exec hpre haim hexec
  | newV4 =>
      simp only [Store.answer] at hans
      split_ifs at hans with hfresh
      cases hans
      exact ⟨({ g with newId := some e.uuid }, some e.uuid), ⟨⟨rfl, False.elim⟩, rfl⟩,
        h.newV4 hfresh rfl rfl⟩
  | panic => cases hans
  | _ =>
      cases hans
      exact ⟨(g, created), ⟨⟨rfl, False.elim⟩, rfl⟩, h⟩

end Framed

/-! ## The theorem -/

/-- Another record's attachment is not found. -/
theorem wp_deleteAttachment_foreign (s : AppState) {recordId attachmentId : String}
    (headers : HeaderMap) {w : Store} {a : AttachmentRow} (ha : a ∈ w.db.attachments)
    (hid : a.id = attachmentId) (hne : a.recordId ≠ recordId) :
    wp (recording Store.answer) (deleteAttachment s recordId attachmentId headers)
      (fun resp g => g.1 = w ∧ ((∀ x ∈ g.2, x.env.fault = false) →
        resp = errResponse .notFound "attachment not found")) (w, []) := by
  simp only [deleteAttachment, wp_bind, wp_perform]
  refine recording_step fun e r w₁ hans => ?_
  rcases Store.answer_db hans with ⟨err, rfl, rfl, hwhy⟩ | ⟨v, db, -, hexec, rfl, rfl⟩
  · refine ⟨rfl, fun hcalm => ?_⟩
    rcases hwhy with hfault | hexec
    · have hfalse := hcalm _ (List.mem_append_right _ (List.mem_singleton_self _))
      rw [hfault] at hfalse
      cases hfalse
    · cases hexec
  · cases v with
    | none =>
        rw [Db.deleteAttachment_eq_none (Except.ok.inj hexec)]
        exact ⟨rfl, fun _ => rfl⟩
    | some row =>
        -- A row with this id is `a`.
        rcases Db.deleteAttachment_eq_some (Except.ok.inj hexec) with ⟨hmem, hid', hrecord, -, -⟩
        obtain rfl := Db.eq_of_attachment_id ha hmem (hid.trans hid'.symm)
        exact absurd hrecord hne

/-- Whichever calls fail: every other record stays as it is, and another record's attachment is
not found. -/
theorem record_isolation (s : AppState) (req : Request) {w w' : Store}
    {tr : List (Asked Reply Env)} {resp : Response}
    (hrun : Runs Store.answer w (handle s req) tr w' resp) :
    Untouched req.target? w w' ∧
      ∀ recordId attachmentId headers, req = .deleteAttachment recordId attachmentId headers →
        (∃ a ∈ w.db.attachments, a.id = attachmentId ∧ a.recordId ≠ recordId) →
          w' = w ∧ ((∀ x ∈ tr, x.env.fault = false) →
            resp = errResponse .notFound "attachment not found") := by
  constructor
  · have hwp : wp (both (custody False) (aims req.target?)) (handle s req)
        (fun resp g => EndPost False resp g.1 ∧ True) (Held.born req, none) :=
      wp_both (wp_handle s req) (wp_aims_handle s req)
    rcases hrun.keeps (Framed req.target? w) (fun w₁ g e op r w₂ h hpre hans =>
      h.ask hpre.1 hpre.2 hans) (.born req w) hwp with ⟨g, hframed, -⟩
    exact hframed.untouched
  · rintro recordId attachmentId headers rfl ⟨a, ha, hid, hne⟩
    exact hrun.of_recording (wp_deleteAttachment_foreign s headers ha hid hne)

/-- An attachment of `r1`, named under another record. -/
theorem record_isolation_run : ∃ tr w' resp,
    Runs Store.answer oneAttachment (handle .plain (.deleteAttachment "r2" "a1" noHeaders)) tr w' resp ∧
      w' = oneAttachment ∧ resp = errResponse .notFound "attachment not found" := by
  have hrun : ∃ tr w' resp,
      Runs Store.answer oneAttachment (handle .plain (.deleteAttachment "r2" "a1" noHeaders))
        tr w' resp ∧ ∀ x ∈ tr, x.env.fault = false := by
    refine exists_runs [{}] ?_
    decide
  rcases hrun with ⟨tr, w', resp, hrun, hcalm⟩
  have hforeign : ∃ a ∈ oneAttachment.db.attachments, a.id = "a1" ∧ a.recordId ≠ "r2" :=
    ⟨_, List.mem_singleton_self _, rfl, by decide⟩
  rcases (record_isolation .plain _ hrun).2 "r2" "a1" noHeaders rfl hforeign with ⟨hw, hresp⟩
  exact ⟨tr, w', resp, hrun, hw, hresp hcalm⟩

end Aardbin
