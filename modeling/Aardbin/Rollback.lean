import Aardbin.FormFiles
import Aardbin.FormText

/-!
# Rolling back a failed request (`create_record`, `api_create_record`, `update_record`)

One request runs alone and one write to the database fails.  When that is the write of the record,
`cleanup_uploads` removes every upload.  When it is the insert of one upload, that upload's file is
removed, the record is rolled back, and the files of the other uploads stay: nothing is left
exactly when there are no others.
-/

namespace Aardbin

open Effect

/-! ## Runs in which one write fails -/

/-- The calls of a run that fail of themselves, in order. -/
def failures (tr : List (Asked Reply Env)) : List Call :=
  (tr.filter fun x => x.env.fault).map (·.op)

/-- The writes whose failure the handlers roll back. -/
def Call.IsWrite : Call → Prop
  | .db (.createRecord _ _ _) => True
  | .db (.updateRecord _ _ _) => True
  | .db (.insertAttachment _) => True
  | _ => False

/-- The store, the calls that have failed so far, and at most one write among them. -/
def mishap : Protocol Reply (Store × List Call) where
  pre := fun _ _ => True
  next := fun g op r g' => ∃ e, g.1.answer e op = some (r, g'.1) ∧
    g'.2 = g.2 ++ (if e.fault then [op] else []) ∧ (g'.2 = [] ∨ ∃ op', op'.IsWrite ∧ g'.2 = [op'])

theorem mishap_of_runs {α : Type} {p : Program Reply α} {Q : α → Store × List Call → Prop}
    {w w' : Store} {tr : List (Asked Reply Env)} {a : α} {op : Call}
    (hrun : Runs Store.answer w p tr w' a) (hfail : failures tr = [op]) (hop : op.IsWrite)
    (h : wp mishap p Q (w, [])) : Q a (w', [op]) := by
  rw [← hfail]
  refine Runs.of_view (π := mishap) (fun w log => (w, failures log))
    (fun log => failures log = [] ∨ ∃ op', op'.IsWrite ∧ failures log = [op']) [] ?_ hrun ?_ h
  · intro w log x w' hans hgood
    refine ⟨x.env, hans, ?_, hgood⟩
    cases hf : x.env.fault <;> simp [failures, hf]
  · intro pre hpre
    have hsub : (failures pre).Sublist [op] :=
      hfail ▸ (hpre.sublist.filter _).map _
    rcases List.sublist_singleton.1 hsub with hnil | hone
    · exact .inl hnil
    · exact .inr ⟨op, hop, hone⟩

/-- Where nothing has failed there is nothing to show. -/
theorem of_no_failure {P : Call → Prop} (op : Call) (h : ([] : List Call) = [op]) : P op := by
  cases h

/-- Once a write has failed, and for calls that are not writes, nothing fails. -/
theorem mishap_calm {w : Store} {l : List Call} {op : Call} {r : Reply op}
    {g' : Store × List Call} (h : mishap.next (w, l) op r g') (hcalm : l ≠ [] ∨ ¬ op.IsWrite) :
    ∃ w' e, e.fault = false ∧ w.answer e op = some (r, w') ∧ g' = (w', l) := by
  rcases h with ⟨e, hans, hlog, hgood⟩
  cases hf : e.fault with
  | false => exact ⟨g'.1, e, hf, hans, Prod.ext rfl (by simpa [hf] using hlog)⟩
  | true =>
      simp only [hf, if_true] at hlog
      rcases hgood with hnil | ⟨op', hop', hone⟩
      · simp [hlog] at hnil
      · rw [hlog] at hone
        rcases List.append_eq_singleton_iff.1 hone with ⟨rfl, hop⟩ | ⟨-, hop⟩
        · rw [List.singleton_inj] at hop
          subst hop
          rcases hcalm with hne | hnot
          · exact absurd rfl hne
          · exact absurd hop' hnot
        · cases hop

/-- Without failures the mishap does not occur. -/
theorem wp_calm_of_mishap {α : Type} {p : Program Reply α} {Q : α → Store × List Call → Prop}
    {w : Store} (h : wp mishap p Q (w, [])) :
    wp (answeringWhere (fun e _ => e.fault = false) Store.answer) p (fun a w' => Q a (w', [])) w := by
  induction p generalizing w with
  | done a => exact h
  | ask op next ih =>
      refine ⟨trivial, ?_⟩
      rintro r w' ⟨e, hfault, hans⟩
      exact ih r (h.2 r (w', []) ⟨e, hans, by simp [hfault], .inl rfl⟩)

/-- A first write succeeds, or is the one that fails. -/
theorem mishap_write {w : Store} {c : DbCall} {r : Except DbError c.Val} {g' : Store × List Call}
    (h : mishap.next (w, []) (.db c) r g') :
    (∃ w' e, e.fault = false ∧ w.answer e (.db c) = some (r, w') ∧ g' = (w', [])) ∨
      (r = .error .unavailable ∧ g' = (w, [.db c])) := by
  rcases h with ⟨e, hans, hlog, -⟩
  cases hf : e.fault with
  | false => exact .inl ⟨g'.1, e, hf, hans, Prod.ext rfl (by simpa [hf] using hlog)⟩
  | true =>
      simp only [Store.answer, hf, if_true, Option.some.injEq, Prod.mk.injEq] at hans
      exact .inr ⟨hans.1.symm, Prod.ext hans.2.symm (by simpa [hf] using hlog)⟩

/-! ## Uploads on disk -/

/-- `w` is `w₀` with the given uploads under their final names. -/
structure Stored (w₀ : Store) (us : List PendingUpload) (w : Store) : Prop where
  db : w.db = w₀.db
  nodup : (us.map (·.id)).Nodup
  unlisted : ∀ u ∈ us, u.id ∉ w₀.db.attachmentIds
  absent : ∀ u ∈ us, w₀.files.attachments u.id = none
  present : ∀ u ∈ us, w.files.attachments u.id ≠ none
  others : ∀ id, id ∉ us.map (·.id) → w.files.attachments id = w₀.files.attachments id

namespace Stored

variable {w₀ w : Store} {us : List PendingUpload}

/-- Removing the file of one upload restores the directory exactly when it is the only one. -/
theorem erase_iff (h : Stored w₀ us w) {done rest : List PendingUpload} {u : PendingUpload}
    (hus : us = done ++ u :: rest) :
    Function.update w.files.attachments u.id none = w₀.files.attachments ↔ us.length = 1 := by
  refine ⟨fun heq => ?_, fun hlen => ?_⟩
  · -- The file of another upload would still be there.
    have hno : ∀ v ∈ us, v.id ≠ u.id → False := by
      intro v hv hne
      have hfile := congrFun heq v.id
      rw [Function.update_of_ne hne, h.absent v hv] at hfile
      exact h.present v hv hfile
    have hnodup := h.nodup
    subst hus
    simp only [List.map_append, List.map_cons, List.nodup_append, List.nodup_cons,
      List.mem_cons, List.mem_map] at hnodup
    cases done with
    | cons v _ =>
        exact (hno v (by simp) (hnodup.2.2 v.id ⟨v, by simp, rfl⟩ u.id (.inl rfl))).elim
    | nil =>
        cases rest with
        | nil => rfl
        | cons v _ =>
            refine (hno v (by simp) fun hid => hnodup.2.1.1 ⟨v, by simp, hid⟩).elim
  · have hone : us = [u] := by
      subst hus
      simp only [List.length_append, List.length_cons] at hlen
      have hdone : done = [] := List.length_eq_zero_iff.1 (by omega)
      have hrest : rest = [] := List.length_eq_zero_iff.1 (by omega)
      simp [hdone, hrest]
    funext id
    by_cases hid : id = u.id
    · subst hid
      rw [Function.update_self, h.absent u (by simp [hone])]
    · rw [Function.update_of_ne hid, h.others id (by simpa [hone] using hid)]

end Stored

/-! ## Cleaning up and reading the form -/

theorem length_fileParts (parts : Multipart) : (fileParts parts).length = (fileBytes parts).length := by
  induction parts with
  | nil => rfl
  | cons part rest ih =>
      cases part with
      | error e => exact ih
      | ok p => cases hup : p.upload? <;> simp [fileParts, fileBytes, Part.isUpload, hup, ih]

theorem Filed.stored {s : AppState} {w₀ w : Store} {us : List PendingUpload} {ps : List Part}
    (h : Filed s w₀ us ps w) : Stored w₀ us w :=
  ⟨h.db, h.nodup, h.unlisted, h.absent, fun _ => h.file_ne_none, h.others⟩

/-- A part of the request that only touches files meets no failure. -/
theorem wp_mishap_of_calm {α : Type} {R : α → Prop} {p : Program Reply α} {Q : α → Store → Prop}
    {Q' : α → Store × List Call → Prop} {w : Store} {l : List Call}
    (h : wp (answeringWhere (fun e _ => e.fault = false) Store.answer) p Q w)
    (huses : Uses Call.IsFile R p) (hQ : ∀ a w', Q a w' → Q' a (w', l)) :
    wp mishap p Q' (w, l) := by
  unfold Uses at huses
  induction p generalizing w with
  | done a => exact hQ a w h
  | ask op next ih =>
      have hop : ¬ op.IsWrite := by
        intro hwrite
        cases op with
        | file c => exact hwrite.elim
        | _ => exact huses.1.elim
      refine ⟨trivial, fun r g' hnext => ?_⟩
      rcases mishap_calm hnext (.inr hop) with ⟨w', e, hfault, hans, rfl⟩
      exact ih r (h.2 r w' ⟨e, hfault, hans⟩) (huses.2 r () trivial)

theorem wp_cleanup_mishap (us : List PendingUpload) (w : Store) (l : List Call)
    {Q : Unit → Store × List Call → Prop}
    (hQ : ∀ w', w'.db = w.db → (∀ id, w'.files.attachments id =
      if id ∈ us.map (·.id) then none else w.files.attachments id) → Q () (w', l)) :
    wp mishap (cleanupUploads us) Q (w, l) := by
  refine wp_cleanupUploads_files (fun w => (w, l)) ?_ (fun _ _ => trivial) us w
    fun files _ hfiles => hQ { w with files } rfl hfiles
  intro w id r g' hnext
  rcases mishap_calm hnext (.inr not_false) with ⟨w₁, e, hfault, hans, rfl⟩
  rw [Store.answer_deleteAttachment_calm hans hfault]

theorem wp_parseRecordForm_mishap (s : AppState) (w : Store) (parts : Multipart)
    (len : Option Nat) {Q : Except Response ParsedRecordForm → Store × List Call → Prop}
    (herr : ∀ resp w', Q (.error resp) (w', []))
    (hok : ∀ form w', Stored w form.uploads w' → form.uploads.length = (fileBytes parts).length →
      Q (.ok form) (w', [])) :
    wp mishap (parseRecordForm s parts len) Q (w, []) := by
  refine wp_mishap_of_calm (wp_parseRecordForm_files (s := s) (fun _ _ h _ => h) parts len w)
    (uses_parseRecordForm s parts len) fun r w' hr => ?_
  cases r with
  | error resp => exact herr resp w'
  | ok form => exact hok form w' hr.1.stored (hr.1.holds.length_eq.trans (length_fileParts parts))

/-! ## Inserting the rows -/

/-- What `insert_uploads` leaves behind when the insert of one upload fails. -/
structure Stopped (recordId : String) (ts : Int) (us : List PendingUpload) (w : Store)
    (g : Store × List Call) : Prop where
  failed : ∃ a, g.2 = [.db (.insertAttachment a)]
  records : g.1.db.records = w.db.records
  split : ∃ before u after, us = before ++ u :: after ∧
    g.1.db.attachments = w.db.attachments ++ before.map (attachmentRow recordId ts) ∧
    g.1.files.attachments = Function.update w.files.attachments u.id none

theorem wp_insertUploads_mishap (recordId : String) (ts : Int) (us : List PendingUpload)
    (w : Store) (hrecord : recordId ∈ w.db.recordIds) (hnodup : (us.map (·.id)).Nodup)
    (hunlisted : ∀ u ∈ us, u.id ∉ w.db.attachmentIds) :
    wp mishap (insertUploads recordId ts us) (fun r g =>
      match r with
      | .ok _ => g.2 = [] ∧ g.1.db.records = w.db.records
      | .error _ => Stopped recordId ts us w g) (w, []) := by
  induction us generalizing w with
  | nil => exact ⟨rfl, rfl⟩
  | cons u rest ih =>
      simp only [insertUploads, wp_bind, wp_perform]
      refine ⟨trivial, fun r g' hnext => ?_⟩
      rcases mishap_write hnext with ⟨w₁, e, hfault, hans, rfl⟩ | ⟨rfl, rfl⟩
      · simp only [List.map_cons, List.nodup_cons] at hnodup
        cases r with
        | error err =>
            -- The row is refused by no constraint.
            rcases (Store.answer_db_error hans).2 with hf | hexec
            · rw [hfault] at hf
              cases hf
            · rcases Db.of_exec_insertAttachment_error hexec with hkey | href
              · exact absurd hkey (hunlisted u (by simp))
              · exact absurd hrecord href
        | ok _ =>
            rcases Store.answer_db_ok hans with ⟨db, -, hexec, rfl⟩
            rcases Db.insertAttachment_eq_ok (Db.of_exec_insertAttachment hexec) with
              ⟨-, -, hrecords, hrows⟩
            refine wp_mono (ih { w with db } ?_ hnodup.2 ?_) ?_
            · rw [Db.recordIds, hrecords]
              exact hrecord
            · intro v hv
              simp only [Db.attachmentIds, hrows, List.map_append, List.mem_append, List.map_cons,
                List.map_nil, List.mem_singleton, not_or]
              refine ⟨hunlisted v (by simp [hv]), fun hid => ?_⟩
              exact hnodup.1 (List.mem_map.2 ⟨v, hv, hid⟩)
            · intro r g hr
              cases r with
              | ok _ => exact ⟨hr.1, hr.2.trans hrecords⟩
              | error err =>
                  -- A later insert fails: this upload has its row by then.
                  rcases hr.split with ⟨before, v, after, hus, hatt, hfiles⟩
                  refine ⟨hr.failed, hr.records.trans hrecords, u :: before, v, after, ?_, ?_,
                    hfiles⟩
                  · simp [hus]
                  · simp [hatt, hrows]
      · simp only [wp_bind, wp_perform]
        refine ⟨trivial, fun r g' hnext => ?_⟩
        rcases mishap_calm hnext (.inr not_false) with ⟨w₁, e, hfault, hans, rfl⟩
        obtain rfl := Store.answer_deleteAttachment_calm hans hfault
        -- The failure is here: the file of this upload is removed, and the rest is left.
        exact ⟨⟨_, rfl⟩, rfl, [], u, rest, rfl, by simp, rfl⟩

/-! ## Creating a record -/

/-- Everything that the request could have changed is as before. -/
structure Restored (w w' : Store) : Prop where
  records : w'.db.records = w.db.records
  attachments : w'.db.attachments = w.db.attachments
  files : w'.files.attachments = w.files.attachments

/-- The write that fails is that of the record, or nothing else was uploaded. -/
def RolledBack (parts : Multipart) : Call → Prop
  | .db (.insertAttachment _) => (fileBytes parts).length = 1
  | _ => True

theorem Stored.restored {w₀ w w' : Store} {us : List PendingUpload} (h : Stored w₀ us w)
    (hdb : w'.db = w.db) (hfiles : ∀ id, w'.files.attachments id =
      if id ∈ us.map (·.id) then none else w.files.attachments id) : Restored w₀ w' := by
  refine ⟨by rw [hdb, h.db], by rw [hdb, h.db], funext fun id => ?_⟩
  rw [hfiles id]
  split_ifs with hmem
  · rcases List.mem_map.1 hmem with ⟨u, hu, rfl⟩
    exact (h.absent u hu).symm
  · exact h.others id hmem

/-- The cascading delete takes the record and its new rows back; of the files it took only one. -/
theorem restored_of_stopped {w w₁ w₂ : Store} {g : Store × List Call} {id : String} {ts : Int}
    {us : List PendingUpload} {row : RecordRow} (h : Stopped id ts us w₂ g)
    (hstored : Stored w us w₁) (hid : id ∉ w.db.recordIds)
    (hrecords : w₂.db.records = w.db.records ++ [row]) (hrow : row.id = id)
    (hatt : w₂.db.attachments = w.db.attachments)
    (hfiles : w₂.files.attachments = w₁.files.attachments) :
    Restored w { g.1 with db := (g.1.db.deleteRecord id).2 } ↔ us.length = 1 := by
  rcases h.split with ⟨before, u, after, hus, hrows, hfile⟩
  have hdb : (g.1.db.deleteRecord id).2 = w.db :=
    Db.deleteRecord_back hid (h.records.trans hrecords) hrow (hatt ▸ hrows) (by simp [attachmentRow])
  rw [← hstored.erase_iff hus]
  refine ⟨fun hr => ?_, fun heq => ⟨by rw [hdb], by rw [hdb], ?_⟩⟩
  · rw [← hr.files, ← hfiles, ← hfile]
  · rw [← heq, ← hfiles, ← hfile]

theorem wp_createWith_mishap (s : AppState) (headers : HeaderMap) (parts : Multipart)
    (failed : Response) (done : String → Response) (w : Store) (hfailed : ¬ failed.Success) :
    wp mishap (createWith s headers parts failed done) (fun resp g => ∀ op, g.2 = [op] →
      ¬ resp.Success ∧ (Restored w g.1 ↔ RolledBack parts op)) (w, []) := by
  simp only [createWith, wp_bind]
  refine wp_parseRecordForm_mishap s w parts _ (fun _ _ => of_no_failure) ?_
  intro form w₁ hstored hlen
  simp only [wp_bind, wp_perform]
  -- The id, the clock and the nonce cannot fail.
  refine ⟨trivial, fun id g' hnext => ?_⟩
  rcases mishap_calm hnext (.inr not_false) with ⟨w₂, e, -, hans, rfl⟩
  rcases Store.answer_newV4 hans with ⟨hfresh, rfl⟩
  refine ⟨trivial, fun ts g' hnext => ?_⟩
  rcases mishap_calm hnext (.inr not_false) with ⟨w₂, e₂, -, hans, rfl⟩
  cases hans
  refine ⟨trivial, fun nonce g' hnext => ?_⟩
  rcases mishap_calm hnext (.inr not_false) with ⟨w₂, e₃, -, hans, rfl⟩
  cases hans
  refine ⟨trivial, fun r g' hnext => ?_⟩
  rcases mishap_write hnext with ⟨w₂, e₄, hfault, hans, rfl⟩ | ⟨rfl, rfl⟩
  · have hid : id ∉ w.db.recordIds := by
      rw [← hstored.db]
      exact hfresh.record
    rcases Store.answer_createRecord_calm hans hfault hfresh.record with ⟨rfl, db, hdb, rfl⟩
    rcases Db.createRecord_eq_ok hdb with ⟨-, hrecords, hatt⟩
    simp only [wp_bind]
    refine wp_mono (wp_insertUploads_mishap id e₂.now form.uploads _ ?_ hstored.nodup ?_) ?_
    · simp [Db.recordIds, hrecords]
    · intro u hu
      rw [Db.attachmentIds, hatt, hstored.db]
      exact hstored.unlisted u hu
    · rintro r ⟨w₃, l⟩ hr
      cases r with
      | ok _ =>
          rw [show l = [] from hr.1]
          simp only [wp_bind, wp_perform]
          refine ⟨trivial, fun _ g' hnext => ?_⟩
          rcases mishap_calm hnext (.inr not_false) with ⟨_, _, _, _, rfl⟩
          exact of_no_failure
      | error err =>
          rcases hr.failed with ⟨a, ha⟩
          rw [show l = [.db (.insertAttachment a)] from ha] at hr ⊢
          simp only [wp_bind, wp_perform]
          refine ⟨trivial, fun r g' hnext => ?_⟩
          rcases mishap_calm hnext (.inl (by simp)) with ⟨w₄, e₅, hfault₅, hans₅, rfl⟩
          -- The failed insert is the one failure, so the delete goes through.
          rcases Store.answer_db_calm hans₅ hfault₅ rfl with ⟨-, rfl⟩
          intro op hop
          rw [List.singleton_inj] at hop
          refine ⟨hfailed, ?_⟩
          rw [← hop, RolledBack, ← hlen]
          rw [hstored.db] at hrecords hatt
          exact restored_of_stopped hr hstored hid hrecords rfl hatt rfl
  · -- The record is not written: all files are removed.
    simp only [wp_bind]
    refine wp_cleanup_mishap _ _ _ fun w₃ hdb hfiles op hop => ⟨hfailed, ?_⟩
    rw [List.singleton_inj] at hop
    rw [← hop]
    exact iff_of_true (hstored.restored hdb hfiles) trivial

/-- When the record, or one of the inserts, cannot be written, the store is as before exactly when
`RolledBack` holds of the call that failed. -/
theorem create_rolledBack_iff (s : AppState) (headers : HeaderMap) (parts : Multipart)
    {handler : AppState → HeaderMap → Multipart → Program Reply Response}
    (hhandler : handler = createRecord ∨ handler = apiCreateRecord) {w w' : Store}
    {tr : List (Asked Reply Env)} {resp : Response} {op : Call}
    (hrun : Runs Store.answer w (handler s headers parts) tr w' resp)
    (hfail : failures tr = [op]) (hop : op.IsWrite) :
    ¬ resp.Success ∧ (Restored w w' ↔ RolledBack parts op) := by
  rcases hhandler with rfl | rfl
  · exact mishap_of_runs hrun hfail hop
      (wp_createWith_mishap s headers parts _ _ w (by decide)) op rfl
  · exact mishap_of_runs hrun hfail hop
      (wp_createWith_mishap s headers parts _ _ w (by decide)) op rfl

/-- One upload and a refused row: everything is taken back. -/
theorem create_rolledBack_iff_run : ∃ tr w' resp,
    Runs Store.answer .empty (createRecord .plain noHeaders (form "a" "b" [[1]])) tr w' resp ∧
      Restored .empty w' := by
  have hrun : ∃ tr w' resp,
      Runs Store.answer .empty (createRecord .plain noHeaders (form "a" "b" [[1]])) tr w' resp ∧
        failures tr = [.db (.insertAttachment (attachmentRow "r1" 0
          { id := "f1", originalFilename := "a.bin", mimeType := "application/octet-stream"
            size := 1 }))] := by
    refine exists_runs [{ uuid := "f1" }, {}, {}, { uuid := "r1" }, {}, {}, {}, { fault := true },
      {}, {}] ?_
    decide
  rcases hrun with ⟨tr, w', resp, hrun, hfail⟩
  refine ⟨tr, w', resp, hrun, ?_⟩
  exact (create_rolledBack_iff .plain noHeaders _ (.inl rfl) hrun hfail trivial).2.2 rfl

/-- Two uploads, and the row of the second is refused: the file of the first stays. -/
theorem create_leaves_upload :
    ¬ ∀ (s : AppState) (headers : HeaderMap) (parts : Multipart) (w w' : Store)
      (tr : List (Asked Reply Env)) (resp : Response) (op : Call),
      Runs Store.answer w (createRecord s headers parts) tr w' resp → failures tr = [op] →
        op.IsWrite → ¬ resp.Success → Restored w w' := by
  intro hall
  have hrun : ∃ tr w' resp,
      Runs Store.answer .empty (createRecord .plain noHeaders (form "a" "b" [[1], [2]]))
        tr w' resp ∧
        (failures tr = [.db (.insertAttachment (attachmentRow "r1" 0
          { id := "f2", originalFilename := "a.bin", mimeType := "application/octet-stream"
            size := 1 }))] ∧ ¬ resp.Success ∧ w'.files.attachments "f1" = some [1]) := by
    refine exists_runs [{ uuid := "f1" }, {}, {}, { uuid := "f2" }, {}, {}, { uuid := "r1" }, {}, {},
      {}, {}, { fault := true }, {}, {}] ?_
    decide
  rcases hrun with ⟨tr, w', resp, hrun, hfail, hresp, hfile⟩
  have hfiles := (hall _ _ _ _ _ _ _ _ hrun hfail trivial hresp).files
  rw [hfiles] at hfile
  cases hfile

/-! ## Updating a record -/

/-- What a reader sees of the record, and the files, are as before. -/
structure SameRecord (c : Crypto) (id : String) (w w' : Store) : Prop where
  text : (w'.db.getRecord id).map (fun r => c.decrypt r.blob) =
    (w.db.getRecord id).map fun r => c.decrypt r.blob
  updatedAt : (w'.db.getRecord id).map (·.updatedAt) = (w.db.getRecord id).map (·.updatedAt)
  rows : w'.db.listAttachments id = w.db.listAttachments id
  files : w'.files.attachments = w.files.attachments

theorem Restored.sameRecord {w w' : Store} (h : Restored w w') (c : Crypto) (id : String) :
    SameRecord c id w w' := by
  have hget : w'.db.getRecord id = w.db.getRecord id := by rw [Db.getRecord, h.records]; rfl
  have hlist : w'.db.listAttachments id = w.db.listAttachments id := by
    rw [Db.listAttachments, h.attachments]
    rfl
  exact ⟨by rw [hget], by rw [hget], hlist, h.files⟩

/-- Writing the old text back restores the record; of the new files only one was removed. -/
theorem sameRecord_of_stopped {w w₁ w₂ : Store} {g : Store × List Call} {id : String} {ts : Int}
    {us : List PendingUpload} {row : RecordRow} {blob : Bytes} {now : Int} (c : Crypto)
    (h : Stopped id ts us w₂ g) (hstored : Stored w us w₁) (hrow : w.db.getRecord id = some row)
    (hrecords : w₂.db.records = (w.db.updateRecord id blob now).2.records)
    (hatt : w₂.db.attachments = w.db.attachments)
    (hfiles : w₂.files.attachments = w₁.files.attachments) :
    SameRecord c id w { g.1 with db := (g.1.db.updateRecord id row.blob row.updatedAt).2 } ↔
      us.length = 1 := by
  rcases h.split with ⟨before, u, after, hus, hrows, hfile⟩
  rw [hfiles] at hfile
  refine ⟨fun hsame => ?_, fun hlen => ?_⟩
  · rw [← hstored.erase_iff hus, ← hfile]
    exact hsame.files
  · -- With one upload there is none before the failing one, so no row was inserted.
    have hbefore : before = [] := by
      subst hus
      simp only [List.length_append, List.length_cons] at hlen
      exact List.length_eq_zero_iff.1 (by omega)
    refine Restored.sameRecord ⟨?_, ?_, ?_⟩ c id
    · exact Db.updateRecord_back hrow (h.records.trans hrecords)
    · simp [Db.updateRecord, hrows, hatt, hbefore]
    · rw [← (hstored.erase_iff hus).2 hlen]
      exact hfile

theorem wp_updateRecord_mishap (s : AppState) (id : String) (headers : HeaderMap)
    (parts : Multipart) (w : Store) :
    wp mishap (updateRecord s id headers parts) (fun resp g => ∀ op, g.2 = [op] →
      ¬ resp.Success ∧ (SameRecord s.crypto id w g.1 ↔ RolledBack parts op)) (w, []) := by
  simp only [updateRecord, wp_bind, wp_perform]
  refine ⟨trivial, fun r g' hnext => ?_⟩
  rcases mishap_calm hnext (.inr not_false) with ⟨w₀, e, hfault, hans, rfl⟩
  rcases Store.answer_db_calm hans hfault rfl with ⟨rfl, rfl⟩
  cases hrow : w.db.getRecord id with
  | none => exact of_no_failure
  | some row =>
      dsimp only
      split
      · exact of_no_failure
      simp only [wp_bind]
      refine wp_parseRecordForm_mishap s w parts _ (fun _ _ => of_no_failure) ?_
      intro form w₁ hstored hlen
      simp only [wp_bind, wp_perform]
      refine ⟨trivial, fun ts g' hnext => ?_⟩
      rcases mishap_calm hnext (.inr not_false) with ⟨w₂, e₂, -, hans, rfl⟩
      cases hans
      refine ⟨trivial, fun nonce g' hnext => ?_⟩
      rcases mishap_calm hnext (.inr not_false) with ⟨w₂, e₃, -, hans, rfl⟩
      cases hans
      refine ⟨trivial, fun r g' hnext => ?_⟩
      rcases mishap_write hnext with ⟨w₂, e₄, hfault₄, hans, rfl⟩ | ⟨rfl, rfl⟩
      · -- The record is written, so a failure can only be that of an insert.
        rcases Store.answer_db_calm hans hfault₄ rfl with ⟨rfl, rfl⟩
        cases hfound : (w₁.db.updateRecord id (s.crypto.encrypt e₃.nonce form.title form.content)
            e₂.now).1 with
        | false => exact of_no_failure
        | true =>
            simp only [wp_bind]
            refine wp_mono (wp_insertUploads_mishap id e₂.now form.uploads _ ?_ hstored.nodup ?_) ?_
            · simpa [Db.updateRecord] using hfound
            · intro u hu
              have hnot := hstored.unlisted u hu
              rw [← hstored.db] at hnot
              exact hnot
            · rintro r ⟨w₃, l⟩ hr
              cases r with
              | ok _ =>
                  rw [show l = [] from hr.1]
                  simp only [wp_bind, wp_perform]
                  refine ⟨trivial, fun _ g' hnext => ?_⟩
                  rcases mishap_calm hnext (.inr not_false) with ⟨_, _, _, _, rfl⟩
                  exact of_no_failure
              | error err =>
                  -- The old text is written back; this second write is not the one that fails.
                  rcases hr.failed with ⟨a, ha⟩
                  rw [show l = [.db (.insertAttachment a)] from ha] at hr ⊢
                  simp only [wp_bind, wp_perform]
                  refine ⟨trivial, fun r g' hnext => ?_⟩
                  rcases mishap_calm hnext (.inl (by simp)) with ⟨w₄, e₅, hfault₅, hans₅, rfl⟩
                  rcases Store.answer_db_calm hans₅ hfault₅ rfl with ⟨-, rfl⟩
                  intro op hop
                  rw [List.singleton_inj] at hop
                  refine ⟨by decide, ?_⟩
                  rw [← hop, RolledBack, ← hlen]
                  have hrecords := congrArg (fun db => (Db.updateRecord db id
                    (s.crypto.encrypt e₃.nonce form.title form.content) e₂.now).2.records) hstored.db
                  have hatt : w₁.db.attachments = w.db.attachments := by rw [hstored.db]
                  exact sameRecord_of_stopped s.crypto hr hstored hrow hrecords hatt rfl
      · -- The record is not written, and the cleanup removes the new files.
        simp only [wp_bind]
        refine wp_cleanup_mishap _ _ _ fun w₃ hdb hfiles op hop => ⟨by decide, ?_⟩
        rw [List.singleton_inj] at hop
        rw [← hop]
        exact iff_of_true ((hstored.restored hdb hfiles).sameRecord s.crypto id) trivial

/-- When the record, or one of the inserts, cannot be written, the record and the files are as
before exactly when `RolledBack` holds of the call that failed. -/
theorem update_rolledBack_iff (s : AppState) (id : String) (headers : HeaderMap)
    (parts : Multipart) {w w' : Store} {tr : List (Asked Reply Env)} {resp : Response} {op : Call}
    (hrun : Runs Store.answer w (updateRecord s id headers parts) tr w' resp)
    (hfail : failures tr = [op]) (hop : op.IsWrite) :
    ¬ resp.Success ∧ (SameRecord s.crypto id w w' ↔ RolledBack parts op) :=
  mishap_of_runs hrun hfail hop (wp_updateRecord_mishap s id headers parts w) op rfl

/-- The record cannot be written: both uploads are removed. -/
theorem update_rolledBack_iff_run : ∃ tr w' resp,
    Runs Store.answer oneRecord (updateRecord .plain "r1" noHeaders (form "c" "d" [[1], [2]]))
      tr w' resp ∧ SameRecord AppState.plain.crypto "r1" oneRecord w' := by
  have hrun : ∃ tr w' resp,
      Runs Store.answer oneRecord (updateRecord .plain "r1" noHeaders (form "c" "d" [[1], [2]]))
        tr w' resp ∧
        failures tr = [.db (.updateRecord "r1"
          (AppState.plain.crypto.encrypt Plain.nonce "c" "d") 0)] := by
    refine exists_runs [{}, { uuid := "f1" }, {}, {}, { uuid := "f2" }, {}, {}, {}, {},
      { fault := true }, {}, {}] ?_
    decide
  rcases hrun with ⟨tr, w', resp, hrun, hfail⟩
  refine ⟨tr, w', resp, hrun, ?_⟩
  exact (update_rolledBack_iff .plain "r1" noHeaders _ hrun hfail trivial).2.2 trivial

/-- Two uploads, and the row of the second is refused: the first stays, row and file. -/
theorem update_keeps_upload :
    ¬ ∀ (s : AppState) (id : String) (headers : HeaderMap) (parts : Multipart) (w w' : Store)
      (tr : List (Asked Reply Env)) (resp : Response) (op : Call),
      (∃ row text, w.db.getRecord id = some row ∧ s.crypto.decrypt row.blob = .ok text) →
      Runs Store.answer w (updateRecord s id headers parts) tr w' resp → failures tr = [op] →
        op.IsWrite → ¬ resp.Success → SameRecord s.crypto id w w' := by
  intro hall
  have hrun : ∃ tr w' resp,
      Runs Store.answer oneRecord (updateRecord .plain "r1" noHeaders (form "c" "d" [[1], [2]]))
        tr w' resp ∧
        (failures tr = [.db (.insertAttachment (attachmentRow "r1" 0
          { id := "f2", originalFilename := "a.bin", mimeType := "application/octet-stream"
            size := 1 }))] ∧ ¬ resp.Success ∧ w'.db.attachmentIds = ["f1"] ∧
          w'.files.attachments "f1" = some [1]) := by
    refine exists_runs [{}, { uuid := "f1" }, {}, {}, { uuid := "f2" }, {}, {}, {}, {}, {}, {},
      { fault := true }, {}, {}] ?_
    decide
  rcases hrun with ⟨tr, w', resp, hrun, hfail, hresp, -, hfile⟩
  have hrow : ∃ row text, oneRecord.db.getRecord "r1" = some row ∧
      AppState.plain.crypto.decrypt row.blob = .ok text := ⟨_, ("a", "b"), rfl, by decide⟩
  have hfiles := (hall _ _ _ _ _ _ _ _ _ hrow hrun hfail trivial hresp).files
  rw [hfiles] at hfile
  cases hfile

end Aardbin
