import Aardbin.Notify.Unsent
import Aardbin.Rollback

/-!
# What a failing request changes without a notification

A request runs alone and some of its calls fail.  A change is left unannounced by a create that
cannot delete its record again, by an update whose rollback leaves something behind, and by the
removal of an attachment whose record cannot be touched; in all other runs the last write is
followed by a `send`.
-/

namespace Aardbin

open Effect

/-! ## The calls of a run -/

def failedCall? : Asked Reply Env → Option DbCall
  | ⟨_, .db c, .error _⟩ => some c
  | _ => none

def succeededCall? : Asked Reply Env → Option DbCall
  | ⟨_, .db c, .ok _⟩ => some c
  | _ => none

/-- The database calls that were answered with an error. -/
def failedCalls (tr : List (Asked Reply Env)) : List DbCall :=
  tr.filterMap failedCall?

def succeededCalls (tr : List (Asked Reply Env)) : List DbCall :=
  tr.filterMap succeededCall?

/-- The last write of the run is followed by a notification. -/
def SentLast (tr : List (Asked Reply Env)) : Prop :=
  ∃ before e after, tr = before ++ ⟨e, .send, ()⟩ :: after ∧
    ∀ x ∈ after, x.op.writes x.reply = false

/-- If the tables have changed, the last change was announced. -/
def Notified (w w' : Store) (tr : List (Asked Reply Env)) : Prop :=
  w'.db ≠ w.db → SentLast tr

/-- The failures after which a change stays and nobody is told, from the state `w` on. -/
def Mute (w : Store) (tr : List (Asked Reply Env)) : Request → Prop
  | .create _ _ | .apiCreate _ _ => ∃ id, .deleteRecord id ∈ failedCalls tr
  | .update id _ _ =>
      (∃ a, .insertAttachment a ∈ failedCalls tr) ∧
        ((∃ a, .insertAttachment a ∈ succeededCalls tr) ∨
          (∃ blob now, .updateRecord id blob now ∈ failedCalls tr) ∧
            ∃ blob now, .updateRecord id blob now ∈ succeededCalls tr ∧
              (w.db.updateRecord id blob now).2 ≠ w.db)
  | .delete _ | .apiDelete _ => False
  | .deleteAttachment _ _ _ => ∃ id now, .touchRecord id now ∈ failedCalls tr

section Calls

variable {tr tr' : List (Asked Reply Env)}

@[simp] theorem failedCalls_nil : failedCalls [] = [] := rfl
@[simp] theorem succeededCalls_nil : succeededCalls [] = [] := rfl

@[simp] theorem failedCalls_cons (x : Asked Reply Env) :
    failedCalls (x :: tr) = (failedCall? x).toList ++ failedCalls tr := by
  unfold failedCalls
  rw [List.filterMap_cons]
  cases failedCall? x <;> rfl

@[simp] theorem succeededCalls_cons (x : Asked Reply Env) :
    succeededCalls (x :: tr) = (succeededCall? x).toList ++ succeededCalls tr := by
  unfold succeededCalls
  rw [List.filterMap_cons]
  cases succeededCall? x <;> rfl

@[simp] theorem failedCalls_append : failedCalls (tr ++ tr') = failedCalls tr ++ failedCalls tr' :=
  List.filterMap_append

@[simp] theorem succeededCalls_append :
    succeededCalls (tr ++ tr') = succeededCalls tr ++ succeededCalls tr' :=
  List.filterMap_append

theorem failedCalls_of_isFile (h : ∀ x ∈ tr, x.op.IsFile) : failedCalls tr = [] := by
  refine List.filterMap_eq_nil_iff.2 fun x hx => ?_
  rcases x with ⟨e, op, r⟩
  have hop := h _ hx
  cases op with
  | file c => rfl
  | _ => exact hop.elim

theorem succeededCalls_of_isFile (h : ∀ x ∈ tr, x.op.IsFile) : succeededCalls tr = [] := by
  refine List.filterMap_eq_nil_iff.2 fun x hx => ?_
  rcases x with ⟨e, op, r⟩
  have hop := h _ hx
  cases op with
  | file c => rfl
  | _ => exact hop.elim

theorem SentLast.exists_send (h : SentLast tr) : ∃ x ∈ tr, x.op = .send := by
  rcases h with ⟨before, e, after, rfl, -⟩
  exact ⟨⟨e, .send, ()⟩, by simp, rfl⟩

end Calls

/-! ## Inserting the uploads -/

/-- The part of a run that inserts the rows of `done`, and then fails at `failedAt`, if at all. -/
structure Inserts (recordId : String) (ts : Int) (w w' : Store) (done : List PendingUpload)
    (failedAt : List DbCall) (more : List (Asked Reply Env)) : Prop where
  records : w'.db.records = w.db.records
  attachments : w'.db.attachments = w.db.attachments ++ done.map (attachmentRow recordId ts)
  failed : failedCalls more = failedAt
  succeeded : succeededCalls more = done.map fun u => .insertAttachment (attachmentRow recordId ts u)
  unsent : ∀ x ∈ more, x.op ≠ .send

theorem wp_insertUploads_recording (recordId : String) (ts : Int) (us : List PendingUpload)
    (w : Store) (log : List (Asked Reply Env))
    {Q : Except DbError Unit → Store × List (Asked Reply Env) → Prop}
    (hok : ∀ w' more, Inserts recordId ts w w' us [] more → Q (.ok ()) (w', log ++ more))
    (herr : ∀ err w' more done a, Inserts recordId ts w w' done [.insertAttachment a] more →
      Q (.error err) (w', log ++ more)) :
    wp (recording Store.answer) (insertUploads recordId ts us) Q (w, log) := by
  induction us generalizing w log with
  | nil => simpa [insertUploads] using hok w [] ⟨rfl, by simp, rfl, rfl, by simp⟩
  | cons u rest ih =>
      simp only [insertUploads, wp_bind, wp_perform]
      refine recording_step fun e r w₁ hans => ?_
      cases r with
      | error err =>
          obtain rfl := (Store.answer_db_error hans).1
          simp only [wp_bind, wp_perform]
          refine recording_step fun e' r w₂ hans' => ?_
          have hdb : w₂.db = w₁.db := Store.db_answer_of_isFile hans' trivial
          simpa using herr err w₂ [⟨e, .db (.insertAttachment (attachmentRow recordId ts u)), .error err⟩,
            ⟨e', .file (.deleteAttachment u.id), r⟩] [] _
            ⟨by rw [hdb], by simp [hdb], rfl, rfl, by simp⟩
      | ok _ =>
          rcases Store.answer_db_ok hans with ⟨db, -, hexec, rfl⟩
          rcases Db.insertAttachment_eq_ok (Db.of_exec_insertAttachment hexec) with
            ⟨-, -, hrecords, hrows⟩
          -- One row is in, and the rest of the run inserts the others.
          refine ih _ _ (fun w' more h => ?_) (fun err w' more done a h => ?_)
          · simpa using hok w' (⟨e, .db (.insertAttachment (attachmentRow recordId ts u)), .ok ()⟩ ::
              more) ⟨h.records.trans hrecords, by simp [h.attachments, hrows], h.failed,
                by simp [succeededCall?, h.succeeded], by simpa using h.unsent⟩
          · simpa using herr err w' (⟨e, .db (.insertAttachment (attachmentRow recordId ts u)),
              .ok ()⟩ :: more) (u :: done) a ⟨h.records.trans hrecords, by simp [h.attachments, hrows],
                h.failed, by simp [succeededCall?, h.succeeded],
                by simpa using h.unsent⟩

/-! ## The handlers -/

theorem wp_files_recording {α : Type} {R : α → Prop} {p : Program Reply α}
    {Q : α → Store × List (Asked Reply Env) → Prop} {w : Store} {log : List (Asked Reply Env)}
    (h : Uses Call.IsFile R p)
    (hQ : ∀ a w' more, R a → w'.db = w.db → (∀ x ∈ more, x.op.IsFile) → Q a (w', log ++ more)) :
    wp (recording Store.answer) p Q (w, log) := by
  refine wp_recording_of_uses (fun w' => w'.db = w.db) ?_ h rfl hQ
  exact fun e w₁ op r w₂ hop hans hdb => (Store.db_answer_of_isFile hans hop).trans hdb

theorem notified_of_eq {w w' : Store} (tr : List (Asked Reply Env)) (h : w'.db = w.db) :
    Notified w w' tr :=
  fun hne => absurd h hne

/-- A change in a run without `send` is not announced. -/
theorem not_notified {w w' : Store} {tr : List (Asked Reply Env)} (h : w'.db ≠ w.db)
    (hsend : ∀ x ∈ tr, x.op ≠ .send) : ¬ Notified w w' tr := by
  intro hnot
  rcases (hnot h).exists_send with ⟨x, hx, hop⟩
  exact hsend x hx hop

theorem unsent_of_isFile {tr : List (Asked Reply Env)} (h : ∀ x ∈ tr, x.op.IsFile) :
    ∀ x ∈ tr, x.op ≠ .send := by
  intro x hx hop
  have hfile := h x hx
  rw [hop] at hfile
  exact hfile

theorem wp_createWith_recording (s : AppState) (headers : HeaderMap) (parts : Multipart)
    (failed : Response) (done : String → Response) (w : Store) :
    wp (recording Store.answer) (createWith s headers parts failed done)
      (fun _ g => Notified w g.1 g.2 ↔ ¬ ∃ id, .deleteRecord id ∈ failedCalls g.2) (w, []) := by
  simp only [createWith, wp_bind]
  refine wp_files_recording (uses_parseRecordForm s parts _) fun r w₁ read _ hdb₁ hread => ?_
  cases r with
  | error resp =>
      exact iff_of_true (notified_of_eq _ hdb₁) (by simp [failedCalls_of_isFile hread])
  | ok form =>
      simp only [wp_bind, wp_perform]
      refine recording_step fun e₁ id w₂ hid => ?_
      refine recording_step fun e₂ ts w₃ hts => ?_
      refine recording_step fun e₃ nonce w₄ hnonce => ?_
      cases hts
      cases hnonce
      rcases Store.answer_newV4 hid with ⟨hfresh, rfl⟩
      have hnew : id ∉ w.db.recordIds := by
        rw [← hdb₁]
        exact hfresh.record
      refine recording_step fun e₄ r w₅ hcreate => ?_
      cases r with
      | error err =>
          obtain rfl := (Store.answer_db_error hcreate).1
          simp only [wp_bind]
          refine wp_files_recording (uses_cleanupUploads _) fun _ w₆ clean _ hdb₆ hclean => ?_
          refine iff_of_true (notified_of_eq _ (hdb₆.trans hdb₁)) ?_
          simp [failedCalls_of_isFile hread, failedCalls_of_isFile hclean, failedCall?]
      | ok _ =>
          rcases Store.answer_db_ok hcreate with ⟨db, -, hexec, rfl⟩
          rcases Db.createRecord_eq_ok (Db.of_exec_createRecord hexec) with ⟨-, hrecords, hrows⟩
          simp only [wp_bind]
          refine wp_insertUploads_recording id e₂.now form.uploads _ _ (fun w₆ more h => ?_)
            (fun err w₆ more inserted a h => ?_)
          · simp only [wp_bind, wp_perform]
            refine recording_step fun e₅ _ w₇ hsend => ?_
            refine iff_of_true (fun _ => ⟨_, e₅, [], rfl, by simp⟩) ?_
            simp [failedCalls_of_isFile hread, h.failed, failedCall?]
          · simp only [wp_bind, wp_perform]
            refine recording_step fun e₅ r w₇ hdelete => ?_
            cases r with
            | error err =>
                -- The record stays.
                obtain rfl := (Store.answer_db_error hdelete).1
                refine iff_of_false (not_notified ?_ ?_) ?_
                · intro heq
                  have hlen := congrArg (fun db => db.records.length) heq
                  simp only [h.records, hrecords, hdb₁, List.length_append,
                    List.length_singleton] at hlen
                  omega
                · simpa [or_imp, forall_and] using ⟨unsent_of_isFile hread, h.unsent⟩
                · simp [failedCalls_of_isFile hread, h.failed, failedCall?]
            | ok ids =>
                refine iff_of_true (notified_of_eq _ ?_) ?_
                · rcases Store.answer_db_ok hdelete with ⟨db', -, hexec', rfl⟩
                  cases hexec'
                  rw [hdb₁] at hrecords hrows
                  exact Db.deleteRecord_back hnew (h.records.trans hrecords) rfl
                    (hrows ▸ h.attachments) (by simp [attachmentRow])
                · simp [failedCalls_of_isFile hread, h.failed, failedCall?]

/-- The rollback of an update whose uploads could not all be inserted. -/
theorem wp_writeBack_recording {w w₁ : Store} {log : List (Asked Reply Env)} {id : String}
    {row : RecordRow} {blob : Bytes} {ts : Int} {inserted : List PendingUpload} {a : AttachmentRow}
    (headers : HeaderMap) (parts : Multipart) (hrow : w.db.getRecord id = some row)
    (hrecords : w₁.db.records = (w.db.updateRecord id blob ts).2.records)
    (hatts : w₁.db.attachments = w.db.attachments ++ inserted.map (attachmentRow id ts))
    (hfailed : failedCalls log = [.insertAttachment a])
    (hsucceeded : succeededCalls log = .getRecord id :: .updateRecord id blob ts ::
      inserted.map fun u => .insertAttachment (attachmentRow id ts u))
    (hsilent : ∀ x ∈ log, x.op ≠ .send) :
    wp (recording Store.answer) (AskDb.updateRecord id row.blob row.updatedAt)
      (fun _ g => Notified w g.1 g.2 ↔ ¬ Mute w g.2 (.update id headers parts)) (w₁, log) := by
  simp only [wp_perform]
  refine recording_step fun e r w₂ hback => ?_
  have hsilent' : ∀ x ∈ log ++ [⟨e, .db (.updateRecord id row.blob row.updatedAt), r⟩],
      x.op ≠ .send := by
    simpa [or_imp, forall_and] using hsilent
  cases inserted with
  | cons u rest =>
      -- The rollback brings the text back, but an attachment stays.
      refine iff_of_false (not_notified (fun heq => ?_) hsilent') ?_
      · have hlen := congrArg (fun db => db.attachments.length) heq
        have hkept : w₂.db.attachments = w₁.db.attachments := by
          rcases Store.answer_db hback with ⟨_, -, rfl, -⟩ | ⟨v, db', -, hexec', -, rfl⟩
          · rfl
          · cases hexec'
            rfl
        simp [hkept, hatts] at hlen
      · rw [not_not]
        exact ⟨⟨a, by simp [hfailed]⟩, .inl ⟨attachmentRow id ts u, by simp [hsucceeded]⟩⟩
  | nil =>
      cases r with
      | ok found =>
          refine iff_of_true (notified_of_eq _ ?_) ?_
          · rcases Store.answer_db_ok hback with ⟨db', -, hexec', rfl⟩
            cases hexec'
            refine Db.ext (Db.updateRecord_back hrow hrecords) ?_
            simpa [Db.updateRecord] using hatts
          · simp [Mute, failedCall?, succeededCall?, hfailed, hsucceeded]
      | error err =>
          obtain rfl := (Store.answer_db_error hback).1
          have hdb : w₂.db = (w.db.updateRecord id blob ts).2 :=
            Db.ext hrecords (by simpa [Db.updateRecord] using hatts)
          -- The failing rollback matters only if there was something to roll back.
          by_cases heq : w₂.db = w.db
          · refine iff_of_true (notified_of_eq _ heq) ?_
            rw [hdb] at heq
            simp [Mute, failedCall?, succeededCall?, hfailed, hsucceeded, heq]
          · refine iff_of_false (not_notified heq hsilent') ?_
            rw [hdb] at heq
            rw [not_not]
            refine ⟨⟨a, by simp [hfailed]⟩, .inr ⟨⟨row.blob, row.updatedAt, ?_⟩, blob, ts, ?_, heq⟩⟩
            · simp [failedCall?]
            · simp [hsucceeded]

theorem wp_updateRecord_recording (s : AppState) (id : String) (headers : HeaderMap)
    (parts : Multipart) (w : Store) :
    wp (recording Store.answer) (updateRecord s id headers parts)
      (fun _ g => Notified w g.1 g.2 ↔ ¬ Mute w g.2 (.update id headers parts)) (w, []) := by
  simp only [updateRecord, wp_bind, wp_perform]
  refine recording_step fun e₀ r w₀ hget => ?_
  have hdb₀ : w₀.db = w.db := Store.db_answer_of_not_writes hget (by cases r <;> rfl)
  rcases r with err | _ | row
  · exact iff_of_true (notified_of_eq _ hdb₀) (by simp [Mute, failedCall?])
  · exact iff_of_true (notified_of_eq _ hdb₀) (by simp [Mute, failedCall?])
  · have hrow : w.db.getRecord id = some row := by
      rcases Store.answer_db_ok hget with ⟨db, -, hexec, -⟩
      exact (Prod.mk.inj (Except.ok.inj hexec)).1
    dsimp only
    split
    · exact iff_of_true (notified_of_eq _ hdb₀) (by simp [Mute, failedCall?])
    simp only [wp_bind]
    refine wp_files_recording (uses_parseRecordForm s parts _) fun r w₁ read _ hdb₁ hread => ?_
    rw [hdb₀] at hdb₁
    cases r with
    | error resp =>
        refine iff_of_true (notified_of_eq _ hdb₁) ?_
        simp [Mute, failedCall?, failedCalls_of_isFile hread]
    | ok form =>
        simp only [wp_bind, wp_perform]
        refine recording_step fun e₂ ts w₂ hts => ?_
        refine recording_step fun e₃ nonce w₃ hnonce => ?_
        cases hts
        cases hnonce
        generalize s.crypto.encrypt e₃.nonce form.title form.content = blob
        refine recording_step fun e₄ r w₄ hupdate => ?_
        rcases r with err | found
        · obtain rfl := (Store.answer_db_error hupdate).1
          simp only [wp_bind]
          refine wp_files_recording (uses_cleanupUploads _) fun _ w₅ clean _ hdb₅ hclean => ?_
          refine iff_of_true (notified_of_eq _ (hdb₅.trans hdb₁)) ?_
          simp [Mute, failedCall?, failedCalls_of_isFile hread, failedCalls_of_isFile hclean]
        · rcases Store.answer_db_ok hupdate with ⟨db, -, hexec, rfl⟩
          cases found with
          | false =>
              refine iff_of_true (notified_of_eq _ ((db_of_not_writes hexec rfl).trans hdb₁)) ?_
              simp [Mute, failedCall?, failedCalls_of_isFile hread]
          | true =>
              have hdb : db = (w.db.updateRecord id blob e₂.now).2 := by
                rw [← hdb₁]
                exact (Prod.mk.inj (Except.ok.inj hexec)).2.symm
              simp only [wp_bind]
              refine wp_insertUploads_recording id e₂.now form.uploads _ _ (fun w₅ more h => ?_)
                (fun err w₅ more inserted a h => ?_)
              · simp only [wp_bind, wp_perform]
                refine recording_step fun e₅ _ w₆ hsend => ?_
                refine iff_of_true (fun _ => ⟨_, e₅, [], rfl, by simp⟩) ?_
                simp [Mute, failedCall?, failedCalls_of_isFile hread, h.failed]
              · simp only [wp_bind]
                have hrecords : w₅.db.records = (w.db.updateRecord id blob e₂.now).2.records := by
                  rw [h.records, hdb]
                have hatts : w₅.db.attachments =
                    w.db.attachments ++ inserted.map (attachmentRow id e₂.now) := by
                  rw [h.attachments, hdb]
                  rfl
                refine wp_mono (wp_writeBack_recording headers parts hrow hrecords hatts
                  (?_ : failedCalls _ = [.insertAttachment a]) ?_ ?_) fun r g hg => hg
                · simp [failedCalls_of_isFile hread, h.failed, failedCall?]
                · simp [succeededCalls_of_isFile hread, h.succeeded, succeededCall?]
                · simpa [or_imp, forall_and] using ⟨unsent_of_isFile hread, h.unsent⟩

theorem wp_deleteWith_recording (id : String) (deleted missing failed : Response) (w : Store) :
    wp (recording Store.answer) (deleteWith id deleted missing failed)
      (fun _ g => Notified w g.1 g.2) (w, []) := by
  simp only [deleteWith, wp_bind, wp_perform]
  refine recording_step fun e r w₁ hdelete => ?_
  rcases r with err | _ | ids
  · exact notified_of_eq _ (Store.db_answer_of_not_writes hdelete rfl)
  · exact notified_of_eq _ (Store.db_answer_of_not_writes hdelete rfl)
  · simp only [wp_bind, wp_perform]
    refine wp_files_recording (uses_deleteFiles ids) fun _ w₂ files _ _ _ => ?_
    exact recording_step fun e₃ _ w₃ _ _ => ⟨_, e₃, [], rfl, by simp⟩

theorem wp_deleteAttachment_recording (s : AppState) (recordId attachmentId : String)
    (headers : HeaderMap) (w : Store) :
    wp (recording Store.answer) (deleteAttachment s recordId attachmentId headers)
      (fun _ g => Notified w g.1 g.2 ↔ ¬ ∃ id now, .touchRecord id now ∈ failedCalls g.2)
      (w, []) := by
  simp only [deleteAttachment, wp_bind, wp_perform]
  refine recording_step fun e r w₁ hdelete => ?_
  rcases r with err | _ | row
  · refine iff_of_true (notified_of_eq _ (Store.db_answer_of_not_writes hdelete rfl)) ?_
    simp [failedCall?]
  · refine iff_of_true (notified_of_eq _ (Store.db_answer_of_not_writes hdelete rfl)) ?_
    simp [failedCall?]
  · simp only [wp_bind, wp_perform]
    refine recording_step fun e₂ _ w₂ hfile => ?_
    refine recording_step fun e₃ ts w₃ hts => ?_
    cases hts
    refine recording_step fun e₄ r w₄ htouch => ?_
    cases r with
    | error err =>
        obtain rfl := (Store.answer_db_error htouch).1
        refine iff_of_false (not_notified ?_ (by simp)) (by simp [failedCall?])
        -- The row of the attachment is gone.
        rw [Store.db_answer_of_isFile hfile trivial]
        rcases Store.answer_db_ok hdelete with ⟨db, -, hexec, rfl⟩
        rcases Db.deleteAttachment_eq_some (Except.ok.inj hexec) with ⟨hmem, hid, hrec, -, hrows⟩
        intro heq
        have hgone : row ∈ db.attachments := by
          rw [show db = w.db from heq]
          exact hmem
        rw [hrows] at hgone
        simp [hid, hrec] at hgone
    | ok _ =>
        simp only [wp_bind, wp_perform]
        refine recording_step fun e₅ _ w₅ hsend => ?_
        refine recording_step fun e₆ r w₆ hlist => ?_
        have hsent : SentLast ([] ++ [⟨e, .db (.deleteAttachment recordId attachmentId), .ok (some row)⟩] ++
            [⟨e₂, .file (.deleteAttachment attachmentId), ()⟩] ++ [⟨e₃, .now, e₃.now⟩] ++
            [⟨e₄, .db (.touchRecord recordId e₃.now), .ok ()⟩] ++ [⟨e₅, .send, ()⟩] ++
            [⟨e₆, .db (.listAttachments recordId), r⟩]) := by
          refine ⟨_, e₅, [⟨e₆, .db (.listAttachments recordId), r⟩], List.append_assoc _ _ _, ?_⟩
          cases r <;> simp [Call.writes, DbCall.writes]
        cases r with
        | error err => exact iff_of_true (fun _ => hsent) (by simp [failedCall?])
        | ok rows => exact iff_of_true (fun _ => hsent) (by simp [failedCall?])

/-- Whatever fails, a request that has changed the tables tells so after its last change, unless it
is `Mute`. -/
theorem notified_iff_not_mute (s : AppState) (req : Request) {w w' : Store}
    {tr : List (Asked Reply Env)} {resp : Response}
    (hrun : Runs Store.answer w (handle s req) tr w' resp) :
    Notified w w' tr ↔ ¬ Mute w tr req := by
  cases req with
  | create headers parts => exact hrun.of_recording (wp_createWith_recording s headers parts _ _ w)
  | apiCreate headers parts =>
      exact hrun.of_recording (wp_createWith_recording s headers parts _ _ w)
  | update id headers parts => exact hrun.of_recording (wp_updateRecord_recording s id headers parts w)
  | delete id => exact iff_of_true (hrun.of_recording (wp_deleteWith_recording id _ _ _ w)) not_false
  | apiDelete id => exact iff_of_true (hrun.of_recording (wp_deleteWith_recording id _ _ _ w)) not_false
  | deleteAttachment recordId attachmentId headers =>
      exact hrun.of_recording (wp_deleteAttachment_recording s recordId attachmentId headers w)

/-- The insert of an upload fails and the old text is written back. -/
theorem notified_iff_not_mute_run : ∃ tr w' resp,
    Runs Store.answer oneRecord (handle .plain (.update "r1" noHeaders (form "c" "d" [[1]]))) tr w' resp ∧
      (∃ a, .insertAttachment a ∈ failedCalls tr) ∧ Notified oneRecord w' tr := by
  have hrun : ∃ tr w' resp,
      Runs Store.answer oneRecord (handle .plain (.update "r1" noHeaders (form "c" "d" [[1]])))
        tr w' resp ∧
        failedCalls tr = [.insertAttachment (attachmentRow "r1" 0
          { id := "f1", originalFilename := "a.bin", mimeType := "application/octet-stream"
            size := 1 })] ∧
        succeededCalls tr = [.getRecord "r1",
          .updateRecord "r1" (AppState.plain.crypto.encrypt Plain.nonce "c" "d") 0,
          .updateRecord "r1" (AppState.plain.crypto.encrypt Plain.nonce "a" "b") 0] := by
    refine exists_runs [{}, { uuid := "f1" }, {}, {}, {}, {}, {}, { fault := true }, {}, {}] ?_
    decide
  rcases hrun with ⟨tr, w', resp, hrun, hfailed, hsucceeded⟩
  refine ⟨tr, w', resp, hrun, ⟨_, by rw [hfailed]; exact List.mem_singleton_self _⟩, ?_⟩
  refine (notified_iff_not_mute .plain _ hrun).2 ?_
  rintro ⟨-, ⟨a, ha⟩ | ⟨⟨blob, now, hupdate⟩, -⟩⟩
  · simp [hsucceeded] at ha
  · rw [hfailed] at hupdate
    cases List.mem_singleton.1 hupdate

/-- The attachment is gone, its record cannot be touched, and nobody is told. -/
theorem delete_attachment_mute : ∃ tr w' resp,
    Runs Store.answer oneAttachment (handle .plain (.deleteAttachment "r1" "a1" noHeaders)) tr w' resp ∧
      ¬ Notified oneAttachment w' tr := by
  have hrun : ∃ tr w' resp,
      Runs Store.answer oneAttachment (handle .plain (.deleteAttachment "r1" "a1" noHeaders))
        tr w' resp ∧ w'.db.attachments = [] ∧ ∀ x ∈ tr, x.op ≠ .send := by
    refine exists_runs [{}, {}, {}, { fault := true }] ?_
    decide
  rcases hrun with ⟨tr, w', resp, hrun, hgone, hsend⟩
  refine ⟨tr, w', resp, hrun, not_notified (fun heq => ?_) hsend⟩
  rw [heq] at hgone
  cases hgone

end Aardbin
