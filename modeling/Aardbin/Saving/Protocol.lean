import Aardbin.FormText

/-!
# Saving a record: the protocol of one request

A request that saves a record first writes the text of its own form, encrypted.  If its uploads
then cannot be inserted, it takes the write back: an update writes the old blob, a create deletes
the record.  The ghost state `Saving` of a request says which blob it has read, and whether its
write stands.
-/

namespace Aardbin

open Effect Rust

/-! ## What a request saves -/

/-- What the request saves if its form is accepted. -/
def Request.text (s : AppState) : Request → Option (String × String)
  | .create _ parts => some (formText s parts)
  | .apiCreate _ parts => some (formText s parts)
  | .update _ _ parts => some (formText s parts)
  | _ => none

/-! ## The ghost state -/

/-- How far a request has come with saving a record. -/
inductive Stage
  | fresh
  | saved (id : String)
  | takenBack
  deriving DecidableEq

def Stage.next : Stage → (c : DbCall) → Except DbError c.Val → Stage
  | .fresh, .createRecord id _ _, .ok _ => .saved id
  | .fresh, .updateRecord id _ _, .ok true => .saved id
  | .saved _, .updateRecord _ _ _, _ => .takenBack
  | .saved _, .deleteRecord _, _ => .takenBack
  | st, _, _ => st

structure Saving where
  app : AppState
  text : Option (String × String)
  /-- the record that was read, and its blob -/
  read : Option (String × Bytes)
  stage : Stage

namespace Saving

def born (s : AppState) (req : Request) : Saving :=
  { app := s, text := req.text s, read := none, stage := .fresh }

/-- The blob is the text of the form, encrypted. -/
def Encrypts (g : Saving) (blob : Bytes) : Prop :=
  ∃ text nonce, g.text = some text ∧ blob = g.app.crypto.encrypt nonce text.1 text.2

def pre (g : Saving) : Call → Prop
  | .db (.createRecord _ blob _) => g.stage = .fresh ∧ g.read = none ∧ g.Encrypts blob
  | .db (.updateRecord id blob _) =>
      ∃ old, g.read = some (id, old) ∧ g.app.crypto.Reads old ∧
        ((g.stage = .fresh ∧ g.Encrypts blob) ∨ (g.stage = .saved id ∧ blob = old))
  | .db (.deleteRecord id) => g.stage = .fresh ∨ g.stage = .saved id
  | .db (.getRecord _) => g.stage = .fresh
  | _ => True

def updDb (g : Saving) (c : DbCall) (r : Except DbError c.Val) : Saving :=
  match c, r with
  | .getRecord id, .ok (some row) => { g with read := some (id, row.blob) }
  | c, r => { g with stage := g.stage.next c r }

def upd (g : Saving) : (op : Call) → Reply op → Saving
  | .db c, r => g.updDb c r
  | _, _ => g

/-- A call leaves the saves as they are, or writes the text of the form, or takes that back. -/
theorem save_cases {g : Saving} {op : Call} (r : Reply op) (h : g.pre op) :
    (op.wrote? r = none ∧ (g.upd op r).stage = g.stage) ∨
    (∃ id blob, op.wrote? r = some (id, blob) ∧ g.Encrypts blob ∧ g.stage = .fresh ∧
      (g.upd op r).stage = .saved id) ∨
    (∃ id, ((∃ blob now, op = .db (.updateRecord id blob now)) ∨ op = .db (.deleteRecord id)) ∧
      g.stage = .saved id ∧ (g.upd op r).stage = .takenBack) := by
  cases op with
  | db c =>
      cases c with
      | createRecord id blob now =>
          rcases h with ⟨hfresh, -, hblob⟩
          cases r with
          | error e => exact .inl ⟨rfl, by simp [upd, updDb, Stage.next, hfresh]⟩
          | ok v =>
              refine .inr (.inl ⟨id, blob, rfl, hblob, hfresh, ?_⟩)
              simp [upd, updDb, Stage.next, hfresh]
      | updateRecord id blob now =>
          -- The same call saves the form and, later, writes the old blob back.
          rcases h with ⟨old, -, -, ⟨hfresh, hblob⟩ | ⟨hsaved, -⟩⟩
          · rcases r with err | _ | _
            · exact .inl ⟨rfl, by simp [upd, updDb, Stage.next, hfresh]⟩
            · exact .inl ⟨rfl, by simp [upd, updDb, Stage.next, hfresh]⟩
            · refine .inr (.inl ⟨id, blob, rfl, hblob, hfresh, ?_⟩)
              simp [upd, updDb, Stage.next, hfresh]
          · refine .inr (.inr ⟨id, .inl ⟨blob, now, rfl⟩, hsaved, ?_⟩)
            simp [upd, updDb, Stage.next, hsaved]
      | deleteRecord id =>
          -- A request of its own, or the rollback of a create.
          rcases h with hfresh | hsaved
          · exact .inl ⟨by cases r <;> rfl, by simp [upd, updDb, Stage.next, hfresh]⟩
          · refine .inr (.inr ⟨id, .inr rfl, hsaved, ?_⟩)
            simp [upd, updDb, Stage.next, hsaved]
      | getRecord id =>
          refine .inl ⟨by cases r <;> rfl, ?_⟩
          cases hst : g.stage <;> simp only [upd, updDb] <;> split <;> simp [Stage.next, hst]
      | _ =>
          refine .inl ⟨by cases r <;> rfl, ?_⟩
          cases hst : g.stage <;> simp [upd, updDb, Stage.next, hst]
  | _ => exact .inl ⟨rfl, rfl⟩

@[simp] theorem app_upd (g : Saving) (op : Call) (r : Reply op) : (g.upd op r).app = g.app := by
  cases op with
  | db c =>
      simp only [upd, updDb]
      split <;> rfl
  | _ => rfl

@[simp] theorem text_upd (g : Saving) (op : Call) (r : Reply op) : (g.upd op r).text = g.text := by
  cases op with
  | db c =>
      simp only [upd, updDb]
      split <;> rfl
  | _ => rfl

/-- What a request has read is what it read before, unless it reads now, or the row it reads now. -/
theorem read_upd {g : Saving} {op : Call} {r : Reply op} {id : String} {blob : Bytes}
    (h : (g.upd op r).read = some (id, blob)) :
    (g.read = some (id, blob) ∧ ∀ hop : op = .db (.getRecord id), ∀ row, hop ▸ r ≠ .ok (some row)) ∨
      ∃ hop : op = .db (.getRecord id), ∃ row, hop ▸ r = .ok (some row) ∧ row.blob = blob := by
  cases op with
  | db c =>
      simp only [upd, updDb] at h
      split at h
      · rename_i id' row
        simp only [Option.some.injEq, Prod.mk.injEq] at h
        rcases h with ⟨rfl, rfl⟩
        exact .inr ⟨rfl, row, rfl, rfl⟩
      · rename_i hnot
        refine .inl ⟨h, ?_⟩
        rintro hop row hrow
        cases hop
        exact hnot id row rfl (heq_of_eq hrow)
  | _ => exact .inl ⟨h, fun hop => by cases hop⟩

end Saving

def saving : Protocol Reply Saving where
  pre := Saving.pre
  next := fun g op r g' => g' = g.upd op r

/-- A write stands at the end exactly when the answer is a success. -/
def SavePost (resp : Response) (g : Saving) : Prop :=
  match g.stage with
  | .fresh => True
  | .saved _ => resp.Success
  | .takenBack => ¬ resp.Success

/-! ## Uploads -/

/-- Calls that touch no record. -/
def Call.IsUpload : Call → Prop
  | .file _ => True
  | .db (.insertAttachment _) => True
  | _ => False

theorem wp_of_uploads {α : Type} {R : α → Prop} {p : Program Reply α} {Q : α → Saving → Prop}
    {g : Saving} (h : Uses Call.IsUpload R p) (hQ : ∀ a, R a → Q a g) : wp saving p Q g := by
  refine wp_of_uses h ?_ ?_ hQ
  · intro op hop
    cases op with
    | db c =>
        cases c with
        | insertAttachment a => trivial
        | _ => exact hop.elim
    | _ => trivial
  · rintro op r g' hop rfl
    cases op with
    | db c =>
        cases c with
        | insertAttachment a => cases g; rename_i stage; cases stage <;> rfl
        | _ => exact hop.elim
    | _ => rfl

theorem Call.IsFile.isUpload {op : Call} (h : op.IsFile) : op.IsUpload := by
  cases op with
  | file c => trivial
  | _ => exact h.elim

theorem wp_of_files {α : Type} {R : α → Prop} {p : Program Reply α} {Q : α → Saving → Prop}
    {g : Saving} (h : Uses Call.IsFile R p) (hQ : ∀ a, R a → Q a g) : wp saving p Q g :=
  wp_of_uploads (h.mono (fun _ hop => hop.isUpload) fun _ ha => ha) hQ

theorem uses_insertUploads (recordId : String) (ts : Int) (us : List PendingUpload) :
    Uses Call.IsUpload (fun _ => True) (insertUploads recordId ts us) := by
  induction us with
  | nil => exact .pure trivial
  | cons u rest ih =>
      refine Uses.bind (.perform trivial fun _ => trivial) fun r _ => ?_
      cases r with
      | error e => exact Uses.bind (.perform trivial fun _ => trivial) fun _ _ => .pure trivial
      | ok _ => exact ih

/-! ## The handlers -/

theorem wp_saving_createWith (s : AppState) (headers : HeaderMap) (parts : Multipart)
    (failed : Response) (done : String → Response) (hfailed : ¬ failed.Success)
    (hdone : ∀ id, (done id).Success) (g : Saving) (happ : g.app = s)
    (htext : g.text = some (formText s parts)) (hread : g.read = none) (hstage : g.stage = .fresh) :
    wp saving (createWith s headers parts failed done) SavePost g := by
  simp only [createWith, wp_bind]
  refine wp_of_files (uses_parseRecordForm s parts _) fun r hr => ?_
  cases r with
  | error resp => simp [SavePost, hstage]
  | ok form =>
      have henc : ∀ nonce, g.Encrypts (s.crypto.encrypt nonce form.title form.content) := by
        intro nonce
        exact ⟨_, nonce, htext, by rw [← hr form rfl, happ]⟩
      simp only [wp_bind, wp_perform]
      refine ⟨trivial, ?_⟩
      rintro id g₁ rfl
      refine ⟨trivial, ?_⟩
      rintro ts g₂ rfl
      refine ⟨trivial, ?_⟩
      rintro nonce g₃ rfl
      refine ⟨⟨hstage, hread, henc nonce⟩, ?_⟩
      rintro r g₄ rfl
      cases r with
      | error e =>
          simp only [wp_bind]
          refine wp_of_files (uses_cleanupUploads _) fun _ _ => ?_
          simp [SavePost, Saving.upd, Saving.updDb, Stage.next, hstage]
      | ok _ =>
          simp only [wp_bind]
          refine wp_of_uploads (uses_insertUploads id ts form.uploads) fun r _ => ?_
          cases r with
          | error e =>
              -- The record is deleted again, and the answer is an error.
              simp only [wp_bind, wp_perform]
              refine ⟨.inr (by simp [Saving.upd, Saving.updDb, Stage.next, hstage]), ?_⟩
              rintro r g₅ rfl
              simpa [SavePost, Saving.upd, Saving.updDb, Stage.next, hstage] using hfailed
          | ok _ =>
              simp only [wp_bind, wp_perform]
              refine ⟨trivial, ?_⟩
              rintro _ g₅ rfl
              simpa [SavePost, Saving.upd, Saving.updDb, Stage.next, hstage] using hdone id

theorem wp_saving_updateRecord (s : AppState) (id : String) (headers : HeaderMap)
    (parts : Multipart) (g : Saving) (happ : g.app = s)
    (htext : g.text = some (formText s parts)) (hstage : g.stage = .fresh) :
    wp saving (updateRecord s id headers parts) SavePost g := by
  simp only [updateRecord, wp_bind, wp_perform]
  refine ⟨hstage, ?_⟩
  rintro r g₀ rfl
  rcases r with _ | _ | row
  · simp [SavePost, Saving.upd, Saving.updDb, Stage.next, hstage]
  · simp [SavePost, Saving.upd, Saving.updDb, Stage.next, hstage]
  · dsimp only
    split
    · simp [SavePost, Saving.upd, Saving.updDb, hstage]
    · rename_i text hdec
      have hreads : g.app.crypto.Reads row.blob := ⟨text, happ ▸ hdec⟩
      simp only [wp_bind]
      refine wp_of_files (uses_parseRecordForm s parts _) fun r hr => ?_
      cases r with
      | error resp => simp [SavePost, Saving.upd, Saving.updDb, hstage]
      | ok form =>
          have henc : ∀ nonce, g.Encrypts (s.crypto.encrypt nonce form.title form.content) := by
            intro nonce
            exact ⟨_, nonce, htext, by rw [← hr form rfl, happ]⟩
          simp only [wp_bind, wp_perform]
          refine ⟨trivial, ?_⟩
          rintro ts g₁ rfl
          refine ⟨trivial, ?_⟩
          rintro nonce g₂ rfl
          refine ⟨⟨row.blob, rfl, hreads, .inl ⟨hstage, henc nonce⟩⟩, ?_⟩
          rintro r g₃ rfl
          rcases r with _ | _ | _
          · simp only [wp_bind]
            refine wp_of_files (uses_cleanupUploads _) fun _ _ => ?_
            simp [SavePost, Saving.upd, Saving.updDb, Stage.next, hstage]
          · simp [SavePost, Saving.upd, Saving.updDb, Stage.next, hstage]
          · simp only [wp_bind]
            refine wp_of_uploads (uses_insertUploads id ts form.uploads) fun r _ => ?_
            cases r with
            | error e =>
                -- The blob that was read is written back; its check has passed above.
                simp only [wp_bind, wp_perform]
                refine ⟨⟨row.blob, rfl, hreads, .inr ⟨?_, rfl⟩⟩, ?_⟩
                · simp [Saving.upd, Saving.updDb, Stage.next, hstage]
                rintro r g₄ rfl
                simp [SavePost, Saving.upd, Saving.updDb, Stage.next, hstage,
                  Response.Success, internal, errResponse, StatusCode.isSuccess]
            | ok _ =>
                simp only [wp_bind, wp_perform]
                refine ⟨trivial, ?_⟩
                rintro _ g₄ rfl
                simp [SavePost, Saving.upd, Saving.updDb, Stage.next, hstage,
                  Response.Success, seeHome, StatusCode.isSuccess]

theorem wp_saving_deleteWith (id : String) (deleted missing failed : Response) (g : Saving)
    (hstage : g.stage = .fresh) :
    wp saving (deleteWith id deleted missing failed) SavePost g := by
  simp only [deleteWith, wp_bind, wp_perform]
  refine ⟨.inl hstage, ?_⟩
  rintro r g₁ rfl
  have hstage₁ : (g.upd (.db (.deleteRecord id)) r).stage = .fresh := by
    simp [Saving.upd, Saving.updDb, Stage.next, hstage]
  rcases r with _ | _ | ids
  · simp [SavePost, hstage₁]
  · simp [SavePost, hstage₁]
  · simp only [wp_bind, wp_perform]
    refine wp_of_files (uses_deleteFiles ids) fun _ _ => ⟨trivial, ?_⟩
    rintro _ g₂ rfl
    have hstage₂ : ((g.upd (.db (.deleteRecord id)) (.ok (some ids))).upd .send ()).stage = .fresh :=
      hstage₁
    simp [SavePost, hstage₂]

theorem wp_saving_deleteAttachment (s : AppState) (recordId attachmentId : String)
    (headers : HeaderMap) (g : Saving) (hstage : g.stage = .fresh) :
    wp saving (deleteAttachment s recordId attachmentId headers) SavePost g := by
  -- The request saves nothing, so any answer will do.
  have hpost : ∀ resp g', g'.stage = .fresh → SavePost resp g' := by
    intro resp g' h
    simp [SavePost, h]
  simp only [deleteAttachment, wp_bind, wp_perform]
  refine ⟨trivial, ?_⟩
  rintro r g₁ rfl
  have hstage₁ : (g.upd (.db (.deleteAttachment recordId attachmentId)) r).stage = .fresh := by
    simp [Saving.upd, Saving.updDb, Stage.next, hstage]
  rcases r with _ | _ | row
  · exact hpost _ _ hstage₁
  · exact hpost _ _ hstage₁
  · simp only [wp_bind, wp_perform]
    refine ⟨trivial, ?_⟩
    rintro _ g₂ rfl
    refine ⟨trivial, ?_⟩
    rintro ts g₃ rfl
    refine ⟨trivial, ?_⟩
    rintro r g₄ rfl
    cases r with
    | error e => exact hpost _ _ (by simp [Saving.upd, Saving.updDb, Stage.next, hstage])
    | ok _ =>
        simp only [wp_bind, wp_perform]
        refine ⟨trivial, ?_⟩
        rintro _ g₅ rfl
        refine ⟨trivial, ?_⟩
        rintro r g₆ rfl
        cases r <;> exact hpost _ _ (by simp [Saving.upd, Saving.updDb, Stage.next, hstage])

theorem wp_saving_handle (s : AppState) (req : Request) :
    wp saving (handle s req) SavePost (Saving.born s req) := by
  cases req with
  | create headers parts =>
      exact wp_saving_createWith s headers parts _ _ (by decide) (fun _ => by decide) _ rfl rfl rfl rfl
  | apiCreate headers parts =>
      exact wp_saving_createWith s headers parts _ _ (by decide) (fun _ => by rfl) _ rfl rfl rfl rfl
  | update id headers parts => exact wp_saving_updateRecord s id headers parts _ rfl rfl rfl
  | delete id => exact wp_saving_deleteWith id _ _ _ _ rfl
  | apiDelete id => exact wp_saving_deleteWith id _ _ _ _ rfl
  | deleteAttachment recordId attachmentId headers =>
      exact wp_saving_deleteAttachment s recordId attachmentId headers _ rfl

end Aardbin
