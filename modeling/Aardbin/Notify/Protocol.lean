import Aardbin.Custody.Ledger
import Aardbin.Notify.Unsent

/-!
# Who will announce a write

A request that has deleted something sends before it ends.  A request that has saved a record sends
before it ends, or finds by a refused insert that the record is gone; then somebody else has
deleted it, and sends.
-/

namespace Aardbin

open Effect

/-! ## The ghost state -/

structure Notice where
  /-- a record that the request has written and not announced -/
  saved : Option String := none
  /-- a record that has refused an insert -/
  gone : Option String := none
  /-- the request has deleted something and not announced it -/
  owes : Bool := false

namespace Notice

def pre (g : Notice) : Call → Prop
  | .db (.insertAttachment a) => g.saved = some a.recordId
  | .db (.touchRecord _ _) => g.owes = true
  | _ => True

def updDb (g : Notice) : (c : DbCall) → Except DbError c.Val → Notice
  | .createRecord id _ _, .ok () => { g with saved := some id }
  | .updateRecord id _ _, .ok true => { g with saved := some id }
  | .insertAttachment a, .error _ => { g with gone := some a.recordId }
  | .deleteRecord _, .ok (some _) => { g with owes := true }
  | .deleteAttachment _ _, .ok (some _) => { g with owes := true }
  | _, _ => g

def upd (g : Notice) : (op : Call) → Reply op → Notice
  | .db c, r => g.updDb c r
  | .send, _ => { g with saved := none, owes := false }
  | _, _ => g

/-- A record that is gone is not found again, and a touch does not fail. -/
def Steady (g : Notice) : (op : Call) → Reply op → Prop
  | .db (.updateRecord id _ _), .ok true => g.gone ≠ some id
  | .db (.deleteRecord id), .ok (some _) => g.gone ≠ some id
  | .db (.touchRecord _ _), .error _ => False
  | _, _ => True

/-- Nothing is left to announce, except a record that is gone. -/
structure Settled (g : Notice) : Prop where
  owes : g.owes = false
  saved : g.saved = none ∨ g.gone = g.saved

/-- The request will announce what is written now. -/
def Covers (w : Store) (g : Notice) : Prop :=
  g.owes = true ∨ ∃ id, g.saved = some id ∧ id ∈ w.db.recordIds

end Notice

def noticing : Protocol Reply Notice where
  pre := Notice.pre
  next := fun g op r g' => g' = g.upd op r ∧ g.Steady op r

/-! ## The handlers -/

theorem wp_noticing_of_isFile {α : Type} {R : α → Prop} {p : Program Reply α}
    {Q : α → Notice → Prop} {g : Notice} (h : Uses Call.IsFile R p) (hQ : ∀ a, R a → Q a g) :
    wp noticing p Q g := by
  refine wp_of_uses h ?_ ?_ hQ
  · intro op hop
    cases op with
    | file c => trivial
    | _ => exact hop.elim
  · rintro op r g' hop ⟨rfl, -⟩
    cases op with
    | file c => rfl
    | _ => exact hop.elim

theorem wp_noticing_insertUploads (recordId : String) (ts : Int) (us : List PendingUpload)
    (g : Notice) (h : g.saved = some recordId) {Q : Except DbError Unit → Notice → Prop}
    (hok : Q (.ok ()) g) (herr : ∀ err, Q (.error err) { g with gone := some recordId }) :
    wp noticing (insertUploads recordId ts us) Q g := by
  induction us with
  | nil => exact hok
  | cons u rest ih =>
      simp only [insertUploads, wp_bind, wp_perform]
      refine ⟨h, ?_⟩
      rintro r g' ⟨rfl, -⟩
      cases r with
      | error err =>
          simp only [wp_bind, wp_perform]
          refine ⟨trivial, ?_⟩
          rintro _ g' ⟨rfl, -⟩
          exact herr err
      | ok _ => exact ih

theorem wp_noticing_createWith (s : AppState) (headers : HeaderMap) (parts : Multipart)
    (failed : Response) (done : String → Response) :
    wp noticing (createWith s headers parts failed done) (fun _ g => g.Settled) {} := by
  simp only [createWith, wp_bind]
  refine wp_noticing_of_isFile (uses_parseRecordForm s parts _) fun r _ => ?_
  cases r with
  | error resp => exact ⟨rfl, .inl rfl⟩
  | ok form =>
      simp only [wp_bind, wp_perform]
      refine ⟨trivial, ?_⟩
      rintro id g ⟨rfl, -⟩
      refine ⟨trivial, ?_⟩
      rintro ts g ⟨rfl, -⟩
      refine ⟨trivial, ?_⟩
      rintro nonce g ⟨rfl, -⟩
      refine ⟨trivial, ?_⟩
      rintro r g ⟨rfl, -⟩
      cases r with
      | error err =>
          simp only [wp_bind]
          exact wp_noticing_of_isFile (uses_cleanupUploads _) fun _ _ => ⟨rfl, .inl rfl⟩
      | ok _ =>
          simp only [wp_bind]
          refine wp_noticing_insertUploads id ts form.uploads _ rfl ?_ fun err => ?_
          · simp only [wp_bind, wp_perform]
            refine ⟨trivial, ?_⟩
            rintro _ g ⟨rfl, -⟩
            exact ⟨rfl, .inl rfl⟩
          · simp only [wp_bind, wp_perform]
            refine ⟨trivial, ?_⟩
            rintro r g ⟨rfl, hsteady⟩
            -- The record is gone, so there is nothing to delete.
            rcases r with err | _ | ids
            · exact ⟨rfl, .inr rfl⟩
            · exact ⟨rfl, .inr rfl⟩
            · exact absurd rfl hsteady

theorem wp_noticing_updateRecord (s : AppState) (id : String) (headers : HeaderMap)
    (parts : Multipart) :
    wp noticing (updateRecord s id headers parts) (fun _ g => g.Settled) {} := by
  have hborn : ({} : Notice).Settled := ⟨rfl, .inl rfl⟩
  simp only [updateRecord, wp_bind, wp_perform]
  refine ⟨trivial, ?_⟩
  rintro r g ⟨rfl, -⟩
  rcases r with err | _ | row
  · exact hborn
  · exact hborn
  · dsimp only
    split
    · exact hborn
    simp only [wp_bind]
    refine wp_noticing_of_isFile (uses_parseRecordForm s parts _) fun r _ => ?_
    cases r with
    | error resp => exact hborn
    | ok form =>
        simp only [wp_bind, wp_perform]
        refine ⟨trivial, ?_⟩
        rintro ts g ⟨rfl, -⟩
        refine ⟨trivial, ?_⟩
        rintro nonce g ⟨rfl, -⟩
        refine ⟨trivial, ?_⟩
        rintro r g ⟨rfl, -⟩
        rcases r with err | _ | _
        · simp only [wp_bind]
          exact wp_noticing_of_isFile (uses_cleanupUploads _) fun _ _ => hborn
        · exact hborn
        · simp only [wp_bind]
          refine wp_noticing_insertUploads id ts form.uploads _ rfl ?_ fun err => ?_
          · simp only [wp_bind, wp_perform]
            refine ⟨trivial, ?_⟩
            rintro _ g ⟨rfl, -⟩
            exact ⟨rfl, .inl rfl⟩
          · simp only [wp_bind, wp_perform]
            refine ⟨trivial, ?_⟩
            rintro r g ⟨rfl, hsteady⟩
            -- The record is gone, so the old text is not written back.
            rcases r with err | _ | _
            · exact ⟨rfl, .inr rfl⟩
            · exact ⟨rfl, .inr rfl⟩
            · exact absurd rfl hsteady

theorem wp_noticing_deleteWith (id : String) (deleted missing failed : Response) :
    wp noticing (deleteWith id deleted missing failed) (fun _ g => g.Settled) {} := by
  simp only [deleteWith, wp_bind, wp_perform]
  refine ⟨trivial, ?_⟩
  rintro r g ⟨rfl, -⟩
  rcases r with err | _ | ids
  · exact ⟨rfl, .inl rfl⟩
  · exact ⟨rfl, .inl rfl⟩
  · simp only [wp_bind, wp_perform]
    refine wp_noticing_of_isFile (uses_deleteFiles ids) fun _ _ => ⟨trivial, ?_⟩
    rintro _ g ⟨rfl, -⟩
    exact ⟨rfl, .inl rfl⟩

theorem wp_noticing_deleteAttachment (s : AppState) (recordId attachmentId : String)
    (headers : HeaderMap) :
    wp noticing (deleteAttachment s recordId attachmentId headers) (fun _ g => g.Settled) {} := by
  simp only [deleteAttachment, wp_bind, wp_perform]
  refine ⟨trivial, ?_⟩
  rintro r g ⟨rfl, -⟩
  rcases r with err | _ | row
  · exact ⟨rfl, .inl rfl⟩
  · exact ⟨rfl, .inl rfl⟩
  · simp only [wp_bind, wp_perform]
    refine ⟨trivial, ?_⟩
    rintro _ g ⟨rfl, -⟩
    refine ⟨trivial, ?_⟩
    rintro ts g ⟨rfl, -⟩
    refine ⟨rfl, ?_⟩
    rintro r g ⟨rfl, hsteady⟩
    cases r with
    | error err => exact hsteady.elim
    | ok _ =>
        simp only [wp_bind, wp_perform]
        refine ⟨trivial, ?_⟩
        rintro _ g ⟨rfl, -⟩
        refine ⟨trivial, ?_⟩
        rintro r g ⟨rfl, -⟩
        cases r <;> exact ⟨rfl, .inl rfl⟩

theorem wp_noticing_handle (s : AppState) (req : Request) :
    wp noticing (handle s req) (fun _ g => g.Settled) {} := by
  cases req with
  | create headers parts => exact wp_noticing_createWith s headers parts _ _
  | apiCreate headers parts => exact wp_noticing_createWith s headers parts _ _
  | update id headers parts => exact wp_noticing_updateRecord s id headers parts
  | delete id => exact wp_noticing_deleteWith id _ _ _
  | apiDelete id => exact wp_noticing_deleteWith id _ _ _
  | deleteAttachment recordId attachmentId headers =>
      exact wp_noticing_deleteAttachment s recordId attachmentId headers

end Aardbin
