import Aardbin.Handlers

/-!
# What reading a form asks and returns

Until a form is accepted, and when it is rejected, the handlers only touch files; an accepted form
has the text of its last title and content fields.
-/

namespace Aardbin

open Effect Rust

/-! ## The text of a form -/

/-- How a field changes title and content. -/
def textStep (s : AppState) (text : String × String) : Except String Part → String × String
  | .error _ => text
  | .ok p =>
      match fieldText s p with
      | .error _ => text
      | .ok t =>
          if p.name = some "title" then (truncateChars (trim t) 200, text.2)
          else if p.name = some "content" then (text.1, t)
          else text

/-- Title and content of a form that is accepted. -/
def formText (s : AppState) (parts : Multipart) : String × String :=
  parts.foldl (textStep s) ("", "")

/-! ## Calls that only touch files -/

def Call.IsFile : Call → Prop
  | .file _ => True
  | _ => False

theorem uses_cleanupUploads (us : List PendingUpload) :
    Uses Call.IsFile (fun _ => True) (cleanupUploads us) := by
  induction us with
  | nil => exact .pure trivial
  | cons u rest ih => exact Uses.bind (.perform trivial fun _ => trivial) fun _ _ => ih

theorem uses_reject {α : Type} {R : Except Response α → Prop} (us : List PendingUpload)
    (resp : Response) (h : R (.error resp)) : Uses Call.IsFile R (reject us resp) :=
  Uses.bind (uses_cleanupUploads us) fun _ _ => .pure h

theorem uses_writeChunks (s : AppState) (filename id : String) (broken : Option String)
    (chunks : List Bytes) (size totalBytes : Nat) :
    Uses Call.IsFile (fun _ => True) (writeChunks s filename id broken chunks size totalBytes) := by
  induction chunks generalizing size totalBytes with
  | nil => cases broken <;> exact .pure trivial
  | cons chunk rest ih =>
      simp only [writeChunks]
      split_ifs
      · exact .pure trivial
      · exact .pure trivial
      · refine Uses.bind (.perform trivial fun _ => trivial) fun r _ => ?_
        cases r with
        | error e => exact .pure trivial
        | ok _ => exact ih _ _

/-- The loop variables hold title and content as the fields so far have set them. -/
def Texts (text : String × String) : Except Response FormState → Prop
  | .error _ => True
  | .ok acc => (acc.title, acc.content) = text

theorem uses_readFileField (s : AppState) (acc : FormState) (p : Part) :
    Uses Call.IsFile (Texts (acc.title, acc.content)) (readFileField s acc p) := by
  cases hfile : p.fileName with
  | none =>
      simp only [readFileField, hfile]
      exact .pure rfl
  | some filename =>
      simp only [readFileField, hfile]
      split_ifs
      · exact .pure rfl
      · exact uses_reject _ _ trivial
      · refine Uses.bind (.perform trivial fun _ => trivial) fun r _ => ?_
        cases r with
        | error e => exact uses_reject _ _ trivial
        | ok id =>
            refine Uses.bind (uses_writeChunks s filename id p.broken p.chunks 0 _) ?_
            rintro ⟨failed, size, totalBytes⟩ -
            cases failed with
            | some resp =>
                exact Uses.bind (.perform trivial fun _ => trivial) fun _ _ =>
                  uses_reject _ _ trivial
            | none =>
                refine Uses.bind (.perform trivial fun _ => trivial) fun r _ => ?_
                cases r with
                | error e =>
                    exact Uses.bind (.perform trivial fun _ => trivial) fun _ _ =>
                      uses_reject _ _ trivial
                | ok _ => exact .pure rfl

theorem uses_readField (s : AppState) (acc : FormState) (p : Part) :
    Uses Call.IsFile (Texts (textStep s (acc.title, acc.content) (.ok p)))
      (readField s acc p) := by
  have hname : ∀ n, n ≠ "" → (p.name.getD "" = n ↔ p.name = some n) :=
    fun n hn => Part.getD_name_eq_iff hn
  simp only [readField, hname "title" (by decide), hname "content" (by decide),
    hname "files" (by decide)]
  split_ifs with htext hfiles
  · unfold readTextField
    cases htxt : fieldText s p with
    | error e => exact uses_reject _ _ trivial
    | ok t =>
        dsimp only
        split_ifs with _ _ htitle
        · exact uses_reject _ _ trivial
        · exact uses_reject _ _ trivial
        · refine .pure ?_
          have hp := (hname "title" (by decide)).1 htitle
          simp [Texts, textStep, htxt, hp]
        · refine .pure ?_
          have hp : p.name = some "content" :=
            htext.resolve_left fun h => htitle ((hname "title" (by decide)).2 h)
          simp [Texts, textStep, htxt, hp]
  · -- A file field leaves title and content as they are, and so does an unknown one.
    refine (uses_readFileField s acc p).mono (fun _ h => h) fun r hr => ?_
    have hsame : textStep s (acc.title, acc.content) (.ok p) = (acc.title, acc.content) := by
      cases htxt : fieldText s p <;> simp [textStep, htxt, hfiles]
    rwa [hsame]
  · have hsame : textStep s (acc.title, acc.content) (.ok p) = (acc.title, acc.content) := by
      rw [not_or] at htext
      cases htxt : fieldText s p <;> simp [textStep, htxt, htext.1, htext.2]
    rw [hsame]
    split <;> exact .pure rfl

theorem uses_readFields (s : AppState) (parts : Multipart) (acc : FormState) :
    Uses Call.IsFile (Texts (parts.foldl (textStep s) (acc.title, acc.content)))
      (readFields s parts acc) := by
  induction parts generalizing acc with
  | nil => exact .pure rfl
  | cons part rest ih =>
      cases part with
      | error e => exact uses_reject _ _ trivial
      | ok p =>
          refine Uses.bind (uses_readField s acc p) fun r hr => ?_
          cases r with
          | error resp => exact .pure trivial
          | ok acc' =>
              -- One step of the fold over the parts.
              have htext : (acc'.title, acc'.content) = _ := hr
              rw [List.foldl_cons, ← htext]
              exact ih acc'

/-- Reading a form touches no record, and an accepted form has the text of its fields. -/
theorem uses_parseRecordForm (s : AppState) (parts : Multipart) (len : Option Nat) :
    Uses Call.IsFile (fun r => ∀ form, r = .ok form → (form.title, form.content) = formText s parts)
      (parseRecordForm s parts len) := by
  unfold parseRecordForm
  split_ifs
  · refine .pure ?_
    rintro form ⟨⟩
  · refine Uses.bind (uses_readFields s parts {}) fun r hr => ?_
    cases r with
    | error resp =>
        refine .pure ?_
        rintro form ⟨⟩
    | ok acc =>
        refine .pure ?_
        rintro form ⟨⟩
        exact hr

theorem uses_deleteFiles (ids : List String) :
    Uses Call.IsFile (fun _ => True) (deleteFiles ids) := by
  induction ids with
  | nil => exact .pure trivial
  | cons aid rest ih => exact Uses.bind (.perform trivial fun _ => trivial) fun _ _ => ih

end Aardbin
