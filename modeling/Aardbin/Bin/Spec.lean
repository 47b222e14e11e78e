import Aardbin.Effect.Serial
import Aardbin.Repost

/-!
# What the program is for

A bin holds records with a title and a content, and the files that belong to them.  `Bin.spec` says
what each request may answer and what it leaves in the bin: nothing of rows, blobs and directories,
and nothing of calls, except that a request in which some call fails may end as `torn`.
-/

namespace Aardbin

open Effect

/-! ## Bins -/

/-- A record as its user knows it. -/
@[ext]
structure Bin.Record where
  title : String
  content : String
  createdAt : Int
  updatedAt : Int
  deriving DecidableEq

/-- An attachment with its bytes. -/
structure Bin.Attachment where
  recordId : String
  filename : String
  mimeType : String
  createdAt : Int
  bytes : Bytes
  deriving DecidableEq

@[ext]
structure Bin where
  records : String → Option Bin.Record
  files : String → Option Bin.Attachment

namespace Bin

def empty : Bin :=
  { records := fun _ => none, files := fun _ => none }

def setRecord (b : Bin) (id : String) (r : Record) : Bin :=
  { b with records := Function.update b.records id (some r) }

def addFile (b : Bin) (u : String × Attachment) : Bin :=
  { b with files := Function.update b.files u.1 (some u.2) }

def addFiles (b : Bin) (us : List (String × Attachment)) : Bin :=
  us.foldl addFile b

/-- A record is deleted with its files. -/
def deleteRecord (b : Bin) (id : String) : Bin :=
  { records := Function.update b.records id none
    files := fun x => (b.files x).filter fun f => f.recordId ≠ id }

def deleteFile (b : Bin) (id : String) : Bin :=
  { b with files := Function.update b.files id none }

def touch (b : Bin) (id : String) (ts : Int) : Bin :=
  { b with
    records := Function.update b.records id
      ((b.records id).map fun r => { r with updatedAt := ts }) }

/-- The files of one record, the oldest first. -/
structure Lists (b : Bin) (recordId : String) (fs : List (String × Attachment)) : Prop where
  sorted : fs.Pairwise fun x y =>
    x.2.createdAt < y.2.createdAt ∨ x.2.createdAt = y.2.createdAt ∧ x.1 < y.1
  mem : ∀ x, x ∈ fs ↔ b.files x.1 = some x.2 ∧ x.2.recordId = recordId

theorem setRecord_self {b : Bin} {id : String} {r : Record} (h : b.records id = some r) :
    b.setRecord id r = b := by
  refine Bin.ext ?_ rfl
  rw [setRecord, ← h, Function.update_eq_self]

@[simp] theorem records_addFiles (b : Bin) (us : List (String × Attachment)) :
    (b.addFiles us).records = b.records := by
  induction us generalizing b with
  | nil => rfl
  | cons u rest ih => exact ih (b.addFile u)

/-- Under different ids no file replaces another. -/
theorem files_addFiles {us : List (String × Attachment)} (hnodup : (us.map Prod.fst).Nodup)
    (b : Bin) (id : String) (f : Attachment) : (b.addFiles us).files id = some f ↔
      (id, f) ∈ us ∨ id ∉ us.map Prod.fst ∧ b.files id = some f := by
  induction us generalizing b with
  | nil => simp [addFiles]
  | cons u rest ih =>
      simp only [List.map_cons, List.nodup_cons] at hnodup
      have hrest := ih hnodup.2 (b.addFile u)
      by_cases hid : id = u.1
      · subst hid
        have hmem : (u.1, f) ∉ rest := fun hmem =>
          hnodup.1 (List.mem_map.2 ⟨(u.1, f), hmem, rfl⟩)
        simp only [addFiles, List.foldl_cons] at hrest ⊢
        rw [hrest]
        simp [hmem, hnodup.1, addFile, Prod.ext_iff, eq_comm]
      · simp only [addFiles, List.foldl_cons] at hrest ⊢
        rw [hrest]
        simp [addFile, Prod.ext_iff, hid]

/-! ## Forms -/

/-- Every part arrives, and those that are stored arrive to their end. -/
def Intact (parts : Multipart) : Prop :=
  ∀ x ∈ parts, ∃ p, x = .ok p ∧
    (p.name = some "title" ∨ p.name = some "content" ∨ p.isUpload = true → p.broken = none)

end Bin

/-- The attachment that is made of an uploaded part. -/
def Part.stored (s : AppState) (recordId : String) (ts : Int) (p : Part) : Bin.Attachment :=
  let filename := p.fileName.getD ""
  { recordId, filename, mimeType := guessMime s.vendor filename p.contentType, createdAt := ts
    bytes := p.bytes }

namespace Bin

section Forms

variable (s : AppState) (calm : Prop) (headers : HeaderMap) (parts : Multipart) (b : Bin)

/-- Without a failure no form is turned down that arrives whole and is within the limits. -/
def MayRefuse : Prop :=
  calm → ∀ ps, parts = ps.map .ok → (∀ p ∈ ps, p.Whole) →
    ¬ Accepted s ps (contentLength headers)

structure MayStore : Prop where
  intact : Intact parts
  accepted : ∀ ps, parts = ps.map .ok → (∀ p ∈ ps, p.Whole) →
    Accepted s ps (contentLength headers)

/-- The files of the form, under new ids. -/
structure Uploads (recordId : String) (ts : Int) (us : List (String × Attachment)) : Prop where
  nodup : (us.map Prod.fst).Nodup
  fresh : ∀ u ∈ us, b.files u.1 = none
  stored : us.map Prod.snd = (fileParts parts).map (Part.stored s recordId ts)

/-- `r` with the text of the form. -/
def Record.save (r : Record) (ts : Int) : Record :=
  { r with title := (formText s parts).1, content := (formText s parts).2, updatedAt := ts }

/-- A new record with the text of the form. -/
def Record.new (ts : Int) : Record :=
  { title := (formText s parts).1, content := (formText s parts).2, createdAt := ts
    updatedAt := ts }

/-- `create_record` and `api_create_record`. -/
inductive Creates (failed : Response) (done : String → Response) : Response → Bin → Prop
  | refused {resp : Response} : MayRefuse s calm headers parts → ¬ resp.Success →
      Creates failed done resp b
  | stored {id : String} {ts : Int} {us : List (String × Attachment)} :
      MayStore s headers parts → b.records id = none → Uploads s parts b id ts us →
      Creates failed done (done id) ((b.setRecord id (.new s parts ts)).addFiles us)
  /-- a file could not be entered, nor the record be taken back -/
  | torn {id : String} {ts : Int} {us after : List (String × Attachment)}
      {u : String × Attachment} : ¬ calm → MayStore s headers parts → b.records id = none →
      Uploads s parts b id ts (us ++ u :: after) →
      Creates failed done failed ((b.setRecord id (.new s parts ts)).addFiles us)

/-- `update_record`, for a record `r`. -/
inductive Updates (id : String) (r : Record) : Response → Bin → Prop
  | refused {resp : Response} : MayRefuse s calm headers parts → ¬ resp.Success →
      Updates id r resp b
  | stored {ts : Int} {us : List (String × Attachment)} : MayStore s headers parts →
      Uploads s parts b id ts us →
      Updates id r seeHome ((b.setRecord id (r.save s parts ts)).addFiles us)
  /-- a file could not be entered; those before it stay, and the text is taken back or not -/
  | torn {ts : Int} {us after : List (String × Attachment)} {u : String × Attachment}
      {r' : Record} : ¬ calm → MayStore s headers parts →
      Uploads s parts b id ts (us ++ u :: after) → r' = r ∨ r' = r.save s parts ts →
      Updates id r internal ((b.setRecord id r').addFiles us)

end Forms

/-! ## Requests -/

section Requests

variable (s : AppState) (calm : Prop) (b : Bin)

/-- `delete_record` and `api_delete_record`. -/
inductive Deletes (id : String) (deleted missing failed : Response) : Response → Bin → Prop
  | failed : ¬ calm → Deletes id deleted missing failed failed b
  | missing : b.records id = none → Deletes id deleted missing failed missing b
  | deleted {r : Record} : b.records id = some r →
      Deletes id deleted missing failed deleted (b.deleteRecord id)

def fileView (v : Vendor) (u : String × Attachment) : AttachmentView :=
  { id := u.1, recordId := u.2.recordId, originalFilename := u.2.filename
    sizeText := humanSize v u.2.bytes.length }

/-- The answer with the files that are left. -/
def ShowsFiles (recordId : String) (lang : Lang) (resp : Response) : Prop :=
  ∃ fs, b.Lists recordId fs ∧
    resp = rendered s lang (.attachments lang (fs.map (fileView s.vendor)))

/-- `delete_attachment`. -/
inductive DeletesFile (recordId id : String) (lang : Lang) : Response → Bin → Prop
  | failed : ¬ calm → DeletesFile recordId id lang internal b
  | missing : (∀ f, b.files id = some f → f.recordId ≠ recordId) →
      DeletesFile recordId id lang (errResponse .notFound "attachment not found") b
  | deleted {f : Attachment} {ts : Int} {resp : Response} : b.files id = some f →
      f.recordId = recordId →
      (¬ calm ∧ resp = internal) ∨
        ((b.deleteFile id).touch recordId ts).ShowsFiles s recordId lang resp →
      DeletesFile recordId id lang resp ((b.deleteFile id).touch recordId ts)
  /-- the time of the record could not be set -/
  | torn {f : Attachment} : ¬ calm → b.files id = some f → f.recordId = recordId →
      DeletesFile recordId id lang internal (b.deleteFile id)

/-- What a request may answer and leave; `calm` when none of its calls fails. -/
def Step : Request → Response → Bin → Prop
  | .create headers parts => Creates s calm headers parts b internal fun _ => seeHome
  | .apiCreate headers parts =>
      Creates s calm headers parts b (jsonError .internalServerError "internal error") apiCreated
  | .update id headers parts =>
      match b.records id with
      | none => fun resp b' => b' = b ∧ (resp = recordNotFound ∨ ¬ calm ∧ resp = internal)
      | some r => Updates s calm headers parts b id r
  | .delete id =>
      Deletes calm b id { status := .ok, headers := [], body := .empty } recordNotFound internal
  | .apiDelete id =>
      Deletes calm b id apiDeleted
        (jsonError .notFound "record not found") (jsonError .internalServerError "internal error")
  | .deleteAttachment recordId id headers =>
      DeletesFile s calm b recordId id (detectLang headers)

variable {s calm b} {id : String} {headers : HeaderMap} {parts : Multipart} {resp : Response}
  {b' : Bin}

theorem step_update_of_none (h : b.records id = none) :
    Step s calm b (.update id headers parts) resp b' ↔
      b' = b ∧ (resp = recordNotFound ∨ ¬ calm ∧ resp = internal) := by
  simp only [Step, h]

theorem step_update_of_some {r : Record} (h : b.records id = some r) :
    Step s calm b (.update id headers parts) resp b' ↔
      Updates s calm headers parts b id r resp b' := by
  simp only [Step, h]

end Requests

/-- No call of the request fails. -/
def Calm (t : Turn Reply Env Request Response) : Prop :=
  ∀ x ∈ t.log, x.env.fault = false

/-- A restart leaves the bin and may change the limits. -/
def spec : Spec Reply (AppState × Bin) Env Boot Request Response where
  turn := fun a t a' => a'.1 = a.1 ∧ Step a.1 (Calm t) a.2 t.req t.res a'.2
  boot := fun a boot => ({ a.1 with cfg := boot.cfg }, a.2)

end Bin

end Aardbin
