import Aardbin.Handlers

/-!
# Custody of files: the ghost protocol of one request

While a request is in flight it is responsible for some files: the temp file it writes, the
uploads it has renamed that have no row yet, and the files whose rows it has deleted.  `Held` is
this responsibility, `custody` says how every call changes it, and the theorems below follow each
handler through it.

With `steady` the replies are restricted to those of a store without faults, and further to the
ones after which a request is not left with files it never removes.
-/

namespace Aardbin

open Effect

/-! ## The files a request sends -/

/-- The content of a part that becomes an attachment. -/
def Part.upload? (p : Part) : Option Bytes :=
  if p.name = some "files" then
    match p.fileName with
    | none => none
    | some filename => if filename = "" then none else some p.bytes
  else none

def fileBytes : Multipart → List Bytes
  | [] => []
  | .error _ :: rest => fileBytes rest
  | .ok p :: rest => p.upload?.toList ++ fileBytes rest

def Request.fileBytes : Request → List Bytes
  | .create _ multipart => Aardbin.fileBytes multipart
  | .apiCreate _ multipart => Aardbin.fileBytes multipart
  | .update _ _ multipart => Aardbin.fileBytes multipart
  | _ => []

/-! ## Ghost state -/

structure Held where
  /-- the contents of the request's file parts, in order -/
  sent : List Bytes
  /-- the ids that `begin_upload` has returned to the request, in order -/
  begun : List String := []
  /-- the temp file being written -/
  tmp : Option (String × Bytes) := none
  /-- uploads under their final name, without a row -/
  files : List (String × Bytes) := []
  /-- files whose row the request has deleted -/
  doomed : List String := []
  /-- an id from `Uuid::new_v4` that is not a record yet -/
  newId : Option String := none
  /-- records the request has written -/
  seen : List String := []
  /-- records the request knows to be deleted -/
  gone : List String := []

namespace Held

def born (req : Request) : Held :=
  { sent := req.fileBytes }

def pre (g : Held) : Call → Prop
  | .file .beginUpload => g.tmp = none
  | .file (.writeAll id _) => ∃ b, g.tmp = some (id, b)
  | .file (.finalizeUpload id) =>
      g.seen = [] ∧ ∃ b, g.tmp = some (id, b) ∧ (id, b) ∈ g.begun.zip g.sent
  | .file (.abortUpload id) => ∃ b, g.tmp = some (id, b)
  | .file (.deleteAttachment id) => id ∈ g.files.map (·.1) ∨ id ∈ g.doomed
  | .db (.createRecord id _ _) => g.newId = some id ∧ g.files.length ≤ maxAttachmentsPerRecord
  | .db (.insertAttachment a) =>
      a.recordId ∈ g.seen ∧
        ∃ b, (a.id, b) ∈ g.files ∧ (a.id, b) ∈ g.begun.zip g.sent ∧ a.sizeBytes = b.length
  | _ => True

def updFile (g : Held) : (c : FileCall) → c.Reply → Held
  | .beginUpload, .ok id => { g with begun := g.begun ++ [id], tmp := some (id, []) }
  | .writeAll _ chunk, .ok () => { g with tmp := g.tmp.map fun f => (f.1, f.2 ++ chunk) }
  | .finalizeUpload _, .ok _ => { g with tmp := none, files := g.files ++ g.tmp.toList }
  | .abortUpload _, _ => { g with tmp := none }
  | .deleteAttachment id, _ =>
      { g with files := g.files.eraseP fun f => f.1 = id, doomed := g.doomed.erase id }
  | _, _ => g

def updDb (g : Held) : (c : DbCall) → Except DbError c.Val → Held
  | .createRecord id _ _, .ok () => { g with newId := none, seen := id :: g.seen }
  | .updateRecord id _ _, .ok true => { g with seen := id :: g.seen }
  | .insertAttachment a, .ok () => { g with files := g.files.eraseP fun f => f.1 = a.id }
  | .insertAttachment a, .error _ => { g with gone := a.recordId :: g.gone }
  | .deleteRecord _, .ok (some ids) => { g with doomed := g.doomed ++ ids }
  | .deleteAttachment _ attachmentId, .ok (some _) =>
      { g with doomed := g.doomed ++ [attachmentId] }
  | _, _ => g

def upd (g : Held) : (op : Call) → Reply op → Held
  | .file c, r => g.updFile c r
  | .db c, r => g.updDb c r
  | .newV4, id => { g with newId := some id }
  | _, _ => g

/-- The replies after which the request can still clean up after itself. -/
def Steady (g : Held) : (op : Call) → Reply op → Prop
  | .db (.updateRecord _ _ _), .ok false => g.files = []
  | .db (.insertAttachment a), .error _ => g.files.eraseP (fun f => f.1 = a.id) = []
  | .db (.deleteRecord id), .ok (some _) => id ∉ g.gone
  | _, _ => True

/-- Nothing is left to clean up. -/
structure Settled (g : Held) : Prop where
  tmp : g.tmp = none
  files : g.files = []
  doomed : g.doomed = []

/-- Exactly the given uploads are under their final names and wait for their rows. -/
structure Carries (g : Held) (uploads : List PendingUpload) : Prop where
  tmp : g.tmp = none
  doomed : g.doomed = []
  ids : g.files.map (·.1) = uploads.map (·.id)
  sizes : g.files.map (·.2.length) = uploads.map (·.size)
  origin : ∀ f ∈ g.files, f ∈ g.begun.zip g.sent

end Held

namespace Held

/-! ## What a call leaves alone -/

variable (g : Held)

@[simp] theorem sent_upd (op : Call) (r : Reply op) : (g.upd op r).sent = g.sent := by
  cases op with
  | file c => simp only [upd, updFile]; split <;> rfl
  | db c => simp only [upd, updDb]; split <;> rfl
  | _ => rfl

@[simp] theorem newId_updFile (c : FileCall) (r : c.Reply) : (g.updFile c r).newId = g.newId := by
  unfold updFile
  split <;> rfl

@[simp] theorem seen_updFile (c : FileCall) (r : c.Reply) : (g.updFile c r).seen = g.seen := by
  unfold updFile
  split <;> rfl

@[simp] theorem gone_updFile (c : FileCall) (r : c.Reply) : (g.updFile c r).gone = g.gone := by
  unfold updFile
  split <;> rfl

@[simp] theorem tmp_updDb (c : DbCall) (r : Except DbError c.Val) : (g.updDb c r).tmp = g.tmp := by
  unfold updDb
  split <;> rfl

@[simp] theorem begun_updDb (c : DbCall) (r : Except DbError c.Val) :
    (g.updDb c r).begun = g.begun := by
  unfold updDb
  split <;> rfl

/-- Only an insert changes the uploads that wait for a row. -/
theorem files_updDb {c : DbCall} (r : Except DbError c.Val)
    (h : ∀ a, c ≠ .insertAttachment a) : (g.updDb c r).files = g.files := by
  unfold updDb
  split <;> first | rfl | exact absurd rfl (h _)

/-- Only a refused insert tells that a record is gone. -/
theorem gone_updDb {c : DbCall} (r : Except DbError c.Val)
    (h : ∀ a, c ≠ .insertAttachment a) : (g.updDb c r).gone = g.gone := by
  unfold updDb
  split <;> first | rfl | exact absurd rfl (h _)

/-- Only a write to the table of records shows that a record is there. -/
theorem seen_updDb {c : DbCall} (r : Except DbError c.Val)
    (hcreate : ∀ id blob now, c ≠ .createRecord id blob now)
    (hupdate : ∀ id blob now, c ≠ .updateRecord id blob now) :
    (g.updDb c r).seen = g.seen := by
  unfold updDb
  split <;> first | rfl | exact absurd rfl (hcreate _ _ _) | exact absurd rfl (hupdate _ _ _)

/-- A database call gives nobody a new id. -/
theorem newId_updDb (c : DbCall) (r : Except DbError c.Val) :
    (g.updDb c r).newId = g.newId ∨ (g.updDb c r).newId = none := by
  unfold updDb
  split <;> simp

end Held

def custody (steady : Prop) : Protocol Reply Held where
  pre := Held.pre
  next := fun g op r g' => g' = g.upd op r ∧ (steady → g.Steady op r)

namespace Held

variable {steady : Prop} {g : Held}

theorem born_carries (req : Request) : (born req).Carries [] :=
  ⟨rfl, rfl, rfl, rfl, by simp [born]⟩

theorem Carries.settled (h : g.Carries []) : g.Settled := by
  refine ⟨h.tmp, ?_, h.doomed⟩
  simpa using h.ids

/-- The first carried upload has a file at the head of `files`. -/
theorem Carries.uncons {u : PendingUpload} {rest : List PendingUpload}
    (h : g.Carries (u :: rest)) :
    ∃ b tail, g.files = (u.id, b) :: tail ∧ b.length = u.size ∧
      ({ g with files := tail } : Held).Carries rest := by
  rcases hf : g.files with _ | ⟨⟨id, b⟩, tail⟩
  · have hids := h.ids
    simp [hf] at hids
  · have hids := h.ids
    have hsizes := h.sizes
    simp only [hf, List.map_cons, List.cons.injEq] at hids hsizes
    rcases hids with ⟨rfl, hids⟩
    refine ⟨b, tail, rfl, hsizes.1, ⟨h.tmp, h.doomed, hids, hsizes.2, ?_⟩⟩
    intro f hmem
    exact h.origin f (by simp [hf, hmem])

theorem mem_zip_snoc {ids : List String} {sent : List Bytes} {id : String} {b : Bytes}
    {more : List Bytes} (h : sent.drop ids.length = b :: more) :
    (ids ++ [id]).zip sent = ids.zip sent ++ [(id, b)] := by
  have hlen : ids.length ≤ sent.length := by
    by_contra hlt
    rw [List.drop_eq_nil_of_le (by omega)] at h
    cases h
  -- The contents are those of the ids so far, then `b`.
  have hsplit : sent = sent.take ids.length ++ b :: more := by
    rw [← h, List.take_append_drop]
  have htake : (sent.take ids.length).length = ids.length := by simp [hlen]
  have hzip : ids.zip sent = ids.zip (sent.take ids.length) := by
    conv_lhs => rw [hsplit, ← List.append_nil ids, List.zip_append (by simp [hlen])]
    simp
  rw [hzip]
  conv_lhs => rw [hsplit, List.zip_append (by simp [hlen])]
  simp

end Held

/-! ## Cleaning up -/

section Specs

variable {steady : Prop}

theorem wp_cleanupUploads (us : List PendingUpload) (g : Held) (h : g.Carries us)
    {Q : Unit → Held → Prop} (hQ : ∀ g', g'.Settled → Q () g') :
    wp (custody steady) (cleanupUploads us) Q g := by
  induction us generalizing g with
  | nil => exact hQ g h.settled
  | cons u rest ih =>
      rcases h.uncons with ⟨b, tail, hfiles, -, hrest⟩
      simp only [cleanupUploads, wp_bind, wp_perform]
      refine ⟨.inl (by simp [hfiles]), ?_⟩
      rintro _ g' ⟨rfl, -⟩
      refine ih _ ?_
      simpa [Held.upd, Held.updFile, Held.updDb, hfiles, h.doomed] using hrest

theorem wp_reject {α : Type} (us : List PendingUpload) (resp : Response) (g : Held)
    (h : g.Carries us) {Q : Except Response α → Held → Prop}
    (hQ : ∀ g', g'.Settled → Q (.error resp) g') :
    wp (custody steady) (reject us resp) Q g := by
  simp only [reject, wp_bind, wp_pure]
  exact wp_cleanupUploads us g h fun g' hg' => hQ g' hg'

/-! ## Reading the form -/

theorem wp_writeChunks (s : AppState) (filename id : String) (broken : Option String)
    (chunks : List Bytes) (size totalBytes : Nat) (g : Held) (b : Bytes)
    (htmp : g.tmp = some (id, b)) {Q : Option Response × Nat × Nat → Held → Prop}
    (hfail : ∀ resp sz total b', Q (some resp, sz, total) { g with tmp := some (id, b') })
    (hok : ∀ total, Q (none, size + chunks.flatten.length, total)
      { g with tmp := some (id, b ++ chunks.flatten) }) :
    wp (custody steady) (writeChunks s filename id broken chunks size totalBytes) Q g := by
  -- The temp file grows by each chunk, so the content written so far is generalised.
  induction chunks generalizing size totalBytes g b with
  | nil =>
      have hg : ({ g with tmp := some (id, b) } : Held) = g := by rw [← htmp]
      cases broken with
      | none => simpa [writeChunks, hg] using hok totalBytes
      | some e =>
          simpa [writeChunks, hg] using
            hfail (errResponse .unprocessableEntity s!"Upload failed: {e}") size totalBytes b
  | cons chunk rest ih =>
      have hg : ({ g with tmp := some (id, b) } : Held) = g := by rw [← htmp]
      simp only [writeChunks]
      split_ifs
      · simpa [hg] using hfail _ _ _ b
      · simpa [hg] using hfail _ _ _ b
      · simp only [wp_bind, wp_perform]
        refine ⟨⟨b, htmp⟩, ?_⟩
        rintro r g' ⟨rfl, -⟩
        cases r with
        | error e => simpa [hg, Held.upd, Held.updFile, Held.updDb] using hfail internal _ _ b
        | ok _ =>
            refine ih _ _ _ (b ++ chunk) (by simp [Held.upd, Held.updFile, htmp]) ?_ ?_
            · intro resp sz total b'
              simpa [Held.upd, Held.updFile, Held.updDb] using hfail resp sz total b'
            · intro total
              simpa [Held.upd, Held.updFile, Held.updDb, Nat.add_assoc] using hok total

/-- The contents still to come are those of the parts still to be read. -/
def Held.Awaits (g : Held) (parts : Multipart) : Prop :=
  g.sent.drop g.begun.length = fileBytes parts

/-- In the loop over the fields, before `rest`. -/
structure Held.Reading (g : Held) (acc : FormState) (rest : Multipart) : Prop where
  carries : g.Carries acc.uploads
  awaits : g.Awaits rest
  unwritten : g.seen = []
  counted : acc.uploads.length ≤ acc.attachmentCount
  bounded : acc.attachmentCount ≤ maxAttachmentsPerRecord

/-- The field before `rest` adds nothing to the uploads. -/
theorem Held.Reading.skip {g : Held} {acc acc' : FormState} {p : Part} {rest : Multipart}
    (h : g.Reading acc (.ok p :: rest)) (hp : p.upload? = none)
    (huploads : acc'.uploads = acc.uploads) (hcount : acc'.attachmentCount = acc.attachmentCount) :
    g.Reading acc' rest := by
  refine ⟨huploads ▸ h.carries, ?_, h.unwritten, ?_, hcount ▸ h.bounded⟩
  · simpa [Held.Awaits, fileBytes, hp] using h.awaits
  · rw [huploads, hcount]
    exact h.counted

/-- What reading one more field guarantees. -/
def FieldPost (rest : Multipart) : Except Response FormState → Held → Prop
  | .error _, g => g.Settled
  | .ok acc, g => g.Reading acc rest

theorem wp_readFileField (s : AppState) (acc : FormState) (p : Part) (rest : Multipart)
    (g : Held) (hname : p.name = some "files") (h : g.Reading acc (.ok p :: rest)) :
    wp (custody steady) (readFileField s acc p) (FieldPost rest) g := by
  have hcarries := h.carries
  cases hfile : p.fileName with
  | none =>
      simp only [readFileField, hfile, wp_pure]
      exact h.skip (by simp [Part.upload?, hfile]) rfl rfl
  | some filename =>
      simp only [readFileField, hfile]
      split_ifs with hempty hcount
      · exact h.skip (by simp [Part.upload?, hfile, hempty]) rfl rfl
      · exact wp_reject _ _ g hcarries fun g' hg' => hg'
      · have hnext : g.sent.drop g.begun.length = p.bytes :: fileBytes rest := by
          simpa [Held.Awaits, fileBytes, Part.upload?, hname, hfile, hempty] using h.awaits
        simp only [wp_bind, wp_perform]
        refine ⟨hcarries.tmp, ?_⟩
        rintro r g' ⟨rfl, -⟩
        cases r with
        | error e => exact wp_reject _ _ g hcarries fun g' hg' => hg'
        | ok id =>
            -- What is left once the temp file is given up.
            have hdropped :
                ({ g with begun := g.begun ++ [id], tmp := none } : Held).Carries acc.uploads := by
              refine ⟨rfl, hcarries.doomed, hcarries.ids, hcarries.sizes, fun f hf => ?_⟩
              simp only [Held.mem_zip_snoc hnext, List.mem_append]
              exact .inl (hcarries.origin f hf)
            simp only [wp_bind]
            refine wp_writeChunks s filename id p.broken p.chunks 0 acc.totalBytes _ []
              (by simp [Held.upd, Held.updFile]) ?_ ?_
            · -- A limit or a transport error: drop the temp file and the earlier uploads.
              intro resp sz total b
              simp only [wp_bind, wp_perform]
              refine ⟨⟨b, rfl⟩, ?_⟩
              rintro _ g' ⟨rfl, -⟩
              exact wp_reject _ _ _ hdropped fun g' hg' => hg'
            · -- All chunks are written: the file is renamed, or given up as well.
              intro total
              simp only [wp_bind, wp_perform]
              refine ⟨⟨h.unwritten, _, rfl, ?_⟩, ?_⟩
              · simp [Held.upd, Held.updFile, Held.mem_zip_snoc hnext, Part.bytes]
              rintro r g' ⟨rfl, -⟩
              cases r with
              | error e =>
                  simp only [wp_bind, wp_perform]
                  refine ⟨⟨_, rfl⟩, ?_⟩
                  rintro _ g' ⟨rfl, -⟩
                  exact wp_reject _ _ _ hdropped fun g' hg' => hg'
              | ok size =>
                  refine ⟨⟨rfl, hcarries.doomed, ?_, ?_, ?_⟩, ?_, h.unwritten, ?_, ?_⟩
                  · simp [Held.upd, Held.updFile, hcarries.ids]
                  · simp [Held.upd, Held.updFile, hcarries.sizes]
                  · intro f hf
                    simp only [Held.upd, Held.updFile, Held.mem_zip_snoc hnext, List.mem_append,
                      List.mem_singleton, Option.mem_toList] at hf ⊢
                    rcases hf with hf | hf
                    · exact .inl (hcarries.origin f hf)
                    · exact .inr (by simpa [Part.bytes] using hf.symm)
                  · simp only [Held.Awaits, Held.upd, Held.updFile, List.length_append, List.length_singleton]
                    rw [← List.drop_drop, hnext]
                    rfl
                  · simpa using h.counted
                  · simpa using hcount

theorem wp_readField (s : AppState) (acc : FormState) (p : Part) (rest : Multipart)
    (g : Held) (h : g.Reading acc (.ok p :: rest)) :
    wp (custody steady) (readField s acc p) (FieldPost rest) g := by
  by_cases hname : p.name = some "files"
  · simpa [readField, hname] using wp_readFileField s acc p rest g hname h
  · have hskip : p.upload? = none := by simp [Part.upload?, hname]
    have hne : p.name.getD "" ≠ "files" := by
      cases hp : p.name with
      | none => decide
      | some n =>
          intro hn
          exact hname (by simpa [hp] using hn)
    simp only [readField, hne, if_false]
    split_ifs with htext
    · unfold readTextField
      split
      · exact wp_reject _ _ g h.carries fun g' hg' => hg'
      · dsimp only
        split_ifs
        · exact wp_reject _ _ g h.carries fun g' hg' => hg'
        · exact wp_reject _ _ g h.carries fun g' hg' => hg'
        · exact h.skip hskip rfl rfl
        · exact h.skip hskip rfl rfl
    · split
      · exact h.skip hskip rfl rfl
      · exact h.skip hskip rfl rfl

theorem wp_readFields (s : AppState) (parts : Multipart) (acc : FormState) (g : Held)
    (h : g.Reading acc parts) :
    wp (custody steady) (readFields s parts acc) (FieldPost []) g := by
  induction parts generalizing acc g with
  | nil => exact h
  | cons part rest ih =>
      cases part with
      | error e => exact wp_reject _ _ g h.carries fun g' hg' => hg'
      | ok p =>
          simp only [readFields, wp_bind]
          refine wp_mono (wp_readField s acc p rest g h) ?_
          intro r g' hr
          cases r with
          | error resp => exact hr
          | ok acc' => exact ih acc' g' hr

/-- A rejected form leaves nothing behind; an accepted one leaves exactly its uploads, which are
no more than a record may have. -/
theorem wp_parseRecordForm (s : AppState) (parts : Multipart) (len : Option Nat) (g : Held)
    (h : g.Reading {} parts) {Q : Except Response ParsedRecordForm → Held → Prop}
    (herr : ∀ resp g', g'.Settled → Q (.error resp) g')
    (hok : ∀ form g', g'.Carries form.uploads → g'.files.length ≤ maxAttachmentsPerRecord →
      Q (.ok form) g') :
    wp (custody steady) (parseRecordForm s parts len) Q g := by
  unfold parseRecordForm
  split_ifs
  · exact herr _ g h.carries.settled
  · simp only [wp_bind]
    refine wp_mono (wp_readFields s parts {} g h) ?_
    intro r g' hr
    cases r with
    | error resp => exact herr resp g' hr
    | ok acc =>
        refine hok _ g' hr.carries ?_
        have hlen : g'.files.length = acc.uploads.length := by
          simpa using congrArg List.length hr.carries.ids
        rw [hlen]
        exact hr.counted.trans hr.bounded

/-! ## The handlers -/

/-- After the inserts: all rows are there, or the record is gone and, with steady replies, so are
the files. -/
def InsertPost (steady : Prop) (recordId : String) : Except DbError Unit → Held → Prop
  | .ok _, g => g.Settled
  | .error _, g =>
      recordId ∈ g.gone ∧ g.tmp = none ∧ g.doomed = [] ∧ (steady → g.files = [])

theorem wp_insertUploads (recordId : String) (ts : Int) (us : List PendingUpload) (g : Held)
    (h : g.Carries us) (hseen : recordId ∈ g.seen) :
    wp (custody steady) (insertUploads recordId ts us) (InsertPost steady recordId) g := by
  induction us generalizing g with
  | nil => exact h.settled
  | cons u rest ih =>
      -- The uploads are inserted in the order in which they were renamed.
      rcases h.uncons with ⟨b, tail, hfiles, hsize, hrest⟩
      have hmem : (u.id, b) ∈ g.files := by simp [hfiles]
      simp only [insertUploads, wp_bind, wp_perform]
      refine ⟨⟨hseen, b, hmem, h.origin _ hmem, by simp [attachmentRow, hsize]⟩, ?_⟩
      rintro r g' ⟨rfl, hsteady⟩
      cases r with
      | error e =>
          -- The file of this upload is removed; the others stay, if there are any.
          simp only [wp_bind, wp_perform]
          refine ⟨.inl (by simp [Held.upd, Held.updDb, hfiles]), ?_⟩
          rintro _ g' ⟨rfl, -⟩
          refine ⟨by simp [Held.upd, Held.updFile, Held.updDb, attachmentRow], h.tmp,
            by simp [Held.upd, Held.updFile, Held.updDb, h.doomed], ?_⟩
          intro hs
          exact hsteady hs
      | ok _ =>
          refine ih _ ?_ hseen
          simpa [Held.upd, Held.updFile, Held.updDb, attachmentRow, hfiles] using hrest

/-- With steady replies nothing is left to clean up at the end of a request. -/
def EndPost (steady : Prop) : Response → Held → Prop :=
  fun _ g => steady → g.Settled

theorem wp_createWith (s : AppState) (headers : HeaderMap) (parts : Multipart)
    (failed : Response) (done : String → Response) (g : Held) (h : g.Reading {} parts) :
    wp (custody steady) (createWith s headers parts failed done) (EndPost steady) g := by
  simp only [createWith, wp_bind]
  refine wp_parseRecordForm s parts _ g h (fun resp g' hg' _ => hg') ?_
  intro form g₁ hg₁ hbound
  simp only [wp_bind, wp_perform]
  refine ⟨trivial, ?_⟩
  rintro id g₂ ⟨rfl, -⟩
  refine ⟨trivial, ?_⟩
  rintro ts g₃ ⟨rfl, -⟩
  refine ⟨trivial, ?_⟩
  rintro nonce g₄ ⟨rfl, -⟩
  refine ⟨⟨rfl, hbound⟩, ?_⟩
  rintro r g₅ ⟨rfl, -⟩
  have hcarry : ({ g₁ with newId := some id } : Held).Carries form.uploads :=
    ⟨hg₁.tmp, hg₁.doomed, hg₁.ids, hg₁.sizes, hg₁.origin⟩
  cases r with
  | error e =>
      -- No record: every upload is removed.
      simp only [wp_bind]
      exact wp_cleanupUploads _ _ hcarry fun g' hg' _ => hg'
  | ok _ =>
      simp only [wp_bind]
      have hcarry' : ({ g₁ with newId := none, seen := id :: g₁.seen } : Held).Carries
          form.uploads := ⟨hg₁.tmp, hg₁.doomed, hg₁.ids, hg₁.sizes, hg₁.origin⟩
      refine wp_mono (wp_insertUploads id ts form.uploads _ hcarry' (by simp [Held.upd, Held.updDb])) ?_
      intro r g₆ hr
      cases r with
      | error e =>
          -- The record is taken back; a delete that finds it would doom its files.
          rcases hr with ⟨hgone, htmp, hdoomed, hfiles⟩
          simp only [wp_bind, wp_perform]
          refine ⟨trivial, ?_⟩
          rintro r g₇ ⟨rfl, hsteady⟩ hs
          have hnotgone := hsteady hs
          rcases r with err | _ | ids
          · exact ⟨htmp, hfiles hs, hdoomed⟩
          · exact ⟨htmp, hfiles hs, hdoomed⟩
          · exact absurd hgone hnotgone
      | ok _ =>
          simp only [wp_bind, wp_perform]
          refine ⟨trivial, ?_⟩
          rintro _ g₇ ⟨rfl, -⟩ _
          exact hr

theorem wp_updateRecord (s : AppState) (id : String) (headers : HeaderMap) (parts : Multipart)
    (g : Held) (h : g.Reading {} parts) :
    wp (custody steady) (updateRecord s id headers parts) (EndPost steady) g := by
  simp only [updateRecord, wp_bind, wp_perform]
  refine ⟨trivial, ?_⟩
  rintro r g₀ ⟨hg₀, -⟩
  obtain rfl : g₀ = g := by rw [hg₀]; cases r <;> rfl
  -- The read fails, finds no record, or finds one.
  rcases r with _ | _ | row
  · exact fun _ => h.carries.settled
  · exact fun _ => h.carries.settled
  · dsimp only
    split
    · exact fun _ => h.carries.settled
    · simp only [wp_bind]
      refine wp_parseRecordForm s parts _ g₀ h (fun resp g' hg' _ => hg') ?_
      intro form g₁ hg₁ _
      simp only [wp_bind, wp_perform]
      refine ⟨trivial, ?_⟩
      rintro ts g₂ ⟨rfl, -⟩
      refine ⟨trivial, ?_⟩
      rintro nonce g₃ ⟨rfl, -⟩
      refine ⟨trivial, ?_⟩
      rintro r g₄ ⟨rfl, hsteady⟩
      -- The write fails, finds the record deleted, or goes through.
      rcases r with _ | _ | _
      · simp only [wp_bind]
        exact wp_cleanupUploads _ _ hg₁ fun g' hg' _ => hg'
      · -- The uploads are left behind unless there are none.
        exact fun hs => ⟨hg₁.tmp, hsteady hs, hg₁.doomed⟩
      · simp only [wp_bind]
        refine wp_mono (wp_insertUploads id ts form.uploads _
          ⟨hg₁.tmp, hg₁.doomed, hg₁.ids, hg₁.sizes, hg₁.origin⟩ (by simp [Held.upd, Held.updDb])) ?_
        intro r g₅ hr
        cases r with
        | error e =>
            -- Writing the old blob back concerns no file, whatever comes of it.
            rcases hr with ⟨-, htmp, hdoomed, hfiles⟩
            simp only [wp_bind, wp_perform]
            refine ⟨trivial, ?_⟩
            rintro r g₆ ⟨rfl, -⟩ hs
            rcases r with _ | _ | _
            · exact ⟨htmp, hfiles hs, hdoomed⟩
            · exact ⟨htmp, hfiles hs, hdoomed⟩
            · exact ⟨htmp, hfiles hs, hdoomed⟩
        | ok _ =>
            simp only [wp_bind, wp_perform]
            refine ⟨trivial, ?_⟩
            rintro _ g₆ ⟨rfl, -⟩ _
            exact hr

theorem wp_deleteFiles (ids : List String) (g : Held) (htmp : g.tmp = none)
    (hfiles : g.files = []) (hdoomed : g.doomed = ids) :
    wp (custody steady) (deleteFiles ids) (fun _ g' => g'.Settled) g := by
  induction ids generalizing g with
  | nil => exact ⟨htmp, hfiles, hdoomed⟩
  | cons aid rest ih =>
      simp only [deleteFiles, wp_bind, wp_perform]
      refine ⟨.inr (by simp [hdoomed]), ?_⟩
      rintro _ g' ⟨rfl, -⟩
      exact ih _ htmp (by simp [Held.upd, Held.updFile, hfiles])
        (by simp [Held.upd, Held.updFile, hdoomed])

theorem wp_deleteWith (id : String) (deleted missing failed : Response) (g : Held)
    (h : g.Carries []) :
    wp (custody steady) (deleteWith id deleted missing failed) (EndPost steady) g := by
  simp only [deleteWith, wp_bind, wp_perform]
  refine ⟨trivial, ?_⟩
  rintro r g' ⟨rfl, -⟩
  rcases r with _ | _ | ids
  · exact fun _ => h.settled
  · exact fun _ => h.settled
  · -- The rows have cascaded, so the request owes the removal of their files.
    simp only [wp_bind, wp_perform]
    refine wp_mono (wp_deleteFiles ids _ h.tmp h.settled.files
      (by simp [Held.upd, Held.updDb, h.doomed])) ?_
    intro _ g₁ hg₁
    refine ⟨trivial, ?_⟩
    rintro _ g₂ ⟨rfl, -⟩ _
    exact hg₁

theorem wp_deleteAttachment (s : AppState) (recordId attachmentId : String)
    (headers : HeaderMap) (g : Held) (h : g.Carries []) :
    wp (custody steady) (deleteAttachment s recordId attachmentId headers) (EndPost steady) g := by
  simp only [deleteAttachment, wp_bind, wp_perform]
  refine ⟨trivial, ?_⟩
  rintro r g₀ ⟨rfl, -⟩
  rcases r with _ | _ | row
  · exact fun _ => h.settled
  · exact fun _ => h.settled
  · simp only [wp_bind, wp_perform]
    refine ⟨.inr (by simp [Held.upd, Held.updDb]), ?_⟩
    rintro _ g₁ ⟨rfl, -⟩
    -- Neither the clock nor the calls below concern files.
    have hset : ∀ g' : Held, g'.tmp = g.tmp → g'.files = g.files.eraseP (fun f => f.1 = attachmentId) →
        g'.doomed = (g.doomed ++ [attachmentId]).erase attachmentId → g'.Settled := by
      intro g' h₁ h₂ h₃
      exact ⟨h₁.trans h.tmp, by simpa [h.settled.files] using h₂, by simpa [h.doomed] using h₃⟩
    refine ⟨trivial, ?_⟩
    rintro ts g₂ ⟨rfl, -⟩
    refine ⟨trivial, ?_⟩
    rintro r g₃ ⟨rfl, -⟩
    cases r with
    | error e => exact fun _ => hset _ rfl rfl rfl
    | ok _ =>
        simp only [wp_bind, wp_perform]
        refine ⟨trivial, ?_⟩
        rintro _ g₄ ⟨rfl, -⟩
        refine ⟨trivial, ?_⟩
        rintro r g₅ ⟨rfl, -⟩
        cases r with
        | error e => exact fun _ => hset _ rfl rfl rfl
        | ok rows => exact fun _ => hset _ rfl rfl rfl

/-- Every handler keeps to the protocol from the moment it starts. -/
theorem wp_handle (s : AppState) (req : Request) :
    wp (custody steady) (handle s req) (EndPost steady) (Held.born req) := by
  have hcarries : (Held.born req).Carries [] := Held.born_carries req
  have h : ∀ parts, req.fileBytes = fileBytes parts → (Held.born req).Reading {} parts := by
    intro parts hparts
    exact ⟨hcarries, by simpa [Held.Awaits, Held.born] using hparts, rfl, Nat.le_refl _,
      Nat.zero_le _⟩
  cases req with
  | create headers parts => exact wp_createWith s headers parts _ _ _ (h parts rfl)
  | apiCreate headers parts => exact wp_createWith s headers parts _ _ _ (h parts rfl)
  | update id headers parts => exact wp_updateRecord s id headers parts _ (h parts rfl)
  | delete id => exact wp_deleteWith id _ _ _ _ hcarries
  | apiDelete id => exact wp_deleteWith id _ _ _ _ hcarries
  | deleteAttachment recordId attachmentId headers =>
      exact wp_deleteAttachment s recordId attachmentId headers _ hcarries

end Specs

end Aardbin
