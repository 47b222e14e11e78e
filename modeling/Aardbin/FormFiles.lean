import Aardbin.Custody.Protocol
import Aardbin.PlainVendor

/-!
# What reading a form leaves on disk

A form that is rejected leaves no file behind, and a form that is accepted leaves one file for each
of its uploads.  The loop invariant `Filed` relates the uploads read so far to the two directories.
-/

namespace Aardbin

open Effect Rust

/-! ## The parts that become uploads -/

def Part.isUpload (p : Part) : Bool :=
  p.upload?.isSome

def fileParts : Multipart → List Part
  | [] => []
  | .error _ :: rest => fileParts rest
  | .ok p :: rest => if p.isUpload then p :: fileParts rest else fileParts rest

theorem isUpload_iff (p : Part) :
    p.isUpload = true ↔ p.name = some "files" ∧ ∃ f, p.fileName = some f ∧ f ≠ "" := by
  unfold Part.isUpload Part.upload?
  split_ifs with hname
  · cases hfile : p.fileName with
    | none => simp
    | some f => by_cases hf : f = "" <;> simp [hname, hf]
  · simp [hname]

theorem isUpload_of_files {p : Part} {f : String} (hname : p.name = some "files")
    (hfile : p.fileName = some f) (hf : f ≠ "") : p.isUpload = true :=
  (isUpload_iff p).2 ⟨hname, f, hfile, hf⟩

/-! ## Removing files -/

def Call.IsRemoval : Call → Prop
  | .file (.abortUpload _) => True
  | .file (.deleteAttachment _) => True
  | _ => False

instance : (op : Call) → Decidable op.IsRemoval
  | .file (.abortUpload _) => inferInstanceAs (Decidable True)
  | .file (.deleteAttachment _) => inferInstanceAs (Decidable True)
  | .file .beginUpload => inferInstanceAs (Decidable False)
  | .file (.writeAll _ _) => inferInstanceAs (Decidable False)
  | .file (.finalizeUpload _) => inferInstanceAs (Decidable False)
  | .db _ => inferInstanceAs (Decidable False)
  | .newV4 => inferInstanceAs (Decidable False)
  | .now => inferInstanceAs (Decidable False)
  | .nonce => inferInstanceAs (Decidable False)
  | .send => inferInstanceAs (Decidable False)
  | .panic => inferInstanceAs (Decidable False)

/-- `remove_file` succeeds; every other call may fail. -/
def Removes (e : Env) (op : Call) : Prop :=
  op.IsRemoval → e.fault = false

instance (e : Env) (op : Call) : Decidable (Removes e op) :=
  inferInstanceAs (Decidable (op.IsRemoval → e.fault = false))

/-- Cleaning up removes the files of the uploads, in any ghost state `mk` that follows the store. -/
theorem wp_cleanupUploads_files {G : Type} {π : Protocol Reply G} (mk : Store → G)
    (hstep : ∀ w id r g', π.next (mk w) (.file (.deleteAttachment id)) r g' →
      g' = mk { w with files := w.files.deleteAttachment id })
    (hpre : ∀ w id, π.pre (mk w) (.file (.deleteAttachment id)))
    (us : List PendingUpload) (w : Store) {Q : Unit → G → Prop}
    (hQ : ∀ files : FileStore, files.tmp = w.files.tmp → (∀ id, files.attachments id =
      if id ∈ us.map (·.id) then none else w.files.attachments id) → Q () (mk { w with files })) :
    wp π (cleanupUploads us) Q (mk w) := by
  induction us generalizing w with
  | nil => exact hQ w.files rfl (by simp)
  | cons u rest ih =>
      simp only [cleanupUploads, wp_bind, wp_perform]
      refine ⟨hpre w u.id, fun r g' hnext => ?_⟩
      rw [hstep w u.id r g' hnext]
      -- One file fewer, and the rest of the list removes the others.
      refine ih _ fun files htmp hfiles => hQ files htmp fun id => ?_
      rw [hfiles id]
      by_cases hid : id = u.id
      · simp [FileStore.deleteAttachment, hid]
      · simp [FileStore.deleteAttachment, hid]

/-! ## One temp file -/

/-- The temp file `id` with the content `b`. -/
def FileStore.holding (fs : FileStore) (id : String) (b : Bytes) : FileStore :=
  { fs with tmp := Function.update fs.tmp id (some b) }

attribute [ext] FileStore

namespace FileStore

variable (fs : FileStore) (id : String) (b chunk : Bytes)

theorem writeAll_holding : (fs.holding id b).writeAll id chunk = fs.holding id (b ++ chunk) := by
  simp [holding, writeAll]

theorem abortUpload_holding (h : fs.tmp id = none) : (fs.holding id b).abortUpload id = fs := by
  simp [holding, abortUpload, ← h]

end FileStore

section Reading

variable {P : Env → Call → Prop} {s : AppState} {w₀ w : Store}

/-- No call fails. -/
def Calm (P : Env → Call → Prop) : Prop :=
  ∀ e op, P e op → e.fault = false

/-- The result of the loop over the chunks of a file; `n` bytes were to be written. -/
def ChunksResult (P : Env → Call → Prop) (s : AppState) (id : String) (broken : Option String)
    (chunks : List Bytes) (size totalBytes : Nat) (w : Store) (b : Bytes) :
    Option Response × Nat × Nat → Store → Prop
  | (none, size', totalBytes'), w' =>
      w' = { w with files := w.files.holding id (b ++ chunks.flatten) } ∧
      size' = size + chunks.flatten.length ∧ totalBytes' = totalBytes + chunks.flatten.length ∧
      (chunks ≠ [] → size' ≤ s.cfg.maxAttachmentBytes ∧ totalBytes' ≤ s.cfg.maxRequestBytes)
  | (some _, _, _), w' =>
      (∃ b', w' = { w with files := w.files.holding id b' }) ∧
      (Calm P → broken = none → chunks ≠ [] ∧
        (s.cfg.maxAttachmentBytes < size + chunks.flatten.length ∨
          s.cfg.maxRequestBytes < totalBytes + chunks.flatten.length))

theorem wp_writeChunks_files (s : AppState) (filename id : String) (broken : Option String)
    (chunks : List Bytes) (size totalBytes : Nat) (w : Store) (b : Bytes) :
    wp (answeringWhere P Store.answer) (writeChunks s filename id broken chunks size totalBytes)
      (ChunksResult P s id broken chunks size totalBytes w b)
      { w with files := w.files.holding id b } := by
  induction chunks generalizing size totalBytes b with
  | nil =>
      unfold writeChunks
      cases broken with
      | none => simp [ChunksResult]
      | some e => exact ⟨⟨b, rfl⟩, fun _ h => by cases h⟩
  | cons chunk rest ih =>
      simp only [writeChunks]
      split_ifs with hsize htotal
      · refine ⟨⟨b, rfl⟩, fun _ _ => ⟨by simp, .inl ?_⟩⟩
        simp only [List.flatten_cons, List.length_append]
        omega
      · refine ⟨⟨b, rfl⟩, fun _ _ => ⟨by simp, .inr ?_⟩⟩
        simp only [List.flatten_cons, List.length_append]
        omega
      · simp only [wp_bind, wp_perform]
        refine ⟨trivial, ?_⟩
        rintro r w₁ ⟨e, he, hans⟩
        rcases Store.answer_writeAll hans with ⟨rfl, rfl, hfault⟩ | ⟨rfl, rfl⟩
        · -- A calm environment refuses no write.
          exact ⟨⟨b, rfl⟩, fun hcalm => by simp [hcalm e _ he] at hfault⟩
        · rw [FileStore.writeAll_holding]
          refine wp_mono (ih (size + chunk.length) (totalBytes + chunk.length) (b ++ chunk)) ?_
          rintro ⟨failed, size', totalBytes'⟩ w' h
          cases failed with
          | some resp =>
              rcases h with ⟨hw, hlimits⟩
              refine ⟨hw, fun hcalm hbroken => ⟨by simp, ?_⟩⟩
              have hover := (hlimits hcalm hbroken).2
              simp only [List.flatten_cons, List.length_append]
              omega
          | none =>
              rcases h with ⟨hw, hs, ht, hle⟩
              refine ⟨by simpa using hw, by simp [hs, Nat.add_assoc], by simp [ht, Nat.add_assoc],
                fun _ => ?_⟩
              by_cases hrest : rest = []
              · -- The last chunk was checked against the limits before it was written.
                subst hrest
                simp only [List.flatten_nil, List.length_nil, Nat.add_zero] at hs ht
                omega
              · exact hle hrest

/-! ## The invariant of the loop over the fields -/

/-- Upload `u` has the metadata of part `p`, and its file has the bytes of the part. -/
structure Holds (s : AppState) (files : FileStore) (u : PendingUpload) (p : Part) : Prop where
  filename : p.fileName = some u.originalFilename
  mimeType : u.mimeType = guessMime s.vendor u.originalFilename p.contentType
  size : u.size = p.bytes.length
  file : files.attachments u.id = some p.bytes

/-- `w` is `w₀` with one more attachment file for each of the uploads `us` of the parts `ps`. -/
structure Filed (s : AppState) (w₀ : Store) (us : List PendingUpload) (ps : List Part) (w : Store) :
    Prop where
  db : w.db = w₀.db
  tmp : w.files.tmp = w₀.files.tmp
  nodup : (us.map (·.id)).Nodup
  unlisted : ∀ u ∈ us, u.id ∉ w₀.db.attachmentIds
  absent : ∀ u ∈ us, w₀.files.attachments u.id = none
  holds : List.Forall₂ (Holds s w.files) us ps
  others : ∀ id, id ∉ us.map (·.id) → w.files.attachments id = w₀.files.attachments id

theorem Filed.nil (s : AppState) (w : Store) : Filed s w [] [] w :=
  ⟨rfl, rfl, by simp, by simp, by simp, .nil, fun _ _ => rfl⟩

theorem Filed.file_ne_none {us : List PendingUpload} {ps : List Part} (h : Filed s w₀ us ps w)
    {u : PendingUpload} (hu : u ∈ us) : w.files.attachments u.id ≠ none := by
  have hholds := h.holds
  clear h
  induction hholds with
  | nil => cases hu
  | cons hhead _ ih =>
      rcases List.mem_cons.1 hu with rfl | hu
      · simp [hhead.file]
      · exact ih hu

/-- One more upload under a fresh id. -/
theorem Filed.snoc {us : List PendingUpload} {ps : List Part} (h : Filed s w₀ us ps w) {u : PendingUpload}
    {p : Part} {w' : Store} (hfresh : w.Fresh u.id) (hdb : w'.db = w.db)
    (htmp : w'.files.tmp = w.files.tmp)
    (hfiles : w'.files.attachments = Function.update w.files.attachments u.id (some p.bytes))
    (hname : p.fileName = some u.originalFilename)
    (hmime : u.mimeType = guessMime s.vendor u.originalFilename p.contentType)
    (hsize : u.size = p.bytes.length) : Filed s w₀ (us ++ [u]) (ps ++ [p]) w' := by
  -- The new id is fresh, so no upload before it has the same file.
  have hnew : ∀ v ∈ us, v.id ≠ u.id := by
    rintro v hv hid
    exact h.file_ne_none hv (hid ▸ hfresh.file)
  have hnot : u.id ∉ us.map (·.id) := by
    intro hmem
    rcases List.mem_map.1 hmem with ⟨v, hv, hid⟩
    exact hnew v hv hid
  refine ⟨hdb.trans h.db, htmp.trans h.tmp, ?_, ?_, ?_, ?_, ?_⟩
  · simpa [List.nodup_append, h.nodup] using hnew
  · intro v hv
    rcases List.mem_append.1 hv with hv | hv
    · exact h.unlisted v hv
    · rw [List.mem_singleton.1 hv, ← h.db]
      exact hfresh.attachment
  · intro v hv
    rcases List.mem_append.1 hv with hv | hv
    · exact h.absent v hv
    · rw [List.mem_singleton.1 hv, ← h.others _ hnot]
      exact hfresh.file
  · refine List.rel_append ?_ (.cons ⟨hname, hmime, hsize, by simp [hfiles]⟩ .nil)
    refine h.holds.imp ?_
    rintro v q ⟨hname', hmime', hsize', hfile'⟩
    have hne : v.id ≠ u.id := by
      intro hid
      rw [hid, hfresh.file] at hfile'
      cases hfile'
    exact ⟨hname', hmime', hsize', by rw [hfiles, Function.update_of_ne hne, hfile']⟩
  · intro id hid
    simp only [List.map_append, List.map_cons, List.map_nil, List.mem_append, List.mem_singleton,
      not_or] at hid
    rw [hfiles, Function.update_of_ne hid.2]
    exact h.others id hid.1

/-- Giving up removes what was stored. -/
theorem wp_reject_files {α : Type} (hP : ∀ e op, P e op → Removes e op) {us : List PendingUpload}
    {ps : List Part} (h : Filed s w₀ us ps w) (resp : Response) {Q : Except Response α → Store → Prop}
    (hQ : Q (.error resp) { w with files := w₀.files }) :
    wp (answeringWhere P Store.answer) (reject us resp) Q w := by
  simp only [reject, wp_bind, wp_pure]
  refine wp_cleanupUploads_files id ?_ (fun _ _ => trivial) us w fun files htmp hfiles => ?_
  · rintro w id r w' ⟨e, he, hans⟩
    have hfault : e.fault = false := hP e _ he trivial
    exact Store.answer_deleteAttachment_calm hans hfault
  · have hback : files = w₀.files := by
      refine FileStore.ext (funext fun id => ?_) (htmp.trans h.tmp)
      rw [hfiles id]
      split_ifs with hid
      · rcases List.mem_map.1 hid with ⟨u, hu, rfl⟩
        exact (h.absent u hu).symm
      · exact h.others id hid
    exact hback ▸ hQ

/-! ## The limits -/

/-- Nothing breaks inside the part. -/
def Part.Whole (p : Part) : Prop :=
  p.broken = none

/-- What a part adds to the running total. -/
def Part.weight (s : AppState) (p : Part) : Nat :=
  if p.name = some "files" then if p.isUpload then p.bytes.length else 0
  else (s.vendor.decodeText p.contentType p.bytes).utf8ByteSize

/-- The limits that a part has to meet, after parts of `totalBytes` bytes with `count` files. -/
def Part.Fits (s : AppState) (p : Part) (totalBytes count : Nat) : Prop :=
  if p.name = some "title" ∨ p.name = some "content" then
    totalBytes + p.weight s ≤ s.cfg.maxRequestBytes ∧
      (p.name = some "content" → p.weight s ≤ s.cfg.maxContentBytes)
  else
    p.isUpload = true → count + 1 ≤ maxAttachmentsPerRecord ∧
      p.bytes.length ≤ s.cfg.maxAttachmentBytes ∧
      (p.chunks ≠ [] → totalBytes + p.bytes.length ≤ s.cfg.maxRequestBytes)

theorem Part.fits_iff_of_isUpload {p : Part} {totalBytes count : Nat} (hup : p.isUpload = true) :
    p.Fits s totalBytes count ↔ count + 1 ≤ maxAttachmentsPerRecord ∧
      p.bytes.length ≤ s.cfg.maxAttachmentBytes ∧
      (p.chunks ≠ [] → totalBytes + p.bytes.length ≤ s.cfg.maxRequestBytes) := by
  simp [Part.Fits, ((isUpload_iff p).1 hup).1, hup]

/-- The result of one field, after the uploads of the parts `ps`. -/
def FieldResult (P : Env → Call → Prop) (s : AppState) (w₀ : Store) (acc : FormState) (p : Part)
    (ps : List Part) : Except Response FormState → Store → Prop
  | .error _, w' =>
      w'.files = w₀.files ∧
        (Calm P → p.Whole → ¬ p.Fits s acc.totalBytes acc.attachmentCount)
  | .ok acc', w' =>
      Filed s w₀ acc'.uploads (ps ++ fileParts [.ok p]) w' ∧
        (p.Whole → p.Fits s acc.totalBytes acc.attachmentCount ∧
          acc'.totalBytes = acc.totalBytes + p.weight s ∧
          acc'.attachmentCount = acc.attachmentCount + if p.isUpload then 1 else 0)

theorem wp_readFileField_files (hP : ∀ e op, P e op → Removes e op) (acc : FormState) (p : Part)
    (ps : List Part) (hname : p.name = some "files") (h : Filed s w₀ acc.uploads ps w) :
    wp (answeringWhere P Store.answer) (readFileField s acc p) (FieldResult P s w₀ acc p ps) w := by
  have hskip : p.isUpload = false → FieldResult P s w₀ acc p ps (.ok acc) w := by
    intro hup
    refine ⟨by simpa [fileParts, hup] using h, fun _ => ⟨?_, ?_, ?_⟩⟩
    · simp [Part.Fits, hname, hup]
    · simp [Part.weight, hname, hup]
    · simp [hup]
  cases hfile : p.fileName with
  | none =>
      simp only [readFileField, hfile, wp_pure]
      exact hskip (by simp [Part.isUpload, Part.upload?, hfile])
  | some filename =>
      simp only [readFileField, hfile]
      split_ifs with hempty hcount
      · exact hskip (by simp [Part.isUpload, Part.upload?, hfile, hempty])
      · refine wp_reject_files hP h _ ⟨rfl, fun _ _ hfits => ?_⟩
        have hup := isUpload_of_files hname hfile hempty
        have hle := ((Part.fits_iff_of_isUpload hup).1 hfits).1
        omega
      · simp only [wp_bind, wp_perform]
        refine ⟨trivial, ?_⟩
        rintro r w₁ ⟨e, he, hans⟩
        rcases Store.answer_beginUpload hans with ⟨rfl, rfl, hfault⟩ | ⟨id, rfl, hfresh, rfl⟩
        · exact wp_reject_files hP h _ ⟨rfl, fun hcalm => by simp [hcalm e _ he] at hfault⟩
        have hup : p.isUpload = true := isUpload_of_files hname hfile hempty
        -- The store with the new id, and without its temp file.
        have hissued : Filed s w₀ acc.uploads ps { w with issued := id :: w.issued } :=
          ⟨h.db, h.tmp, h.nodup, h.unlisted, h.absent, h.holds, h.others⟩
        have habort : ∀ resp b, (Calm P → p.Whole → ¬ p.Fits s acc.totalBytes acc.attachmentCount) →
            wp (answeringWhere P Store.answer)
              (do AskFiles.abortUpload id; reject acc.uploads resp)
              (FieldResult P s w₀ acc p ps)
              { w with files := w.files.holding id b, issued := id :: w.issued } := by
          intro resp b hlimits
          simp only [wp_bind, wp_perform]
          refine ⟨trivial, ?_⟩
          rintro r w₁ ⟨e', he', hans⟩
          have hfault' : e'.fault = false := hP e' _ he' trivial
          obtain rfl := Store.answer_abortUpload_calm hans hfault'
          rw [FileStore.abortUpload_holding _ _ _ hfresh.tmp]
          exact wp_reject_files hP hissued resp ⟨rfl, hlimits⟩
        rw [wp_bind]
        refine wp_mono (wp_writeChunks_files s filename id p.broken p.chunks 0 acc.totalBytes
          { w with issued := id :: w.issued } []) ?_
        rintro ⟨failed, size, totalBytes⟩ w₁ hchunks
        cases failed with
        | some resp =>
            rcases hchunks with ⟨⟨b, rfl⟩, hlimits⟩
            refine habort resp b fun hcalm hwhole hfits => ?_
            rcases hlimits hcalm hwhole with ⟨hchunks, hover⟩
            rcases (Part.fits_iff_of_isUpload hup).1 hfits with ⟨-, hsize, htotal⟩
            have htotal' := htotal hchunks
            unfold Part.bytes at hsize htotal'
            omega
        | none =>
            rcases hchunks with ⟨rfl, hsize, htotal, hle⟩
            simp only [wp_bind, wp_perform]
            refine ⟨trivial, ?_⟩
            rintro r w₁ ⟨e', he', hans⟩
            rcases Store.answer_finalizeUpload hans with
              ⟨_, rfl, rfl, hfail⟩ | ⟨bytes, hbytes, rfl, rfl⟩
            · refine habort _ _ fun hcalm => ?_
              simp [FileStore.holding, hcalm e' _ he'] at hfail
            · obtain rfl : p.bytes = bytes := by
                simpa [FileStore.holding, Part.bytes] using hbytes
              refine ⟨?_, fun hwhole => ⟨?_, ?_, ?_⟩⟩
              · have hone : fileParts [.ok p] = [p] := by simp [fileParts, hup]
                have htmp : Function.update (w.files.holding id ([] ++ p.chunks.flatten)).tmp id none =
                    w.files.tmp := by
                  simp [FileStore.holding, ← hfresh.tmp]
                rw [hone]
                exact h.snoc hfresh rfl htmp rfl hfile rfl (by simpa [Part.bytes] using hsize)
              · refine (Part.fits_iff_of_isUpload hup).2 ⟨by omega, ?_⟩
                rw [hsize, htotal, Nat.zero_add] at hle
                refine ⟨?_, fun hchunks => (hle hchunks).2⟩
                by_cases hchunks : p.chunks = []
                · simp [Part.bytes, hchunks]
                · exact (hle hchunks).1
              · rw [htotal]
                simp only [Part.weight, hname, hup, if_true]
                rfl
              · simp [hup]

theorem wp_readTextField_files (hP : ∀ e op, P e op → Removes e op) (acc : FormState) (p : Part)
    (ps : List Part) (name : String) (hname : p.name = some name)
    (htext : name = "title" ∨ name = "content") (h : Filed s w₀ acc.uploads ps w) :
    wp (answeringWhere P Store.answer) (readTextField s name acc p) (FieldResult P s w₀ acc p ps)
      w := by
  have hfiles : p.name ≠ some "files" := by
    rcases htext with rfl | rfl <;> simp [hname]
  have hup : p.isUpload = false := by
    simp [Part.isUpload, Part.upload?, hfiles]
  have hfits : p.Fits s acc.totalBytes acc.attachmentCount ↔
      acc.totalBytes + p.weight s ≤ s.cfg.maxRequestBytes ∧
        (name = "content" → p.weight s ≤ s.cfg.maxContentBytes) := by
    simp [Part.Fits, hname, htext]
  unfold readTextField fieldText
  cases hbroken : p.broken with
  | some e =>
      refine wp_reject_files hP h _ ⟨rfl, fun _ hwhole => ?_⟩
      rw [hwhole] at hbroken
      cases hbroken
  | none =>
      have hweight : p.weight s = (s.vendor.decodeText p.contentType p.bytes).utf8ByteSize := by
        simp [Part.weight, hfiles]
      -- A field that is kept changes the texts and the total, not the uploads.
      have hkept : ∀ acc' : FormState, acc'.uploads = acc.uploads →
          acc'.totalBytes = acc.totalBytes + p.weight s →
          acc'.attachmentCount = acc.attachmentCount →
          p.Fits s acc.totalBytes acc.attachmentCount →
          FieldResult P s w₀ acc p ps (.ok acc') w := by
        intro acc' huploads htotal hcount hok
        exact ⟨by simpa [fileParts, hup, huploads] using h, fun _ => ⟨hok, htotal, by simp [hcount, hup]⟩⟩
      dsimp only
      rw [← hweight]
      split_ifs with htotal hcontent htitle
      · refine wp_reject_files hP h _ ⟨rfl, fun _ _ hok => ?_⟩
        have hle := (hfits.1 hok).1
        omega
      · refine wp_reject_files hP h _ ⟨rfl, fun _ _ hok => ?_⟩
        have hle := (hfits.1 hok).2 hcontent.1
        omega
      · refine hkept _ rfl rfl rfl (hfits.2 ⟨by omega, ?_⟩)
        rintro rfl
        exact absurd htitle (by decide)
      · refine hkept _ rfl rfl rfl (hfits.2 ⟨by omega, fun hc => ?_⟩)
        exact Nat.le_of_not_lt fun hlt => hcontent ⟨hc, hlt⟩

theorem wp_readField_files (hP : ∀ e op, P e op → Removes e op) (acc : FormState) (p : Part)
    (ps : List Part) (h : Filed s w₀ acc.uploads ps w) :
    wp (answeringWhere P Store.answer) (readField s acc p) (FieldResult P s w₀ acc p ps) w := by
  have hname : ∀ n, n ≠ "" → (p.name.getD "" = n ↔ p.name = some n) :=
    fun n hn => Part.getD_name_eq_iff hn
  simp only [readField]
  split_ifs with htext hfiles
  · refine wp_readTextField_files hP acc p ps _ ?_ htext h
    rcases htext with heq | heq
    · rw [heq]
      exact (hname _ (by decide)).1 heq
    · rw [heq]
      exact (hname _ (by decide)).1 heq
  · exact wp_readFileField_files hP acc p ps ((hname _ (by decide)).1 hfiles) h
  · -- An unknown field is only counted.
    rw [hname _ (by decide)] at hfiles
    rw [hname _ (by decide), hname _ (by decide)] at htext
    have hup : p.isUpload = false := by
      simp [Part.isUpload, Part.upload?, hfiles]
    have hfits : p.Fits s acc.totalBytes acc.attachmentCount := by
      simp [Part.Fits, htext, hup]
    unfold fieldText
    cases hbroken : p.broken with
    | some e =>
        refine ⟨by simpa [fileParts, hup] using h, fun hwhole => ?_⟩
        rw [hwhole] at hbroken
        cases hbroken
    | none =>
        exact ⟨by simpa [fileParts, hup] using h,
          fun _ => ⟨hfits, by simp [Part.weight, hfiles], by simp [hup]⟩⟩

/-- Every part arrives whole. -/
def Whole (parts : Multipart) : Prop :=
  ∀ x ∈ parts, ∃ p, x = .ok p ∧ p.Whole

/-- Every part meets its limits, after parts of `totalBytes` bytes with `count` files. -/
def Fits (s : AppState) : Multipart → Nat → Nat → Prop
  | [], _, _ => True
  | .error _ :: _, _, _ => True
  | .ok p :: rest, totalBytes, count =>
      p.Fits s totalBytes count ∧
        Fits s rest (totalBytes + p.weight s) (count + if p.isUpload then 1 else 0)

/-- The result of the loop over the fields, after the uploads of the parts `ps`. -/
def FieldsResult (P : Env → Call → Prop) (s : AppState) (w₀ : Store) (acc : FormState)
    (parts : Multipart) (ps : List Part) : Except Response FormState → Store → Prop
  | .error _, w' =>
      w'.files = w₀.files ∧
        (Calm P → Whole parts → ¬ Fits s parts acc.totalBytes acc.attachmentCount)
  | .ok acc', w' =>
      Filed s w₀ acc'.uploads (ps ++ fileParts parts) w' ∧
        (Whole parts → Fits s parts acc.totalBytes acc.attachmentCount)

theorem wp_readFields_files (hP : ∀ e op, P e op → Removes e op) (parts : Multipart)
    (acc : FormState) (ps : List Part) (w : Store) (h : Filed s w₀ acc.uploads ps w) :
    wp (answeringWhere P Store.answer) (readFields s parts acc)
      (FieldsResult P s w₀ acc parts ps) w := by
  induction parts generalizing acc ps w with
  | nil => exact ⟨by simpa [fileParts] using h, fun _ => trivial⟩
  | cons part rest ih =>
      cases part with
      | error e =>
          refine wp_reject_files hP h _ ⟨rfl, fun _ hwhole => ?_⟩
          rcases hwhole _ List.mem_cons_self with ⟨p, hp, -⟩
          cases hp
      | ok p =>
          have hfirst : Whole (.ok p :: rest) → p.Whole ∧ Whole rest := by
            intro hwhole
            rcases hwhole _ List.mem_cons_self with ⟨p', hp, hpart⟩
            cases hp
            exact ⟨hpart, fun x hx => hwhole x (List.mem_cons_of_mem _ hx)⟩
          have hparts : fileParts (.ok p :: rest) = fileParts [.ok p] ++ fileParts rest := by
            cases hup : p.isUpload <;> simp [fileParts, hup]
          simp only [readFields, wp_bind]
          refine wp_mono (wp_readField_files hP acc p ps h) fun r w₁ hr => ?_
          cases r with
          | error resp =>
              -- The first part that breaks a limit ends the loop.
              exact ⟨hr.1, fun hcalm hwhole hfits => hr.2 hcalm (hfirst hwhole).1 hfits.1⟩
          | ok acc' =>
              rcases hr with ⟨hfiled, hok⟩
              refine wp_mono (ih acc' _ w₁ hfiled) fun r w₂ hr => ?_
              cases r with
              | error resp =>
                  refine ⟨hr.1, fun hcalm hwhole hfits => ?_⟩
                  rcases hok (hfirst hwhole).1 with ⟨-, htotal, hcount⟩
                  refine hr.2 hcalm (hfirst hwhole).2 ?_
                  rw [htotal, hcount]
                  exact hfits.2
              | ok acc'' =>
                  refine ⟨by rw [hparts, ← List.append_assoc]; exact hr.1, fun hwhole => ?_⟩
                  rcases hok (hfirst hwhole).1 with ⟨hfits, htotal, hcount⟩
                  have hrest := hr.2 (hfirst hwhole).2
                  rw [htotal, hcount] at hrest
                  exact ⟨hfits, hrest⟩

/-- The result of reading a form. -/
def FormResult (P : Env → Call → Prop) (s : AppState) (w₀ : Store) (parts : Multipart)
    (len : Option Nat) : Except Response ParsedRecordForm → Store → Prop
  | .error _, w' =>
      w'.files = w₀.files ∧ (Calm P → Whole parts →
        ¬ ((∀ n, len = some n → n ≤ s.cfg.maxRequestBytes) ∧ Fits s parts 0 0))
  | .ok form, w' =>
      Filed s w₀ form.uploads (fileParts parts) w' ∧
        (Whole parts → (∀ n, len = some n → n ≤ s.cfg.maxRequestBytes) ∧ Fits s parts 0 0)

theorem wp_parseRecordForm_files (hP : ∀ e op, P e op → Removes e op) (parts : Multipart)
    (len : Option Nat) (w : Store) :
    wp (answeringWhere P Store.answer) (parseRecordForm s parts len)
      (FormResult P s w parts len) w := by
  unfold parseRecordForm
  split_ifs with hlen
  · refine ⟨rfl, fun _ _ hfits => ?_⟩
    rcases (Option.any_eq_true _ _).1 hlen with ⟨n, rfl, hlt⟩
    have hle := hfits.1 n rfl
    have hlt' := of_decide_eq_true hlt
    omega
  · have hle : ∀ n, len = some n → n ≤ s.cfg.maxRequestBytes := by
      rintro n rfl
      simpa using hlen
    rw [wp_bind]
    refine wp_mono (wp_readFields_files hP parts {} [] w (Filed.nil s w)) fun r w' hr => ?_
    cases r with
    | error resp => exact ⟨hr.1, fun hcalm hwhole hfits => hr.2 hcalm hwhole hfits.2⟩
    | ok acc => exact ⟨hr.1, fun hwhole => ⟨hle, hr.2 hwhole⟩⟩

end Reading

/-- If `remove_file` succeeds, a rejected form leaves the directories as they were, and an accepted
one adds the file of each of its uploads, whatever else fails. -/
theorem parseRecordForm_files (s : AppState) (parts : Multipart) (len : Option Nat) {w w' : Store}
    {tr : List (Asked Reply Env)} {r : Except Response ParsedRecordForm}
    (hrun : Runs Store.answer w (parseRecordForm s parts len) tr w' r)
    (hremove : ∀ x ∈ tr, Removes x.env x.op) :
    (∀ resp, r = .error resp → w'.files = w.files) ∧
    ∀ form, r = .ok form → Filed s w form.uploads (fileParts parts) w' := by
  have hresult := hrun.of_wpWhere hremove
    (wp_parseRecordForm_files (s := s) (fun _ _ h => h) parts len w)
  constructor
  · rintro resp rfl
    exact hresult.1
  · rintro form rfl
    exact hresult.1

/-- One file is stored, and the next one cannot be begun. -/
theorem parseRecordForm_files_run : ∃ tr w' resp,
    Runs Store.answer .empty (parseRecordForm .plain (form "c" "d" [[1, 2], [3]]) none) tr w'
      (.error resp) ∧ w'.files = Store.empty.files := by
  have hrun : ∃ tr w' r,
      Runs Store.answer .empty (parseRecordForm .plain (form "c" "d" [[1, 2], [3]]) none) tr w' r ∧
        (∀ x ∈ tr, Removes x.env x.op) ∧ r.isOk = false := by
    refine exists_runs [{ uuid := "f1" }, {}, {}, { fault := true }, {}] ?_
    decide
  rcases hrun with ⟨tr, w', r, hrun, hremove, hr⟩
  cases r with
  | ok f => cases hr
  | error resp => exact ⟨tr, w', resp, hrun, (parseRecordForm_files .plain _ none hrun hremove).1 resp rfl⟩

end Aardbin
