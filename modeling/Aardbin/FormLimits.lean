import Mathlib.Algebra.GroupWithZero.Nat
import Aardbin.FormFiles
import Aardbin.FormText

/-!
# Which forms are accepted

The limits are checked while chunks of files arrive, but how a file is split into chunks decides
nothing: of the chunks, `Accepted` asks only whether a file has any.  An empty file arrives as one
empty chunk, and the running total is compared with its limit there too.
-/

namespace Aardbin

open Effect Rust

/-! ## The condition -/

/-- The parts at which the running total is compared with its limit. -/
def Part.Checked (p : Part) : Prop :=
  p.name = some "title" ∨ p.name = some "content" ∨ p.isUpload = true ∧ p.chunks ≠ []

/-- The running total, which starts at `start`, is within its limit at every part that is
checked. -/
def Within (checked : Part → Prop) (s : AppState) (start : Nat) (ps : List Part) : Prop :=
  ∀ before p after, ps = before ++ p :: after → checked p →
    start + ((before ++ [p]).map (Part.weight s)).sum ≤ s.cfg.maxRequestBytes

/-- The form meets every limit, if the running total is compared at the parts that are `checked`. -/
structure AcceptedAt (checked : Part → Prop) (s : AppState) (ps : List Part)
    (contentLength : Option Nat) : Prop where
  length : ∀ n, contentLength = some n → n ≤ s.cfg.maxRequestBytes
  count : ps.countP Part.isUpload ≤ maxAttachmentsPerRecord
  file : ∀ p ∈ ps, p.isUpload = true → p.bytes.length ≤ s.cfg.maxAttachmentBytes
  content : ∀ p ∈ ps, p.name = some "content" → p.weight s ≤ s.cfg.maxContentBytes
  total : Within checked s 0 ps

abbrev Accepted : AppState → List Part → Option Nat → Prop :=
  AcceptedAt Part.Checked

variable {s : AppState}

theorem within_cons {checked : Part → Prop} {start : Nat} {p : Part} {ps : List Part} :
    Within checked s start (p :: ps) ↔
      (checked p → start + p.weight s ≤ s.cfg.maxRequestBytes) ∧
        Within checked s (start + p.weight s) ps := by
  constructor
  · intro h
    refine ⟨fun hp => by simpa using h [] p ps rfl hp, ?_⟩
    rintro before q after rfl hq
    simpa [Nat.add_assoc] using h (p :: before) q after rfl hq
  · rintro ⟨hp, hrest⟩ before q after heq hq
    cases before with
    | nil =>
        cases heq
        simpa using hp hq
    | cons p' before =>
        cases heq
        simpa [Nat.add_assoc] using hrest before q after rfl hq

/-- The limits of one part, apart from the number of files. -/
theorem Part.fits_iff {p : Part} {totalBytes count : Nat} :
    p.Fits s totalBytes count ↔
      (p.isUpload = true → count + 1 ≤ maxAttachmentsPerRecord) ∧
      (p.isUpload = true → p.bytes.length ≤ s.cfg.maxAttachmentBytes) ∧
      (p.name = some "content" → p.weight s ≤ s.cfg.maxContentBytes) ∧
      (p.Checked → totalBytes + p.weight s ≤ s.cfg.maxRequestBytes) := by
  cases hup : p.isUpload with
  | true =>
      have hname := ((isUpload_iff p).1 hup).1
      have hweight : p.weight s = p.bytes.length := by simp [Part.weight, hname, hup]
      simp [Part.fits_iff_of_isUpload hup, Part.Checked, hname, hup, hweight]
  | false =>
      by_cases htext : p.name = some "title" ∨ p.name = some "content"
      · have hchecked : p.Checked := htext.imp_right .inl
        simp [Part.Fits, htext, hchecked, and_comm]
      · have hchecked : ¬ p.Checked := by
          rintro (htitle | hcontent | ⟨hfile, -⟩)
          · exact htext (.inl htitle)
          · exact htext (.inr hcontent)
          · rw [hup] at hfile
            cases hfile
        rw [not_or] at htext
        simp [Part.Fits, htext.1, htext.2, hup, hchecked]

theorem fits_iff {ps : List Part} {totalBytes count : Nat}
    (hcount : count ≤ maxAttachmentsPerRecord) :
    Fits s (ps.map .ok) totalBytes count ↔
      count + ps.countP Part.isUpload ≤ maxAttachmentsPerRecord ∧
      (∀ p ∈ ps, p.isUpload = true → p.bytes.length ≤ s.cfg.maxAttachmentBytes) ∧
      (∀ p ∈ ps, p.name = some "content" → p.weight s ≤ s.cfg.maxContentBytes) ∧
      Within Part.Checked s totalBytes ps := by
  induction ps generalizing totalBytes count with
  | nil => simpa [Fits, Within] using hcount
  | cons p ps ih =>
      simp only [List.map_cons, Fits, Part.fits_iff, within_cons, List.forall_mem_cons,
        List.countP_cons]
      cases hup : p.isUpload with
      | true =>
          by_cases hlt : count + 1 ≤ maxAttachmentsPerRecord
          · have hsum : count + 1 + ps.countP Part.isUpload =
                count + (ps.countP Part.isUpload + 1) := by omega
            rw [if_pos rfl, ih hlt, hsum]
            tauto
          · -- One file too many already.
            refine iff_of_false (fun h => hlt (h.1.1 rfl)) fun h => hlt ?_
            have hle := h.1
            rw [if_pos rfl] at hle
            omega
      | false =>
          simp only [Bool.false_eq_true, if_false, false_implies, true_and, Nat.add_zero, ih hcount]
          tauto

theorem fits_iff_accepted {ps : List Part} {len : Option Nat} :
    (∀ n, len = some n → n ≤ s.cfg.maxRequestBytes) ∧ Fits s (ps.map .ok) 0 0 ↔
      Accepted s ps len := by
  rw [fits_iff (Nat.zero_le _), Nat.zero_add]
  exact ⟨fun ⟨hlen, hcount, hfile, hcontent, htotal⟩ => ⟨hlen, hcount, hfile, hcontent, htotal⟩,
    fun h => ⟨h.length, h.count, h.file, h.content, h.total⟩⟩

theorem whole_map {ps : List Part} (h : ∀ p ∈ ps, p.Whole) : Whole (ps.map .ok) := by
  intro x hx
  rcases List.mem_map.1 hx with ⟨p, hp, rfl⟩
  exact ⟨p, rfl, h p hp⟩

theorem accepted_iff {ps : List Part} {len : Option Nat} (hwhole : ∀ p ∈ ps, p.Whole) {w w' : Store}
    {tr : List (Asked Reply Env)} {r : Except Response ParsedRecordForm}
    (hrun : Runs Store.answer w (parseRecordForm s (ps.map .ok) len) tr w' r)
    (hcalm : ∀ x ∈ tr, x.env.fault = false) : (∃ form, r = .ok form) ↔ Accepted s ps len := by
  have hresult := hrun.of_wpWhere hcalm
    (wp_parseRecordForm_files (fun _ _ h _ => h) (ps.map .ok) len w)
  rw [← fits_iff_accepted]
  cases r with
  | error resp =>
      refine iff_of_false ?_ (hresult.2 (fun _ _ h => h) (whole_map hwhole))
      rintro ⟨form, hform⟩
      cases hform
  | ok form => exact iff_of_true ⟨form, rfl⟩ (hresult.2 (whole_map hwhole))

/-! ## Two ways to split the same parts -/

/-- The same part, perhaps in other chunks. -/
structure Part.SameContent (p q : Part) : Prop where
  name : p.name = q.name
  fileName : p.fileName = q.fileName
  contentType : p.contentType = q.contentType
  bytes : p.bytes = q.bytes

/-- The same part in other chunks; a file that yields a chunk, be it an empty one, still does. -/
structure Part.Rechunked (p q : Part) : Prop extends Part.SameContent p q where
  yields : p.isUpload = true → (p.chunks = [] ↔ q.chunks = [])

/-- Two uploads with the same metadata and, in their stores, the same bytes. -/
structure SameUpload (files files' : FileStore) (u u' : PendingUpload) : Prop where
  filename : u.originalFilename = u'.originalFilename
  mimeType : u.mimeType = u'.mimeType
  size : u.size = u'.size
  bytes : ∃ b, files.attachments u.id = some b ∧ files'.attachments u'.id = some b

theorem Part.SameContent.isUpload {p q : Part} (h : p.SameContent q) : p.isUpload = q.isUpload := by
  simp [Part.isUpload, Part.upload?, h.name, h.fileName, h.bytes]

theorem Part.SameContent.weight {p q : Part} (h : p.SameContent q) : p.weight s = q.weight s := by
  simp [Part.weight, h.name, h.isUpload, h.contentType, h.bytes]

theorem Holds.same {files files' : FileStore} {u u' : PendingUpload} {p q : Part}
    (hu : Holds s files u p) (hsame : p.SameContent q) (hu' : Holds s files' u' q) :
    SameUpload files files' u u' := by
  have hname : u.originalFilename = u'.originalFilename := by
    rw [← Option.some.injEq, ← hu.filename, ← hu'.filename, hsame.fileName]
  refine ⟨hname, ?_, ?_, p.bytes, hu.file, hsame.bytes ▸ hu'.file⟩
  · rw [hu.mimeType, hu'.mimeType, hname, hsame.contentType]
  · rw [hu.size, hu'.size, hsame.bytes]

section Splits

variable {ps qs : List Part}

theorem Part.Rechunked.checked {p q : Part} (h : p.Rechunked q) : p.Checked ↔ q.Checked := by
  simp only [Part.Checked, ← h.name, ← h.toSameContent.isUpload]
  cases hup : p.isUpload with
  | true => simp only [true_and, ne_eq, h.yields hup]
  | false => simp

theorem fits_of_rechunked {totalBytes count : Nat} (h : List.Forall₂ Part.Rechunked ps qs) :
    Fits s (ps.map .ok) totalBytes count ↔ Fits s (qs.map .ok) totalBytes count := by
  induction h generalizing totalBytes count with
  | nil => exact Iff.rfl
  | @cons p q ps qs hhead _ ih =>
      have hsame := hhead.toSameContent
      have hpart : p.Fits s totalBytes count ↔ q.Fits s totalBytes count := by
        simp only [Part.fits_iff, hhead.checked, hsame.name, hsame.weight, hsame.isUpload,
          hsame.bytes]
      simp only [List.map_cons, Fits, hpart, hsame.weight, hsame.isUpload, ih]

theorem formText_of_same (hsame : List.Forall₂ Part.SameContent ps qs)
    (hps : ∀ p ∈ ps, p.broken = none) (hqs : ∀ q ∈ qs, q.broken = none) :
    formText s (ps.map .ok) = formText s (qs.map .ok) := by
  unfold formText
  generalize ("", "") = text
  induction hsame generalizing text with
  | nil => rfl
  | @cons p q ps qs hhead _ ih =>
      have hfield : fieldText s p = fieldText s q := by
        simp only [fieldText, hps p List.mem_cons_self, hqs q List.mem_cons_self,
          hhead.contentType, hhead.bytes]
      have hstep : textStep s text (.ok p) = textStep s text (.ok q) := by
        simp only [textStep, hfield, hhead.name]
      rw [List.map_cons, List.map_cons, List.foldl_cons, List.foldl_cons, hstep]
      exact ih (fun p hp => hps p (List.mem_cons_of_mem _ hp))
        (fun q hq => hqs q (List.mem_cons_of_mem _ hq)) _

theorem fileParts_of_same (hsame : List.Forall₂ Part.SameContent ps qs) :
    List.Forall₂ Part.SameContent (fileParts (ps.map .ok)) (fileParts (qs.map .ok)) := by
  induction hsame with
  | nil => exact .nil
  | cons hhead _ ih =>
      simp only [List.map_cons, fileParts, hhead.isUpload]
      split_ifs
      · exact .cons hhead ih
      · exact ih

theorem uploads_of_same {files files' : FileStore} {us us' : List PendingUpload}
    (hsame : List.Forall₂ Part.SameContent ps qs) (hus : List.Forall₂ (Holds s files) us ps)
    (hus' : List.Forall₂ (Holds s files') us' qs) :
    List.Forall₂ (SameUpload files files') us us' := by
  induction hsame generalizing us us' with
  | nil =>
      cases hus
      cases hus'
      exact .nil
  | cons hhead _ ih =>
      cases hus with
      | cons hu hus =>
          cases hus' with
          | cons hu' hus' => exact .cons (hu.same hhead hu') (ih hus hus')

end Splits

/-- How the files of a form are split into chunks decides nothing: the form is accepted exactly when
it meets the limits, and what is read from it is the same. -/
theorem parseRecordForm_of_parts (s : AppState) (len : Option Nat) {ps qs : List Part}
    (hchunks : List.Forall₂ Part.Rechunked ps qs) (hps : ∀ p ∈ ps, p.Whole)
    (hqs : ∀ q ∈ qs, q.Whole) {w₁ w₁' w₂ w₂' : Store} {tr₁ tr₂ : List (Asked Reply Env)}
    {r₁ r₂ : Except Response ParsedRecordForm}
    (hrun₁ : Runs Store.answer w₁ (parseRecordForm s (ps.map .ok) len) tr₁ w₁' r₁)
    (hrun₂ : Runs Store.answer w₂ (parseRecordForm s (qs.map .ok) len) tr₂ w₂' r₂)
    (hcalm₁ : ∀ x ∈ tr₁, x.env.fault = false) (hcalm₂ : ∀ x ∈ tr₂, x.env.fault = false) :
    ((∃ form, r₁ = .ok form) ↔ Accepted s ps len) ∧
    ((∃ form, r₁ = .ok form) ↔ ∃ form, r₂ = .ok form) ∧
    ∀ form₁ form₂, r₁ = .ok form₁ → r₂ = .ok form₂ →
      form₁.title = form₂.title ∧ form₁.content = form₂.content ∧
        List.Forall₂ (SameUpload w₁'.files w₂'.files) form₁.uploads form₂.uploads := by
  have hsame : List.Forall₂ Part.SameContent ps qs := hchunks.imp fun _ _ h => h.toSameContent
  have haccepted : Accepted s ps len ↔ Accepted s qs len := by
    rw [← fits_iff_accepted, ← fits_iff_accepted, fits_of_rechunked hchunks]
  have hiff₁ := accepted_iff hps hrun₁ hcalm₁
  refine ⟨hiff₁, hiff₁.trans (haccepted.trans (accepted_iff hqs hrun₂ hcalm₂).symm), ?_⟩
  rintro form₁ form₂ rfl rfl
  have htext₁ := hrun₁.of_uses (uses_parseRecordForm s _ len) form₁ rfl
  have htext₂ := hrun₂.of_uses (uses_parseRecordForm s _ len) form₂ rfl
  rw [formText_of_same hsame hps hqs, ← htext₂, Prod.mk.injEq] at htext₁
  have hfiled₁ := hrun₁.of_wpWhere hcalm₁
    (wp_parseRecordForm_files (s := s) (fun _ _ h _ => h) (ps.map .ok) len w₁)
  have hfiled₂ := hrun₂.of_wpWhere hcalm₂
    (wp_parseRecordForm_files (s := s) (fun _ _ h _ => h) (qs.map .ok) len w₂)
  exact ⟨htext₁.1, htext₁.2,
    uploads_of_same (fileParts_of_same hsame) hfiled₁.1.holds hfiled₂.1.holds⟩

/-- A file that arrives in the given chunks. -/
def chunkedPart (chunks : List Bytes) : Part :=
  { name := some "files", fileName := some "a.bin", chunks }

/-- One file with two bytes, in one chunk and, after an empty one, in two. -/
theorem parseRecordForm_of_parts_run : ∃ tr₁ w₁ r₁ tr₂ w₂ r₂,
    Runs Store.answer .empty (parseRecordForm .plain ([chunkedPart [[1, 2]]].map .ok) none)
      tr₁ w₁ r₁ ∧
    Runs Store.answer .empty (parseRecordForm .plain ([chunkedPart [[], [1], [2]]].map .ok) none)
      tr₂ w₂ r₂ ∧ ((∃ form, r₁ = .ok form) ↔ ∃ form, r₂ = .ok form) := by
  have hrun₁ : ∃ tr w r, Runs Store.answer .empty
      (parseRecordForm .plain ([chunkedPart [[1, 2]]].map .ok) none) tr w r ∧
        ∀ x ∈ tr, x.env.fault = false := by
    refine exists_runs [{ uuid := "f1" }, {}, {}] ?_
    decide
  have hrun₂ : ∃ tr w r, Runs Store.answer .empty
      (parseRecordForm .plain ([chunkedPart [[], [1], [2]]].map .ok) none) tr w r ∧
        ∀ x ∈ tr, x.env.fault = false := by
    refine exists_runs [{ uuid := "f2" }, {}, {}, {}, {}] ?_
    decide
  rcases hrun₁ with ⟨tr₁, w₁, r₁, hrun₁, hcalm₁⟩
  rcases hrun₂ with ⟨tr₂, w₂, r₂, hrun₂, hcalm₂⟩
  refine ⟨tr₁, w₁, r₁, tr₂, w₂, r₂, hrun₁, hrun₂, ?_⟩
  have hchunks : List.Forall₂ Part.Rechunked [chunkedPart [[1, 2]]]
      [chunkedPart [[], [1], [2]]] :=
    .cons ⟨⟨rfl, rfl, rfl, rfl⟩, by simp [chunkedPart]⟩ .nil
  exact (parseRecordForm_of_parts .plain none hchunks (by simp [Part.Whole, chunkedPart])
    (by simp [Part.Whole, chunkedPart]) hrun₁ hrun₂ hcalm₁ hcalm₂).2.1

/-- The parts at which the total would be compared if an empty file were passed over. -/
def Part.CheckedUnlessEmpty (p : Part) : Prop :=
  p.name = some "title" ∨ p.name = some "content" ∨ p.isUpload = true ∧ p.bytes ≠ []

/-- A field that the form does not know is counted without a check, and the empty file after it is
checked: the form is refused, although at no title, content or non-empty file the total is over the
limit. -/
theorem empty_file_over_limit :
    ¬ ∀ (s : AppState) (len : Option Nat) (ps : List Part), (∀ p ∈ ps, p.Whole) →
      ∀ (w w' : Store) (tr : List (Asked Reply Env)) (r : Except Response ParsedRecordForm),
        Runs Store.answer w (parseRecordForm s (ps.map .ok) len) tr w' r →
          (∀ x ∈ tr, x.env.fault = false) →
            ((∃ form, r = .ok form) ↔ AcceptedAt Part.CheckedUnlessEmpty s ps len) := by
  intro hall
  let s : AppState := { AppState.plain with cfg := { AppState.plain.cfg with maxRequestBytes := 2 } }
  let ps : List Part := [{ name := some "note", chunks := [[1, 2, 3]] }, chunkedPart [[]]]
  have hrun : ∃ tr w r, Runs Store.answer .empty (parseRecordForm s (ps.map .ok) none) tr w r ∧
      (∀ x ∈ tr, x.env.fault = false) ∧ r.isOk = false := by
    refine exists_runs [{ uuid := "f1" }, {}] ?_
    decide
  rcases hrun with ⟨tr, w, r, hrun, hcalm, hrefused⟩
  have hlimits : AcceptedAt Part.CheckedUnlessEmpty s ps none := by
    refine ⟨?_, ?_, ?_, ?_, ?_⟩
    · rintro n ⟨⟩
    · decide
    · simp [ps, chunkedPart, Part.isUpload, Part.upload?, Part.bytes]
    · simp [ps, chunkedPart]
    · -- Neither part is one of those where the total would be compared.
      have hpassed : ∀ p ∈ ps, ¬ p.CheckedUnlessEmpty := by
        simp [ps, Part.CheckedUnlessEmpty, chunkedPart, Part.isUpload, Part.upload?, Part.bytes]
      intro before p after heq hchecked
      exact absurd hchecked (hpassed p (by simp [heq]))
  rcases (hall s none ps (by simp [ps, chunkedPart, Part.Whole]) _ _ _ _ hrun hcalm).2 hlimits with
    ⟨form, rfl⟩
  cases hrefused

end Aardbin
