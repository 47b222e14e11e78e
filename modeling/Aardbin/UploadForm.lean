import Mathlib.Data.List.Induction
import Mathlib.Tactic.Common

/-!
# The upload form in the browser (`static/app.js`, drag & drop upload)

The form keeps the files picked so far in `pendingFiles`, lists them on the page, and puts them into
the file input, from which the browser submits them.  Emptying the value of the input after a
`change` event takes them out again.
-/

namespace Aardbin

/-! ## The state of the form -/

structure File where
  name : String
  size : Nat
  deriving DecidableEq, Repr

inductive Toast
  | tooManyAttachments (maxCount : Nat)
  | exceedsMax (name : String) (maxBytes : Nat)
  deriving DecidableEq, Repr

/-- The limits in the attributes of the form; `none` where an attribute is missing or empty. -/
structure Dataset where
  maxAttachmentBytes : Option Nat := none
  maxAttachments : Option Nat := none

structure UploadForm where
  pendingFiles : List File := []
  /-- `input.files`, which the browser submits -/
  inputFiles : List File := []
  /-- the items of the list on the page -/
  rendered : List File := []
  toasts : List Toast := []
  deriving DecidableEq, Repr

inductive FormEvent
  /-- the file dialog was confirmed -/
  | change (files : List File)
  | drop (files : List File)
  deriving DecidableEq, Repr

def FormEvent.files : FormEvent → List File
  | .change files => files
  | .drop files => files

namespace Dataset

def maxBytes (d : Dataset) : Nat :=
  d.maxAttachmentBytes.getD 0

def maxCount (d : Dataset) : Nat :=
  d.maxAttachments.getD 20

/-- A limit of 0 bytes is no limit. -/
def exceeds (d : Dataset) (f : File) : Bool :=
  d.maxBytes ≠ 0 && d.maxBytes < f.size

end Dataset

/-! ## The handlers -/

namespace UploadForm

def renderPending (s : UploadForm) : UploadForm :=
  { s with rendered := s.pendingFiles }

def syncInputFiles (s : UploadForm) : UploadForm :=
  { s with inputFiles := s.pendingFiles }

/-- The loop of `addFiles`. -/
def addEach (d : Dataset) : List File → UploadForm → UploadForm
  | [], s => s
  | f :: rest, s =>
      if d.maxCount ≤ s.pendingFiles.length then
        { s with toasts := s.toasts ++ [.tooManyAttachments d.maxCount] }
      else if d.exceeds f then
        addEach d rest { s with toasts := s.toasts ++ [.exceedsMax f.name d.maxBytes] }
      else addEach d rest { s with pendingFiles := s.pendingFiles ++ [f] }

def addFiles (d : Dataset) (fileList : List File) (s : UploadForm) : UploadForm :=
  renderPending (syncInputFiles (addEach d fileList s))

/-- `input.value = ""`. -/
def clearValue (s : UploadForm) : UploadForm :=
  { s with inputFiles := [] }

/-- Before a `change` event the browser replaces the files of the input. -/
def handle (d : Dataset) (s : UploadForm) : FormEvent → UploadForm
  | .change files =>
      let s := { s with inputFiles := files }
      clearValue (addFiles d s.inputFiles s)
  | .drop files => addFiles d files s

def run (d : Dataset) (events : List FormEvent) : UploadForm :=
  events.foldl (handle d) {}

theorem run_snoc (d : Dataset) (events : List FormEvent) (e : FormEvent) :
    run d (events ++ [e]) = handle d (run d events) e := by
  rw [run, List.foldl_append]
  rfl

/-! ## What is kept -/

/-- The loop keeps the files that are not too large, as many as there is room for. -/
theorem pendingFiles_addEach (d : Dataset) (files : List File) (s : UploadForm)
    (h : s.pendingFiles.length ≤ d.maxCount) : (addEach d files s).pendingFiles =
      (s.pendingFiles ++ files.filter fun f => !d.exceeds f).take d.maxCount := by
  induction files generalizing s with
  | nil => simp [addEach, List.take_of_length_le h]
  | cons f rest ih =>
      simp only [addEach]
      split_ifs with hfull hlarge
      · -- The loop stops, and no file fits behind those that are there.
        have hlen : d.maxCount = s.pendingFiles.length := Nat.le_antisymm hfull h
        simp [hlen]
      · rw [ih { s with toasts := s.toasts ++ [.exceedsMax f.name d.maxBytes] } h]
        simp [hlarge]
      · have hroom : (s.pendingFiles ++ [f]).length ≤ d.maxCount := by
          rw [List.length_append, List.length_singleton]
          omega
        rw [ih _ hroom]
        simp [hlarge]

/-- What one event does. -/
theorem handle_eq (d : Dataset) (s : UploadForm) (e : FormEvent)
    (h : s.pendingFiles.length ≤ d.maxCount) :
    (handle d s e).pendingFiles =
        (s.pendingFiles ++ e.files.filter fun f => !d.exceeds f).take d.maxCount ∧
      (handle d s e).rendered = (handle d s e).pendingFiles ∧
      (handle d s e).inputFiles =
        match e with
        | .change _ => []
        | .drop _ => (handle d s e).pendingFiles := by
  cases e with
  | change files => exact ⟨pendingFiles_addEach d files _ h, rfl, rfl⟩
  | drop files => exact ⟨pendingFiles_addEach d files s h, rfl, rfl⟩

/-- The files that are kept after a run: the first ones that are not too large. -/
theorem pendingFiles_run (d : Dataset) (events : List FormEvent) :
    (run d events).pendingFiles =
      ((events.flatMap FormEvent.files).filter fun f => !d.exceeds f).take d.maxCount := by
  induction events using List.reverseRecOn with
  | nil => simp [run]
  | append_singleton events e ih =>
      have hlen : (run d events).pendingFiles.length ≤ d.maxCount := by
        rw [ih]
        exact List.length_take_le _ _
      let kept (files : List File) := files.filter fun f => !d.exceeds f
      have hkept : ∀ l l' : List File, kept (l ++ l') = kept l ++ kept l' :=
        fun l l' => List.filter_append l l'
      have htake : ∀ l l' : List File,
          (l.take d.maxCount ++ l').take d.maxCount = (l ++ l').take d.maxCount := by
        intro l l'
        have hroom : d.maxCount - min d.maxCount l.length = d.maxCount - l.length := by omega
        rw [List.take_append, List.take_append, List.take_take, Nat.min_self, List.length_take,
          hroom]
      calc
        (run d (events ++ [e])).pendingFiles
            = ((run d events).pendingFiles ++ kept e.files).take d.maxCount := by
                rw [run_snoc]
                exact (handle_eq d _ e hlen).1
        _ = ((kept (events.flatMap FormEvent.files)).take d.maxCount ++
              kept e.files).take d.maxCount := by rw [ih]
        _ = (kept (events.flatMap FormEvent.files) ++ kept e.files).take d.maxCount := htake _ _
        _ = (kept ((events ++ [e]).flatMap FormEvent.files)).take d.maxCount := by
                rw [List.flatMap_append, List.flatMap_singleton, hkept]

theorem length_pendingFiles_le (d : Dataset) (events : List FormEvent) :
    (run d events).pendingFiles.length ≤ d.maxCount := by
  rw [pendingFiles_run]
  exact List.length_take_le _ _

theorem pendingFiles_eq_nil_iff (d : Dataset) (events : List FormEvent) :
    (run d events).pendingFiles = [] ↔
      d.maxCount = 0 ∨ ∀ e ∈ events, ∀ f ∈ e.files, d.exceeds f = true := by
  rw [pendingFiles_run, List.take_eq_nil_iff]
  refine or_congr_right ?_
  simp only [List.filter_eq_nil_iff, List.mem_flatMap, Bool.not_eq_true', Bool.not_eq_false]
  exact ⟨fun h e he f hf => h f ⟨e, he, hf⟩, fun h f ⟨e, he, hf⟩ => h e he f hf⟩

/-- After a `change` the input is empty, and otherwise it has the files that are kept. -/
theorem inputFiles_run (d : Dataset) (events : List FormEvent) :
    (run d events).inputFiles =
      match events.getLast? with
      | some (.change _) => []
      | _ => (run d events).pendingFiles := by
  rcases List.eq_nil_or_concat events with rfl | ⟨events, e, rfl⟩
  · rfl
  · rw [List.concat_eq_append, run_snoc, List.getLast?_concat,
      (handle_eq d _ e (length_pendingFiles_le d events)).2.2]
    cases e <;> rfl

/-! ## What the form shows and what it submits -/

/-- The input has the files that the form keeps, and these are within the limits. -/
structure Consistent (d : Dataset) (s : UploadForm) : Prop where
  submits : s.inputFiles = s.pendingFiles
  count : s.pendingFiles.length ≤ d.maxCount
  size : ∀ f ∈ s.pendingFiles, d.maxBytes ≠ 0 → f.size ≤ d.maxBytes

/-- The last event was a `change`. -/
def endsWithChange (events : List FormEvent) : Prop :=
  ∃ files, events.getLast? = some (.change files)

theorem size_le_of_mem_pendingFiles {d : Dataset} {events : List FormEvent} {f : File}
    (hf : f ∈ (run d events).pendingFiles) (hmax : d.maxBytes ≠ 0) : f.size ≤ d.maxBytes := by
  rw [pendingFiles_run] at hf
  have hfits := (List.mem_filter.1 (List.mem_of_mem_take hf)).2
  simpa [Dataset.exceeds, hmax] using hfits

/-- The form submits what it keeps exactly when the last event was not a `change`, or nothing was
ever kept. -/
theorem consistent_run_iff (d : Dataset) (events : List FormEvent) :
    Consistent d (run d events) ↔ ¬ endsWithChange events ∨ d.maxCount = 0 ∨
      ∀ e ∈ events, ∀ f ∈ e.files, d.exceeds f = true := by
  rw [← pendingFiles_eq_nil_iff]
  have hinput := inputFiles_run d events
  have hbounds : (run d events).inputFiles = (run d events).pendingFiles →
      Consistent d (run d events) := fun hsubmits =>
    ⟨hsubmits, length_pendingFiles_le d events, fun f hf => size_le_of_mem_pendingFiles hf⟩
  by_cases hchange : endsWithChange events
  · rcases hchange with ⟨files, hlast⟩
    rw [hlast] at hinput
    constructor
    · exact fun h => .inr (h.submits.symm.trans hinput)
    · rintro (hnot | hnil)
      · exact absurd ⟨files, hlast⟩ hnot
      · exact hbounds (hinput.trans hnil.symm)
  · refine iff_of_true (hbounds ?_) (.inl hchange)
    rw [hinput]
    split
    · rename_i files hlast
      exact absurd ⟨files, hlast⟩ hchange
    · rfl

/-- A file is picked in the dialog: the page lists it, and the input is empty. -/
theorem change_submits_nothing :
    ¬ ∀ (d : Dataset) (events : List FormEvent), Consistent d (run d events) := by
  intro hall
  have hsubmits := (hall {} [.change [{ name := "a.txt", size := 1 }]]).submits
  exact absurd hsubmits (by decide)

end UploadForm

end Aardbin
