import Aardbin.Render
import Aardbin.Store

/-!
# The multipart form of a record (`routes.rs`, `parse_record_form`)

A multipart body is the list of answers of `next_field`; a part carries its raw chunks and,
where the transport breaks inside it, the error that follows them.
-/

namespace Aardbin

open Effect Rust

/-! ## Requests -/

structure Part where
  name : Option String
  fileName : Option String := none
  contentType : Option String := none
  chunks : List Bytes
  /-- the transport error after the chunks; `none` when the part ends properly -/
  broken : Option String := none

abbrev Multipart : Type := List (Except String Part)

/-- The header values that are visible ASCII, by lower-case name. -/
abbrev HeaderMap : Type := String → Option String

def Part.bytes (p : Part) : Bytes := p.chunks.flatten

/-- A part without a name counts as one with the empty name. -/
theorem Part.getD_name_eq_iff {p : Part} {n : String} (hn : n ≠ "") :
    p.name.getD "" = n ↔ p.name = some n := by
  cases p.name <;> simp [Ne.symm hn]

structure AppState where
  cfg : Config
  vendor : Vendor

namespace AppState

def crypto (s : AppState) : Crypto :=
  { vendor := s.vendor, key := s.cfg.cryptoKey }

end AppState

def detectLang (headers : HeaderMap) : Lang :=
  I18n.resolve (I18n.extractLangCookie (headers "cookie")) (headers "accept-language")

def contentLength (headers : HeaderMap) : Option Nat :=
  (headers "content-length").bind parseU64

/-! ## Uploads -/

structure PendingUpload where
  id : String
  originalFilename : String
  mimeType : String
  size : Nat
  deriving DecidableEq, Repr

structure ParsedRecordForm where
  title : String
  content : String
  uploads : List PendingUpload
  deriving DecidableEq, Repr

def cleanupUploads : List PendingUpload → Program Reply Unit
  | [] => pure ()
  | u :: rest => do
      AskFiles.deleteAttachment u.id
      cleanupUploads rest

/-! ## Reading the form -/

/-- The mutable variables of the loop over the fields. -/
structure FormState where
  title : String := ""
  content : String := ""
  uploads : List PendingUpload := []
  totalBytes : Nat := 0
  attachmentCount : Nat := 0

/-- `Field::text`. -/
def fieldText (s : AppState) (p : Part) : Except String String :=
  match p.broken with
  | some e => .error e
  | none => .ok (s.vendor.decodeText p.contentType p.bytes)

/-- Give up: remove the files of the earlier uploads and answer `resp`. -/
def reject {α : Type} (uploads : List PendingUpload) (resp : Response) :
    Program Reply (Except Response α) := do
  cleanupUploads uploads
  return .error resp

def readTextField (s : AppState) (name : String) (acc : FormState) (p : Part) :
    Program Reply (Except Response FormState) :=
  match fieldText s p with
  | .error e => reject acc.uploads (errResponse .unprocessableEntity s!"Invalid field: {e}")
  | .ok text =>
      let totalBytes := acc.totalBytes + text.utf8ByteSize
      if s.cfg.maxRequestBytes < totalBytes then
        reject acc.uploads (errResponse .payloadTooLarge "Request too large")
      else if name = "content" ∧ s.cfg.maxContentBytes < text.utf8ByteSize then
        reject acc.uploads (errResponse .unprocessableEntity
          s!"Content too large (max {s.cfg.maxContentBytes} bytes)")
      else if name = "title" then
        return .ok { acc with title := truncateChars (trim text) 200, totalBytes }
      else
        return .ok { acc with content := text, totalBytes }

/-- The loop over the chunks of one file: the failure, if any, the size and the running total. -/
def writeChunks (s : AppState) (filename id : String) (broken : Option String) :
    List Bytes → Nat → Nat → Program Reply (Option Response × Nat × Nat)
  | [], size, totalBytes =>
      match broken with
      | none => return (none, size, totalBytes)
      | some e =>
          return (some (errResponse .unprocessableEntity s!"Upload failed: {e}"), size, totalBytes)
  | chunk :: rest, size, totalBytes =>
      let size := size + chunk.length
      let totalBytes := totalBytes + chunk.length
      if s.cfg.maxAttachmentBytes < size then
        let limit := humanSize s.vendor (I64.wrap s.cfg.maxAttachmentBytes)
        return (some (errResponse .unprocessableEntity
          s!"\"{filename}\" exceeds max attachment size ({limit})"), size, totalBytes)
      else if s.cfg.maxRequestBytes < totalBytes then
        return (some (errResponse .payloadTooLarge "Request too large"), size, totalBytes)
      else do
        match ← AskFiles.writeAll id chunk with
        | .error _ => return (some internal, size, totalBytes)
        | .ok () => writeChunks s filename id broken rest size totalBytes

def readFileField (s : AppState) (acc : FormState) (p : Part) :
    Program Reply (Except Response FormState) :=
  match p.fileName with
  | none => return .ok acc
  | some filename =>
      -- browsers send an empty file part when nothing is selected
      if filename = "" then return .ok acc
      else
        let attachmentCount := acc.attachmentCount + 1
        if maxAttachmentsPerRecord < attachmentCount then
          reject acc.uploads (errResponse .unprocessableEntity
            s!"Too many attachments (max {maxAttachmentsPerRecord})")
        else do
          match ← AskFiles.beginUpload with
          | .error _ => reject acc.uploads internal
          | .ok id =>
              match ← writeChunks s filename id p.broken p.chunks 0 acc.totalBytes with
              | (some resp, _, _) =>
                  AskFiles.abortUpload id
                  reject acc.uploads resp
              | (none, size, totalBytes) =>
                  match ← AskFiles.finalizeUpload id with
                  | .error _ =>
                      AskFiles.abortUpload id
                      reject acc.uploads internal
                  | .ok _ =>
                      let u : PendingUpload :=
                        { id, originalFilename := filename
                          mimeType := guessMime s.vendor filename p.contentType, size }
                      return .ok { acc with uploads := acc.uploads ++ [u], totalBytes, attachmentCount }

def readField (s : AppState) (acc : FormState) (p : Part) :
    Program Reply (Except Response FormState) :=
  let name := p.name.getD ""
  if name = "title" ∨ name = "content" then readTextField s name acc p
  else if name = "files" then readFileField s acc p
  else
    -- unknown field: drain and count
    match fieldText s p with
    | .ok text => return .ok { acc with totalBytes := acc.totalBytes + text.utf8ByteSize }
    | .error _ => return .ok acc

def readFields (s : AppState) : Multipart → FormState → Program Reply (Except Response FormState)
  | [], acc => return .ok acc
  | .error e :: _, acc =>
      reject acc.uploads (errResponse .unprocessableEntity s!"Invalid form data: {e}")
  | .ok p :: rest, acc => do
      match ← readField s acc p with
      | .error resp => return .error resp
      | .ok acc' => readFields s rest acc'

/-- Streams a multipart form: text fields to memory, files to temp files that are renamed to
their final name on success. -/
def parseRecordForm (s : AppState) (multipart : Multipart) (contentLength : Option Nat) :
    Program Reply (Except Response ParsedRecordForm) :=
  if contentLength.any fun len => s.cfg.maxRequestBytes < len then
    return .error (errResponse .payloadTooLarge
      s!"Request too large (max {s.cfg.maxRequestBytes} bytes)")
  else do
    match ← readFields s multipart {} with
    | .error resp => return .error resp
    | .ok acc => return .ok { title := acc.title, content := acc.content, uploads := acc.uploads }

end Aardbin
