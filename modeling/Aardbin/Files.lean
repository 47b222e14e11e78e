import Mathlib.Logic.Function.Basic
import Aardbin.Vendor

/-!
# Attachment files (`files.rs`)

A directory maps file names to contents.  Every method below is one call on the local file
system; whether the system refuses a call is decided outside, in `Store.answer`.
-/

namespace Aardbin

abbrev Dir : Type := String → Option Bytes

structure FileStore where
  /-- `data/attachments` -/
  attachments : Dir
  /-- `data/tmp` -/
  tmp : Dir

inductive IoError
  | notFound
  | other
  deriving DecidableEq, Repr

namespace FileStore

def empty : FileStore :=
  { attachments := fun _ => none, tmp := fun _ => none }

/-- Creates an empty temp file under the fresh name `id`. -/
def beginUpload (fs : FileStore) (id : String) : FileStore :=
  { fs with tmp := Function.update fs.tmp id (some []) }

/-- `write_all` on the open temp file; a file whose name is gone can still be written. -/
def writeAll (fs : FileStore) (id : String) (chunk : Bytes) : FileStore :=
  { fs with tmp := Function.update fs.tmp id ((fs.tmp id).map (· ++ chunk)) }

/-- fsync, close, and rename to `attachments/{id}`.  Returns the size. -/
def finalizeUpload (fs : FileStore) (id : String) : Except IoError (Nat × FileStore) :=
  match fs.tmp id with
  | none => .error .notFound
  | some bytes => .ok (bytes.length,
      { attachments := Function.update fs.attachments id (some bytes)
        tmp := Function.update fs.tmp id none })

def abortUpload (fs : FileStore) (id : String) : FileStore :=
  { fs with tmp := Function.update fs.tmp id none }

def deleteAttachment (fs : FileStore) (id : String) : FileStore :=
  { fs with attachments := Function.update fs.attachments id none }

/-- The startup scan removes stale temp files, except those whose removal fails, and only logs
the attachment files that the database does not know. -/
def orphanScan (fs : FileStore) (stuck : String → Bool) : FileStore :=
  { fs with tmp := fun id => if stuck id then fs.tmp id else none }

end FileStore

/-- `guess_mime`: a declared type wins, else the extension decides. -/
def guessMime (v : Vendor) (filename : String) (declared : Option String) : String :=
  match declared with
  | some t => if t ≠ "" then t else v.mimeFromPath filename
  | none => v.mimeFromPath filename

def humanSize (v : Vendor) (bytes : Int) : String :=
  if 1024 * 1024 ≤ bytes then v.formatFloat 1 bytes (1024 * 1024) ++ " MB"
  else if 1024 ≤ bytes then v.formatFloat 0 bytes 1024 ++ " KB"
  else toString bytes ++ " B"

end Aardbin
