import Aardbin.I18n
import Aardbin.Vendor

/-!
# The text of list cards (`render.rs`)
-/

namespace Aardbin

open Rust

/-- Char-boundary-safe truncation. -/
def truncateChars (s : String) (max : Nat) : String :=
  if s.toList.length ≤ max then s else .ofList (s.toList.take max ++ ['…'])

theorem truncateChars_of_le {s : String} {max : Nat} (h : s.toList.length ≤ max) :
    truncateChars s max = s :=
  if_pos h

theorem toList_truncateChars {s : String} {max : Nat} (h : max < s.toList.length) :
    (truncateChars s max).toList = s.toList.take max ++ ['…'] := by
  rw [truncateChars, if_neg (Nat.not_le_of_lt h), String.toList_ofList]

theorem length_truncateChars {s : String} {max : Nat} (h : max < s.toList.length) :
    (truncateChars s max).toList.length = max + 1 := by
  rw [toList_truncateChars h, List.length_append, List.length_take_of_le h.le]
  rfl

theorem length_truncateChars_le (s : String) (max : Nat) :
    (truncateChars s max).toList.length ≤ max + 1 := by
  rcases Nat.lt_or_ge max s.toList.length with hlt | hle
  · exact (length_truncateChars hlt).le
  · rw [truncateChars_of_le hle]
    exact Nat.le_succ_of_le hle

theorem truncateChars_truncateChars (s : String) (max : Nat) :
    truncateChars (truncateChars s max) max = truncateChars s max := by
  rcases Nat.lt_or_ge max s.toList.length with hlt | hle
  · refine String.toList_inj.1 ?_
    have hlong : max < (truncateChars s max).toList.length := by
      rw [length_truncateChars hlt]
      exact Nat.lt_succ_self max
    rw [toList_truncateChars hlong, toList_truncateChars hlt,
      List.take_left' (List.length_take_of_le hlt.le)]
  · rw [truncateChars_of_le hle, truncateChars_of_le hle]

/-- The ellipsis is no whitespace, so a title stays trimmed when it is cut. -/
theorem trim_truncateChars {s : String} {max : Nat} (hs : trim s = s) (hmax : 0 < max) :
    trim (truncateChars s max) = truncateChars s max := by
  rcases Nat.lt_or_ge max s.toList.length with hlt | hle
  · refine trim_eq_self (fun c hc => ?_) fun c hc => ?_
    · -- The first character is one of `s`, which is not empty and is not cut at zero.
      have hcut : (truncateChars s max).toList.head? = s.toList.head? := by
        rw [toList_truncateChars hlt, List.head?_append, List.head?_take, if_neg hmax.ne']
        cases hcs : s.toList with
        | nil => simp [hcs] at hlt
        | cons d rest => rfl
      have hfirst : (trim s).toList.head? = some c := by
        calc
          (trim s).toList.head? = s.toList.head? := by rw [hs]
          _ = (truncateChars s max).toList.head? := hcut.symm
          _ = some c := hc
      exact head?_trim hfirst
    · rw [toList_truncateChars hlt, List.getLast?_append, List.getLast?_singleton] at hc
      cases hc
      decide
  · rwa [truncateChars_of_le hle]

theorem truncateChars_eq_empty_iff {s : String} {max : Nat} : truncateChars s max = "" ↔ s = "" := by
  rcases Nat.lt_or_ge max s.toList.length with hlt | hle
  · refine iff_of_false (fun h => ?_) fun h => ?_
    · have hlen := length_truncateChars hlt
      rw [h] at hlen
      cases hlen
    · subst h
      cases hlt
  · rw [truncateChars_of_le hle]

/-- The first line of a content, which stands in for an empty title. -/
def firstLine (content : String) : String :=
  trim ((lines content).head?.getD "")

/-- Explicit title, else first content line, else the translated placeholder (and `true`). -/
def displayTitle (title content : String) (lang : Lang) : String × Bool :=
  let t := trim title
  if t ≠ "" then (truncateChars t 200, false)
  else
    if firstLine content ≠ "" then (truncateChars (firstLine content) 80, false)
    else (I18n.t lang "records.untitled", true)

theorem displayTitle_of_title {title : String} (h : trim title ≠ "") (content : String)
    (lang : Lang) : displayTitle title content lang = (truncateChars (trim title) 200, false) :=
  if_pos h

theorem displayTitle_of_no_title {title : String} (h : trim title = "") (content : String)
    (lang : Lang) : displayTitle title content lang =
      if firstLine content ≠ "" then (truncateChars (firstLine content) 80, false)
      else (I18n.t lang "records.untitled", true) :=
  if_neg (not_not_intro h)

def snippet (content : String) : String :=
  let oneLine := " · ".intercalate (((lines content).map trim).filter fun l => l ≠ "")
  truncateChars oneLine 160

def formatTsUtc (v : Vendor) (ts : Int) : String :=
  match v.formatTimestamp ts with
  | some s => s ++ " UTC"
  | none => ""

example : displayTitle "  " " first \nsecond" .en = ("first", false) := by decide

end Aardbin
