import Mathlib.Data.List.Basic

/-!
# Element trees

A page as a browser holds it: attribute values are those after unescaping.
-/

inductive Html
  | text (s : String)
  | element (tag : String) (attrs : List (String × String)) (children : List Html)

namespace Html

mutual

/-- Some element of the tree has this attribute. -/
def has (x : String × String) : Html → Bool
  | .text _ => false
  | .element _ attrs children => decide (x ∈ attrs) || hasAny x children

def hasAny (x : String × String) : List Html → Bool
  | [] => false
  | h :: rest => h.has x || hasAny x rest

end

variable {x : String × String}

@[simp] theorem has_text (s : String) : (Html.text s).has x = false := by
  rw [has]

@[simp] theorem has_element (tag : String) (attrs : List (String × String))
    (children : List Html) :
    (Html.element tag attrs children).has x = true ↔
      x ∈ attrs ∨ hasAny x children = true := by
  rw [has, Bool.or_eq_true, decide_eq_true_eq]

@[simp] theorem hasAny_nil : hasAny x [] = false := by
  rw [hasAny]

@[simp] theorem hasAny_cons (h : Html) (rest : List Html) :
    hasAny x (h :: rest) = true ↔ h.has x = true ∨ hasAny x rest = true := by
  rw [hasAny, Bool.or_eq_true]

theorem hasAny_iff {hs : List Html} : hasAny x hs = true ↔ ∃ h ∈ hs, h.has x = true := by
  induction hs with
  | nil => simp
  | cons h rest ih => simp [ih]

@[simp] theorem hasAny_append (hs ks : List Html) :
    hasAny x (hs ++ ks) = true ↔ hasAny x hs = true ∨ hasAny x ks = true := by
  simp [hasAny_iff, or_and_right, exists_or]

@[simp] theorem hasAny_map {α : Type} (f : α → Html) (as : List α) :
    hasAny x (as.map f) = true ↔ ∃ a ∈ as, (f a).has x = true := by
  simp [hasAny_iff]

/-- A part that is rendered under a condition. -/
@[simp] theorem hasAny_ite (p : Prop) [Decidable p] (hs ks : List Html) :
    hasAny x (if p then hs else ks) = true ↔
      (p ∧ hasAny x hs = true) ∨ (¬ p ∧ hasAny x ks = true) := by
  split_ifs with hp <;> simp [hp]

end Html
