import Aardbin.Rust.Text

/-!
# Splitting at a string

`str::split` with a pattern of several characters, and `str::trim_end_matches` with one character.
-/

namespace Aardbin
namespace Rust

/-- `str::split` with a pattern that is not empty: the next `skip` characters belong to a match. -/
def splitStrChars (pat : List Char) : Nat → List Char → List Char → List String
  | _, field, [] => [.ofList field.reverse]
  | skip + 1, field, _ :: cs => splitStrChars pat skip field cs
  | 0, field, c :: cs =>
      if pat.isPrefixOf (c :: cs) then
        .ofList field.reverse :: splitStrChars pat (pat.length - 1) [] cs
      else splitStrChars pat 0 (c :: field) cs

def splitStr (s pat : String) : List String :=
  splitStrChars pat.toList 0 [] s.toList

def trimEndMatches (s : String) (c : Char) : String :=
  .ofList (s.toList.rdropWhile (· = c))

theorem trimEndMatches_of_not_mem {s : String} {c : Char} (h : c ∉ s.toList) :
    trimEndMatches s c = s := by
  rw [trimEndMatches, List.rdropWhile_eq_self_iff.2, String.ofList_toList]
  intro hne heq
  exact h (of_decide_eq_true heq ▸ List.getLast_mem hne)

/-- The characters of a match are skipped. -/
theorem splitStrChars_skip (pat field a cs : List Char) :
    splitStrChars pat a.length field (a ++ cs) = splitStrChars pat 0 field cs := by
  induction a with
  | nil => rfl
  | cons c a ih => simpa only [List.length_cons, List.cons_append, splitStrChars] using ih

/-- Without the first character of the pattern there is no match. -/
theorem splitStrChars_append {p : Char} {pat a : List Char} (h : p ∉ a) (field cs : List Char) :
    splitStrChars (p :: pat) 0 field (a ++ cs) =
      splitStrChars (p :: pat) 0 (a.reverse ++ field) cs := by
  induction a generalizing field with
  | nil => rfl
  | cons c a ih =>
      rw [List.mem_cons, not_or] at h
      have hmatch : ¬ (p :: pat).isPrefixOf (c :: (a ++ cs)) = true := by
        rw [List.isPrefixOf_iff_prefix, List.cons_prefix_cons]
        exact fun hpre => h.1 hpre.1
      rw [List.cons_append, splitStrChars, if_neg hmatch, ih h.2, List.reverse_cons,
        List.append_assoc, List.singleton_append]

/-- A string that lacks a character of the pattern is not split. -/
theorem splitStrChars_of_not_mem {pat cs : List Char} {q : Char} (hq : q ∈ pat) (h : q ∉ cs)
    (field : List Char) : splitStrChars pat 0 field cs = [.ofList (field.reverse ++ cs)] := by
  induction cs generalizing field with
  | nil => simp [splitStrChars]
  | cons c cs ih =>
      have hmatch : ¬ pat.isPrefixOf (c :: cs) = true := by
        rw [List.isPrefixOf_iff_prefix]
        exact fun hpre => h (hpre.subset hq)
      rw [List.mem_cons, not_or] at h
      rw [splitStrChars, if_neg hmatch, ih h.2, List.reverse_cons, List.append_assoc,
        List.singleton_append]

/-- A string that begins with a field before the pattern and does not match in it. -/
theorem splitStrChars_match {p : Char} {pat a : List Char} (h : p ∉ a) (cs : List Char) :
    splitStrChars (p :: pat) 0 [] (a ++ (p :: pat ++ cs)) =
      .ofList a :: splitStrChars (p :: pat) 0 [] cs := by
  rw [splitStrChars_append h, List.append_nil, List.cons_append, splitStrChars,
    if_pos (by simp [List.isPrefixOf_iff_prefix]), List.length_cons, Nat.add_sub_cancel,
    splitStrChars_skip, List.reverse_reverse]

end Rust
end Aardbin
