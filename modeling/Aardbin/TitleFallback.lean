import Aardbin.Render

/-!
# What stands in for a missing title

A record without a title is shown under the first line of its content.  The card's snippet skips
blank lines, the title does not: a content that begins with a blank line is shown as untitled.
-/

namespace Aardbin

open Rust

/-! ## Blank texts -/

def Blank (s : String) : Prop :=
  ∀ c ∈ s.toList, isWhitespace c = true

instance (s : String) : Decidable (Blank s) :=
  List.decidableBAll _ s.toList

theorem trim_eq_empty_iff_blank {s : String} : trim s = "" ↔ Blank s :=
  trim_eq_empty_iff

theorem blank_ofList {cs : List Char} : Blank (.ofList cs) ↔ ∀ c ∈ cs, isWhitespace c = true := by
  rw [Blank, String.toList_ofList]

/-- Cutting a trimmed text does not leave a blank one. -/
theorem not_blank_truncateChars {s : String} {max : Nat} (hs : trim s = s) (hne : s ≠ "")
    (hmax : 0 < max) : ¬ Blank (truncateChars s max) := by
  rw [← trim_eq_empty_iff_blank, trim_truncateChars hs hmax, truncateChars_eq_empty_iff]
  exact hne

/-! ## Lines -/

/-- A line that ends at a line break, with its carriage return dropped. -/
theorem lineChars_break (line cs : List Char) :
    ∃ l, lineChars line ('\n' :: cs) = l :: lineChars [] cs ∧ l.toList <+: line.reverse ∧
      (Blank l ↔ ∀ c ∈ line, isWhitespace c = true) := by
  by_cases hline : ∃ rest, line = '\r' :: rest
  · rcases hline with ⟨rest, rfl⟩
    have hcr : isWhitespace '\r' = true := by decide
    exact ⟨.ofList rest.reverse, by simp [lineChars], by simp, by simp [blank_ofList, hcr]⟩
  · have hkeep : ∀ rest, line = '\r' :: rest → False := fun rest h => hline ⟨rest, h⟩
    refine ⟨.ofList line.reverse, ?_, by simp, by simp [blank_ofList]⟩
    rw [lineChars, if_pos rfl]
    exact hkeep

theorem lineChars_of_ne {c : Char} (hc : c ≠ '\n') (line cs : List Char) :
    lineChars line (c :: cs) = lineChars (c :: line) cs := by
  cases line <;> simp [lineChars, hc]

theorem lineChars_nil (line : List Char) :
    lineChars line [] = if line = [] then [] else [.ofList line.reverse] := by
  cases line with
  | nil => rfl
  | cons c line => simp [lineChars]

/-- The lines hold the characters of the text, but for the line breaks. -/
theorem blank_lineChars (line cs : List Char) :
    (∀ l ∈ lineChars line cs, Blank l) ↔
      (∀ c ∈ line, isWhitespace c = true) ∧ ∀ c ∈ cs, isWhitespace c = true := by
  induction cs generalizing line with
  | nil =>
      rw [lineChars_nil]
      split_ifs with hline
      · simp [hline]
      · simp [blank_ofList]
  | cons c cs ih =>
      by_cases hc : c = '\n'
      · subst hc
        rcases lineChars_break line cs with ⟨l, heq, -, hblank⟩
        have hbreak : isWhitespace '\n' = true := by decide
        rw [heq, List.forall_mem_cons, hblank, ih]
        simp [hbreak]
      · rw [lineChars_of_ne hc, ih, List.forall_mem_cons, List.forall_mem_cons]
        tauto

theorem blank_lines (content : String) : (∀ l ∈ lines content, Blank l) ↔ Blank content := by
  rw [lines, blank_lineChars]
  simp [Blank]

theorem infix_of_mem_lineChars {line cs : List Char} {l : String} (h : l ∈ lineChars line cs) :
    l.toList <:+: line.reverse ++ cs := by
  induction cs generalizing line with
  | nil =>
      rw [lineChars_nil] at h
      split_ifs at h
      · cases h
      · simp_all
  | cons c cs ih =>
      by_cases hc : c = '\n'
      · subst hc
        rcases lineChars_break line cs with ⟨l', heq, hstart, -⟩
        rw [heq, List.mem_cons] at h
        rcases h with rfl | h
        · exact (hstart.trans (List.prefix_append _ _)).isInfix
        · exact infix_past_sep (ih h)
      · rw [lineChars_of_ne hc] at h
        simpa using ih h

theorem infix_firstLine (content : String) : (firstLine content).toList <:+: content.toList := by
  refine (infix_trim _).trans ?_
  cases hlines : lines content with
  | nil => exact List.nil_infix
  | cons l rest =>
      have hmem : l ∈ lines content := hlines ▸ List.mem_cons_self
      simpa using infix_of_mem_lineChars hmem

/-- Whether a line break comes before the first character that is not whitespace. -/
def LeadingBreak (content : String) : Prop :=
  '\n' ∈ content.toList.takeWhile isWhitespace

instance (content : String) : Decidable (LeadingBreak content) :=
  inferInstanceAs (Decidable (_ ∈ _))

theorem blank_head_lineChars (line cs : List Char) :
    Blank ((lineChars line cs).head?.getD "") ↔ (∀ c ∈ line, isWhitespace c = true) ∧
      ((∀ c ∈ cs, isWhitespace c = true) ∨ '\n' ∈ cs.takeWhile isWhitespace) := by
  induction cs generalizing line with
  | nil =>
      rw [lineChars_nil]
      split_ifs with hline
      · simp [hline, Blank]
      · simp [blank_ofList]
  | cons c cs ih =>
      by_cases hc : c = '\n'
      · subst hc
        rcases lineChars_break line cs with ⟨l, heq, -, hblank⟩
        have hbreak : isWhitespace '\n' = true := by decide
        rw [heq, List.head?_cons, Option.getD_some, hblank, List.takeWhile_cons_of_pos hbreak]
        simp
      · rw [lineChars_of_ne hc, ih]
        by_cases hspace : isWhitespace c = true
        · simp [hspace, Ne.symm hc]
        · simp [hspace]

theorem firstLine_eq_empty_iff (content : String) :
    firstLine content = "" ↔ Blank content ∨ LeadingBreak content := by
  rw [firstLine, trim_eq_empty_iff_blank, lines, blank_head_lineChars]
  simp [Blank, LeadingBreak]

/-! ## The snippet -/

theorem intercalate_eq_empty_iff {sep : String} {parts : List String}
    (h : ∀ part ∈ parts, part ≠ "") : sep.intercalate parts = "" ↔ parts = [] := by
  cases parts with
  | nil => simp
  | cons part parts =>
      have hpart := h part List.mem_cons_self
      cases parts with
      | nil => simpa using hpart
      | cons next rest => simp [String.intercalate_cons_cons, hpart]

theorem snippet_eq_empty_iff (content : String) : snippet content = "" ↔ Blank content := by
  calc
    snippet content = ""
        ↔ " · ".intercalate (((lines content).map trim).filter fun l => l ≠ "") = "" :=
          truncateChars_eq_empty_iff
    _ ↔ ((lines content).map trim).filter (fun l => l ≠ "") = [] :=
          intercalate_eq_empty_iff (by simp)
    _ ↔ ∀ l ∈ lines content, Blank l := by
          simp [List.filter_eq_nil_iff, trim_eq_empty_iff_blank]
    _ ↔ Blank content := blank_lines content

/-! ## The title shown -/

/-- A title is taken from a text when it is a part of the text, cut off if it is too long. -/
def TakenFrom (text title : String) : Prop :=
  ∃ part max, 0 < max ∧ part.toList <:+: text.toList ∧ title = truncateChars part max

/-- What a card's title and the mark for a missing one are to say. -/
structure Headline (title content : String) (lang : Lang) : Prop where
  untitled : (displayTitle title content lang).2 = true ↔ Blank title ∧ Blank content
  snippet : (displayTitle title content lang).2 = true ↔ Blank title ∧ snippet content = ""
  shown : ¬ (Blank title ∧ Blank content) → ¬ Blank (displayTitle title content lang).1 ∧
    (TakenFrom (trim title) (displayTitle title content lang).1 ∨
      TakenFrom content (displayTitle title content lang).1)

theorem headline_of_title {title : String} (h : ¬ Blank title) (content : String) (lang : Lang) :
    Headline title content lang := by
  have hne := trim_eq_empty_iff_blank.not.2 h
  have heq := displayTitle_of_title hne content lang
  constructor
  · simp [heq, h]
  · simp [heq, h]
  · intro _
    rw [heq]
    dsimp only
    exact ⟨not_blank_truncateChars (trim_trim title) hne (by decide),
      .inl ⟨trim title, 200, by decide, List.infix_rfl, rfl⟩⟩

theorem headline_of_line {title content : String} (h : Blank title) (hline : firstLine content ≠ "")
    (lang : Lang) : Headline title content lang := by
  have heq := displayTitle_of_no_title (trim_eq_empty_iff_blank.2 h) content lang
  rw [if_pos hline] at heq
  have hcontent : ¬ Blank content := fun hblank =>
    hline ((firstLine_eq_empty_iff content).2 (.inl hblank))
  constructor
  · simp [heq, hcontent]
  · simp [heq, snippet_eq_empty_iff, hcontent]
  · intro _
    rw [heq]
    dsimp only
    exact ⟨not_blank_truncateChars (trim_trim _) hline (by decide),
      .inr ⟨firstLine content, 80, by decide, infix_firstLine content, rfl⟩⟩

theorem headline_untitled_iff {title content : String} (h : Blank title)
    (hline : firstLine content = "") (lang : Lang) :
    Headline title content lang ↔ Blank content := by
  have heq := displayTitle_of_no_title (trim_eq_empty_iff_blank.2 h) content lang
  rw [if_neg (not_not_intro hline)] at heq
  constructor
  · intro hhead
    exact (hhead.untitled.1 (by rw [heq])).2
  · intro hcontent
    refine ⟨?_, ?_, fun hnot => absurd ⟨h, hcontent⟩ hnot⟩
    · simp [heq, h, hcontent]
    · simp [heq, h, snippet_eq_empty_iff, hcontent]

/-- The headline is right unless a title is missing and a blank line comes before the text. -/
theorem headline_iff (title content : String) (lang : Lang) :
    Headline title content lang ↔ ¬ Blank title ∨ Blank content ∨ ¬ LeadingBreak content := by
  by_cases htitle : Blank title
  · by_cases hline : firstLine content = ""
    · rw [headline_untitled_iff htitle hline]
      rw [firstLine_eq_empty_iff] at hline
      constructor
      · exact fun hcontent => .inr (.inl hcontent)
      · rintro (hnot | hcontent | hnot)
        · exact absurd htitle hnot
        · exact hcontent
        · exact hline.resolve_right hnot
    · have hcases := not_or.1 ((firstLine_eq_empty_iff content).not.1 hline)
      exact iff_of_true (headline_of_line htitle hline lang) (.inr (.inr hcases.2))
  · exact iff_of_true (headline_of_title htitle content lang) (.inl htitle)

/-- The content has text after a blank line: the snippet shows it, the title says there is none. -/
theorem headline_blank_first_line :
    displayTitle "" "\nhello" .en = ("Untitled", true) ∧ snippet "\nhello" = "hello" ∧
      ¬ ∀ title content lang, Headline title content lang := by
  refine ⟨by decide, by decide, fun h => ?_⟩
  have hblank := ((h "" "\nhello" .en).untitled.1 (by decide)).2
  exact absurd hblank (by decide)

end Aardbin
