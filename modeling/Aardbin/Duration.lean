import Aardbin.Config
import Aardbin.Rust.Decimal

/-!
# Durations in the environment (`parse_duration` in `config.rs`)

A number of seconds, or a number with a unit.  The parser splits off the last byte, which panics
when the last character has more of them, and multiplies without a check.
-/

namespace Aardbin

open Rust

/-! ## What a duration means -/

/-- The trimmed text is a number of seconds, or a number with a unit whose seconds fit in a
`u64`. -/
inductive Means (s : String) : ℕ → Prop
  | plain {n : ℕ} : parseU64 (trim s) = some n → Means s n
  | unit {literal : String} {unit : Char} {n multiplier : ℕ} :
      (trim s).toList = literal.toList ++ [unit] → parseU64 literal = some n →
      unitSeconds unit = some multiplier → n * multiplier < 2 ^ 64 → Means s (n * multiplier)

/-- `parse_duration` returns, and returns what the text means. -/
def ParsedRight (s : String) : Prop :=
  ∃ r, parseDuration s = some r ∧ ∀ d, r = some d ↔ Means s d

/-- The last character is one byte, and a number with a unit does not overflow. -/
structure Parsable (s : String) : Prop where
  last : ∀ c ∈ (trim s).toList.getLast?, c.utf8Size = 1
  fits : ∀ (literal : String) (unit : Char) (n multiplier : ℕ),
    (trim s).toList = literal.toList ++ [unit] → parseU64 literal = some n →
      unitSeconds unit = some multiplier → n * multiplier < 2 ^ 64

/-! ## The parser -/

theorem unitSeconds_spec {c : Char} {multiplier : ℕ} (h : unitSeconds c = some multiplier) :
    c.utf8Size = 1 ∧ c.isDigit = false ∧ c ≠ '+' := by
  unfold unitSeconds at h
  split at h
  all_goals first
    | cases h; decide
    | cases h

/-- A text ends in one character only. -/
theorem last_inj {literal literal' : String} {unit unit' : Char}
    (h : literal.toList ++ [unit] = literal'.toList ++ [unit']) : literal = literal' ∧ unit = unit' := by
  rcases List.append_inj' h rfl with ⟨hliteral, hunit⟩
  exact ⟨String.toList_inj.1 hliteral, List.singleton_inj.1 hunit⟩

/-- A text that ends in a unit is no number. -/
theorem parseU64_of_unit {s literal : String} {unit : Char} {multiplier : ℕ}
    (hs : s.toList = literal.toList ++ [unit]) (hunit : unitSeconds unit = some multiplier) :
    parseU64 s = none := by
  rcases unitSeconds_spec hunit with ⟨-, hdigit, hplus⟩
  cases hparse : parseU64 s with
  | none => rfl
  | some n => exact absurd (by simp [hs]) (not_mem_of_parseU64 hparse hdigit hplus)

theorem parseDuration_of_empty {s : String} (h : (trim s).toList = []) :
    parseDuration s = some none := by
  simp [parseDuration, h]

/-- What becomes of a text with a last character. -/
theorem parseDuration_of_last {s literal : String} {unit : Char}
    (h : (trim s).toList = literal.toList ++ [unit]) : parseDuration s =
      if unit.utf8Size ≠ 1 then none
      else
        match unitSeconds unit with
        | none => some (parseU64 (trim s))
        | some multiplier => some ((parseU64 literal).map fun n => n * multiplier % 2 ^ 64) := by
  have hlast : (trim s).toList.getLast? = some unit := by rw [h, List.getLast?_concat]
  have hliteral : String.ofList (trim s).toList.dropLast = literal := by
    rw [h, List.dropLast_concat, String.ofList_toList]
  unfold parseDuration
  dsimp only
  rewrite [hlast, hliteral]
  rfl

theorem empty_or_last (s : String) :
    s.toList = [] ∨ ∃ (literal : String) (unit : Char), s.toList = literal.toList ++ [unit] := by
  rcases List.eq_nil_or_concat s.toList with hnil | ⟨cs, c, hcs⟩
  · exact .inl hnil
  · exact .inr ⟨.ofList cs, c, by rw [hcs, String.toList_ofList, List.concat_eq_append]⟩

theorem means_empty {s : String} (h : (trim s).toList = []) (d : ℕ) : ¬ Means s d := by
  intro hmeans
  cases hmeans with
  | plain hparse =>
      rw [String.toList_eq_nil_iff.1 h] at hparse
      cases hparse
  | unit hsplit _ _ _ => simp [h] at hsplit

/-- Without a unit only the number is left. -/
theorem means_of_no_unit {s literal : String} {unit : Char}
    (h : (trim s).toList = literal.toList ++ [unit]) (hunit : unitSeconds unit = none) {d : ℕ} :
    Means s d ↔ parseU64 (trim s) = some d := by
  constructor
  · intro hmeans
    cases hmeans with
    | plain hparse => exact hparse
    | unit hsplit _ hunit' _ =>
        obtain ⟨-, rfl⟩ := last_inj (h.symm.trans hsplit)
        rw [hunit] at hunit'
        cases hunit'
  · exact .plain

/-- With a unit the number stands before it. -/
theorem means_of_unit {s literal : String} {unit : Char} {multiplier : ℕ}
    (h : (trim s).toList = literal.toList ++ [unit]) (hunit : unitSeconds unit = some multiplier)
    {d : ℕ} : Means s d ↔ ∃ n, parseU64 literal = some n ∧ n * multiplier < 2 ^ 64 ∧
      d = n * multiplier := by
  constructor
  · intro hmeans
    cases hmeans with
    | plain hparse =>
        rw [parseU64_of_unit h hunit] at hparse
        cases hparse
    | @unit literal' unit' n multiplier' hsplit hparse hunit' hfits =>
        obtain ⟨rfl, rfl⟩ := last_inj (h.symm.trans hsplit)
        obtain rfl : multiplier = multiplier' := Option.some.inj (hunit.symm.trans hunit')
        exact ⟨n, hparse, hfits, rfl⟩
  · rintro ⟨n, hparse, hfits, rfl⟩
    exact .unit h hparse hunit hfits

/-- A text with a unit is parsed right if the product does not overflow, or if there is no number
before the unit. -/
theorem parsedRight_of_unit {s literal : String} {unit : Char} {multiplier : ℕ}
    (h : (trim s).toList = literal.toList ++ [unit]) (hunit : unitSeconds unit = some multiplier) :
    ParsedRight s ↔ ∀ n, parseU64 literal = some n → n * multiplier < 2 ^ 64 := by
  have hparsed : parseDuration s =
      some ((parseU64 literal).map fun n => n * multiplier % 2 ^ 64) := by
    rw [parseDuration_of_last h, if_neg (not_not.2 (unitSeconds_spec hunit).1), hunit]
  unfold ParsedRight
  simp only [hparsed, Option.some.injEq, exists_eq_left', means_of_unit h hunit,
    Option.map_eq_some_iff]
  constructor
  · intro hright n hn
    rcases (hright _).1 ⟨n, hn, rfl⟩ with ⟨n', hn', hfits, -⟩
    obtain rfl := Option.some.inj (hn.symm.trans hn')
    exact hfits
  · intro hfits d
    constructor
    · rintro ⟨n, hn, rfl⟩
      exact ⟨n, hn, hfits n hn, Nat.mod_eq_of_lt (hfits n hn)⟩
    · rintro ⟨n, hn, hlt, rfl⟩
      exact ⟨n, hn, Nat.mod_eq_of_lt hlt⟩

/-- `parse_duration` does what it should unless the text ends in a character of more than one byte
or names more seconds than a `u64` holds. -/
theorem parse_duration_iff (s : String) : ParsedRight s ↔ Parsable s := by
  rcases empty_or_last (trim s) with hempty | ⟨literal, unit, hs⟩
  · refine iff_of_true ⟨none, parseDuration_of_empty hempty, fun d => ?_⟩ ⟨?_, ?_⟩
    · simp [means_empty hempty d]
    · simp [hempty]
    · intro literal unit n multiplier hsplit
      simp [hempty] at hsplit
  · have hlast : (∀ c ∈ (trim s).toList.getLast?, c.utf8Size = 1) ↔ unit.utf8Size = 1 := by
      rw [hs, List.getLast?_concat]
      simp
    cases hunit : unitSeconds unit with
    | some multiplier =>
        -- A unit is one byte long: only the product can go wrong.
        rw [parsedRight_of_unit hs hunit]
        constructor
        · intro hfits
          refine ⟨hlast.2 (unitSeconds_spec hunit).1, ?_⟩
          intro literal' unit' n multiplier' hsplit hparse hunit'
          obtain ⟨rfl, rfl⟩ := last_inj (hs.symm.trans hsplit)
          obtain rfl := Option.some.inj (hunit.symm.trans hunit')
          exact hfits n hparse
        · exact fun h n hparse => h.fits literal unit n multiplier hs hparse hunit
    | none =>
        -- Nothing is multiplied: only the split can go wrong.
        have hparsed := parseDuration_of_last hs
        rw [hunit] at hparsed
        constructor
        · rintro ⟨r, hr, -⟩
          refine ⟨hlast.2 ?_, ?_⟩
          · by_contra hwide
            rw [hparsed, if_pos hwide] at hr
            cases hr
          · intro literal' unit' n multiplier hsplit _ hunit'
            obtain ⟨-, rfl⟩ := last_inj (hs.symm.trans hsplit)
            rw [hunit] at hunit'
            cases hunit'
        · intro h
          rw [if_neg (not_not.2 (hlast.1 h.last))] at hparsed
          exact ⟨_, hparsed, fun d => (means_of_no_unit hs hunit).symm⟩

/-- "7天": the split falls inside the last character. -/
theorem parse_duration_wide : parseDuration "7天" = none ∧ ¬ ∀ s, ParsedRight s := by
  have hpanic : parseDuration "7天" = none := by decide
  refine ⟨hpanic, fun hall => ?_⟩
  rcases hall "7天" with ⟨r, hr, -⟩
  rw [hpanic] at hr
  cases hr

example : parseDuration " +7D " = some (some 604800) := by decide

/-- The product wraps around. -/
example : parseDuration "213503982334602d" = some (some 61184) := by decide

end Aardbin
