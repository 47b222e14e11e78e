import Aardbin.Rust.Text

/-!
# Decimal numbers and their other spellings

The parser of Rust's integers accepts more strings than the printer makes: it skips a plus sign and
leading zeros.  A string that it accepts is the printed number unless it has one of these.
-/

namespace Aardbin
namespace Rust

/-! ## Digits -/

theorem digitChar_of_isDigit {c : Char} (h : c.isDigit = true) :
    Nat.digitChar (c.toNat - '0'.toNat) = c ∧ c.toNat - '0'.toNat < 10 := by
  rw [Char.isDigit_iff_toNat] at h
  have hlt : c.toNat - '0'.toNat < 10 := by
    simp only [Char.reduceToNat] at *
    omega
  refine ⟨Char.toNat_inj.1 ?_, hlt⟩
  rw [Nat.toNat_digitChar_of_lt_ten hlt]
  simp only [Char.reduceToNat] at *
  omega

theorem ofDigitChars_lt {cs : List Char} (h : ∀ c ∈ cs, c.isDigit = true) :
    Nat.ofDigitChars 10 cs 0 < 10 ^ cs.length := by
  induction cs with
  | nil => simp
  | cons c cs ih =>
      have hc := (digitChar_of_isDigit (h c List.mem_cons_self)).2
      have hcs := ih fun c' hc' => h c' (List.mem_cons_of_mem _ hc')
      -- The first digit counts at most nine powers of ten.
      have hmul := Nat.mul_le_mul_left (10 ^ cs.length) (Nat.le_of_lt_succ hc)
      rw [Nat.ofDigitChars_cons, Nat.ofDigitChars_eq_ofDigitChars_zero, List.length_cons, pow_succ,
        Nat.mul_zero, Nat.zero_add]
      omega

/-- Digits without superfluous leading zeros are those of the number they name. -/
theorem toDigits_ofDigitChars {cs : List Char} (hne : cs ≠ []) (h : ∀ c ∈ cs, c.isDigit = true)
    (hlead : cs.head? = some '0' → cs.length = 1) :
    Nat.toDigits 10 (Nat.ofDigitChars 10 cs 0) = cs := by
  induction cs using List.reverseRecOn with
  | nil => exact absurd rfl hne
  | append_singleton cs c ih =>
      rcases digitChar_of_isDigit (h c (by simp)) with ⟨hchar, hlt⟩
      have hlast : Nat.toDigits 10 (c.toNat - '0'.toNat) = [c] := by
        rw [Nat.toDigits_of_lt_base hlt, hchar]
      rw [Nat.ofDigitChars_append, Nat.ofDigitChars_cons, Nat.ofDigitChars_nil]
      by_cases hnil : cs = []
      · simpa [hnil] using hlast
      · -- The digits before the last one have no leading zero at all.
        have hhead : cs.head? ≠ some '0' := by
          intro hzero
          have hone := hlead (by rw [List.head?_append_of_ne_nil _ hnil, hzero])
          have hpos := List.length_pos_iff.2 hnil
          rw [List.length_append, List.length_singleton] at hone
          omega
        have hbefore := ih hnil (fun c' hc' => h c' (List.mem_append_left _ hc'))
          fun hzero => absurd hzero hhead
        have hpos : 0 < Nat.ofDigitChars 10 cs 0 := by
          refine Nat.pos_of_ne_zero fun hzero => hhead ?_
          rw [← hbefore, hzero, Nat.toDigits_zero, List.head?_cons]
        calc
          Nat.toDigits 10 (10 * Nat.ofDigitChars 10 cs 0 + (c.toNat - '0'.toNat))
              = Nat.toDigits 10 (Nat.ofDigitChars 10 cs 0) ++
                  Nat.toDigits 10 (c.toNat - '0'.toNat) :=
                (Nat.toDigits_append_toDigits (by decide) hpos hlt).symm
          _ = cs ++ [c] := by rw [hbefore, hlast]

theorem length_toDigits_of_leading_zero {n : Nat} (h : (Nat.toDigits 10 n).head? = some '0') :
    (Nat.toDigits 10 n).length = 1 := by
  rcases hn : Nat.toDigits 10 n with _ | ⟨c, cs⟩
  · simp [hn] at h
  · obtain rfl : c = '0' := by simpa [hn] using h
    by_contra hlong
    have hdigits : ∀ c ∈ cs, c.isDigit = true := fun c hc =>
      Nat.isDigit_of_mem_toDigits (n := n) (b := 10) (by decide) (by decide) (by simp [hn, hc])
    -- The zero counts nothing, so that the other digits would be enough.
    have hlt : n < 10 ^ cs.length := by
      have hvalue := Nat.ofDigitChars_ten_toDigits (n := n)
      rw [hn, Nat.ofDigitChars_cons] at hvalue
      exact hvalue ▸ ofDigitChars_lt hdigits
    have hpos : 0 < cs.length := by
      simp only [List.length_cons] at hlong
      omega
    rw [← Nat.length_toDigits_le_iff (by decide) hpos, hn, List.length_cons] at hlt
    omega

/-! ## The parser -/

theorem pushDigit_eq_some {n m : Nat} {c : Char} : pushDigit n c = some m ↔
    c.isDigit = true ∧ m = 10 * n + (c.toNat - '0'.toNat) ∧ m < 2 ^ 64 := by
  unfold pushDigit
  dsimp only
  split_ifs with hdigit hlt
  · rw [Option.some.injEq]
    constructor
    · rintro rfl
      exact ⟨hdigit, by omega, hlt⟩
    · rintro ⟨-, hm, -⟩
      omega
  · simp only [false_iff]
    rintro ⟨-, hm, hfits⟩
    omega
  · simp [hdigit]

theorem foldlM_pushDigit_eq_some {cs : List Char} {n m : Nat} (hn : n < 2 ^ 64) :
    cs.foldlM pushDigit n = some m ↔
      (∀ c ∈ cs, c.isDigit = true) ∧ m = Nat.ofDigitChars 10 cs n ∧ m < 2 ^ 64 := by
  induction cs generalizing n with
  | nil =>
      simp only [List.foldlM_nil, Nat.ofDigitChars_nil]
      constructor
      · intro h
        cases h
        exact ⟨by simp, rfl, hn⟩
      · rintro ⟨-, rfl, -⟩
        rfl
  | cons c cs ih =>
      rw [List.foldlM_cons, Nat.ofDigitChars_cons]
      constructor
      · intro h
        rcases Option.bind_eq_some_iff.1 h with ⟨k, hk, hrest⟩
        rcases pushDigit_eq_some.1 hk with ⟨hc, rfl, hlt⟩
        rcases (ih hlt).1 hrest with ⟨hcs, hm, hfits⟩
        exact ⟨by simpa [hc] using hcs, hm, hfits⟩
      · rintro ⟨hall, hm, hfits⟩
        -- The number only grows with its digits, so that no prefix overflows.
        have hle : 10 * n + (c.toNat - '0'.toNat) ≤ m := by
          rw [hm, Nat.ofDigitChars_eq_ofDigitChars_zero]
          exact (Nat.le_mul_of_pos_left _ (Nat.pow_pos (by decide))).trans (Nat.le_add_right _ _)
        have hlt := hle.trans_lt hfits
        have hpush := pushDigit_eq_some.2 ⟨hall c List.mem_cons_self, rfl, hlt⟩
        have hrest := (ih hlt).2 ⟨fun c' hc' => hall c' (List.mem_cons_of_mem _ hc'), hm, hfits⟩
        exact Option.bind_eq_some_iff.2 ⟨_, hpush, hrest⟩

/-- The digits of a number, without a plus sign before them. -/
def unsignedChars (s : String) : List Char :=
  match s.toList with
  | '+' :: rest => rest
  | cs => cs

theorem parseU64_eq_some {s : String} {n : Nat} : parseU64 s = some n ↔
    unsignedChars s ≠ [] ∧ (∀ c ∈ unsignedChars s, c.isDigit = true) ∧
      n = Nat.ofDigitChars 10 (unsignedChars s) 0 ∧ n < 2 ^ 64 := by
  have hunfold : parseU64 s =
      if (unsignedChars s).isEmpty then none else (unsignedChars s).foldlM pushDigit 0 := rfl
  rw [hunfold]
  split_ifs with hempty
  · simp [List.isEmpty_iff.1 hempty]
  · rw [foldlM_pushDigit_eq_some (by decide)]
    rw [List.isEmpty_iff] at hempty
    exact ⟨fun h => ⟨hempty, h⟩, fun h => h.2⟩

/-- A plus sign, or a zero before other digits. -/
def Respelt (s : String) : Prop :=
  s.toList.head? = some '+' ∨ s.toList.head? = some '0' ∧ 1 < s.toList.length

instance (s : String) : Decidable (Respelt s) :=
  inferInstanceAs (Decidable (_ ∨ _))

theorem unsignedChars_of_head {s : String} (h : s.toList.head? ≠ some '+') :
    unsignedChars s = s.toList := by
  unfold unsignedChars
  split
  · rename_i rest hs
    simp [hs] at h
  · rfl

theorem head?_repr_ne_plus (n : Nat) : n.repr.toList.head? ≠ some '+' := by
  intro h
  rw [Nat.toList_repr] at h
  have hdigit := Nat.isDigit_of_mem_toDigits (by decide) (by decide) (List.mem_of_head? h)
  exact absurd hdigit (by decide)

theorem not_respelt_repr (n : Nat) : ¬ Respelt n.repr := by
  rintro (hplus | ⟨hzero, hlong⟩)
  · exact head?_repr_ne_plus n hplus
  · rw [Nat.toList_repr] at hzero hlong
    have hone := length_toDigits_of_leading_zero hzero
    omega

theorem parseU64_repr {n : Nat} (h : n < 2 ^ 64) : parseU64 n.repr = some n := by
  rw [parseU64_eq_some, unsignedChars_of_head (head?_repr_ne_plus n), Nat.toList_repr]
  refine ⟨Nat.toDigits_ne_nil, fun c hc => ?_, Nat.ofDigitChars_ten_toDigits.symm, h⟩
  exact Nat.isDigit_of_mem_toDigits (by decide) (by decide) hc

/-- What the parser accepts is what the printer prints, but for the other spellings. -/
theorem eq_repr_iff_of_parseU64 {s : String} {n : Nat} (h : parseU64 s = some n) :
    s = n.repr ↔ ¬ Respelt s := by
  refine ⟨fun hs => hs ▸ not_respelt_repr n, fun hplain => ?_⟩
  simp only [Respelt, not_or, not_and, Nat.not_lt] at hplain
  rcases parseU64_eq_some.1 h with ⟨hne, hdigits, rfl, -⟩
  -- Without a plus sign the digits are the whole string.
  rw [unsignedChars_of_head hplain.1] at hne hdigits ⊢
  refine String.toList_inj.1 ?_
  rw [Nat.toList_repr, toDigits_ofDigitChars hne hdigits]
  intro hzero
  have hpos := List.length_pos_iff.2 hne
  have hle := hplain.2 hzero
  omega

/-- Nothing but digits and the sign. -/
theorem not_mem_of_parseU64 {s : String} {n : Nat} {c : Char} (h : parseU64 s = some n)
    (hdigit : c.isDigit = false) (hplus : c ≠ '+') : c ∉ s.toList := by
  intro hc
  have hall := (parseU64_eq_some.1 h).2.1
  unfold unsignedChars at hall
  split at hall
  · rename_i rest hs
    rw [hs] at hc
    have hmem := List.mem_of_ne_of_mem hplus hc
    rw [hall c hmem] at hdigit
    cases hdigit
  · rw [hall c hc] at hdigit
    cases hdigit

end Rust
end Aardbin
