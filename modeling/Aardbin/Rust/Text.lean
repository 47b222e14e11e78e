import Mathlib.Algebra.Group.Nat.Defs
import Mathlib.Data.List.DropRight
import Mathlib.Data.List.TakeWhile

/-!
# The string functions of Rust's standard library that aardbin calls

Rust's `str` functions work on `char`s with the Unicode `White_Space` property, Lean's `String`
functions on ASCII spaces; the definitions below follow the documented Rust behaviour.
-/

namespace Aardbin
namespace Rust

/-! ## Characters -/

/-- `char::is_whitespace`: the Unicode property `White_Space`. -/
def isWhitespace (c : Char) : Bool :=
  let n := c.toNat
  (9 ≤ n && n ≤ 13) || n == 0x20 || n == 0x85 || n == 0xA0 || n == 0x1680 ||
    (0x2000 ≤ n && n ≤ 0x200A) || n == 0x2028 || n == 0x2029 || n == 0x202F || n == 0x205F ||
    n == 0x3000

/-- `char::to_ascii_lowercase`. -/
def toAsciiLower (c : Char) : Char :=
  if 'A' ≤ c ∧ c ≤ 'Z' then Char.ofNat (c.toNat + 32) else c

/-! ## Strings -/

def trim (s : String) : String :=
  .ofList ((s.toList.dropWhile isWhitespace).rdropWhile isWhitespace)

@[simp] theorem toList_trim (s : String) :
    (trim s).toList = (s.toList.dropWhile isWhitespace).rdropWhile isWhitespace :=
  String.toList_ofList

/-- A string that does not start or end with whitespace is trimmed. -/
theorem trim_eq_self {s : String} (hhead : ∀ c, s.toList.head? = some c → isWhitespace c = false)
    (hlast : ∀ c, s.toList.getLast? = some c → isWhitespace c = false) : trim s = s := by
  have hdrop : s.toList.dropWhile isWhitespace = s.toList := by
    refine List.dropWhile_eq_self_iff.2 fun hl => ?_
    simpa using hhead _ (List.head?_eq_getElem? ▸ List.getElem?_eq_getElem hl)
  have hrdrop : s.toList.rdropWhile isWhitespace = s.toList := by
    refine List.rdropWhile_eq_self_iff.2 fun hl => ?_
    simpa using hlast _ (List.getLast?_eq_some_getLast hl)
  rw [trim, hdrop, hrdrop, String.ofList_toList]

theorem head?_trim {s : String} {c : Char} (h : (trim s).toList.head? = some c) :
    isWhitespace c = false := by
  rw [toList_trim] at h
  -- A prefix starts with the same character.
  have hfirst : (s.toList.dropWhile isWhitespace).head? = some c := by
    rcases List.rdropWhile_prefix isWhitespace (s.toList.dropWhile isWhitespace) with ⟨rest, hrest⟩
    rw [← hrest, List.head?_append, h, Option.some_or]
  have hnot := List.head?_dropWhile_not isWhitespace s.toList
  rwa [hfirst] at hnot

theorem getLast?_trim {s : String} {c : Char} (h : (trim s).toList.getLast? = some c) :
    isWhitespace c = false := by
  rw [toList_trim] at h
  have hne : (s.toList.dropWhile isWhitespace).rdropWhile isWhitespace ≠ [] := by
    intro hnil
    rw [hnil] at h
    cases h
  rw [List.getLast?_eq_some_getLast hne, Option.some.injEq] at h
  simpa [h] using List.rdropWhile_last_not _ _ hne

theorem trim_trim (s : String) : trim (trim s) = trim s :=
  trim_eq_self (fun _ => head?_trim) fun _ => getLast?_trim

theorem trim_append_of_whitespace {w : String} (h : ∀ c ∈ w.toList, isWhitespace c = true)
    (s : String) : trim (w ++ s) = trim s := by
  rw [trim, trim, String.toList_append, List.dropWhile_append_of_pos h]

theorem length_trim_le (s : String) : (trim s).toList.length ≤ s.toList.length := by
  rw [toList_trim]
  exact (List.rdropWhile_prefix _ _).length_le.trans (List.dropWhile_suffix _).length_le

theorem trim_eq_empty_iff {s : String} : trim s = "" ↔ ∀ c ∈ s.toList, isWhitespace c = true := by
  rw [← String.toList_eq_nil_iff, toList_trim, List.rdropWhile_eq_nil_iff]
  constructor
  · intro h c hc
    rw [← List.takeWhile_append_dropWhile (p := isWhitespace) (l := s.toList), List.mem_append] at hc
    rcases hc with hc | hc
    · exact List.mem_takeWhile_imp hc
    · exact h c hc
  · exact fun h c hc => h c ((List.dropWhile_suffix _).subset hc)

theorem infix_trim (s : String) : (trim s).toList <:+: s.toList := by
  rw [toList_trim]
  exact (List.rdropWhile_prefix _ _).isInfix.trans (List.dropWhile_suffix _).isInfix

def toAsciiLowercase (s : String) : String :=
  .ofList (s.toList.map toAsciiLower)

/-- `str::strip_prefix` with a string pattern. -/
def stripPrefix (s pre : String) : Option String :=
  if pre.toList.isPrefixOf s.toList then some (.ofList (s.toList.drop pre.toList.length)) else none

theorem stripPrefix_eq_some {s pre rest : String} (h : stripPrefix s pre = some rest) :
    s.toList = pre.toList ++ rest.toList := by
  unfold stripPrefix at h
  split_ifs at h with hpre
  cases h
  rw [String.toList_ofList]
  exact (List.prefix_iff_eq_append.1 (List.isPrefixOf_iff_prefix.1 hpre)).symm

theorem stripPrefix_of_append {s pre rest : String} (h : s.toList = pre.toList ++ rest.toList) :
    stripPrefix s pre = some rest := by
  rw [stripPrefix, if_pos (by simp [h]), h, List.drop_left, String.ofList_toList]

theorem stripPrefix_eq_none {s pre : String}
    (h : ∀ rest : String, s.toList ≠ pre.toList ++ rest.toList) : stripPrefix s pre = none := by
  cases hstrip : stripPrefix s pre with
  | none => rfl
  | some rest => exact absurd (stripPrefix_eq_some hstrip) (h rest)

def startsWith (s pre : String) : Bool :=
  pre.toList.isPrefixOf s.toList

/-- `str::split` on one character, over the characters still to be read. -/
def splitChars (sep : Char) : List Char → List Char → List String
  | field, [] => [.ofList field.reverse]
  | field, c :: cs =>
      if c = sep then .ofList field.reverse :: splitChars sep [] cs
      else splitChars sep (c :: field) cs

def split (s : String) (sep : Char) : List String :=
  splitChars sep [] s.toList

/-- What comes after a separator is in the text. -/
theorem infix_past_sep {sep : Char} {field cs part : List Char} (h : part <:+: [].reverse ++ cs) :
    part <:+: field.reverse ++ sep :: cs :=
  h.trans ((List.suffix_cons sep cs).trans (List.suffix_append _ _)).isInfix

theorem infix_of_mem_splitChars {sep : Char} {field cs : List Char} {part : String}
    (h : part ∈ splitChars sep field cs) : part.toList <:+: field.reverse ++ cs := by
  fun_induction splitChars sep field cs with
  | case1 field => simp_all
  | case2 field cs ih =>
      rcases List.mem_cons.1 h with rfl | hrest
      · simpa using (List.prefix_append field.reverse (sep :: cs)).isInfix
      · exact infix_past_sep (ih hrest)
  | case3 field c cs hne ih => simpa using ih h

theorem infix_of_mem_split {s part : String} {sep : Char} (h : part ∈ split s sep) :
    part.toList <:+: s.toList :=
  infix_of_mem_splitChars h

theorem splitChars_of_not_mem {sep : Char} {cs : List Char} (h : sep ∉ cs) (field : List Char) :
    splitChars sep field cs = [.ofList (field.reverse ++ cs)] := by
  induction cs generalizing field with
  | nil => simp [splitChars]
  | cons c cs ih =>
      rw [List.mem_cons, not_or] at h
      rw [splitChars, if_neg (Ne.symm h.1), ih h.2, List.reverse_cons, List.append_assoc,
        List.singleton_append]

theorem splitChars_append {sep : Char} {cs : List Char} (h : sep ∉ cs) (field rest : List Char) :
    splitChars sep field (cs ++ sep :: rest) =
      .ofList (field.reverse ++ cs) :: splitChars sep [] rest := by
  induction cs generalizing field with
  | nil => simp [splitChars]
  | cons c cs ih =>
      rw [List.mem_cons, not_or] at h
      rw [List.cons_append, splitChars, if_neg (Ne.symm h.1), ih h.2, List.reverse_cons,
        List.append_assoc, List.singleton_append]

/-- Parts without the separator are found again. -/
theorem split_intercalate {sep : Char} {parts : List String} (hne : parts ≠ [])
    (h : ∀ part ∈ parts, sep ∉ part.toList) :
    split ((String.singleton sep).intercalate parts) sep = parts := by
  induction parts with
  | nil => exact absurd rfl hne
  | cons part parts ih =>
      have hpart := h part List.mem_cons_self
      rw [split]
      cases parts with
      | nil => rw [String.intercalate_singleton, splitChars_of_not_mem hpart]; simp
      | cons next rest =>
          have hrest := ih (List.cons_ne_nil _ _) fun p hp => h p (List.mem_cons_of_mem _ hp)
          rw [split] at hrest
          rw [String.intercalate_cons_cons, String.toList_append, String.toList_append,
            String.toList_singleton, List.append_assoc, List.singleton_append,
            splitChars_append hpart, hrest]
          simp

/-- `str::splitn` on one character: at most `n` parts, the last of them with all the rest. -/
def splitnChars (sep : Char) : Nat → List Char → List Char → List String
  | 0, _, _ => []
  | 1, field, cs => [.ofList (field.reverse ++ cs)]
  | _ + 2, field, [] => [.ofList field.reverse]
  | n + 2, field, c :: cs =>
      if c = sep then .ofList field.reverse :: splitnChars sep (n + 1) [] cs
      else splitnChars sep (n + 2) (c :: field) cs

def splitn (n : Nat) (s : String) (sep : Char) : List String :=
  splitnChars sep n [] s.toList

theorem infix_of_mem_splitnChars {sep : Char} {n : Nat} {field cs : List Char} {part : String}
    (h : part ∈ splitnChars sep n field cs) : part.toList <:+: field.reverse ++ cs := by
  fun_induction splitnChars sep n field cs with
  | case1 field cs => cases h
  | case2 field cs => simp_all
  | case3 n field => simp_all
  | case4 n field cs ih =>
      rcases List.mem_cons.1 h with rfl | hrest
      · simpa using (List.prefix_append field.reverse (sep :: cs)).isInfix
      · exact infix_past_sep (ih hrest)
  | case5 n field c cs hne ih => simpa using ih h

theorem infix_of_mem_splitn {n : Nat} {s part : String} {sep : Char} (h : part ∈ splitn n s sep) :
    part.toList <:+: s.toList :=
  infix_of_mem_splitnChars h

/-- A part that is not the last one ends at the first separator. -/
theorem splitnChars_eq_cons {sep : Char} {n : Nat} {field cs : List Char} {part next : String}
    {parts : List String} : splitnChars sep (n + 2) field cs = part :: next :: parts ↔
      ∃ a b, cs = a ++ sep :: b ∧ sep ∉ a ∧ part = .ofList (field.reverse ++ a) ∧
        splitnChars sep (n + 1) [] b = next :: parts := by
  induction cs generalizing field with
  | nil => simp [splitnChars]
  | cons c cs ih =>
      by_cases hc : c = sep
      · subst hc
        simp only [splitnChars, if_pos, List.cons.injEq]
        constructor
        · rintro ⟨rfl, hrest⟩
          exact ⟨[], cs, rfl, by simp, by simp, hrest⟩
        · rintro ⟨a, b, hsplit, hnone, rfl, hrest⟩
          cases a with
          | nil =>
              obtain rfl : cs = b := by simpa using hsplit
              exact ⟨by simp, hrest⟩
          | cons c' a =>
              rw [List.cons_append, List.cons.injEq] at hsplit
              exact absurd (hsplit.1 ▸ List.mem_cons_self) hnone
      · simp only [splitnChars, if_neg hc, ih]
        constructor
        · rintro ⟨a, b, rfl, hnone, rfl, hrest⟩
          exact ⟨c :: a, b, rfl, by simp [Ne.symm hc, hnone], by simp, hrest⟩
        · rintro ⟨a, b, hsplit, hnone, rfl, hrest⟩
          cases a with
          | nil => exact absurd (List.cons.inj hsplit).1 hc
          | cons c' a =>
              rw [List.cons_append, List.cons.injEq] at hsplit
              rcases hsplit with ⟨rfl, rfl⟩
              exact ⟨a, b, rfl, fun hmem => hnone (List.mem_cons_of_mem _ hmem), by simp, hrest⟩

theorem splitn_eq_three {s a b c : String} {sep : Char} :
    splitn 3 s sep = [a, b, c] ↔ sep ∉ a.toList ∧ sep ∉ b.toList ∧
      s.toList = a.toList ++ sep :: (b.toList ++ sep :: c.toList) := by
  rw [splitn, splitnChars_eq_cons]
  simp only [splitnChars_eq_cons, List.reverse_nil, List.nil_append]
  constructor
  · rintro ⟨x, _, hs, hx, rfl, y, z, rfl, hy, rfl, hz⟩
    obtain rfl : .ofList z = c := by simpa [splitnChars] using hz
    simpa using ⟨hx, hy, hs⟩
  · rintro ⟨ha, hb, hs⟩
    exact ⟨_, _, hs, ha, by simp, _, _, rfl, hb, by simp, by simp [splitnChars]⟩

example : splitn 3 "v1.5.a.b" '.' = ["v1", "5", "a.b"] := by decide

/-- `str::lines`: every line without its `\n` or `\r\n`, the rest after the last `\n` only when
it is not empty, and with its carriage return. -/
def lineChars : List Char → List Char → List String
  | [], [] => []
  | line, [] => [.ofList line.reverse]
  | line, c :: cs =>
      if c = '\n' then
        (match line with
          | '\r' :: rest => .ofList rest.reverse
          | _ => .ofList line.reverse) :: lineChars [] cs
      else lineChars (c :: line) cs

def lines (s : String) : List String :=
  lineChars [] s.toList

/-- `str::replace` with a pattern that is not empty: the next `skip` characters are replaced. -/
def replaceChars (pat by' : List Char) : Nat → List Char → List Char
  | _, [] => []
  | skip + 1, _ :: cs => replaceChars pat by' skip cs
  | 0, c :: cs =>
      if pat.isPrefixOf (c :: cs) then by' ++ replaceChars pat by' (pat.length - 1) cs
      else c :: replaceChars pat by' 0 cs

def replace (s pat by' : String) : String :=
  .ofList (replaceChars pat.toList by'.toList 0 s.toList)

def bytes (s : String) : List UInt8 :=
  s.toUTF8.toList

theorem toList_loop (b : ByteArray) (i : Nat) (r : List UInt8) :
    ByteArray.toList.loop b i r = r.reverse ++ b.data.toList.drop i := by
  fun_induction ByteArray.toList.loop b i r with
  | case1 i r hlt ih =>
      have hlt' : i < b.data.toList.length := by simpa using hlt
      have hget : b.get! i = b.data.toList[i] := by
        have hsize : i < b.data.size := hlt
        cases b
        simp_all [ByteArray.get!]
      calc
        ByteArray.toList.loop b (i + 1) (b.get! i :: r)
            = (b.get! i :: r).reverse ++ b.data.toList.drop (i + 1) := ih
        _ = r.reverse ++ (b.data.toList[i] :: b.data.toList.drop (i + 1)) := by
            rw [List.reverse_cons, hget, List.append_assoc, List.singleton_append]
        _ = r.reverse ++ b.data.toList.drop i := by rw [List.getElem_cons_drop]
  | case2 i r hge =>
      have hle : b.data.toList.length ≤ i := by simpa using hge
      rw [List.drop_eq_nil_of_le hle, List.append_nil]

theorem bytes_eq_data (s : String) : bytes s = s.toByteArray.data.toList := by
  rw [bytes, ByteArray.toList, toList_loop, String.toUTF8_eq_toByteArray]
  rfl

/-- The bytes of a string, character by character. -/
theorem bytes_eq_flatMap (s : String) : bytes s = s.toList.flatMap String.utf8EncodeChar := by
  rw [bytes_eq_data, ← String.utf8Encode_toList, List.utf8Encode, List.toList_data_toByteArray]

theorem bytes_inj {s t : String} : bytes s = bytes t ↔ s = t := by
  rw [bytes_eq_data, bytes_eq_data, Array.toList_inj, ← ByteArray.ext_iff, String.toByteArray_inj]

/-! ## Numbers -/

/-- One more decimal digit of a `u64`; `none` at a non-digit and at an overflow. -/
def pushDigit (n : Nat) (c : Char) : Option Nat :=
  if c.isDigit then
    let m := n * 10 + (c.toNat - '0'.toNat)
    if m < 2 ^ 64 then some m else none
  else none

/-- `str::parse::<u64>`: an optional `+`, then at least one digit. -/
def parseU64 (s : String) : Option Nat :=
  let digits := match s.toList with
    | '+' :: rest => rest
    | cs => cs
  if digits.isEmpty then none else digits.foldlM pushDigit 0

theorem pushDigit_lt {n m : Nat} {c : Char} (h : pushDigit n c = some m) : m < 2 ^ 64 := by
  unfold pushDigit at h
  dsimp only at h
  split_ifs at h with _ hlt
  exact Option.some.inj h ▸ hlt

theorem foldlM_pushDigit_lt {cs : List Char} {n m : Nat} (hn : n < 2 ^ 64)
    (h : cs.foldlM pushDigit n = some m) : m < 2 ^ 64 := by
  induction cs generalizing n with
  | nil => exact Option.some.inj h ▸ hn
  | cons c cs ih =>
      rw [List.foldlM_cons] at h
      rcases Option.bind_eq_some_iff.1 h with ⟨k, hk, hrest⟩
      exact ih (pushDigit_lt hk) hrest

theorem parseU64_lt {s : String} {n : Nat} (h : parseU64 s = some n) : n < 2 ^ 64 := by
  unfold parseU64 at h
  dsimp only at h
  split_ifs at h
  exact foldlM_pushDigit_lt (by decide) h

example : parseU64 "+0042" = some 42 := by decide

theorem repr_injective {m n : Nat} (h : m.repr = n.repr) : m = n := by
  have hdigits : Nat.toDigits 10 m = Nat.toDigits 10 n := by
    rw [← Nat.toList_repr, h, Nat.toList_repr]
  rw [← Nat.ofDigitChars_ten_toDigits (n := m), hdigits, Nat.ofDigitChars_ten_toDigits]

/-- The decimal digits of a number end before the first character that is not a digit. -/
theorem repr_append_inj {m n : Nat} {c : Char} {x y : List Char} (hc : c.isDigit = false)
    (h : m.repr.toList ++ c :: x = n.repr.toList ++ c :: y) : m = n := by
  have htake : ∀ (k : Nat) (z : List Char),
      (k.repr.toList ++ c :: z).takeWhile Char.isDigit = k.repr.toList := by
    intro k z
    have hdigits : ∀ d ∈ k.repr.toList, d.isDigit = true := by
      intro d hd
      rw [Nat.toList_repr] at hd
      exact Nat.isDigit_of_mem_toDigits (by decide) (by decide) hd
    rw [List.takeWhile_append_of_pos hdigits, List.takeWhile_cons_of_neg (by simp [hc]),
      List.append_nil]
  have hrepr : m.repr.toList = n.repr.toList := by rw [← htake m x, h, htake]
  exact repr_injective (String.ext hrepr)

end Rust
end Aardbin
