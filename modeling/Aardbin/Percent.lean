import Mathlib.Data.List.Basic
import Mathlib.Tactic.Common

/-!
# Percent-encoding

A string of bytes is written with the bytes of a set `keep` as they are and the others as `%`
with two hexadecimal digits.  Reading it back gives the same bytes.
-/

namespace Percent

/-! ## Hexadecimal digits -/

def hexUpper (n : ℕ) : Char :=
  if n < 10 then Char.ofNat (48 + n) else Char.ofNat (55 + n)

def hexValue? (c : Char) : Option ℕ :=
  if '0' ≤ c ∧ c ≤ '9' then some (c.toNat - 48)
  else if 'A' ≤ c ∧ c ≤ 'F' then some (c.toNat - 55)
  else if 'a' ≤ c ∧ c ≤ 'f' then some (c.toNat - 87)
  else none

theorem hexValue?_hexUpper : ∀ n < 16, hexValue? (hexUpper n) = some n := by
  decide

theorem toNat_ofNat {n : ℕ} (h : n < 0xd800) : (Char.ofNat n).toNat = n := by
  have hvalid : n.isValidChar := .inl h
  rw [Char.ofNat, dif_pos hvalid]
  rfl

/-! ## Encoding and decoding -/

section Encode

variable (keep : UInt8 → Bool)

def encodeByte (b : UInt8) : List Char :=
  if keep b then [Char.ofNat b.toNat]
  else ['%', hexUpper (b.toNat / 16), hexUpper (b.toNat % 16)]

def encode (bs : List UInt8) : List Char :=
  bs.flatMap (encodeByte keep)

end Encode

/-- A character other than `%` stands for itself. -/
def decode : List Char → Option (List UInt8)
  | [] => some []
  | '%' :: hi :: lo :: rest =>
      match hexValue? hi, hexValue? lo, decode rest with
      | some h, some l, some bs => some ((16 * h + l).toUInt8 :: bs)
      | _, _, _ => none
  | c :: rest =>
      if c = '%' ∨ 128 ≤ c.toNat then none else (decode rest).map (c.toNat.toUInt8 :: ·)

theorem decode_cons_of_ne {c : Char} (hc : c ≠ '%') (hascii : c.toNat < 128) (rest : List Char) :
    decode (c :: rest) = (decode rest).map (c.toNat.toUInt8 :: ·) := by
  rw [decode.eq_def]
  split
  · rename_i heq
    cases heq
  · rename_i heq
    cases heq
    exact absurd rfl hc
  · rename_i heq
    cases heq
    exact if_neg (not_or.2 ⟨hc, Nat.not_le.2 hascii⟩)

/-- Characters of a set and triplets of `%` with two hexadecimal digits. -/
inductive Encoded (plain : Char → Prop) : List Char → Prop
  | nil : Encoded plain []
  | plain {c : Char} {rest : List Char} :
      plain c → Encoded plain rest → Encoded plain (c :: rest)
  | triplet {hi lo : Char} {rest : List Char} :
      (hexValue? hi).isSome = true → (hexValue? lo).isSome = true → Encoded plain rest →
      Encoded plain ('%' :: hi :: lo :: rest)

theorem Encoded.mem {plain : Char → Prop} {cs : List Char} (h : Encoded plain cs) {c : Char}
    (hc : c ∈ cs) : plain c ∨ c = '%' ∨ (hexValue? c).isSome = true := by
  induction h with
  | nil => cases hc
  | plain hplain _ ih =>
      rcases List.mem_cons.1 hc with rfl | hc
      · exact .inl hplain
      · exact ih hc
  | triplet hhi hlo _ ih =>
      simp only [List.mem_cons] at hc
      rcases hc with rfl | rfl | rfl | hc
      · exact .inr (.inl rfl)
      · exact .inr (.inr hhi)
      · exact .inr (.inr hlo)
      · exact ih hc

section Laws

variable {keep : UInt8 → Bool}

theorem encoded_encode {plain : Char → Prop}
    (hplain : ∀ b, keep b = true → plain (Char.ofNat b.toNat)) (bs : List UInt8) :
    Encoded plain (encode keep bs) := by
  induction bs with
  | nil => exact .nil
  | cons b bs ih =>
      have hb : b.toNat < 256 := b.toNat_lt_size
      rw [encode, List.flatMap_cons, encodeByte]
      split_ifs with hkeep
      · exact .plain (hplain b hkeep) ih
      · refine .triplet ?_ ?_ ih
        · rw [hexValue?_hexUpper _ (by omega)]
          rfl
        · rw [hexValue?_hexUpper _ (by omega)]
          rfl

/-- One byte is read back, whatever follows. -/
theorem decode_encodeByte (hkeep : ∀ b, keep b = true → b.toNat < 128 ∧ b.toNat ≠ 37) (b : UInt8)
    (rest : List Char) : decode (encodeByte keep b ++ rest) = (decode rest).map (b :: ·) := by
  have hb : b.toNat < 256 := b.toNat_lt_size
  unfold encodeByte
  split_ifs with hb'
  · rcases hkeep b hb' with ⟨hlt, hne⟩
    have hval : (Char.ofNat b.toNat).toNat = b.toNat := toNat_ofNat (by omega)
    have hpercent : Char.ofNat b.toNat ≠ '%' := by
      intro heq
      exact hne (by rw [← hval, heq]; rfl)
    rw [List.singleton_append, decode_cons_of_ne hpercent (by omega), hval]
    simp
  · have hhi := hexValue?_hexUpper (b.toNat / 16) (by omega)
    have hlo := hexValue?_hexUpper (b.toNat % 16) (by omega)
    have hbyte : (16 * (b.toNat / 16) + b.toNat % 16).toUInt8 = b := by
      rw [Nat.div_add_mod, Nat.toUInt8_eq, UInt8.ofNat_toNat]
    simp only [List.cons_append, List.nil_append, decode, hhi, hlo]
    cases decode rest with
    | none => rfl
    | some bs => exact congrArg (fun x => some (x :: bs)) hbyte

theorem decode_encode (hkeep : ∀ b, keep b = true → b.toNat < 128 ∧ b.toNat ≠ 37)
    (bs : List UInt8) : decode (encode keep bs) = some bs := by
  induction bs with
  | nil => rfl
  | cons b bs ih =>
      rw [encode, List.flatMap_cons, decode_encodeByte hkeep]
      exact congrArg (Option.map (b :: ·)) ih

end Laws

end Percent
