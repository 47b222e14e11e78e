import Aardbin.Percent
import Aardbin.Rust.Text

/-!
# The `Content-Disposition` header (`content_disposition` in `files.rs`)

The filename stands in the header twice: in ASCII with other characters replaced, for old clients,
and percent-encoded.  Neither can end its own parameter or the header, and the second one tells the
name exactly.
-/

namespace Aardbin

open Rust

/-! ## The header -/

/-- The characters that both encoders leave as they are. -/
def PlainChar (c : Char) : Prop :=
  ('a' ≤ c ∧ c ≤ 'z') ∨ ('A' ≤ c ∧ c ≤ 'Z') ∨ ('0' ≤ c ∧ c ≤ '9') ∨ c = '.' ∨ c = '-' ∨ c = '_'

instance : DecidablePred PlainChar := fun _ =>
  inferInstanceAs (Decidable (_ ∨ _))

/-- The quoted filename. -/
def fallback (originalFilename : String) : String :=
  let fallback : String := .ofList (originalFilename.toList.map fun ch =>
    if PlainChar ch ∨ ch = ' ' then ch else '_')
  if fallback.isEmpty then "file" else fallback

/-- One byte of the percent-encoded filename. -/
def encodedByte (byte : UInt8) : List Char :=
  if PlainChar (Char.ofNat byte.toNat) then [Char.ofNat byte.toNat]
  else if byte = 0x20 then "%20".toList
  else ['%', Percent.hexUpper (byte.toNat / 16), Percent.hexUpper (byte.toNat % 16)]

def encodedFilename (originalFilename : String) : String :=
  .ofList ((bytes originalFilename).flatMap encodedByte)

def contentDisposition (kind originalFilename : String) : String :=
  kind ++ "; filename=\"" ++ fallback originalFilename ++ "\"; filename*=UTF-8''" ++
    encodedFilename originalFilename

/-! ## Characters -/

/-- `attr-char` of RFC 5987. -/
def AttrChar (c : Char) : Prop :=
  PlainChar c ∨ c ∈ "!#$&+^`|~".toList

/-- A visible ASCII character or a space that needs no care in a header. -/
def HeaderChar (c : Char) : Prop :=
  0x20 ≤ c.toNat ∧ c.toNat ≤ 0x7E ∧ c ≠ '"' ∧ c ≠ '\\' ∧ c ≠ ';'

instance : DecidablePred HeaderChar := fun _ =>
  inferInstanceAs (Decidable (_ ∧ _))

/-- What holds of the characters of a literal is decided one by one, not over all of `Char`. -/
theorem of_mem_literal {P : Char → Prop} [DecidablePred P] {s : String}
    (hs : (s.toList.all fun c => decide (P c)) = true) {c : Char} (h : c ∈ s.toList) : P c :=
  of_decide_eq_true (List.all_eq_true.1 hs c h)

theorem plainChar_iff_toNat (c : Char) : PlainChar c ↔
    (97 ≤ c.toNat ∧ c.toNat ≤ 122) ∨ (65 ≤ c.toNat ∧ c.toNat ≤ 90) ∨
      (48 ≤ c.toNat ∧ c.toNat ≤ 57) ∨ c.toNat = 46 ∨ c.toNat = 45 ∨ c.toNat = 95 := by
  simp only [PlainChar, Char.le_def, UInt32.le_iff_toNat_le, ← Char.toNat_inj]
  rfl

theorem PlainChar.headerChar {c : Char} (h : PlainChar c) : HeaderChar c := by
  rw [plainChar_iff_toNat] at h
  simp only [HeaderChar, ne_eq, ← Char.toNat_inj, Char.reduceToNat]
  omega

theorem AttrChar.headerChar {c : Char} (h : AttrChar c) : HeaderChar c := by
  rcases h with h | h
  · exact h.headerChar
  · exact of_mem_literal (by decide) h

theorem headerChar_of_hexValue? {c : Char} (h : (Percent.hexValue? c).isSome = true) :
    HeaderChar c := by
  have hplain : PlainChar c := by
    simp only [Percent.hexValue?, Char.le_def, UInt32.le_iff_toNat_le, Char.toNat_val,
      Char.reduceToNat] at h
    rw [plainChar_iff_toNat]
    split_ifs at h
    · omega
    · omega
    · omega
    · cases h
  exact hplain.headerChar

/-! ## The two filenames -/

theorem fallback_ne_empty (name : String) : fallback name ≠ "" := by
  unfold fallback
  dsimp only
  split_ifs with hempty
  · decide
  · simpa using hempty

theorem headerChar_of_mem_fallback {name : String} {c : Char} (h : c ∈ (fallback name).toList) :
    HeaderChar c := by
  unfold fallback at h
  dsimp only at h
  split_ifs at h with hempty
  · exact of_mem_literal (by decide) h
  · rw [String.toList_ofList] at h
    rcases List.mem_map.1 h with ⟨ch, -, rfl⟩
    split_ifs with hkeep
    · rcases hkeep with hplain | rfl
      · exact hplain.headerChar
      · decide
    · decide

/-- The source writes the space apart, but in the same way as the other bytes. -/
theorem encodedByte_eq (b : UInt8) :
    encodedByte b = Percent.encodeByte (fun b => PlainChar (Char.ofNat b.toNat)) b := by
  unfold encodedByte Percent.encodeByte
  by_cases hspace : b = 0x20
  · subst hspace
    decide
  · simp only [if_neg hspace, decide_eq_true_eq]

theorem toList_encodedFilename (name : String) : (encodedFilename name).toList =
    Percent.encode (fun b => PlainChar (Char.ofNat b.toNat)) (bytes name) := by
  rw [encodedFilename, String.toList_ofList, Percent.encode]
  exact List.flatMap_congr fun b _ => encodedByte_eq b

theorem encoded_encodedFilename (name : String) :
    Percent.Encoded AttrChar (encodedFilename name).toList := by
  rw [toList_encodedFilename]
  exact Percent.encoded_encode (fun b hb => .inl (of_decide_eq_true hb)) _

theorem headerChar_of_mem_encoded {name : String} {c : Char}
    (h : c ∈ (encodedFilename name).toList) : HeaderChar c := by
  rcases (encoded_encodedFilename name).mem h with hattr | rfl | hhex
  · exact hattr.headerChar
  · decide
  · exact headerChar_of_hexValue? hhex

theorem decode_encodedFilename (name : String) :
    Percent.decode (encodedFilename name).toList = some (bytes name) := by
  rw [toList_encodedFilename]
  refine Percent.decode_encode (fun b hb => ?_) _
  -- A byte that is kept is an ASCII letter, digit or one of three marks, and no percent sign.
  have hb' : PlainChar (Char.ofNat b.toNat) := of_decide_eq_true hb
  have hlt : b.toNat < 256 := b.toNat_lt_size
  rw [plainChar_iff_toNat, Percent.toNat_ofNat (by omega)] at hb'
  omega

/-! ## The whole header -/

/-- What a client can rely on. -/
structure WellFormed (kind name header : String) : Prop where
  visible : ∀ c ∈ header.toList, 0x20 ≤ c.toNat ∧ c.toNat ≤ 0x7E
  quotes : header.toList.count '"' = 2
  backslash : '\\' ∉ header.toList
  semicolons : header.toList.count ';' = 2
  parameters : ∃ quoted encoded, header =
      kind ++ "; filename=\"" ++ quoted ++ "\"; filename*=UTF-8''" ++ encoded ∧
    quoted ≠ "" ∧ Percent.Encoded AttrChar encoded.toList ∧
    Percent.decode encoded.toList = some (bytes name)

theorem toList_contentDisposition (kind name : String) :
    (contentDisposition kind name).toList = kind.toList ++ ("; filename=\"".toList ++
      ((fallback name).toList ++ ("\"; filename*=UTF-8''".toList ++
        (encodedFilename name).toList))) := by
  simp only [contentDisposition, String.toList_append, List.append_assoc]

theorem headerChar_of_mem_kind {kind : String} (hkind : kind = "inline" ∨ kind = "attachment")
    {c : Char} (h : c ∈ kind.toList) : HeaderChar c := by
  rcases hkind with rfl | rfl
  · exact of_mem_literal (by decide) h
  · exact of_mem_literal (by decide) h

/-- The characters that need care are those of the header's own punctuation. -/
theorem count_contentDisposition {kind : String} (hkind : kind = "inline" ∨ kind = "attachment")
    (name : String) {c : Char} (hc : ¬ HeaderChar c) :
    (contentDisposition kind name).toList.count c =
      "; filename=\"".toList.count c + "\"; filename*=UTF-8''".toList.count c := by
  have hkindZero : kind.toList.count c = 0 :=
    List.count_eq_zero.2 fun h => hc (headerChar_of_mem_kind hkind h)
  have hfallbackZero : (fallback name).toList.count c = 0 :=
    List.count_eq_zero.2 fun h => hc (headerChar_of_mem_fallback h)
  have hencodedZero : (encodedFilename name).toList.count c = 0 :=
    List.count_eq_zero.2 fun h => hc (headerChar_of_mem_encoded h)
  simp only [toList_contentDisposition, List.count_append, hkindZero, hfallbackZero, hencodedZero]
  omega

theorem wellFormed_contentDisposition {kind : String}
    (hkind : kind = "inline" ∨ kind = "attachment") (name : String) :
    WellFormed kind name (contentDisposition kind name) where
  visible := by
    intro c hc
    simp only [toList_contentDisposition, List.mem_append] at hc
    rcases hc with hc | hc | hc | hc | hc
    · have h := headerChar_of_mem_kind hkind hc
      exact ⟨h.1, h.2.1⟩
    · exact of_mem_literal (P := fun c => 0x20 ≤ c.toNat ∧ c.toNat ≤ 0x7E) (by decide) hc
    · have h := headerChar_of_mem_fallback hc
      exact ⟨h.1, h.2.1⟩
    · exact of_mem_literal (P := fun c => 0x20 ≤ c.toNat ∧ c.toNat ≤ 0x7E) (by decide) hc
    · have h := headerChar_of_mem_encoded hc
      exact ⟨h.1, h.2.1⟩
  quotes := by
    rw [count_contentDisposition hkind name (by decide)]
    decide
  backslash := by
    rw [← List.count_eq_zero, count_contentDisposition hkind name (by decide)]
    decide
  semicolons := by
    rw [count_contentDisposition hkind name (by decide)]
    decide
  parameters := ⟨fallback name, encodedFilename name, rfl, fallback_ne_empty name,
    encoded_encodedFilename name, decode_encodedFilename name⟩

/-- The text between the quotes ends at the second quote. -/
theorem encodedFilename_eq_of_header {kind name name' : String}
    (h : contentDisposition kind name = contentDisposition kind name') :
    encodedFilename name = encodedFilename name' := by
  have hdrop : ∀ (n : String) (rest : List Char),
      ((fallback n).toList ++ '"' :: rest).dropWhile (fun c => c ≠ '"') = '"' :: rest := by
    intro n rest
    rw [List.dropWhile_append_of_pos, List.dropWhile_cons_of_neg (by simp)]
    intro c hc
    simpa using (headerChar_of_mem_fallback hc).2.2.1
  have hlists := congrArg String.toList h
  rw [toList_contentDisposition, toList_contentDisposition] at hlists
  have htails := List.append_cancel_left (List.append_cancel_left hlists)
  -- The quoted names have no quote in them, so that both texts go on after the same one.
  have hrest := congrArg (List.dropWhile fun c => decide (c ≠ '"')) htails
  have hquote : "\"; filename*=UTF-8''".toList = '"' :: "; filename*=UTF-8''".toList := rfl
  rw [hquote, List.cons_append, List.cons_append, hdrop, hdrop] at hrest
  exact String.toList_inj.1 (List.append_cancel_left (List.cons.inj hrest).2)

/-- The header is safe for every filename, and tells it exactly. -/
theorem contentDisposition_faithful {kind : String}
    (hkind : kind = "inline" ∨ kind = "attachment") (name : String) :
    WellFormed kind name (contentDisposition kind name) ∧
      ∀ name', contentDisposition kind name = contentDisposition kind name' → name = name' := by
  refine ⟨wellFormed_contentDisposition hkind name, fun name' h => ?_⟩
  have hbytes : some (bytes name) = some (bytes name') :=
    calc
      some (bytes name) = Percent.decode (encodedFilename name).toList :=
        (decode_encodedFilename name).symm
      _ = Percent.decode (encodedFilename name').toList := by rw [encodedFilename_eq_of_header h]
      _ = some (bytes name') := decode_encodedFilename name'
  exact bytes_inj.1 (Option.some.inj hbytes)

/-- A name with a quote, a percent sign, a line break and a character outside ASCII. -/
theorem contentDisposition_faithful_hostile :
    WellFormed "attachment" "a\"%\n截" (contentDisposition "attachment" "a\"%\n截") ∧
      contentDisposition "attachment" "a\"%\n截" =
        "attachment; filename=\"a____\"; filename*=UTF-8''a%22%25%0A%E6%88%AA" :=
  ⟨(contentDisposition_faithful (.inr rfl) "a\"%\n截").1, by decide +kernel⟩

end Aardbin
