import Aardbin.Handlers

/-!
# Third-party functions that can be computed

`Vendor.plain` stands in for the third-party crates where a concrete run has to be evaluated: its
JSON is that of `serde_json` on printable ASCII text, it reads UTF-8 without errors, and its cipher
only appends a 16-byte tag that depends on the key.  It decrypts what it encrypted, under the same
key and under no key with another tag.
-/

namespace Aardbin

open Rust

namespace Plain

/-! ## JSON -/

def ascii (s : String) : Bytes :=
  s.toList.map fun c => c.toNat.toUInt8

/-- Printable ASCII that JSON does not escape. -/
def isPlain (c : Char) : Bool :=
  0x20 ≤ c.toNat && c.toNat < 0x7f && c.toNat != 0x22 && c.toNat != 0x5c

def escape (c : Char) : Bytes :=
  if isPlain c then [c.toNat.toUInt8]
  else [0x5c, (c.toNat / 65536).toUInt8, (c.toNat / 256).toUInt8, c.toNat.toUInt8]

/-- Reads escaped characters up to the closing quote. -/
def unescape : Bytes → List Char → Option (List Char × Bytes)
  | [], _ => none
  | 0x22 :: rest, acc => some (acc.reverse, rest)
  | 0x5c :: b₂ :: b₁ :: b₀ :: rest, acc =>
      unescape rest (Char.ofNat (b₂.toNat * 65536 + b₁.toNat * 256 + b₀.toNat) :: acc)
  | b :: rest, acc => unescape rest (Char.ofNat b.toNat :: acc)

theorem unescape_escape (c : Char) (rest : Bytes) (acc : List Char) :
    unescape (escape c ++ rest) acc = unescape rest (c :: acc) := by
  unfold escape
  split_ifs with hc
  · simp only [isPlain, Bool.and_eq_true, decide_eq_true_eq, bne_iff_ne, ne_eq] at hc
    rcases hc with ⟨⟨⟨hlo, hhi⟩, hquote⟩, hslash⟩
    have hb : c.toNat.toUInt8.toNat = c.toNat := by
      simp [Nat.mod_eq_of_lt (show c.toNat < 256 by omega)]
    have hchar : Char.ofNat c.toNat.toUInt8.toNat = c := by rw [hb, Char.ofNat_toNat]
    have hne₁ : c.toNat.toUInt8 ≠ 0x22 := by
      intro h
      exact hquote (by rw [← hb, h]; rfl)
    have hne₂ : c.toNat.toUInt8 ≠ 0x5c := by
      intro h
      exact hslash (by rw [← hb, h]; rfl)
    rw [List.singleton_append, unescape, hchar]
    · exact hne₁
    · intro b₂ b₁ b₀ rest' h
      exact absurd h hne₂
  · -- A character is below 2 ^ 24, so three bytes hold it.
    have hmax : c.toNat < 0x110000 := by
      rcases c.valid with h | h
      · have := h; simp only [Char.toNat]; omega
      · have := h.2; simp only [Char.toNat]; omega
    have hchar : Char.ofNat ((c.toNat / 65536).toUInt8.toNat * 65536 +
        (c.toNat / 256).toUInt8.toNat * 256 + c.toNat.toUInt8.toNat) = c := by
      have hsum : (c.toNat / 65536).toUInt8.toNat * 65536 + (c.toNat / 256).toUInt8.toNat * 256 +
          c.toNat.toUInt8.toNat = c.toNat := by
        simp only [Nat.toUInt8_eq, UInt8.toNat_ofNat']
        omega
      rw [hsum, Char.ofNat_toNat]
    simp only [List.cons_append, List.nil_append, unescape, hchar]

theorem unescape_flatMap (cs : List Char) (rest : Bytes) (acc : List Char) :
    unescape (cs.flatMap escape ++ 0x22 :: rest) acc = some (acc.reverse ++ cs, rest) := by
  induction cs generalizing acc with
  | nil => simp [unescape]
  | cons c cs ih =>
      rw [List.flatMap_cons, List.append_assoc, unescape_escape, ih]
      simp

def toJson (text : String × String) : Bytes :=
  ascii "\x7b\"title\":\"" ++ (text.1.toList.flatMap escape ++ 0x22 ::
    (ascii ",\"content\":\"" ++ (text.2.toList.flatMap escape ++ 0x22 :: ascii "\x7d")))

/-- What is left of `b` after the literal `lit`. -/
def expect (lit : String) (b : Bytes) : Option Bytes :=
  if (ascii lit).isPrefixOf b then some (b.drop (ascii lit).length) else none

theorem expect_append (lit : String) (rest : Bytes) : expect lit (ascii lit ++ rest) = some rest := by
  simp [expect]

def fromJson (b : Bytes) : Option (String × String) := do
  let (title, b) ← unescape (← expect "\x7b\"title\":\"" b) []
  let (content, b) ← unescape (← expect ",\"content\":\"" b) []
  if b = ascii "\x7d" then some (.ofList title, .ofList content) else none

theorem fromJson_toJson (text : String × String) : fromJson (toJson text) = some text := by
  simp [fromJson, toJson, expect_append, unescape_flatMap]

/-! ## UTF-8 -/

/-- The characters that were read, in reverse, the bits of the next one, and how many bytes of it
are missing. -/
def utf8Step : List Char × Nat × Nat → UInt8 → List Char × Nat × Nat
  | (cs, code, n + 1), b =>
      let code := code * 64 + b.toNat % 64
      if n = 0 then (Char.ofNat code :: cs, 0, 0) else (cs, code, n)
  | (cs, _, 0), b =>
      if b.toNat < 0x80 then (Char.ofNat b.toNat :: cs, 0, 0)
      else if b.toNat < 0xe0 then (cs, b.toNat % 32, 1)
      else if b.toNat < 0xf0 then (cs, b.toNat % 16, 2)
      else (cs, b.toNat % 8, 3)

def utf8 (b : Bytes) : String :=
  .ofList (b.foldl utf8Step ([], 0, 0)).1.reverse

section Steps

variable {cs : List Char} {code n : Nat}

theorem utf8Step_one (h : n < 128) :
    utf8Step (cs, code, 0) (.ofNat n) = (Char.ofNat n :: cs, 0, 0) := by
  rw [utf8Step, UInt8.toNat_ofNat_of_lt' (show _ < 256 by omega), if_pos h]

theorem utf8Step_two (h : n < 32) : utf8Step (cs, code, 0) (.ofNat (n + 0xc0)) = (cs, n, 1) := by
  rw [utf8Step, UInt8.toNat_ofNat_of_lt' (show _ < 256 by omega), if_neg (by omega),
    if_pos (by omega)]
  simp only [Prod.mk.injEq, true_and, and_true]
  omega

theorem utf8Step_three (h : n < 16) : utf8Step (cs, code, 0) (.ofNat (n + 0xe0)) = (cs, n, 2) := by
  rw [utf8Step, UInt8.toNat_ofNat_of_lt' (show _ < 256 by omega), if_neg (by omega),
    if_neg (by omega), if_pos (by omega)]
  simp only [Prod.mk.injEq, true_and, and_true]
  omega

theorem utf8Step_four (h : n < 8) : utf8Step (cs, code, 0) (.ofNat (n + 0xf0)) = (cs, n, 3) := by
  rw [utf8Step, UInt8.toNat_ofNat_of_lt' (show _ < 256 by omega), if_neg (by omega),
    if_neg (by omega), if_neg (by omega)]
  simp only [Prod.mk.injEq, true_and, and_true]
  omega

theorem utf8Step_next (h : n < 64) {k : Nat} :
    utf8Step (cs, code, k + 2) (.ofNat (n + 0x80)) = (cs, code * 64 + n, k + 1) := by
  rw [utf8Step, UInt8.toNat_ofNat_of_lt' (show _ < 256 by omega)]
  simp only [Nat.add_eq_zero_iff, one_ne_zero, and_false, if_false, Prod.mk.injEq, true_and,
    and_true]
  omega

theorem utf8Step_last (h : n < 64) :
    utf8Step (cs, code, 1) (.ofNat (n + 0x80)) = (Char.ofNat (code * 64 + n) :: cs, 0, 0) := by
  rw [utf8Step, UInt8.toNat_ofNat_of_lt' (show _ < 256 by omega)]
  simp only [if_true, Prod.mk.injEq, List.cons.injEq, and_true]
  congr 1
  omega

end Steps

theorem utf8_char (c : Char) (cs : List Char) :
    (String.utf8EncodeChar c).foldl utf8Step (cs, 0, 0) = (c :: cs, 0, 0) := by
  have hmax : c.val.toNat < 0x110000 := by
    rcases c.valid with h | h
    · exact h.trans (by decide)
    · exact h.2
  have hchar : Char.ofNat c.val.toNat = c := Char.ofNat_toNat c
  unfold String.utf8EncodeChar
  generalize c.val.toNat = v at hmax hchar ⊢
  dsimp only
  -- One case for each length of the encoding; the bits of its bytes make up the code point again.
  split_ifs with h₁ h₂ h₃
  · rw [List.foldl_cons, utf8Step_one (by omega), hchar, List.foldl_nil]
  · have hv : v / 64 % 32 * 64 + v % 64 = v := by omega
    rw [List.foldl_cons, utf8Step_two (by omega), List.foldl_cons, utf8Step_last (by omega), hv,
      hchar, List.foldl_nil]
  · have hv : (v / 4096 % 16 * 64 + v / 64 % 64) * 64 + v % 64 = v := by omega
    rw [List.foldl_cons, utf8Step_three (by omega), List.foldl_cons, utf8Step_next (by omega),
      List.foldl_cons, utf8Step_last (by omega), hv, hchar, List.foldl_nil]
  · have hv : ((v / 262144 % 8 * 64 + v / 4096 % 64) * 64 + v / 64 % 64) * 64 + v % 64 = v := by
      omega
    rw [List.foldl_cons, utf8Step_four (by omega), List.foldl_cons, utf8Step_next (by omega),
      List.foldl_cons, utf8Step_next (by omega), List.foldl_cons, utf8Step_last (by omega), hv,
      hchar, List.foldl_nil]

theorem utf8_bytes (t : String) : utf8 (bytes t) = t := by
  have hfold : ∀ (chars cs : List Char), (chars.flatMap String.utf8EncodeChar).foldl utf8Step
      (cs, 0, 0) = (chars.reverse ++ cs, 0, 0) := by
    intro chars
    induction chars with
    | nil => exact fun _ => rfl
    | cons c chars ih =>
        intro cs
        rw [List.flatMap_cons, List.foldl_append, utf8_char, ih]
        simp
  simp [utf8, bytes_eq_flatMap, hfold]

/-! ## The cipher -/

def tag (key : Bytes) : Bytes :=
  List.replicate 16 (key.foldl (· + ·) 0)

def sealed (key : Bytes) (msg : Bytes) : Bytes :=
  msg ++ tag key

def opened (key : Bytes) (b : Bytes) : Option Bytes :=
  if b.drop (b.length - 16) = tag key then some (b.take (b.length - 16)) else none

theorem opened_sealed (key msg : Bytes) : opened key (sealed key msg) = some msg := by
  simp [opened, sealed, tag]

end Plain

/-! ## The vendor -/

def Vendor.plain : Vendor where
  aeadEncrypt := fun key _ _ msg => Plain.sealed key msg
  aeadDecrypt := fun key _ _ b => Plain.opened key b
  sha256 := fun b => b
  hmacSha256 := fun key msg => key ++ msg
  toJson := Plain.toJson
  fromJson := Plain.fromJson
  mimeFromPath := fun _ => "application/octet-stream"
  decodeText := fun _ b => stripBom (Plain.utf8 b)
  formatFloat := fun _ num den => toString (num / den)
  formatTimestamp := fun ts => if 0 ≤ ts ∧ ts < 60 then some "1970-01-01 00:00" else none
  renderLang := fun _ _ => some ""

theorem plain_undoes (key : CryptoKey) : ({ vendor := .plain, key } : Crypto).Undoes := by
  intro nonce title content
  have hlen : ¬ (nonce.1 ++ Plain.sealed key.1 (Plain.toJson (title, content))).length < 12 + 16 := by
    simp only [Plain.sealed, Plain.tag, List.length_append, List.length_replicate, nonce.2]
    omega
  have hdrop : (nonce.1 ++ Plain.sealed key.1 (Plain.toJson (title, content))).drop 12 =
      Plain.sealed key.1 (Plain.toJson (title, content)) := List.drop_left' nonce.2
  unfold Crypto.decrypt Crypto.encrypt
  simp only [Vendor.plain, hlen, if_false, hdrop, Plain.opened_sealed, Plain.fromJson_toJson]

theorem plain_decodes (contentType : Option String) (t : String) :
    Vendor.plain.decodeText contentType (bytes t) = stripBom t :=
  congrArg stripBom (Plain.utf8_bytes t)

def Plain.nonce : Nonce :=
  ⟨List.replicate 12 0, rfl⟩

/-- A process with `Vendor.plain`. -/
def AppState.plain : AppState where
  vendor := .plain
  cfg :=
    { accessKey := "open sesame, please", cryptoKey := ⟨.replicate 32 7, rfl⟩
      maxAttachmentBytes := 50, maxRequestBytes := 1000, maxContentBytes := 100, pageSize := 2
      sessionTtl := 604800, cookieSecure := true }

/-! ## Stores and requests of concrete runs -/

/-- A store with one record. -/
def oneRecord : Store :=
  { Store.empty with
    db :=
      { Db.empty with
        records := [{ id := "r1", blob := AppState.plain.crypto.encrypt Plain.nonce "a" "b"
                      createdAt := 0, updatedAt := 0 }]
        recordsKey := by simp
        foreignKey := by simp } }

/-- A record with an attachment. -/
def oneAttachment : Store :=
  { oneRecord with
    db :=
      { oneRecord.db with
        attachments := [attachmentRow "r1" 0
          { id := "a1", originalFilename := "a.bin", mimeType := "", size := 1 }]
        attachmentsKey := by simp
        foreignKey := by simp [attachmentRow, oneRecord] } }

def textPart (name text : String) : Part :=
  { name := some name, chunks := [Plain.ascii text] }

def filePart (filename : String) (b : Bytes) : Part :=
  { name := some "files", fileName := some filename, chunks := [b] }

def noHeaders : HeaderMap := fun _ => none

/-- A form with a title, a content and the given files. -/
def form (title content : String) (files : List Bytes) : Multipart :=
  .ok (textPart "title" title) :: .ok (textPart "content" content) ::
    files.map fun b => .ok (filePart "a.bin" b)

/-- Request `i` takes one step in each of the given environments. -/
def stepsOf (i : ℕ) (envs : List Env) : List (Effect.Move Env Boot Request) :=
  envs.map fun e => .step i e

end Aardbin
