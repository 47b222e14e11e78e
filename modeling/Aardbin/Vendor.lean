import Aardbin.Views

/-!
# The third-party functions aardbin calls

Their code is outside the repository, so they are parameters of the model; what a result needs
to know about one of them is a hypothesis of that result.
-/

namespace Aardbin

structure Vendor where
  /-- `Aes256Gcm::encrypt`: key, nonce, associated data, message -/
  aeadEncrypt : Bytes → Bytes → Bytes → Bytes → Bytes
  /-- `Aes256Gcm::decrypt`: key, nonce, associated data, ciphertext with tag -/
  aeadDecrypt : Bytes → Bytes → Bytes → Bytes → Option Bytes
  sha256 : Bytes → Bytes
  /-- key, message -/
  hmacSha256 : Bytes → Bytes → Bytes
  /-- `serde_json::to_vec` of a title and a content -/
  toJson : String × String → Bytes
  /-- `serde_json::from_slice` into a title and a content -/
  fromJson : Bytes → Option (String × String)
  /-- `mime_guess::from_path(..).first_or_octet_stream()` -/
  mimeFromPath : String → String
  /-- the charset decoding of `Field::text`: content type, raw bytes -/
  decodeText : Option String → Bytes → String
  /-- `format!` of an `f64`: decimals, numerator, denominator -/
  formatFloat : Nat → Int → Nat → String
  /-- `OffsetDateTime::from_unix_timestamp` and its formatting -/
  formatTimestamp : Int → Option String
  /-- `Renderer::render_lang`: language and template with its context -/
  renderLang : Lang → Page → Option String

/-! ## What decoding a text does -/

/-- The byte order mark, which decoding removes from the start of a text. -/
def bom : Char := '\uFEFF'

/-- `encoding_rs` decoding of UTF-8 without errors: one byte order mark is removed. -/
def stripBom (t : String) : String :=
  if t.toList.head? = some bom then .ofList t.toList.tail else t

theorem stripBom_eq_self_iff {t : String} : stripBom t = t ↔ t.toList.head? ≠ some bom := by
  unfold stripBom
  split_ifs with h
  · refine iff_of_false (fun heq => ?_) (not_not_intro h)
    have hlen := congrArg (fun t : String => t.toList.length) heq
    cases ht : t.toList with
    | nil => simp [ht] at h
    | cons c rest => simp [ht] at hlen
  · exact iff_of_true rfl h

end Aardbin
