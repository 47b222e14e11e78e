import Aardbin.PlainVendor

/-!
# What a blob is

`decrypt` accepts the sealings of the documents that name a title and a content, and nothing else.
It slices its input twice; the length check comes first, so that no input makes it panic.
-/

namespace Aardbin

/-! ## What is known of the third-party functions -/

/-- AES-256-GCM is correct and authentic, and `serde_json` reads what it wrote. -/
structure Vendor.Genuine (v : Vendor) : Prop where
  opens : ∀ (key : CryptoKey) (nonce : Nonce) (aad msg : Bytes),
    v.aeadDecrypt key.1 nonce.1 aad (v.aeadEncrypt key.1 nonce.1 aad msg) = some msg
  authentic : ∀ (key : CryptoKey) (nonce : Nonce) (aad ciphertext msg : Bytes),
    v.aeadDecrypt key.1 nonce.1 aad ciphertext = some msg →
      ciphertext = v.aeadEncrypt key.1 nonce.1 aad msg
  tagged : ∀ (key : CryptoKey) (nonce : Nonce) (aad msg : Bytes),
    (v.aeadEncrypt key.1 nonce.1 aad msg).length = msg.length + 16
  reparses : ∀ text, v.fromJson (v.toJson text) = some text

namespace Crypto

/-! ## Slices that can panic -/

/-- `slice::split_at`; `none` where Rust panics. -/
def splitAt? (b : Bytes) (mid : ℕ) : Option (Bytes × Bytes) :=
  if mid ≤ b.length then some (b.take mid, b.drop mid) else none

/-- `Nonce::from_slice`; `none` where Rust panics. -/
def nonceFromSlice? (b : Bytes) : Option Nonce :=
  if h : b.length = 12 then some ⟨b, h⟩ else none

/-- `decrypt` with its panics. -/
def decrypt? (c : Crypto) (blob : Bytes) : Option (Except DecryptError (String × String)) :=
  if blob.length < 12 + 16 then some (.error .mk)
  else do
    let (nonceBytes, ciphertext) ← splitAt? blob 12
    let nonce ← nonceFromSlice? nonceBytes
    match c.vendor.aeadDecrypt c.key.1 nonce.1 aad ciphertext with
    | none => return .error .mk
    | some json =>
        match c.vendor.fromJson json with
        | none => return .error .mk
        | some text => return .ok text

/-- The nonce in front of a blob that is long enough. -/
def nonceOf (blob : Bytes) (h : 12 + 16 ≤ blob.length) : Nonce :=
  ⟨blob.take 12, by rw [List.length_take]; omega⟩

theorem decrypt?_eq (c : Crypto) (blob : Bytes) : c.decrypt? blob = some (c.decrypt blob) := by
  unfold decrypt? decrypt
  split_ifs with hshort
  · rfl
  · -- Past the length check both slices are in bounds.
    have hsplit : splitAt? blob 12 = some (blob.take 12, blob.drop 12) := if_pos (by omega)
    have hnonce : nonceFromSlice? (blob.take 12) = some (nonceOf blob (Nat.le_of_not_lt hshort)) :=
      dif_pos _
    rw [hsplit, Option.bind_eq_bind, Option.bind_some]
    dsimp only
    rw [hnonce, Option.bind_eq_bind, Option.bind_some]
    dsimp only [nonceOf]
    cases c.vendor.aeadDecrypt c.key.1 (blob.take 12) aad (blob.drop 12) with
    | none => rfl
    | some json =>
        dsimp only
        cases c.vendor.fromJson json <;> rfl

/-! ## Sealings -/

/-- A nonce with the sealing of a document that names the title and the content. -/
def Sealing (c : Crypto) (text : String × String) (blob : Bytes) : Prop :=
  ∃ (nonce : Nonce) (json : Bytes), c.vendor.fromJson json = some text ∧
    blob = nonce.1 ++ c.vendor.aeadEncrypt c.key.1 nonce.1 aad json

section Genuine

variable {c : Crypto} (hv : c.vendor.Genuine)
include hv

theorem sealing_encrypt (nonce : Nonce) (title content : String) :
    c.Sealing (title, content) (c.encrypt nonce title content) :=
  ⟨nonce, _, hv.reparses (title, content), rfl⟩

theorem decrypt_of_sealing {text : String × String} {blob : Bytes} (h : c.Sealing text blob) :
    c.decrypt blob = .ok text := by
  rcases h with ⟨nonce, json, hjson, rfl⟩
  have hlen : ¬ (nonce.1 ++ c.vendor.aeadEncrypt c.key.1 nonce.1 aad json).length < 12 + 16 := by
    rw [List.length_append, hv.tagged, nonce.2]
    omega
  -- The nonce is cut off where `encrypt` ended it.
  have htake : (nonce.1 ++ c.vendor.aeadEncrypt c.key.1 nonce.1 aad json).take 12 = nonce.1 :=
    List.take_left' nonce.2
  have hdrop : (nonce.1 ++ c.vendor.aeadEncrypt c.key.1 nonce.1 aad json).drop 12 =
      c.vendor.aeadEncrypt c.key.1 nonce.1 aad json := List.drop_left' nonce.2
  rw [decrypt, if_neg hlen, htake, hdrop, hv.opens]
  dsimp only
  rw [hjson]

theorem undoes_of_genuine : c.Undoes :=
  fun nonce title content => decrypt_of_sealing hv (sealing_encrypt hv nonce title content)

theorem sealing_of_decrypt {text : String × String} {blob : Bytes} (h : c.decrypt blob = .ok text) :
    c.Sealing text blob := by
  unfold decrypt at h
  split_ifs at h with hshort
  split at h
  · cases h
  · rename_i json hopen
    split at h
    · cases h
    · rename_i text' hjson
      cases h
      -- What opens is what was sealed: the ciphertext is determined by the document.
      refine ⟨nonceOf blob (Nat.le_of_not_lt hshort), json, hjson, ?_⟩
      have hsealed := hv.authentic c.key (nonceOf blob (Nat.le_of_not_lt hshort)) _ _ _ hopen
      rw [← hsealed]
      exact (List.take_append_drop 12 blob).symm

/-- Blobs are read back; no input makes `decrypt` panic; what it accepts are the sealings, so that
a changed blob is rejected unless it is one. -/
theorem blob_codec :
    (∀ nonce title content,
      c.decrypt? (c.encrypt nonce title content) = some (.ok (title, content))) ∧
    (∀ blob, (c.decrypt? blob).isSome = true) ∧
    (∀ blob text, c.decrypt? blob = some (.ok text) ↔ c.Sealing text blob) ∧
    ∀ blob, (¬ ∃ text, c.Sealing text blob) → c.decrypt? blob = some (.error .mk) := by
  refine ⟨fun nonce title content => ?_, fun blob => ?_, fun blob text => ?_, fun blob hnone => ?_⟩
  · rw [decrypt?_eq, undoes_of_genuine hv]
  · rw [decrypt?_eq]
    rfl
  · rw [decrypt?_eq, Option.some.injEq]
    exact ⟨sealing_of_decrypt hv, decrypt_of_sealing hv⟩
  · rw [decrypt?_eq]
    cases hresult : c.decrypt blob with
    | error e => rfl
    | ok text => exact absurd ⟨text, sealing_of_decrypt hv hresult⟩ hnone

end Genuine

end Crypto

theorem plain_genuine : Vendor.plain.Genuine where
  opens := fun key _ _ msg => Plain.opened_sealed key.1 msg
  authentic := by
    intro key nonce aad ciphertext msg hopen
    simp only [Vendor.plain, Plain.opened] at hopen
    split_ifs at hopen with htag
    cases hopen
    exact (htag ▸ List.take_append_drop _ ciphertext).symm
  tagged := fun key _ _ msg => by simp [Vendor.plain, Plain.sealed, Plain.tag]
  reparses := Plain.fromJson_toJson

/-- Without its last byte, a blob of the plain vendor is rejected. -/
theorem blob_codec_plain :
    AppState.plain.crypto.decrypt? (AppState.plain.crypto.encrypt Plain.nonce "a" "b") =
      some (.ok ("a", "b")) ∧
    AppState.plain.crypto.decrypt? (AppState.plain.crypto.encrypt Plain.nonce "a" "b").dropLast =
      some (.error .mk) := by
  have hcodec := Crypto.blob_codec (c := AppState.plain.crypto) plain_genuine
  exact ⟨hcodec.1 Plain.nonce "a" "b", by decide +kernel⟩

end Aardbin
