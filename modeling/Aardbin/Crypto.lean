import Aardbin.Config

/-!
# Encryption of title and content (`crypto.rs`)

A blob is a 12-byte nonce followed by the ciphertext and the 16-byte tag of a JSON document.
-/

namespace Aardbin

def Nonce : Type := { n : Bytes // n.length = 12 }

inductive DecryptError
  | mk
  deriving DecidableEq, Repr

structure Crypto where
  vendor : Vendor
  key : CryptoKey

namespace Crypto

/-- The associated data `aardbin-record-v1`. -/
def aad : Bytes :=
  "aardbin-record-v1".toList.map fun c => c.toNat.toUInt8

def encrypt (c : Crypto) (nonce : Nonce) (title content : String) : Bytes :=
  nonce.1 ++ c.vendor.aeadEncrypt c.key.1 nonce.1 aad (c.vendor.toJson (title, content))

def decrypt (c : Crypto) (blob : Bytes) : Except DecryptError (String × String) :=
  if blob.length < 12 + 16 then .error .mk
  else
    match c.vendor.aeadDecrypt c.key.1 (blob.take 12) aad (blob.drop 12) with
    | none => .error .mk
    | some json =>
        match c.vendor.fromJson json with
        | none => .error .mk
        | some text => .ok text

/-- Whatever `encrypt` builds under this key, `decrypt` reads back. -/
def Undoes (c : Crypto) : Prop :=
  ∀ nonce title content, c.decrypt (c.encrypt nonce title content) = .ok (title, content)

/-- The blob can be read under this key. -/
def Reads (c : Crypto) (blob : Bytes) : Prop :=
  ∃ text, c.decrypt blob = .ok text

theorem reads_iff {c : Crypto} {blob : Bytes} :
    c.Reads blob ↔ (c.decrypt blob).toOption.isSome = true := by
  unfold Reads
  cases c.decrypt blob <;> simp [Except.toOption]

instance (c : Crypto) (blob : Bytes) : Decidable (c.Reads blob) :=
  decidable_of_iff _ reads_iff.symm

theorem Undoes.reads {c : Crypto} (h : c.Undoes) (nonce : Nonce) (title content : String) :
    c.Reads (c.encrypt nonce title content) :=
  ⟨_, h nonce title content⟩

end Crypto

end Aardbin
