import RemotePlay.Common.Protocol

/-!
# CryptoManager

Keys and buffers are byte lists. `CryptoManager` is the interface the sessions
use; the source has two builds of it. `Sodium.manager` is the libsodium build
over the library's primitives, which are a parameter; `mock` is the build
without libsodium.
-/

namespace RemotePlay.Crypto

open Lib Protocol

abbrev Key := List UInt8

structure KeyPair where
  publicKey : Key
  privateKey : Key
  deriving DecidableEq

structure CryptoManager where
  /-- Plaintext, associated data, nonce and key to ciphertext and tag; `none` when it fails. -/
  encrypt : List UInt8 → List UInt8 → UInt64 → Key → Option (List UInt8 × Bytes 16)
  /-- Ciphertext, tag, associated data, nonce and key to plaintext; `none` when it is refused. -/
  decrypt : List UInt8 → Bytes 16 → List UInt8 → UInt64 → Key → Option (List UInt8)
  /-- Own public and private key, the peer's key, the old `rxKey` and `txKey` and `isServer`, to
  the verdict and the new `rxKey` and `txKey`. -/
  deriveSessionKeys : Key → Key → Key → Key → Key → Bool → Bool × Key × Key

/-! ## The libsodium build -/

/-- The libsodium primitives in use; `none` is a non-zero return code. -/
structure Sodium where
  /-- `crypto_aead_xchacha20poly1305_ietf_encrypt_detached`: message, associated data, nonce,
  key. -/
  encryptDetached : List UInt8 → List UInt8 → List UInt8 → Key → Option (List UInt8 × Bytes 16)
  /-- `..._decrypt_detached`: ciphertext, tag, associated data, nonce, key. -/
  decryptDetached : List UInt8 → Bytes 16 → List UInt8 → List UInt8 → Key → Option (List UInt8)
  /-- `crypto_kx_server_session_keys`: own keys and the client's to `rx` and `tx`. -/
  serverSessionKeys : Key → Key → Key → Option (Key × Key)
  /-- `crypto_kx_client_session_keys`: own keys and the server's to `rx` and `tx`. -/
  clientSessionKeys : Key → Key → Key → Option (Key × Key)

namespace Sodium

/-- The 24-byte nonce: the 8 bytes of the sequence number, then zeros. -/
def npub (nonce : UInt64) : List UInt8 := leBytes 8 nonce.toNat ++ List.replicate 16 0

/-- `key.resize(32)`. -/
def resize (key : Key) : Key := key.take 32 ++ List.replicate (32 - key.length) 0

def manager (s : Sodium) : CryptoManager where
  encrypt plaintext ad nonce key := s.encryptDetached plaintext ad (npub nonce) key
  decrypt ciphertext tag ad nonce key := s.decryptDetached ciphertext tag ad (npub nonce) key
  deriveSessionKeys pub priv peer rxKey txKey isServer :=
    match if isServer then s.serverSessionKeys pub priv peer
      else s.clientSessionKeys pub priv peer with
    | some (rx, tx) => (true, rx, tx)
    | none => (false, resize rxKey, resize txKey)

section
variable {s : Sodium} {pub priv peer rxKey txKey rx tx : Key}

theorem server_of_derive (h : s.manager.deriveSessionKeys pub priv peer rxKey txKey true =
    (true, rx, tx)) : s.serverSessionKeys pub priv peer = some (rx, tx) := by
  simp only [manager, if_true] at h
  split at h
  · next hkeys =>
    cases h
    exact hkeys
  · cases h

theorem derive_of_client (h : s.clientSessionKeys pub priv peer = some (rx, tx)) :
    s.manager.deriveSessionKeys pub priv peer rxKey txKey false = (true, rx, tx) := by
  simp only [manager, Bool.false_eq_true, if_false, h]

end

end Sodium

/-! ## The build without libsodium -/

namespace Mock

/-- The XOR of all bytes. -/
def checksum (bs : List UInt8) : UInt8 := bs.foldl (· ^^^ ·) 0

/-- The 16-byte tag: checksum, low byte of the nonce, first byte of the key, then `0x55`. -/
def tag (plaintext : List UInt8) (nonce : UInt64) (key : Key) : Bytes 16 :=
  (((Vector.replicate 16 0x55).set 0 (checksum plaintext)).set 1 nonce.toUInt8).set 2 (key.headD 0)

def decrypt (ciphertext : List UInt8) (tag : Bytes 16) (nonce : UInt64) (key : Key) :
    Option (List UInt8) :=
  if tag[0] ≠ checksum ciphertext ∨ tag[1] ≠ nonce.toUInt8 ∨ tag[2] ≠ key.headD 0 then none
  else some ciphertext

/-- `key.resize(32, b)`. -/
def resize (key : Key) (b : UInt8) : Key := key.take 32 ++ List.replicate (32 - key.length) b

end Mock

def mock : CryptoManager where
  encrypt plaintext _ nonce key := some (plaintext, Mock.tag plaintext nonce key)
  decrypt ciphertext tag _ nonce key := Mock.decrypt ciphertext tag nonce key
  deriveSessionKeys _ _ _ rxKey txKey isServer :=
    if isServer then (true, Mock.resize rxKey 0xAA, Mock.resize txKey 0x55)
    else (true, Mock.resize rxKey 0x55, Mock.resize txKey 0xAA)

end RemotePlay.Crypto
