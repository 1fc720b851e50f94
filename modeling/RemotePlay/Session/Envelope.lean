import RemotePlay.Common.CryptoManager

/-!
# The secure envelope

Every sealing site fills a `SecureHeader` on its stack, passes `Encrypt` the
associated data `(uint8_t*)&sh.sessionId` of length `sizeof(SecureHeader) - 16`,
lets it write the tag into the same header and copies the header in front of
the ciphertext. The header starts with the type byte, so the slice reaches one
byte into the tag (`associatedData_eq`): the sender authenticates the byte its
uninitialised header held there, the receiver the first byte of the tag.
-/

namespace RemotePlay.Session

open Lib Protocol Crypto

/-- `sizeof(SecureHeader) - 16`. -/
def associatedDataLen : Nat := SecureHeader.size - 16

/-- The bytes from `&sh.sessionId` on, the second byte of the packed header. -/
def associatedData (sh : SecureHeader) : List UInt8 := (sh.bytes.drop 1).take associatedDataLen

/-- The header as a sealing site fills it over whatever its stack slot held. -/
def fillHeader (stack : SecureHeader) (sessionId sequenceNumber : UInt64) (size : Nat) :
    SecureHeader :=
  { stack with
    type := PacketType.secure.code
    sessionId := sessionId
    sequenceNumber := sequenceNumber
    encryptedSize := UInt16.ofNat size }

/-- The header once `Encrypt` has written its tag. -/
def withTag (sh : SecureHeader) (tag : Bytes 16) : SecureHeader := { sh with authTag := tag }

/-- Seal `packet`: the datagram, or `none` when `Encrypt` fails. -/
def sealEnvelope (cm : CryptoManager) (stack : SecureHeader) (sessionId sequenceNumber : UInt64)
    (txKey : Key) (packet : List UInt8) : Option (List UInt8) :=
  let sh := fillHeader stack sessionId sequenceNumber packet.length
  match cm.encrypt packet (associatedData sh) sh.sequenceNumber txKey with
  | some (ciphertext, tag) => some ((withTag sh tag).bytes ++ ciphertext)
  | none => none

/-- `sizeof(decrypted)` at both opening sites. -/
def decryptedSize : Nat := 2048

/-- The `Decrypt` call on the envelope at the front of `buf`. -/
def decryptEnvelope (cm : CryptoManager) (rxKey : Key) (buf : Mem) : Option (List UInt8) :=
  let sh := SecureHeader.read buf
  cm.decrypt (buf.read SecureHeader.size sh.encryptedSize.toNat) sh.authTag (associatedData sh)
    sh.sequenceNumber rxKey

/-- Open the envelope at the front of `buf`: `none` when it is too large or refused. -/
def openEnvelope (cm : CryptoManager) (rxKey : Key) (buf : Mem) : Option (List UInt8) :=
  if (SecureHeader.read buf).encryptedSize.toNat > decryptedSize then none
  else decryptEnvelope cm rxKey buf

/-- The seven sealing sites. -/
inductive SealSite where
  | hostVideo | hostAudio | hostTimeSync | clientInput | clientFeedback | clientRetransmitRequest
  | clientTimeSync
  deriving DecidableEq, Repr

/-- The size of the buffer a site seals into. -/
def SealSite.bufferSize : SealSite → Nat
  | .hostVideo | .hostAudio => 1500
  | .clientInput => 2048
  | .hostTimeSync | .clientFeedback | .clientRetransmitRequest | .clientTimeSync => 512

/-! ## The authenticated slice -/

theorem take_one_toList (v : Bytes 16) : v.toList.take 1 = [v.get 0] := by
  rw [List.take_one, List.head?_eq_getElem?]
  simp [Vector.getElem_toList]
  rfl

/-- The three fields between type and tag, and one byte of the tag. -/
theorem associatedData_eq (sh : SecureHeader) :
    associatedData sh = leBytes 8 sh.sessionId.toNat ++ (leBytes 8 sh.sequenceNumber.toNat ++
      (leBytes 2 sh.encryptedSize.toNat ++ [sh.authTag.get 0])) := by
  rw [← take_one_toList]
  simp [associatedData, associatedDataLen, SecureHeader.size, SecureHeader.bytes,
    List.take_append, List.take_of_length_le]

/-- The two ends authenticate the same slice iff the first byte of the tag is the byte the
sender's header held there. -/
theorem associatedData_withTag (sh : SecureHeader) (tag : Bytes 16) :
    associatedData (withTag sh tag) = associatedData sh ↔ sh.authTag.get 0 = tag.get 0 := by
  simp [associatedData_eq, withTag, eq_comm]

/-! ## Opening what was sealed -/

/-- What a received envelope is decrypted with: its own header and associated data. -/
theorem decryptEnvelope_of_holds (cm : CryptoManager) (rxKey : Key) {buf : Mem} {sh : SecureHeader}
    {ciphertext : List UInt8} (hm : buf.Holds 0 (sh.bytes ++ ciphertext))
    (hlen : sh.encryptedSize.toNat = ciphertext.length) :
    decryptEnvelope cm rxKey buf =
      cm.decrypt ciphertext sh.authTag (associatedData sh) sh.sequenceNumber rxKey := by
  rw [Mem.holds_append, SecureHeader.length_bytes, Nat.zero_add] at hm
  unfold decryptEnvelope
  rw [SecureHeader.read_of_holds hm.1]
  dsimp only
  rw [hlen, Mem.read_of_holds hm.2 rfl]

theorem decryptEnvelope_load (cm : CryptoManager) (rxKey : Key) (stale : Mem) (sh : SecureHeader)
    {ciphertext : List UInt8} (hlen : sh.encryptedSize.toNat = ciphertext.length) :
    decryptEnvelope cm rxKey (stale.load (sh.bytes ++ ciphertext)) =
      cm.decrypt ciphertext sh.authTag (associatedData sh) sh.sequenceNumber rxKey :=
  decryptEnvelope_of_holds cm rxKey (Mem.holds_load stale _) hlen

theorem openEnvelope_load (cm : CryptoManager) (rxKey : Key) (stale : Mem) (sh : SecureHeader)
    {ciphertext : List UInt8} (hlen : sh.encryptedSize.toNat = ciphertext.length)
    (hsize : ciphertext.length ≤ decryptedSize) :
    openEnvelope cm rxKey (stale.load (sh.bytes ++ ciphertext)) =
      cm.decrypt ciphertext sh.authTag (associatedData sh) sh.sequenceNumber rxKey := by
  have hm := Mem.holds_append.mp (Mem.holds_load stale (sh.bytes ++ ciphertext))
  unfold openEnvelope
  rw [SecureHeader.read_of_holds hm.1, if_neg (by omega), decryptEnvelope_load _ _ _ _ hlen]

/-- What is assumed of the AEAD on one envelope: the packet is encrypted, `ciphertext` and `tag`
decrypt to it under the same associated data and are refused under any other. -/
structure Sound (s : Sodium) (key : Key) (npub ad packet ciphertext : List UInt8)
    (tag : Bytes 16) : Prop where
  encrypts : s.encryptDetached packet ad npub key = some (ciphertext, tag)
  length : ciphertext.length = packet.length
  decrypts : s.decryptDetached ciphertext tag ad npub key = some packet
  binds : ∀ ad', ad' ≠ ad → s.decryptDetached ciphertext tag ad' npub key = none

theorem sealEnvelope_eq {s : Sodium} {stack : SecureHeader} {sessionId sequenceNumber : UInt64}
    {key : Key} {packet ciphertext : List UInt8} {tag : Bytes 16}
    (h : Sound s key (Sodium.npub sequenceNumber)
      (associatedData (fillHeader stack sessionId sequenceNumber packet.length))
      packet ciphertext tag) :
    sealEnvelope s.manager stack sessionId sequenceNumber key packet =
      some ((withTag (fillHeader stack sessionId sequenceNumber packet.length) tag).bytes ++
        ciphertext) := by
  simp only [sealEnvelope, Sodium.manager]
  rw [show (fillHeader stack sessionId sequenceNumber packet.length).sequenceNumber =
    sequenceNumber from rfl, h.encrypts]

theorem bufferSize_le (site : SealSite) : site.bufferSize ≤ decryptedSize := by
  cases site <;> decide

/-- **Envelope round trip.** At every sealing site and for every packet that fits its buffer, the
sealed datagram opens to the packet at the other side iff the byte the sender's stack header held
at the front of the tag is the first byte of the tag `Encrypt` computes. -/
theorem open_seal_iff (s : Sodium) (site : SealSite) (stack : SecureHeader)
    (sessionId sequenceNumber : UInt64) (key : Key) (packet ciphertext : List UInt8)
    (tag : Bytes 16) (stale : Mem)
    (hfit : SecureHeader.size + packet.length ≤ site.bufferSize)
    (haead : Sound s key (Sodium.npub sequenceNumber)
      (associatedData (fillHeader stack sessionId sequenceNumber packet.length))
      packet ciphertext tag) :
    (∃ datagram, sealEnvelope s.manager stack sessionId sequenceNumber key packet = some datagram ∧
      openEnvelope s.manager key (stale.load datagram) = some packet) ↔
    stack.authTag[0] = tag[0] := by
  have hsite := bufferSize_le site
  have hlen := haead.length
  have hsize : (UInt16.ofNat packet.length).toNat = packet.length := by
    simp only [SecureHeader.size, decryptedSize] at hfit hsite
    rw [UInt16.toNat_ofNat']; omega
  have hopen : openEnvelope s.manager key (stale.load
      ((withTag (fillHeader stack sessionId sequenceNumber packet.length) tag).bytes ++
        ciphertext)) = s.decryptDetached ciphertext tag (associatedData
          (withTag (fillHeader stack sessionId sequenceNumber packet.length) tag))
          (Sodium.npub sequenceNumber) key :=
    openEnvelope_load s.manager key stale _ (by simp only [withTag, fillHeader, hsize, hlen])
      (by omega)
  simp only [sealEnvelope_eq haead, Option.some.injEq, exists_eq_left', hopen]
  have had := associatedData_withTag (fillHeader stack sessionId sequenceNumber packet.length) tag
  by_cases h : stack.authTag[0] = tag[0]
  · rw [had.mpr h]
    exact iff_of_true haead.decrypts h
  · rw [haead.binds _ (mt had.mp h)]
    exact iff_of_false (by simp) h

/-- An AEAD that authenticates one associated data: the one given. -/
def tableSodium (ad : List UInt8) : Sodium where
  encryptDetached m _ _ _ := some (m, Vector.replicate 16 0x2A)
  decryptDetached c _ ad' _ _ := if ad' = ad then some c else none
  serverSessionKeys _ _ _ := none
  clientSessionKeys _ _ _ := none

/-- A stack slot full of `b`. -/
def staleHeader (b : UInt8) : SecureHeader := ⟨b, 0, 0, 0, Vector.replicate 16 b⟩

theorem tableSodium_sound (key : Key) (npub ad packet : List UInt8) :
    Sound (tableSodium ad) key npub ad packet packet (Vector.replicate 16 0x2A) where
  encrypts := rfl
  length := rfl
  decrypts := if_pos rfl
  binds _ h := if_neg h

/-- The sealed time-sync request `[0x0C]` of session 7, from a stack slot that happens to hold the
tag's first byte. -/
theorem open_seal_iff_lucky :
    ∃ datagram, sealEnvelope
        (tableSodium (associatedData (fillHeader (staleHeader 0x2A) 7 0 1))).manager
        (staleHeader 0x2A) 7 0 [1] [0x0C] = some datagram ∧
      openEnvelope (tableSodium (associatedData (fillHeader (staleHeader 0x2A) 7 0 1))).manager [1]
        (Mem.load (fun _ => 0) datagram) = some [0x0C] :=
  (open_seal_iff _ .clientTimeSync (staleHeader 0x2A) 7 0 [1] [0x0C] [0x0C]
    (Vector.replicate 16 0x2A) _ (by decide) (tableSodium_sound _ _ _ _)).mpr rfl

/-- The same request from a zeroed stack slot: the AEAD behaves as assumed, and the receiver
refuses the envelope. -/
theorem seal_zeroed_stack_refused :
    Sound (tableSodium (associatedData (fillHeader (staleHeader 0) 7 0 1))) [1] (Sodium.npub 0)
      (associatedData (fillHeader (staleHeader 0) 7 0 1)) [0x0C] [0x0C] (Vector.replicate 16 0x2A) ∧
    ¬ ∃ datagram, sealEnvelope
        (tableSodium (associatedData (fillHeader (staleHeader 0) 7 0 1))).manager
        (staleHeader 0) 7 0 [1] [0x0C] = some datagram ∧
      openEnvelope (tableSodium (associatedData (fillHeader (staleHeader 0) 7 0 1))).manager [1]
        (Mem.load (fun _ => 0) datagram) = some [0x0C] := by
  refine ⟨tableSodium_sound _ _ _ _, ?_⟩
  rintro ⟨datagram, hseal, hopen⟩
  revert hopen
  rw [← Option.some.inj hseal]
  decide

end RemotePlay.Session
