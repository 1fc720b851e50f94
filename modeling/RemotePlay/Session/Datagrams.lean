import RemotePlay.Client.SessionIntegrity
import RemotePlay.Host.ReceiverThread

/-!
# Every datagram, on both sides

The results about datagram loops for the two loops of the program: the client's
network thread in any session state, and the host's receiver thread in any
context, whatever its other threads do between the passes.
-/

namespace RemotePlay.Session

open Lib Protocol Client Host

/-- The envelope that the client comes to in a datagram. -/
def clientExamined (input : NetInput) (c : ClientSession) (buf : Mem) (len : Nat) :
    Option DecryptCall :=
  (NetThread.loop input).examined (.receive c buf len)

/-- The envelope that the host comes to in a datagram. -/
def hostExamined (input : HostInput) (world : Nat → HostContext → HostContext) (ctx : HostContext)
    (buf : Mem) (len : Nat) : Option DecryptCall :=
  (ReceiverThread.loop input world).examined (.receive ctx buf len)

/-- **Termination of datagram processing.** On either side the loop over a datagram makes progress
in every pass and ends iff the envelope of a known session that it comes to, in the datagram or in
a relay packet, has an `encryptedSize` of at most the output buffer. -/
theorem datagram_terminates_iff (len : Nat) (hlen : 0 < len) (buf : Mem) :
    (∀ (input : NetInput) (c : ClientSession),
      (NetThread.loop input).Terminates (.receive c buf len) ↔
        ∀ call, clientExamined input c buf len = some call →
          call.encryptedSize ≤ decryptedSize) ∧
    (∀ (input : HostInput) (world : Nat → HostContext → HostContext) (ctx : HostContext),
      (ReceiverThread.loop input world).Terminates (.receive ctx buf len) ↔
        ∀ call, hostExamined input world ctx buf len = some call →
          call.encryptedSize ≤ decryptedSize) :=
  ⟨fun input _ => (NetThread.loop input).terminates_iff hlen,
    fun input world _ => (ReceiverThread.loop input world).terminates_iff hlen⟩

/-- The header of an envelope of session 7 with a zero tag. -/
def forgedHeader (encryptedSize : UInt16) : SecureHeader :=
  ⟨PacketType.secure.code, 7, 0, encryptedSize, Vector.replicate 16 0⟩

def forgedEnvelope (encryptedSize : UInt16) : Mem :=
  Mem.load (fun _ => 0) (forgedHeader encryptedSize).bytes

/-- The loop over an envelope with no ciphertext, at the established client. -/
theorem datagram_terminates_empty :
    (NetThread.loop (NetThread.fromHost 2)).Terminates
      (.receive NetThread.established (forgedEnvelope 0) 35) :=
  ((datagram_terminates_iff 35 (by decide) (forgedEnvelope 0)).1 (NetThread.fromHost 2)
    NetThread.established).mpr (by decide)

/-- A forged envelope for the client's session with the largest `encryptedSize` keeps the network
thread in the loop forever. -/
theorem oversized_never_ends :
    NetThread.established.handshakeApproved = true ∧
    ¬ Loop.Ends (NetThread.loop (NetThread.fromHost 2)).guard
      (NetThread.loop (NetThread.fromHost 2)).pass 0
      (.receive NetThread.established (forgedEnvelope 0xFFFF) 35) := by
  have henv : (NetThread.receive NetThread.established (forgedEnvelope 0xFFFF) 35).envelope =
      some 0xFFFF := by decide
  refine ⟨by decide, Loop.not_ends_of_stuck (by decide) (fun _ => ?_) 0⟩
  show (NetThread.receive NetThread.established (forgedEnvelope 0xFFFF) 35).pass
    (NetThread.fromHost 2) = _
  rw [NetThread.pass_of_envelope henv, if_pos (by decide)]

/-- **Bounds of `Decrypt`.** On either side every call of `Decrypt` stays inside the received
bytes, and an envelope that does not is dropped without one, iff the envelope of a known session
that the loop comes to ends inside its datagram. -/
theorem decrypt_inBounds_iff (len : Nat) (hlen : 0 < len) (buf : Mem) :
    (∀ (input : NetInput) (c : ClientSession),
      (NetThread.loop input).InBounds (.receive c buf len) ↔
        ∀ call, clientExamined input c buf len = some call → call.InRange) ∧
    (∀ (input : HostInput) (world : Nat → HostContext → HostContext) (ctx : HostContext),
      (ReceiverThread.loop input world).InBounds (.receive ctx buf len) ↔
        ∀ call, hostExamined input world ctx buf len = some call → call.InRange) :=
  ⟨fun input _ => (NetThread.loop input).inBounds_iff hlen rfl,
    fun input world _ => (ReceiverThread.loop input world).inBounds_iff hlen rfl⟩

/-- An envelope with 40 bytes of ciphertext, and five bytes behind it. -/
theorem decrypt_inBounds_forty :
    clientExamined (NetThread.fromHost 2) NetThread.established (forgedEnvelope 40) 80 =
        some ⟨40, 80⟩ ∧
      (NetThread.loop (NetThread.fromHost 2)).InBounds
        (.receive NetThread.established (forgedEnvelope 40) 80) := by
  have hexamined : clientExamined (NetThread.fromHost 2) NetThread.established
      (forgedEnvelope 40) 80 = some ⟨40, 80⟩ := rfl
  refine ⟨hexamined, ((decrypt_inBounds_iff 80 (by decide) (forgedEnvelope 40)).1
    (NetThread.fromHost 2) NetThread.established).mpr fun call hcall => ?_⟩
  rw [hexamined] at hcall
  cases hcall
  decide

/-- A bare header that promises a byte of ciphertext makes the client decrypt a byte that was not
received. -/
theorem decrypt_past_datagram :
    ∃ call ∈ ((NetThread.loop (NetThread.fromHost 2)).passes 1
      (.receive NetThread.established (forgedEnvelope 1) 35)).state.decrypts, ¬ call.InRange :=
  ⟨⟨1, 35⟩, by decide, by decide⟩

end RemotePlay.Session
