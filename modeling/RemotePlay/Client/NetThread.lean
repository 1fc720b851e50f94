import RemotePlay.Client.Receiver
import RemotePlay.Common.NetworkManager
import RemotePlay.Session.DatagramLoop

/-!
# The client's network thread

One pass of the `while (len > 0)` loop of `runClient`'s `netThread`: the packet
type selects a branch, a relay packet of the session is unwrapped in place and
processed again, an envelope of the session is decrypted and dispatched on its
inner type, a handshake response installs the session.
-/

namespace RemotePlay.Client

open Lib Protocol Crypto Session

/-- The variables of `runClient` that the network thread shares with the session. -/
structure ClientSession where
  clientKeyPair : KeyPair
  rxKey : Key
  txKey : Key
  sessionId : UInt64
  currentHostIp : List UInt8
  currentHostPort : UInt16
  handshakeApproved : Bool
  handshakeRejected : Bool
  receiver : Receiver
  lastFrameId : UInt32

/-- What the thread passes on: audio to decode, a time-sync response for the clock. -/
inductive ClientEffect where
  | decodeAudio (payload : List UInt8)
  | processResponse (tsrp : TimeSyncResponsePacket) (nowUs : UInt64)

namespace ClientSession

/-- The session before the handshake. -/
def init (clientKeyPair : KeyPair) (hostIp : List UInt8) (poolSize : Nat) : ClientSession where
  clientKeyPair := clientKeyPair
  rxKey := []
  txKey := []
  sessionId := 0
  currentHostIp := hostIp
  currentHostPort := 5005
  handshakeApproved := false
  handshakeRejected := false
  receiver := .init poolSize
  lastFrameId := 0

/-- Dispatch on the inner type of a decrypted packet of `encryptedSize` bytes. -/
def dispatch (c : ClientSession) (encryptedSize : UInt16) (decrypted : Mem) (nowUs : UInt64) :
    ClientSession × List ClientEffect :=
  if decrypted 0 = PacketType.video.code ∧ encryptedSize.toNat ≥ VideoHeader.size then
    let vh := VideoHeader.read decrypted
    ({ c with
      receiver := c.receiver.processPacket vh (decrypted.shift VideoHeader.size) nowUs
      lastFrameId := max c.lastFrameId vh.frameId }, [])
  else if decrypted 0 = PacketType.audio.code ∧ encryptedSize.toNat ≥ AudioHeader.size then
    let ah := AudioHeader.read decrypted
    (c, [.decodeAudio (decrypted.read AudioHeader.size ah.dataSize.toNat)])
  else if decrypted 0 = PacketType.timeSync.code ∧
      encryptedSize.toNat ≥ TimeSyncResponsePacket.size then
    (c, [.processResponse (TimeSyncResponsePacket.read decrypted) nowUs])
  else (c, [])

/-- A decrypted envelope: the replay check, then the dispatch. -/
def receiveDecrypted (c : ClientSession) (sh : SecureHeader) (decrypted : Mem) (nowUs : UInt64) :
    ClientSession × List ClientEffect :=
  let (fresh, receiver) := c.receiver.validateSequence sh.sequenceNumber
  let c := { c with receiver }
  if fresh then c.dispatch sh.encryptedSize decrypted nowUs else (c, [])

/-- `DeriveSessionKeys` for the host's public key, into the session's own keys. -/
def derive (c : ClientSession) (cm : CryptoManager) (hostPubKey : Key) : Bool × Key × Key :=
  cm.deriveSessionKeys c.clientKeyPair.publicKey c.clientKeyPair.privateKey hostPubKey c.rxKey
    c.txKey false

/-- The session once `DeriveSessionKeys` has returned: the rest follows if it succeeded. -/
def adopt (c : ClientSession) (derived : Bool × Key × Key) (sessionId : UInt64)
    (sender : Endpoint) : ClientSession :=
  let c := { c with rxKey := derived.2.1, txKey := derived.2.2 }
  if derived.1 then
    { c with
      sessionId := sessionId
      currentHostIp := sender.ip
      currentHostPort := sender.port
      handshakeApproved := true }
  else c

/-- A handshake response: when approved and the keys can be derived, it is adopted. -/
def handshakeResponse (c : ClientSession) (cm : CryptoManager) (sender : Endpoint)
    (hrp : HandshakeSecureResponsePacket) : ClientSession :=
  if hrp.approved ≠ 0 then c.adopt (c.derive cm hrp.hostPublicKey.toList) hrp.sessionId sender
  else { c with handshakeRejected := true }

/-- `sh` is an envelope of the session. -/
def Matches (c : ClientSession) (sh : SecureHeader) : Prop :=
  sh.sessionId = c.sessionId ∧ c.sessionId ≠ 0

instance (c : ClientSession) (sh : SecureHeader) : Decidable (c.Matches sh) :=
  inferInstanceAs (Decidable (_ ∧ _))

end ClientSession

/-- The thread inside its loop: the session, the datagram, and what it has called so far. -/
structure NetThread where
  session : ClientSession
  buf : Mem
  len : Nat
  decrypts : List DecryptCall
  effects : List ClientEffect

/-- What a pass depends on besides its state: the sender, the clock and the bytes its stack
buffers hold beforehand. -/
structure NetInput where
  cm : CryptoManager
  sender : Endpoint
  nowUs : UInt64
  stack : Mem

namespace NetThread

def receive (session : ClientSession) (buf : Mem) (len : Nat) : NetThread :=
  ⟨session, buf, len, [], []⟩

/-- The datagram of a relay packet of the session that carries an envelope. -/
def unwrapRelay (t : NetThread) : Option NetThread :=
  let rh := RelayHeader.read t.buf
  if t.len > RelayHeader.size ∧ rh.sessionId = t.session.sessionId ∧
      t.buf RelayHeader.size = PacketType.secure.code then
    some { t with
      buf := t.buf.moveDown RelayHeader.size (t.len - RelayHeader.size)
      len := t.len - RelayHeader.size }
  else none

/-- An envelope of the session whose ciphertext fits the output buffer. -/
def openSecure (t : NetThread) (input : NetInput) : NetThread :=
  let sh := SecureHeader.read t.buf
  let t := { t with decrypts := t.decrypts ++ [⟨sh.encryptedSize.toNat, t.len⟩] }
  match decryptEnvelope input.cm t.session.rxKey t.buf with
  | some plaintext =>
    let (session, effects) :=
      t.session.receiveDecrypted sh (input.stack.load plaintext) input.nowUs
    { t with session, effects := t.effects ++ effects }
  | none => t

/-- A handshake response at the front of the datagram. -/
def answerResponse (t : NetThread) (input : NetInput) : NetThread :=
  let hrp := HandshakeSecureResponsePacket.read t.buf
  { t with session := t.session.handshakeResponse input.cm input.sender hrp }

/-- The body of `while (len > 0)`. -/
def pass (input : NetInput) (t : NetThread) : Pass NetThread :=
  let type := t.buf 0
  if type = PacketType.candidateDiscovery.code ∧ t.len ≥ CandidatePacket.size then .leave t
  else if type = PacketType.relayData.code ∧ t.len ≥ RelayHeader.size then
    match t.unwrapRelay with
    | some t' => .again t'
    | none => .leave t
  else if type = PacketType.secure.code ∧ t.len ≥ SecureHeader.size then
    let sh := SecureHeader.read t.buf
    if t.session.Matches sh then
      -- `if (sh->encryptedSize > sizeof(decrypted)) continue;`
      if sh.encryptedSize.toNat > decryptedSize then .again t
      else .leave (t.openSecure input)
    else .leave t
  else if type = PacketType.handshakeSecureResponse.code ∧
      t.len ≥ HandshakeSecureResponsePacket.size then
    .leave (t.answerResponse input)
  else .leave t

/-! ## The shape of the loop -/

/-- The envelope of the session at the front of the datagram. -/
def envelope (t : NetThread) : Option Nat :=
  let sh := SecureHeader.read t.buf
  if t.buf 0 = PacketType.secure.code ∧ t.len ≥ SecureHeader.size ∧ t.session.Matches sh then
    some sh.encryptedSize.toNat
  else none

/-- The datagram a pass unwraps. -/
def relayed (t : NetThread) : Option NetThread :=
  if t.buf 0 = PacketType.relayData.code ∧ t.len ≥ RelayHeader.size then t.unwrapRelay else none

variable {input : NetInput} {t t' : NetThread}

theorem envelope_eq_some {e : Nat} (h : t.envelope = some e) :
    t.buf 0 = PacketType.secure.code ∧ t.len ≥ SecureHeader.size ∧
      t.session.Matches (SecureHeader.read t.buf) ∧
      e = (SecureHeader.read t.buf).encryptedSize.toNat := by
  simp only [envelope] at h
  split at h
  · next hc => exact ⟨hc.1, hc.2.1, hc.2.2, (Option.some.inj h).symm⟩
  · cases h

theorem relayed_eq_some (h : t.relayed = some t') :
    t.buf 0 = PacketType.relayData.code ∧ t.len > RelayHeader.size ∧
      t.buf RelayHeader.size = PacketType.secure.code ∧
      t' = { t with
        buf := t.buf.moveDown RelayHeader.size (t.len - RelayHeader.size)
        len := t.len - RelayHeader.size } ∧ t.unwrapRelay = some t' := by
  simp only [relayed] at h
  split at h
  · next hc =>
    have hun := h
    simp only [unwrapRelay] at h
    split at h
    · next hr => exact ⟨hc.1, hr.1, hr.2.2, (Option.some.inj h).symm, hun⟩
    · cases h
  · cases h

theorem relayed_of_secure (h : t.buf 0 = PacketType.secure.code) : t.relayed = none :=
  if_neg (not_branch h (by decide) _)

/-- What is unwrapped is an envelope. -/
theorem secure_of_relayed (h : t.relayed = some t') : t'.buf 0 = PacketType.secure.code := by
  obtain ⟨-, hlen, htype, rfl, -⟩ := relayed_eq_some h
  show (if 0 < _ then _ else _) = _
  rw [if_pos (Nat.sub_pos_of_lt hlen)]
  exact htype

/-- A pass over an envelope of the session. -/
theorem pass_of_envelope {e : Nat} (h : t.envelope = some e) :
    t.pass input = if e > decryptedSize then .again t else .leave (t.openSecure input) := by
  obtain ⟨htype, hlen, hmatch, rfl⟩ := envelope_eq_some h
  unfold pass
  dsimp only
  rw [if_neg (not_branch htype (by decide) _), if_neg (not_branch htype (by decide) _),
    if_pos ⟨htype, hlen⟩, if_pos hmatch]

/-- A pass over a relay packet that it unwraps. -/
theorem pass_of_relayed (h : t.relayed = some t') : t.pass input = .again t' := by
  obtain ⟨htype, hlen, -, -, hun⟩ := relayed_eq_some h
  unfold pass
  dsimp only
  rw [if_neg (not_branch htype (by decide) _), if_pos ⟨htype, Nat.le_of_lt hlen⟩, hun]

/-- Any other pass leaves the loop; only a handshake response touches the session. -/
theorem pass_of_other (henv : t.envelope = none) (hrel : t.relayed = none) :
    t.pass input = .leave (if t.buf 0 = PacketType.handshakeSecureResponse.code ∧
        t.len ≥ HandshakeSecureResponsePacket.size then t.answerResponse input else t) := by
  simp only [pass]
  split
  · next hc => rw [if_neg (not_branch hc.1 (by decide) _)]
  split
  · next hc =>
    simp only [relayed, if_pos hc] at hrel
    rw [hrel, if_neg (not_branch hc.1 (by decide) _)]
  split
  · next hc =>
    have hno : ¬ t.session.Matches (SecureHeader.read t.buf) := fun hm => by
      simp only [envelope, if_pos (⟨hc.1, hc.2, hm⟩ : _ ∧ _ ∧ _)] at henv
      cases henv
    rw [if_neg hno, if_neg (not_branch hc.1 (by decide) _)]
  split <;> rfl

theorem decrypts_openSecure (t : NetThread) (input : NetInput) :
    (t.openSecure input).decrypts =
      t.decrypts ++ [⟨(SecureHeader.read t.buf).encryptedSize.toNat, t.len⟩] := by
  unfold openSecure
  dsimp only
  split <;> rfl

/-- The client's loop is a datagram loop. -/
def loop (input : NetInput) : DatagramLoop NetThread where
  pass _ := pass input
  len := len
  decrypts := decrypts
  IsSecure t := t.buf 0 = PacketType.secure.code
  encryptedSize t := (SecureHeader.read t.buf).encryptedSize.toNat
  envelope _ := envelope
  unwrap _ := relayed
  secure h := ⟨(envelope_eq_some h).1, (envelope_eq_some h).2.2.2.symm⟩
  not_relay := relayed_of_secure
  oversized h he := by
    obtain ⟨htype, -, -, heq⟩ := envelope_eq_some h
    exact ⟨_, by rw [pass_of_envelope h, if_pos he], htype, heq.symm, rfl, rfl⟩
  opened h he := by
    rw [pass_of_envelope h, if_neg (Nat.not_lt_of_le he)]
    refine ⟨_, rfl, ?_⟩
    rw [decrypts_openSecure, (envelope_eq_some h).2.2.2]
  unwrapped _ h := by
    obtain ⟨-, hlen, -, heq, -⟩ := relayed_eq_some h
    refine ⟨pass_of_relayed h, secure_of_relayed h, ?_⟩
    rw [heq]
    exact ⟨rfl, Nat.sub_pos_of_lt hlen, Nat.sub_lt (Nat.lt_of_le_of_lt (Nat.zero_le _) hlen)
      (by decide)⟩
  other henv hrel := by
    refine ⟨_, pass_of_other henv hrel, ?_⟩
    split <;> rfl

end NetThread

end RemotePlay.Client
