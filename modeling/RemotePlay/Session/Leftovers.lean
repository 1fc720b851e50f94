import RemotePlay.Client.ControlLoop
import RemotePlay.Client.InnerPacket
import RemotePlay.Host.Streaming
import RemotePlay.Session.Handshake

/-!
# Leftovers of the stack

A packet is built field by field in a structure on the stack and sent whole, so
a field that is not set goes out as the stack held it. `Leftovers` is what the
structures hold beforehand; the sending sites fill them and the receiving side
acts on what arrives. Two runs that agree on all inputs and on the protocol
state are the same list of transfers with different leftovers.
`leftoverFree_iff` says which transfers do not depend on them.
-/

namespace RemotePlay.Session

open Lib Protocol Crypto Host Client

/-- The STUN request, in network byte order. -/
structure STUNHeader where
  type : UInt16
  length : UInt16
  cookie : UInt32
  transactionId : Bytes 12

def STUNHeader.bytes (h : STUNHeader) : List UInt8 :=
  leBytes 2 h.type.toNat ++ (leBytes 2 h.length.toNat ++ (leBytes 4 h.cookie.toNat ++
    h.transactionId.toList))

/-- What the stack holds before a packet is built and, at the receiver, before it arrives. -/
structure Leftovers where
  stun : STUNHeader
  candidate : CandidatePacket
  /-- `uint16_t publicPort`, which only a STUN response sets. -/
  publicPort : UInt16
  hello : HandshakeSecurePacket
  response : HandshakeSecureResponsePacket
  feedback : FeedbackHeader
  retransmitRequest : RetransmitRequestPacket
  timeSync : TimeSyncPacket
  timeSyncResponse : TimeSyncResponsePacket
  secure : SecureHeader
  /-- The receiver's `buf` and `decrypted`. -/
  buf : Mem
  decrypted : Mem

/-- `strncpy`: at most `k` bytes, padded with zeros up to `k`; the rest of `dst` stays. -/
def strncpy {n : Nat} (dst : Bytes n) (src : List UInt8) (k : Nat) : Bytes n :=
  .ofFn fun j => if j < k then (src.takeWhile (· ≠ 0)).getD j 0 else dst.get j

namespace Leftovers

/-- A stack full of zeros. -/
def zeroed : Leftovers where
  stun := ⟨0, 0, 0, .replicate 12 0⟩
  candidate := ⟨0, .replicate 64 0, 0, 0⟩
  publicPort := 0
  hello := ⟨0, .replicate 32 0, .replicate 32 0⟩
  response := ⟨0, .replicate 32 0, 0, 0⟩
  feedback := ⟨0, 0, 0, 0, 0, 0, 0, 0⟩
  retransmitRequest := ⟨0, 0, 0⟩
  timeSync := ⟨0, 0⟩
  timeSyncResponse := ⟨0, 0, 0, 0⟩
  secure := ⟨0, 0, 0, 0, .replicate 16 0⟩
  buf _ := 0
  decrypted _ := 0

/-! ## The structures as they are filled -/

/-- `htons(0x0001)`, no length, `htonl(0x2112A442)` and twelve random bytes. -/
def stunRequest (x : Leftovers) (transactionId : Bytes 12) : STUNHeader :=
  { x.stun with
    type := 0x0100
    length := 0
    cookie := 0x42A41221
    transactionId := transactionId }

/-- A gathered candidate. -/
def cp (x : Leftovers) (ip : List UInt8) (port : UInt16) (priority : UInt8) : CandidatePacket :=
  { x.candidate with
    type := PacketType.candidateDiscovery.code
    ip := strncpy x.candidate.ip ip 63
    port := port
    priority := priority }

/-- The hole punch next to a hello, with the public endpoint that STUN found or did not find. -/
def hpp (x : Leftovers) (publicIp : List UInt8) (publicPort : Option UInt16) : CandidatePacket :=
  { x.candidate with
    type := PacketType.candidateDiscovery.code
    ip := strncpy x.candidate.ip publicIp 63
    port := publicPort.getD x.publicPort }

def hp (x : Leftovers) (clientPublicKey : Bytes 32) (username : List UInt8) :
    HandshakeSecurePacket :=
  { x.hello with
    type := PacketType.handshakeSecure.code
    clientPublicKey := clientPublicKey
    username := (strncpy x.hello.username username 31).set 31 0 }

/-- `approved = 0`. -/
def rejection (x : Leftovers) : HandshakeSecureResponsePacket :=
  { x.response with
    type := PacketType.handshakeSecureResponse.code
    approved := 0 }

def approval (x : Leftovers) (hostPublicKey : Bytes 32) (sessionId : UInt64) :
    HandshakeSecureResponsePacket :=
  { x.response with
    type := PacketType.handshakeSecureResponse.code
    hostPublicKey := hostPublicKey
    approved := 1
    sessionId := sessionId }

def fh (x : Leftovers) (lastReceivedFrameId lossRate rttMs avgDecodeTimeMs : UInt32)
    (requestKeyframe : Bool) : FeedbackHeader :=
  { x.feedback with
    type := PacketType.feedback.code
    lastReceivedFrameId := lastReceivedFrameId
    lossRate := lossRate
    rttMs := rttMs
    avgDecodeTimeMs := avgDecodeTimeMs
    requestKeyframe := if requestKeyframe then 1 else 0 }

def rrp (x : Leftovers) (frameId : UInt32) (fragmentIndex : UInt16) : RetransmitRequestPacket :=
  { x.retransmitRequest with
    type := PacketType.retransmitRequest.code
    frameId := frameId
    fragmentIndex := fragmentIndex }

def tsp (x : Leftovers) (clientSendTimestamp : UInt64) : TimeSyncPacket :=
  { x.timeSync with
    type := PacketType.timeSync.code
    clientSendTimestamp := clientSendTimestamp }

def tsrp (x : Leftovers) (clientSendTimestamp nowUs : UInt64) : TimeSyncResponsePacket :=
  { x.timeSyncResponse with
    type := PacketType.timeSync.code
    clientSendTimestamp := clientSendTimestamp
    hostReceiveTimestamp := nowUs
    hostSendTimestamp := nowUs }

end Leftovers

/-! ## What is sent -/

/-- A packet of the client's session, with what it is built from. -/
inductive ClientSending where
  | input (timestamp : UInt64) (ev : InputEvent)
  | feedback (lastReceivedFrameId lossRate rttMs avgDecodeTimeMs : UInt32) (requestKeyframe : Bool)
  | retransmitRequest (frameId : UInt32) (fragmentIndex : UInt16)
  | timeSync (clockUs : UInt64)

/-- The plaintext. The headers of an input packet are initialised as a whole. -/
def ClientSending.bytes (x : Leftovers) : ClientSending → List UInt8
  | .input timestamp ev => (ClientPacket.inputHeader timestamp ev).bytes ++ ev.bytes
  | .feedback frameId lossRate rttMs decodeMs requestKeyframe =>
    (x.fh frameId lossRate rttMs decodeMs requestKeyframe).bytes
  | .retransmitRequest frameId fragmentIndex => (x.rrp frameId fragmentIndex).bytes
  | .timeSync clockUs => (x.tsp clockUs).bytes

/-- A packet of a session of the host. -/
inductive HostSending where
  | video (frame : EncodedPacket) (currentFid : UInt32) (i : UInt16) (packetSequence : UInt32)
  | audio (audioFrameId : UInt32) (timestamp : UInt64) (opus : List UInt8)
  | timeSyncResponse (clientSendTimestamp nowUs : UInt64)

/-- The plaintext. Audio and video are built in a pooled packet, which they fill up to its end. -/
def HostSending.bytes (x : Leftovers) : HostSending → List UInt8
  | .video frame currentFid i packetSequence =>
    (frame.videoHeader currentFid i packetSequence).bytes ++
      readN (frame.fragmentPayload i) (frame.fragmentSize i).toNat
  | .audio audioFrameId timestamp opus =>
    let ah : AudioHeader :=
      ⟨PacketType.audio.code, audioFrameId, timestamp, UInt16.ofNat opus.length⟩
    (ah.bytes ++ opus).take (UInt16.ofNat (AudioHeader.size + ah.dataSize.toNat)).toNat
  | .timeSyncResponse clientSendTimestamp nowUs => (x.tsrp clientSendTimestamp nowUs).bytes

/-- What a sealing site seals with. -/
structure Sealer where
  sessionId : UInt64
  sequenceNumber : UInt64
  txKey : Key

/-- A call of `SendTo`, or a push to the send queue, of a packet that is built there; reflections and
retransmissions repeat a datagram. -/
inductive Sending where
  | stunRequest (transactionId : Bytes 12)
  | candidate (ip : List UInt8) (port : UInt16) (priority : UInt8)
  | holePunch (publicIp : List UInt8) (publicPort : Option UInt16)
  | hello (clientPublicKey : Bytes 32) (username : List UInt8)
  | rejection
  | approval (hostPublicKey : Bytes 32) (sessionId : UInt64)
  | client (sealer : Sealer) (packet : ClientSending)
  | host (sealer : Sealer) (packet : HostSending)

def Sealer.seal (k : Sealer) (cm : CryptoManager) (x : Leftovers) (packet : List UInt8) :
    Option (List UInt8) :=
  sealEnvelope cm x.secure k.sessionId k.sequenceNumber k.txKey packet

/-- The datagram; `none` when `Encrypt` fails. -/
def Sending.datagram (cm : CryptoManager) (x : Leftovers) : Sending → Option (List UInt8)
  | .stunRequest transactionId => some (x.stunRequest transactionId).bytes
  | .candidate ip port priority => some (x.cp ip port priority).bytes
  | .holePunch publicIp publicPort => some (x.hpp publicIp publicPort).bytes
  | .hello clientPublicKey username => some (x.hp clientPublicKey username).bytes
  | .rejection => some x.rejection.bytes
  | .approval hostPublicKey sessionId => some (x.approval hostPublicKey sessionId).bytes
  | .client sealer packet => sealer.seal cm x (packet.bytes x)
  | .host sealer packet => sealer.seal cm x (packet.bytes x)

/-! ## What is acted on -/

/-- Both ends when a datagram arrives; the peer of a session has the key it was sealed with. -/
structure Peers where
  ctx : HostContext
  input : HostInput
  target : ClientState
  session : ClientSession
  sender : Endpoint
  nowUs : UInt64

/-- What the receiving side does with a datagram. -/
inductive Acted where
  | host (ctx : HostContext) (effects : List HostEffect)
  | client (session : ClientSession) (effects : List ClientEffect)
  /-- The envelope is refused, or the datagram goes to a STUN server. -/
  | nothing

/-- A sending and the state its datagram finds at the receiver. -/
structure Transfer where
  sending : Sending
  peers : Peers

namespace Transfer

/-- The branch of the receiver that the packet goes to. -/
def act (cm : CryptoManager) (x : Leftovers) (t : Transfer) (datagram : List UInt8) : Acted :=
  let p := t.peers
  let buf := x.buf.load datagram
  match t.sending with
  | .stunRequest _ => .nothing
  | .candidate .. | .holePunch .. =>
    let cp := CandidatePacket.read buf
    .host p.ctx [.sendTo ⟨datagram, ⟨cp.ipChars, cp.port⟩⟩]
  | .hello .. =>
    let r := p.ctx.handleHandshake p.input (HandshakeSecurePacket.read buf)
    .host r.1 r.2
  | .rejection | .approval .. =>
    .client (p.session.handshakeResponse cm p.sender (HandshakeSecureResponsePacket.read buf)) []
  | .client sealer _ =>
    match openEnvelope cm sealer.txKey buf with
    | some plaintext =>
      let r := p.ctx.dispatch p.input p.target (SecureHeader.read buf).encryptedSize.toNat
        (x.decrypted.load plaintext)
      .host r.1 r.2
    | none => .nothing
  | .host sealer _ =>
    match openEnvelope cm sealer.txKey buf with
    | some plaintext =>
      let r := p.session.dispatch (SecureHeader.read buf).encryptedSize
        (x.decrypted.load plaintext) p.nowUs
      .client r.1 r.2
    | none => .nothing

/-- The datagram, and what the receiver makes of it. -/
def observed (cm : CryptoManager) (x : Leftovers) (t : Transfer) :
    Option (List UInt8) × Option Acted :=
  (t.sending.datagram cm x, (t.sending.datagram cm x).map (t.act cm x))

end Transfer

/-- No datagram of the run and nothing acted on depends on the leftovers that each transfer finds. -/
def LeftoverFree (cm : CryptoManager) (run : List Transfer) : Prop :=
  ∀ xs xs' : Nat → Leftovers,
    (run.mapIdx fun n t => t.observed cm (xs n)) = run.mapIdx fun n t => t.observed cm (xs' n)

/-! ## The sites elsewhere in the model -/

theorem rejection_eq (input : HostInput) : HostContext.rejection input =
    { Leftovers.zeroed with response := .read input.stack }.rejection := rfl

theorem approval_eq (x : Leftovers) (hostKeyPair : X25519KeyPair) (newState : ClientState) :
    approval hostKeyPair newState = x.approval hostKeyPair.publicKey newState.sessionId := rfl

theorem feedbackHeader_eq (i : ControlInput) (requestKeyframe : Bool) :
    Control.feedbackHeader i requestKeyframe =
      { Leftovers.zeroed with feedback := i.stackFeedback }.fh i.lastReceivedFrameId i.lossRate
        i.rttMs i.avgDecodeTimeMs requestKeyframe := rfl

/-- The sealer of a session of the host. -/
def sealerOf (c : ClientState) : Sealer := ⟨c.sessionId, c.sendSequenceNumber, c.txKey⟩

/-- A pooled packet leaves nothing of its own in a fragment. -/
theorem sealFragment_eq (input : PacketizerInput) (s : Packetizer) (frame : EncodedPacket)
    (currentFid : UInt32) (i : UInt16) (packetSequence : UInt32) (pkt : Packet) :
    s.sealFragment input i
        (Packetizer.fillFragment pkt (frame.videoHeader currentFid i packetSequence)
          (frame.fragmentPayload i)) (frame.videoHeader currentFid i packetSequence) =
      Sending.datagram input.cm { Leftovers.zeroed with secure := input.stackHeader i }
        (.host (sealerOf s.client) (.video frame currentFid i packetSequence)) := by
  have hbytes := readN_copyIn_append pkt.data
    (frame.videoHeader currentFid i packetSequence).bytes 0 (frame.fragmentSize i).toNat
    (frame.fragmentPayload i)
  rw [VideoHeader.length_bytes] at hbytes
  simp only [Sending.datagram, HostSending.bytes]
  rw [← hbytes]
  rfl

theorem audioDatagram_eq (s : Streaming) (c : Nat) (input : AudioInput) (udpPkt : Packet)
    (opus : List UInt8) :
    s.audioDatagram c input udpPkt opus =
      Sending.datagram input.cm { Leftovers.zeroed with secure := input.stackHeader }
        (.host (sealerOf (s.client c).state)
          (.audio (s.client c).audioFrameId input.timestamp opus)) := by
  have hbytes := readN_copyIn_append udpPkt.data (AudioHeader.bytes ⟨PacketType.audio.code,
    (s.client c).audioFrameId, input.timestamp, UInt16.ofNat opus.length⟩) 0 opus.length
    (opus.getD · 0)
  rw [readN_getD, AudioHeader.length_bytes] at hbytes
  have hle : (UInt16.ofNat (AudioHeader.size + (UInt16.ofNat opus.length).toNat)).toNat ≤
      AudioHeader.size + opus.length := by
    rw [UInt16.toNat_ofNat', UInt16.toNat_ofNat']
    have h := Nat.mod_le (AudioHeader.size + opus.length % 2 ^ 16) (2 ^ 16)
    have h' := Nat.mod_le opus.length (2 ^ 16)
    omega
  simp only [Sending.datagram, HostSending.bytes]
  rw [← hbytes, take_readN _ hle]
  rfl

/-! ## Sites that fill what they send -/

/-- The associated data that a header with `b` at the front of its tag gives. -/
def Sealer.associated (k : Sealer) (size : Nat) (b : UInt8) : List UInt8 :=
  leBytes 8 k.sessionId.toNat ++ (leBytes 8 k.sequenceNumber.toNat ++
    (leBytes 2 (UInt16.ofNat size).toNat ++ [b]))

/-- `Encrypt` makes the same of the packet whatever the last byte of its associated data is. -/
def Sealer.TagByteIgnored (k : Sealer) (cm : CryptoManager) (packet : List UInt8) : Prop :=
  ∀ b b', cm.encrypt packet (k.associated packet.length b) k.sequenceNumber k.txKey =
    cm.encrypt packet (k.associated packet.length b') k.sequenceNumber k.txKey

/-- The site sets every byte that it sends or authenticates. -/
def Sending.Filled (cm : CryptoManager) : Sending → Prop
  | .stunRequest _ | .hello .. | .approval .. => True
  | .candidate .. | .holePunch .. | .rejection => False
  | .client _ (.feedback ..) => False
  | .client sealer packet => sealer.TagByteIgnored cm (packet.bytes .zeroed)
  | .host sealer packet => sealer.TagByteIgnored cm (packet.bytes .zeroed)

/-- What is assumed of the AEAD: it encrypts, and what it has encrypted decrypts to the packet under
the same associated data, and to the packet or nothing under any other. -/
structure Aead (cm : CryptoManager) : Prop where
  encrypts : ∀ packet ad nonce key, (cm.encrypt packet ad nonce key).isSome = true
  decrypts : ∀ {packet ad nonce key ciphertext tag},
    cm.encrypt packet ad nonce key = some (ciphertext, tag) →
      ciphertext.length = packet.length ∧
      cm.decrypt ciphertext tag ad nonce key = some packet ∧
      ∀ ad', cm.decrypt ciphertext tag ad' nonce key = some packet ∨
        cm.decrypt ciphertext tag ad' nonce key = none

section
variable {cm : CryptoManager} {k : Sealer} {x x' : Leftovers} {packet packet' : List UInt8}

/-! ### Sealed datagrams -/

/-- The datagram around a ciphertext and its tag. -/
def Sealer.wrap (k : Sealer) (size : Nat) (r : List UInt8 × Bytes 16) : List UInt8 :=
  SecureHeader.bytes ⟨PacketType.secure.code, k.sessionId, k.sequenceNumber, UInt16.ofNat size,
    r.2⟩ ++ r.1

theorem wrap_injective (k : Sealer) (size : Nat) : Function.Injective (k.wrap size) := by
  rintro ⟨ciphertext, tag⟩ ⟨ciphertext', tag'⟩ h
  obtain ⟨hheader, hciphertext⟩ := List.append_inj h (by simp)
  simp only [SecureHeader.bytes, List.cons.injEq, true_and, List.append_cancel_left_eq,
    Vector.toList_inj] at hheader
  exact congrArg₂ Prod.mk hciphertext hheader

theorem sealEnvelope_eq_map (cm : CryptoManager) (stack : SecureHeader)
    (sessionId sequenceNumber : UInt64) (txKey : Key) (packet : List UInt8) :
    let sh := fillHeader stack sessionId sequenceNumber packet.length
    sealEnvelope cm stack sessionId sequenceNumber txKey packet =
      (cm.encrypt packet (associatedData sh) sh.sequenceNumber txKey).map fun r =>
        (withTag sh r.2).bytes ++ r.1 := by
  unfold sealEnvelope
  dsimp only
  generalize fillHeader stack sessionId sequenceNumber packet.length = sh
  cases cm.encrypt packet (associatedData sh) sh.sequenceNumber txKey <;> rfl

/-- Of the leftovers a sealed datagram sees the byte at the front of the tag. -/
theorem seal_eq (k : Sealer) (cm : CryptoManager) (x : Leftovers) (packet : List UInt8) :
    k.seal cm x packet =
      (cm.encrypt packet (k.associated packet.length (x.secure.authTag.get 0)) k.sequenceNumber
        k.txKey).map (k.wrap packet.length) := by
  unfold Sealer.seal
  rw [sealEnvelope_eq_map, associatedData_eq]
  rfl

/-- Datagrams of one length are the same iff `Encrypt` made the same. -/
theorem seal_eq_iff (hlen : packet.length = packet'.length) :
    k.seal cm x packet = k.seal cm x' packet' ↔
      cm.encrypt packet (k.associated packet.length (x.secure.authTag.get 0)) k.sequenceNumber
          k.txKey =
        cm.encrypt packet' (k.associated packet'.length (x'.secure.authTag.get 0))
          k.sequenceNumber k.txKey := by
  rw [seal_eq, seal_eq, hlen]
  exact (Option.map_injective (wrap_injective k packet'.length)).eq_iff

/-- A packet that is the same over all leftovers is sealed alike iff the tag's byte is ignored. -/
theorem seal_const_iff (k : Sealer) (cm : CryptoManager) (packet : List UInt8) :
    (∀ x x' : Leftovers, k.seal cm x packet = k.seal cm x' packet) ↔
      k.TagByteIgnored cm packet := by
  constructor
  · intro h b b'
    have hseal := h { Leftovers.zeroed with secure := staleHeader b }
      { Leftovers.zeroed with secure := staleHeader b' }
    exact (seal_eq_iff rfl).mp hseal
  · intro h x x'
    exact (seal_eq_iff rfl).mpr (h _ _)

/-- Different packets of one length make different datagrams over the same leftovers. -/
theorem packet_of_seal_eq (haead : Aead cm) (hlen : packet.length = packet'.length)
    (h : k.seal cm x packet = k.seal cm x packet') : packet = packet' := by
  have henc := (seal_eq_iff hlen).mp h
  obtain ⟨⟨ciphertext, tag⟩, hr⟩ := Option.isSome_iff_exists.mp (haead.encrypts packet
    (k.associated packet.length (x.secure.authTag.get 0)) k.sequenceNumber k.txKey)
  have hdec := (haead.decrypts hr).2.1
  rw [hr] at henc
  have hdec' := (haead.decrypts henc.symm).2.1
  rw [hlen, hdec'] at hdec
  exact (Option.some.inj hdec).symm

/-! ### Sites that leave something out -/

/-- `strncpy` leaves the last byte of `ip`. -/
theorem candidate_leaks (ip : List UInt8) (port : UInt16) (priority : UInt8) :
    ∃ x x' : Leftovers, (x.cp ip port priority).bytes ≠ (x'.cp ip port priority).bytes := by
  refine ⟨.zeroed, { Leftovers.zeroed with candidate := ⟨0, .replicate 64 1, 0, 0⟩ }, fun h => ?_⟩
  have heq := injective_of_read CandidatePacket.read_of_holds h
  have hlast := congrArg (fun p : CandidatePacket => p.ip[63]) heq
  simp [Leftovers.cp, strncpy, Leftovers.zeroed, Vector.get] at hlast

/-- Nobody sets the priority of a hole punch. -/
theorem holePunch_leaks (publicIp : List UInt8) (publicPort : Option UInt16) :
    ∃ x x' : Leftovers, (x.hpp publicIp publicPort).bytes ≠ (x'.hpp publicIp publicPort).bytes := by
  refine ⟨.zeroed, { Leftovers.zeroed with candidate := ⟨0, .replicate 64 0, 0, 1⟩ }, fun h => ?_⟩
  have heq := injective_of_read CandidatePacket.read_of_holds h
  have hpriority : (0 : UInt8) = 1 := congrArg CandidatePacket.priority heq
  exact absurd hpriority (by decide)

/-- A rejection carries 40 bytes of the host's stack. -/
theorem rejection_leaks : ∃ x x' : Leftovers, x.rejection.bytes ≠ x'.rejection.bytes := by
  refine ⟨.zeroed, { Leftovers.zeroed with response := ⟨0, .replicate 32 0, 0, 1⟩ }, fun h => ?_⟩
  have heq := injective_of_read HandshakeSecureResponsePacket.read_of_holds h
  exact absurd (congrArg HandshakeSecureResponsePacket.sessionId heq) (by decide)

/-- The client's bitrate and scale are never set. -/
theorem feedback_leaks (haead : Aead cm) (k : Sealer)
    (lastReceivedFrameId lossRate rttMs decodeMs : UInt32) (requestKeyframe : Bool) :
    ∃ x x' : Leftovers,
      k.seal cm x (x.fh lastReceivedFrameId lossRate rttMs decodeMs requestKeyframe).bytes ≠
        k.seal cm x' (x'.fh lastReceivedFrameId lossRate rttMs decodeMs requestKeyframe).bytes := by
  refine ⟨.zeroed, { Leftovers.zeroed with feedback := ⟨0, 0, 0, 0, 0, 0, 1, 0⟩ }, fun h => ?_⟩
  have hseal : ∀ packet, k.seal cm { Leftovers.zeroed with feedback := ⟨0, 0, 0, 0, 0, 0, 1, 0⟩ }
      packet = k.seal cm .zeroed packet := fun _ => rfl
  rw [hseal] at h
  have hbytes := packet_of_seal_eq haead (by simp only [FeedbackHeader.length_bytes]) h
  have heq := injective_of_read FeedbackHeader.read_of_holds hbytes
  have hbitrate : (0 : UInt16) = 1 := congrArg FeedbackHeader.targetBitrateKbps heq
  exact absurd hbitrate (by decide)

/-! ### What is opened -/

/-- An envelope opens to the packet that was sealed in it or not at all, whatever the buffer held. -/
theorem open_seal (haead : Aead cm) {datagram : List UInt8} (hlen : packet.length < 2 ^ 16)
    (h : k.seal cm x packet = some datagram) :
    (∀ buf : Mem, (SecureHeader.read (buf.load datagram)).encryptedSize =
      UInt16.ofNat packet.length) ∧
    ((∀ buf : Mem, openEnvelope cm k.txKey (buf.load datagram) = none) ∨
      ∀ buf : Mem, openEnvelope cm k.txKey (buf.load datagram) = some packet) := by
  rw [seal_eq] at h
  obtain ⟨⟨ciphertext, tag⟩, henc, rfl⟩ := Option.map_eq_some_iff.mp h
  obtain ⟨hclen, -, hopen⟩ := haead.decrypts henc
  have hread : ∀ buf : Mem, SecureHeader.read (buf.load (k.wrap packet.length (ciphertext, tag))) =
      ⟨PacketType.secure.code, k.sessionId, k.sequenceNumber, UInt16.ofNat packet.length, tag⟩ :=
    fun buf => SecureHeader.read_of_holds (Mem.holds_append.mp (Mem.holds_load buf _)).1
  refine ⟨fun buf => by rw [hread], ?_⟩
  have hsize : (UInt16.ofNat packet.length).toNat = ciphertext.length := by
    rw [UInt16.toNat_ofNat', hclen]
    omega
  by_cases hbig : ciphertext.length > decryptedSize
  · refine .inl fun buf => ?_
    unfold openEnvelope
    rw [hread, if_pos (by simp only [hsize]; exact hbig)]
  · have hdec : ∀ buf : Mem,
        openEnvelope cm k.txKey (buf.load (k.wrap packet.length (ciphertext, tag))) =
          cm.decrypt ciphertext tag (associatedData ⟨PacketType.secure.code, k.sessionId,
            k.sequenceNumber, UInt16.ofNat packet.length, tag⟩) k.sequenceNumber k.txKey :=
      fun buf => openEnvelope_load cm k.txKey buf _ hsize (Nat.le_of_not_lt hbig)
    rcases hopen (associatedData ⟨PacketType.secure.code, k.sessionId, k.sequenceNumber,
      UInt16.ofNat packet.length, tag⟩) with hsome | hnone
    · exact .inr fun buf => (hdec buf).trans hsome
    · exact .inl fun buf => (hdec buf).trans hnone

/-- A packet whose lengths agree is dispatched alike whatever lies behind it. -/
theorem dispatch_load (c : ClientSession) {packet : List UInt8} (hlen : packet.length < 2 ^ 16)
    (nowUs : UInt64) {m : Mem}
    (hagree : ClientSession.LengthsAgree (UInt16.ofNat packet.length) (m.load packet)) (m' : Mem) :
    c.dispatch (UInt16.ofNat packet.length) (m.load packet) nowUs =
      c.dispatch (UInt16.ofNat packet.length) (m'.load packet) nowUs := by
  refine hagree.behind c nowUs fun j hj => ?_
  rw [UInt16.toNat_ofNat', Nat.mod_eq_of_lt hlen] at hj
  simp [Mem.load, hj]

theorem fragmentSize_le (frame : EncodedPacket) (i : UInt16) :
    (frame.fragmentSize i).toNat ≤ 1300 := by
  unfold EncodedPacket.fragmentSize maxUdpPayload
  rw [UInt16.toNat_ofNat']
  omega

/-- A packet shorter than any header is dropped. -/
theorem dispatch_short (c : ClientSession) {size : UInt16} (hsize : size.toNat < AudioHeader.size)
    (decrypted : Mem) (nowUs : UInt64) : c.dispatch size decrypted nowUs = (c, []) := by
  rw [AudioHeader.size] at hsize
  unfold ClientSession.dispatch VideoHeader.size AudioHeader.size TimeSyncResponsePacket.size
  rw [if_neg (by omega), if_neg (by omega), if_neg (by omega)]

/-- The lengths agree in a packet whose own header, if it is a video or an audio header, counts no
more than follows it. -/
theorem lengthsAgree_load {packet : List UInt8} (hlen : packet.length < 2 ^ 16) (m : Mem)
    {t : UInt8} (htype : packet.head? = some t)
    (hvideo : t = PacketType.video.code → ∃ (vh : VideoHeader) (payload : List UInt8),
      packet = vh.bytes ++ payload ∧ vh.dataSize.toNat ≤ payload.length)
    (haudio : t = PacketType.audio.code → ∃ (ah : AudioHeader) (payload : List UInt8),
      packet = ah.bytes ++ payload ∧ ah.dataSize.toNat ≤ payload.length) :
    ClientSession.LengthsAgree (UInt16.ofNat packet.length) (m.load packet) := by
  have hholds := Mem.holds_load m packet
  have hsize : (UInt16.ofNat packet.length).toNat = packet.length := by
    rw [UInt16.toNat_ofNat', Nat.mod_eq_of_lt hlen]
  have hfirst : m.load packet 0 = t := by
    obtain ⟨rest, rfl⟩ := List.head?_eq_some_iff.mp htype
    exact (Mem.holds_cons.mp hholds).1
  rw [ClientSession.LengthsAgree, hsize, hfirst]
  refine ⟨?_, fun hv => ?_, fun ha => ?_⟩
  · obtain ⟨rest, rfl⟩ := List.head?_eq_some_iff.mp htype
    exact Nat.succ_pos _
  · obtain ⟨vh, payload, heq, hle⟩ := hvideo hv.1
    rw [heq] at hholds
    rw [heq, VideoHeader.read_of_holds (Mem.holds_append.mp hholds).1, List.length_append,
      VideoHeader.length_bytes]
    exact Nat.add_le_add_left hle _
  · obtain ⟨ah, payload, heq, hle⟩ := haudio ha.1
    rw [heq] at hholds
    rw [heq, AudioHeader.read_of_holds (Mem.holds_append.mp hholds).1, List.length_append,
      AudioHeader.length_bytes]
    exact Nat.add_le_add_left hle _

/-- The host's packets are read to their end and no further. -/
theorem dispatch_hostSending (c : ClientSession) (p : HostSending) (x : Leftovers)
    (nowUs : UInt64) :
    (p.bytes x).length < 2 ^ 16 ∧ ∀ m m' : Mem,
      c.dispatch (UInt16.ofNat (p.bytes x).length) (m.load (p.bytes x)) nowUs =
        c.dispatch (UInt16.ofNat (p.bytes x).length) (m'.load (p.bytes x)) nowUs := by
  cases p with
  | video frame currentFid i packetSequence =>
    have hle := fragmentSize_le frame i
    have hlt : (HostSending.bytes x (.video frame currentFid i packetSequence)).length <
        2 ^ 16 := by
      simp only [HostSending.bytes, List.length_append, VideoHeader.length_bytes, length_readN,
        VideoHeader.size]
      omega
    refine ⟨hlt, fun m m' => dispatch_load c hlt nowUs (lengthsAgree_load hlt m
      (t := PacketType.video.code) rfl (fun _ => ?_) fun h => absurd h (by decide)) m'⟩
    refine ⟨_, _, rfl, ?_⟩
    rw [length_readN]
    exact Nat.le_refl _
  | audio audioFrameId timestamp opus =>
    -- a payload of almost 64 KiB wraps the 16-bit size to less than a header
    have hds : (UInt16.ofNat opus.length).toNat ≤ opus.length := by
      rw [UInt16.toNat_ofNat']
      exact Nat.mod_le _ _
    have hdlt := (UInt16.ofNat opus.length).toNat_lt
    have he : (UInt16.ofNat (15 + (UInt16.ofNat opus.length).toNat)).toNat =
        (15 + (UInt16.ofNat opus.length).toNat) % 2 ^ 16 := UInt16.toNat_ofNat'
    have hlen : (HostSending.bytes x (.audio audioFrameId timestamp opus)).length =
        (15 + (UInt16.ofNat opus.length).toNat) % 2 ^ 16 := by
      simp only [HostSending.bytes, List.length_take, List.length_append,
        AudioHeader.length_bytes, AudioHeader.size, he]
      omega
    have hlt : (HostSending.bytes x (.audio audioFrameId timestamp opus)).length < 2 ^ 16 := by
      rw [hlen]
      exact Nat.mod_lt _ (by decide)
    refine ⟨hlt, fun m m' => ?_⟩
    by_cases hwrap : (15 + (UInt16.ofNat opus.length).toNat) % 2 ^ 16 < 15
    · have hshort : (UInt16.ofNat (HostSending.bytes x
          (.audio audioFrameId timestamp opus)).length).toNat < AudioHeader.size := by
        rw [UInt16.toNat_ofNat', Nat.mod_eq_of_lt hlt, hlen]
        exact hwrap
      rw [dispatch_short c hshort, dispatch_short c hshort]
    · have hbytes : HostSending.bytes x (.audio audioFrameId timestamp opus) =
          AudioHeader.bytes ⟨PacketType.audio.code, audioFrameId, timestamp,
            UInt16.ofNat opus.length⟩ ++ opus.take (UInt16.ofNat opus.length).toNat := by
        simp only [HostSending.bytes, AudioHeader.size, he]
        rw [List.take_append, AudioHeader.length_bytes, AudioHeader.size,
          List.take_of_length_le (by rw [AudioHeader.length_bytes, AudioHeader.size]; omega)]
        congr 2
        omega
      refine dispatch_load c hlt nowUs (lengthsAgree_load hlt m (t := PacketType.audio.code) ?_
        (fun h => absurd h (by decide)) fun _ => ⟨_, _, hbytes, ?_⟩) m'
      · rw [hbytes]
        rfl
      · rw [List.length_take]
        exact le_min (Nat.le_refl _) hds
  | timeSyncResponse clientSendTimestamp clockUs =>
    have hlt : (HostSending.bytes x (.timeSyncResponse clientSendTimestamp clockUs)).length <
        2 ^ 16 := by
      rw [HostSending.bytes, TimeSyncResponsePacket.length_bytes]
      decide
    exact ⟨hlt, fun m m' => dispatch_load c hlt nowUs (lengthsAgree_load hlt m
      (t := PacketType.timeSync.code) rfl (fun h => absurd h (by decide))
      fun h => absurd h (by decide)) m'⟩

/-- The client's packet as its host takes it. -/
def ClientSending.toPacket (x : Leftovers) : ClientSending → ClientPacket
  | .input timestamp ev => .input timestamp ev
  | .feedback frameId lossRate rttMs decodeMs requestKeyframe =>
    .feedback (x.fh frameId lossRate rttMs decodeMs requestKeyframe)
  | .retransmitRequest frameId fragmentIndex => .retransmitRequest frameId fragmentIndex
  | .timeSync clockUs => .timeSync clockUs

theorem bytes_toPacket (p : ClientSending) (x : Leftovers) : p.bytes x = (p.toPacket x).bytes := by
  cases p <;> rfl

/-- The client's packets go to their handlers, whatever the buffer held. -/
theorem dispatch_clientSending (ctx : HostContext) (input : HostInput) (target : ClientState)
    (p : ClientSending) (x : Leftovers) (m : Mem) :
    ctx.dispatch input target (p.bytes x).length (m.load (p.bytes x)) =
      (p.toPacket x).handle ctx input target := by
  rw [bytes_toPacket]
  exact ClientPacket.dispatch_of_holds _ (Mem.holds_load m _)

/-- The bitrate that the host programs is what the client's stack held. -/
theorem feedback_bitrate (ctx : HostContext) (input : HostInput) (target : ClientState)
    (x : Leftovers) (m : Mem) (lastReceivedFrameId lossRate rttMs decodeMs : UInt32)
    (requestKeyframe : Bool) :
    ∃ fh rest, (ctx.dispatch input target FeedbackHeader.size (m.load
      (x.fh lastReceivedFrameId lossRate rttMs decodeMs requestKeyframe).bytes)).2 =
        .updatePerformanceMetrics target.sessionId fh :: rest ∧
      fh.targetBitrateKbps = x.feedback.targetBitrateKbps := by
  have h := dispatch_clientSending ctx input target
    (.feedback lastReceivedFrameId lossRate rttMs decodeMs requestKeyframe) x m
  simp only [ClientSending.bytes, FeedbackHeader.length_bytes] at h
  rw [h]
  exact ⟨_, _, rfl, rfl⟩

/-! ### The iff -/

/-- **Datagrams.** A site sends the same over all leftovers iff it fills what it sends. -/
theorem datagram_const_iff (haead : Aead cm) (s : Sending) :
    (∀ x x' : Leftovers, s.datagram cm x = s.datagram cm x') ↔ s.Filled cm := by
  have hleak : ∀ {bytes : Leftovers → List UInt8}, (∃ x x', bytes x ≠ bytes x') →
      ((∀ x x', some (bytes x) = some (bytes x')) ↔ False) := by
    rintro bytes ⟨x, x', hne⟩
    exact iff_of_false (fun h => hne (Option.some.inj (h x x'))) id
  cases s with
  | stunRequest transactionId => exact iff_of_true (fun _ _ => rfl) trivial
  | candidate ip port priority => exact hleak (candidate_leaks ip port priority)
  | holePunch publicIp publicPort => exact hleak (holePunch_leaks publicIp publicPort)
  | hello clientPublicKey username =>
    refine iff_of_true (fun x x' => ?_) trivial
    have hname : ∀ x : Leftovers, (strncpy x.hello.username username 31).set 31 0 =
        (strncpy (Vector.replicate 32 0) username 31).set 31 0 := by
      intro x
      apply Vector.ext
      intro j hj
      by_cases hlast : j = 31
      · subst hlast
        simp
      · have hlt : j < 31 := by omega
        simp [strncpy, Ne.symm hlast, hlt]
    simp only [Sending.datagram, Leftovers.hp, hname]
  | rejection => exact hleak rejection_leaks
  | approval hostPublicKey sessionId => exact iff_of_true (fun _ _ => rfl) trivial
  | client k p =>
    cases p with
    | feedback frameId lossRate rttMs decodeMs requestKeyframe =>
      obtain ⟨x, x', hne⟩ := feedback_leaks haead k frameId lossRate rttMs decodeMs requestKeyframe
      exact iff_of_false (fun h => hne (h x x')) id
    | input timestamp ev =>
      exact seal_const_iff k cm (ClientSending.bytes .zeroed (.input timestamp ev))
    | retransmitRequest frameId fragmentIndex =>
      exact seal_const_iff k cm
        (ClientSending.bytes .zeroed (.retransmitRequest frameId fragmentIndex))
    | timeSync clockUs =>
      exact seal_const_iff k cm (ClientSending.bytes .zeroed (.timeSync clockUs))
  | host k p =>
    have hconst : ∀ x : Leftovers, p.bytes x = p.bytes .zeroed := fun x => by cases p <;> rfl
    simp only [Sending.datagram, hconst]
    exact seal_const_iff k cm (p.bytes .zeroed)

/-- A packet that fills what it sends is acted on alike. -/
theorem act_const (haead : Aead cm) (t : Transfer) (hfilled : t.sending.Filled cm)
    (x x' : Leftovers) {datagram : List UInt8} (hd : t.sending.datagram cm x = some datagram) :
    t.act cm x datagram = t.act cm x' datagram := by
  obtain ⟨s, p⟩ := t
  simp only at hd hfilled
  cases s with
  | stunRequest transactionId => rfl
  | candidate ip port priority => exact hfilled.elim
  | holePunch publicIp publicPort => exact hfilled.elim
  | hello clientPublicKey username =>
    cases hd
    simp only [Transfer.act, HandshakeSecurePacket.read_of_holds (Mem.holds_load _ _)]
  | rejection => exact hfilled.elim
  | approval hostPublicKey sessionId =>
    cases hd
    simp only [Transfer.act, HandshakeSecureResponsePacket.read_of_holds (Mem.holds_load _ _)]
  | client k packet =>
    have hlen : (packet.bytes x).length < 2 ^ 16 := by
      rw [bytes_toPacket]
      exact ClientPacket.length_bytes_lt _
    obtain ⟨hsize, hopen | hopen⟩ := open_seal haead hlen hd
    · simp only [Transfer.act, hopen]
    · simp only [Transfer.act, hopen, hsize, UInt16.toNat_ofNat', Nat.mod_eq_of_lt hlen,
        dispatch_clientSending]
  | host k packet =>
    obtain ⟨hlen, hsame⟩ := dispatch_hostSending p.session packet x p.nowUs
    obtain ⟨hsize, hopen | hopen⟩ := open_seal haead hlen hd
    · simp only [Transfer.act, hopen]
    · simp only [Transfer.act, hopen, hsize, hsame x.decrypted x'.decrypted]

/-- **One transfer** is the same over all leftovers iff its site fills what it sends. -/
theorem observed_const_iff (haead : Aead cm) (t : Transfer) :
    (∀ x x' : Leftovers, t.observed cm x = t.observed cm x') ↔ t.sending.Filled cm := by
  constructor
  · intro h
    exact (datagram_const_iff haead t.sending).mp fun x x' => congrArg Prod.fst (h x x')
  · intro hfilled x x'
    have hd := (datagram_const_iff haead t.sending).mpr hfilled x x'
    unfold Transfer.observed
    rw [← hd]
    cases hx : t.sending.datagram cm x with
    | none => rfl
    | some datagram =>
      simp only [Option.map_some]
      rw [act_const haead t hfilled x x' hx]

end

/-- **Leftovers.** What is sent in a run and acted on does not depend on the leftovers iff every
site of the run fills what it sends. -/
theorem leftoverFree_iff (cm : CryptoManager) (haead : Aead cm) (run : List Transfer) :
    LeftoverFree cm run ↔ ∀ t ∈ run, t.sending.Filled cm := by
  constructor
  · intro h t ht
    obtain ⟨n, hn, rfl⟩ := List.mem_iff_getElem.mp ht
    refine (observed_const_iff haead _).mp fun x x' => ?_
    have hat := congrArg (fun l => l[n]?) (h (fun _ => x) fun _ => x')
    simpa [hn] using hat
  · intro hall xs xs'
    apply List.ext_getElem
    · simp
    · intro n hn _
      rw [List.length_mapIdx] at hn
      rw [List.getElem_mapIdx, List.getElem_mapIdx]
      exact (observed_const_iff haead _).mpr (hall _ (List.getElem_mem hn)) _ _

/-- The build without libsodium. -/
theorem mock_aead : Aead mock where
  encrypts _ _ _ _ := rfl
  decrypts h := by
    cases h
    refine ⟨rfl, ?_, fun _ => .inl ?_⟩ <;> simp [mock, Mock.decrypt, Mock.tag]

/-- A host without sessions and a client before its handshake. -/
def quietPeers : Peers where
  ctx := .init
  input := ⟨mock, ⟨[0x31], 5005⟩, 0, 0, fun _ => 0, staleHeader 0⟩
  target := .new ⟨[0x31], 5005⟩ [] 0
  session := .init ⟨[], []⟩ [0x32] 30
  sender := ⟨[0x32], 5005⟩
  nowUs := 0

/-- A hello, its approval and a time-sync request in the build without libsodium. -/
theorem leftoverFree_iff_mock : LeftoverFree mock
    [⟨.hello (.replicate 32 1) [0x61], quietPeers⟩, ⟨.approval (.replicate 32 2) 7, quietPeers⟩,
      ⟨.client ⟨7, 0, [1]⟩ (.timeSync 5), quietPeers⟩] := by
  refine (leftoverFree_iff mock mock_aead _).mpr fun t ht => ?_
  simp only [List.mem_cons, List.not_mem_nil, or_false] at ht
  rcases ht with rfl | rfl | rfl
  · trivial
  · trivial
  · exact fun _ _ => rfl

/-- One feedback packet of session 7. -/
theorem feedback_not_leftoverFree : ¬ LeftoverFree mock
    [⟨.client ⟨7, 0, [1]⟩ (.feedback 5 0 0 0 true), quietPeers⟩] := by
  intro h
  have hd := congrArg (List.map Prod.fst) (h (fun _ => .zeroed)
    fun _ => { Leftovers.zeroed with feedback := ⟨0, 0, 0, 0, 0, 0, 1, 0⟩ })
  revert hd
  decide

end RemotePlay.Session
