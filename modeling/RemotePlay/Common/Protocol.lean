import RemotePlay.Lib.Bytes

/-!
# The wire protocol

The packed structures of `protocol.hpp`, with the bytes a `memcpy` of the
structure copies (`bytes`) and the structure a cast of a byte pointer sees
(`read`). Floats travel as their bit patterns. `sizeof` of each structure is
its `size`; `length_bytes` ties the two.
-/

namespace RemotePlay.Protocol

open Lib

inductive PacketType where
  | video | input | discovery | handshake | fec | feedback | handshakeResponse
  | handshakeSecure | handshakeSecureResponse | secure | audio | timeSync
  | candidateDiscovery | relayData | retransmitRequest
  deriving DecidableEq, Repr

/-- The byte of a packet type. -/
def PacketType.code : PacketType → UInt8
  | .video => 0x01
  | .input => 0x02
  | .discovery => 0x03
  | .handshake => 0x04
  | .fec => 0x05
  | .feedback => 0x06
  | .handshakeResponse => 0x07
  | .handshakeSecure => 0x08
  | .handshakeSecureResponse => 0x09
  | .secure => 0x0A
  | .audio => 0x0B
  | .timeSync => 0x0C
  | .candidateDiscovery => 0x0D
  | .relayData => 0x0E
  | .retransmitRequest => 0x0F

/-- A packet of one type does not take the branch of another. -/
theorem not_branch {b type type' : UInt8} (h : b = type) (hne : type ≠ type') (q : Prop) :
    ¬ (b = type' ∧ q) :=
  fun hb => hne (h.symm.trans hb.1)

inductive InputType where
  | keyboard | mouseMove | mouseButton | mouseScroll | gamepad | gamepadStatus
  deriving DecidableEq, Repr

def InputType.code : InputType → UInt8
  | .keyboard => 0x01
  | .mouseMove => 0x02
  | .mouseButton => 0x03
  | .mouseScroll => 0x04
  | .gamepad => 0x05
  | .gamepadStatus => 0x06

/-- `MAX_UDP_PAYLOAD`. -/
def maxUdpPayload : Nat := 1300

/-! ## Reading machine integers -/

def u16 (m : Mem) (off : Nat) : UInt16 := UInt16.ofNat (m.le off 2)
def u32 (m : Mem) (off : Nat) : UInt32 := UInt32.ofNat (m.le off 4)
def u64 (m : Mem) (off : Nat) : UInt64 := UInt64.ofNat (m.le off 8)

theorem u16_of_holds {m : Mem} {off : Nat} {x : UInt16} (h : m.Holds off (leBytes 2 x.toNat)) :
    u16 m off = x := by
  rw [u16, Mem.le_of_holds h x.toNat_lt, UInt16.ofNat_toNat]

theorem u32_of_holds {m : Mem} {off : Nat} {x : UInt32} (h : m.Holds off (leBytes 4 x.toNat)) :
    u32 m off = x := by
  rw [u32, Mem.le_of_holds h x.toNat_lt, UInt32.ofNat_toNat]

theorem u64_of_holds {m : Mem} {off : Nat} {x : UInt64} (h : m.Holds off (leBytes 8 x.toNat)) :
    u64 m off = x := by
  rw [u64, Mem.le_of_holds h x.toNat_lt, UInt64.ofNat_toNat]

/-- A byte array field of `n` bytes. -/
abbrev Bytes (n : Nat) := Vector UInt8 n

def bytesAt (m : Mem) (off n : Nat) : Bytes n := ⟨(m.read off n).toArray, by simp⟩

theorem bytesAt_of_holds {m : Mem} {off n : Nat} {v : Bytes n} (h : m.Holds off v.toList) :
    bytesAt m off n = v := by
  apply Vector.toArray_inj.mp
  have := Mem.read_of_holds h (n := n) (by simp)
  simp only [bytesAt, this]
  exact Array.toArray_toList

/-- Bytes that are read back determine the structure. -/
theorem injective_of_read {α : Type} {bytes : α → List UInt8} {read : Mem → α}
    (h : ∀ {m a}, m.Holds 0 (bytes a) → read m = a) : Function.Injective bytes := by
  intro a a' heq
  have ha := h (Mem.holds_load (fun _ => 0) (bytes a))
  rw [heq] at ha
  exact ha.symm.trans (h (Mem.holds_load (fun _ => 0) (bytes a')))

/-! ## Secure envelope -/

structure SecureHeader where
  type : UInt8
  sessionId : UInt64
  sequenceNumber : UInt64
  encryptedSize : UInt16
  authTag : Bytes 16
  deriving DecidableEq, Repr

namespace SecureHeader

def size : Nat := 35

def bytes (h : SecureHeader) : List UInt8 :=
  h.type :: (leBytes 8 h.sessionId.toNat ++ (leBytes 8 h.sequenceNumber.toNat ++
    (leBytes 2 h.encryptedSize.toNat ++ h.authTag.toList)))

def read (m : Mem) : SecureHeader where
  type := m 0
  sessionId := u64 m 1
  sequenceNumber := u64 m 9
  encryptedSize := u16 m 17
  authTag := bytesAt m 19 16

@[simp] theorem length_bytes (h : SecureHeader) : h.bytes.length = size := by
  simp [bytes, size]

theorem read_of_holds {m : Mem} {h : SecureHeader} (hm : m.Holds 0 h.bytes) : read m = h := by
  simp only [bytes, Mem.holds_cons, Mem.holds_append, length_leBytes] at hm
  obtain ⟨h1, h2, h3, h4, h5⟩ := hm
  simp only [read, h1, u64_of_holds h2, u64_of_holds h3, u16_of_holds h4, bytesAt_of_holds h5]

/-- The header is the first `size` bytes. -/
theorem read_congr {m m' : Mem} (h : ∀ i, i < size → m' i = m i) : read m' = read m := by
  have hread : ∀ off n, off + n ≤ size → m'.read off n = m.read off n := fun off n hn =>
    readN_congr fun k hk => h (off + k) (by omega)
  simp only [read, u64, u16, bytesAt, Mem.le, hread 1 8 (by decide), hread 9 8 (by decide),
    hread 17 2 (by decide), hread 19 16 (by decide), h 0 (by decide)]

end SecureHeader

/-! ## Handshake -/

structure HandshakeSecurePacket where
  type : UInt8
  clientPublicKey : Bytes 32
  username : Bytes 32
  deriving DecidableEq

namespace HandshakeSecurePacket

def size : Nat := 65

def bytes (h : HandshakeSecurePacket) : List UInt8 :=
  h.type :: (h.clientPublicKey.toList ++ h.username.toList)

def read (m : Mem) : HandshakeSecurePacket where
  type := m 0
  clientPublicKey := bytesAt m 1 32
  username := bytesAt m 33 32

@[simp] theorem length_bytes (h : HandshakeSecurePacket) : h.bytes.length = size := by
  simp [bytes, size]

theorem read_of_holds {m : Mem} {h : HandshakeSecurePacket} (hm : m.Holds 0 h.bytes) :
    read m = h := by
  simp only [bytes, Mem.holds_cons, Mem.holds_append, Vector.length_toList] at hm
  obtain ⟨h1, h2, h3⟩ := hm
  simp only [read, h1, bytesAt_of_holds h2, bytesAt_of_holds h3]

end HandshakeSecurePacket

structure HandshakeSecureResponsePacket where
  type : UInt8
  hostPublicKey : Bytes 32
  approved : UInt8
  sessionId : UInt64
  deriving DecidableEq

namespace HandshakeSecureResponsePacket

def size : Nat := 42

def bytes (h : HandshakeSecureResponsePacket) : List UInt8 :=
  h.type :: (h.hostPublicKey.toList ++ (h.approved :: leBytes 8 h.sessionId.toNat))

def read (m : Mem) : HandshakeSecureResponsePacket where
  type := m 0
  hostPublicKey := bytesAt m 1 32
  approved := m 33
  sessionId := u64 m 34

@[simp] theorem length_bytes (h : HandshakeSecureResponsePacket) : h.bytes.length = size := by
  simp [bytes, size]

theorem read_of_holds {m : Mem} {h : HandshakeSecureResponsePacket} (hm : m.Holds 0 h.bytes) :
    read m = h := by
  simp only [bytes, Mem.holds_cons, Mem.holds_append, Vector.length_toList] at hm
  obtain ⟨h1, h2, h3, h4⟩ := hm
  simp only [read, h1, bytesAt_of_holds h2, h3, u64_of_holds h4]

end HandshakeSecureResponsePacket

/-! ## Candidates and relays -/

structure CandidatePacket where
  type : UInt8
  ip : Bytes 64
  port : UInt16
  priority : UInt8

namespace CandidatePacket

def size : Nat := 68

def bytes (h : CandidatePacket) : List UInt8 :=
  h.type :: (h.ip.toList ++ (leBytes 2 h.port.toNat ++ [h.priority]))

def read (m : Mem) : CandidatePacket where
  type := m 0
  ip := bytesAt m 1 64
  port := u16 m 65
  priority := m 67

@[simp] theorem length_bytes (h : CandidatePacket) : h.bytes.length = size := by
  simp [bytes, size]

theorem read_of_holds {m : Mem} {h : CandidatePacket} (hm : m.Holds 0 h.bytes) : read m = h := by
  simp only [bytes, Mem.holds_cons, Mem.holds_append, Vector.length_toList, length_leBytes] at hm
  obtain ⟨h1, h2, h3, h4, -⟩ := hm
  simp only [read, h1, bytesAt_of_holds h2, u16_of_holds h3, h4]

/-- The packet is the first `size` bytes. -/
theorem read_congr {m m' : Mem} (h : ∀ i, i < size → m' i = m i) : read m' = read m := by
  have hread : ∀ off n, off + n ≤ size → m'.read off n = m.read off n := fun off n hn =>
    readN_congr fun k hk => h (off + k) (by omega)
  simp only [read, u16, bytesAt, Mem.le, hread 1 64 (by decide), hread 65 2 (by decide),
    h 0 (by decide), h 67 (by decide)]

/-- `cp->ip` as a C string: the bytes before the first NUL. -/
def ipChars (p : CandidatePacket) : List UInt8 := p.ip.toList.takeWhile (· ≠ 0)

end CandidatePacket

structure RelayHeader where
  type : UInt8
  sessionId : UInt64
  targetUUID : Bytes 16
  dataSize : UInt16

namespace RelayHeader

def size : Nat := 27

def bytes (h : RelayHeader) : List UInt8 :=
  h.type :: (leBytes 8 h.sessionId.toNat ++ (h.targetUUID.toList ++ leBytes 2 h.dataSize.toNat))

def read (m : Mem) : RelayHeader where
  type := m 0
  sessionId := u64 m 1
  targetUUID := bytesAt m 9 16
  dataSize := u16 m 25

@[simp] theorem length_bytes (h : RelayHeader) : h.bytes.length = size := by
  simp [bytes, size]

theorem read_of_holds {m : Mem} {h : RelayHeader} (hm : m.Holds 0 h.bytes) : read m = h := by
  simp only [bytes, Mem.holds_cons, Mem.holds_append, length_leBytes, Vector.length_toList] at hm
  obtain ⟨h1, h2, h3, h4⟩ := hm
  simp only [read, h1, u64_of_holds h2, bytesAt_of_holds h3, u16_of_holds h4]

end RelayHeader

/-! ## Media -/

structure VideoHeader where
  type : UInt8
  frameId : UInt32
  fragmentIndex : UInt16
  totalFragments : UInt16
  packetSequence : UInt32
  captureTimestamp : UInt64
  encodeStartTimestamp : UInt64
  encodeEndTimestamp : UInt64
  flags : UInt8
  dataSize : UInt16
  deriving DecidableEq, Repr

namespace VideoHeader

def size : Nat := 40

def bytes (h : VideoHeader) : List UInt8 :=
  h.type :: (leBytes 4 h.frameId.toNat ++ (leBytes 2 h.fragmentIndex.toNat ++
    (leBytes 2 h.totalFragments.toNat ++ (leBytes 4 h.packetSequence.toNat ++
      (leBytes 8 h.captureTimestamp.toNat ++ (leBytes 8 h.encodeStartTimestamp.toNat ++
        (leBytes 8 h.encodeEndTimestamp.toNat ++ (h.flags :: leBytes 2 h.dataSize.toNat))))))))

def read (m : Mem) : VideoHeader where
  type := m 0
  frameId := u32 m 1
  fragmentIndex := u16 m 5
  totalFragments := u16 m 7
  packetSequence := u32 m 9
  captureTimestamp := u64 m 13
  encodeStartTimestamp := u64 m 21
  encodeEndTimestamp := u64 m 29
  flags := m 37
  dataSize := u16 m 38

@[simp] theorem length_bytes (h : VideoHeader) : h.bytes.length = size := by
  simp [bytes, size]

theorem read_of_holds {m : Mem} {h : VideoHeader} (hm : m.Holds 0 h.bytes) : read m = h := by
  simp only [bytes, Mem.holds_cons, Mem.holds_append, length_leBytes] at hm
  obtain ⟨h1, h2, h3, h4, h5, h6, h7, h8, h9, h10⟩ := hm
  simp only [read, h1, u32_of_holds h2, u16_of_holds h3, u16_of_holds h4, u32_of_holds h5,
    u64_of_holds h6, u64_of_holds h7, u64_of_holds h8, h9, u16_of_holds h10]

/-- Bit 0 of the flags: a keyframe. -/
def isKeyframe (h : VideoHeader) : Bool := h.flags &&& 0x01 != 0

/-- Bit 1 of the flags: an HEVC frame. -/
def isHEVC (h : VideoHeader) : Bool := h.flags &&& 0x02 != 0

end VideoHeader

structure FECHeader where
  type : UInt8
  frameId : UInt32
  fragmentStart : UInt16
  fragmentCount : UInt16
  packetSequence : UInt32
  dataSize : UInt16
  deriving DecidableEq, Repr

structure AudioHeader where
  type : UInt8
  frameId : UInt32
  timestamp : UInt64
  dataSize : UInt16

namespace AudioHeader

def size : Nat := 15

def bytes (h : AudioHeader) : List UInt8 :=
  h.type :: (leBytes 4 h.frameId.toNat ++ (leBytes 8 h.timestamp.toNat ++
    leBytes 2 h.dataSize.toNat))

def read (m : Mem) : AudioHeader where
  type := m 0
  frameId := u32 m 1
  timestamp := u64 m 5
  dataSize := u16 m 13

@[simp] theorem length_bytes (h : AudioHeader) : h.bytes.length = size := by
  simp [bytes, size]

theorem read_of_holds {m : Mem} {h : AudioHeader} (hm : m.Holds 0 h.bytes) : read m = h := by
  simp only [bytes, Mem.holds_cons, Mem.holds_append, length_leBytes] at hm
  obtain ⟨h1, h2, h3, h4⟩ := hm
  simp only [read, h1, u32_of_holds h2, u64_of_holds h3, u16_of_holds h4]

end AudioHeader

/-! ## Client to host, and time synchronisation -/

structure FeedbackHeader where
  type : UInt8
  lastReceivedFrameId : UInt32
  lossRate : UInt32
  rttMs : UInt32
  avgDecodeTimeMs : UInt32
  requestKeyframe : UInt8
  targetBitrateKbps : UInt16
  resolutionScale : UInt32
  deriving DecidableEq, Repr

namespace FeedbackHeader

def size : Nat := 24

def bytes (h : FeedbackHeader) : List UInt8 :=
  h.type :: (leBytes 4 h.lastReceivedFrameId.toNat ++ (leBytes 4 h.lossRate.toNat ++
    (leBytes 4 h.rttMs.toNat ++ (leBytes 4 h.avgDecodeTimeMs.toNat ++ (h.requestKeyframe ::
      (leBytes 2 h.targetBitrateKbps.toNat ++ leBytes 4 h.resolutionScale.toNat))))))

def read (m : Mem) : FeedbackHeader where
  type := m 0
  lastReceivedFrameId := u32 m 1
  lossRate := u32 m 5
  rttMs := u32 m 9
  avgDecodeTimeMs := u32 m 13
  requestKeyframe := m 17
  targetBitrateKbps := u16 m 18
  resolutionScale := u32 m 20

@[simp] theorem length_bytes (h : FeedbackHeader) : h.bytes.length = size := by
  simp [bytes, size]

theorem read_of_holds {m : Mem} {h : FeedbackHeader} (hm : m.Holds 0 h.bytes) : read m = h := by
  simp only [bytes, Mem.holds_cons, Mem.holds_append, length_leBytes] at hm
  obtain ⟨h1, h2, h3, h4, h5, h6, h7, h8⟩ := hm
  simp only [read, h1, u32_of_holds h2, u32_of_holds h3, u32_of_holds h4, u32_of_holds h5, h6,
    u16_of_holds h7, u32_of_holds h8]

end FeedbackHeader

structure RetransmitRequestPacket where
  type : UInt8
  frameId : UInt32
  fragmentIndex : UInt16
  deriving DecidableEq, Repr

namespace RetransmitRequestPacket

def size : Nat := 7

def bytes (h : RetransmitRequestPacket) : List UInt8 :=
  h.type :: (leBytes 4 h.frameId.toNat ++ leBytes 2 h.fragmentIndex.toNat)

def read (m : Mem) : RetransmitRequestPacket where
  type := m 0
  frameId := u32 m 1
  fragmentIndex := u16 m 5

@[simp] theorem length_bytes (h : RetransmitRequestPacket) : h.bytes.length = size := by
  simp [bytes, size]

theorem read_of_holds {m : Mem} {h : RetransmitRequestPacket} (hm : m.Holds 0 h.bytes) :
    read m = h := by
  simp only [bytes, Mem.holds_cons, Mem.holds_append, length_leBytes] at hm
  obtain ⟨h1, h2, h3⟩ := hm
  simp only [read, h1, u32_of_holds h2, u16_of_holds h3]

end RetransmitRequestPacket

structure TimeSyncPacket where
  type : UInt8
  clientSendTimestamp : UInt64
  deriving DecidableEq, Repr

namespace TimeSyncPacket

def size : Nat := 9

def bytes (h : TimeSyncPacket) : List UInt8 := h.type :: leBytes 8 h.clientSendTimestamp.toNat

def read (m : Mem) : TimeSyncPacket where
  type := m 0
  clientSendTimestamp := u64 m 1

@[simp] theorem length_bytes (h : TimeSyncPacket) : h.bytes.length = size := by
  simp [bytes, size]

theorem read_of_holds {m : Mem} {h : TimeSyncPacket} (hm : m.Holds 0 h.bytes) : read m = h := by
  simp only [bytes, Mem.holds_cons] at hm
  obtain ⟨h1, h2⟩ := hm
  simp only [read, h1, u64_of_holds h2]

end TimeSyncPacket

structure TimeSyncResponsePacket where
  type : UInt8
  clientSendTimestamp : UInt64
  hostReceiveTimestamp : UInt64
  hostSendTimestamp : UInt64
  deriving DecidableEq, Repr

namespace TimeSyncResponsePacket

def size : Nat := 25

def bytes (h : TimeSyncResponsePacket) : List UInt8 :=
  h.type :: (leBytes 8 h.clientSendTimestamp.toNat ++ (leBytes 8 h.hostReceiveTimestamp.toNat ++
    leBytes 8 h.hostSendTimestamp.toNat))

def read (m : Mem) : TimeSyncResponsePacket where
  type := m 0
  clientSendTimestamp := u64 m 1
  hostReceiveTimestamp := u64 m 9
  hostSendTimestamp := u64 m 17

@[simp] theorem length_bytes (h : TimeSyncResponsePacket) : h.bytes.length = size := by
  simp [bytes, size]

end TimeSyncResponsePacket

structure InputHeader where
  type : UInt8
  inputType : UInt8
  timestamp : UInt64
  deriving DecidableEq, Repr

namespace InputHeader

def size : Nat := 10

def bytes (h : InputHeader) : List UInt8 :=
  h.type :: h.inputType :: leBytes 8 h.timestamp.toNat

def read (m : Mem) : InputHeader where
  type := m 0
  inputType := m 1
  timestamp := u64 m 2

@[simp] theorem length_bytes (h : InputHeader) : h.bytes.length = size := by
  simp [bytes, size]

theorem read_of_holds {m : Mem} {h : InputHeader} (hm : m.Holds 0 h.bytes) : read m = h := by
  simp only [bytes, Mem.holds_cons] at hm
  obtain ⟨h1, h2, h3⟩ := hm
  simp only [read, h1, h2, u64_of_holds h3]

end InputHeader

/-! ## Input events -/

/-- The payload of an `Input` packet, one constructor for each event structure. -/
inductive InputEvent where
  | keyboard (vkCode : UInt16) (isPressed : UInt8)
  | mouseMove (x y : Int32) (screenWidth screenHeight : UInt32) (isRelative : UInt8)
  | mouseButton (button isPressed : UInt8)
  | mouseScroll (delta : Int32)
  | gamepad (gamepadId : UInt8) (buttons : UInt16) (leftTrigger rightTrigger : UInt8)
      (thumbLX thumbLY thumbRX thumbRY : Int16)
  | gamepadStatus (gamepadId isConnected : UInt8)
  deriving DecidableEq, Repr

namespace InputEvent

def inputType : InputEvent → InputType
  | .keyboard .. => .keyboard
  | .mouseMove .. => .mouseMove
  | .mouseButton .. => .mouseButton
  | .mouseScroll .. => .mouseScroll
  | .gamepad .. => .gamepad
  | .gamepadStatus .. => .gamepadStatus

/-- `sizeof` of the event structure. -/
def size : InputType → Nat
  | .keyboard => 3
  | .mouseMove => 17
  | .mouseButton => 2
  | .mouseScroll => 4
  | .gamepad => 13
  | .gamepadStatus => 2

def bytes : InputEvent → List UInt8
  | .keyboard vk p => leBytes 2 vk.toNat ++ [p]
  | .mouseMove x y w h rel => leBytes 4 x.toUInt32.toNat ++ (leBytes 4 y.toUInt32.toNat ++
      (leBytes 4 w.toNat ++ (leBytes 4 h.toNat ++ [rel])))
  | .mouseButton b p => [b, p]
  | .mouseScroll d => leBytes 4 d.toUInt32.toNat
  | .gamepad i b lt rt lx ly rx ry => i :: (leBytes 2 b.toNat ++ (lt :: rt ::
      (leBytes 2 lx.toUInt16.toNat ++ (leBytes 2 ly.toUInt16.toNat ++
        (leBytes 2 rx.toUInt16.toNat ++ leBytes 2 ry.toUInt16.toNat)))))
  | .gamepadStatus i c => [i, c]

/-- The event structure of a type, as a cast of the payload pointer sees it. -/
def read (m : Mem) : InputType → InputEvent
  | .keyboard => .keyboard (u16 m 0) (m 2)
  | .mouseMove => .mouseMove (u32 m 0).toInt32 (u32 m 4).toInt32 (u32 m 8) (u32 m 12) (m 16)
  | .mouseButton => .mouseButton (m 0) (m 1)
  | .mouseScroll => .mouseScroll (u32 m 0).toInt32
  | .gamepad => .gamepad (m 0) (u16 m 1) (m 3) (m 4) (u16 m 5).toInt16 (u16 m 7).toInt16
      (u16 m 9).toInt16 (u16 m 11).toInt16
  | .gamepadStatus => .gamepadStatus (m 0) (m 1)

@[simp] theorem length_bytes (ev : InputEvent) : ev.bytes.length = size ev.inputType := by
  cases ev <;> simp [bytes, size, inputType]

theorem read_of_holds {m : Mem} {ev : InputEvent} (hm : m.Holds 0 ev.bytes) :
    read m ev.inputType = ev := by
  cases ev with
  | keyboard vk p =>
    simp only [bytes, Mem.holds_append, Mem.holds_cons, length_leBytes] at hm
    obtain ⟨h1, h2, -⟩ := hm
    simp only [inputType, read, u16_of_holds h1, h2]
  | mouseMove x y w h rel =>
    simp only [bytes, Mem.holds_append, Mem.holds_cons, length_leBytes] at hm
    obtain ⟨h1, h2, h3, h4, h5, -⟩ := hm
    simp only [inputType, read, u32_of_holds h1, u32_of_holds h2, u32_of_holds h3,
      u32_of_holds h4, h5, Int32.toInt32_toUInt32]
  | mouseButton b p =>
    simp only [bytes, Mem.holds_cons] at hm
    obtain ⟨h1, h2, -⟩ := hm
    simp only [inputType, read, h1, h2]
  | mouseScroll d =>
    simp only [inputType, read, u32_of_holds hm, Int32.toInt32_toUInt32]
  | gamepad i b lt rt lx ly rx ry =>
    simp only [bytes, Mem.holds_append, Mem.holds_cons, length_leBytes] at hm
    obtain ⟨h1, h2, h3, h4, h5, h6, h7, h8⟩ := hm
    simp only [inputType, read, h1, u16_of_holds h2, h3, h4, u16_of_holds h5, u16_of_holds h6,
      u16_of_holds h7, u16_of_holds h8, Int16.toInt16_toUInt16]
  | gamepadStatus i c =>
    simp only [bytes, Mem.holds_cons] at hm
    obtain ⟨h1, h2, -⟩ := hm
    simp only [inputType, read, h1, h2]

end InputEvent

end RemotePlay.Protocol
