import RemotePlay.Client.SequenceWindow
import RemotePlay.Common.PacketPool
import RemotePlay.Common.Protocol

/-!
# The receiver

`Receiver` reassembles video fragments into frames. A `FrameData` carries its
index in `m_frameStorage` (`addr`), which is the identity its pointer has; it
is moved whole between the pool, a ring slot and the handle `GetNextFrame`
gives out. Each method runs under the receiver's mutex and is one function of
the state.
-/

namespace RemotePlay.Client

open Lib Protocol

structure FrameData where
  addr : Nat
  frameId : UInt32
  buffer : Vec UInt8
  totalSize : Nat
  fragmentsReceived : UInt16
  totalFragments : UInt16
  captureTimestamp : UInt64
  encodeStartTimestamp : UInt64
  encodeEndTimestamp : UInt64
  receiveTimestamp : UInt64
  isComplete : Bool
  isKeyframe : Bool
  isHEVC : Bool
  fragmentMap : Vec Bool
  fragmentSizes : Vec UInt16

namespace FrameData

/-- A new entry of `m_frameStorage`: a zeroed frame with a 1 MiB buffer. -/
def new (addr : Nat) : FrameData where
  addr := addr
  frameId := 0
  buffer := .replicate (1024 * 1024) 0
  totalSize := 0
  fragmentsReceived := 0
  totalFragments := 0
  captureTimestamp := 0
  encodeStartTimestamp := 0
  encodeEndTimestamp := 0
  receiveTimestamp := 0
  isComplete := false
  isKeyframe := false
  isHEVC := false
  fragmentMap := .replicate 1024 false
  fragmentSizes := .replicate 1024 0

/-- `FrameData::Reset`; the buffer keeps its bytes. -/
def reset (f : FrameData) : FrameData :=
  { f with
    frameId := 0
    totalSize := 0
    fragmentsReceived := 0
    totalFragments := 0
    captureTimestamp := 0
    encodeStartTimestamp := 0
    encodeEndTimestamp := 0
    receiveTimestamp := 0
    isComplete := false
    isKeyframe := false
    isHEVC := false
    fragmentMap := f.fragmentMap.fill false
    fragmentSizes := f.fragmentSizes.fill 0 }

/-- A recycled frame set up for the frame of `header`. -/
def start (f : FrameData) (header : VideoHeader) (nowUs : UInt64) : FrameData :=
  let f := { f.reset with
    frameId := header.frameId
    totalFragments := header.totalFragments
    captureTimestamp := header.captureTimestamp
    encodeStartTimestamp := header.encodeStartTimestamp
    encodeEndTimestamp := header.encodeEndTimestamp
    isKeyframe := header.isKeyframe
    isHEVC := header.isHEVC
    receiveTimestamp := nowUs }
  if f.fragmentMap.size < header.totalFragments.toNat then
    { f with
      fragmentMap := f.fragmentMap.resize header.totalFragments.toNat false
      fragmentSizes := f.fragmentSizes.resize header.totalFragments.toNat 0 }
  else f

/-- Store a fragment that is still missing, when it fits the buffer. -/
def store (f : FrameData) (header : VideoHeader) (payload : Mem) : FrameData :=
  let offset := header.fragmentIndex.toNat * maxUdpPayload
  if offset + header.dataSize.toNat ≤ f.buffer.size then
    { f with
      buffer := f.buffer.copyIn offset header.dataSize.toNat payload
      fragmentMap := f.fragmentMap.set header.fragmentIndex.toNat true
      fragmentSizes := f.fragmentSizes.set header.fragmentIndex.toNat header.dataSize
      fragmentsReceived := f.fragmentsReceived + 1
      totalSize := if header.fragmentIndex.toNat + 1 = header.totalFragments.toNat
        then offset + header.dataSize.toNat else f.totalSize }
  else f

end FrameData

structure FECGroup where
  fecHeader : FECHeader
  fecReceived : Bool
  fecPacket : Option Packet
  frameId : UInt32

structure Receiver where
  frameRing : FixedRingBuffer 64 (Option FrameData)
  /-- From the back of the vector. -/
  framePool : List FrameData
  /-- The number of frames ever allocated. -/
  frameStorage : Nat
  fecRing : FixedRingBuffer 1024 FECGroup
  fecPool : PacketPool
  lastCompletedFrameId : UInt32
  nextFrameIdToRead : UInt32
  firstFrameReceived : Bool
  sequence : SequenceWindow

namespace Receiver

def init (poolSize : Nat) : Receiver where
  frameRing := ⟨fun _ => none⟩
  framePool := ((List.range poolSize).map FrameData.new).reverse
  frameStorage := poolSize
  fecRing := ⟨fun _ => ⟨⟨0, 0, 0, 0, 0, 0⟩, false, none, 0⟩⟩
  fecPool := .init 512 1500
  lastCompletedFrameId := 0
  nextFrameIdToRead := 0
  firstFrameReceived := false
  sequence := .init

def validateSequence (r : Receiver) (seq : UInt64) : Bool × Receiver :=
  ((r.sequence.validateSequence seq).1, { r with sequence := (r.sequence.validateSequence seq).2 })

/-! ## Frame ownership -/

/-- `GetFromPoolInternalRaw`: the back of the pool, or an emergency allocation. -/
def getFromPool (r : Receiver) : FrameData × Receiver :=
  match r.framePool with
  | [] => (.new r.frameStorage, { r with frameStorage := r.frameStorage + 1 })
  | f :: rest => (f, { r with framePool := rest })

/-- `ReturnToPoolInternalRaw`, with its check for a frame that is already there. -/
def returnToPool (r : Receiver) (f : FrameData) : Receiver :=
  if r.framePool.any (·.addr = f.addr) then r else { r with framePool := f :: r.framePool }

/-- The ring slot of `frameId` gets `f`. -/
def setSlot (r : Receiver) (frameId : UInt32) (f : Option FrameData) : Receiver :=
  { r with frameRing := r.frameRing.insert frameId f }

/-! ## FEC recovery -/

/-- The scan of `TryRecover`: how many fragments of the group are missing, and the last of them.
`n` rounds are left and `i` are done. -/
def scanMissing (f : FrameData) (groupStart : UInt16) (missing : UInt16 × UInt16) :
    Nat → Nat → UInt16 × UInt16
  | 0, _ => missing
  | n + 1, i =>
    let idx := groupStart + UInt16.ofNat i
    if idx ≥ f.totalFragments ∨ idx.toNat ≥ f.fragmentMap.size then missing
    else if f.fragmentMap.get idx.toNat then scanMissing f groupStart missing n (i + 1)
    else scanMissing f groupStart (missing.1 + 1, idx) n (i + 1)

/-- `recoveredPayload[k] ^= otherPayload[k]` for `k` below the count, both inside one buffer. -/
def xorBytes (buffer : Vec UInt8) (recovered other : Nat) : Nat → Vec UInt8
  | 0 => buffer
  | k + 1 =>
    let buffer := xorBytes buffer recovered other k
    buffer.set (recovered + k) (buffer.get (recovered + k) ^^^ buffer.get (other + k))

/-- The XOR over the other fragments of the group, `n` rounds left and `i` done. -/
def xorGroup (f : FrameData) (dataSize groupStart missingIndex : UInt16) (buffer : Vec UInt8) :
    Nat → Nat → Vec UInt8
  | 0, _ => buffer
  | n + 1, i =>
    let idx := groupStart + UInt16.ofNat i
    if idx = missingIndex ∨ idx ≥ f.totalFragments then
      xorGroup f dataSize groupStart missingIndex buffer n (i + 1)
    else
      let xorSize := min dataSize.toNat (f.fragmentSizes.get idx.toNat).toNat
      let buffer := xorBytes buffer (missingIndex.toNat * maxUdpPayload)
        (idx.toNat * maxUdpPayload) xorSize
      xorGroup f dataSize groupStart missingIndex buffer n (i + 1)

/-- The frame with fragment `missingIndex` rebuilt from the group's parity packet. -/
def recover (f : FrameData) (fec : FECHeader) (fecPacket : Packet)
    (groupStart missingIndex : UInt16) : FrameData :=
  let offset := missingIndex.toNat * maxUdpPayload
  let buffer := f.buffer.copyIn offset fec.dataSize.toNat fecPacket.data.get
  { f with
    buffer := xorGroup f fec.dataSize groupStart missingIndex buffer fec.fragmentCount.toNat 0
    fragmentMap := f.fragmentMap.set missingIndex.toNat true
    fragmentSizes := f.fragmentSizes.set missingIndex.toNat fec.dataSize
    fragmentsReceived := f.fragmentsReceived + 1
    totalSize := if missingIndex.toNat + 1 = f.totalFragments.toNat
      then offset + fec.dataSize.toNat else f.totalSize }

/-- Mark a frame complete once it has all its fragments. -/
def complete (r : Receiver) (f : FrameData) (frameId : UInt32) : Receiver :=
  if f.fragmentsReceived = f.totalFragments then
    { r.setSlot frameId (some { f with isComplete := true }) with
      lastCompletedFrameId := max r.lastCompletedFrameId frameId }
  else r.setSlot frameId (some f)

def fecIdx (frameId : UInt32) (groupStart : UInt16) : UInt32 :=
  frameId * 13 + (groupStart / 5).toUInt32

/-- `TryRecover`. A received group always has its packet. -/
def tryRecover (r : Receiver) (frameId : UInt32) (groupStart : UInt16) : Receiver :=
  match r.frameRing.get frameId with
  | none => r
  | some f =>
    let group := r.fecRing.get (fecIdx frameId groupStart)
    if f.frameId ≠ frameId ∨ f.isComplete then r
    else if !group.fecReceived ∨ group.frameId ≠ frameId ∨
        group.fecHeader.fragmentStart ≠ groupStart then r
    else
      let missing := scanMissing f groupStart (0, 0) group.fecHeader.fragmentCount.toNat 0
      if missing.1 = 1 ∧
          missing.2.toNat * maxUdpPayload + group.fecHeader.dataSize.toNat ≤ f.buffer.size then
        match group.fecPacket with
        | none => r
        | some pkt => r.complete (recover f group.fecHeader pkt groupStart missing.2) frameId
      else r

/-! ## ProcessPacket -/

/-- A frame from the pool, set up for `header`, in its slot. -/
def startFrame (r : Receiver) (header : VideoHeader) (nowUs : UInt64) : Receiver :=
  r.getFromPool.2.setSlot header.frameId (some (r.getFromPool.1.start header nowUs))

/-- The slot of `header.frameId` holds its frame afterwards: the one already there, or a recycled
one in place of a frame of another id. -/
def ensureFrame (r : Receiver) (header : VideoHeader) (nowUs : UInt64) : Receiver :=
  match r.frameRing.get header.frameId with
  | none => r.startFrame header nowUs
  | some old =>
    if old.frameId ≠ header.frameId then (r.returnToPool old).startFrame header nowUs else r

/-- Store the fragment in the frame of its slot, try to recover its group, and complete. -/
def storeFragment (r : Receiver) (header : VideoHeader) (payload : Mem) : Receiver :=
  match r.frameRing.get header.frameId with
  | none => r
  | some f =>
    let r :=
      if header.fragmentIndex < f.totalFragments ∧
          f.fragmentMap.get header.fragmentIndex.toNat = false then
        (r.setSlot header.frameId (some (f.store header payload))).tryRecover header.frameId
          (header.fragmentIndex / 5 * 5)
      else r
    match r.frameRing.get header.frameId with
    | none => r
    | some f => r.complete f header.frameId

/-- The gate before the first keyframe, which also places the read pointer; `none` drops. -/
def gate (r : Receiver) (header : VideoHeader) : Option Receiver :=
  if r.firstFrameReceived then some r
  else if header.isKeyframe then
    some { r with nextFrameIdToRead := header.frameId, firstFrameReceived := true }
  else none

def processPacket (r : Receiver) (header : VideoHeader) (payload : Mem) (nowUs : UInt64) :
    Receiver :=
  match r.gate header with
  | none => r
  | some r =>
    if header.frameId < r.nextFrameIdToRead then r
    else if header.totalFragments > 1024 ∨ header.dataSize.toNat > maxUdpPayload then r
    else (r.ensureFrame header nowUs).storeFragment header payload

/-! ## ProcessFEC -/

/-- The slot of `header` has no group or another one. -/
def NewGroup (r : Receiver) (header : FECHeader) : Prop :=
  let group := r.fecRing.get (fecIdx header.frameId header.fragmentStart)
  !group.fecReceived ∨ group.frameId ≠ header.frameId ∨
    group.fecHeader.fragmentStart ≠ header.fragmentStart

instance (r : Receiver) (header : FECHeader) : Decidable (r.NewGroup header) := by
  unfold NewGroup
  infer_instance

/-- A packet from the pool, to which the packet of the slot has gone back. -/
def acquireFec (r : Receiver) (header : FECHeader) : Option Packet × PacketPool :=
  (r.fecPool.release (r.fecRing.get (fecIdx header.frameId header.fragmentStart)).fecPacket).acquire

/-- The slot of `header` gets its group, the payload copied to `pkt`. -/
def storeGroup (r : Receiver) (header : FECHeader) (payload : Mem) (pkt : Packet)
    (pool : PacketPool) : Receiver :=
  { r with
    fecPool := pool
    fecRing := r.fecRing.insert (fecIdx header.frameId header.fragmentStart) {
      fecHeader := header
      fecReceived := true
      fecPacket := some { pkt with
        data := pkt.data.copyIn 0 header.dataSize.toNat payload
        size := header.dataSize.toNat }
      frameId := header.frameId } }

def processFEC (r : Receiver) (header : FECHeader) (payload : Mem) : Receiver :=
  if header.frameId < r.nextFrameIdToRead then r
  else if r.NewGroup header then
    match r.acquireFec header with
    | (none, pool) =>
      -- `memcpy` through the null pointer: the group is left as it is by then
      let index := fecIdx header.frameId header.fragmentStart
      { r with
        fecPool := pool
        fecRing := r.fecRing.insert index { r.fecRing.get index with
          fecHeader := header
          fecPacket := none
          frameId := header.frameId } }
    | (some pkt, pool) =>
      (r.storeGroup header payload pkt pool).tryRecover header.frameId header.fragmentStart
  else r

/-! ## The reading side -/

/-- The frame in the slot of `frameId`, when it is that frame. -/
def frameAt (r : Receiver) (frameId : UInt32) : Option FrameData :=
  (r.frameRing.get frameId).filter (·.frameId = frameId)

def getNextFrame (r : Receiver) : Option FrameData × Receiver :=
  match r.frameAt r.nextFrameIdToRead with
  | some f =>
    if f.isComplete then
      (some f, { r.setSlot r.nextFrameIdToRead none with
        nextFrameIdToRead := r.nextFrameIdToRead + 1 })
    else (none, r)
  | none => (none, r)

/-- The scan of `FindLatestAvailableKeyframe`, `i` rounds. -/
def scanKeyframes (r : Receiver) : Nat → Option UInt32
  | 0 => none
  | i + 1 =>
    let fid := r.nextFrameIdToRead + UInt32.ofNat i
    match r.frameAt fid with
    | some f => if f.isComplete && f.isKeyframe then some fid else scanKeyframes r i
    | none => scanKeyframes r i

/-- `0` when there is none. -/
def findLatestAvailableKeyframe (r : Receiver) : UInt32 := (r.scanKeyframes 64).getD 0

/-- The loop of `ForceAdvanceTo`: frames `fid, …, fid + n - 1` go back to the pool. -/
def dropFrames (r : Receiver) (fid : UInt32) : Nat → Receiver
  | 0 => r
  | n + 1 =>
    match r.frameAt fid with
    | some f => dropFrames ((r.returnToPool f).setSlot fid none) (fid + 1) n
    | none => dropFrames r (fid + 1) n

def forceAdvanceTo (r : Receiver) (frameId : UInt32) : Receiver :=
  if frameId ≤ r.nextFrameIdToRead then r
  else
    { r.dropFrames r.nextFrameIdToRead (frameId - r.nextFrameIdToRead).toNat with
      nextFrameIdToRead := frameId }

end Receiver

end RemotePlay.Client
