import RemotePlay.Common.PacketPool
import RemotePlay.Common.Protocol

/-!
# Fragmentation

The formulas with which the packetizer cuts an encoded frame into
`VideoHeader` fragments of at most `MAX_UDP_PAYLOAD` bytes.
-/

namespace RemotePlay.Host

open Lib Protocol

/-- `Host::EncodedPacket`. -/
structure EncodedPacket where
  packet : Packet
  isKeyframe : Bool
  isHEVC : Bool
  captureTimestamp : UInt64
  encodeStartTimestamp : UInt64
  encodeEndTimestamp : UInt64

namespace EncodedPacket

/-- `(uint16_t)((size + MAX_UDP_PAYLOAD - 1) / MAX_UDP_PAYLOAD)`. -/
def totalFrags (frame : EncodedPacket) : UInt16 :=
  UInt16.ofNat ((frame.packet.size + maxUdpPayload - 1) / maxUdpPayload)

/-- The payload size of fragment `i`: the rest of the frame, at most `MAX_UDP_PAYLOAD`. -/
def fragmentSize (frame : EncodedPacket) (i : UInt16) : UInt16 :=
  UInt16.ofNat (min maxUdpPayload ((frame.packet.size - i.toNat * maxUdpPayload) % 2 ^ 32))

def flags (frame : EncodedPacket) : UInt8 :=
  (if frame.isKeyframe then 0x01 else 0x00) ||| (if frame.isHEVC then 0x02 else 0x00)

/-- The header of fragment `i`. -/
def videoHeader (frame : EncodedPacket) (currentFid : UInt32) (i : UInt16)
    (packetSequence : UInt32) : VideoHeader where
  type := PacketType.video.code
  frameId := currentFid
  fragmentIndex := i
  totalFragments := frame.totalFrags
  packetSequence := packetSequence
  captureTimestamp := frame.captureTimestamp
  encodeStartTimestamp := frame.encodeStartTimestamp
  encodeEndTimestamp := frame.encodeEndTimestamp
  flags := frame.flags
  dataSize := frame.fragmentSize i

/-- The bytes fragment `i` copies, from `packet->data.data() + i * MAX_UDP_PAYLOAD` on. -/
def fragmentPayload (frame : EncodedPacket) (i : UInt16) : Mem :=
  fun k => frame.packet.data.get (i.toNat * maxUdpPayload + k)

/-- A frame of 1 byte to 1 MiB, as the encoder leaves them in buffers of `packetPool`. -/
def Fits (frame : EncodedPacket) : Prop :=
  1 ≤ frame.packet.size ∧ frame.packet.size ≤ 1024 * 1024

section
variable {frame : EncodedPacket}

theorem totalFrags_toNat (h : frame.Fits) :
    frame.totalFrags.toNat = (frame.packet.size + 1299) / 1300 := by
  simp only [Fits] at h
  simp only [totalFrags, maxUdpPayload, UInt16.toNat_ofNat']
  omega

theorem totalFrags_pos (h : frame.Fits) : 0 < frame.totalFrags.toNat := by
  rw [totalFrags_toNat h]; have := h.1; omega

theorem totalFrags_le (h : frame.Fits) : frame.totalFrags.toNat ≤ 807 := by
  rw [totalFrags_toNat h]; have := h.2; omega

theorem fragmentSize_toNat (h : frame.Fits) (i : UInt16) :
    (frame.fragmentSize i).toNat = min 1300 (frame.packet.size - i.toNat * 1300) := by
  simp only [Fits] at h
  simp only [fragmentSize, maxUdpPayload, UInt16.toNat_ofNat']
  omega

/-- A fragment ends inside the frame. -/
theorem fragment_end_le (h : frame.Fits) {i : UInt16} (hi : i.toNat < frame.totalFrags.toNat) :
    i.toNat * 1300 + (frame.fragmentSize i).toNat ≤ frame.packet.size := by
  rw [fragmentSize_toNat h]; rw [totalFrags_toNat h] at hi; omega

/-- The last fragment ends at the end of the frame. -/
theorem last_fragment_end (h : frame.Fits) {i : UInt16}
    (hi : i.toNat + 1 = frame.totalFrags.toNat) :
    i.toNat * 1300 + (frame.fragmentSize i).toNat = frame.packet.size := by
  rw [fragmentSize_toNat h]; rw [totalFrags_toNat h] at hi; have := h.1; omega

/-- Every byte of the frame is in the fragment its offset says. -/
theorem mem_fragment (h : frame.Fits) {k : Nat} (hk : k < frame.packet.size) {i : UInt16}
    (hi : i.toNat = k / 1300) :
    i.toNat < frame.totalFrags.toNat ∧ k - i.toNat * 1300 < (frame.fragmentSize i).toNat := by
  rw [fragmentSize_toNat h, totalFrags_toNat h, hi]; omega

theorem isKeyframe_videoHeader (frame : EncodedPacket) (currentFid : UInt32) (i : UInt16)
    (packetSequence : UInt32) :
    (frame.videoHeader currentFid i packetSequence).isKeyframe = frame.isKeyframe := by
  simp only [VideoHeader.isKeyframe, videoHeader, flags]
  cases frame.isKeyframe <;> cases frame.isHEVC <;> decide

end

end EncodedPacket

end RemotePlay.Host
