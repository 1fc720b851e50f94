import RemotePlay.Host.Fragment

/-!
# Encoding a frame

`EncoderManager::EncodeFrame` over `FFmpegHardwareEncoder::EncodeFrame`, from
the point on where FFmpeg answers: what it answers is an input. A call takes
one buffer from `packetPool` at most, and puts it into the one packet it makes.
It has several ways to succeed without a packet.
-/

namespace RemotePlay.Host

open Lib

structure AvPacket where
  data : List UInt8
  /-- `AV_PKT_FLAG_KEY`. -/
  key : Bool

/-- FFmpeg and the device during one call of `FFmpegHardwareEncoder::EncodeFrame`. -/
structure EncoderReply where
  /-- The texture could be prepared, and `avcodec_send_frame` took the frame. -/
  sent : Bool
  /-- The packets `avcodec_receive_packet` gave before the call that ends the loop. -/
  received : List AvPacket
  /-- That call failed, with another error than `EAGAIN` and `EOF`. -/
  failed : Bool

/-- The loop over `avcodec_receive_packet`: `frameData` and `isKeyframe`. -/
def receivePackets (frameData : List UInt8) (isKeyframe : Bool) :
    List AvPacket → List UInt8 × Bool
  | [] => (frameData, isKeyframe)
  | pkt :: received => receivePackets (frameData ++ pkt.data) (isKeyframe || pkt.key) received

/-- The buffer with the bytes of the frame. -/
def fillBuffer (pktBuffer : Packet) (frameData : List UInt8) : Packet :=
  { pktBuffer with
    data := pktBuffer.data.copyIn 0 frameData.length (frameData.getD · 0)
    size := frameData.length }

/-- What a call of `EncodeFrame` returns, appends to `outPackets` and leaves of the pool. -/
structure Encoding where
  success : Bool
  packets : List EncodedPacket
  pool : PacketPool

/-- The end of `FFmpegHardwareEncoder::EncodeFrame`: the bytes received become one packet. -/
def bundle (frameData : List UInt8) (isKeyframe : Bool) (pool : PacketPool) : Encoding :=
  if frameData.isEmpty then ⟨true, [], pool⟩
  else
    match pool.acquire with
    | (none, pool) => ⟨true, [], pool⟩
    | (some pktBuffer, pool) =>
      if frameData.length ≤ pktBuffer.data.size then
        ⟨true, [⟨fillBuffer pktBuffer frameData, isKeyframe, false, 0, 0, 0⟩], pool⟩
      else ⟨true, [], pool.release (some pktBuffer)⟩

/-- `FFmpegHardwareEncoder::EncodeFrame`. -/
def EncoderReply.encodeFrame (reply : EncoderReply) (pool : PacketPool) : Encoding :=
  if reply.sent && !reply.failed then
    let (frameData, isKeyframe) := receivePackets [] false reply.received
    bundle frameData isKeyframe pool
  else ⟨false, [], pool⟩

/-- The encoders of a session during one call of `EncoderManager::EncodeFrame`. -/
structure ManagerReply where
  /-- `m_encoder && m_encoder->IsInitialized()`. -/
  initialized : Bool
  sessionLocked : Bool
  /-- `Initialize` with the locked codec, and with that of the emergency encoder. -/
  initLocked : Bool
  initEmergency : Bool
  encoder : EncoderReply
  /-- `Initialize` with the codec of the emergency encoder, once the encoder has failed. -/
  initFallback : Bool

namespace ManagerReply

/-- `SelectAndInitEncoder` of a locked session. -/
def selectAndInitEncoder (reply : ManagerReply) : Bool := reply.initLocked || reply.initEmergency

/-- `EncoderManager::EncodeFrame`. -/
def encodeFrame (reply : ManagerReply) (pool : PacketPool) : Encoding :=
  if !reply.initialized && !(reply.sessionLocked && reply.selectAndInitEncoder) then
    ⟨false, [], pool⟩
  else
    let encoding := reply.encoder.encodeFrame pool
    -- `return Fallback()`: the frame is lost, and the call succeeds if the emergency encoder starts
    if encoding.success then encoding else { encoding with success := reply.initFallback }

end ManagerReply

/-! ## One call -/

/-- A buffer of `packetPool`. -/
def IsBuffer (p : Packet) : Prop := p.data.size = 1024 * 1024

/-- A packet as the encoder makes it: a frame in a buffer of the pool. -/
def EncodedPacket.Encoded (frame : EncodedPacket) : Prop :=
  frame.Fits ∧ IsBuffer frame.packet

theorem EncodedPacket.Encoded.hasFragment {frame : EncodedPacket} (h : frame.Encoded) :
    0 < frame.totalFrags.toNat :=
  frame.totalFrags_pos h.1

/-- What the pool has given up is in the packets, and they are frames of the pool's buffers. -/
structure Encoding.Sound (encoding : Encoding) (pool : PacketPool) : Prop where
  count : encoding.pool.pool.length + encoding.packets.length = pool.pool.length
  single : encoding.packets.length ≤ 1
  failed : encoding.success = false → encoding.packets = []
  buffers : (∀ p ∈ pool.pool, IsBuffer p) → ∀ p ∈ encoding.pool.pool, IsBuffer p
  encoded : (∀ p ∈ pool.pool, IsBuffer p) → ∀ frame ∈ encoding.packets, frame.Encoded

theorem sound_empty (success : Bool) (pool : PacketPool) :
    Encoding.Sound ⟨success, [], pool⟩ pool :=
  ⟨rfl, Nat.zero_le _, fun _ => rfl, id, fun _ _ hframe => nomatch hframe⟩

/-- What becomes of the bytes received. -/
theorem bundle_cases (frameData : List UInt8) (isKeyframe : Bool) (pool : PacketPool) :
    ((frameData = [] ∨ pool.pool = [] ∨
        ∃ pktBuffer rest, pool.pool = pktBuffer :: rest ∧ pktBuffer.data.size < frameData.length) ∧
      bundle frameData isKeyframe pool = ⟨true, [], pool⟩) ∨
    ∃ pktBuffer rest, pool.pool = pktBuffer :: rest ∧ frameData ≠ [] ∧
      frameData.length ≤ pktBuffer.data.size ∧
      bundle frameData isKeyframe pool =
        ⟨true, [⟨fillBuffer pktBuffer frameData, isKeyframe, false, 0, 0, 0⟩], ⟨rest⟩⟩ := by
  rcases pool with ⟨_ | ⟨pktBuffer, rest⟩⟩ <;> unfold bundle PacketPool.acquire
  · refine .inl ⟨.inr (.inl rfl), ?_⟩
    split <;> rfl
  · dsimp only
    split
    · next hdata => exact .inl ⟨.inl (List.isEmpty_iff.mp hdata), rfl⟩
    · next hdata =>
      split
      · next hsize =>
        exact .inr ⟨pktBuffer, rest, rfl, fun h => hdata (List.isEmpty_iff.mpr h), hsize, rfl⟩
      · next hsize =>
        exact .inl ⟨.inr (.inr ⟨pktBuffer, rest, rfl, Nat.lt_of_not_le hsize⟩), rfl⟩

theorem sound_bundle (frameData : List UInt8) (isKeyframe : Bool) (pool : PacketPool) :
    (bundle frameData isKeyframe pool).Sound pool := by
  rcases bundle_cases frameData isKeyframe pool with
    ⟨-, h⟩ | ⟨pktBuffer, rest, hpool, hdata, hsize, h⟩
  · rw [h]
    exact sound_empty true pool
  · rw [h]
    refine ⟨by rw [hpool]; rfl, Nat.le_refl _, fun h => (nomatch h), ?_, ?_⟩
    · intro hbuffers p hp
      exact hbuffers p (by rw [hpool]; exact List.mem_cons_of_mem _ hp)
    · intro hbuffers frame hframe
      have hbuffer : IsBuffer pktBuffer :=
        hbuffers pktBuffer (by rw [hpool]; exact List.mem_cons_self)
      rw [List.mem_singleton.mp hframe]
      exact ⟨⟨List.length_pos_iff.mpr hdata, Nat.le_trans hsize (Nat.le_of_eq hbuffer)⟩, hbuffer⟩

theorem EncoderReply.sound_encodeFrame (reply : EncoderReply) (pool : PacketPool) :
    (reply.encodeFrame pool).Sound pool := by
  unfold encodeFrame
  split
  · exact sound_bundle _ _ pool
  · exact sound_empty false pool

/-- **One call** takes at most one buffer, for the one packet it makes of it. -/
theorem ManagerReply.sound_encodeFrame (reply : ManagerReply) (pool : PacketPool) :
    (reply.encodeFrame pool).Sound pool := by
  have hsound := reply.encoder.sound_encodeFrame pool
  unfold encodeFrame
  split
  · exact sound_empty false pool
  · dsimp only
    split
    · exact hsound
    · next hfailed =>
      exact ⟨hsound.count, hsound.single, fun _ => hsound.failed (Bool.eq_false_iff.mpr hfailed),
        hsound.buffers, hsound.encoded⟩

/-- **Success without a packet**, of an encoder that runs: it fails and the emergency encoder
starts, or it needs more input, the pool is empty, or the frame is larger than a buffer. -/
theorem ManagerReply.success_empty_iff {reply : ManagerReply} (hready : reply.initialized = true)
    (pool : PacketPool) :
    ((reply.encodeFrame pool).success = true ∧ (reply.encodeFrame pool).packets = []) ↔
      if reply.encoder.sent && !reply.encoder.failed then
        (receivePackets [] false reply.encoder.received).1 = [] ∨ pool.pool = [] ∨
          ∃ pktBuffer rest, pool.pool = pktBuffer :: rest ∧
            pktBuffer.data.size < (receivePackets [] false reply.encoder.received).1.length
      else reply.initFallback = true := by
  unfold encodeFrame EncoderReply.encodeFrame
  rw [hready, if_neg (by exact Bool.false_ne_true)]
  rcases receivePackets [] false reply.encoder.received with ⟨frameData, isKeyframe⟩
  cases reply.encoder.sent && !reply.encoder.failed with
  | false => exact and_iff_left rfl
  | true =>
    rcases bundle_cases frameData isKeyframe pool with
      ⟨hwhy, h⟩ | ⟨pktBuffer, rest, hpool, hdata, hsize, h⟩
    · dsimp only
      rw [if_pos rfl, h]
      exact iff_of_true ⟨rfl, rfl⟩ hwhy
    · dsimp only
      rw [if_pos rfl, h]
      refine iff_of_false (fun h => nomatch h.2) ?_
      rintro (hempty | hempty | ⟨_, _, hcons, hlt⟩)
      · exact hdata hempty
      · rw [hpool] at hempty
        cases hempty
      · rw [hpool] at hcons
        cases hcons
        exact absurd hsize (Nat.not_le_of_lt hlt)

end RemotePlay.Host
