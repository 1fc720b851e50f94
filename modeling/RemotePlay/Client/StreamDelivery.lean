import RemotePlay.Client.DeliveryOrder
import RemotePlay.Client.FrameBuffers
import RemotePlay.Client.Recovery
import RemotePlay.Client.SlotCollision

/-!
# The stream

A session's video as the reader of the receiver sees it. `frame fid` is the
encoded frame that is sent as frame `fid`; its fragments and parity packets
arrive in any order, repeated or not at all, among those of other frames, and
the reader polls, skips and gives frames back in between. `Streaming` is the
invariant: the ring has the frames of a window from the read pointer on, each
with what the sender put in it, and no fragment that arrived for a frame still
to be read is missing.
-/

namespace RemotePlay.Client

open Lib Protocol Host

namespace FrameData

/-- What the decoder is given of a frame: the encoded frame, with zeros behind it when the last
fragment was rebuilt from a longer parity packet. -/
structure Whole (frame : EncodedPacket) (f : FrameData) : Prop where
  size_le : frame.packet.size ≤ f.totalSize
  bytes : readN f.buffer.get f.totalSize = readN frame.packet.data.get frame.packet.size ++
    List.replicate (f.totalSize - frame.packet.size) 0

variable {frame : EncodedPacket} {f : FrameData}

/-- Behind the frame there are zeros. -/
theorem Filling.zeros (hfit : frame.Fits) (h : f.Filling frame) (hc : f.isComplete = true)
    {k : Nat} (hlo : frame.packet.size ≤ k) (hhi : k < f.totalSize) : f.buffer.get k = 0 := by
  obtain ⟨i, hi, hset, htotal⟩ := h.last hfit hc
  have hend := EncodedPacket.last_fragment_end hfit hi
  have hheld := h.held i (by omega) hset
  have hbyte := hheld.bytes (k - i.toNat * 1300) (by omega)
  rw [Nat.add_sub_cancel' (by omega)] at hbyte
  rw [hbyte]
  exact if_neg (by omega)

theorem Filling.whole (hfit : frame.Fits) (h : f.Filling frame) (hc : f.isComplete = true) :
    f.Whole frame := by
  have hle : frame.packet.size ≤ f.totalSize := by
    obtain ⟨i, hi, hset, htotal⟩ := h.last hfit hc
    have hend := EncodedPacket.last_fragment_end hfit hi
    have hheld := (h.held i (by omega) hset).size
    omega
  refine ⟨hle, List.ext_getElem (by simp; omega) fun k hk _ => ?_⟩
  rw [length_readN] at hk
  rw [getElem_readN]
  by_cases hin : k < frame.packet.size
  · rw [List.getElem_append_left (by simpa using hin), getElem_readN]
    exact h.bytes hfit hc hin
  · rw [List.getElem_append_right (by simpa using hin), List.getElem_replicate]
    exact h.zeros hfit hc (Nat.le_of_not_lt hin) hk

end FrameData

namespace Receiver

variable {r r' : Receiver} {frame : EncodedPacket} {fid : UInt32}

/-! ## The window -/

/-- The frames of the ring are less than 64 ids from the read pointer. -/
def InWindow (r : Receiver) : Prop :=
  ∀ i f, r.frameRing.get i = some f → f.frameId.toNat < r.nextFrameIdToRead.toNat + 64

/-- A packet of a started receiver is not further ahead of the reader than the ring is long. -/
def Reaches (r : Receiver) (header : VideoHeader) : Prop :=
  r.firstFrameReceived = true → header.frameId.toNat < r.nextFrameIdToRead.toNat + 64

theorem InWindow.congr (h : InWindow r) (hring : r'.frameRing = r.frameRing)
    (hnext : r'.nextFrameIdToRead = r.nextFrameIdToRead) : InWindow r' := by
  unfold InWindow
  rw [hring, hnext]
  exact h

/-- Fewer frames, and the reader further on. -/
theorem InWindow.sub (h : InWindow r)
    (hring : ∀ i f, r'.frameRing.get i = some f → r.frameRing.get i = some f)
    (hnext : r.nextFrameIdToRead.toNat ≤ r'.nextFrameIdToRead.toNat) : InWindow r' := by
  intro i f hf
  have := h i f (hring i f hf)
  omega

theorem InWindow.touches (h : InWindow r) (ht : Touches fid r r') : InWindow r' := by
  intro i f hf
  rw [ht.nextFrameIdToRead]
  rcases ht.frameRing with heq | ⟨f', g, hf', hgrow, heq⟩ <;> rw [heq] at hf
  · exact h i f hf
  · rcases FixedRingBuffer.get_insert_cases hf with hg | hold
    · rw [← Option.some.inj hg, hgrow.frameId]
      exact h fid f' hf'
    · exact h i f hold

theorem started_of_frame (h : r.Ahead) {i : UInt32} {f : FrameData}
    (hf : r.frameRing.get i = some f) : r.firstFrameReceived = true := by
  by_contra hidle
  rw [h.idle (by simpa using hidle)] at hf
  cases hf

theorem InWindow.processPacket (h : InWindow r) (hahead : r.Ahead) {header : VideoHeader}
    (hreach : r.Reaches header) (payload : Mem) (nowUs : UInt64) :
    InWindow (r.processPacket header payload nowUs) := by
  rcases r.processPacket_cases header payload nowUs with ⟨-, heq⟩ | ⟨r₁, hgate, hcases⟩
  · rwa [heq]
  -- past the gate the packet is at the pointer, or the receiver is as it was
  obtain ⟨hs, hring, -, -, hplace⟩ := gate_some hgate
  have h₁ : InWindow r₁ ∧ header.frameId.toNat < r₁.nextFrameIdToRead.toNat + 64 := by
    rcases hplace with rfl | ⟨hidle, -, hnext⟩
    · exact ⟨h, hreach hs⟩
    · refine ⟨fun i f hf => ?_, by rw [hnext]; omega⟩
      rw [hring, hahead.idle hidle] at hf
      cases hf
  rcases hcases with ⟨-, heq⟩ | ⟨-, ht⟩
  · rw [heq]
    exact h₁.1
  obtain ⟨g, hgrow, hring'⟩ := frameRing_accepted ht
  have hens := framesOnly_ensureFrame r₁ header nowUs
  have hnext := ht.nextFrameIdToRead.trans hens.nextFrameIdToRead
  intro i f hf
  rw [hnext]
  rw [hring'] at hf
  rcases FixedRingBuffer.get_insert_cases hf with hg | hold
  · rw [← Option.some.inj hg, hgrow.frameId, frameFor_frameId]
    exact h₁.2
  · exact h₁.1 i f hold

theorem next_getNextFrame (h : r.Ahead) {f : FrameData}
    (hf : r.frameAt r.nextFrameIdToRead = some f) :
    (r.nextFrameIdToRead + 1).toNat = r.nextFrameIdToRead.toNat + 1 := by
  obtain ⟨hget, hid⟩ := frameAt_eq_some.mp hf
  have hlimit := UInt32.lt_iff_toNat_lt.mp (h.frames _ f hget).2
  have hconst : frameIdLimit.toNat = 4294967232 := rfl
  rw [hid] at hlimit
  rw [UInt32.toNat_add]
  show (r.nextFrameIdToRead.toNat + 1) % 2 ^ 32 = _
  omega

theorem InWindow.getNextFrame (h : InWindow r) (hahead : r.Ahead) : InWindow r.getNextFrame.2 := by
  rcases r.getNextFrame_cases with heq | ⟨f, hf, -, heq⟩ <;> rw [heq]
  · exact h
  · refine h.sub (fun i g hg => ?_) ?_
    · rcases FixedRingBuffer.get_insert_cases hg with hnone | hold
      · cases hnone
      · exact hold
    · show r.nextFrameIdToRead.toNat ≤ (r.nextFrameIdToRead + 1).toNat
      have := next_getNextFrame hahead hf
      omega

theorem InWindow.forceAdvanceTo (h : InWindow r) (frameId : UInt32) :
    InWindow (r.forceAdvanceTo frameId) := by
  rcases r.forceAdvanceTo_cases frameId with ⟨-, heq⟩ | ⟨hlt, r₁, hd, heq⟩ <;> rw [heq]
  · exact h
  · exact h.sub hd.ring (Nat.le_of_lt (UInt32.lt_iff_toNat_lt.mp hlt))

/-- Two ids of the window have different slots, so a packet leaves the frames of other ids alone. -/
theorem frameAt_processPacket_window (hahead : r.Ahead) (hwindow : r.InWindow)
    {header : VideoHeader} (hreach : r.Reaches header) (hne : header.frameId ≠ fid) (payload : Mem)
    (nowUs : UInt64) : (r.processPacket header payload nowUs).frameAt fid = r.frameAt fid := by
  cases hf : r.frameAt fid with
  | none => rw [← hf]; exact frameAt_processPacket_other hne (.inr hf) payload nowUs
  | some f =>
    rw [← hf]
    obtain ⟨hget, hid⟩ := frameAt_eq_some.mp hf
    have hs := started_of_frame hahead hget
    by_cases hbehind : header.frameId < r.nextFrameIdToRead
    · rw [processPacket_refused hs fun hacc => hacc.1 hbehind]
    · refine frameAt_processPacket_other hne (.inl fun hslot => ?_) payload nowUs
      have hhi := hwindow _ f hget
      have hlo := UInt32.le_iff_toNat_le.mp (hahead.frames _ f hget).1
      have hreach := hreach hs
      have hne' : header.frameId.toNat ≠ fid.toNat := fun h => hne (UInt32.toNat_inj.mp h)
      rw [UInt32.lt_iff_toNat_lt] at hbehind
      rw [hid] at hhi hlo
      omega

/-! ## What the sender put in -/

/-- Frames only leave the ring, and the groups stay. -/
theorem Genuine.sub (h : r.Genuine frame fid)
    (hframe : ∀ f, r'.frameAt fid = some f → r.frameAt fid = some f)
    (hfec : r'.fecRing = r.fecRing) : r'.Genuine frame fid where
  filling f hf := h.filling f (hframe f hf)
  parity i := by
    rw [hfec]
    exact h.parity i

theorem Genuine.getNextFrame (h : r.Genuine frame fid) : r.getNextFrame.2.Genuine frame fid := by
  refine h.sub (fun f hf => ?_) (sameIntake_getNextFrame r).fecRing
  by_cases hid : r.nextFrameIdToRead = fid
  · rcases r.getNextFrame_cases with heq | ⟨g, -, -, heq⟩
    · rwa [heq] at hf
    · -- the frame at the pointer is gone
      rw [heq, ← hid] at hf
      have hget := (frameAt_eq_some.mp hf).1
      change (r.frameRing.insert r.nextFrameIdToRead none).get r.nextFrameIdToRead = some f at hget
      rw [FixedRingBuffer.get_insert_self] at hget
      cases hget
  · rwa [frameAt_getNextFrame hid] at hf

theorem Genuine.forceAdvanceTo (h : r.Genuine frame fid) (frameId : UInt32) :
    (r.forceAdvanceTo frameId).Genuine frame fid := by
  refine h.sub (fun f hf => ?_) (sameIntake_forceAdvanceTo r frameId).fecRing
  obtain ⟨hget, hid⟩ := frameAt_eq_some.mp hf
  refine frameAt_eq_some.mpr ⟨?_, hid⟩
  rcases r.forceAdvanceTo_cases frameId with ⟨-, heq⟩ | ⟨-, r₁, hd, heq⟩ <;> rw [heq] at hget
  · exact hget
  · exact hd.ring fid f hget

theorem Genuine.congr (h : r.Genuine frame fid) (hsame : SameReader r r')
    (hring : r'.frameRing = r.frameRing) : r'.Genuine frame fid :=
  h.sub (fun f hf => by rwa [← frameAt_congr hring fid]) hsame.fecRing

/-! ## What has arrived -/

/-- The ring holds the frames `frame` of the window, and of those still to be read every fragment
in `arrived`. -/
structure Stores (frame : UInt32 → EncodedPacket) (arrived : List (UInt32 × UInt16))
    (r : Receiver) : Prop where
  window : r.InWindow
  genuine : ∀ fid, r.Genuine (frame fid) fid
  started : ∀ p ∈ arrived, r.firstFrameReceived = true
  present : ∀ fid i, (fid, i) ∈ arrived → r.nextFrameIdToRead ≤ fid →
    ∃ f, r.frameAt fid = some f ∧ f.fragmentMap.get i.toNat = true

section
variable {frame : UInt32 → EncodedPacket} {arrived : List (UInt32 × UInt16)}

theorem Stores.congr (h : Stores frame arrived r) (hsame : SameReader r r')
    (hring : r'.frameRing = r.frameRing) : Stores frame arrived r' where
  window := h.window.congr hring hsame.nextFrameIdToRead
  genuine fid := (h.genuine fid).congr hsame hring
  started p hp := hsame.firstFrameReceived.trans (h.started p hp)
  present fid i hi hle := by
    rw [hsame.nextFrameIdToRead] at hle
    rw [frameAt_congr hring]
    exact h.present fid i hi hle

/-- A frame is there after its slot, or another, is touched. -/
theorem Touches.frameAt_forth (ht : Touches fid r r') {other : UInt32} {f : FrameData}
    (hf : r.frameAt other = some f) : ∃ g, r'.frameAt other = some g ∧ f.Grows g := by
  obtain ⟨hget, hid⟩ := frameAt_eq_some.mp hf
  rcases ht.frameRing with heq | ⟨f', g, hf', hgrow, heq⟩
  · exact ⟨f, by rwa [frameAt_congr heq], .refl f⟩
  by_cases hslot : other.toNat % 64 = fid.toNat % 64
  · -- the slot is the one that grows
    rw [r.frameRing.get_congr hslot, hf'] at hget
    cases hget
    refine ⟨g, frameAt_eq_some.mpr ⟨?_, hgrow.frameId.trans hid⟩, hgrow⟩
    rw [heq, FixedRingBuffer.get_insert, if_pos hslot]
  · refine ⟨f, frameAt_eq_some.mpr ⟨?_, hid⟩, .refl f⟩
    rw [heq, FixedRingBuffer.get_insert, if_neg hslot]
    exact hget

theorem Stores.processFEC (hfit : ∀ fid, (frame fid).Fits) (h : Stores frame arrived r)
    {header : FECHeader} {payload : Mem}
    (hparity : (frame header.frameId).ParityOf header payload) :
    Stores frame arrived (r.processFEC header payload) := by
  have ht := r.touches_processFEC header payload
  refine ⟨h.window.touches ht, fun fid => ?_, fun p hp => ?_, fun fid i hi hle => ?_⟩
  · by_cases hid : header.frameId = fid
    · subst hid
      exact (processFEC_genuine (hfit _) (h.genuine _) rfl hparity).1
    · exact (carries_processFEC_other hid payload (h.genuine fid)).1
  · exact ht.firstFrameReceived.trans (h.started p hp)
  · rw [ht.nextFrameIdToRead] at hle
    obtain ⟨f, hf, hmark⟩ := h.present fid i hi hle
    obtain ⟨g, hg, hgrow⟩ := ht.frameAt_forth hf
    exact ⟨g, hg, hgrow.kept _ hmark⟩

theorem Stores.getNextFrame (h : Stores frame arrived r) (hahead : r.Ahead) :
    Stores frame arrived r.getNextFrame.2 := by
  refine ⟨h.window.getNextFrame hahead, fun fid => (h.genuine fid).getNextFrame, fun p hp => ?_,
    fun fid i hi hle => ?_⟩
  · rcases r.getNextFrame_cases with heq | ⟨f, -, -, heq⟩ <;> rw [heq] <;> exact h.started p hp
  rcases r.getNextFrame_cases with heq | ⟨f, hf, -, heq⟩
  · rw [heq] at hle ⊢
    exact h.present fid i hi hle
  · have hnext := next_getNextFrame hahead hf
    rw [heq] at hle
    have hle := UInt32.le_iff_toNat_le.mp hle
    change (r.nextFrameIdToRead + 1).toNat ≤ fid.toNat at hle
    rw [frameAt_getNextFrame fun hid => by rw [hid] at hnext hle; omega]
    exact h.present fid i hi (UInt32.le_iff_toNat_le.mpr (by omega))

theorem Stores.forceAdvanceTo (h : Stores frame arrived r) (frameId : UInt32) :
    Stores frame arrived (r.forceAdvanceTo frameId) := by
  refine ⟨h.window.forceAdvanceTo frameId, fun fid => (h.genuine fid).forceAdvanceTo frameId,
    fun p hp => ?_, fun fid i hi hle => ?_⟩
  · have hs := h.started p hp
    rcases r.forceAdvanceTo_cases frameId with ⟨-, heq⟩ | ⟨-, r₁, hd, heq⟩ <;> rw [heq]
    · exact hs
    · exact hd.same.firstFrameReceived.trans hs
  · rcases r.forceAdvanceTo_cases frameId with ⟨-, heq⟩ | ⟨hlt, r₁, hd, heq⟩
    · rw [heq] at hle ⊢
      exact h.present fid i hi hle
    · rw [heq] at hle
      change frameId ≤ fid at hle
      rw [frameAt_forceAdvanceTo hle]
      have hle := UInt32.le_iff_toNat_le.mp hle
      have hlt := UInt32.lt_iff_toNat_lt.mp hlt
      exact h.present fid i hi (UInt32.le_iff_toNat_le.mpr (by omega))

/-- The fragment of a packet that gets past the gate. -/
def arrives (r : Receiver) (header : VideoHeader) : List (UInt32 × UInt16) :=
  if r.firstFrameReceived || header.isKeyframe then [(header.frameId, header.fragmentIndex)] else []

theorem arrives_gate {header : VideoHeader} (hgate : r.gate header = some r') :
    r.arrives header = [(header.frameId, header.fragmentIndex)] := by
  refine if_pos ?_
  rw [Bool.or_eq_true]
  rcases gate_some hgate with ⟨hs, -, -, -, rfl | ⟨-, hk, -⟩⟩
  · exact .inl hs
  · exact .inr hk

theorem arrives_none {header : VideoHeader} (hgate : r.gate header = none) :
    r.arrives header = [] := by
  unfold gate at hgate
  split at hgate
  · cases hgate
  next hs =>
  split at hgate
  · cases hgate
  next hk =>
  refine if_neg ?_
  rw [Bool.or_eq_true]
  exact not_or.mpr ⟨hs, hk⟩

/-- The frame that an accepted fragment gets to. -/
theorem Stores.frameFor (h : Stores frame arrived r) {header : VideoHeader} {payload : Mem}
    (hg : IsFragment (frame header.frameId) header.frameId header payload) (nowUs : UInt64) :
    (r.frameFor header nowUs).Filling (frame header.frameId) := by
  rcases r.frameFor_cases header nowUs with hat | ⟨-, f, heq, -⟩
  · exact (h.genuine header.frameId).filling _ hat
  · rw [heq]
    exact FrameData.filling_start f hg.totalFragments nowUs

/-- An arriving fragment of a frame that is still to be read is there afterwards. -/
theorem Stores.arrival (hfit : ∀ fid, (frame fid).Fits) (h : Stores frame arrived r)
    (hfull : r.FullBuffers) (hs : r.firstFrameReceived = true) {header : VideoHeader}
    {payload : Mem} (hg : IsFragment (frame header.frameId) header.frameId header payload)
    (nowUs : UInt64) (hle : r.nextFrameIdToRead ≤ header.frameId) :
    ∃ g, (r.processPacket header payload nowUs).frameAt header.frameId = some g ∧
      g.fragmentMap.get header.fragmentIndex.toNat = true := by
  have hacc := ReceiverUse.IsFragment.accepts (hfit _) hg hle
  have hfilling := h.frameFor hg nowUs
  have hlt : header.fragmentIndex < (r.frameFor header nowUs).totalFragments := by
    rw [hfilling.total, UInt16.lt_iff_toNat_lt]
    exact hg.index_lt
  have hin : header.fragmentIndex.toNat * maxUdpPayload + header.dataSize.toNat ≤
      (r.frameFor header nowUs).buffer.size := by
    have hend := EncodedPacket.fragment_end_le (hfit _) hg.index_lt
    have hsize := (hfit header.frameId).2
    rw [hfull.frameFor header nowUs, hg.dataSize, FrameData.maxUdpPayload_eq]
    omega
  obtain ⟨g, hring, hgrow, hmark⟩ := processPacket_marks hs hacc hlt hin payload
  refine ⟨g, frameAt_eq_some.mpr ⟨?_, ?_⟩, hmark⟩
  · rw [hring, FixedRingBuffer.get_insert_self]
  · exact hgrow.frameId.trans (frameFor_frameId r header nowUs)

/-- The gate lets the stream begin. -/
theorem Stores.gate (h : Stores frame arrived r) (hahead : r.Ahead) {header : VideoHeader}
    (hgate : r.gate header = some r') : Stores frame arrived r' := by
  obtain ⟨hs, hring, -, -, rfl | ⟨hidle, -, -⟩⟩ := gate_some hgate
  · exact h
  have hnone : ∀ p, p ∉ arrived := fun p hp => by
    rw [h.started p hp] at hidle
    cases hidle
  refine ⟨fun i f hf => ?_, fun fid => (carries_gate hgate (h.genuine fid)).1,
    fun p hp => absurd hp (hnone p), fun fid i hi => absurd hi (hnone _)⟩
  rw [hring, hahead.idle hidle] at hf
  cases hf

/-- A frame that is in its slot stays there. -/
theorem ensureFrame_of_frameAt {header : VideoHeader} {f : FrameData}
    (hf : r.frameAt header.frameId = some f) (nowUs : UInt64) :
    r.ensureFrame header nowUs = r := by
  obtain ⟨hget, hid⟩ := frameAt_eq_some.mp hf
  unfold ensureFrame
  rw [hget]
  exact if_neg fun hne => hne hid

/-- Past the gate. -/
theorem Stores.packet (hfit : ∀ fid, (frame fid).Fits) (h : Stores frame arrived r)
    (hahead : r.Ahead) (hfull : r.FullBuffers) (hs : r.firstFrameReceived = true)
    {header : VideoHeader} {payload : Mem}
    (hg : IsFragment (frame header.frameId) header.frameId header payload)
    (hreach : r.Reaches header) (nowUs : UInt64) :
    Stores frame (arrived ++ [(header.frameId, header.fragmentIndex)])
      (r.processPacket header payload nowUs) := by
  have hsame := sameReader_processPacket hs header payload nowUs
  refine ⟨h.window.processPacket hahead hreach payload nowUs, fun fid => ?_,
    fun p _ => hsame.firstFrameReceived.trans hs, fun fid i hi hle => ?_⟩
  · by_cases hid : header.frameId = fid
    · subst hid
      exact (processPacket_genuine (hfit _) (h.genuine _) hg nowUs).1
    · have hother := frameAt_processPacket_window hahead h.window hreach hid payload nowUs
      exact (h.genuine fid).sub (fun f hf => by rwa [← hother])
        (sameIntake_processPacket r header payload nowUs).fecRing
  · rw [hsame.nextFrameIdToRead] at hle
    rcases List.mem_append.mp hi with hold | hnew
    · obtain ⟨f, hf, hmark⟩ := h.present fid i hold hle
      by_cases hid : header.frameId = fid
      · subst hid
        have hacc := ReceiverUse.IsFragment.accepts (hfit _) hg hle
        rw [processPacket_accepted hs hacc]
        have hens : (r.ensureFrame header nowUs).frameAt header.frameId = some f := by
          rw [ensureFrame_of_frameAt hf]
          exact hf
        obtain ⟨g, hg, hgrow⟩ := (touches_storeFragment _ header payload).frameAt_forth hens
        exact ⟨g, hg, hgrow.kept _ hmark⟩
      · rw [frameAt_processPacket_window hahead h.window hreach hid]
        exact ⟨f, hf, hmark⟩
    · obtain ⟨rfl, rfl⟩ := Prod.mk.inj (List.mem_singleton.mp hnew)
      exact h.arrival hfit hfull hs hg nowUs hle

theorem Stores.processPacket (hfit : ∀ fid, (frame fid).Fits) (h : Stores frame arrived r)
    (hahead : r.Ahead) (hfull : r.FullBuffers) {header : VideoHeader} {payload : Mem}
    (hg : IsFragment (frame header.frameId) header.frameId header payload)
    (hid : header.frameId < frameIdLimit) (hreach : r.Reaches header) (nowUs : UInt64) :
    Stores frame (arrived ++ r.arrives header) (r.processPacket header payload nowUs) := by
  cases hgate : r.gate header with
  | none =>
    rw [processPacket_gate_none hgate, arrives_none hgate, List.append_nil]
    exact h
  | some r₁ =>
    obtain ⟨hs, -, -, -, hplace⟩ := gate_some hgate
    have hreach₁ : r₁.Reaches header := by
      rcases hplace with rfl | ⟨-, -, hnext⟩
      · exact hreach
      · intro _
        rw [hnext]
        omega
    rw [processPacket_gate hgate, arrives_gate hgate]
    exact (h.gate hahead hgate).packet hfit (hahead.gate hgate hid) (hfull.gate hgate) hs hg
      hreach₁ nowUs

/-! ## Reading -/

/-- **A frame that has arrived is read.** -/
theorem Stores.reads (hfit : ∀ fid, (frame fid).Fits) (h : Stores frame arrived r)
    (htallied : Kept (fun _ f => f.Tallied) r)
    (hall : ∀ i : UInt16, i.toNat < (frame r.nextFrameIdToRead).totalFrags.toNat →
      (r.nextFrameIdToRead, i) ∈ arrived) :
    ∃ f, r.frameAt r.nextFrameIdToRead = some f ∧ f.isComplete = true := by
  have hpos := EncodedPacket.totalFrags_pos (hfit r.nextFrameIdToRead)
  have hmarks : ∀ i : UInt16, i.toNat < (frame r.nextFrameIdToRead).totalFrags.toNat →
      ∃ f, r.frameAt r.nextFrameIdToRead = some f ∧ f.fragmentMap.get i.toNat = true :=
    fun i hi => h.present _ i (hall i hi) (UInt32.le_refl _)
  obtain ⟨f, hf, -⟩ := hmarks 0 hpos
  refine ⟨f, hf, ?_⟩
  have hsettled := htallied _ f (frameAt_eq_some.mp hf).1
  have htotal := ((h.genuine _).filling f hf).total
  by_contra hc
  refine hsettled.unfinished (by simpa using hc) (hsettled.holds.counted.full_iff.mpr ?_)
  intro k hk
  rw [htotal] at hk
  have hlt := (frame r.nextFrameIdToRead).totalFrags.toNat_lt
  have hto : (UInt16.ofNat k).toNat = k := by
    rw [UInt16.toNat_ofNat']
    omega
  obtain ⟨g, hg, hmark⟩ := hmarks (UInt16.ofNat k) (by rwa [hto])
  rw [hf] at hg
  cases hg
  rwa [hto] at hmark

end

end Receiver

/-! ## Runs -/

/-- What a run of the stream has shown: the deliveries, and the fragments that got past the gate. -/
structure StreamRecord where
  events : List DeliveryEvent
  arrived : List (UInt32 × UInt16)

namespace FrameFlow

open DeliveryEvent

def record (s : FrameFlow) (call : FrameCall) (log : StreamRecord) : StreamRecord where
  events := note s call log.events
  arrived := log.arrived ++
    match call with
    | .processPacket header _ _ => s.receiver.arrives header
    | _ => []

structure Streaming (frame : UInt32 → EncodedPacket) (x : FrameFlow × StreamRecord) : Prop where
  ordered : Ordered (x.1, x.2.events)
  buffered : x.1.Buffered
  tallied : Receiver.Kept (fun _ f => f.Tallied) x.1.receiver
  stores : x.1.receiver.Stores frame x.2.arrived
  whole : ∀ f ∈ deliveries x.2.events, f.Whole (frame f.frameId)

variable {frame : UInt32 → EncodedPacket} {s : FrameFlow} {log : StreamRecord}

open ReceiverUse (keyframe1301 isFragment_1301)

end FrameFlow

end RemotePlay.Client
