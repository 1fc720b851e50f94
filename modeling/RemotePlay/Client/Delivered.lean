import RemotePlay.Client.SlotInvariant

/-!
# Delivered frames

The decoder is given `totalSize` bytes of a frame. `TryRecover` recognises the
last fragment by the count of the frame, `ProcessPacket` by the count of the
packet that brings it, and takes over the count of the packet that starts the
frame, zero included. `CountAgrees` says when the two counts do not differ where it
matters; then every frame that `GetNextFrame` returns is well formed.
-/

namespace RemotePlay.Client

open Lib Protocol

namespace FrameData

structure WellFormed (f : FrameData) : Prop where
  nonempty : 1 ≤ f.totalFragments.toNat
  stored : ∀ i, i < f.totalFragments.toNat → f.fragmentMap.get i = true
  received : f.fragmentsReceived = f.totalFragments
  totalSize : f.totalSize = (f.totalFragments.toNat - 1) * maxUdpPayload +
    (f.fragmentSizes.get (f.totalFragments.toNat - 1)).toNat
  inside : f.totalSize ≤ f.buffer.size

/-- The last fragment, once it is stored, gives the size. -/
structure SizedByLast (f : FrameData) : Prop where
  nonempty : 1 ≤ f.totalFragments.toNat
  totalSize : f.fragmentMap.get (f.totalFragments.toNat - 1) = true →
    f.totalSize = (f.totalFragments.toNat - 1) * maxUdpPayload +
      (f.fragmentSizes.get (f.totalFragments.toNat - 1)).toNat
  inside : f.fragmentMap.get (f.totalFragments.toNat - 1) = true → f.totalSize ≤ f.buffer.size

/-- The frame has a fragment. If the packet is stored in it, the last fragment comes with the count
of the frame, and after it no other passes for the last one. -/
def CountAgrees (f : FrameData) (header : VideoHeader) : Prop :=
  1 ≤ f.totalFragments.toNat ∧
    (header.fragmentIndex < f.totalFragments →
      f.fragmentMap.get header.fragmentIndex.toNat = false →
      header.fragmentIndex.toNat * maxUdpPayload + header.dataSize.toNat ≤ f.buffer.size →
      if header.fragmentIndex.toNat + 1 = f.totalFragments.toNat then
        header.totalFragments = f.totalFragments
      else f.fragmentMap.get (f.totalFragments.toNat - 1) = true →
        header.fragmentIndex.toNat + 1 ≠ header.totalFragments.toNat)

instance (f : FrameData) (header : VideoHeader) : Decidable (CountAgrees f header) := by
  unfold CountAgrees
  infer_instance

variable {f g : FrameData}

theorem sizedByLast_start (f : FrameData) {header : VideoHeader} {nowUs : UInt64}
    (h : 1 ≤ (f.start header nowUs).totalFragments.toNat) :
    (f.start header nowUs).SizedByLast := by
  have hmap := (f.start_eq header nowUs).2.2.2.2.2.2
  refine ⟨h, fun hlast => ?_, fun hlast => ?_⟩
  · rw [hmap] at hlast
    cases hlast
  · rw [hmap] at hlast
    cases hlast

/-- Fragment `i`, of `n` bytes, is put in its place, and the size follows if it is the last one. -/
theorem SizedByLast.put (h : f.SizedByLast) {i n : UInt16}
    (htotal : g.totalFragments = f.totalFragments)
    (hmap : g.fragmentMap = f.fragmentMap.set i.toNat true)
    (hsizes : g.fragmentSizes = f.fragmentSizes.set i.toNat n)
    (hbuffer : g.buffer.size = f.buffer.size)
    (hin : i.toNat * maxUdpPayload + n.toNat ≤ f.buffer.size)
    (hlast : i.toNat + 1 = f.totalFragments.toNat →
      g.totalSize = i.toNat * maxUdpPayload + n.toNat)
    (hother : i.toNat + 1 ≠ f.totalFragments.toNat →
      f.fragmentMap.get (f.totalFragments.toNat - 1) = true → g.totalSize = f.totalSize) :
    g.SizedByLast := by
  have hnonempty := h.nonempty
  have hpos : 1 ≤ g.totalFragments.toNat := by rwa [htotal]
  by_cases hi : i.toNat + 1 = f.totalFragments.toNat
  · have hidx : f.totalFragments.toNat - 1 = i.toNat := by omega
    refine ⟨hpos, fun _ => ?_, fun _ => ?_⟩
    · rw [hlast hi, htotal, hidx, hsizes, Vec.get_set, if_pos rfl]
    · rw [hlast hi, hbuffer]
      exact hin
  · have hne : f.totalFragments.toNat - 1 ≠ i.toNat := by omega
    have hkept : g.fragmentMap.get (g.totalFragments.toNat - 1) = true →
        f.fragmentMap.get (f.totalFragments.toNat - 1) = true := by
      intro hset
      rwa [htotal, hmap, Vec.get_set, if_neg hne] at hset
    refine ⟨hpos, fun hset => ?_, fun hset => ?_⟩
    · rw [hother hi (hkept hset), htotal, hsizes, Vec.get_set, if_neg hne]
      exact h.totalSize (hkept hset)
    · rw [hother hi (hkept hset), hbuffer]
      exact h.inside (hkept hset)

theorem SizedByLast.store (h : f.SizedByLast) {header : VideoHeader}
    (hagrees : f.CountAgrees header) (hi : header.fragmentIndex < f.totalFragments)
    (hmiss : f.fragmentMap.get header.fragmentIndex.toNat = false)
    (hin : header.fragmentIndex.toNat * maxUdpPayload + header.dataSize.toNat ≤ f.buffer.size)
    (payload : Mem) : (f.store header payload).SizedByLast := by
  have hagrees := hagrees.2 hi hmiss hin
  rw [store_eq f header payload hin]
  refine h.put (i := header.fragmentIndex) (n := header.dataSize) rfl rfl rfl rfl hin
    (fun hlast => ?_) fun hother hset => ?_
  · rw [if_pos hlast] at hagrees
    exact if_pos (by rw [hagrees, hlast])
  · rw [if_neg hother] at hagrees
    exact if_neg (hagrees hset)

end FrameData

namespace Receiver

theorem gate_started {r : Receiver} (h : r.firstFrameReceived = true) (header : VideoHeader) :
    r.gate header = some r :=
  if_pos h

/-- A rebuilt fragment is recognised by the count of the frame. -/
theorem sizedByLast_recover {f : FrameData} (h : f.SizedByLast) {fec : FECHeader}
    {missingIndex : UInt16} (honly : onlyMissing f f.frameId fec = some missingIndex) (pkt : Packet)
    (groupStart : UInt16) : (recover f fec pkt groupStart missingIndex).SizedByLast :=
  h.put (i := missingIndex) (n := fec.dataSize) rfl rfl rfl (size_recover f fec pkt _ _)
    (onlyMissing_missing honly).2.2.2.2 (fun hlast => if_pos hlast) fun hother _ => if_neg hother

theorem slotRule_sizedByLast : SlotRule FrameData.CountAgrees fun _ f => f.SizedByLast where
  later _ h := h
  start _ hagrees := FrameData.sizedByLast_start _ hagrees.1
  store h hagrees hi hmiss hin := h.store hagrees hi hmiss hin _
  recover h honly := sizedByLast_recover h honly _ _
  finish h _ := ⟨h.nonempty, h.totalSize, h.inside⟩

end Receiver

namespace FrameFlow

/-- **Delivered frames are well formed** when the packets agree with the frames they get to. -/
theorem delivered_wellFormed (poolSize : Nat) (maxFrames : UInt64) {calls : List FrameCall}
    (hagrees : Along step (CallFits FrameData.CountAgrees) (init poolSize maxFrames) calls)
    {f : FrameData}
    (hf : (run step (init poolSize maxFrames) calls).receiver.getNextFrame.1 = some f) :
    f.WellFormed := by
  have hsized := kept_run Receiver.slotRule_sizedByLast poolSize maxFrames hagrees
  have htallied := kept_run (Receiver.slotRule_tallied _) poolSize maxFrames hagrees
  rcases (run step (init poolSize maxFrames) calls).receiver.getNextFrame_cases with
    heq | ⟨g, hg, hc, heq⟩
  · rw [heq] at hf
    cases hf
  rw [heq] at hf
  cases hf
  have hget := (Receiver.frameAt_eq_some.mp hg).1
  have hsized := (hsized _ f hget).holds
  have htallied := (htallied _ f hget).holds
  have hreceived := htallied.complete hc
  have hstored := htallied.counted.full_iff.mp hreceived
  have hpos := hsized.nonempty
  have hlast := hstored (f.totalFragments.toNat - 1) (by omega)
  exact ⟨hpos, hstored, hreceived, hsized.totalSize hlast, hsized.inside hlast⟩

/-- Fragment `i` of keyframe 7, with `n` bytes, in a packet that counts `total` fragments. -/
def fragment7 (i total n : UInt16) : FrameCall :=
  .processPacket ⟨0x01, 7, i, total, 0, 0, 0, 0, 0x01, n⟩ (fun _ => 0) 0

/-- A frame of two fragments. -/
theorem delivered_wellFormed_two :
    ∃ f, (run step (init 30 10) [fragment7 0 2 1300, fragment7 1 2 100]).receiver.getNextFrame.1 =
      some f ∧ f.WellFormed := by
  have hagrees : Along step (CallFits FrameData.CountAgrees) (init 30 10)
      [fragment7 0 2 1300, fragment7 1 2 100] := by
    refine ⟨fun r hr _ => ?_, fun r hr _ => ?_, trivial⟩
    · cases hr
      decide +kernel
    · rw [Receiver.gate_started (by decide +kernel)] at hr
      rw [← Option.some.inj hr]
      decide +kernel
  exact ⟨_, rfl, delivered_wellFormed 30 10 hagrees rfl⟩

/-- A packet that counts no fragments starts a frame that is complete at once, and a last fragment
that counts three leaves the size of a frame of two at zero. -/
theorem delivered_not_wellFormed :
    (∃ f, (run step (init 30 10) [fragment7 0 0 100]).receiver.getNextFrame.1 = some f ∧
      f.totalFragments = 0 ∧ ¬ f.WellFormed) ∧
    ∃ f, (run step (init 30 10) [fragment7 0 2 1300, fragment7 1 3 100]).receiver.getNextFrame.1 =
      some f ∧ f.totalFragments = 2 ∧ f.totalSize = 0 ∧ ¬ f.WellFormed := by
  refine ⟨⟨_, rfl, rfl, fun h => ?_⟩, ⟨_, rfl, rfl, rfl, fun h => ?_⟩⟩
  · exact absurd h.nonempty (by decide +kernel)
  · exact absurd h.totalSize (by decide +kernel)

end FrameFlow

end RemotePlay.Client
