import RemotePlay.Client.SlotInvariant

/-!
# Malformed packets

`ProcessPacket` opens the gate before it looks at the limits of a packet, and
does not compare the fragment index with the packet's own count at all: the
index is compared with the count of the frame, after the frame is there. So a
malformed packet may place the read pointer, take a frame from the pool or
store a fragment. `Harmless` says when it does none of these.
-/

namespace RemotePlay.Client

open Lib Protocol

/-- More fragments or bytes than there can be, or a fragment behind the last one. -/
def Malformed (header : VideoHeader) : Prop :=
  header.totalFragments > 1024 ∨ header.dataSize.toNat > maxUdpPayload ∨
    header.totalFragments ≤ header.fragmentIndex

namespace Receiver

/-- `TryRecover` has a fragment of the group to rebuild. -/
def Rebuilds (r : Receiver) (frameId : UInt32) (groupStart : UInt16) : Prop :=
  ∃ f group missingIndex pkt, r.recovery frameId groupStart = some (f, group, missingIndex) ∧
    group.fecPacket = some pkt

/-- The packet finds nothing to do: before the first keyframe it is not of a keyframe; after it,
it is late or over the limits, or its frame is in its slot and has no use for the fragment, which
is behind the last one of the frame, or stored already, or outside the buffer. In the last case
`TryRecover` is called all the same. -/
def Harmless (r : Receiver) (header : VideoHeader) : Prop :=
  if r.firstFrameReceived then
    ¬ r.Accepts header ∨ ∃ f, r.frameAt header.frameId = some f ∧
      (f.totalFragments ≤ header.fragmentIndex ∨
        f.fragmentMap.get header.fragmentIndex.toNat = true ∨
        f.buffer.size < header.fragmentIndex.toNat * maxUdpPayload + header.dataSize.toNat ∧
          ¬ r.Rebuilds header.frameId (header.fragmentIndex / 5 * 5))
  else header.isKeyframe = false

/-- A frame that is marked complete is no newer than the newest one completed. -/
def Noted (last : UInt32) (f : FrameData) : Prop := f.isComplete = true → f.frameId ≤ last

theorem le_max_right (a b : UInt32) : b ≤ max a b := by
  show b ≤ if a ≤ b then b else a
  split
  · exact UInt32.le_refl b
  · next h => exact UInt32.le_of_lt (UInt32.not_le.mp h)

theorem slotRule_noted : SlotRule (fun _ _ => True) Noted where
  later hle h hc := UInt32.le_trans (h hc) hle
  start {_ f header nowUs} _ _ hc := by
    rw [(f.start_eq header nowUs).2.2.2.2.1] at hc
    cases hc
  store {_ f header payload} h _ _ _ _ hc := by
    rw [f.isComplete_store header payload] at hc
    rw [(f.grows_store header payload).frameId]
    exact h hc
  recover h _ hc := h hc
  finish _ _ _ := le_max_right _ _

variable {r r' : Receiver} {fid : UInt32} {f : FrameData}

/-! ## What stays -/

theorem setSlot_self (hf : r.frameRing.get fid = some f) : r.setSlot fid (some f) = r := by
  unfold setSlot
  rw [← hf, FixedRingBuffer.insert_get]

/-- The last check of `ProcessPacket` has nothing to add to a settled frame. -/
theorem complete_self (hf : r.frameAt fid = some f)
    (h : Settled Noted r.lastCompletedFrameId f) : r.complete f fid = r := by
  obtain ⟨hget, hid⟩ := frameAt_eq_some.mp hf
  unfold complete
  split
  · next hfull =>
    have hc : f.isComplete = true := by
      by_contra hc
      exact h.unfinished (Bool.not_eq_true _ ▸ hc) hfull
    have hsame : { f with isComplete := true } = f := by
      rw [← hc]
    have hlast : max r.lastCompletedFrameId fid = r.lastCompletedFrameId := by
      have hle := h.holds hc
      rw [hid] at hle
      show (if r.lastCompletedFrameId ≤ fid then fid else r.lastCompletedFrameId) = _
      split
      · next hge => exact UInt32.le_antisymm hle hge
      · rfl
    rw [hsame, setSlot_self hget, hlast]
  · exact setSlot_self hget

theorem tryRecover_self {groupStart : UInt16} (h : ¬ r.Rebuilds fid groupStart) :
    r.tryRecover fid groupStart = r := by
  rw [tryRecover_eq]
  cases hrec : r.recovery fid groupStart with
  | none => rfl
  | some found =>
    obtain ⟨f, group, missingIndex⟩ := found
    dsimp only
    cases hpkt : group.fecPacket with
    | none => rfl
    | some pkt => exact absurd ⟨f, group, missingIndex, pkt, hrec, hpkt⟩ h

/-! ## What changes -/

theorem Touches.get (h : Touches fid r r') (hf : r.frameRing.get fid = some f) :
    ∃ g, r'.frameRing.get fid = some g ∧ f.Grows g := by
  rcases h.frameRing with heq | ⟨f', g, hf', hgrow, heq⟩
  · exact ⟨f, by rw [heq, hf], .refl f⟩
  · rw [hf] at hf'
    cases hf'
    exact ⟨g, by rw [heq, FixedRingBuffer.get_insert_self], hgrow⟩

/-- A fragment that was missing is not any more. -/
theorem ne_of_marked {r₁ : Receiver} {k : Nat} (hf : r.frameRing.get fid = some f)
    (hmiss : f.fragmentMap.get k = false) {g : FrameData} (hg : r₁.frameRing.get fid = some g)
    (hset : g.fragmentMap.get k = true) (h : Touches fid r₁ r') : r' ≠ r := by
  obtain ⟨g', hg', hgrow⟩ := h.get hg
  intro heq
  rw [heq, hf] at hg'
  cases hg'
  rw [hgrow.kept k hset] at hmiss
  cases hmiss

/-- A new fragment is stored, its group tried and the frame checked. -/
theorem touches_newFragment {header : VideoHeader} (hf : r.frameRing.get header.frameId = some f)
    (hi : header.fragmentIndex < f.totalFragments)
    (hmiss : f.fragmentMap.get header.fragmentIndex.toNat = false) (payload : Mem) :
    Touches header.frameId
      ((r.setSlot header.frameId (some (f.store header payload))).tryRecover header.frameId
        (header.fragmentIndex / 5 * 5)) (r.storeFragment header payload) := by
  unfold storeFragment
  rw [hf]
  dsimp only
  rw [if_pos ⟨hi, hmiss⟩]
  split
  · exact .refl _ _
  · next g hg => exact touches_complete hg (.refl g)

theorem tryRecover_rebuilt {groupStart : UInt16} (hf : r.frameRing.get fid = some f)
    (h : r.Rebuilds fid groupStart) : ∃ k g, f.fragmentMap.get k = false ∧
      (r.tryRecover fid groupStart).frameRing.get fid = some g ∧ g.fragmentMap.get k = true := by
  obtain ⟨f', group, missingIndex, pkt, hrec, hpkt⟩ := h
  obtain ⟨hf', -, -, -, -, honly⟩ := recovery_eq_some.mp hrec
  rw [hf] at hf'
  cases hf'
  have hslot : (r.tryRecover fid groupStart).frameRing =
      (r.complete (recover f group.fecHeader pkt groupStart missingIndex) fid).frameRing := by
    simp only [tryRecover_eq, hrec, hpkt]
  rw [hslot, complete_eq, FixedRingBuffer.get_insert_self]
  refine ⟨missingIndex.toNat, _, (onlyMissing_missing honly).2.2.2.1, rfl, ?_⟩
  split <;> exact if_pos rfl

/-! ## ProcessPacket -/

/-- A fragment for a settled frame in its slot. -/
theorem storeFragment_self_iff {header : VideoHeader} (hf : r.frameAt header.frameId = some f)
    (h : Settled Noted r.lastCompletedFrameId f) (payload : Mem) :
    r.storeFragment header payload = r ↔
      f.totalFragments ≤ header.fragmentIndex ∨
        f.fragmentMap.get header.fragmentIndex.toNat = true ∨
        f.buffer.size < header.fragmentIndex.toNat * maxUdpPayload + header.dataSize.toNat ∧
          ¬ r.Rebuilds header.frameId (header.fragmentIndex / 5 * 5) := by
  have hget := (frameAt_eq_some.mp hf).1
  by_cases hi : header.fragmentIndex < f.totalFragments
  swap
  · refine iff_of_true ?_ (.inl (UInt16.not_lt.mp hi))
    unfold storeFragment
    simp only [hget, hi, false_and, if_false]
    exact complete_self hf h
  by_cases hmap : f.fragmentMap.get header.fragmentIndex.toNat = true
  · refine iff_of_true ?_ (.inr (.inl hmap))
    unfold storeFragment
    simp only [hget, hmap, Bool.true_eq_false, and_false, if_false]
    exact complete_self hf h
  have hmiss : f.fragmentMap.get header.fragmentIndex.toNat = false := Bool.not_eq_true _ ▸ hmap
  have htouches := touches_newFragment hget hi hmiss payload
  rw [or_iff_right (UInt16.not_le.mpr hi), or_iff_right hmap]
  by_cases hin : header.fragmentIndex.toNat * maxUdpPayload + header.dataSize.toNat ≤ f.buffer.size
  · refine iff_of_false ?_ fun hout => Nat.not_lt.mpr hin hout.1
    have hset : (f.store header payload).fragmentMap.get header.fragmentIndex.toNat = true := by
      rw [f.store_eq header payload hin]
      exact if_pos rfl
    exact ne_of_marked hget hmiss (FixedRingBuffer.get_insert_self _ _ _) hset
      ((touches_tryRecover _ _ _).trans htouches)
  -- the fragment is not stored, and `TryRecover` is called
  have hkept : f.store header payload = f := if_neg hin
  rw [hkept, setSlot_self hget] at htouches
  rw [and_iff_right (Nat.not_le.mp hin)]
  by_cases hrebuilds : r.Rebuilds header.frameId (header.fragmentIndex / 5 * 5)
  · obtain ⟨k, g, hk, hg, hset⟩ := tryRecover_rebuilt hget hrebuilds
    exact iff_of_false (ne_of_marked hget hk hg hset htouches) (not_not.mpr hrebuilds)
  · refine iff_of_true ?_ hrebuilds
    unfold storeFragment
    simp only [hget, hi, hmiss, and_self, if_true, hkept, setSlot_self hget,
      tryRecover_self hrebuilds]
    exact complete_self hf h

/-- An accepted packet has its frame in its slot afterwards. -/
theorem frameAt_accepted (hstarted : r.firstFrameReceived = true) {header : VideoHeader}
    (hacc : r.Accepts header) (payload : Mem) (nowUs : UInt64) :
    (r.processPacket header payload nowUs).frameAt header.frameId ≠ none := by
  obtain ⟨g, hgrow, hring⟩ := frameRing_accepted (touches_storeFragment
    (r.ensureFrame header nowUs) header payload)
  have hid := hgrow.frameId.trans (frameFor_frameId r header nowUs)
  rw [processPacket_accepted hstarted hacc]
  have hat : ((r.ensureFrame header nowUs).storeFragment header payload).frameAt header.frameId =
      some g := frameAt_eq_some.mpr ⟨by rw [hring, FixedRingBuffer.get_insert_self], hid⟩
  rw [hat]
  exact Option.some_ne_none g

/-- **A packet that changes nothing.** -/
theorem processPacket_self_iff (h : Kept Noted r) (header : VideoHeader) (payload : Mem)
    (nowUs : UInt64) : r.processPacket header payload nowUs = r ↔ r.Harmless header := by
  unfold Harmless
  by_cases hstarted : r.firstFrameReceived = true
  · rw [if_pos hstarted]
    by_cases hacc : r.Accepts header
    swap
    · exact iff_of_true (processPacket_refused hstarted hacc payload nowUs) (.inl hacc)
    rw [or_iff_right (not_not.mpr hacc)]
    cases hf : r.frameAt header.frameId with
    | none =>
      refine iff_of_false (fun heq => ?_) (by rintro ⟨f, hf', -⟩; cases hf')
      exact frameAt_accepted hstarted hacc payload nowUs (by rw [heq, hf])
    | some f =>
      obtain ⟨hget, hid⟩ := frameAt_eq_some.mp hf
      have hens : r.ensureFrame header nowUs = r := by
        unfold ensureFrame
        rw [hget]
        exact if_neg (not_not.mpr hid)
      rw [processPacket_accepted hstarted hacc, hens,
        storeFragment_self_iff hf (h _ f hget) payload]
      constructor
      · exact fun hf => ⟨f, rfl, hf⟩
      · rintro ⟨_, ⟨⟩, hf⟩
        exact hf
  · rw [if_neg hstarted]
    by_cases hkey : header.isKeyframe = true
    · refine iff_of_false (fun heq => ?_) (by rw [hkey]; decide)
      -- the gate opens and stays open
      have hgate : r.gate header =
          some { r with nextFrameIdToRead := header.frameId, firstFrameReceived := true } := by
        unfold gate
        rw [if_neg hstarted, if_pos hkey]
      have hopen := (sameReader_processPacket (gate_some hgate).1 header payload nowUs)
      rw [processPacket_gate hgate] at heq
      rw [heq] at hopen
      exact hstarted hopen.firstFrameReceived
    · have hgate : r.gate header = none := by
        unfold gate
        rw [if_neg hstarted, if_neg hkey]
      exact iff_of_true (processPacket_gate_none hgate payload nowUs) (Bool.not_eq_true _ ▸ hkey)

end Receiver

namespace FrameFlow

/-- **Malformed packets.** In every reachable state a malformed packet changes nothing iff it is
harmless there. -/
theorem malformed_ignored_iff (poolSize : Nat) (maxFrames : UInt64) (calls : List FrameCall)
    (header : VideoHeader) (payload : Mem) (nowUs : UInt64) :
    let r := (run step (init poolSize maxFrames) calls).receiver
    (Malformed header → r.processPacket header payload nowUs = r) ↔
      (Malformed header → r.Harmless header) :=
  imp_congr_right fun _ => Receiver.processPacket_self_iff
    (kept_reachable Receiver.slotRule_noted poolSize maxFrames calls) header payload nowUs

/-- The first packet names frame 1000, of a keyframe, and 2000 fragments. -/
def bogusKeyframe : VideoHeader := ⟨0x01, 1000, 0, 2000, 0, 0, 0, 0, 0x01, 1300⟩

/-- Fragment 0 of keyframe 5, which has two. -/
def keyframe5 : VideoHeader := ⟨0x01, 5, 0, 2, 0, 0, 0, 0, 0x01, 1300⟩

/-- It is rejected after it has placed the read pointer, and then the keyframe is late. -/
theorem bogusKeyframe_parks :
    let r := (run step (init 30 10) []).receiver
    Malformed bogusKeyframe ∧ r.processPacket bogusKeyframe (fun _ => 0) 0 ≠ r ∧
      (r.processPacket bogusKeyframe (fun _ => 0) 0).nextFrameIdToRead = 1000 ∧
      ((r.processPacket bogusKeyframe (fun _ => 0) 0).processPacket keyframe5 (fun _ => 0)
        0).frameAt 5 = none := by
  refine ⟨.inl (by decide), fun heq => ?_, rfl, rfl⟩
  have hopen := congrArg Receiver.firstFrameReceived heq
  exact absurd hopen (by decide)

end FrameFlow

end RemotePlay.Client
