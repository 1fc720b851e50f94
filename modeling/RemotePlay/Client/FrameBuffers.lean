import RemotePlay.Client.SlotInvariant
import Mathlib.Data.List.Count

/-!
# Frame buffers

A frame gets its 1 MiB buffer when it is allocated and keeps it wherever it
goes: `Buffered` says so of every frame of the receiver, the jitter buffer and
the handles. A fragment of a frame that can be sent therefore fits, and when it
is accepted it is in the frame afterwards (`processPacket_marks`).
-/

namespace RemotePlay.Client

open Lib Protocol

namespace FrameData

def FullBuffer (f : FrameData) : Prop := f.buffer.size = 1024 * 1024

theorem fullBuffer_start {f : FrameData} (h : f.FullBuffer) (header : VideoHeader)
    (nowUs : UInt64) : (f.start header nowUs).FullBuffer := by
  unfold FullBuffer
  rw [(start_eq f header nowUs).1]
  exact h

theorem fullBuffer_store {f : FrameData} (h : f.FullBuffer) (header : VideoHeader)
    (payload : Mem) : (f.store header payload).FullBuffer := by
  unfold FrameData.store
  dsimp only
  split
  · exact h
  · exact h

end FrameData

namespace Receiver

/-- The frame that a packet gets to has its buffer, and then nothing takes it away. -/
theorem slotRule_fullBuffer :
    SlotRule (fun f _ => f.FullBuffer) fun _ f => f.FullBuffer where
  later _ h := h
  start _ h := h
  store h _ _ _ _ := FrameData.fullBuffer_store h _ _
  recover {_ f fec pkt groupStart missingIndex} h _ := by
    unfold FrameData.FullBuffer
    rw [size_recover f fec pkt groupStart missingIndex]
    exact h
  finish h _ := h

/-- Every frame of the pool and of the ring has its buffer. -/
structure FullBuffers (r : Receiver) : Prop where
  pool : ∀ f ∈ r.framePool, f.FullBuffer
  ring : Kept (fun _ f => f.FullBuffer) r

variable {r r' : Receiver}

theorem FullBuffers.congr (h : FullBuffers r) (hpool : r'.framePool = r.framePool)
    (hring : r'.frameRing = r.frameRing)
    (hlast : r'.lastCompletedFrameId = r.lastCompletedFrameId) : FullBuffers r' :=
  ⟨by rw [hpool]; exact h.pool, h.ring.congr hring hlast⟩

theorem FullBuffers.frameFor (h : FullBuffers r) (header : VideoHeader) (nowUs : UInt64) :
    (r.frameFor header nowUs).FullBuffer := by
  rcases r.frameFor_cases header nowUs with hat | ⟨-, f, heq, hf⟩
  · exact (h.ring _ _ (frameAt_eq_some.mp hat).1).holds
  rw [heq]
  refine FrameData.fullBuffer_start ?_ header nowUs
  rcases hf with hf | hf | ⟨addr, rfl⟩
  · exact h.pool f hf
  · exact (h.ring _ f hf).holds
  · rfl

theorem FullBuffers.gate (h : FullBuffers r) {header : VideoHeader}
    (hgate : r.gate header = some r') : FullBuffers r' :=
  have hsome := gate_some hgate
  h.congr hsome.2.2.1 hsome.2.1 (last_gate hgate)

theorem FullBuffers.processPacket (h : FullBuffers r) (header : VideoHeader) (payload : Mem)
    (nowUs : UInt64) : FullBuffers (r.processPacket header payload nowUs) := by
  refine ⟨fun f hf => ?_, h.ring.processPacket slotRule_fullBuffer (fun r' hgate _ => ?_) payload⟩
  · rcases r.processPacket_cases header payload nowUs with ⟨-, heq⟩ | ⟨r₁, hgate, hcases⟩
    · rw [heq] at hf
      exact h.pool f hf
    have h₁ := h.gate hgate
    rcases hcases with ⟨-, heq⟩ | ⟨-, ht⟩
    · rw [heq] at hf
      exact h₁.pool f hf
    · rw [ht.framePool] at hf
      rcases mem_ensureFrame hf with hp | hslot
      · exact h₁.pool f hp
      · exact (h₁.ring _ f hslot).holds
  · exact (h.gate hgate).frameFor header nowUs

theorem FullBuffers.processFEC (h : FullBuffers r) (header : FECHeader) (payload : Mem) :
    FullBuffers (r.processFEC header payload) := by
  refine ⟨?_, h.ring.processFEC slotRule_fullBuffer header payload⟩
  rw [(r.touches_processFEC header payload).framePool]
  exact h.pool

theorem FullBuffers.getNextFrame (h : FullBuffers r) : FullBuffers r.getNextFrame.2 := by
  refine ⟨?_, h.ring.getNextFrame⟩
  rcases r.getNextFrame_cases with heq | ⟨f, -, -, heq⟩ <;> rw [heq] <;> exact h.pool

/-- The frame that `GetNextFrame` hands out. -/
theorem FullBuffers.handed (h : FullBuffers r) {f : FrameData}
    (hf : r.getNextFrame.1 = some f) : f.FullBuffer := by
  rcases r.getNextFrame_cases with heq | ⟨g, hg, -, heq⟩ <;> rw [heq] at hf
  · cases hf
  · rw [← Option.some.inj hf]
    exact (h.ring _ g (frameAt_eq_some.mp hg).1).holds

theorem FullBuffers.forceAdvanceTo (h : FullBuffers r) (frameId : UInt32) :
    FullBuffers (r.forceAdvanceTo frameId) := by
  refine ⟨fun f hf => ?_, h.ring.forceAdvanceTo frameId⟩
  rcases r.forceAdvanceTo_cases frameId with ⟨-, heq⟩ | ⟨-, r₁, hd, heq⟩ <;> rw [heq] at hf
  · exact h.pool f hf
  · rcases hd.pool f hf with hp | ⟨i, hi⟩
    · exact h.pool f hp
    · exact (h.ring i f hi).holds

theorem FullBuffers.returnToPool (h : FullBuffers r) {f : FrameData} (hf : f.FullBuffer) :
    FullBuffers (r.returnToPool f) := by
  refine ⟨fun g hg => ?_, h.ring.congr (frameRing_returnToPool r f) (last_returnToPool r f)⟩
  rcases mem_returnToPool hg with hp | heq
  · exact h.pool g hp
  · rwa [heq]

theorem FullBuffers.returnAll (h : FullBuffers r) {frames : List FrameData}
    (hf : ∀ f ∈ frames, f.FullBuffer) : FullBuffers (r.returnAll frames) := by
  induction frames generalizing r with
  | nil => exact h
  | cons f frames ih =>
    exact ih (h.returnToPool (hf f List.mem_cons_self)) fun g hg =>
      hf g (List.mem_cons_of_mem f hg)

end Receiver

/-! ## The whole flow -/

namespace FrameFlow

/-- Every frame has its buffer, wherever it is. -/
structure Buffered (s : FrameFlow) : Prop where
  receiver : s.receiver.FullBuffers
  jitter : ∀ f ∈ s.jitter.ring.occupants, f.FullBuffer
  held : ∀ f ∈ s.held, f.FullBuffer

theorem Buffered.eraseIdx {s : FrameFlow} (h : Buffered s) (i : Nat) :
    ∀ f ∈ s.held.eraseIdx i, f.FullBuffer :=
  fun f hf => h.held f (List.mem_of_mem_eraseIdx hf)

end FrameFlow

/-! ## Accepted fragments -/

namespace FrameData

/-- A fragment that fits is marked. -/
theorem marked_store {f : FrameData} {header : VideoHeader}
    (hin : header.fragmentIndex.toNat * maxUdpPayload + header.dataSize.toNat ≤ f.buffer.size)
    (payload : Mem) :
    (f.store header payload).fragmentMap.get header.fragmentIndex.toNat = true := by
  rw [store_eq f header payload hin]
  exact if_pos rfl

theorem grows_mark (f : FrameData) : f.Grows
    (if f.fragmentsReceived = f.totalFragments then { f with isComplete := true } else f) := by
  split
  · exact ⟨rfl, rfl, fun _ hk => hk, fun _ => rfl⟩
  · exact .refl f

end FrameData

namespace Receiver

variable {r : Receiver}

/-- The fragment is in the frame of its slot afterwards. -/
theorem storeFragment_marks {header : VideoHeader} {f : FrameData}
    (hf : r.frameRing.get header.frameId = some f) (hi : header.fragmentIndex < f.totalFragments)
    (hin : header.fragmentIndex.toNat * maxUdpPayload + header.dataSize.toNat ≤ f.buffer.size)
    (payload : Mem) : ∃ g, (r.storeFragment header payload).frameRing =
      r.frameRing.insert header.frameId (some g) ∧ f.Grows g ∧
        g.fragmentMap.get header.fragmentIndex.toNat = true := by
  unfold storeFragment
  simp only [hf]
  by_cases hmap : f.fragmentMap.get header.fragmentIndex.toNat = false
  · simp only [hi, hmap, and_self, if_true]
    have hgrows := f.grows_store header payload
    have hmark := FrameData.marked_store hin payload
    have ht := touches_tryRecover (r.setSlot header.frameId (some (f.store header payload)))
      header.frameId (header.fragmentIndex / 5 * 5)
    generalize (r.setSlot header.frameId (some (f.store header payload))).tryRecover
      header.frameId (header.fragmentIndex / 5 * 5) = r' at ht
    -- what the recovery left in the slot
    obtain ⟨g, hg, hgrow, hring⟩ : ∃ g, r'.frameRing.get header.frameId = some g ∧
        (f.store header payload).Grows g ∧
        r'.frameRing = r.frameRing.insert header.frameId (some g) := by
      rcases ht.frameRing with heq | ⟨f', g, hf', hgrow, heq⟩
      · refine ⟨f.store header payload, ?_, .refl _, heq⟩
        rw [heq, frameRing_setSlot, FixedRingBuffer.get_insert_self]
      · rw [frameRing_setSlot, FixedRingBuffer.get_insert_self] at hf'
        cases hf'
        refine ⟨g, by rw [heq, FixedRingBuffer.get_insert_self], hgrow, ?_⟩
        rw [heq, frameRing_setSlot, FixedRingBuffer.insert_insert]
    rw [hg]
    dsimp only
    rw [complete_eq, hring, FixedRingBuffer.insert_insert]
    have hall := (hgrows.trans hgrow).trans g.grows_mark
    exact ⟨_, rfl, hall, (hgrow.trans g.grows_mark).kept _ hmark⟩
  · have hnot : ¬ (header.fragmentIndex < f.totalFragments ∧
        f.fragmentMap.get header.fragmentIndex.toNat = false) := fun h => hmap h.2
    simp only [if_neg hnot, hf]
    rw [complete_eq]
    exact ⟨_, rfl, f.grows_mark, f.grows_mark.kept _ (by simpa using hmap)⟩

/-- **An accepted fragment** is in the frame of its id afterwards. -/
theorem processPacket_marks {header : VideoHeader} (hstarted : r.firstFrameReceived = true)
    (hacc : r.Accepts header) {nowUs : UInt64}
    (hi : header.fragmentIndex < (r.frameFor header nowUs).totalFragments)
    (hin : header.fragmentIndex.toNat * maxUdpPayload + header.dataSize.toNat ≤
      (r.frameFor header nowUs).buffer.size) (payload : Mem) :
    ∃ g, (r.processPacket header payload nowUs).frameRing =
      r.frameRing.insert header.frameId (some g) ∧ (r.frameFor header nowUs).Grows g ∧
        g.fragmentMap.get header.fragmentIndex.toNat = true := by
  have hens := frameRing_ensureFrame r header nowUs
  have hslot : (r.ensureFrame header nowUs).frameRing.get header.frameId =
      some (r.frameFor header nowUs) := by
    rw [hens, FixedRingBuffer.get_insert_self]
  obtain ⟨g, hring, hgrow, hmark⟩ := storeFragment_marks hslot hi hin payload
  rw [processPacket_accepted hstarted hacc]
  refine ⟨g, ?_, hgrow, hmark⟩
  rw [hring, hens, FixedRingBuffer.insert_insert]

end Receiver

end RemotePlay.Client
