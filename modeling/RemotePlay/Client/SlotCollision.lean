import RemotePlay.Client.DeliveryOrder

/-!
# Collisions in the frame ring

Two frames whose ids are equal modulo 64 have one slot, and the one whose packet
comes last gets it. `Keeps` is what a caller may expect of the frames ahead of
the read pointer; `SlotFree` is the condition under which a packet breaks none
of it. Calls other than `ProcessPacket` take no frame out of the ring unless
they move the pointer.
-/

namespace RemotePlay.Client

open Lib Protocol

namespace Receiver

/-- The packet passes every check before the ring is touched. -/
def Passes (r : Receiver) (header : VideoHeader) : Prop :=
  ∃ r', r.gate header = some r' ∧ r'.Accepts header

/-- The complete frames at or after the read pointer are still in the ring. -/
def KeepsComplete (r r' : Receiver) : Prop :=
  ∀ g f, r.frameAt g = some f → r.nextFrameIdToRead ≤ g → f.isComplete = true →
    ∃ f', r'.frameAt g = some f' ∧ f'.isComplete = true

/-- No frame between the read pointer and `fid` has lost a fragment that it had. -/
def KeepsCloser (fid : UInt32) (r r' : Receiver) : Prop :=
  ∀ g f k, r.frameAt g = some f → r.nextFrameIdToRead ≤ g → g < fid →
    f.fragmentMap.get k = true → r'.frameAt g = some f

/-- The slot of the packet is empty, or holds its own frame, a frame behind the read pointer, or an
incomplete frame that is later than the packet's or has no fragment yet. -/
def SlotFree (r : Receiver) (header : VideoHeader) : Prop :=
  ∀ f, r.frameRing.get header.frameId = some f → f.frameId ≠ header.frameId →
    r.nextFrameIdToRead ≤ f.frameId →
      f.isComplete = false ∧ (f.frameId < header.frameId → ∀ k, f.fragmentMap.get k = false)

variable {r r' : Receiver}

theorem keepsComplete_of_ring (h : r'.frameRing = r.frameRing) : KeepsComplete r r' := by
  intro g f hf _ hc
  exact ⟨f, (frameAt_congr h g).trans hf, hc⟩

theorem Touches.keepsComplete {fid : UInt32} (h : Touches fid r r') : KeepsComplete r r' := by
  rcases h.frameRing with heq | ⟨f₀, f₁, hf₀, hgrow, heq⟩
  · exact keepsComplete_of_ring heq
  intro g f hf _ hc
  obtain ⟨hget, hid⟩ := frameAt_eq_some.mp hf
  by_cases hslot : g.toNat % 64 = fid.toNat % 64
  · rw [r.frameRing.get_congr hslot, hf₀] at hget
    cases hget
    refine ⟨f₁, frameAt_eq_some.mpr ⟨?_, hgrow.frameId.trans hid⟩, hgrow.complete hc⟩
    rw [heq, FixedRingBuffer.get_insert, if_pos hslot]
  · refine ⟨f, frameAt_eq_some.mpr ⟨?_, hid⟩, hc⟩
    rw [heq, FixedRingBuffer.get_insert_ne _ _ hslot, hget]

/-- A packet that does not pass leaves the ring alone; one that passes writes its slot. -/
theorem frameRing_processPacket_cases (r : Receiver) (header : VideoHeader) (payload : Mem)
    (nowUs : UInt64) :
    (¬ r.Passes header ∧ (r.processPacket header payload nowUs).frameRing = r.frameRing) ∨
    (r.Passes header ∧ ∃ g, g.frameId = header.frameId ∧
      (∀ f, r.frameAt header.frameId = some f → f.Grows g) ∧
      (r.processPacket header payload nowUs).frameRing =
        r.frameRing.insert header.frameId (some g)) := by
  rcases r.processPacket_cases header payload nowUs with ⟨hgate, heq⟩ | ⟨r', hgate, hcases⟩
  · refine .inl ⟨?_, by rw [heq]⟩
    rintro ⟨r', hgate', -⟩
    rw [hgate] at hgate'
    cases hgate'
  have hring := (gate_some hgate).2.1
  rcases hcases with ⟨hacc, heq⟩ | ⟨hacc, ht⟩
  · refine .inl ⟨?_, by rw [heq, hring]⟩
    rintro ⟨r'', hgate', hacc'⟩
    rw [hgate] at hgate'
    cases hgate'
    exact hacc hacc'
  · obtain ⟨g, hgrow, hring'⟩ := frameRing_accepted ht
    refine .inr ⟨⟨r', hgate, hacc⟩, g, hgrow.frameId.trans (frameFor_frameId r' header nowUs),
      fun f hf => ?_, by rw [hring', hring]⟩
    rw [← frameAt_congr hring] at hf
    rcases r'.frameFor_cases header nowUs with hfor | ⟨hnone, -⟩
    · rw [hf] at hfor
      cases hfor
      exact hgrow
    · rw [hf] at hnone
      cases hnone

/-- **One packet** keeps what it should exactly when its slot is free. -/
theorem keeps_processPacket_iff (hslots : r.InSlots) (header : VideoHeader) (payload : Mem)
    (nowUs : UInt64) :
    (KeepsCloser header.frameId r (r.processPacket header payload nowUs) ∧
      KeepsComplete r (r.processPacket header payload nowUs)) ↔
    (r.Passes header → r.SlotFree header) := by
  rcases r.frameRing_processPacket_cases header payload nowUs with
    ⟨hpass, hring⟩ | ⟨hpass, g, hg, hgrow, hring⟩
  · refine iff_of_true ⟨fun i f k hf _ _ _ => ?_, keepsComplete_of_ring hring⟩
      fun h => absurd h hpass
    rw [frameAt_congr hring, hf]
  constructor
  · -- a frame that the packet takes the slot from is gone
    rintro ⟨hcloser, hcomplete⟩ - f hf hne hnext
    have hat : r.frameAt f.frameId = some f :=
      hslots.frameAt (Nat.mod_lt header.frameId.toNat (by omega)) hf
    have hgone : (r.processPacket header payload nowUs).frameAt f.frameId = none := by
      unfold frameAt
      rw [hring, FixedRingBuffer.get_insert, if_pos (hslots.get hf)]
      simp [Option.filter, hg, hne.symm]
    refine ⟨?_, fun hlt k => ?_⟩
    · rw [← Bool.not_eq_true]
      intro hc
      obtain ⟨f', hf', -⟩ := hcomplete _ f hat hnext hc
      rw [hgone] at hf'
      cases hf'
    · rw [← Bool.not_eq_true]
      intro hk
      have hkept := hcloser _ f k hat hnext hlt hk
      rw [hgone] at hkept
      cases hkept
  · intro hfree
    have hother : ∀ i, i.toNat % 64 ≠ header.frameId.toNat % 64 →
        (r.processPacket header payload nowUs).frameAt i = r.frameAt i := by
      intro i hi
      unfold frameAt
      rw [hring, FixedRingBuffer.get_insert_ne _ _ hi]
    refine ⟨fun i f k hf hnext hlt hk => ?_, fun i f hf hnext hc => ?_⟩
    · by_cases hslot : i.toNat % 64 = header.frameId.toNat % 64
      · obtain ⟨hget, rfl⟩ := frameAt_eq_some.mp hf
        rw [r.frameRing.get_congr hslot] at hget
        have hne : f.frameId ≠ header.frameId := by
          rintro heq
          rw [heq, UInt32.lt_iff_toNat_lt] at hlt
          omega
        rw [(hfree hpass f hget hne hnext).2 hlt k] at hk
        cases hk
      · rw [hother i hslot, hf]
    · by_cases hslot : i.toNat % 64 = header.frameId.toNat % 64
      · obtain ⟨hget, rfl⟩ := frameAt_eq_some.mp hf
        rw [r.frameRing.get_congr hslot] at hget
        by_cases hne : f.frameId = header.frameId
        · rw [hne] at hf ⊢
          refine ⟨g, frameAt_eq_some.mpr ⟨?_, hg⟩, (hgrow f hf).complete hc⟩
          rw [hring, FixedRingBuffer.get_insert_self]
        · rw [(hfree hpass f hget hne hnext).1] at hc
          cases hc
      · exact ⟨f, (hother i hslot).trans hf, hc⟩

end Receiver

/-! ## Runs -/

namespace FrameFlow

/-- What a call must keep of the frames in the ring. -/
def Keeps (s : FrameFlow) : FrameCall → Prop
  | .processPacket header payload nowUs =>
    Receiver.KeepsCloser header.frameId s.receiver
        (s.step (.processPacket header payload nowUs)).receiver ∧
      Receiver.KeepsComplete s.receiver (s.step (.processPacket header payload nowUs)).receiver
  | .getNextFrame => True
  | .forceAdvanceTo _ => True
  | call => Receiver.KeepsComplete s.receiver (s.step call).receiver

/-- A packet that passes finds its slot free. -/
def NoCollision (s : FrameFlow) : FrameCall → Prop
  | .processPacket header _ _ => s.receiver.Passes header → s.receiver.SlotFree header
  | _ => True

theorem frameRing_returnAll (r : Receiver) (frames : List FrameData) :
    (r.returnAll frames).frameRing = r.frameRing := by
  induction frames generalizing r with
  | nil => rfl
  | cons f frames ih => exact (ih _).trans (Receiver.frameRing_returnToPool r f)

theorem inSlots_congr {r r' : Receiver} (h : r.InSlots) (hring : r'.frameRing = r.frameRing) :
    r'.InSlots := by
  unfold Receiver.InSlots
  rw [hring]
  exact h

theorem frameRing_drop (s : FrameFlow) (i : Nat) :
    (s.step (.drop i)).receiver.frameRing = s.receiver.frameRing := by
  simp only [step]
  cases s.held[i]? with
  | none => rfl
  | some f => exact Receiver.frameRing_returnToPool s.receiver f

theorem frameRing_pushFrame (s : FrameFlow) (i : Nat) (now : Int) :
    (s.step (.pushFrame i now)).receiver.frameRing = s.receiver.frameRing := by
  simp only [step]
  cases s.held[i]? with
  | none => rfl
  | some f => exact frameRing_returnAll s.receiver _

theorem frameRing_reset (s : FrameFlow) (nextExpectedId : UInt32) :
    (s.step (.reset nextExpectedId)).receiver.frameRing = s.receiver.frameRing :=
  frameRing_returnAll s.receiver _

theorem inSlots_step (s : FrameFlow) (call : FrameCall) (h : s.receiver.InSlots) :
    (s.step call).receiver.InSlots := by
  cases call with
  | processPacket header payload nowUs => exact h.processPacket header payload nowUs
  | processFEC header payload => exact h.touches (s.receiver.touches_processFEC header payload)
  | getNextFrame => exact h.getNextFrame
  | findLatestAvailableKeyframe => exact h
  | forceAdvanceTo frameId => exact h.forceAdvanceTo frameId
  | validateSequence seq => exact h
  | drop i => exact inSlots_congr h (frameRing_drop s i)
  | pushFrame i now => exact inSlots_congr h (frameRing_pushFrame s i now)
  | popFrame currentSyncTimeUs now => exact h
  | reset nextExpectedId => exact inSlots_congr h (frameRing_reset s nextExpectedId)

/-- **One call.** -/
theorem keeps_step_iff (s : FrameFlow) (call : FrameCall) (h : s.receiver.InSlots) :
    s.Keeps call ↔ s.NoCollision call := by
  cases call with
  | processPacket header payload nowUs =>
    exact Receiver.keeps_processPacket_iff h header payload nowUs
  | processFEC header payload =>
    exact iff_of_true (s.receiver.touches_processFEC header payload).keepsComplete trivial
  | getNextFrame => exact Iff.rfl
  | findLatestAvailableKeyframe =>
    exact iff_of_true (Receiver.keepsComplete_of_ring rfl) trivial
  | forceAdvanceTo frameId => exact Iff.rfl
  | validateSequence seq => exact iff_of_true (Receiver.keepsComplete_of_ring rfl) trivial
  | drop i => exact iff_of_true (Receiver.keepsComplete_of_ring (frameRing_drop s i)) trivial
  | pushFrame i now =>
    exact iff_of_true (Receiver.keepsComplete_of_ring (frameRing_pushFrame s i now)) trivial
  | popFrame currentSyncTimeUs now =>
    exact iff_of_true (Receiver.keepsComplete_of_ring rfl) trivial
  | reset nextExpectedId =>
    exact iff_of_true (Receiver.keepsComplete_of_ring (frameRing_reset s nextExpectedId)) trivial

/-- **Received frames and collisions.** In a run of any calls no frame is lost, neither one closer to
the read pointer than the packet that is stored nor a complete one, exactly when every packet that
passes the checks finds its slot free. -/
theorem keeps_iff_noCollision (poolSize : Nat) (maxFrames : UInt64) (calls : List FrameCall) :
    Along step Keeps (init poolSize maxFrames) calls ↔
      Along step NoCollision (init poolSize maxFrames) calls := by
  have h0 : (init poolSize maxFrames).receiver.InSlots := fun k hk f hf => by cases hf
  exact along_congr (fun s call (h : s.receiver.InSlots) => inSlots_step s call h)
    (fun s call h => keeps_step_iff s call h) h0 calls

/-- Frame 1 is complete and not yet read when the first packet of frame 65 takes its slot. -/
theorem complete_frame_lost :
    ¬ ∀ (poolSize : Nat) (maxFrames : UInt64) (calls : List FrameCall),
      Along step Keeps (init poolSize maxFrames) calls := by
  intro h
  obtain ⟨-, ⟨hcloser, -⟩, -⟩ := h 30 10 [oneFragment 1, oneFragment 65]
  have hbefore : (((init 30 10).step (oneFragment 1)).receiver.frameAt 1).any
      (·.fragmentMap.get 0) = true := by decide
  have hafter : ((((init 30 10).step (oneFragment 1)).step
      (oneFragment 65)).receiver.frameAt 1).isNone = true := by decide
  obtain ⟨f, hf, hstored⟩ := (Option.any_eq_true _ _).mp hbefore
  have hkept : (((init 30 10).step (oneFragment 1)).step
      (oneFragment 65)).receiver.frameAt 1 = some f :=
    hcloser 1 f 0 hf (by decide) (by decide) hstored
  rw [hkept] at hafter
  cases hafter

end FrameFlow

end RemotePlay.Client
