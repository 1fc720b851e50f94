import RemotePlay.Client.FrameOwnership
import Mathlib.Data.List.Chain

/-!
# Delivery order

The frames in the ring are never behind the read pointer (`Ahead`), so what
`GetNextFrame` delivers has the id the pointer had, and the pointer only moves
forward once the first keyframe has placed it. `DeliveryEvent` is the record of
a run that the order of the deliveries is stated about: the frames delivered
and the advances of the pointer between them.
-/

namespace RemotePlay.Client

open Lib Protocol

/-- Frame ids stay below `2 ^ 32 - 64`, so the read pointer does not wrap. -/
def frameIdLimit : UInt32 := 4294967232

namespace Receiver

/-- Every frame of the ring is in its slot and not behind the read pointer, and there is none
before the first keyframe. -/
structure Ahead (r : Receiver) : Prop where
  slots : r.InSlots
  frames : ∀ i f, r.frameRing.get i = some f →
    r.nextFrameIdToRead ≤ f.frameId ∧ f.frameId < frameIdLimit
  pointer : r.nextFrameIdToRead ≤ frameIdLimit
  idle : r.firstFrameReceived = false → ∀ i, r.frameRing.get i = none

variable {r r' : Receiver}

theorem ahead_init (poolSize : Nat) : Ahead (init poolSize) where
  slots k hk f hf := by cases hf
  frames i f hf := by cases hf
  pointer := (by decide : (0 : UInt32) ≤ frameIdLimit)
  idle _ _ := rfl

/-- What a change of the receiver that leaves the ring and the pointer alone keeps. -/
theorem Ahead.congr (h : Ahead r) (hring : r'.frameRing = r.frameRing)
    (hnext : r'.nextFrameIdToRead = r.nextFrameIdToRead)
    (hfirst : r'.firstFrameReceived = r.firstFrameReceived) : Ahead r' where
  slots := by
    unfold InSlots
    rw [hring]
    exact h.slots
  frames := by
    rw [hring, hnext]
    exact h.frames
  pointer := by
    rw [hnext]
    exact h.pointer
  idle := by
    rw [hring, hfirst]
    exact h.idle

theorem Ahead.touches (h : Ahead r) {fid : UInt32} (ht : Touches fid r r') : Ahead r' := by
  refine ⟨h.slots.touches ht, fun i f hf => ?_, ?_, fun hfirst i => ?_⟩
  · rw [ht.nextFrameIdToRead]
    rcases ht.frameRing with heq | ⟨f', g, hf', hgrow, heq⟩
    · rw [heq] at hf
      exact h.frames i f hf
    · rw [heq] at hf
      rcases FixedRingBuffer.get_insert_cases hf with hg | hf
      · cases hg
        rw [hgrow.frameId]
        exact h.frames fid f' hf'
      · exact h.frames i f hf
  · rw [ht.nextFrameIdToRead]
    exact h.pointer
  · rw [ht.firstFrameReceived] at hfirst
    rcases ht.frameRing with heq | ⟨f', g, hf', -, -⟩
    · rw [heq]
      exact h.idle hfirst i
    · rw [h.idle hfirst fid] at hf'
      cases hf'

/-- The first keyframe places the read pointer while the ring is empty. -/
theorem Ahead.gate (h : Ahead r) {header : VideoHeader} (hgate : r.gate header = some r')
    (hid : header.frameId < frameIdLimit) : Ahead r' := by
  obtain ⟨hstarted, hring, -, -, rfl | ⟨hidle, -, hnext⟩⟩ := gate_some hgate
  · exact h
  · have hempty : ∀ i, r'.frameRing.get i = none := by
      rw [hring]
      exact h.idle hidle
    refine ⟨?_, fun i f hf => ?_, ?_, fun hfirst => ?_⟩
    · unfold InSlots
      rw [hring]
      exact h.slots
    · rw [hempty i] at hf
      cases hf
    · rw [hnext]
      exact UInt32.le_iff_toNat_le.mpr (Nat.le_of_lt (UInt32.lt_iff_toNat_lt.mp hid))
    · rw [hstarted] at hfirst
      cases hfirst

theorem Ahead.processPacket (h : Ahead r) {header : VideoHeader}
    (hid : header.frameId < frameIdLimit) (payload : Mem) (nowUs : UInt64) :
    Ahead (r.processPacket header payload nowUs) := by
  rcases processPacket_cases r header payload nowUs with ⟨-, heq⟩ | ⟨r', hgate, hcases⟩
  · rwa [heq]
  have h' := h.gate hgate hid
  have hstarted := (gate_some hgate).1
  rcases hcases with ⟨-, heq⟩ | ⟨hacc, ht⟩
  · rwa [heq]
  have hslots := h.slots.processPacket header payload nowUs
  obtain ⟨g, hgrow, hring⟩ := frameRing_accepted ht
  have hens := framesOnly_ensureFrame r' header nowUs
  have hnext := ht.nextFrameIdToRead.trans hens.nextFrameIdToRead
  have hfirst := ht.firstFrameReceived.trans hens.firstFrameReceived
  refine ⟨hslots, fun i f hf => ?_, ?_, fun hidle => ?_⟩
  · rw [hnext]
    rw [hring] at hf
    rcases FixedRingBuffer.get_insert_cases hf with hg | hf
    · cases hg
      rw [hgrow.frameId, frameFor_frameId]
      have hge := hacc.1
      rw [UInt32.lt_iff_toNat_lt] at hge
      exact ⟨UInt32.le_iff_toNat_le.mpr (by omega), hid⟩
    · exact h'.frames i f hf
  · rw [hnext]
    exact h'.pointer
  · rw [hfirst, hstarted] at hidle
    cases hidle

/-- The pointer steps over the frame that leaves the ring. -/
theorem Ahead.getNextFrame (h : Ahead r) : Ahead r.getNextFrame.2 := by
  rcases getNextFrame_cases r with heq | ⟨f, hf, -, heq⟩
  · rwa [heq]
  obtain ⟨hget, hid⟩ := frameAt_eq_some.mp hf
  have hlimit := UInt32.lt_iff_toNat_lt.mp (h.frames _ f hget).2
  have hnext : (r.nextFrameIdToRead + 1).toNat = r.nextFrameIdToRead.toNat + 1 := by
    rw [UInt32.toNat_add]
    show (r.nextFrameIdToRead.toNat + 1) % 2 ^ 32 = r.nextFrameIdToRead.toNat + 1
    rw [← hid]
    have hconst : frameIdLimit.toNat = 4294967232 := rfl
    omega
  have hslots := h.slots.getNextFrame
  rw [heq] at hslots ⊢
  refine ⟨hslots, fun i g hg => ?_, ?_, fun hfirst => ?_⟩
  · change (r.frameRing.insert r.nextFrameIdToRead none).get i = some g at hg
    rw [FixedRingBuffer.get_insert] at hg
    split at hg
    · cases hg
    next hne =>
    obtain ⟨hle, hlt⟩ := h.frames i g hg
    refine ⟨UInt32.le_iff_toNat_le.mpr ?_, hlt⟩
    have hslot := h.slots.get hg
    have hge := UInt32.le_iff_toNat_le.mp hle
    show (r.nextFrameIdToRead + 1).toNat ≤ g.frameId.toNat
    -- its slot is not the one of the pointer, so neither is its id
    rcases Nat.eq_or_lt_of_le hge with hsame | hgt
    · rw [← hsame] at hslot
      exact absurd hslot.symm hne
    · omega
  · refine UInt32.le_iff_toNat_le.mpr ?_
    show (r.nextFrameIdToRead + 1).toNat ≤ frameIdLimit.toNat
    rw [hnext, ← hid]
    exact hlimit
  · rw [h.idle hfirst] at hget
    cases hget

theorem Ahead.forceAdvanceTo (h : Ahead r) {frameId : UInt32} (hid : frameId < frameIdLimit) :
    Ahead (r.forceAdvanceTo frameId) := by
  have hslots := h.slots.forceAdvanceTo frameId
  unfold Receiver.forceAdvanceTo at hslots ⊢
  split
  · exact h
  next hgt =>
  rw [if_neg hgt] at hslots
  have hgt : r.nextFrameIdToRead.toNat < frameId.toNat := by
    rw [UInt32.le_iff_toNat_le] at hgt
    omega
  have hcount : (frameId - r.nextFrameIdToRead).toNat =
      frameId.toNat - r.nextFrameIdToRead.toNat :=
    UInt32.toNat_sub_of_le _ _ (UInt32.le_iff_toNat_le.mpr (Nat.le_of_lt hgt))
  have hd : Dropped frameId.toNat r
      (r.dropFrames r.nextFrameIdToRead (frameId - r.nextFrameIdToRead).toNat) :=
    dropFrames_spec _ r _ (by omega)
  refine ⟨hslots, fun i f hf => ?_, ?_, fun hfirst i => ?_⟩
  · obtain ⟨hle, hlt⟩ := h.frames i f (hd.ring i f hf)
    refine ⟨UInt32.le_iff_toNat_le.mpr ?_, hlt⟩
    show frameId.toNat ≤ f.frameId.toNat
    by_contra hbelow
    have hgone : (r.dropFrames r.nextFrameIdToRead
        (frameId - r.nextFrameIdToRead).toNat).frameAt f.frameId = none :=
      dropFrames_gone hle (by omega)
    have hat := hslots.frameAt (Nat.mod_lt i.toNat (by omega)) hf
    exact absurd (hat.symm.trans hgone) (by simp)
  · exact UInt32.le_iff_toNat_le.mpr (Nat.le_of_lt (UInt32.lt_iff_toNat_lt.mp hid))
  · have hempty := h.idle (hd.same.firstFrameReceived.symm.trans hfirst) i
    cases hf : (r.dropFrames r.nextFrameIdToRead
        (frameId - r.nextFrameIdToRead).toNat).frameRing.get i with
    | none => rfl
    | some f =>
      rw [hd.ring i f hf] at hempty
      cases hempty

theorem Ahead.returnToPool (h : Ahead r) (f : FrameData) : Ahead (r.returnToPool f) :=
  have hsame := framesOnly_returnToPool r f
  h.congr (frameRing_returnToPool r f) hsame.nextFrameIdToRead hsame.firstFrameReceived

theorem Ahead.returnAll (h : Ahead r) (frames : List FrameData) : Ahead (r.returnAll frames) := by
  induction frames generalizing r with
  | nil => exact h
  | cons f frames ih => exact ih (h.returnToPool f)

end Receiver

/-! ## The record of a run -/

inductive DeliveryEvent where
  | delivered (f : FrameData)
  /-- `ForceAdvanceTo` has moved the read pointer. -/
  | advanced

namespace DeliveryEvent

/-- What a call adds to the record. -/
def note (s : FrameFlow) (call : FrameCall) (log : List DeliveryEvent) : List DeliveryEvent :=
  match call with
  | .getNextFrame =>
    match s.receiver.getNextFrame.1 with
    | some f => log ++ [.delivered f]
    | none => log
  | .forceAdvanceTo frameId =>
    if s.receiver.nextFrameIdToRead < frameId then log ++ [.advanced] else log
  | _ => log

def frame? : DeliveryEvent → Option FrameData
  | delivered f => some f
  | advanced => none

def deliveries (log : List DeliveryEvent) : List FrameData := log.filterMap frame?

/-- Two events that follow each other. -/
def Follows : DeliveryEvent → DeliveryEvent → Prop
  | delivered f, delivered g => g.frameId.toNat = f.frameId.toNat + 1
  | _, _ => True

/-- The record up to a state with the read pointer at `next`. -/
structure InOrder (log : List DeliveryEvent) (next : UInt32) : Prop where
  complete : ∀ f ∈ deliveries log, f.isComplete = true
  sorted : (deliveries log).Pairwise fun f g => f.frameId < g.frameId
  behind : ∀ f ∈ deliveries log, f.frameId < next
  chain : log.IsChain Follows
  last : ∀ f, log.getLast? = some (.delivered f) → next.toNat = f.frameId.toNat + 1

variable {log : List DeliveryEvent} {next next' : UInt32}

theorem inOrder_nil (next : UInt32) : InOrder [] next where
  complete f hf := by cases hf
  sorted := .nil
  behind f hf := by cases hf
  chain := .nil
  last f hf := by cases hf

theorem deliveries_advanced (log : List DeliveryEvent) :
    deliveries (log ++ [.advanced]) = deliveries log := by
  simp [deliveries, frame?]

theorem deliveries_delivered (log : List DeliveryEvent) (f : FrameData) :
    deliveries (log ++ [.delivered f]) = deliveries log ++ [f] := by
  simp [deliveries, frame?]

theorem InOrder.advance (h : InOrder log next) (hlt : next < next') :
    InOrder (log ++ [.advanced]) next' := by
  have hlt := UInt32.lt_iff_toNat_lt.mp hlt
  refine ⟨?_, ?_, fun f hf => ?_, ?_, fun f hf => ?_⟩
  · rw [deliveries_advanced]
    exact h.complete
  · rw [deliveries_advanced]
    exact h.sorted
  · rw [deliveries_advanced] at hf
    have hf := UInt32.lt_iff_toNat_lt.mp (h.behind f hf)
    exact UInt32.lt_iff_toNat_lt.mpr (by omega)
  · refine h.chain.append (.singleton _) fun x _ y hy => ?_
    cases Option.mem_some.mp hy
    cases x <;> trivial
  · rw [List.getLast?_concat] at hf
    cases hf

/-- The frame at the read pointer is the next delivery. -/
theorem InOrder.deliver {f : FrameData} (h : InOrder log f.frameId)
    (hcomplete : f.isComplete = true) (hnext : next.toNat = f.frameId.toNat + 1) :
    InOrder (log ++ [.delivered f]) next := by
  refine ⟨fun g hg => ?_, ?_, fun g hg => ?_, ?_, fun g hg => ?_⟩
  · rw [deliveries_delivered, List.mem_append, List.mem_singleton] at hg
    rcases hg with hg | rfl
    · exact h.complete g hg
    · exact hcomplete
  · rw [deliveries_delivered, List.pairwise_append]
    refine ⟨h.sorted, List.pairwise_singleton _ f, fun g hg g' hg' => ?_⟩
    cases List.mem_singleton.mp hg'
    exact h.behind g hg
  · rw [deliveries_delivered, List.mem_append, List.mem_singleton] at hg
    refine UInt32.lt_iff_toNat_lt.mpr ?_
    rcases hg with hg | rfl
    · have hg := UInt32.lt_iff_toNat_lt.mp (h.behind g hg)
      omega
    · omega
  · refine h.chain.append (.singleton _) fun x hx y hy => ?_
    cases Option.mem_some.mp hy
    cases x with
    | delivered g => exact h.last g hx
    | advanced => trivial
  · rw [List.getLast?_concat] at hg
    cases hg
    exact hnext

/-- The pointer may be placed anywhere while nothing has been delivered. -/
theorem InOrder.place (h : InOrder log next) (hnone : deliveries log = []) (next' : UInt32) :
    InOrder log next' := by
  refine ⟨h.complete, h.sorted, fun f hf => ?_, h.chain, fun f hf => ?_⟩
  · rw [hnone] at hf
    cases hf
  · have hmem : f ∈ deliveries log :=
      List.mem_filterMap.mpr ⟨.delivered f, List.mem_of_getLast? hf, rfl⟩
    rw [hnone] at hmem
    cases hmem

end DeliveryEvent

/-! ## Runs -/

/-- The frame ids of the call are below the limit. -/
def FrameCall.IdsBelow : FrameCall → Prop
  | .processPacket header _ _ => header.frameId < frameIdLimit
  | .processFEC header _ => header.frameId < frameIdLimit
  | .forceAdvanceTo frameId => frameId < frameIdLimit
  | _ => True

instance (call : FrameCall) : Decidable call.IdsBelow := by
  unfold FrameCall.IdsBelow
  split <;> infer_instance

namespace FrameFlow

open DeliveryEvent

/-- The receiver and the record of its deliveries. -/
structure Ordered (x : FrameFlow × List DeliveryEvent) : Prop where
  ahead : x.1.receiver.Ahead
  order : InOrder x.2 x.1.receiver.nextFrameIdToRead
  quiet : x.1.receiver.firstFrameReceived = false → deliveries x.2 = []

variable {s s' : FrameFlow} {log : List DeliveryEvent}

/-- A call that neither reads nor moves the pointer. -/
theorem Ordered.frame_rule (h : Ordered (s, log)) (hahead : s'.receiver.Ahead)
    (hnext : s'.receiver.nextFrameIdToRead = s.receiver.nextFrameIdToRead)
    (hfirst : s'.receiver.firstFrameReceived = s.receiver.firstFrameReceived) :
    Ordered (s', log) := by
  refine ⟨hahead, ?_, ?_⟩
  · show InOrder log s'.receiver.nextFrameIdToRead
    rw [hnext]
    exact h.order
  · show s'.receiver.firstFrameReceived = false → _
    rw [hfirst]
    exact h.quiet

theorem framesOnly_returnAll (r : Receiver) (frames : List FrameData) :
    Receiver.FramesOnly r (r.returnAll frames) := by
  induction frames generalizing r with
  | nil => exact .refl r
  | cons f frames ih => exact (Receiver.framesOnly_returnToPool r f).trans (ih _)

theorem Ordered.returnAll (h : Ordered (s, log)) (frames : List FrameData)
    (hs : s'.receiver = s.receiver.returnAll frames) : Ordered (s', log) := by
  have hsame := framesOnly_returnAll s.receiver frames
  rw [← hs] at hsame
  refine h.frame_rule ?_ hsame.nextFrameIdToRead hsame.firstFrameReceived
  rw [hs]
  exact h.ahead.returnAll frames

theorem Ordered.processPacket (h : Ordered (s, log)) {header : VideoHeader}
    (hid : header.frameId < frameIdLimit) (payload : Mem) (nowUs : UInt64) :
    Ordered (s.step (.processPacket header payload nowUs), log) := by
  have hahead := h.ahead.processPacket hid payload nowUs
  rcases s.receiver.processPacket_cases header payload nowUs with
    ⟨-, heq⟩ | ⟨r', hgate, hcases⟩
  · refine h.frame_rule hahead ?_ ?_ <;> simp only [step, heq]
  -- past the gate the pointer is that of `r'`
  have hsame : (s.receiver.processPacket header payload nowUs).nextFrameIdToRead =
      r'.nextFrameIdToRead ∧
      (s.receiver.processPacket header payload nowUs).firstFrameReceived =
      r'.firstFrameReceived := by
    rcases hcases with ⟨-, heq⟩ | ⟨-, ht⟩
    · rw [heq]
      exact ⟨rfl, rfl⟩
    · have hens := Receiver.framesOnly_ensureFrame r' header nowUs
      exact ⟨ht.nextFrameIdToRead.trans hens.nextFrameIdToRead,
        ht.firstFrameReceived.trans hens.firstFrameReceived⟩
  obtain ⟨hstarted, -, -, -, rfl | ⟨hidle, -, -⟩⟩ := Receiver.gate_some hgate
  · exact h.frame_rule hahead hsame.1 hsame.2
  · refine ⟨hahead, h.order.place (h.quiet hidle) _, fun hfirst => ?_⟩
    exact h.quiet hidle

theorem Ordered.getNextFrame (h : Ordered (s, log)) :
    Ordered (s.step .getNextFrame, note s .getNextFrame log) := by
  have hahead := h.ahead.getNextFrame
  rcases s.receiver.getNextFrame_cases with heq | ⟨f, hf, hcomplete, heq⟩
  · simp only [step, note, heq]
    exact h
  obtain ⟨hget, hid⟩ := Receiver.frameAt_eq_some.mp hf
  have hlimit := UInt32.lt_iff_toNat_lt.mp (h.ahead.frames _ f hget).2
  have hnext : (s.receiver.nextFrameIdToRead + 1).toNat = f.frameId.toNat + 1 := by
    rw [UInt32.toNat_add, hid]
    show (s.receiver.nextFrameIdToRead.toNat + 1) % 2 ^ 32 = _
    have hconst : frameIdLimit.toNat = 4294967232 := rfl
    rw [hid] at hlimit
    omega
  rw [heq] at hahead
  simp only [step, note, heq]
  have horder := h.order
  change InOrder log s.receiver.nextFrameIdToRead at horder
  rw [← hid] at horder
  refine ⟨hahead, horder.deliver hcomplete hnext, fun hfirst => ?_⟩
  rw [h.ahead.idle hfirst] at hget
  cases hget

theorem Ordered.forceAdvanceTo (h : Ordered (s, log)) {frameId : UInt32}
    (hid : frameId < frameIdLimit) :
    Ordered (s.step (.forceAdvanceTo frameId), note s (.forceAdvanceTo frameId) log) := by
  have hahead := h.ahead.forceAdvanceTo hid
  rcases s.receiver.forceAdvanceTo_cases frameId with ⟨hle, heq⟩ | ⟨hlt, r', hd, heq⟩
  · have hnot : ¬ s.receiver.nextFrameIdToRead < frameId := by
      rw [UInt32.lt_iff_toNat_lt]
      have := UInt32.le_iff_toNat_le.mp hle
      omega
    simp only [step, note, heq, if_neg hnot]
    exact h
  · rw [heq] at hahead
    simp only [step, note, heq, if_pos hlt]
    refine ⟨hahead, h.order.advance hlt, fun hfirst => ?_⟩
    rw [deliveries_advanced]
    exact h.quiet (hd.same.firstFrameReceived.symm.trans hfirst)

theorem ordered_step (x : FrameFlow × List DeliveryEvent) (call : FrameCall) (h : Ordered x)
    (hids : call.IdsBelow) : Ordered (augment step note x call) := by
  obtain ⟨s, log⟩ := x
  cases call with
  | processPacket header payload nowUs => exact h.processPacket hids payload nowUs
  | processFEC header payload =>
    have ht := s.receiver.touches_processFEC header payload
    exact h.frame_rule (h.ahead.touches ht) ht.nextFrameIdToRead ht.firstFrameReceived
  | getNextFrame => exact h.getNextFrame
  | findLatestAvailableKeyframe => exact h
  | forceAdvanceTo frameId => exact h.forceAdvanceTo hids
  | validateSequence seq => exact h.frame_rule (h.ahead.congr rfl rfl rfl) rfl rfl
  | drop i =>
    show Ordered (step s (.drop i), log)
    simp only [step]
    cases s.held[i]? with
    | none => exact h
    | some f => exact h.returnAll [f] rfl
  | pushFrame i now =>
    show Ordered (step s (.pushFrame i now), log)
    simp only [step]
    cases s.held[i]? with
    | none => exact h
    | some f => exact h.returnAll _ rfl
  | popFrame currentSyncTimeUs now => exact h.frame_rule h.ahead rfl rfl
  | reset nextExpectedId => exact h.returnAll _ rfl

/-- **Receiver delivery order.** In every run with frame ids below the limit, the frames of the ring
are in their slots and not behind the read pointer, and the deliveries are complete frames with
ids that increase, by exactly one where `ForceAdvanceTo` has not moved the pointer in between. -/
theorem delivery_order (poolSize : Nat) (maxFrames : UInt64) (calls : List FrameCall)
    (hids : ∀ call ∈ calls, call.IdsBelow) :
    let x := run (augment step note) (init poolSize maxFrames, []) calls
    (∀ k, k < 64 → ∀ f, x.1.receiver.frameRing.buffer k = some f →
      f.frameId.toNat % 64 = k ∧ x.1.receiver.nextFrameIdToRead ≤ f.frameId) ∧
    (∀ f ∈ deliveries x.2, f.isComplete = true) ∧
    (deliveries x.2).Pairwise (fun f g => f.frameId < g.frameId) ∧
    ∀ before f g after, x.2 = before ++ .delivered f :: .delivered g :: after →
      g.frameId.toNat = f.frameId.toNat + 1 := by
  intro x
  have h0 : Ordered (init poolSize maxFrames, []) :=
    ⟨Receiver.ahead_init poolSize, inOrder_nil _, fun _ => rfl⟩
  have h : Ordered x := run_invariant (fun x call (hx : Ordered x) hc => ordered_step x call hx hc)
    h0 (along_of_forall hids)
  refine ⟨fun k hk f hf => ⟨h.ahead.slots k hk f hf, ?_⟩, h.order.complete, h.order.sorted,
    fun before f g after heq => ?_⟩
  · have hat := h.ahead.slots.frameAt hk hf
    exact (h.ahead.frames _ f (Receiver.frameAt_eq_some.mp hat).1).1
  · have hchain := h.order.chain
    rw [heq, List.isChain_append, List.isChain_cons_cons] at hchain
    exact hchain.2.1.1

/-- A keyframe of one fragment with one byte. -/
def oneFragment (frameId : UInt32) : FrameCall :=
  .processPacket ⟨1, frameId, 0, 1, 0, 0, 0, 0, 1, 1⟩ (fun _ => 0) 0

/-- Frame 7 arrives before frame 6, frame 5 once more after it was read, and frame 9 after a forced
advance. -/
def advancedCalls : List FrameCall :=
  [oneFragment 5, oneFragment 7, .getNextFrame, .getNextFrame, oneFragment 6, .getNextFrame,
    .getNextFrame, oneFragment 5, .forceAdvanceTo 9, oneFragment 9, .getNextFrame]

theorem delivery_order_advanced :
    (deliveries (run (augment step note) (init 30 10, []) advancedCalls).2).Pairwise
      (fun f g => f.frameId < g.frameId) ∧
    (deliveries (run (augment step note) (init 30 10, []) advancedCalls).2).map
      (·.frameId) = [5, 6, 7, 9] :=
  ⟨(delivery_order 30 10 advancedCalls (by decide)).2.2.1, by decide⟩

end FrameFlow

end RemotePlay.Client
