import RemotePlay.Client.ClientLoop
import RemotePlay.Client.DeliveryOrder
import Mathlib.Data.List.Range
import Mathlib.Data.List.Perm.Basic

/-!
# The receiver and the jitter buffer in step

The client loop advances two rings: the read pointer of the receiver, and the
pop pointer of the jitter buffer. `Spans` says that the jitter buffer holds the
frames of an interval of ids from its pop pointer on and nothing else. A push
of the next id extends the interval, a pop or an overflow shortens it from
below, `Reset` empties it. `InStep` ties its upper end to the read pointer at
every position of the loop.
-/

namespace RemotePlay.Client

open Lib Protocol

namespace JitterBuffer

/-- The rings hold the frames with ids from the pop pointer to below `hi`, and nothing else. -/
structure Spans (j : JitterBuffer) (hi : Nat) : Prop where
  low : j.nextPopFrameId.toNat ≤ hi
  width : hi ≤ j.nextPopFrameId.toNat + 32
  count : j.count.toNat = hi - j.nextPopFrameId.toNat
  held : ∀ id : UInt32, j.nextPopFrameId.toNat ≤ id.toNat → id.toNat < hi →
    (∃ f, j.ring.get id = some f ∧ f.frameId = id) ∧ (j.info.get id).occupied = true ∧
      (j.info.get id).frameId = id
  vacant : ∀ i : UInt32, (∀ id : UInt32, j.nextPopFrameId.toNat ≤ id.toNat → id.toNat < hi →
    id.toNat % 32 ≠ i.toNat % 32) → j.ring.get i = none ∧ (j.info.get i).occupied = false

/-- Nothing is in the rings. -/
structure Vacant (j : JitterBuffer) : Prop where
  count : j.count = 0
  slots : ∀ i : UInt32, j.ring.get i = none ∧ (j.info.get i).occupied = false

variable {j : JitterBuffer} {hi : Nat}

theorem vacant_init (maxFrames : UInt64) : Vacant (init maxFrames) := ⟨rfl, fun _ => ⟨rfl, rfl⟩⟩

theorem Vacant.spans (h : Vacant j) : Spans j j.nextPopFrameId.toNat where
  low := Nat.le_refl _
  width := Nat.le_add_right _ _
  count := by rw [h.count, Nat.sub_self]; rfl
  held id h1 h2 := by omega
  vacant i _ := h.slots i

/-! ## Taking the first frame -/

theorem takeFrame_pointer (hlt : j.nextPopFrameId.toNat < hi) (hwrap : hi < 2 ^ 32) :
    j.takeFrame.nextPopFrameId.toNat = j.nextPopFrameId.toNat + 1 := by
  show (j.nextPopFrameId + 1).toNat = _
  rw [UInt32.toNat_add]
  show (j.nextPopFrameId.toNat + 1) % 2 ^ 32 = _
  omega

/-- Stepping over the frame at the pop pointer. -/
theorem Spans.takeFrame (h : Spans j hi) (hlt : j.nextPopFrameId.toNat < hi)
    (hwrap : hi < 2 ^ 32) : Spans j.takeFrame hi := by
  have hlow : (j.nextPopFrameId + 1).toNat = j.nextPopFrameId.toNat + 1 :=
    takeFrame_pointer hlt hwrap
  have hwidth := h.width
  have hcount := h.count
  refine ⟨?_, ?_, ?_, fun id h1 h2 => ?_, fun i hi' => ?_⟩
  · show (j.nextPopFrameId + 1).toNat ≤ hi
    omega
  · show hi ≤ (j.nextPopFrameId + 1).toNat + 32
    omega
  · show (j.count - 1).toNat = hi - (j.nextPopFrameId + 1).toNat
    have hone : (1 : UInt64) ≤ j.count :=
      UInt64.le_iff_toNat_le.mpr (by show 1 ≤ j.count.toNat; omega)
    rw [UInt64.toNat_sub_of_le _ _ hone, hlow, hcount]
    show hi - j.nextPopFrameId.toNat - 1 = _
    omega
  · change (j.nextPopFrameId + 1).toNat ≤ id.toNat at h1
    have hne : id.toNat % 32 ≠ j.nextPopFrameId.toNat % 32 :=
      (Ring.slot_ne (n := 32) (i := j.nextPopFrameId.toNat) (by omega) (by omega)).symm
    have hold := h.held id (by omega) h2
    simp only [JitterBuffer.takeFrame]
    rw [FixedRingBuffer.get_insert_ne _ _ hne, FixedRingBuffer.get_insert_ne _ _ hne]
    exact hold
  · simp only [JitterBuffer.takeFrame]
    by_cases hslot : i.toNat % 32 = j.nextPopFrameId.toNat % 32
    · rw [FixedRingBuffer.get_insert, if_pos hslot, FixedRingBuffer.get_insert, if_pos hslot]
      exact ⟨rfl, rfl⟩
    · rw [FixedRingBuffer.get_insert_ne _ _ hslot, FixedRingBuffer.get_insert_ne _ _ hslot]
      refine h.vacant i fun id h1 h2 heq => ?_
      rcases Nat.eq_or_lt_of_le h1 with hsame | hgt
      · rw [← hsame] at heq
        exact hslot heq.symm
      · refine hi' id ?_ h2 heq
        show (j.nextPopFrameId + 1).toNat ≤ id.toNat
        omega

/-- Dropping the frame at the pop pointer is taking it. -/
theorem dropFrame_pointer (j : JitterBuffer) : j.dropFrame j.nextPopFrameId = j.takeFrame := by
  simp only [dropFrame, takeFrame, if_true]

/-! ## The overflow loop -/

/-- The scan keeps an id that no occupied slot undercuts. -/
theorem oldest_keeps {oldestId : UInt32}
    (hmin : ∀ i, (j.info.get i).occupied = true → ¬ (j.info.get i).frameId < oldestId) (n i : Nat) :
    j.oldest oldestId true n i = some oldestId := by
  induction n generalizing i with
  | zero => rfl
  | succ n ih =>
    simp only [oldest]
    split
    · next hc =>
      rw [Bool.and_eq_true, decide_eq_true_eq] at hc
      exact absurd hc.2 (hmin _ hc.1)
    · exact ih (i + 1)

/-- What an occupied slot names is in the interval. -/
theorem Spans.occupied_ge (h : Spans j hi) {i : UInt32} (hocc : (j.info.get i).occupied = true) :
    j.nextPopFrameId.toNat ≤ (j.info.get i).frameId.toNat := by
  by_cases hin : ∃ id : UInt32, j.nextPopFrameId.toNat ≤ id.toNat ∧ id.toNat < hi ∧
      id.toNat % 32 = i.toNat % 32
  · obtain ⟨id, h1, h2, heq⟩ := hin
    rw [← FixedRingBuffer.get_congr _ heq, (h.held id h1 h2).2.2]
    exact h1
  · have hnone := (h.vacant i fun id h1 h2 heq => hin ⟨id, h1, h2, heq⟩).2
    rw [hnone] at hocc
    cases hocc

/-- The oldest frame is the one at the pop pointer. -/
theorem Spans.oldest_eq (h : Spans j hi) (hlt : j.nextPopFrameId.toNat < hi)
    (hlimit : hi ≤ frameIdLimit.toNat) :
    j.oldest 0xffffffff false 32 0 = some j.nextPopFrameId := by
  obtain ⟨-, hocc, hid⟩ := h.held j.nextPopFrameId (Nat.le_refl _) hlt
  have hfirst : j.nextPopFrameId + UInt32.ofNat 0 = j.nextPopFrameId := UInt32.add_zero _
  have hsmall : j.nextPopFrameId < 0xffffffff := by
    rw [UInt32.lt_iff_toNat_lt]
    show j.nextPopFrameId.toNat < 4294967295
    have hconst : frameIdLimit.toNat = 4294967232 := rfl
    omega
  have hscan : ∀ n, j.oldest 0xffffffff false (n + 1) 0 = j.oldest j.nextPopFrameId true n 1 := by
    intro n
    simp only [oldest, hfirst, hocc, hid, hsmall, decide_true, Bool.and_self, if_true]
  rw [show (32 : Nat) = 31 + 1 from rfl, hscan]
  apply oldest_keeps
  intro i hocc'
  rw [UInt32.lt_iff_toNat_lt]
  have := h.occupied_ge hocc'
  omega

/-- The overflow loop shortens the interval by one frame a round. -/
theorem Spans.dropOldest (h : Spans j hi) {rounds : Nat}
    (hrounds : j.nextPopFrameId.toNat + rounds ≤ hi) (hlimit : hi ≤ frameIdLimit.toNat) :
    Spans (j.dropOldest rounds).1 hi ∧
      (j.dropOldest rounds).1.nextPopFrameId.toNat = j.nextPopFrameId.toNat + rounds := by
  induction rounds generalizing j with
  | zero => exact ⟨h, rfl⟩
  | succ rounds ih =>
    have hconst : frameIdLimit.toNat = 4294967232 := rfl
    have htake := h.takeFrame (by omega) (by omega)
    have hnext := takeFrame_pointer (j := j) (show j.nextPopFrameId.toNat < hi by omega) (by omega)
    obtain ⟨hrest, hptr⟩ := ih htake (by omega)
    simp only [JitterBuffer.dropOldest, h.oldest_eq (by omega) hlimit, dropFrame_pointer]
    exact ⟨hrest, by omega⟩

/-! ## Pushing the next frame -/

/-- The slot of the next id is free. -/
theorem Spans.next_free (h : Spans j hi) (hroom : hi < j.nextPopFrameId.toNat + 32) {i : UInt32}
    (hi' : i.toNat = hi) : j.ring.get i = none := by
  refine (h.vacant i fun id h1 h2 => ?_).1
  rw [hi']
  exact Ring.slot_ne h2 (by omega)

theorem Spans.place (h : Spans j hi) {frame : FrameData} (hid : frame.frameId.toNat = hi)
    (hroom : hi < j.nextPopFrameId.toNat + 32) (now : Int) :
    Spans (j.place frame now) (hi + 1) := by
  have hlow := h.low
  have hcount := h.count
  refine ⟨?_, ?_, ?_, fun id h1 h2 => ?_, fun i hi' => ?_⟩
  · exact Nat.le_succ_of_le hlow
  · exact hroom
  · show (j.count + 1).toNat = hi + 1 - j.nextPopFrameId.toNat
    rw [toNat_add_one (by omega)]
    omega
  · simp only [JitterBuffer.place]
    rcases Nat.lt_succ_iff_lt_or_eq.mp h2 with hlt | heq
    · have hne : id.toNat % 32 ≠ frame.frameId.toNat % 32 := by
        rw [hid]
        exact Ring.slot_ne hlt (by change j.nextPopFrameId.toNat ≤ id.toNat at h1; omega)
      rw [FixedRingBuffer.get_insert_ne _ _ hne, FixedRingBuffer.get_insert_ne _ _ hne]
      exact h.held id h1 hlt
    · have hsame : id = frame.frameId := UInt32.toNat_inj.mp (heq.trans hid.symm)
      rw [hsame, FixedRingBuffer.get_insert_self, FixedRingBuffer.get_insert_self]
      exact ⟨⟨frame, rfl, rfl⟩, rfl, rfl⟩
  · have hne : i.toNat % 32 ≠ frame.frameId.toNat % 32 := fun heq =>
      hi' frame.frameId (by show j.nextPopFrameId.toNat ≤ _; omega) (by omega) heq.symm
    simp only [JitterBuffer.place]
    rw [FixedRingBuffer.get_insert_ne _ _ hne, FixedRingBuffer.get_insert_ne _ _ hne]
    exact h.vacant i fun id h1 h2 => hi' id h1 (by omega)

theorem Spans.estimate (h : Spans j hi) (now : Int) : Spans (j.estimate now) hi :=
  ⟨h.low, h.width, h.count, h.held, h.vacant⟩

/-- **PushFrame** of the next id extends the interval, and drops the first frame of it when there
were 28. -/
theorem Spans.pushFrame (h : Spans j hi) (hinit : j.initialized = true) {frame : FrameData}
    (hid : frame.frameId.toNat = hi) (hfull : hi ≤ j.nextPopFrameId.toNat + 28)
    (hlimit : hi < frameIdLimit.toNat) (now : Int) :
    Spans (j.pushFrame frame now).1 (hi + 1) ∧
      hi + 1 ≤ (j.pushFrame frame now).1.nextPopFrameId.toNat + 28 := by
  have hlow := h.low
  have hfirst : j.firstPush frame = j := if_pos hinit
  have hge : ¬ frame.frameId < j.nextPopFrameId := by
    rw [UInt32.lt_iff_toNat_lt]
    omega
  have hfree : (j.estimate now).ring.get frame.frameId = none :=
    h.next_free (by omega) hid
  have hplaced := (h.estimate now).place hid (by show hi < j.nextPopFrameId.toNat + 32; omega) now
  have hcount := hplaced.count
  have hcap : capacity.toNat = 28 := rfl
  simp only [JitterBuffer.pushFrame, hfirst, if_neg hge, hfree, Option.any_none, Bool.false_eq_true,
    if_false]
  rw [hcount, hcap]
  have hrounds : ((j.estimate now).place frame now).nextPopFrameId.toNat +
      (hi + 1 - ((j.estimate now).place frame now).nextPopFrameId.toNat - 28) ≤ hi + 1 := by
    show j.nextPopFrameId.toNat + (hi + 1 - j.nextPopFrameId.toNat - 28) ≤ hi + 1
    omega
  obtain ⟨hspans, hptr⟩ := hplaced.dropOldest hrounds hlimit
  refine ⟨hspans, ?_⟩
  rw [hptr]
  show hi + 1 ≤ j.nextPopFrameId.toNat + (hi + 1 - j.nextPopFrameId.toNat - 28) + 28
  omega

theorem dropOldest_initialized (j : JitterBuffer) (rounds : Nat) :
    (j.dropOldest rounds).1.initialized = j.initialized := by
  induction rounds generalizing j with
  | zero => rfl
  | succ rounds ih =>
    simp only [JitterBuffer.dropOldest]
    split
    · rfl
    · exact ih _

theorem pushFrame_initialized (j : JitterBuffer) (frame : FrameData) (now : Int) :
    (j.pushFrame frame now).1.initialized = true := by
  have hfirst : (j.firstPush frame).initialized = true := by
    unfold firstPush
    split
    · next hinit => exact hinit
    · rfl
  simp only [JitterBuffer.pushFrame]
  split
  · exact hfirst
  · split
    · exact hfirst
    · rw [dropOldest_initialized]
      exact hfirst

/-- The first push starts an interval of one frame. -/
theorem Vacant.pushFrame (h : Vacant j) (hinit : j.initialized = false) {frame : FrameData}
    (hlimit : frame.frameId < frameIdLimit) (now : Int) :
    Spans (j.pushFrame frame now).1 (frame.frameId.toNat + 1) ∧
      frame.frameId.toNat + 1 ≤ (j.pushFrame frame now).1.nextPopFrameId.toNat + 28 := by
  have hfirst : j.firstPush frame = { j with nextPopFrameId := frame.frameId, initialized := true } :=
    if_neg (by simp [hinit])
  have hvacant : Vacant (j.firstPush frame) := by
    rw [hfirst]
    exact ⟨h.count, h.slots⟩
  have hspans := hvacant.spans
  have hptr : (j.firstPush frame).nextPopFrameId = frame.frameId := by rw [hfirst]
  have hset : (j.firstPush frame).initialized = true := by rw [hfirst]
  have hpush : j.pushFrame frame now = (j.firstPush frame).pushFrame frame now := by
    have hagain : (j.firstPush frame).firstPush frame = j.firstPush frame := if_pos hset
    simp only [JitterBuffer.pushFrame, hagain]
  rw [hpush]
  rw [hptr] at hspans
  exact hspans.pushFrame hset rfl (by rw [hptr]; omega) (UInt32.lt_iff_toNat_lt.mp hlimit) now

/-! ## Reset -/

/-- The slot that round `i` of `Reset` clears. -/
theorem clear_slot (p : UInt32) (i : Nat) :
    (p + UInt32.ofNat i).toNat % 32 = (p.toNat + i) % 32 := by
  rw [UInt32.toNat_add, UInt32.toNat_ofNat']
  omega

/-- What the loop of `Reset` has cleared. -/
theorem clear_vacant (n i : Nat) (x : UInt32)
    (h : (j.ring.get x = none ∧ (j.info.get x).occupied = false) ∨
      ∃ k, i ≤ k ∧ k < i + n ∧ x.toNat % 32 = (j.nextPopFrameId.toNat + k) % 32) :
    (j.clear n i).1.ring.get x = none ∧ ((j.clear n i).1.info.get x).occupied = false := by
  induction n generalizing j i with
  | zero =>
    rcases h with h | ⟨k, h1, h2, -⟩
    · exact h
    · omega
  | succ n ih =>
    simp only [clear]
    apply ih
    by_cases hslot : x.toNat % 32 = (j.nextPopFrameId + UInt32.ofNat i).toNat % 32
    · left
      rw [FixedRingBuffer.get_insert, if_pos hslot, FixedRingBuffer.get_insert, if_pos hslot]
      exact ⟨rfl, rfl⟩
    · rw [FixedRingBuffer.get_insert_ne _ _ hslot, FixedRingBuffer.get_insert_ne _ _ hslot]
      rcases h with h | ⟨k, h1, h2, hk⟩
      · exact .inl h
      · refine .inr ⟨k, ?_, by omega, hk⟩
        rw [clear_slot] at hslot
        rcases Nat.eq_or_lt_of_le h1 with rfl | hlt
        · exact absurd hk hslot
        · exact hlt

/-- **Reset** empties the buffer, whatever was in it. -/
theorem vacant_reset (j : JitterBuffer) (nextExpectedId : UInt32) :
    Vacant (j.reset nextExpectedId).1 := by
  refine ⟨rfl, fun x => ?_⟩
  refine clear_vacant 32 0 x (.inr ?_)
  refine ⟨(x.toNat + 32 - j.nextPopFrameId.toNat % 32) % 32, Nat.zero_le _, ?_, ?_⟩ <;> omega

/-! ## Popping -/

/-- **PopFrame** finds a frame at the pop pointer unless the buffer is empty, and then only the
time decides. -/
theorem Spans.popFrame (h : Spans j hi) (currentSyncTimeUs : UInt64) (now : Int) :
    (hi = j.nextPopFrameId.toNat ∧ j.popFrame currentSyncTimeUs now = (none, j)) ∨
    (j.nextPopFrameId.toNat < hi ∧ ∃ f, j.ring.get j.nextPopFrameId = some f ∧
      f.frameId = j.nextPopFrameId ∧ j.popFrame currentSyncTimeUs now =
        if j.tooEarly (j.info.get j.nextPopFrameId) f currentSyncTimeUs now then (none, j)
        else (some f, j.takeFrame)) := by
  rcases Nat.eq_or_lt_of_le h.low with heq | hlt
  · refine .inl ⟨heq.symm, ?_⟩
    have hnone := (h.vacant j.nextPopFrameId fun id h1 h2 => by omega).2
    simp only [JitterBuffer.popFrame, hnone, Bool.false_eq_true, false_and, if_false]
  · obtain ⟨⟨f, hf, hfid⟩, hocc, hid⟩ := h.held j.nextPopFrameId (Nat.le_refl _) hlt
    refine .inr ⟨hlt, f, hf, hfid, ?_⟩
    simp only [JitterBuffer.popFrame, hocc, hid, hf, and_self, if_true]

/-! ## The frames held -/

/-- The slot of `id` holds its frame, and a frame in a slot is one of the interval. -/
theorem Spans.buffer_some (h : Spans j hi) {k : Nat} (hk : k < 32) {f : FrameData}
    (hf : j.ring.buffer k = some f) : j.nextPopFrameId.toNat ≤ f.frameId.toNat ∧
      f.frameId.toNat < hi ∧ f.frameId.toNat % 32 = k := by
  have hslot : (UInt32.ofNat k).toNat % 32 = k := by
    rw [UInt32.toNat_ofNat']
    omega
  have hget : j.ring.get (UInt32.ofNat k) = some f := by
    show j.ring.buffer ((UInt32.ofNat k).toNat % 32) = some f
    rw [hslot]
    exact hf
  by_cases hin : ∃ id : UInt32, j.nextPopFrameId.toNat ≤ id.toNat ∧ id.toNat < hi ∧
      id.toNat % 32 = (UInt32.ofNat k).toNat % 32
  · obtain ⟨id, h1, h2, heq⟩ := hin
    obtain ⟨f', hf', hid⟩ := (h.held id h1 h2).1
    rw [FixedRingBuffer.get_congr _ heq, hget] at hf'
    cases hf'
    rw [hid]
    exact ⟨h1, h2, heq.trans hslot⟩
  · have hnone := (h.vacant (UInt32.ofNat k) fun id h1 h2 heq => hin ⟨id, h1, h2, heq⟩).1
    rw [hget] at hnone
    cases hnone

/-- The ids of the frames in the ring are those of the interval, each once. -/
theorem Spans.perm (h : Spans j hi) (hwrap : hi ≤ 2 ^ 32) :
    (j.ring.occupants.map (·.frameId.toNat)).Perm
      (List.range' j.nextPopFrameId.toNat (hi - j.nextPopFrameId.toNat)) := by
  have hlow := h.low
  have hmap : j.ring.occupants.map (·.frameId.toNat) =
      (List.range 32).filterMap fun k => (j.ring.buffer k).map (·.frameId.toNat) :=
    List.map_filterMap
  have hnodup : (j.ring.occupants.map (·.frameId.toNat)).Nodup := by
    rw [hmap, List.Nodup, List.pairwise_filterMap]
    refine List.nodup_range.imp_of_mem fun {k k'} hk hk' hne a ha b hb heq => hne ?_
    obtain ⟨f, hf, rfl⟩ := Option.map_eq_some_iff.mp ha
    obtain ⟨g, hg, rfl⟩ := Option.map_eq_some_iff.mp hb
    rw [← (h.buffer_some (List.mem_range.mp hk) hf).2.2,
      ← (h.buffer_some (List.mem_range.mp hk') hg).2.2, heq]
  rw [List.perm_ext_iff_of_nodup hnodup (List.nodup_range' ..)]
  intro n
  rw [hmap, List.mem_filterMap, List.mem_range'_1]
  constructor
  · rintro ⟨k, hk, hn⟩
    obtain ⟨f, hf, rfl⟩ := Option.map_eq_some_iff.mp hn
    obtain ⟨h1, h2, -⟩ := h.buffer_some (List.mem_range.mp hk) hf
    omega
  · rintro ⟨h1, h2⟩
    have hid : (UInt32.ofNat n).toNat = n := by
      rw [UInt32.toNat_ofNat']
      omega
    obtain ⟨⟨f, hf, hfid⟩, -⟩ := h.held (UInt32.ofNat n) (by omega) (by omega)
    refine ⟨n % 32, List.mem_range.mpr (Nat.mod_lt _ (by omega)), ?_⟩
    have hslot : j.ring.buffer (n % 32) = some f := by
      have hget := hf
      unfold FixedRingBuffer.get at hget
      rwa [hid] at hget
    rw [hslot, Option.map_some, hfid, hid]

end JitterBuffer

/-! ## The loop -/

theorem Receiver.processPacket_pointer {r : Receiver} (hstarted : r.firstFrameReceived = true)
    (header : VideoHeader) (payload : Mem) (nowUs : UInt64) :
    (r.processPacket header payload nowUs).firstFrameReceived = true ∧
      (r.processPacket header payload nowUs).nextFrameIdToRead = r.nextFrameIdToRead := by
  rcases processPacket_cases r header payload nowUs with ⟨-, heq⟩ | ⟨r', hgate, hcases⟩
  · rw [heq]
    exact ⟨hstarted, rfl⟩
  have hr' : r' = r := by
    unfold gate at hgate
    rw [if_pos hstarted] at hgate
    exact (Option.some.inj hgate).symm
  subst hr'
  rcases hcases with ⟨-, heq⟩ | ⟨-, ht⟩
  · rw [heq]
    exact ⟨hstarted, rfl⟩
  · have hens := framesOnly_ensureFrame r' header nowUs
    exact ⟨ht.firstFrameReceived.trans (hens.firstFrameReceived.trans hstarted),
      ht.nextFrameIdToRead.trans hens.nextFrameIdToRead⟩

/-- A keyframe found is a frame of the ring. -/
theorem Receiver.scanKeyframes_some {r : Receiver} {n : Nat} {fid : UInt32}
    (h : r.scanKeyframes n = some fid) : ∃ f, r.frameAt fid = some f := by
  induction n with
  | zero => cases h
  | succ n ih =>
    simp only [scanKeyframes] at h
    split at h
    · next f hat =>
      split at h
      · rw [← Option.some.inj h]
        exact ⟨f, hat⟩
      · exact ih h
    · exact ih h

/-- The frame ids on the wire are below the limit. -/
def PlaybackEvent.IdsBelow : PlaybackEvent → Prop
  | .packet header _ _ => header.frameId < frameIdLimit
  | .loop _ _ => True

instance (e : PlaybackEvent) : Decidable e.IdsBelow := by
  unfold PlaybackEvent.IdsBelow
  split <;> infer_instance

namespace Playback

/-- What the loop knows of the read pointer at its position. -/
def AtPc (r : Receiver) : LoopPc → Prop
  | .checkKeyframe latest => latest > 0 → r.firstFrameReceived = true ∧ latest < frameIdLimit
  | .advance latest =>
    r.firstFrameReceived = true ∧ r.nextFrameIdToRead < latest ∧ latest < frameIdLimit
  | .resetJitter latest => r.firstFrameReceived = true ∧ r.nextFrameIdToRead = latest
  | .push frame => r.firstFrameReceived = true ∧ frame.frameId < frameIdLimit ∧
      r.nextFrameIdToRead.toNat = frame.frameId.toNat + 1
  | _ => True

/-- The jitter buffer reaches up to `hi`, and holds 28 frames at most. -/
def UpTo (j : JitterBuffer) (hi : UInt32) : Prop :=
  j.Spans hi.toNat ∧ hi.toNat ≤ j.nextPopFrameId.toNat + 28

/-- How far the jitter buffer reaches at a position. -/
def Filled (r : Receiver) (j : JitterBuffer) : LoopPc → Prop
  | .resetJitter _ => True
  | .push frame => UpTo j frame.frameId
  | _ => UpTo j r.nextFrameIdToRead

/-- The two rings while the client plays. -/
structure InStep (s : Playback) : Prop where
  ahead : s.receiver.Ahead
  atPc : AtPc s.receiver s.pc
  fresh : s.jitterBuffer.initialized = false → s.jitterBuffer.Vacant
  filled : s.jitterBuffer.initialized = true →
    s.receiver.firstFrameReceived = true ∧ Filled s.receiver s.jitterBuffer s.pc

variable {s : Playback}

theorem inStep_init (poolSize : Nat) : InStep (init poolSize) where
  ahead := Receiver.ahead_init poolSize
  atPc := trivial
  fresh _ := JitterBuffer.vacant_init 10
  filled h := nomatch h

theorem atPc_congr {r r' : Receiver} {pc : LoopPc}
    (hfirst : r'.firstFrameReceived = r.firstFrameReceived)
    (hnext : r'.nextFrameIdToRead = r.nextFrameIdToRead) (h : AtPc r pc) : AtPc r' pc := by
  cases pc <;> simp only [AtPc, hfirst, hnext] at h ⊢ <;> exact h

theorem filled_congr {r r' : Receiver} {j : JitterBuffer} {pc : LoopPc}
    (hnext : r'.nextFrameIdToRead = r.nextFrameIdToRead) (h : Filled r j pc) : Filled r' j pc := by
  cases pc <;> simp only [Filled, hnext] at h ⊢ <;> exact h

/-- A step that leaves the jitter buffer alone. -/
theorem InStep.receiver_step (h : InStep s) {r : Receiver} {pc : LoopPc}
    {dropped : List FrameData} (hahead : r.Ahead) (hat : AtPc r pc)
    (hfirst : s.receiver.firstFrameReceived = true → r.firstFrameReceived = true)
    (hfilled : s.receiver.firstFrameReceived = true → Filled s.receiver s.jitterBuffer s.pc →
      Filled r s.jitterBuffer pc) : InStep ⟨r, s.jitterBuffer, pc, dropped, s.handed⟩ where
  ahead := hahead
  atPc := hat
  fresh := h.fresh
  filled hi := by
    obtain ⟨h1, h2⟩ := h.filled hi
    exact ⟨hfirst h1, hfilled h1 h2⟩

theorem InStep.packet (h : InStep s) {header : VideoHeader} (hid : header.frameId < frameIdLimit)
    (payload : Mem) (nowUs : UInt64) : InStep (s.step (.packet header payload nowUs)) := by
  have hptr := fun hstarted =>
    Receiver.processPacket_pointer (r := s.receiver) hstarted header payload nowUs
  refine h.receiver_step (h.ahead.processPacket hid payload nowUs) ?_ (fun hs => (hptr hs).1)
    fun hs => filled_congr (hptr hs).2
  have hat := h.atPc
  cases hpc : s.pc with
  | checkKeyframe latest =>
    rw [hpc] at hat
    intro hpos
    obtain ⟨hs, hlt⟩ := hat hpos
    exact ⟨(hptr hs).1, hlt⟩
  | advance latest =>
    rw [hpc] at hat
    obtain ⟨h1, h2⟩ := hptr hat.1
    exact atPc_congr (h1.trans hat.1.symm) h2 hat
  | resetJitter latest =>
    rw [hpc] at hat
    obtain ⟨h1, h2⟩ := hptr hat.1
    exact atPc_congr (h1.trans hat.1.symm) h2 hat
  | push frame =>
    rw [hpc] at hat
    obtain ⟨h1, h2⟩ := hptr hat.1
    exact atPc_congr (h1.trans hat.1.symm) h2 hat
  | findKeyframe => trivial
  | drain => trivial
  | pop => trivial
  | giveBack frame => trivial

/-- A frame goes back to the pool. -/
theorem InStep.giveFrame (h : InStep s) (frame : FrameData) {pc : LoopPc}
    {dropped : List FrameData} (hat : AtPc s.receiver s.pc → AtPc s.receiver pc)
    (hfilled : Filled s.receiver s.jitterBuffer s.pc → Filled s.receiver s.jitterBuffer pc) :
    InStep ⟨s.receiver.returnToPool frame, s.jitterBuffer, pc, dropped, s.handed⟩ := by
  have hsame := s.receiver.framesOnly_returnToPool frame
  apply h.receiver_step (h.ahead.returnToPool frame)
  · exact atPc_congr hsame.firstFrameReceived hsame.nextFrameIdToRead (hat h.atPc)
  · exact hsame.firstFrameReceived.trans
  · exact fun _ hf => filled_congr hsame.nextFrameIdToRead (hfilled hf)

theorem InStep.findKeyframe (h : InStep s) (hpc : s.pc = .findKeyframe) :
    InStep { s with pc := .checkKeyframe s.receiver.findLatestAvailableKeyframe } := by
  apply h.receiver_step h.ahead
  · intro hpos
    cases hscan : s.receiver.scanKeyframes 64 with
    | none =>
      simp only [Receiver.findLatestAvailableKeyframe, hscan] at hpos
      exact absurd hpos (by decide)
    | some fid =>
      obtain ⟨f, hf⟩ := Receiver.scanKeyframes_some hscan
      obtain ⟨hget, hid⟩ := Receiver.frameAt_eq_some.mp hf
      have hlatest : s.receiver.findLatestAvailableKeyframe = fid := by
        simp only [Receiver.findLatestAvailableKeyframe, hscan, Option.getD_some]
      rw [hlatest, ← hid]
      refine ⟨?_, (h.ahead.frames fid f hget).2⟩
      cases hfirst : s.receiver.firstFrameReceived with
      | true => rfl
      | false =>
        rw [h.ahead.idle hfirst] at hget
        cases hget
  · exact id
  · rw [hpc]
    exact fun _ hf => hf

theorem InStep.advance (h : InStep s) {latest : UInt32} (hpc : s.pc = .advance latest) :
    InStep { s with receiver := s.receiver.forceAdvanceTo latest, pc := .resetJitter latest } := by
  have hat := h.atPc
  rw [hpc] at hat
  obtain ⟨hs, hlt, hlimit⟩ := hat
  have hahead := h.ahead.forceAdvanceTo hlimit
  rcases s.receiver.forceAdvanceTo_cases latest with ⟨hle, -⟩ | ⟨-, r', hd, heq⟩
  · rw [UInt32.le_iff_toNat_le] at hle
    rw [UInt32.lt_iff_toNat_lt] at hlt
    omega
  · have hfirst := hd.same.firstFrameReceived.trans hs
    rw [heq] at hahead ⊢
    exact h.receiver_step hahead ⟨hfirst, rfl⟩ (fun _ => hfirst) fun _ _ => trivial

theorem InStep.resetJitter (h : InStep s) {latest : UInt32} (hpc : s.pc = .resetJitter latest)
    (dropped : List FrameData) :
    InStep ⟨s.receiver, (s.jitterBuffer.reset latest).1, .drain, dropped, s.handed⟩ := by
  have hat := h.atPc
  rw [hpc] at hat
  obtain ⟨hptr, hinit⟩ := s.jitterBuffer.reset_pointer latest
  refine ⟨h.ahead, trivial, fun hi => ?_, fun _ => ⟨hat.1, ?_⟩⟩
  · rw [hinit] at hi
    cases hi
  · have hspans := (s.jitterBuffer.vacant_reset latest).spans
    show UpTo (s.jitterBuffer.reset latest).1 s.receiver.nextFrameIdToRead
    rw [hptr] at hspans
    rw [hat.2]
    refine ⟨hspans, ?_⟩
    rw [hptr]
    omega

/-- The frame read is the next of the interval. -/
theorem InStep.drain (h : InStep s) (hpc : s.pc = .drain) :
    InStep ⟨s.receiver.getNextFrame.2, s.jitterBuffer,
      match s.receiver.getNextFrame.1 with
        | some frame => .push frame
        | none => .pop, s.dropped, s.handed⟩ := by
  have hahead := h.ahead.getNextFrame
  rcases s.receiver.getNextFrame_cases with heq | ⟨f, hf, -, heq⟩
  · rw [heq] at hahead ⊢
    refine h.receiver_step hahead ?_ id ?_
    · trivial
    · rw [hpc]
      exact fun _ hf => hf
  · obtain ⟨hget, hid⟩ := Receiver.frameAt_eq_some.mp hf
    have hlimit := (h.ahead.frames _ f hget).2
    have hnext : (s.receiver.nextFrameIdToRead + 1).toNat = f.frameId.toNat + 1 := by
      rw [hid] at hlimit ⊢
      rw [UInt32.lt_iff_toNat_lt] at hlimit
      have hconst : frameIdLimit.toNat = 4294967232 := rfl
      rw [UInt32.toNat_add]
      show (s.receiver.nextFrameIdToRead.toNat + 1) % 2 ^ 32 = _
      omega
    have hstarted : s.receiver.firstFrameReceived = true := by
      cases hfirst : s.receiver.firstFrameReceived with
      | true => rfl
      | false =>
        rw [h.ahead.idle hfirst] at hget
        cases hget
    rw [heq] at hahead ⊢
    refine h.receiver_step hahead ?_ (fun _ => hstarted) ?_
    · exact ⟨hstarted, hlimit, hnext⟩
    · rw [hpc]
      intro _ hfill
      show UpTo s.jitterBuffer f.frameId
      rw [hid]
      exact hfill

theorem InStep.push (h : InStep s) {frame : FrameData} (hpc : s.pc = .push frame)
    (dropped : List FrameData) (now : Int) :
    InStep ⟨s.receiver, (s.jitterBuffer.pushFrame frame now).1, .drain, dropped, s.handed⟩ := by
  have hat := h.atPc
  rw [hpc] at hat
  obtain ⟨hstarted, hlimit, hnext⟩ := hat
  have hfilled : UpTo (s.jitterBuffer.pushFrame frame now).1 s.receiver.nextFrameIdToRead := by
    unfold UpTo
    rw [hnext]
    cases hinit : s.jitterBuffer.initialized with
    | true =>
      have hfill := (h.filled hinit).2
      rw [hpc] at hfill
      exact hfill.1.pushFrame hinit rfl hfill.2 (UInt32.lt_iff_toNat_lt.mp hlimit) now
    | false => exact (h.fresh hinit).pushFrame hinit hlimit now
  refine ⟨h.ahead, trivial, fun hi => ?_, fun _ => ⟨hstarted, hfilled⟩⟩
  rw [JitterBuffer.pushFrame_initialized] at hi
  cases hi

theorem InStep.pop (h : InStep s) (hpc : s.pc = .pop) (syncTimeUs : UInt64) (now : Int) :
    InStep (s.loopStep syncTimeUs now) := by
  have hstay : InStep { s with pc := .findKeyframe } := by
    refine h.receiver_step h.ahead trivial id ?_
    rw [hpc]
    exact fun _ hf => hf
  simp only [loopStep, hpc]
  cases hinit : s.jitterBuffer.initialized with
  | false =>
    have hnone : s.jitterBuffer.popFrame syncTimeUs now = (none, s.jitterBuffer) := by
      have hempty := ((h.fresh hinit).slots s.jitterBuffer.nextPopFrameId).2
      simp only [JitterBuffer.popFrame, hempty, Bool.false_eq_true, false_and, if_false]
    rw [hnone]
    exact hstay
  | true =>
    obtain ⟨hstarted, hfill⟩ := h.filled hinit
    rw [hpc] at hfill
    obtain ⟨hspans, hfull⟩ := hfill
    rcases hspans.popFrame syncTimeUs now with ⟨-, heq⟩ | ⟨hlt, f, -, -, heq⟩
    · rw [heq]
      exact hstay
    · rw [heq]
      split
      · next f' j' heq' =>
        split at heq'
        · cases heq'
        · cases heq'
          have hpointer := UInt32.toNat_lt s.receiver.nextFrameIdToRead
          have htake := hspans.takeFrame hlt (by omega)
          have hptr := JitterBuffer.takeFrame_pointer hlt (by omega)
          refine ⟨h.ahead, trivial, fun hi => ?_, fun _ => ⟨hstarted, htake, ?_⟩⟩
          · exact absurd (hinit.symm.trans hi) (by decide)
          · show s.receiver.nextFrameIdToRead.toNat ≤
              s.jitterBuffer.takeFrame.nextPopFrameId.toNat + 28
            omega
      · next j' heq' =>
        split at heq'
        · cases heq'
          exact hstay
        · cases heq'

/-- **One step** of either thread. -/
theorem inStep_step (s : Playback) (e : PlaybackEvent) (h : InStep s) (hid : e.IdsBelow) :
    InStep (s.step e) := by
  cases e with
  | packet header payload nowUs => exact h.packet hid payload nowUs
  | loop syncTimeUs now =>
    simp only [step]
    split
    · exact h.giveFrame _ id id
    have hat := h.atPc
    cases hpc : s.pc with
    | findKeyframe =>
      simp only [loopStep, hpc]
      exact h.findKeyframe hpc
    | checkKeyframe latest =>
      simp only [loopStep, hpc]
      rw [hpc] at hat
      split
      · next hc =>
        refine h.receiver_step h.ahead ⟨(hat hc.1).1, hc.2, (hat hc.1).2⟩ id ?_
        rw [hpc]
        exact fun _ hf => hf
      · refine h.receiver_step h.ahead trivial id ?_
        rw [hpc]
        exact fun _ hf => hf
    | advance latest =>
      simp only [loopStep, hpc]
      exact h.advance hpc
    | resetJitter latest =>
      simp only [loopStep, hpc]
      exact h.resetJitter hpc _
    | drain =>
      simp only [loopStep, hpc]
      exact h.drain hpc
    | push frame =>
      simp only [loopStep, hpc]
      exact h.push hpc _ now
    | pop => exact h.pop hpc syncTimeUs now
    | giveBack frame =>
      simp only [loopStep, hpc]
      refine h.giveFrame frame (fun _ => trivial) ?_
      rw [hpc]
      exact id

/-! ## The first push -/

/-- The loop comes to a push in the run. -/
def Pushes (s : Playback) (events : List PlaybackEvent) : Prop :=
  ∃ before after frame, events = before ++ after ∧ (run step s before).pc = .push frame

/-- A push is pending, or there has been one or a reset. -/
def Pushing (s : Playback) : Prop :=
  (∃ frame, s.pc = .push frame) ∨ s.jitterBuffer.initialized = true

theorem pushing_step (s : Playback) (e : PlaybackEvent) (h : Pushing s) : Pushing (s.step e) := by
  cases e with
  | packet header payload nowUs => exact h
  | loop syncTimeUs now =>
    simp only [step]
    split
    · exact h
    rcases h with ⟨frame, hpc⟩ | hinit
    · right
      simp only [loopStep, hpc]
      exact s.jitterBuffer.pushFrame_initialized frame now
    · right
      unfold loopStep
      split <;> try exact hinit
      · split <;> exact hinit
      · exact (s.jitterBuffer.reset_pointer _).2
      · exact s.jitterBuffer.pushFrame_initialized _ now
      · have hkeep : (s.jitterBuffer.popFrame syncTimeUs now).2.initialized = true := by
          unfold JitterBuffer.popFrame
          dsimp only
          repeat' split
          all_goals exact hinit
        split <;> next heq =>
          rw [heq] at hkeep
          exact hkeep

theorem Pushes.initialized {events : List PlaybackEvent} (h : Pushes s events)
    (hpc : ∀ frame, (run step s events).pc ≠ .push frame) :
    (run step s events).jitterBuffer.initialized = true := by
  obtain ⟨before, after, frame, rfl, hpush⟩ := h
  rw [run_append] at hpc ⊢
  rcases run_invariant' pushing_step (.inl ⟨frame, hpush⟩) after with ⟨frame', hpc'⟩ | hinit
  · exact absurd hpc' (hpc frame')
  · exact hinit

/-- **The rings in step.** At every loop boundary after the first push the frames in the jitter
buffer are those with ids from its pop pointer to below the read pointer, each once; `m_count` is
their number and at most 28, and `PopFrame` has the frame at the pop pointer to hand out whenever
there is one, subject to its time. -/
theorem rings_in_step (poolSize : Nat) (events : List PlaybackEvent)
    (hids : ∀ e ∈ events, e.IdsBelow) (hpush : Pushes (init poolSize) events)
    (hboundary : (run step (init poolSize) events).pc = .findKeyframe) :
    let r := (run step (init poolSize) events).receiver
    let j := (run step (init poolSize) events).jitterBuffer
    j.nextPopFrameId ≤ r.nextFrameIdToRead ∧
    (j.ring.occupants.map (·.frameId.toNat)).Perm (List.range' j.nextPopFrameId.toNat
      (r.nextFrameIdToRead.toNat - j.nextPopFrameId.toNat)) ∧
    j.count.toNat = j.ring.occupants.length ∧ j.count.toNat ≤ 28 ∧
    (0 < j.count → ∀ syncTimeUs now, ∃ f, j.ring.get j.nextPopFrameId = some f ∧
      f.frameId = j.nextPopFrameId ∧ j.popFrame syncTimeUs now =
        if j.tooEarly (j.info.get j.nextPopFrameId) f syncTimeUs now then (none, j)
        else (some f, j.takeFrame)) := by
  intro r j
  have hstep : InStep (run step (init poolSize) events) :=
    run_invariant inStep_step (inStep_init poolSize) (along_of_forall hids)
  have hinit := hpush.initialized (by rw [hboundary]; intro frame hpc; cases hpc)
  have hfill := (hstep.filled hinit).2
  rw [hboundary] at hfill
  obtain ⟨hspans, hfull⟩ := hfill
  have hperm := hspans.perm (Nat.le_of_lt (UInt32.toNat_lt _))
  have hlength : j.ring.occupants.length = r.nextFrameIdToRead.toNat - j.nextPopFrameId.toNat := by
    rw [← List.length_map (·.frameId.toNat), hperm.length_eq, List.length_range']
  have hcount := hspans.count
  refine ⟨UInt32.le_iff_toNat_le.mpr hspans.low, hperm, hcount.trans hlength.symm, ?_,
    fun hpos syncTimeUs now => ?_⟩
  · show j.count.toNat ≤ 28
    rw [hcount]
    omega
  · rcases hspans.popFrame syncTimeUs now with ⟨heq, -⟩ | ⟨-, f, hf, hid, heq⟩
    · have hpos := UInt64.lt_iff_toNat_lt.mp hpos
      rw [show j.count.toNat = _ from hcount, heq, Nat.sub_self] at hpos
      cases hpos
    · exact ⟨f, hf, hid, heq⟩

/-- Frames 1 and 2 arrive, and one iteration pops the first of them. -/
def twoFrames : List PlaybackEvent :=
  onlyFragment 1 :: onlyFragment 2 :: List.replicate 9 (.loop 1 0)

theorem rings_in_step_twoFrames :
    (run step (init 30) twoFrames).jitterBuffer.count = 1 ∧
    (run step (init 30) twoFrames).jitterBuffer.nextPopFrameId = 2 ∧
    (run step (init 30) twoFrames).jitterBuffer.count.toNat =
      (run step (init 30) twoFrames).jitterBuffer.ring.occupants.length :=
  ⟨by decide +kernel, by decide +kernel,
    (rings_in_step 30 twoFrames (by decide) ⟨twoFrames.take 5, twoFrames.drop 5, _, rfl, rfl⟩
      rfl).2.2.1⟩

end Playback

end RemotePlay.Client
