import RemotePlay.Client.Receiver

/-!
# What the receiver's methods do to its frames

Without a received FEC group `TryRecover` has nothing to do, and a packet that
passes the checks of `ProcessPacket` has one effect on the ring: the slot of
its frame id gets `deliver` of the frame it had or of a recycled one
(`frameRing_processPacket`). `AllFrames P` says `P` of every frame the receiver
owns; the `allFrames_` lemmas say which closure properties of `P` each method
needs.
-/

namespace RemotePlay.Client

open Lib Protocol

/-- One fragment for a frame that is in its slot. -/
def FrameData.deliver (f : FrameData) (header : VideoHeader) (payload : Mem) : FrameData :=
  let f := if header.fragmentIndex < f.totalFragments ∧
      f.fragmentMap.get header.fragmentIndex.toNat = false then f.store header payload else f
  if f.fragmentsReceived = f.totalFragments then { f with isComplete := true } else f

namespace Receiver

/-- No FEC packet has arrived. -/
def NoFec (r : Receiver) : Prop := ∀ i, (r.fecRing.get i).fecReceived = false

/-- The frame that `ensureFrame` leaves in the slot. -/
def frameFor (r : Receiver) (header : VideoHeader) (nowUs : UInt64) : FrameData :=
  match r.frameRing.get header.frameId with
  | none => r.getFromPool.1.start header nowUs
  | some old =>
    if old.frameId ≠ header.frameId then (r.returnToPool old).getFromPool.1.start header nowUs
    else old

/-- `header` is past the checks before the ring is touched. -/
def Accepts (r : Receiver) (header : VideoHeader) : Prop :=
  ¬ header.frameId < r.nextFrameIdToRead ∧
    ¬ (header.totalFragments > 1024 ∨ header.dataSize.toNat > maxUdpPayload)

/-- `P` of every frame in the pool and in the ring. -/
def AllFrames (P : FrameData → Prop) (r : Receiver) : Prop :=
  (∀ f ∈ r.framePool, P f) ∧ ∀ i f, r.frameRing.get i = some f → P f

/-! ## Slots -/

@[simp] theorem frameRing_setSlot (r : Receiver) (fid : UInt32) (f : Option FrameData) :
    (r.setSlot fid f).frameRing = r.frameRing.insert fid f := rfl

@[simp] theorem frameRing_getFromPool (r : Receiver) : r.getFromPool.2.frameRing = r.frameRing := by
  unfold getFromPool; split <;> rfl

@[simp] theorem frameRing_returnToPool (r : Receiver) (f : FrameData) :
    (r.returnToPool f).frameRing = r.frameRing := by
  unfold returnToPool; split <;> rfl

theorem tryRecover_noFec {r : Receiver} (h : r.NoFec) (fid : UInt32) (groupStart : UInt16) :
    r.tryRecover fid groupStart = r := by
  unfold tryRecover
  rcases hf : r.frameRing.get fid with _ | f
  · rfl
  · simp [h (fecIdx fid groupStart)]

theorem complete_eq (r : Receiver) (f : FrameData) (fid : UInt32) :
    (r.complete f fid).frameRing = r.frameRing.insert fid (some
      (if f.fragmentsReceived = f.totalFragments then { f with isComplete := true } else f)) := by
  unfold complete; split <;> rfl

theorem frameRing_startFrame (r : Receiver) (header : VideoHeader) (nowUs : UInt64) :
    (r.startFrame header nowUs).frameRing =
      r.frameRing.insert header.frameId (some (r.getFromPool.1.start header nowUs)) := by
  rw [startFrame, frameRing_setSlot, frameRing_getFromPool]

theorem frameRing_ensureFrame (r : Receiver) (header : VideoHeader) (nowUs : UInt64) :
    (r.ensureFrame header nowUs).frameRing =
      r.frameRing.insert header.frameId (some (r.frameFor header nowUs)) := by
  unfold ensureFrame frameFor
  rcases hf : r.frameRing.get header.frameId with _ | old
  · exact frameRing_startFrame r header nowUs
  · by_cases hid : old.frameId ≠ header.frameId
    · simp only [if_pos hid, frameRing_startFrame, frameRing_returnToPool]
    · simp only [if_neg hid]
      rw [← hf, FixedRingBuffer.insert_get]

/-- What storing a fragment in the frame `f` of its slot does to the ring. -/
theorem frameRing_storeFragment {r : Receiver} (hfec : r.NoFec) {header : VideoHeader}
    {f : FrameData} (hf : r.frameRing.get header.frameId = some f) (payload : Mem) :
    (r.storeFragment header payload).frameRing =
      r.frameRing.insert header.frameId (some (f.deliver header payload)) := by
  unfold storeFragment FrameData.deliver
  simp only [hf]
  by_cases hnew : header.fragmentIndex < f.totalFragments ∧
      f.fragmentMap.get header.fragmentIndex.toNat = false
  · have hfec' : (r.setSlot header.frameId (some (f.store header payload))).NoFec := hfec
    simp only [if_pos hnew, tryRecover_noFec hfec', frameRing_setSlot,
      FixedRingBuffer.get_insert_self, complete_eq, FixedRingBuffer.insert_insert]
  · simp only [if_neg hnew, hf, complete_eq]

/-! ## What the methods leave alone -/

/-- The reading side and the FEC groups are the same. -/
structure SameReader (r r' : Receiver) : Prop where
  fecRing : r'.fecRing = r.fecRing
  nextFrameIdToRead : r'.nextFrameIdToRead = r.nextFrameIdToRead
  firstFrameReceived : r'.firstFrameReceived = r.firstFrameReceived

theorem SameReader.refl (r : Receiver) : SameReader r r := ⟨rfl, rfl, rfl⟩

theorem SameReader.trans {r r' r'' : Receiver} (h : SameReader r r') (h' : SameReader r' r'') :
    SameReader r r'' :=
  ⟨h'.1.trans h.1, h'.2.trans h.2, h'.3.trans h.3⟩

theorem SameReader.noFec {r r' : Receiver} (h : SameReader r r') (hfec : r.NoFec) : r'.NoFec := by
  intro i
  rw [h.fecRing]
  exact hfec i

/-- The replay window, the FEC groups and their pool are the same. -/
structure SameIntake (r r' : Receiver) : Prop where
  sequence : r'.sequence = r.sequence
  fecRing : r'.fecRing = r.fecRing
  fecPool : r'.fecPool = r.fecPool

theorem SameIntake.refl (r : Receiver) : SameIntake r r := ⟨rfl, rfl, rfl⟩

theorem SameIntake.trans {r r' r'' : Receiver} (h : SameIntake r r') (h' : SameIntake r' r'') :
    SameIntake r r'' :=
  ⟨h'.1.trans h.1, h'.2.trans h.2, h'.3.trans h.3⟩

/-- `r'` is `r` but for its frames. -/
structure FramesOnly (r r' : Receiver) : Prop extends SameReader r r', SameIntake r r'

theorem FramesOnly.refl (r : Receiver) : FramesOnly r r := ⟨.refl r, rfl, rfl⟩

theorem FramesOnly.trans {r r' r'' : Receiver} (h : FramesOnly r r') (h' : FramesOnly r' r'') :
    FramesOnly r r'' :=
  ⟨h.toSameReader.trans h'.toSameReader, h'.sequence.trans h.sequence, h'.fecPool.trans h.fecPool⟩

theorem framesOnly_setSlot (r : Receiver) (fid : UInt32) (f : Option FrameData) :
    FramesOnly r (r.setSlot fid f) := ⟨⟨rfl, rfl, rfl⟩, rfl, rfl⟩

theorem framesOnly_returnToPool (r : Receiver) (f : FrameData) :
    FramesOnly r (r.returnToPool f) := by
  unfold returnToPool; split <;> exact ⟨⟨rfl, rfl, rfl⟩, rfl, rfl⟩

theorem framesOnly_getFromPool (r : Receiver) : FramesOnly r r.getFromPool.2 := by
  unfold getFromPool; split <;> exact ⟨⟨rfl, rfl, rfl⟩, rfl, rfl⟩

theorem framesOnly_complete (r : Receiver) (f : FrameData) (fid : UInt32) :
    FramesOnly r (r.complete f fid) := by
  unfold complete; split <;> exact ⟨⟨rfl, rfl, rfl⟩, rfl, rfl⟩

theorem framesOnly_tryRecover (r : Receiver) (fid : UInt32) (groupStart : UInt16) :
    FramesOnly r (r.tryRecover fid groupStart) := by
  unfold tryRecover
  split
  · exact .refl r
  dsimp only
  split
  · exact .refl r
  split
  · exact .refl r
  split
  · split
    · exact .refl r
    · exact framesOnly_complete _ _ _
  · exact .refl r

theorem framesOnly_startFrame (r : Receiver) (header : VideoHeader) (nowUs : UInt64) :
    FramesOnly r (r.startFrame header nowUs) :=
  (framesOnly_getFromPool r).trans (framesOnly_setSlot _ _ _)

theorem framesOnly_ensureFrame (r : Receiver) (header : VideoHeader) (nowUs : UInt64) :
    FramesOnly r (r.ensureFrame header nowUs) := by
  unfold ensureFrame
  split
  · exact framesOnly_startFrame r header nowUs
  · split
    · exact (framesOnly_returnToPool _ _).trans (framesOnly_startFrame _ header nowUs)
    · exact .refl r

theorem framesOnly_storeFragment (r : Receiver) (header : VideoHeader) (payload : Mem) :
    FramesOnly r (r.storeFragment header payload) := by
  have hstored : ∀ f : FrameData, FramesOnly r (if header.fragmentIndex < f.totalFragments ∧
      f.fragmentMap.get header.fragmentIndex.toNat = false then
        (r.setSlot header.frameId (some (f.store header payload))).tryRecover header.frameId
          (header.fragmentIndex / 5 * 5)
      else r) := by
    intro f
    split
    · exact (framesOnly_setSlot _ _ _).trans (framesOnly_tryRecover _ _ _)
    · exact .refl r
  unfold storeFragment
  split
  · exact .refl r
  · next f _ =>
    dsimp only
    split
    · exact hstored f
    · exact (hstored f).trans (framesOnly_complete _ _ _)

theorem framePool_complete (r : Receiver) (f : FrameData) (fid : UInt32) :
    (r.complete f fid).framePool = r.framePool := by
  unfold complete; split <;> rfl

theorem framePool_storeFragment {r : Receiver} (hfec : r.NoFec) (header : VideoHeader)
    (payload : Mem) : (r.storeFragment header payload).framePool = r.framePool := by
  unfold storeFragment
  rcases hf : r.frameRing.get header.frameId with _ | f
  · rfl
  · by_cases hnew : header.fragmentIndex < f.totalFragments ∧
        f.fragmentMap.get header.fragmentIndex.toNat = false
    · have hset := framesOnly_setSlot r header.frameId (some (f.store header payload))
      simp only [if_pos hnew, tryRecover_noFec (hset.noFec hfec), frameRing_setSlot,
        FixedRingBuffer.get_insert_self]
      exact framePool_complete _ _ _
    · simp only [if_neg hnew, hf]
      exact framePool_complete _ _ _

theorem sameIntake_gate {r r' : Receiver} {header : VideoHeader} (h : r.gate header = some r') :
    SameIntake r r' := by
  unfold gate at h
  split at h
  · cases h
    exact .refl r
  · split at h
    · cases h
      exact ⟨rfl, rfl, rfl⟩
    · cases h

theorem sameIntake_processPacket (r : Receiver) (header : VideoHeader) (payload : Mem)
    (nowUs : UInt64) : SameIntake r (r.processPacket header payload nowUs) := by
  unfold processPacket
  split
  · exact .refl r
  · next r' hgate =>
    have hr' := sameIntake_gate hgate
    split
    · exact hr'
    split
    · exact hr'
    · exact hr'.trans
        ((framesOnly_ensureFrame _ _ _).trans (framesOnly_storeFragment _ _ _)).toSameIntake

/-! ## ProcessPacket as a whole -/

theorem processPacket_accepted {r : Receiver} (hstarted : r.firstFrameReceived = true)
    {header : VideoHeader} (h : r.Accepts header) (payload : Mem) (nowUs : UInt64) :
    r.processPacket header payload nowUs =
      (r.ensureFrame header nowUs).storeFragment header payload := by
  simp only [processPacket, gate, hstarted, if_true, if_neg h.1, if_neg h.2]

theorem processPacket_refused {r : Receiver} (hstarted : r.firstFrameReceived = true)
    {header : VideoHeader} (h : ¬ r.Accepts header) (payload : Mem) (nowUs : UInt64) :
    r.processPacket header payload nowUs = r := by
  simp only [processPacket, gate, hstarted, if_true]
  by_cases hid : header.frameId < r.nextFrameIdToRead
  · rw [if_pos hid]
  · rw [if_neg hid]
    by_cases hlim : header.totalFragments > 1024 ∨ header.dataSize.toNat > maxUdpPayload
    · rw [if_pos hlim]
    · exact absurd ⟨hid, hlim⟩ h

/-- **One slot per packet.** An accepted packet writes the slot of its frame id, and only that. -/
theorem frameRing_processPacket {r : Receiver} (hfec : r.NoFec)
    (hstarted : r.firstFrameReceived = true) {header : VideoHeader} (h : r.Accepts header)
    (payload : Mem) (nowUs : UInt64) :
    (r.processPacket header payload nowUs).frameRing = r.frameRing.insert header.frameId
      (some ((r.frameFor header nowUs).deliver header payload)) := by
  have hens := frameRing_ensureFrame r header nowUs
  have hget : (r.ensureFrame header nowUs).frameRing.get header.frameId =
      some (r.frameFor header nowUs) := by
    rw [hens, FixedRingBuffer.get_insert_self]
  rw [processPacket_accepted hstarted h,
    frameRing_storeFragment ((framesOnly_ensureFrame r header nowUs).noFec hfec) hget payload,
    hens, FixedRingBuffer.insert_insert]

theorem sameReader_processPacket {r : Receiver} (hstarted : r.firstFrameReceived = true)
    (header : VideoHeader) (payload : Mem) (nowUs : UInt64) :
    SameReader r (r.processPacket header payload nowUs) := by
  by_cases h : r.Accepts header
  · rw [processPacket_accepted hstarted h]
    have hens := framesOnly_ensureFrame r header nowUs
    exact (hens.trans (framesOnly_storeFragment _ header payload)).toSameReader
  · rw [processPacket_refused hstarted h]
    exact .refl r

/-- A packet that does not open the gate changes nothing. -/
theorem processPacket_gate_none {r : Receiver} {header : VideoHeader} (h : r.gate header = none)
    (payload : Mem) (nowUs : UInt64) : r.processPacket header payload nowUs = r := by
  simp only [processPacket, h]

/-- What the gate lets through: the receiver itself, or the receiver started at a keyframe. -/
theorem gate_some {r r' : Receiver} {header : VideoHeader} (h : r.gate header = some r') :
    r'.firstFrameReceived = true ∧ r'.frameRing = r.frameRing ∧ r'.framePool = r.framePool ∧
      r'.fecRing = r.fecRing ∧
      (r' = r ∨ r.firstFrameReceived = false ∧ header.isKeyframe = true ∧
        r'.nextFrameIdToRead = header.frameId) := by
  unfold gate at h
  split at h
  · next hs =>
    cases h
    exact ⟨hs, rfl, rfl, rfl, .inl rfl⟩
  · next hs =>
    split at h
    · next hk =>
      cases h
      exact ⟨rfl, rfl, rfl, rfl, .inr ⟨by simpa using hs, hk, rfl⟩⟩
    · cases h

theorem processPacket_gate {r r' : Receiver} {header : VideoHeader} (h : r.gate header = some r')
    (payload : Mem) (nowUs : UInt64) :
    r.processPacket header payload nowUs = r'.processPacket header payload nowUs := by
  have hs := (gate_some h).1
  have h' : r'.gate header = some r' := by simp only [gate, hs, if_true]
  simp only [processPacket, h, h']

/-! ## Where frames come from -/

theorem mem_returnToPool {r : Receiver} {f g : FrameData} (h : g ∈ (r.returnToPool f).framePool) :
    g ∈ r.framePool ∨ g = f := by
  unfold returnToPool at h
  split at h
  · exact .inl h
  · exact (List.mem_cons.mp h).symm

theorem mem_getFromPool {r : Receiver} {g : FrameData} (h : g ∈ r.getFromPool.2.framePool) :
    g ∈ r.framePool := by
  unfold getFromPool at h
  split at h
  · exact h
  · next hp =>
    rw [hp]
    exact List.mem_cons_of_mem _ h

theorem fst_getFromPool (r : Receiver) :
    r.getFromPool.1 ∈ r.framePool ∨ ∃ addr, r.getFromPool.1 = .new addr := by
  unfold getFromPool
  split
  · exact .inr ⟨_, rfl⟩
  · next hp =>
    rw [hp]
    exact .inl List.mem_cons_self

/-- The frame of a packet is the one in its slot, or a recycled or new one started over. -/
theorem frameFor_cases (r : Receiver) (header : VideoHeader) (nowUs : UInt64) :
    r.frameAt header.frameId = some (r.frameFor header nowUs) ∨
    r.frameAt header.frameId = none ∧ ∃ f, r.frameFor header nowUs = f.start header nowUs ∧
      (f ∈ r.framePool ∨ r.frameRing.get header.frameId = some f ∨ ∃ addr, f = .new addr) := by
  unfold frameFor frameAt
  rcases hf : r.frameRing.get header.frameId with _ | old
  · refine .inr ⟨rfl, _, rfl, ?_⟩
    rcases fst_getFromPool r with h | h
    · exact .inl h
    · exact .inr (.inr h)
  · by_cases hid : old.frameId = header.frameId
    · refine .inl ?_
      simp [Option.filter, hid]
    · refine .inr ⟨by simp [Option.filter, hid], ?_⟩
      simp only [ne_eq, hid, not_false_eq_true, if_true]
      refine ⟨_, rfl, ?_⟩
      rcases fst_getFromPool (r.returnToPool old) with h | h
      · rcases mem_returnToPool h with h | h
        · exact .inl h
        · exact .inr (.inl (congrArg some h.symm))
      · exact .inr (.inr h)

theorem mem_ensureFrame {r : Receiver} {header : VideoHeader} {nowUs : UInt64} {g : FrameData}
    (h : g ∈ (r.ensureFrame header nowUs).framePool) :
    g ∈ r.framePool ∨ r.frameRing.get header.frameId = some g := by
  unfold ensureFrame at h
  rcases hf : r.frameRing.get header.frameId with _ | old <;> simp only [hf] at h
  · exact .inl (mem_getFromPool h)
  · split at h
    · rcases mem_returnToPool (mem_getFromPool h) with hg | rfl
      · exact .inl hg
      · exact .inr rfl
    · exact .inl h

theorem mem_processPacket {r : Receiver} (hfec : r.NoFec) (hstarted : r.firstFrameReceived = true)
    {header : VideoHeader} {payload : Mem} {nowUs : UInt64} {g : FrameData}
    (h : g ∈ (r.processPacket header payload nowUs).framePool) :
    g ∈ r.framePool ∨ r.frameRing.get header.frameId = some g := by
  by_cases hacc : r.Accepts header
  · have hens := framesOnly_ensureFrame r header nowUs
    rw [processPacket_accepted hstarted hacc,
      framePool_storeFragment (hens.noFec hfec) header payload] at h
    exact mem_ensureFrame h
  · rw [processPacket_refused hstarted hacc] at h
    exact .inl h

/-- What every method keeps of the frames the receiver owns. -/
structure FrameInvariant (P : FrameData → Prop) : Prop where
  new : ∀ addr, P (.new addr)
  start : ∀ f header nowUs, P f → P (f.start header nowUs)
  deliver : ∀ f header payload, P f → P (f.deliver header payload)

theorem allFrames_processPacket {P : FrameData → Prop} (hP : FrameInvariant P) {r : Receiver}
    (hfec : r.NoFec) (hall : r.AllFrames P) (header : VideoHeader) (payload : Mem)
    (nowUs : UInt64) :
    (r.processPacket header payload nowUs).AllFrames P ∧
      (r.processPacket header payload nowUs).NoFec := by
  rcases hg : r.gate header with _ | r'
  · rw [processPacket_gate_none hg]
    exact ⟨hall, hfec⟩
  obtain ⟨hs, hring, hpool, hfecRing, -⟩ := gate_some hg
  have hfec' : r'.NoFec := by
    intro i
    rw [hfecRing]
    exact hfec i
  have hall' : r'.AllFrames P := by
    unfold AllFrames
    rw [hring, hpool]
    exact hall
  rw [processPacket_gate hg]
  refine ⟨⟨fun g h => ?_, fun i g h => ?_⟩,
    (sameReader_processPacket hs header payload nowUs).noFec hfec'⟩
  · rcases mem_processPacket hfec' hs h with h | h
    · exact hall'.1 g h
    · exact hall'.2 _ g h
  · by_cases hacc : r'.Accepts header
    · rw [frameRing_processPacket hfec' hs hacc, FixedRingBuffer.get_insert] at h
      split at h
      · cases h
        apply hP.deliver
        rcases frameFor_cases r' header nowUs with h | ⟨-, f, heq, h⟩
        · exact hall'.2 _ _ (Option.filter_eq_some_iff.mp h).1
        · rw [heq]
          apply hP.start
          rcases h with h | h | ⟨addr, rfl⟩
          · exact hall'.1 f h
          · exact hall'.2 _ f h
          · exact hP.new addr
      · exact hall'.2 i g h
    · rw [processPacket_refused hs hacc] at h
      exact hall'.2 i g h

/-! ## The reading side -/

theorem frameAt_eq_some {r : Receiver} {fid : UInt32} {f : FrameData} :
    r.frameAt fid = some f ↔ r.frameRing.get fid = some f ∧ f.frameId = fid := by
  simp [frameAt]

theorem frameAt_congr {r r' : Receiver} (h : r'.frameRing = r.frameRing) (fid : UInt32) :
    r'.frameAt fid = r.frameAt fid := by
  unfold frameAt
  rw [h]

/-- `GetNextFrame` hands out the complete frame at the read pointer, or does nothing. -/
theorem getNextFrame_cases (r : Receiver) :
    r.getNextFrame = (none, r) ∨
    ∃ f, r.frameAt r.nextFrameIdToRead = some f ∧ f.isComplete = true ∧
      r.getNextFrame = (some f, { r.setSlot r.nextFrameIdToRead none with
        nextFrameIdToRead := r.nextFrameIdToRead + 1 }) := by
  unfold getNextFrame
  rcases r.frameAt r.nextFrameIdToRead with _ | f
  · exact .inl rfl
  · by_cases hc : f.isComplete = true
    · exact .inr ⟨f, rfl, hc, by simp only [if_pos hc]⟩
    · exact .inl (by simp only [if_neg hc])

/-- Emptying the slot of a frame does not touch the frames of other ids. -/
theorem frameAt_insert_none {r r' : Receiver} {fid other : UInt32} {f : FrameData}
    (hf : r.frameAt fid = some f) (hring : r'.frameRing = r.frameRing.insert fid none)
    (hne : other ≠ fid) : r'.frameAt other = r.frameAt other := by
  obtain ⟨hget, hid⟩ := frameAt_eq_some.mp hf
  unfold frameAt
  rw [hring, FixedRingBuffer.get_insert]
  split
  · next hslot =>
    rw [r.frameRing.get_congr hslot, hget]
    simp [Option.filter, hid, hne.symm]
  · rfl

/-- `r'` has lost frames of ids below `bound` from the ring, to the pool. -/
structure Dropped (bound : Nat) (r r' : Receiver) : Prop where
  same : SameReader r r'
  ring : ∀ i f, r'.frameRing.get i = some f → r.frameRing.get i = some f
  pool : ∀ f ∈ r'.framePool, f ∈ r.framePool ∨ ∃ i, r.frameRing.get i = some f
  kept : ∀ fid : UInt32, bound ≤ fid.toNat → r'.frameAt fid = r.frameAt fid

theorem Dropped.refl (bound : Nat) (r : Receiver) : Dropped bound r r :=
  ⟨.refl r, fun _ _ h => h, fun _ h => .inl h, fun _ _ => rfl⟩

theorem Dropped.trans {bound : Nat} {r r' r'' : Receiver} (h : Dropped bound r r')
    (h' : Dropped bound r' r'') : Dropped bound r r'' where
  same := h.same.trans h'.same
  ring i f hf := h.ring i f (h'.ring i f hf)
  pool f hf := by
    rcases h'.pool f hf with hp | ⟨i, hi⟩
    · exact h.pool f hp
    · exact .inr ⟨i, h.ring i f hi⟩
  kept fid hb := (h'.kept fid hb).trans (h.kept fid hb)

/-- One round of the loop of `ForceAdvanceTo`. -/
theorem dropped_one {bound : Nat} {r : Receiver} {fid : UInt32} {f : FrameData}
    (hf : r.frameAt fid = some f) (hb : fid.toNat < bound) :
    Dropped bound r ((r.returnToPool f).setSlot fid none) := by
  have hring : ((r.returnToPool f).setSlot fid none).frameRing = r.frameRing.insert fid none := by
    rw [frameRing_setSlot, frameRing_returnToPool]
  have hsame := (framesOnly_returnToPool r f).trans (framesOnly_setSlot _ fid none)
  refine ⟨hsame.toSameReader, fun i g hg => ?_, fun g hg => ?_, fun other ho =>
    frameAt_insert_none hf hring fun e => by rw [e] at ho; omega⟩
  · rw [hring, FixedRingBuffer.get_insert] at hg
    split at hg
    · cases hg
    · exact hg
  · rcases mem_returnToPool hg with h | rfl
    · exact .inl h
    · exact .inr ⟨fid, (frameAt_eq_some.mp hf).1⟩

theorem dropFrames_spec {bound : Nat} (n : Nat) (r : Receiver) (fid : UInt32)
    (hb : fid.toNat + n ≤ bound) :
    Dropped bound r (r.dropFrames fid n) := by
  induction n generalizing r fid with
  | zero => exact .refl bound r
  | succ n ih =>
    have hnext : (fid + 1).toNat + n ≤ bound := by
      rw [UInt32.toNat_add]
      show (fid.toNat + 1) % 2 ^ 32 + n ≤ bound
      omega
    unfold dropFrames
    rcases hf : r.frameAt fid with _ | f
    · exact ih r (fid + 1) hnext
    · exact (dropped_one hf (by omega)).trans (ih _ (fid + 1) hnext)

theorem framesOnly_dropFrames (n : Nat) (r : Receiver) (fid : UInt32) :
    FramesOnly r (r.dropFrames fid n) := by
  induction n generalizing r fid with
  | zero => exact .refl r
  | succ n ih =>
    unfold dropFrames
    split
    · exact ((framesOnly_returnToPool _ _).trans (framesOnly_setSlot _ _ _)).trans (ih _ (fid + 1))
    · exact ih r (fid + 1)

theorem sameIntake_forceAdvanceTo (r : Receiver) (frameId : UInt32) :
    SameIntake r (r.forceAdvanceTo frameId) := by
  unfold forceAdvanceTo
  split
  · exact .refl r
  · have hdrop := framesOnly_dropFrames (frameId - r.nextFrameIdToRead).toNat r r.nextFrameIdToRead
    exact ⟨hdrop.sequence, hdrop.fecRing, hdrop.fecPool⟩

theorem sameIntake_getNextFrame (r : Receiver) : SameIntake r r.getNextFrame.2 := by
  rcases getNextFrame_cases r with heq | ⟨f, -, -, heq⟩
  · rw [heq]
    exact .refl r
  · rw [heq]
    exact ⟨rfl, rfl, rfl⟩

/-- `ForceAdvanceTo` drops frames below its target and moves the read pointer there, or does
nothing. -/
theorem forceAdvanceTo_cases (r : Receiver) (frameId : UInt32) :
    (frameId ≤ r.nextFrameIdToRead ∧ r.forceAdvanceTo frameId = r) ∨
    (r.nextFrameIdToRead < frameId ∧ ∃ r', Dropped frameId.toNat r r' ∧
      r.forceAdvanceTo frameId = { r' with nextFrameIdToRead := frameId }) := by
  unfold forceAdvanceTo
  by_cases h : frameId ≤ r.nextFrameIdToRead
  · exact .inl ⟨h, if_pos h⟩
  · have hlt : r.nextFrameIdToRead < frameId := by
      simpa [UInt32.lt_iff_toNat_lt, UInt32.le_iff_toNat_le] using h
    have hsub : (frameId - r.nextFrameIdToRead).toNat =
        frameId.toNat - r.nextFrameIdToRead.toNat :=
      UInt32.toNat_sub_of_le _ _ (UInt32.le_iff_toNat_le.mpr
        (Nat.le_of_lt (UInt32.lt_iff_toNat_lt.mp hlt)))
    refine .inr ⟨hlt, _, dropFrames_spec _ r _ ?_, if_neg h⟩
    have := UInt32.lt_iff_toNat_lt.mp hlt
    omega

/-- Only the frame at the read pointer is handed out. -/
theorem frameAt_getNextFrame {r : Receiver} {fid : UInt32} (h : r.nextFrameIdToRead ≠ fid) :
    r.getNextFrame.2.frameAt fid = r.frameAt fid := by
  rcases r.getNextFrame_cases with heq | ⟨f, hf, -, heq⟩
  · rw [heq]
  · rw [heq]
    exact frameAt_insert_none hf rfl h.symm

/-- Only frames below the target are dropped. -/
theorem frameAt_forceAdvanceTo {r : Receiver} {frameId fid : UInt32} (h : frameId ≤ fid) :
    (r.forceAdvanceTo frameId).frameAt fid = r.frameAt fid := by
  rcases r.forceAdvanceTo_cases frameId with ⟨-, heq⟩ | ⟨-, r', hdropped, heq⟩
  · rw [heq]
  · rw [heq]
    exact hdropped.kept fid (UInt32.le_iff_toNat_le.mp h)

end Receiver

end RemotePlay.Client
