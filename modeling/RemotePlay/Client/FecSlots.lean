import RemotePlay.Client.Fec

/-!
# Slots of the FEC ring

The group that starts at fragment `start` of frame `frameId` is kept in the slot
`frameId * 13 + start / 5` of 1024. A frame of 1024 fragments has 205 groups, so
with more than 65 fragments its groups run on into the slots of the frames after
it: the first group of the frame `d` ids later has the slot of group `13 * d` of
this one. Nothing wraps around the ring, since 63 frames of 13 slots and 205
groups are fewer than 1024.
-/

namespace RemotePlay.Client

open Lib Protocol

namespace Receiver

/-- The slot of a group. -/
def fecSlot (frameId : UInt32) (groupStart : UInt16) : Nat :=
  (fecIdx frameId groupStart).toNat % 1024

/-- A frame that is being sent. -/
structure SentFrame where
  frameId : UInt32
  totalFragments : UInt16

/-- The starts of the frame's parity groups. -/
def SentFrame.Group (f : SentFrame) (groupStart : UInt16) : Prop :=
  groupStart % 5 = 0 ∧ groupStart < f.totalFragments

/-- The frames can be in the frame ring together: their ids are less than 64 apart. -/
structure InFlight (frames : Set SentFrame) : Prop where
  total : ∀ f ∈ frames, f.totalFragments ≤ 1024
  near : ∀ f ∈ frames, ∀ g ∈ frames, g.frameId - f.frameId < 64 ∨ f.frameId - g.frameId < 64

/-- Different groups of the frames have different slots. -/
def SlotsDistinct (frames : Set SentFrame) : Prop :=
  ∀ f ∈ frames, ∀ g ∈ frames, ∀ a b, f.Group a → g.Group b →
    (f.frameId, a) ≠ (g.frameId, b) → fecSlot f.frameId a ≠ fecSlot g.frameId b

/-- The groups of `f` end before the slots of `g`, a later frame with a fragment, begin. -/
def EndsBefore (f g : SentFrame) : Prop :=
  g.frameId ≠ f.frameId → g.frameId - f.frameId < 64 → g.totalFragments ≠ 0 →
    f.totalFragments.toNat ≤ 65 * (g.frameId - f.frameId).toNat

/-! ## The index -/

theorem fecSlot_eq (frameId : UInt32) (groupStart : UInt16) :
    fecSlot frameId groupStart = (frameId.toNat * 13 + groupStart.toNat / 5) % 1024 := by
  unfold fecSlot fecIdx
  rw [UInt32.toNat_add, UInt32.toNat_mul, UInt16.toNat_toUInt32, UInt16.toNat_div]
  show (frameId.toNat * 13 % 2 ^ 32 + groupStart.toNat / 5) % 2 ^ 32 % 1024 = _
  omega

theorem SentFrame.group_iff {f : SentFrame} {groupStart : UInt16} :
    f.Group groupStart ↔
      groupStart.toNat % 5 = 0 ∧ groupStart.toNat < f.totalFragments.toNat := by
  unfold SentFrame.Group
  rw [← UInt16.toNat_inj, UInt16.toNat_mod, UInt16.lt_iff_toNat_lt]
  rfl

/-- The id `d` frames later, modulo the ring. -/
theorem toNat_of_sub {f g : UInt32} {d : Nat} (h : (g - f).toNat = d) :
    g.toNat = (f.toNat + d) % 2 ^ 32 := by
  have hf := f.toNat_lt
  have hg := g.toNat_lt
  rw [UInt32.toNat_sub] at h
  omega

variable {f g : SentFrame} {a b : UInt16}

/-- In one frame, groups have their own slots. -/
theorem groups_of_frame (htotal : f.totalFragments ≤ 1024) (hsame : g.frameId = f.frameId)
    (htotal' : g.totalFragments ≤ 1024) (ha : f.Group a) (hb : g.Group b)
    (h : fecSlot f.frameId a = fecSlot g.frameId b) : a = b := by
  have hle : f.totalFragments.toNat ≤ 1024 := UInt16.le_iff_toNat_le.mp htotal
  have hle' : g.totalFragments.toNat ≤ 1024 := UInt16.le_iff_toNat_le.mp htotal'
  obtain ⟨ha5, hlt⟩ := SentFrame.group_iff.mp ha
  obtain ⟨hb5, hlt'⟩ := SentFrame.group_iff.mp hb
  rw [hsame, fecSlot_eq, fecSlot_eq] at h
  exact UInt16.toNat_inj.mp (by omega)

/-- The groups of a frame and of one less than 64 ids later have different slots, when the first
frame ends before the second begins. -/
theorem groups_of_later (htotal : f.totalFragments ≤ 1024) (htotal' : g.totalFragments ≤ 1024)
    (hne : g.frameId ≠ f.frameId) (hnear : g.frameId - f.frameId < 64)
    (hends : EndsBefore f g) (ha : f.Group a) (hb : g.Group b) :
    fecSlot f.frameId a ≠ fecSlot g.frameId b := by
  have hle : f.totalFragments.toNat ≤ 1024 := UInt16.le_iff_toNat_le.mp htotal
  have hle' : g.totalFragments.toNat ≤ 1024 := UInt16.le_iff_toNat_le.mp htotal'
  have hd : (g.frameId - f.frameId).toNat < 64 := UInt32.lt_iff_toNat_lt.mp hnear
  obtain ⟨ha5, hlt⟩ := SentFrame.group_iff.mp ha
  obtain ⟨hb5, hlt'⟩ := SentFrame.group_iff.mp hb
  have hpos : g.totalFragments ≠ 0 := fun h0 => by
    rw [h0] at hlt'
    exact absurd hlt' (Nat.not_lt_zero _)
  have hshort := hends hne hnear hpos
  generalize hdef : (g.frameId - f.frameId).toNat = d at hd hshort
  have hid := toNat_of_sub hdef
  rw [fecSlot_eq, fecSlot_eq, hid]
  omega

/-- A longer frame has the slot of the first group of the later one. -/
theorem groups_collide (hnear : g.frameId - f.frameId < 64) (hpos : g.totalFragments ≠ 0)
    (hlong : 65 * (g.frameId - f.frameId).toNat < f.totalFragments.toNat) :
    ∃ a, f.Group a ∧ g.Group 0 ∧ fecSlot f.frameId a = fecSlot g.frameId 0 := by
  have hd : (g.frameId - f.frameId).toNat < 64 := UInt32.lt_iff_toNat_lt.mp hnear
  generalize hdef : (g.frameId - f.frameId).toNat = d at hd hlong
  have hid := toNat_of_sub hdef
  have hstart : (UInt16.ofNat (65 * d)).toNat = 65 * d := by
    rw [UInt16.toNat_ofNat']
    omega
  have hpos' : 0 < g.totalFragments.toNat :=
    Nat.pos_of_ne_zero fun h => hpos (UInt16.toNat_inj.mp h)
  refine ⟨UInt16.ofNat (65 * d), SentFrame.group_iff.mpr ?_, SentFrame.group_iff.mpr ⟨rfl, hpos'⟩,
    ?_⟩
  · rw [hstart]
    exact ⟨by omega, hlong⟩
  · rw [fecSlot_eq, fecSlot_eq, hstart, hid]
    show _ = ((f.frameId.toNat + d) % 2 ^ 32 * 13 + 0 / 5) % 1024
    omega

/-! ## Eviction -/

/-- The group is in the ring. -/
def HoldsGroup (r : Receiver) (frameId : UInt32) (groupStart : UInt16) : Prop :=
  let group := r.fecRing.get (fecIdx frameId groupStart)
  group.fecReceived = true ∧ group.frameId = frameId ∧ group.fecHeader.fragmentStart = groupStart

/-- `ProcessFEC` writes one slot at most, that of its group. -/
theorem fecRing_processFEC (r : Receiver) (header : FECHeader) (payload : Mem) {frameId : UInt32}
    {groupStart : UInt16}
    (h : fecSlot frameId groupStart ≠ fecSlot header.frameId header.fragmentStart) :
    (r.processFEC header payload).fecRing.get (fecIdx frameId groupStart) =
      r.fecRing.get (fecIdx frameId groupStart) := by
  unfold processFEC
  split
  · rfl
  · split
    · split
      · exact FixedRingBuffer.get_insert_ne _ _ h
      · rw [(framesOnly_tryRecover _ _ _).fecRing]
        exact FixedRingBuffer.get_insert_ne _ _ h
    · rfl

/-- A group of another slot keeps its parity. -/
theorem holdsGroup_processFEC {r : Receiver} {frameId : UInt32} {groupStart : UInt16}
    (hr : r.HoldsGroup frameId groupStart) (header : FECHeader) (payload : Mem)
    (h : fecSlot frameId groupStart ≠ fecSlot header.frameId header.fragmentStart) :
    (r.processFEC header payload).HoldsGroup frameId groupStart := by
  unfold HoldsGroup
  rw [r.fecRing_processFEC header payload h]
  exact hr

/-- Another group of the slot discards it, once the read pointer lets its packet through. -/
theorem not_holdsGroup_processFEC (r : Receiver) (header : FECHeader) (payload : Mem)
    {frameId : UInt32} {groupStart : UInt16}
    (hr : r.HoldsGroup frameId groupStart) (hnext : r.nextFrameIdToRead ≤ header.frameId)
    (h : fecSlot frameId groupStart = fecSlot header.frameId header.fragmentStart)
    (hne : (frameId, groupStart) ≠ (header.frameId, header.fragmentStart)) :
    ¬ (r.processFEC header payload).HoldsGroup frameId groupStart := by
  obtain ⟨-, hid, hstart⟩ := hr
  have hslot : r.fecRing.get (fecIdx header.frameId header.fragmentStart) =
      r.fecRing.get (fecIdx frameId groupStart) := r.fecRing.get_congr h.symm
  have hnew : r.NewGroup header := by
    unfold NewGroup
    simp only [hslot, hid, hstart]
    by_cases hf : frameId = header.frameId
    · exact .inr (.inr fun hs => hne (by rw [hf, hs]))
    · exact .inr (.inl hf)
  rintro ⟨-, hid', hstart'⟩
  rw [(r.processFEC header payload).fecRing.get_congr h] at hid' hstart'
  have hwritten : ((r.processFEC header payload).fecRing.get
        (fecIdx header.frameId header.fragmentStart)).frameId = header.frameId ∧
      ((r.processFEC header payload).fecRing.get
        (fecIdx header.frameId header.fragmentStart)).fecHeader = header := by
    unfold processFEC
    rw [if_neg (UInt32.not_lt.mpr hnext), if_pos hnew]
    split
    · rw [FixedRingBuffer.get_insert_self]
      exact ⟨rfl, rfl⟩
    · rw [(framesOnly_tryRecover _ _ _).fecRing]
      unfold storeGroup
      rw [FixedRingBuffer.get_insert_self]
      exact ⟨rfl, rfl⟩
  refine hne ?_
  rw [← hid', ← hstart', hwritten.1, hwritten.2]

/-- **Slots of the FEC ring.** The groups of the frames in flight have different slots exactly when
no frame has more than 65 fragments for each id up to a later frame that has a fragment. -/
theorem slotsDistinct_iff {frames : Set SentFrame} (h : InFlight frames) :
    SlotsDistinct frames ↔ ∀ f ∈ frames, ∀ g ∈ frames, EndsBefore f g := by
  constructor
  · intro hdistinct f hf g hg hne hnear hpos
    by_contra hlong
    obtain ⟨a, ha, hzero, hslot⟩ := groups_collide hnear hpos (Nat.lt_of_not_le hlong)
    refine hdistinct f hf g hg a 0 ha hzero (fun heq => hne ?_) hslot
    exact (congrArg Prod.fst heq).symm
  · intro hends f hf g hg a b ha hb hne hslot
    by_cases hsame : g.frameId = f.frameId
    · refine hne ?_
      rw [groups_of_frame (h.total f hf) hsame (h.total g hg) ha hb hslot, hsame]
    · rcases h.near f hf g hg with hnear | hnear
      · exact groups_of_later (h.total f hf) (h.total g hg) hsame hnear (hends f hf g hg) ha hb
          hslot
      · exact groups_of_later (h.total g hg) (h.total f hf) (Ne.symm hsame) hnear
          (hends g hg f hf) hb ha hslot.symm

/-- Two frames in a row, of at most 65 fragments. -/
theorem slotsDistinct_65 : SlotsDistinct {⟨7, 65⟩, ⟨8, 65⟩} := by
  refine (slotsDistinct_iff ⟨?_, ?_⟩).mpr ?_ <;> simp [EndsBefore]

/-- Group 65 of a frame of 70 fragments has the slot of the first group of the next frame. -/
theorem long_frame_collides :
    InFlight {⟨7, 70⟩, ⟨8, 70⟩} ∧ ¬ SlotsDistinct {⟨7, 70⟩, ⟨8, 70⟩} := by
  refine ⟨⟨by simp, by simp⟩, fun h => ?_⟩
  exact h ⟨7, 70⟩ (by simp) ⟨8, 70⟩ (by simp) 65 0 ⟨rfl, by decide⟩ ⟨rfl, by decide⟩ (by decide)
    (by decide)

end Receiver

end RemotePlay.Client
