import RemotePlay.Client.ReceiverFrames

/-!
# The frame ring with FEC

`TryRecover` adds to the frame in its slot and to nothing else, so what the
methods do to the ring is the same with FEC as without it: a packet or a
parity packet lets the frame of its slot grow (`Touches`), after `ProcessPacket`
has put a frame of its id there. `FindLatestAvailableKeyframe` only reads, and
`ForceAdvanceTo` empties the slots below its target.
-/

namespace RemotePlay.Client

open Lib Protocol

/-- `g` is the frame `f` with nothing taken from it. -/
structure FrameData.Grows (f g : FrameData) : Prop where
  addr : g.addr = f.addr
  frameId : g.frameId = f.frameId
  kept : ∀ k, f.fragmentMap.get k = true → g.fragmentMap.get k = true
  complete : f.isComplete = true → g.isComplete = true

namespace FrameData

theorem Grows.refl (f : FrameData) : f.Grows f := ⟨rfl, rfl, fun _ h => h, fun h => h⟩

theorem Grows.trans {f g h : FrameData} (hfg : f.Grows g) (hgh : g.Grows h) : f.Grows h where
  addr := hgh.addr.trans hfg.addr
  frameId := hgh.frameId.trans hfg.frameId
  kept k hk := hgh.kept k (hfg.kept k hk)
  complete hc := hgh.complete (hfg.complete hc)

theorem get_set_true {map : Vec Bool} {i k : Nat} (h : map.get k = true) :
    (map.set i true).get k = true := by
  rw [Vec.get_set]
  split
  · rfl
  · exact h

theorem grows_store (f : FrameData) (header : VideoHeader) (payload : Mem) :
    f.Grows (f.store header payload) := by
  unfold store
  dsimp only
  split
  · exact ⟨rfl, rfl, fun k hk => get_set_true hk, fun h => h⟩
  · exact .refl f

theorem grows_recover (f : FrameData) (fec : FECHeader) (pkt : Packet)
    (groupStart missingIndex : UInt16) :
    f.Grows (Receiver.recover f fec pkt groupStart missingIndex) :=
  ⟨rfl, rfl, fun _ hk => get_set_true hk, fun h => h⟩

theorem start_addr (f : FrameData) (header : VideoHeader) (nowUs : UInt64) :
    (f.start header nowUs).addr = f.addr := by
  simp only [start]
  split <;> rfl

theorem start_frameId (f : FrameData) (header : VideoHeader) (nowUs : UInt64) :
    (f.start header nowUs).frameId = header.frameId := by
  simp only [start]
  split <;> rfl

end FrameData

namespace Receiver

/-! ## One slot touched -/

/-- `r'` is `r` with the frame in the slot of `fid` grown, if there is one. -/
structure Touches (fid : UInt32) (r r' : Receiver) : Prop where
  framePool : r'.framePool = r.framePool
  frameStorage : r'.frameStorage = r.frameStorage
  nextFrameIdToRead : r'.nextFrameIdToRead = r.nextFrameIdToRead
  firstFrameReceived : r'.firstFrameReceived = r.firstFrameReceived
  frameRing : r'.frameRing = r.frameRing ∨ ∃ f g, r.frameRing.get fid = some f ∧ f.Grows g ∧
    r'.frameRing = r.frameRing.insert fid (some g)

theorem Touches.refl (fid : UInt32) (r : Receiver) : Touches fid r r :=
  ⟨rfl, rfl, rfl, rfl, .inl rfl⟩

theorem Touches.trans {fid : UInt32} {r r' r'' : Receiver} (h : Touches fid r r')
    (h' : Touches fid r' r'') : Touches fid r r'' where
  framePool := h'.framePool.trans h.framePool
  frameStorage := h'.frameStorage.trans h.frameStorage
  nextFrameIdToRead := h'.nextFrameIdToRead.trans h.nextFrameIdToRead
  firstFrameReceived := h'.firstFrameReceived.trans h.firstFrameReceived
  frameRing := by
    rcases h'.frameRing with heq | ⟨g, g', hg, hgrow, heq⟩
    · rw [heq]
      exact h.frameRing
    · rcases h.frameRing with heq' | ⟨f, g'', hf, hgrow', heq'⟩
      · rw [heq'] at hg heq
        exact .inr ⟨g, g', hg, hgrow, heq⟩
      · rw [heq', FixedRingBuffer.get_insert_self] at hg
        cases hg
        refine .inr ⟨f, g', hf, hgrow'.trans hgrow, ?_⟩
        rw [heq, heq', FixedRingBuffer.insert_insert]

/-- The frame `f` of its slot written back as `g`. -/
theorem touches_setSlot {r : Receiver} {fid : UInt32} {f g : FrameData}
    (hf : r.frameRing.get fid = some f) (h : f.Grows g) : Touches fid r (r.setSlot fid (some g)) :=
  ⟨rfl, rfl, rfl, rfl, .inr ⟨f, g, hf, h, rfl⟩⟩

theorem touches_complete {r : Receiver} {fid : UInt32} {f g : FrameData}
    (hf : r.frameRing.get fid = some f) (h : f.Grows g) : Touches fid r (r.complete g fid) := by
  unfold complete
  split
  · have hdone : f.Grows { g with isComplete := true } :=
      h.trans ⟨rfl, rfl, fun _ hk => hk, fun _ => rfl⟩
    exact ⟨rfl, rfl, rfl, rfl, .inr ⟨f, _, hf, hdone, rfl⟩⟩
  · exact touches_setSlot hf h

theorem touches_tryRecover (r : Receiver) (fid : UInt32) (groupStart : UInt16) :
    Touches fid r (r.tryRecover fid groupStart) := by
  unfold tryRecover
  cases hf : r.frameRing.get fid with
  | none => exact .refl fid r
  | some f =>
    dsimp only
    split
    · exact .refl fid r
    split
    · exact .refl fid r
    split
    · split
      · exact .refl fid r
      · exact touches_complete hf (f.grows_recover _ _ _ _)
    · exact .refl fid r

theorem touches_storeFragment (r : Receiver) (header : VideoHeader) (payload : Mem) :
    Touches header.frameId r (r.storeFragment header payload) := by
  unfold storeFragment
  cases hf : r.frameRing.get header.frameId with
  | none => exact .refl _ r
  | some f =>
    dsimp only
    have hstored : Touches header.frameId r (if header.fragmentIndex < f.totalFragments ∧
        f.fragmentMap.get header.fragmentIndex.toNat = false then
          (r.setSlot header.frameId (some (f.store header payload))).tryRecover header.frameId
            (header.fragmentIndex / 5 * 5)
        else r) := by
      split
      · exact (touches_setSlot hf (f.grows_store header payload)).trans (touches_tryRecover _ _ _)
      · exact .refl _ r
    split
    · exact hstored
    · next g hg => exact hstored.trans (touches_complete hg (.refl g))

theorem touches_processFEC (r : Receiver) (header : FECHeader) (payload : Mem) :
    Touches header.frameId r (r.processFEC header payload) := by
  unfold processFEC
  split
  · exact .refl _ r
  split
  · split
    · exact ⟨rfl, rfl, rfl, rfl, .inl rfl⟩
    · next pkt pool _ =>
      have hgroup : Touches header.frameId r (r.storeGroup header payload pkt pool) :=
        ⟨rfl, rfl, rfl, rfl, .inl rfl⟩
      exact hgroup.trans (touches_tryRecover _ _ _)
  · exact .refl _ r

/-! ## ProcessPacket -/

/-- **What a packet does.** It does not open the gate, or it is past the gate and refused, or the
slot of its id has its frame, which grows. -/
theorem processPacket_cases (r : Receiver) (header : VideoHeader) (payload : Mem)
    (nowUs : UInt64) :
    (r.gate header = none ∧ r.processPacket header payload nowUs = r) ∨
    ∃ r', r.gate header = some r' ∧
      ((¬ r'.Accepts header ∧ r.processPacket header payload nowUs = r') ∨
        r'.Accepts header ∧ Touches header.frameId (r'.ensureFrame header nowUs)
          (r.processPacket header payload nowUs)) := by
  cases hgate : r.gate header with
  | none => exact .inl ⟨rfl, processPacket_gate_none hgate payload nowUs⟩
  | some r' =>
    refine .inr ⟨r', rfl, ?_⟩
    have hstarted := (gate_some hgate).1
    rw [processPacket_gate hgate]
    by_cases hacc : r'.Accepts header
    · rw [processPacket_accepted hstarted hacc]
      exact .inr ⟨hacc, touches_storeFragment _ header payload⟩
    · exact .inl ⟨hacc, processPacket_refused hstarted hacc payload nowUs⟩

theorem frameFor_frameId (r : Receiver) (header : VideoHeader) (nowUs : UInt64) :
    (r.frameFor header nowUs).frameId = header.frameId := by
  rcases frameFor_cases r header nowUs with h | ⟨-, f, heq, -⟩
  · exact (Option.filter_eq_some_iff.mp h).2 |> of_decide_eq_true
  · rw [heq, FrameData.start_frameId]

/-- The ring after an accepted packet. -/
theorem frameRing_accepted {r r' : Receiver} {header : VideoHeader} {nowUs : UInt64}
    (h : Touches header.frameId (r.ensureFrame header nowUs) r') :
    ∃ g, (r.frameFor header nowUs).Grows g ∧
      r'.frameRing = r.frameRing.insert header.frameId (some g) := by
  have hens := frameRing_ensureFrame r header nowUs
  rcases h.frameRing with heq | ⟨f, g, hf, hgrow, heq⟩
  · exact ⟨_, .refl _, heq.trans hens⟩
  · rw [hens, FixedRingBuffer.get_insert_self] at hf
    cases hf
    exact ⟨g, hgrow, by rw [heq, hens, FixedRingBuffer.insert_insert]⟩

/-! ## The frame of an id -/

section
variable {fid : UInt32} {r r' : Receiver}

theorem frameAt_touches (h : Touches fid r r') {f g : FrameData} (hf : r.frameAt fid = some f)
    (hg : r'.frameRing.get fid = some g) : r'.frameAt fid = some g := by
  obtain ⟨hget, hid⟩ := frameAt_eq_some.mp hf
  refine frameAt_eq_some.mpr ⟨hg, ?_⟩
  rcases h.frameRing with heq | ⟨f', g', hf', hgrow, heq⟩
  · rw [heq, hget] at hg
    cases hg
    exact hid
  · rw [heq, FixedRingBuffer.get_insert_self] at hg
    rw [hget] at hf'
    cases hg
    cases hf'
    exact hgrow.frameId.trans hid

/-- A frame of another id written to a slot that frame `fid` is not in. -/
theorem frameAt_insert_other {other : UInt32} {g : FrameData} (hne : other ≠ fid)
    (hg : g.frameId = other) (hring : r'.frameRing = r.frameRing.insert other (some g))
    (hclear : other.toNat % 64 ≠ fid.toNat % 64 ∨ r.frameAt fid = none) :
    r'.frameAt fid = r.frameAt fid := by
  unfold frameAt at hclear ⊢
  rw [hring, FixedRingBuffer.get_insert]
  split
  · next hslot =>
    rcases hclear with hclear | hclear
    · exact absurd hslot.symm hclear
    · rw [hclear]
      simp [Option.filter, hg, hne]
  · rfl

theorem frameAt_processPacket_other {header : VideoHeader} (hne : header.frameId ≠ fid)
    (hclear : header.frameId.toNat % 64 ≠ fid.toNat % 64 ∨ r.frameAt fid = none) (payload : Mem)
    (nowUs : UInt64) : (r.processPacket header payload nowUs).frameAt fid = r.frameAt fid := by
  rcases processPacket_cases r header payload nowUs with ⟨-, heq⟩ | ⟨r₁, hgate, hcases⟩
  · rw [heq]
  have hring := (gate_some hgate).2.1
  have hsame := frameAt_congr hring fid
  rcases hcases with ⟨-, heq⟩ | ⟨-, htouches⟩
  · rw [heq, hsame]
  · obtain ⟨g, hgrow, hring'⟩ := frameRing_accepted htouches
    rw [← hsame] at hclear ⊢
    exact frameAt_insert_other hne (hgrow.frameId.trans (frameFor_frameId r₁ header nowUs)) hring'
      hclear

end

/-! ## Slots -/

/-- Every frame is in the slot of its id. -/
def InSlots (r : Receiver) : Prop :=
  ∀ k, k < 64 → ∀ f, r.frameRing.buffer k = some f → f.frameId.toNat % 64 = k

theorem InSlots.get {r : Receiver} (h : r.InSlots) {i : UInt32} {f : FrameData}
    (hf : r.frameRing.get i = some f) : f.frameId.toNat % 64 = i.toNat % 64 :=
  h _ (Nat.mod_lt _ (by omega)) f hf

theorem InSlots.frameAt {r : Receiver} (h : r.InSlots) {k : Nat} (hk : k < 64) {f : FrameData}
    (hf : r.frameRing.buffer k = some f) : r.frameAt f.frameId = some f := by
  refine frameAt_eq_some.mpr ⟨?_, rfl⟩
  show r.frameRing.buffer (f.frameId.toNat % 64) = some f
  rw [h k hk f hf, hf]

theorem InSlots.insert {r r' : Receiver} (h : r.InSlots) {i : UInt32} {v : Option FrameData}
    (hv : ∀ g, v = some g → g.frameId.toNat % 64 = i.toNat % 64)
    (hring : r'.frameRing = r.frameRing.insert i v) : r'.InSlots := by
  intro k hk f hf
  rw [hring] at hf
  change (if k = i.toNat % 64 then v else r.frameRing.buffer k) = some f at hf
  split at hf
  · next hki => rw [hki, hv f hf]
  · exact h k hk f hf

theorem InSlots.vacate {r r' : Receiver} (h : r.InSlots) {i : UInt32}
    (hring : r'.frameRing = r.frameRing.insert i none) : r'.InSlots := by
  refine h.insert ?_ hring
  rintro g ⟨⟩

theorem InSlots.touches {r r' : Receiver} (h : r.InSlots) {fid : UInt32}
    (ht : Touches fid r r') : r'.InSlots := by
  rcases ht.frameRing with heq | ⟨f, g, hf, hgrow, heq⟩
  · unfold InSlots
    rw [heq]
    exact h
  · refine h.insert ?_ heq
    rintro _ ⟨⟩
    rw [hgrow.frameId]
    exact h.get hf

theorem InSlots.processPacket {r : Receiver} (h : r.InSlots) (header : VideoHeader)
    (payload : Mem) (nowUs : UInt64) : (r.processPacket header payload nowUs).InSlots := by
  rcases processPacket_cases r header payload nowUs with ⟨-, heq⟩ | ⟨r', hgate, hcases⟩
  · rwa [heq]
  have h' : r'.InSlots := by
    unfold InSlots
    rw [(gate_some hgate).2.1]
    exact h
  rcases hcases with ⟨-, heq⟩ | ⟨-, ht⟩
  · rwa [heq]
  · obtain ⟨g, hgrow, hring⟩ := frameRing_accepted ht
    refine h'.insert ?_ hring
    rintro _ ⟨⟩
    rw [hgrow.frameId, frameFor_frameId]

theorem InSlots.getNextFrame {r : Receiver} (h : r.InSlots) : r.getNextFrame.2.InSlots := by
  rcases getNextFrame_cases r with heq | ⟨f, -, -, heq⟩
  · rwa [heq]
  · rw [heq]
    exact h.vacate rfl

theorem InSlots.dropFrames {r : Receiver} (h : r.InSlots) (fid : UInt32) (n : Nat) :
    (r.dropFrames fid n).InSlots := by
  induction n generalizing r fid with
  | zero => exact h
  | succ n ih =>
    unfold Receiver.dropFrames
    split
    · next f hf =>
      have hring : ((r.returnToPool f).setSlot fid none).frameRing = r.frameRing.insert fid none := by
        rw [frameRing_setSlot, frameRing_returnToPool]
      exact ih (h.vacate hring) (fid + 1)
    · exact ih h (fid + 1)

theorem InSlots.forceAdvanceTo {r : Receiver} (h : r.InSlots) (frameId : UInt32) :
    (r.forceAdvanceTo frameId).InSlots := by
  unfold Receiver.forceAdvanceTo
  split
  · exact h
  · exact h.dropFrames _ _

/-! ## ForceAdvanceTo -/

/-- The loop puts no frame in a slot. -/
theorem frameAt_dropFrames_none {r : Receiver} {other : UInt32} (h : r.frameAt other = none)
    (fid : UInt32) (n : Nat) : (r.dropFrames fid n).frameAt other = none := by
  have hd : Dropped (fid.toNat + n) r (r.dropFrames fid n) := dropFrames_spec n r fid (Nat.le_refl _)
  cases hat : (r.dropFrames fid n).frameAt other with
  | none => rfl
  | some f =>
    obtain ⟨hget, hid⟩ := frameAt_eq_some.mp hat
    rw [frameAt_eq_some.mpr ⟨hd.ring other f hget, hid⟩] at h
    cases h

/-- The loop leaves no frame of the ids it goes over. -/
theorem dropFrames_gone {n : Nat} {r : Receiver} {fid other : UInt32} (hle : fid ≤ other)
    (hlt : other.toNat < fid.toNat + n) : (r.dropFrames fid n).frameAt other = none := by
  rw [UInt32.le_iff_toNat_le] at hle
  have hother := other.toNat_lt
  induction n generalizing r fid with
  | zero => omega
  | succ n ih =>
    unfold dropFrames
    rcases Nat.eq_or_lt_of_le hle with heq | hne
    · obtain rfl : fid = other := UInt32.toNat_inj.mp heq
      cases hf : r.frameAt fid with
      | none => exact frameAt_dropFrames_none hf _ n
      | some f =>
        refine frameAt_dropFrames_none ?_ _ n
        simp [frameAt]
    · have hnext : (fid + 1).toNat = fid.toNat + 1 := by
        rw [UInt32.toNat_add]
        show (fid.toNat + 1) % 2 ^ 32 = fid.toNat + 1
        omega
      split
      · exact ih (by omega) (by omega)
      · exact ih (by omega) (by omega)

end Receiver

end RemotePlay.Client
