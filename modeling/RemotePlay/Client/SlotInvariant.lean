import RemotePlay.Client.Fec
import RemotePlay.Client.FrameOwnership
import RemotePlay.Client.Reassembly

/-!
# Invariants of the frames in the ring

The receiver starts a frame from a header, stores fragments in it, rebuilds
fragments and marks it complete, and does nothing else to the frame of a slot.
`SlotRule fits P` says that `P` is kept by each of these. Then it holds of every
frame in the ring after any calls whose packets meet `fits` (`kept_run`), and a
frame that is not marked complete has not got all it counts.
-/

namespace RemotePlay.Client

open Lib Protocol

namespace FrameData

/-- The counter of a frame counts its marked fragments. -/
def Counted (f : FrameData) : Prop :=
  ∃ got, Tally f.fragmentMap.get f.fragmentsReceived.toNat f.totalFragments.toNat got

/-- And a frame that is marked complete has them all. -/
structure Tallied (f : FrameData) : Prop where
  counted : f.Counted
  complete : f.isComplete = true → f.fragmentsReceived = f.totalFragments

variable {f g : FrameData}

theorem counted_start (f : FrameData) (header : VideoHeader) (nowUs : UInt64) :
    (f.start header nowUs).Counted := by
  obtain ⟨-, -, -, hreceived, -, -, hmap⟩ := f.start_eq header nowUs
  refine ⟨∅, ?_⟩
  rw [hreceived, funext hmap]
  exact Tally.empty _

/-- A missing fragment is marked and counted. -/
theorem Counted.mark (h : f.Counted) {i : Nat} (hi : i < f.totalFragments.toNat)
    (hmap : f.fragmentMap.get i = false) (htotal : g.totalFragments = f.totalFragments)
    (hmark : g.fragmentMap = f.fragmentMap.set i true)
    (hcount : g.fragmentsReceived = f.fragmentsReceived + 1) : g.Counted := by
  obtain ⟨got, htally⟩ := h
  have hlt := htally.count_lt hi hmap
  have hnext : g.fragmentsReceived.toNat = f.fragmentsReceived.toNat + 1 := by
    have := f.totalFragments.toNat_lt
    rw [hcount, UInt16.toNat_add]
    show (f.fragmentsReceived.toNat + 1) % 65536 = _
    omega
  refine ⟨insert i got, ?_⟩
  rw [htotal, hnext, hmark]
  exact htally.mark hi hmap

theorem Counted.store (h : f.Counted) {header : VideoHeader} (payload : Mem)
    (hi : header.fragmentIndex < f.totalFragments)
    (hmap : f.fragmentMap.get header.fragmentIndex.toNat = false) :
    (f.store header payload).Counted := by
  unfold FrameData.store
  dsimp only
  split
  · exact h.mark (UInt16.lt_iff_toNat_lt.mp hi) hmap rfl rfl rfl
  · exact h

theorem Counted.full_iff (h : f.Counted) : f.fragmentsReceived = f.totalFragments ↔
    ∀ i, i < f.totalFragments.toNat → f.fragmentMap.get i = true := by
  obtain ⟨got, htally⟩ := h
  rw [← UInt16.toNat_inj, htally.full_iff]
  exact forall₂_congr fun i hi => (htally.map_eq i hi).symm

/-- Nothing of a complete frame is missing. -/
theorem Tallied.incomplete (h : f.Tallied) {i : Nat} (hi : i < f.totalFragments.toNat)
    (hmap : f.fragmentMap.get i = false) : f.isComplete = false := by
  by_contra hc
  have hset := h.counted.full_iff.mp (h.complete (by simpa using hc)) i hi
  rw [hmap] at hset
  cases hset

end FrameData

namespace Receiver

theorem le_max_left (a b : UInt32) : a ≤ max a b := by
  show a ≤ if a ≤ b then b else a
  split
  · next h => exact h
  · exact UInt32.le_refl a

/-- The scan of `TryRecover` remembers a fragment that is missing, if it meets one. -/
theorem scanMissing_missing (f : FrameData) (groupStart : UInt16) (missing : UInt16 × UInt16)
    (n i : Nat) : scanMissing f groupStart missing n i = missing ∨
      (scanMissing f groupStart missing n i).2.toNat < f.totalFragments.toNat ∧
        f.fragmentMap.get (scanMissing f groupStart missing n i).2.toNat = false := by
  induction n generalizing missing i with
  | zero => exact .inl rfl
  | succ n ih =>
    unfold scanMissing
    dsimp only
    split
    · exact .inl rfl
    next hin =>
    split
    · exact ih missing (i + 1)
    next hmap =>
    rcases ih (missing.1 + 1, groupStart + UInt16.ofNat i) (i + 1) with heq | hvalid
    · rw [heq]
      refine .inr ⟨?_, by simpa using hmap⟩
      rw [not_or, ge_iff_le, UInt16.le_iff_toNat_le] at hin
      exact Nat.not_le.mp hin.1
    · exact .inr hvalid

/-- `TryRecover` rebuilds a fragment that is missing, of a frame that is not complete, inside the
buffer. -/
theorem onlyMissing_missing {f : FrameData} {frameId : UInt32} {fec : FECHeader}
    {missingIndex : UInt16} (h : onlyMissing f frameId fec = some missingIndex) :
    f.frameId = frameId ∧ f.isComplete = false ∧
      missingIndex.toNat < f.totalFragments.toNat ∧
      f.fragmentMap.get missingIndex.toNat = false ∧
      missingIndex.toNat * maxUdpPayload + fec.dataSize.toNat ≤ f.buffer.size := by
  unfold onlyMissing at h
  split at h
  · cases h
  next hok =>
  rw [not_or, not_not, Bool.not_eq_true] at hok
  dsimp only at h
  split at h
  · next hone =>
    cases h
    rcases scanMissing_missing f fec.fragmentStart (0, 0) fec.fragmentCount.toNat 0 with heq | hin
    · rw [heq] at hone
      exact absurd hone.1 (by decide)
    · exact ⟨hok.1, hok.2, hin.1, hin.2, hone.2⟩
  · cases h

/-! ## What is kept of a frame -/

/-- `P last f` is kept by all that is done to the frame `f` of a slot while `last` is the newest
frame completed, as long as the packets that get to it meet `fits`. -/
structure SlotRule (fits : FrameData → VideoHeader → Prop) (P : UInt32 → FrameData → Prop) :
    Prop where
  later {last last' : UInt32} {f : FrameData} : last ≤ last' → P last f → P last' f
  start {last : UInt32} {f : FrameData} {header : VideoHeader} {nowUs : UInt64} :
    header.totalFragments ≤ 1024 → fits (f.start header nowUs) header →
      P last (f.start header nowUs)
  store {last : UInt32} {f : FrameData} {header : VideoHeader} {payload : Mem} :
    P last f → fits f header → header.fragmentIndex < f.totalFragments →
      f.fragmentMap.get header.fragmentIndex.toNat = false →
      header.fragmentIndex.toNat * maxUdpPayload + header.dataSize.toNat ≤ f.buffer.size →
      P last (f.store header payload)
  recover {last : UInt32} {f : FrameData} {fec : FECHeader} {pkt : Packet}
    {groupStart missingIndex : UInt16} :
    P last f → onlyMissing f f.frameId fec = some missingIndex →
      P last (recover f fec pkt groupStart missingIndex)
  finish {last : UInt32} {f : FrameData} : P last f → f.fragmentsReceived = f.totalFragments →
    P (max last f.frameId) { f with isComplete := true }

/-- The count is kept, whatever the packets are. -/
theorem slotRule_tallied (fits : FrameData → VideoHeader → Prop) :
    SlotRule fits fun _ f => f.Tallied where
  later _ h := h
  start {_ f header nowUs} _ _ := by
    refine ⟨FrameData.counted_start f header nowUs, fun hc => ?_⟩
    rw [(f.start_eq header nowUs).2.2.2.2.1] at hc
    cases hc
  store {_ f header payload} h _ hi hmap _ := by
    refine ⟨h.counted.store payload hi hmap, fun hc => ?_⟩
    rw [f.isComplete_store header payload, h.incomplete (UInt16.lt_iff_toNat_lt.mp hi) hmap] at hc
    cases hc
  recover {_ f fec pkt groupStart missingIndex} h honly := by
    obtain ⟨-, hincomplete, hi, hmap, -⟩ := onlyMissing_missing honly
    refine ⟨h.counted.mark hi hmap rfl rfl rfl, fun hc => ?_⟩
    change f.isComplete = true at hc
    rw [hincomplete] at hc
    cases hc
  finish h hfull := ⟨h.counted, fun _ => hfull⟩

section
variable {fits : FrameData → VideoHeader → Prop} {P : UInt32 → FrameData → Prop}

/-- A fragment that does not fit the buffer is not stored. -/
theorem SlotRule.stored (rule : SlotRule fits P) {last : UInt32} {f : FrameData}
    {header : VideoHeader} (h : P last f) (hfits : fits f header)
    (hi : header.fragmentIndex < f.totalFragments)
    (hmap : f.fragmentMap.get header.fragmentIndex.toNat = false) (payload : Mem) :
    P last (f.store header payload) := by
  by_cases hin : header.fragmentIndex.toNat * maxUdpPayload + header.dataSize.toNat ≤ f.buffer.size
  · exact rule.store h hfits hi hmap hin
  · have hkept : f.store header payload = f := if_neg hin
    rwa [hkept]

end

/-- `P` of a frame that is marked complete as soon as its count is reached. -/
structure Settled (P : UInt32 → FrameData → Prop) (last : UInt32) (f : FrameData) : Prop where
  holds : P last f
  unfinished : f.isComplete = false → f.fragmentsReceived ≠ f.totalFragments

/-- Every frame in the ring is settled. -/
def Kept (P : UInt32 → FrameData → Prop) (r : Receiver) : Prop :=
  ∀ i f, r.frameRing.get i = some f → Settled P r.lastCompletedFrameId f

/-- `r'` is `r` with a settled frame of its id in the slot of `fid`. -/
structure Lands (P : UInt32 → FrameData → Prop) (fid : UInt32) (r r' : Receiver) (g : FrameData) :
    Prop where
  ring : r'.frameRing = r.frameRing.insert fid (some g)
  last : r.lastCompletedFrameId ≤ r'.lastCompletedFrameId
  frameId : g.frameId = fid
  settled : Settled P r'.lastCompletedFrameId g

variable {fits : FrameData → VideoHeader → Prop} {P : UInt32 → FrameData → Prop}
variable {r r' : Receiver}

theorem Kept.congr (h : Kept P r) (hring : r'.frameRing = r.frameRing)
    (hlast : r'.lastCompletedFrameId = r.lastCompletedFrameId) : Kept P r' := by
  unfold Kept
  rw [hring, hlast]
  exact h

/-- Fewer frames in the ring. -/
theorem Kept.sub (h : Kept P r)
    (hring : ∀ i f, r'.frameRing.get i = some f → r.frameRing.get i = some f)
    (hlast : r'.lastCompletedFrameId = r.lastCompletedFrameId) : Kept P r' := by
  intro i f hf
  rw [hlast]
  exact h i f (hring i f hf)

theorem Kept.lands (rule : SlotRule fits P) (h : Kept P r) {fid : UInt32} {g : FrameData}
    (hlands : Lands P fid r r' g) : Kept P r' := by
  intro i f hf
  rw [hlands.ring] at hf
  rcases FixedRingBuffer.get_insert_cases hf with hg | hold
  · cases hg
    exact hlands.settled
  · have hsettled := h i f hold
    exact ⟨rule.later hlands.last hsettled.holds, hsettled.unfinished⟩

theorem Lands.get {fid : UInt32} {g : FrameData} (h : Lands P fid r r' g) :
    r'.frameRing.get fid = some g := by
  rw [h.ring, FixedRingBuffer.get_insert_self]

/-- A frame that lands where another one has been put before. -/
theorem Lands.after {r₁ : Receiver} {fid : UInt32} {g g₁ : FrameData} (h : Lands P fid r₁ r' g)
    (hring : r₁.frameRing = r.frameRing.insert fid (some g₁))
    (hlast : r.lastCompletedFrameId ≤ r₁.lastCompletedFrameId) : Lands P fid r r' g := by
  refine ⟨?_, UInt32.le_trans hlast h.last, h.frameId, h.settled⟩
  rw [h.ring, hring, FixedRingBuffer.insert_insert]

/-! ## The methods -/

theorem lands_complete (rule : SlotRule fits P) {fid : UInt32} {f : FrameData}
    (h : P r.lastCompletedFrameId f) (hid : f.frameId = fid) :
    ∃ g, Lands P fid r (r.complete f fid) g := by
  unfold complete
  split
  · next hfull =>
    refine ⟨_, rfl, le_max_left _ _, hid, ?_, fun hc => nomatch hc⟩
    rw [← hid]
    exact rule.finish h hfull
  · next hne => exact ⟨f, rfl, UInt32.le_refl _, hid, h, fun _ => hne⟩

theorem lands_tryRecover (rule : SlotRule fits P) (groupStart : UInt16) {fid : UInt32}
    {f : FrameData} (hf : r.frameRing.get fid = some f) (h : P r.lastCompletedFrameId f) :
    r.tryRecover fid groupStart = r ∨ ∃ g, Lands P fid r (r.tryRecover fid groupStart) g := by
  rw [tryRecover_eq]
  cases hrec : r.recovery fid groupStart with
  | none => exact .inl rfl
  | some found =>
    obtain ⟨f', group, missingIndex⟩ := found
    obtain ⟨hf', -, -, -, -, honly⟩ := recovery_eq_some.mp hrec
    rw [hf] at hf'
    cases hf'
    have hid := (onlyMissing_missing honly).1
    dsimp only
    cases group.fecPacket with
    | none => exact .inl rfl
    | some pkt =>
      have hrecovered : P r.lastCompletedFrameId
          (recover f group.fecHeader pkt groupStart missingIndex) :=
        rule.recover h (by rw [hid]; exact honly)
      exact .inr (lands_complete rule hrecovered hid)

theorem lands_storeFragment (rule : SlotRule fits P) {header : VideoHeader} {f : FrameData}
    (hf : r.frameRing.get header.frameId = some f) (hid : f.frameId = header.frameId)
    (h : P r.lastCompletedFrameId f) (hfits : fits f header) (payload : Mem) :
    ∃ g, Lands P header.frameId r (r.storeFragment header payload) g := by
  unfold storeFragment
  rw [hf]
  dsimp only
  by_cases hnew : header.fragmentIndex < f.totalFragments ∧
      f.fragmentMap.get header.fragmentIndex.toNat = false
  · have hstored := rule.stored h hfits hnew.1 hnew.2 payload
    have hid' : (f.store header payload).frameId = header.frameId :=
      (f.grows_store header payload).frameId.trans hid
    have hslot : (r.setSlot header.frameId (some (f.store header payload))).frameRing.get
        header.frameId = some (f.store header payload) := FixedRingBuffer.get_insert_self _ _ _
    rw [if_pos hnew]
    rcases lands_tryRecover rule (header.fragmentIndex / 5 * 5) hslot hstored with heq | ⟨g, hg⟩
    · obtain ⟨g', hg'⟩ := lands_complete rule (r := r.setSlot _ _) hstored hid'
      rw [heq, hslot]
      exact ⟨g', hg'.after rfl (UInt32.le_refl _)⟩
    · obtain ⟨g', hg'⟩ := lands_complete rule hg.settled.holds hg.frameId
      rw [hg.get]
      exact ⟨g', (hg'.after hg.ring hg.last).after rfl (UInt32.le_refl _)⟩
  · rw [if_neg hnew, hf]
    exact lands_complete rule h hid

/-- The packet meets `fits` at the frame it gets to. -/
def PacketFits (fits : FrameData → VideoHeader → Prop) (r : Receiver) (header : VideoHeader)
    (nowUs : UInt64) : Prop :=
  ∀ r', r.gate header = some r' → r'.Accepts header → fits (r'.frameFor header nowUs) header

theorem last_gate {header : VideoHeader} (h : r.gate header = some r') :
    r'.lastCompletedFrameId = r.lastCompletedFrameId := by
  unfold gate at h
  split at h
  · cases h
    rfl
  · split at h
    · cases h
      rfl
    · cases h

theorem last_returnToPool (r : Receiver) (f : FrameData) :
    (r.returnToPool f).lastCompletedFrameId = r.lastCompletedFrameId := by
  unfold returnToPool
  split <;> rfl

theorem last_ensureFrame (r : Receiver) (header : VideoHeader) (nowUs : UInt64) :
    (r.ensureFrame header nowUs).lastCompletedFrameId = r.lastCompletedFrameId := by
  have hstart : ∀ r : Receiver, (r.startFrame header nowUs).lastCompletedFrameId =
      r.lastCompletedFrameId := by
    intro r
    unfold startFrame getFromPool
    split <;> rfl
  unfold ensureFrame
  split
  · exact hstart r
  · split
    · exact (hstart _).trans (last_returnToPool r _)
    · rfl

/-- The frame of an accepted packet. -/
theorem Kept.frameFor (rule : SlotRule fits P) (h : Kept P r) {header : VideoHeader}
    {nowUs : UInt64} (hacc : r.Accepts header) (hfits : fits (r.frameFor header nowUs) header) :
    P r.lastCompletedFrameId (r.frameFor header nowUs) := by
  rcases frameFor_cases r header nowUs with hf | ⟨-, f, heq, -⟩
  · exact (h _ _ (frameAt_eq_some.mp hf).1).holds
  · rw [heq] at hfits ⊢
    exact rule.start (by simpa using fun hlt => hacc.2 (.inl hlt)) hfits

theorem Kept.processPacket (rule : SlotRule fits P) (h : Kept P r) {header : VideoHeader}
    {nowUs : UInt64} (hfits : PacketFits fits r header nowUs) (payload : Mem) :
    Kept P (r.processPacket header payload nowUs) := by
  cases hgate : r.gate header with
  | none => rwa [processPacket_gate_none hgate]
  | some r₁ =>
    obtain ⟨hstarted, hring, -⟩ := gate_some hgate
    have h₁ : Kept P r₁ := h.congr hring (last_gate hgate)
    rw [processPacket_gate hgate]
    by_cases hacc : r₁.Accepts header
    · have hfits := hfits r₁ hgate hacc
      have hens := frameRing_ensureFrame r₁ header nowUs
      have hlast := last_ensureFrame r₁ header nowUs
      have hframe := h₁.frameFor rule hacc hfits
      have hslot : (r₁.ensureFrame header nowUs).frameRing.get header.frameId =
          some (r₁.frameFor header nowUs) := by
        rw [hens, FixedRingBuffer.get_insert_self]
      rw [processPacket_accepted hstarted hacc]
      obtain ⟨g, hg⟩ := lands_storeFragment rule hslot (frameFor_frameId r₁ header nowUs)
        (by rwa [hlast]) hfits payload
      exact h₁.lands rule (hg.after hens (hlast ▸ UInt32.le_refl _))
    · rwa [processPacket_refused hstarted hacc]

/-- The frames at the call of `TryRecover`. -/
theorem Kept.atRecover (rule : SlotRule fits P) (h : Kept P r) {header : VideoHeader}
    {payload : Mem} {nowUs : UInt64} (hfits : PacketFits fits r header nowUs)
    (hat : r.atRecover header payload nowUs = some r') {i : UInt32} {f : FrameData}
    (hf : r'.frameRing.get i = some f) : P r'.lastCompletedFrameId f := by
  obtain ⟨r₁, g, hgate, hacc, hg, hi, hmiss, rfl⟩ := atRecover_eq_store hat
  have h₁ : Kept P r₁ := h.congr (gate_some hgate).2.1 (last_gate hgate)
  have hfits := hfits r₁ hgate hacc
  have hframe := h₁.frameFor rule hacc hfits
  rw [frameRing_ensureFrame, FixedRingBuffer.get_insert_self] at hg
  cases hg
  rw [frameRing_setSlot, frameRing_ensureFrame, FixedRingBuffer.insert_insert] at hf
  show P (r₁.ensureFrame header nowUs).lastCompletedFrameId f
  rw [last_ensureFrame]
  rcases FixedRingBuffer.get_insert_cases hf with hnew | hold
  · cases hnew
    exact rule.stored hframe hfits hi hmiss payload
  · exact (h₁ i f hold).holds

theorem Kept.tryRecover (rule : SlotRule fits P) (h : Kept P r) (fid : UInt32)
    (groupStart : UInt16) : Kept P (r.tryRecover fid groupStart) := by
  cases hf : r.frameRing.get fid with
  | none =>
    have hsame : r.tryRecover fid groupStart = r := by
      unfold Receiver.tryRecover
      rw [hf]
    rwa [hsame]
  | some f =>
    rcases lands_tryRecover rule groupStart hf (h fid f hf).holds with heq | ⟨g, hg⟩
    · rwa [heq]
    · exact h.lands rule hg

theorem Kept.processFEC (rule : SlotRule fits P) (h : Kept P r) (header : FECHeader)
    (payload : Mem) : Kept P (r.processFEC header payload) := by
  unfold Receiver.processFEC
  split
  · exact h
  split
  · split
    · exact h.congr rfl rfl
    · next pkt pool _ =>
      have hstored : Kept P (r.storeGroup header payload pkt pool) := h.congr rfl rfl
      exact hstored.tryRecover rule header.frameId header.fragmentStart
  · exact h

theorem Kept.getNextFrame (h : Kept P r) : Kept P r.getNextFrame.2 := by
  rcases getNextFrame_cases r with heq | ⟨f, -, -, heq⟩
  · rwa [heq]
  · rw [heq]
    refine h.sub (fun i g hg => ?_) rfl
    rcases FixedRingBuffer.get_insert_cases hg with hnone | hold
    · cases hnone
    · exact hold

theorem last_dropFrames (n : Nat) (r : Receiver) (fid : UInt32) :
    (r.dropFrames fid n).lastCompletedFrameId = r.lastCompletedFrameId := by
  induction n generalizing r fid with
  | zero => rfl
  | succ n ih =>
    unfold dropFrames
    split
    · next f _ => exact (ih _ (fid + 1)).trans (last_returnToPool r f)
    · exact ih r (fid + 1)

theorem Kept.forceAdvanceTo (h : Kept P r) (frameId : UInt32) :
    Kept P (r.forceAdvanceTo frameId) := by
  have hlast : (r.forceAdvanceTo frameId).lastCompletedFrameId = r.lastCompletedFrameId := by
    unfold Receiver.forceAdvanceTo
    split
    · rfl
    · exact last_dropFrames _ r _
  refine h.sub (fun i f hf => ?_) hlast
  rcases r.forceAdvanceTo_cases frameId with ⟨-, heq⟩ | ⟨-, r₁, hd, heq⟩ <;> rw [heq] at hf
  · exact hf
  · exact hd.ring i f hf

theorem Kept.returnAll (h : Kept P r) (frames : List FrameData) : Kept P (r.returnAll frames) := by
  induction frames generalizing r with
  | nil => exact h
  | cons f frames ih => exact ih (h.congr (frameRing_returnToPool r f) (last_returnToPool r f))

end Receiver

/-! ## Runs -/

namespace FrameFlow

open Receiver

variable {fits : FrameData → VideoHeader → Prop} {P : UInt32 → FrameData → Prop}

/-- The packets of the call meet `fits`. -/
def CallFits (fits : FrameData → VideoHeader → Prop) (s : FrameFlow) : FrameCall → Prop
  | .processPacket header _ nowUs => PacketFits fits s.receiver header nowUs
  | _ => True

theorem kept_step (rule : SlotRule fits P) (s : FrameFlow) (call : FrameCall)
    (h : Kept P s.receiver) (hfits : CallFits fits s call) : Kept P (s.step call).receiver := by
  cases call with
  | processPacket header payload nowUs => exact h.processPacket rule hfits payload
  | processFEC header payload => exact h.processFEC rule header payload
  | getNextFrame => exact h.getNextFrame
  | findLatestAvailableKeyframe => exact h
  | forceAdvanceTo frameId => exact h.forceAdvanceTo frameId
  | validateSequence seq => exact h.congr rfl rfl
  | drop i =>
    simp only [step]
    split
    · exact h
    · exact h.congr (frameRing_returnToPool _ _) (last_returnToPool _ _)
  | pushFrame i now =>
    simp only [step]
    split
    · exact h
    · exact h.returnAll _
  | popFrame currentSyncTimeUs now => exact h
  | reset nextExpectedId => exact h.returnAll _

/-- **The rule for runs.** -/
theorem kept_run (rule : SlotRule fits P) (poolSize : Nat) (maxFrames : UInt64)
    {calls : List FrameCall} (hfits : Along step (CallFits fits) (init poolSize maxFrames) calls) :
    Kept P (run step (init poolSize maxFrames) calls).receiver := by
  have h0 : Kept P (init poolSize maxFrames).receiver := fun i f hf => nomatch hf
  exact run_invariant (fun s call hs hcall => kept_step rule s call hs hcall) h0 hfits

/-- The rule for packets of any kind. -/
theorem kept_reachable (rule : SlotRule (fun _ _ => True) P) (poolSize : Nat) (maxFrames : UInt64)
    (calls : List FrameCall) : Kept P (run step (init poolSize maxFrames) calls).receiver := by
  have h0 : Kept P (init poolSize maxFrames).receiver := fun i f hf => nomatch hf
  refine run_invariant' (fun s call hs => kept_step rule s call hs ?_) h0 calls
  cases call with
  | processPacket header payload nowUs => exact fun _ _ _ => trivial
  | _ => trivial

end FrameFlow

end RemotePlay.Client
