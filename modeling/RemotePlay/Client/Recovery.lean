import RemotePlay.Client.Rebuild

/-!
# Recovery and plain delivery

The fragments and the parity packets of a frame arrive in any order, some of
them not at all, among the packets of other frames. A frame that becomes
complete is the frame delivered without loss, unless its last fragment was
rebuilt from a longer parity packet.
-/

namespace RemotePlay.Client

open Lib Protocol Host

namespace Receiver

/-! ## The frame and its groups -/

/-- A group that was received for frame `fid` has a parity packet of `frame`. -/
def Sent (frame : EncodedPacket) (fid : UInt32) (group : FECGroup) : Prop :=
  group.fecReceived = true → group.frameId = fid → ∀ pkt, group.fecPacket = some pkt →
    frame.ParityOf group.fecHeader pkt.data.get

/-- What the packets of `frame`, sent as frame `fid`, leave in the receiver. -/
structure Genuine (frame : EncodedPacket) (fid : UInt32) (r : Receiver) : Prop where
  filling : ∀ f, r.frameAt fid = some f → f.Filling frame
  parity : ∀ i, Sent frame fid (r.fecRing.get i)

def LastExact (frame : EncodedPacket) (fid : UInt32) (r : Receiver) : Prop :=
  ∀ f, r.frameAt fid = some f → f.LastExact frame

/-- `TryRecover` rebuilds the last fragment of the frame from a longer parity packet. -/
def RebuildsShort (frame : EncodedPacket) (fid : UInt32) (r : Receiver) (groupStart : UInt16) :
    Prop :=
  ∃ f group missingIndex, r.recovery fid groupStart = some (f, group, missingIndex) ∧
    group.fecPacket ≠ none ∧ missingIndex.toNat + 1 = frame.totalFrags.toNat ∧
    (frame.fragmentSize missingIndex).toNat < group.fecHeader.dataSize.toNat

/-- `r'` is genuine if `r` is, and its last fragment is exact if and only if that of `r` is. -/
def Carries (frame : EncodedPacket) (fid : UInt32) (r r' : Receiver) : Prop :=
  r.Genuine frame fid →
    r'.Genuine frame fid ∧ (r'.LastExact frame fid ↔ r.LastExact frame fid)

variable {frame : EncodedPacket} {fid : UInt32} {r r' r'' : Receiver}

theorem Carries.refl (r : Receiver) : Carries frame fid r r := fun h => ⟨h, Iff.rfl⟩

theorem Carries.trans (h : Carries frame fid r r') (h' : Carries frame fid r' r'') :
    Carries frame fid r r'' := fun hr =>
  ⟨(h' (h hr).1).1, (h' (h hr).1).2.trans (h hr).2⟩

/-- The frame does not change. -/
theorem carries_of_frameAt (hframe : r'.frameAt fid = r.frameAt fid)
    (hparity : (∀ i, Sent frame fid (r.fecRing.get i)) → ∀ i, Sent frame fid (r'.fecRing.get i)) :
    Carries frame fid r r' := by
  intro h
  refine ⟨⟨?_, hparity h.parity⟩, ?_⟩
  · rw [hframe]
    exact h.filling
  · unfold LastExact
    rw [hframe]

/-- Neither the frame nor the groups change. -/
theorem carries_of_same (hframe : r'.frameAt fid = r.frameAt fid) (hfec : r'.fecRing = r.fecRing) :
    Carries frame fid r r' := by
  refine carries_of_frameAt hframe fun h => ?_
  rw [hfec]
  exact h

/-- The frame `f` of its slot is written back as `g`. -/
theorem carries_of_slot {f g : FrameData} (hf : r.frameAt fid = some f)
    (hg : r'.frameAt fid = some g) (hfec : r'.fecRing = r.fecRing)
    (h : f.Filling frame → g.Filling frame ∧ (g.LastExact frame ↔ f.LastExact frame)) :
    Carries frame fid r r' := by
  intro hr
  obtain ⟨hfilling, hexact⟩ := h (hr.filling f hf)
  refine ⟨⟨fun g' hg' => ?_, ?_⟩, ?_⟩
  · rw [hg] at hg'
    cases hg'
    exact hfilling
  · rw [hfec]
    exact hr.parity
  · unfold LastExact
    rw [hf, hg]
    simp only [Option.some.injEq, forall_eq']
    exact hexact

theorem frameAt_setSlot (r : Receiver) {g : FrameData} (hg : g.frameId = fid) :
    (r.setSlot fid (some g)).frameAt fid = some g := by
  refine frameAt_eq_some.mpr ⟨?_, hg⟩
  rw [frameRing_setSlot, FixedRingBuffer.get_insert_self]

theorem frameAt_complete (r : Receiver) {g : FrameData} (hg : g.frameId = fid) :
    (r.complete g fid).frameAt fid = some
      (if g.fragmentsReceived = g.totalFragments then { g with isComplete := true } else g) := by
  refine frameAt_eq_some.mpr ⟨?_, ?_⟩
  · rw [complete_eq, FixedRingBuffer.get_insert_self]
  · split <;> exact hg

/-! ## TryRecover -/

section
variable {groupStart missingIndex : UInt16} {f : FrameData} {group : FECGroup} {pkt : Packet}

theorem rebuildsShort_iff (hrec : r.recovery fid groupStart = some (f, group, missingIndex)) :
    r.RebuildsShort frame fid groupStart ↔
      group.fecPacket ≠ none ∧ missingIndex.toNat + 1 = frame.totalFrags.toNat ∧
        (frame.fragmentSize missingIndex).toNat < group.fecHeader.dataSize.toNat := by
  constructor
  · rintro ⟨_, _, _, hsome, hshort⟩
    rw [hrec] at hsome
    cases hsome
    exact hshort
  · exact fun hshort => ⟨f, group, missingIndex, hrec, hshort⟩

theorem not_rebuildsShort_of_none (hrec : r.recovery fid groupStart = none) :
    ¬ r.RebuildsShort frame fid groupStart := by
  rintro ⟨_, _, _, hsome, -⟩
  rw [hrec] at hsome
  cases hsome

/-- What is rebuilt is the one fragment that the frame lacks of a group sent for it. -/
theorem Genuine.recovery (h : r.Genuine frame fid)
    (hrec : r.recovery fid groupStart = some (f, group, missingIndex))
    (hpkt : group.fecPacket = some pkt) :
    r.frameAt fid = some f ∧ group.fecHeader.fragmentStart = groupStart ∧
      frame.ParityOf group.fecHeader pkt.data.get ∧ Lacks f group.fecHeader missingIndex := by
  obtain ⟨hf, rfl, hreceived, hid, hstart, hmissing⟩ := recovery_eq_some.mp hrec
  have hparity := h.parity _ hreceived hid pkt hpkt
  have hat : r.frameAt fid = some f :=
    frameAt_eq_some.mpr ⟨hf, frameId_of_onlyMissing hmissing⟩
  have hfilling := h.filling f hat
  refine ⟨hat, hstart, hparity, lacks_of_onlyMissing hmissing ?_ ?_⟩
  · rw [hfilling.total]
    exact hparity.inside
  · rw [hfilling.total]
    exact hfilling.mapSize

/-- The last fragment becomes too long when it is the one rebuilt. -/
theorem rebuild_genuine (hfit : frame.Fits) (h : r.Genuine frame fid)
    (hrec : r.recovery fid groupStart = some (f, group, missingIndex))
    (hpkt : group.fecPacket = some pkt) :
    (r.complete (recover f group.fecHeader pkt groupStart missingIndex) fid).Genuine frame fid ∧
      ((r.complete (recover f group.fecHeader pkt groupStart missingIndex) fid).LastExact
          frame fid ↔ r.LastExact frame fid ∧ ¬ r.RebuildsShort frame fid groupStart) := by
  obtain ⟨hat, rfl, hparity, hlacks⟩ := h.recovery hrec hpkt
  obtain ⟨hfilling, hexact⟩ := (h.filling f hat).recover hfit hparity hlacks
  have hat' := frameAt_complete r
    (g := recover f group.fecHeader pkt group.fecHeader.fragmentStart missingIndex)
    (frameAt_eq_some.mp hat).2
  refine ⟨⟨fun g hg => ?_, ?_⟩, ?_⟩
  · rw [hat'] at hg
    cases hg
    exact hfilling.mark
  · rw [(framesOnly_complete r _ fid).fecRing]
    exact h.parity
  · -- the parity packet is never shorter than the fragment
    have hcovers : (frame.fragmentSize missingIndex).toNat ≤ group.fecHeader.dataSize.toNat := by
      obtain ⟨j, hj, rfl⟩ := hlacks.mem
      exact hparity.covers j hj
    have hsome : group.fecPacket ≠ none := by
      rw [hpkt]
      exact Option.some_ne_none pkt
    unfold LastExact
    rw [hat', hat, rebuildsShort_iff hrec, and_iff_right hsome]
    simp only [Option.some.injEq, forall_eq']
    rw [FrameData.lastExact_mark, hexact, not_and, not_lt]
    refine and_congr_right fun _ => imp_congr_right fun _ => ?_
    rw [← UInt16.toNat_inj]
    omega

/-- What `TryRecover` does to the frame, and when it makes the last fragment too long. -/
theorem tryRecover_genuine (hfit : frame.Fits) (h : r.Genuine frame fid) (groupStart : UInt16) :
    (r.tryRecover fid groupStart).Genuine frame fid ∧
      ((r.tryRecover fid groupStart).LastExact frame fid ↔
        r.LastExact frame fid ∧ ¬ r.RebuildsShort frame fid groupStart) := by
  rw [tryRecover_eq]
  cases hrec : r.recovery fid groupStart with
  | none => exact ⟨h, (and_iff_left (not_rebuildsShort_of_none hrec)).symm⟩
  | some rebuilt =>
    obtain ⟨f, group, missingIndex⟩ := rebuilt
    dsimp only
    cases hpkt : group.fecPacket with
    | none =>
      refine ⟨h, (and_iff_left ?_).symm⟩
      rw [rebuildsShort_iff hrec]
      exact fun hshort => hshort.1 hpkt
    | some pkt => exact rebuild_genuine hfit h hrec hpkt

end

/-! ## ProcessPacket -/

theorem carries_gate {header : VideoHeader} (h : r.gate header = some r') :
    Carries frame fid r r' := by
  obtain ⟨-, hring, -, hfec, -⟩ := gate_some h
  exact carries_of_same (frameAt_congr hring fid) hfec

/-- A frame that starts over has got nothing. -/
theorem carries_ensureFrame {header : VideoHeader} (hid : header.frameId = fid)
    (htotal : header.totalFragments = frame.totalFrags) (nowUs : UInt64) :
    Carries frame fid r (r.ensureFrame header nowUs) := by
  have hfec := (framesOnly_ensureFrame r header nowUs).fecRing
  have hat : (r.ensureFrame header nowUs).frameAt fid = some (r.frameFor header nowUs) := by
    refine frameAt_eq_some.mpr ⟨?_, (frameFor_frameId r header nowUs).trans hid⟩
    rw [frameRing_ensureFrame, hid, FixedRingBuffer.get_insert_self]
  have hcases := frameFor_cases r header nowUs
  rw [hid] at hcases
  rcases hcases with hthere | ⟨hnone, f, hstart, -⟩
  · exact carries_of_same (hat.trans hthere.symm) hfec
  · intro hr
    rw [hstart] at hat
    refine ⟨⟨fun g hg => ?_, ?_⟩, iff_of_true (fun g hg => ?_) fun g hg => ?_⟩
    · rw [hat] at hg
      cases hg
      exact f.filling_start htotal nowUs
    · rw [hfec]
      exact hr.parity
    · rw [hat] at hg
      cases hg
      exact f.lastExact_start header nowUs
    · rw [hnone] at hg
      cases hg

theorem carries_complete {f : FrameData} (hf : r.frameAt fid = some f) :
    Carries frame fid r (r.complete f fid) :=
  carries_of_slot hf (frameAt_complete r (frameAt_eq_some.mp hf).2)
    (framesOnly_complete r f fid).fecRing fun h => ⟨h.mark, FrameData.lastExact_mark⟩

theorem frameAt_ensureFrame {header : VideoHeader} {nowUs : UInt64} {f : FrameData}
    (hf : (r.ensureFrame header nowUs).frameRing.get header.frameId = some f) :
    (r.ensureFrame header nowUs).frameAt header.frameId = some f := by
  refine frameAt_eq_some.mpr ⟨hf, ?_⟩
  rw [frameRing_ensureFrame, FixedRingBuffer.get_insert_self] at hf
  cases hf
  exact frameFor_frameId r header nowUs

theorem atRecover_eq_some {header : VideoHeader} {payload : Mem} {nowUs : UInt64}
    (h : r.atRecover header payload nowUs = some r') :
    ∃ r₁ f, r.gate header = some r₁ ∧
      (r₁.ensureFrame header nowUs).frameAt header.frameId = some f ∧
      f.fragmentMap.get header.fragmentIndex.toNat = false ∧
      r' = (r₁.ensureFrame header nowUs).setSlot header.frameId
        (some (f.store header payload)) := by
  obtain ⟨r₁, f, hgate, -, hf, -, hnew, hr'⟩ := atRecover_eq_store h
  exact ⟨r₁, f, hgate, frameAt_ensureFrame hf, hnew, hr'⟩

/-- Without that call the packet is dropped, or the frame of its slot is only looked at again. -/
theorem atRecover_eq_none {header : VideoHeader} {payload : Mem} {nowUs : UInt64}
    (h : r.atRecover header payload nowUs = none) :
    r.processPacket header payload nowUs = r ∨
    ∃ r₁, r.gate header = some r₁ ∧ (r.processPacket header payload nowUs = r₁ ∨
      ∃ f, (r₁.ensureFrame header nowUs).frameAt header.frameId = some f ∧
        r.processPacket header payload nowUs =
          (r₁.ensureFrame header nowUs).complete f header.frameId) := by
  unfold atRecover at h
  unfold processPacket
  cases hgate : r.gate header with
  | none => exact .inl rfl
  | some r₁ =>
    rw [hgate] at h
    dsimp only at h ⊢
    refine .inr ⟨r₁, rfl, ?_⟩
    split at h
    · next hid => exact .inl (if_pos hid)
    next hid =>
    rw [if_neg hid]
    split at h
    · next hlimits => exact .inl (if_pos hlimits)
    next hlimits =>
    rw [if_neg hlimits]
    have hget : (r₁.ensureFrame header nowUs).frameRing.get header.frameId =
        some (r₁.frameFor header nowUs) := by
      rw [frameRing_ensureFrame, FixedRingBuffer.get_insert_self]
    rw [hget] at h
    dsimp only at h
    split at h
    · cases h
    next hold =>
    refine .inr ⟨_, frameAt_ensureFrame hget, ?_⟩
    unfold storeFragment
    rw [hget]
    dsimp only
    rw [if_neg hold, hget]

/-- **A fragment of the frame.** -/
theorem processPacket_genuine (hfit : frame.Fits) (h : r.Genuine frame fid) {header : VideoHeader}
    {payload : Mem} (hg : IsFragment frame fid header payload) (nowUs : UInt64) :
    (r.processPacket header payload nowUs).Genuine frame fid ∧
      ((r.processPacket header payload nowUs).LastExact frame fid ↔
        r.LastExact frame fid ∧ ∀ r', r.atRecover header payload nowUs = some r' →
          ¬ r'.RebuildsShort frame fid (header.fragmentIndex / 5 * 5)) := by
  obtain rfl := hg.frameId
  have hensure : ∀ {r₁ : Receiver}, r.gate header = some r₁ →
      Carries frame header.frameId r (r₁.ensureFrame header nowUs) := fun hgate =>
    (carries_gate hgate).trans (carries_ensureFrame rfl hg.totalFragments nowUs)
  cases hat : r.atRecover header payload nowUs with
  | none =>
    have hcarries : Carries frame header.frameId r (r.processPacket header payload nowUs) := by
      rcases atRecover_eq_none hat with heq | ⟨r₁, hgate, heq | ⟨f, hf, heq⟩⟩
      · rw [heq]
        exact .refl r
      · rw [heq]
        exact carries_gate hgate
      · rw [heq]
        exact (hensure hgate).trans (carries_complete hf)
    obtain ⟨hgenuine, hexact⟩ := hcarries h
    refine ⟨hgenuine, hexact.trans (and_iff_left ?_).symm⟩
    rintro r' ⟨⟩
  | some r' =>
    obtain ⟨r₁, f, hgate, hf, hmiss, heq⟩ := atRecover_eq_some hat
    have hstored : r'.frameAt header.frameId = some (f.store header payload) := by
      rw [heq]
      apply frameAt_setSlot
      exact (f.grows_store header payload).frameId.trans (frameAt_eq_some.mp hf).2
    have hstore : Carries frame header.frameId (r₁.ensureFrame header nowUs) r' :=
      carries_of_slot hf hstored (by rw [heq]; exact (framesOnly_setSlot _ _ _).fecRing)
        fun hfilling => hfilling.store hfit hg hmiss
    obtain ⟨hgenuine, hexact⟩ := ((hensure hgate).trans hstore) h
    obtain ⟨hrecovered, hexact'⟩ :=
      tryRecover_genuine hfit hgenuine (header.fragmentIndex / 5 * 5)
    have hfinish : Carries frame header.frameId
        (r'.tryRecover header.frameId (header.fragmentIndex / 5 * 5))
        (r.processPacket header payload nowUs) := by
      rw [processPacket_of_atRecover hat]
      dsimp only
      cases hslot : (r'.tryRecover header.frameId (header.fragmentIndex / 5 * 5)).frameRing.get
          header.frameId with
      | none => exact .refl _
      | some g => exact carries_complete (frameAt_touches (touches_tryRecover r' _ _) hstored hslot)
    obtain ⟨hfinal, hexact''⟩ := hfinish hrecovered
    refine ⟨hfinal, hexact''.trans (hexact'.trans ?_)⟩
    rw [hexact]
    simp only [Option.some.injEq, forall_eq']

/-! ## ProcessFEC -/

/-- Another group in a slot of the ring, of the frame only with a parity packet of it. -/
theorem carries_insert {index : UInt32} {group : FECGroup} (hgroup : Sent frame fid group)
    (hframe : r'.frameRing = r.frameRing) (hfec : r'.fecRing = r.fecRing.insert index group) :
    Carries frame fid r r' := by
  refine carries_of_frameAt (frameAt_congr hframe fid) fun h i => ?_
  rw [hfec, FixedRingBuffer.get_insert]
  split
  · exact hgroup
  · exact h i

theorem carries_storeGroup {header : FECHeader} {payload : Mem}
    (hparity : header.frameId = fid → frame.ParityOf header payload) (pkt : Packet)
    (pool : PacketPool) : Carries frame fid r (r.storeGroup header payload pkt pool) := by
  refine carries_insert ?_ rfl rfl
  rintro - hid _ ⟨⟩
  obtain ⟨hcount, hinside, hsize, hcovers, hbytes⟩ := hparity hid
  refine ⟨hcount, hinside, hsize, hcovers, fun k hk => ?_⟩
  rw [← hbytes k hk]
  exact Vec.get_copyIn_in _ _ (Nat.zero_le k) (by rwa [Nat.zero_add])

/-- **A parity packet of the frame.** -/
theorem processFEC_genuine (hfit : frame.Fits) (h : r.Genuine frame fid) {header : FECHeader}
    {payload : Mem} (hid : header.frameId = fid) (hparity : frame.ParityOf header payload) :
    (r.processFEC header payload).Genuine frame fid ∧
      ((r.processFEC header payload).LastExact frame fid ↔ r.LastExact frame fid ∧
        (¬ header.frameId < r.nextFrameIdToRead → r.NewGroup header →
          ∀ pkt pool, r.acquireFec header = (some pkt, pool) →
            ¬ (r.storeGroup header payload pkt pool).RebuildsShort frame fid
              header.fragmentStart)) := by
  unfold processFEC
  by_cases hbehind : header.frameId < r.nextFrameIdToRead
  · rw [if_pos hbehind]
    exact ⟨h, (and_iff_left fun hnot => absurd hbehind hnot).symm⟩
  rw [if_neg hbehind]
  by_cases hnew : r.NewGroup header
  · rw [if_pos hnew]
    rcases hacquire : r.acquireFec header with ⟨_ | pkt, pool⟩
    · have hnull : Carries frame fid r
          { r with
            fecPool := pool
            fecRing := r.fecRing.insert (fecIdx header.frameId header.fragmentStart)
              { r.fecRing.get (fecIdx header.frameId header.fragmentStart) with
                fecHeader := header
                fecPacket := none
                frameId := header.frameId } } := by
        refine carries_insert ?_ rfl rfl
        rintro - - _ ⟨⟩
      obtain ⟨hgenuine, hexact⟩ := hnull h
      refine ⟨hgenuine, hexact.trans (and_iff_left ?_).symm⟩
      rintro - - pkt pool' ⟨⟩
    · obtain ⟨hgenuine, hexact⟩ := carries_storeGroup (fun _ => hparity) pkt pool h
      obtain ⟨hrecovered, hexact'⟩ := tryRecover_genuine hfit hgenuine header.fragmentStart
      rw [← hid] at hexact hexact' hrecovered ⊢
      refine ⟨hrecovered, hexact'.trans ?_⟩
      rw [hexact]
      refine and_congr_right fun _ => ⟨?_, fun hnot => hnot hbehind hnew pkt pool rfl⟩
      rintro hnot - - _ _ ⟨⟩
      exact hnot
  · rw [if_neg hnew]
    exact ⟨h, (and_iff_left fun _ hnew' => absurd hnew' hnew).symm⟩

/-! ## Other traffic -/

theorem frameAt_tryRecover_other {other : UInt32} (hne : other ≠ fid) (groupStart : UInt16) :
    (r.tryRecover other groupStart).frameAt fid = r.frameAt fid := by
  rw [tryRecover_eq]
  cases hrec : r.recovery other groupStart with
  | none => rfl
  | some rebuilt =>
    obtain ⟨f, group, missingIndex⟩ := rebuilt
    dsimp only
    cases group.fecPacket with
    | none => rfl
    | some pkt =>
      obtain ⟨hf, -, -, -, -, hmissing⟩ := recovery_eq_some.mp hrec
      have hid := frameId_of_onlyMissing hmissing
      refine frameAt_insert_other hne ?_ (complete_eq r _ other) ?_
      · split <;> exact hid
      · rw [or_iff_not_imp_left, not_not]
        intro hslot
        unfold frameAt
        rw [r.frameRing.get_congr hslot.symm, hf]
        simp [Option.filter, hid, hne]

/-- A parity packet of another frame. -/
theorem carries_processFEC_other {header : FECHeader} (hne : header.frameId ≠ fid)
    (payload : Mem) : Carries frame fid r (r.processFEC header payload) := by
  have hnot : ∀ group : FECGroup, group.frameId = header.frameId → Sent frame fid group :=
    fun group hgroup _ hid => absurd (hgroup.symm.trans hid) hne
  unfold processFEC
  split
  · exact .refl r
  split
  · split
    · exact carries_insert (hnot _ rfl) rfl rfl
    · next pkt pool _ =>
      have hstore : Carries frame fid r (r.storeGroup header payload pkt pool) :=
        carries_storeGroup (fun hid => absurd hid hne) pkt pool
      exact hstore.trans (carries_of_same (frameAt_tryRecover_other hne _)
        (framesOnly_tryRecover _ _ _).fecRing)
  · exact .refl r

end Receiver

/-! ## Runs -/

/-- The calls of a session with FEC packets. -/
inductive RecoveryCall where
  | call (c : ReceiverCall)
  | processFEC (header : FECHeader) (payload : Mem)

/-- A parity packet of `frame` as the parity encoder sends it, with any packet sequence number. -/
structure IsParity (frame : EncodedPacket) (fid : UInt32) (header : FECHeader) (payload : Mem) :
    Prop where
  sent : ∃ i : UInt16, i.toNat < frame.totalFrags.toNat ∧ frame.ClosesGroup i ∧
    header = frame.fecHeader fid i header.packetSequence ∧
    ∀ k, k < header.dataSize.toNat → payload k = frame.fecPayload i k

/-- Two frames are the same to the decoder. -/
def FrameData.Agrees (f g : FrameData) : Prop :=
  f.totalSize = g.totalSize ∧ readN f.buffer.get f.totalSize = readN g.buffer.get g.totalSize

namespace Recovery

open ReceiverUse (init)

def step (s : ReceiverUse) : RecoveryCall → ReceiverUse
  | .call c => s.step c
  | .processFEC header payload => { s with receiver := s.receiver.processFEC header payload }

/-- Neither frame `fid` nor a group of it is in the receiver. -/
structure Fresh (fid : UInt32) (r : Receiver) : Prop where
  frame : r.frameAt fid = none
  group : ∀ i, (r.fecRing.get i).fecReceived = true → (r.fecRing.get i).frameId ≠ fid

/-- Frame `fid` is `frame`, of which any fragments and parity packets arrive. Everything else
leaves the slot of the frame alone once it is there. -/
def Traffic (frame : EncodedPacket) (fid : UInt32) (s : ReceiverUse) : RecoveryCall → Prop
  | .call (.processPacket header payload _) =>
    IsFragment frame fid header payload ∨ header.frameId ≠ fid ∧
      (header.frameId.toNat % 64 ≠ fid.toNat % 64 ∨ s.receiver.frameAt fid = none)
  | .call .getNextFrame => s.receiver.nextFrameIdToRead ≠ fid
  | .call (.forceAdvanceTo frameId) => frameId ≤ fid
  | .call (.validateSequence _) => True
  | .call (.returnToPool _) => True
  | .processFEC header payload => IsParity frame fid header payload ∨ header.frameId ≠ fid

/-- The call does not rebuild the last fragment of the frame from a longer parity packet. -/
def LastFits (frame : EncodedPacket) (fid : UInt32) (s : ReceiverUse) : RecoveryCall → Prop
  | .call (.processPacket header payload nowUs) => header.frameId = fid →
    ∀ r, s.receiver.atRecover header payload nowUs = some r →
      ¬ r.RebuildsShort frame fid (header.fragmentIndex / 5 * 5)
  | .processFEC header payload => header.frameId = fid →
    ¬ header.frameId < s.receiver.nextFrameIdToRead → s.receiver.NewGroup header →
      ∀ pkt pool, s.receiver.acquireFec header = (some pkt, pool) →
        ¬ (s.receiver.storeGroup header payload pkt pool).RebuildsShort frame fid
          header.fragmentStart
  | _ => True

/-- `g` is frame `fid` complete without any loss, in a session without FEC packets. -/
def Plain (frame : EncodedPacket) (fid : UInt32) (g : FrameData) : Prop :=
  ∃ poolSize before calls, ReceiverUse.Awaiting fid poolSize before ∧
    Along ReceiverUse.step (ReceiverUse.Delivering frame fid)
      (run ReceiverUse.step (init poolSize) before) calls ∧
    (run ReceiverUse.step (init poolSize) (before ++ calls)).receiver.frameAt fid = some g ∧
    g.isComplete = true

variable {frame : EncodedPacket} {fid : UInt32}

theorem Fresh.genuine {r : Receiver} (h : Fresh fid r) : r.Genuine frame fid where
  filling f hf := by
    rw [h.frame] at hf
    cases hf
  parity i hreceived hid := absurd hid (h.group i hreceived)

/-- **One call.** -/
theorem step_genuine (hfit : frame.Fits) (s : ReceiverUse) (call : RecoveryCall)
    (h : s.receiver.Genuine frame fid) (hok : Traffic frame fid s call) :
    (step s call).receiver.Genuine frame fid ∧
      ((step s call).receiver.LastExact frame fid ↔
        s.receiver.LastExact frame fid ∧ LastFits frame fid s call) := by
  have hcarried : Receiver.Carries frame fid s.receiver (step s call).receiver →
      LastFits frame fid s call → (step s call).receiver.Genuine frame fid ∧
        ((step s call).receiver.LastExact frame fid ↔
          s.receiver.LastExact frame fid ∧ LastFits frame fid s call) := fun hcarries hfits =>
    ⟨(hcarries h).1, (hcarries h).2.trans (and_iff_left hfits).symm⟩
  cases call with
  | processFEC header payload =>
    rcases hok with ⟨i, hi, -, hheader, hpayload⟩ | hne
    · have hid : header.frameId = fid := by rw [hheader]; rfl
      have hparity : frame.ParityOf header payload := by
        rw [hheader] at hpayload ⊢
        exact EncodedPacket.parityOf_fecHeader hfit hi fid _ hpayload
      obtain ⟨hgenuine, hexact⟩ := Receiver.processFEC_genuine hfit h hid hparity
      exact ⟨hgenuine, hexact.trans (and_congr_right fun _ => ⟨fun h _ => h, fun h => h hid⟩)⟩
    · exact hcarried (Receiver.carries_processFEC_other hne payload) fun hid => absurd hid hne
  | call c =>
    cases c with
    | processPacket header payload nowUs =>
      rcases hok with hg | ⟨hne, hclear⟩
      · obtain ⟨hgenuine, hexact⟩ := Receiver.processPacket_genuine hfit h hg nowUs
        exact ⟨hgenuine,
          hexact.trans (and_congr_right fun _ => ⟨fun h _ => h, fun h => h hg.frameId⟩)⟩
      · refine hcarried (Receiver.carries_of_same ?_ ?_) fun hid => absurd hid hne
        · exact Receiver.frameAt_processPacket_other hne hclear payload nowUs
        · exact (Receiver.sameIntake_processPacket _ header payload nowUs).fecRing
    | getNextFrame =>
      exact hcarried (Receiver.carries_of_same (Receiver.frameAt_getNextFrame hok)
        (Receiver.sameIntake_getNextFrame _).fecRing) trivial
    | forceAdvanceTo frameId =>
      exact hcarried (Receiver.carries_of_same (Receiver.frameAt_forceAdvanceTo hok)
        (Receiver.sameIntake_forceAdvanceTo _ _).fecRing) trivial
    | validateSequence seq => exact hcarried (Receiver.carries_of_same rfl rfl) trivial
    | returnToPool i =>
      obtain ⟨hsame, hring⟩ := ReceiverUse.returnToPool_step s i
      exact hcarried (Receiver.carries_of_same (Receiver.frameAt_congr hring fid) hsame.fecRing)
        trivial

theorem Plain.whole (hfit : frame.Fits) {g : FrameData} (h : Plain frame fid g) :
    g.totalSize = frame.packet.size ∧
      readN g.buffer.get g.totalSize = readN frame.packet.data.get frame.packet.size := by
  obtain ⟨poolSize, before, calls, hawaiting, hcalls, hg, hc⟩ := h
  exact ((ReceiverUse.delivery_run hfit hawaiting hcalls).progress g hg).whole hfit hc

/-- **Recovery agrees with plain delivery** exactly when the last fragment of the frame is never
rebuilt from a longer parity packet. Any fragments and parity packets of the frame may be missing,
late or repeated. -/
theorem recovery_agrees_iff (frame : EncodedPacket) (fid : UInt32) (hfit : frame.Fits)
    (s : ReceiverUse) (hfresh : Fresh fid s.receiver) (calls : List RecoveryCall)
    (hcalls : Along step (Traffic frame fid) s calls) (f : FrameData)
    (hf : (run step s calls).receiver.frameAt fid = some f) (hc : f.isComplete = true)
    (g : FrameData) (hg : Plain frame fid g) :
    f.Agrees g ↔ Along step (LastFits frame fid) s calls := by
  obtain ⟨hsize, hbytes⟩ := hg.whole hfit
  obtain ⟨hgenuine, hexact⟩ := run_and_along
    (P := fun s : ReceiverUse => s.receiver.LastExact frame fid)
    (fun s call (h : s.receiver.Genuine frame fid) hok => step_genuine hfit s call h hok)
    hfresh.genuine hcalls
  have hfilling := hgenuine.filling f hf
  have hnone : s.receiver.LastExact frame fid := by
    intro f' hf'
    rw [hfresh.frame] at hf'
    cases hf'
  have hlast : f.LastExact frame ↔ Along step (LastFits frame fid) s calls := by
    rw [and_iff_right hnone] at hexact
    rw [← hexact]
    unfold Receiver.LastExact
    rw [hf]
    simp only [Option.some.injEq, forall_eq']
  rw [← hlast, ← hfilling.totalSize_iff hfit hc]
  unfold FrameData.Agrees
  rw [hbytes, hsize]
  refine and_iff_left_of_imp fun hsame => ?_
  rw [hsame]
  exact readN_congr fun k hk => hfilling.bytes hfit hc hk

/-! ## Two fragments and their parity packet -/

open ReceiverUse (keyframe1301 fragment1301 isFragment_1301)

/-- The parity packet of the two fragments of `keyframe1301`. -/
def parity1301 (fid : UInt32) : RecoveryCall :=
  .processFEC (keyframe1301.fecHeader fid 1 0) (keyframe1301.fecPayload 1)

theorem isParity_1301 (fid : UInt32) :
    IsParity keyframe1301 fid (keyframe1301.fecHeader fid 1 0) (keyframe1301.fecPayload 1) :=
  ⟨1, by decide, by decide, rfl, fun _ _ => rfl⟩

theorem exists_complete {o : Option FrameData} {n : Nat}
    (h : o.map (fun f => (f.isComplete, f.totalSize)) = some (true, n)) :
    ∃ f, o = some f ∧ f.isComplete = true ∧ f.totalSize = n := by
  obtain ⟨f, hf, heq⟩ := Option.map_eq_some_iff.mp h
  exact ⟨f, hf, Prod.mk.inj heq⟩

theorem plain_1301 : ∃ g, Plain keyframe1301 2 g ∧ g.totalSize = 1301 := by
  have hat : ((run ReceiverUse.step (init 30) [fragment1301 1 0, fragment1301 2 0,
      fragment1301 2 1]).receiver.frameAt 2).map (fun g => (g.isComplete, g.totalSize)) =
        some (true, 1301) := by decide +kernel
  obtain ⟨g, hg, hc, hsize⟩ := exists_complete hat
  exact ⟨g, ⟨30, [fragment1301 1 0], [fragment1301 2 0, fragment1301 2 1],
    ⟨by decide, by decide, rfl⟩,
    ⟨.inl (isFragment_1301 2 (by decide)), .inl (isFragment_1301 2 (by decide)), trivial⟩, hg, hc⟩,
    hsize⟩

/-- Fragment `i` of frame 2 and the parity packet, after frame 1 opened the gate. -/
def fragmentAndParity (i : UInt16) : List RecoveryCall :=
  [.call (fragment1301 1 0), .call (fragment1301 2 i), parity1301 2]

theorem traffic_fragmentAndParity {i : UInt16} (hi : i.toNat < keyframe1301.totalFrags.toNat) :
    Along step (Traffic keyframe1301 2) (init 30) (fragmentAndParity i) :=
  ⟨.inr ⟨by decide, .inl (by decide)⟩, .inl (isFragment_1301 2 hi), .inl (isParity_1301 2), trivial⟩

theorem fresh_init (poolSize : Nat) (fid : UInt32) : Fresh fid (init poolSize).receiver where
  frame := rfl
  group i h := by cases h

/-- The first fragment is rebuilt, and the frame is the one sent. -/
theorem recovery_agrees_1301 : ∃ f g,
    (run step (init 30) (fragmentAndParity 1)).receiver.frameAt 2 = some f ∧
      f.isComplete = true ∧ Plain keyframe1301 2 g ∧ f.Agrees g := by
  have hat : ((run step (init 30) (fragmentAndParity 1)).receiver.frameAt 2).map
      (fun f => (f.isComplete, f.totalSize)) = some (true, 1301) := by decide +kernel
  obtain ⟨f, hf, hc, -⟩ := exists_complete hat
  obtain ⟨g, hg, -⟩ := plain_1301
  refine ⟨f, g, hf, hc, hg, ?_⟩
  refine (recovery_agrees_iff keyframe1301 2 ⟨by decide, by decide⟩ (init 30) (fresh_init 30 2)
    (fragmentAndParity 1) (traffic_fragmentAndParity (by decide)) f hf hc g hg).mpr ?_
  refine ⟨fun hid => absurd hid (by decide), ?_, ?_, trivial⟩
  · -- no group of the frame is there yet
    have hnone : ((step (init 30) (.call (fragment1301 1 0))).receiver.atRecover
        (keyframe1301.videoHeader 2 1 0) (keyframe1301.fragmentPayload 1) 0).bind
          (fun r => (r.recovery 2 0).map (·.2.2)) = none := by decide +kernel
    rintro - r hr ⟨f, group, missingIndex, hrec, -⟩
    change Receiver.atRecover _ (keyframe1301.videoHeader 2 1 0) _ _ = some r at hr
    change r.recovery 2 0 = _ at hrec
    rw [hr, Option.bind_some, hrec] at hnone
    cases hnone
  · have hfirst : ((run step (init 30) [.call (fragment1301 1 0),
        .call (fragment1301 2 1)]).receiver.frameRing.get 2).bind
          (Receiver.onlyMissing · 2 (keyframe1301.fecHeader 2 1 0)) = some 0 := by decide +kernel
    rintro - - - pkt pool - ⟨f, group, missingIndex, hrec, -, hlast, -⟩
    obtain ⟨hget, rfl, -, -, -, hmissing⟩ := Receiver.recovery_eq_some.mp hrec
    change (run step (init 30) [.call (fragment1301 1 0),
      .call (fragment1301 2 1)]).receiver.frameRing.get 2 = some f at hget
    change Receiver.onlyMissing f 2 (keyframe1301.fecHeader 2 1 0) = _ at hmissing
    rw [hget, Option.bind_some, hmissing] at hfirst
    cases hfirst
    exact absurd hlast (by decide)

/-- The last fragment is rebuilt with the size of the first. -/
theorem last_fragment_too_long :
    Along step (Traffic keyframe1301 2) (init 30) (fragmentAndParity 0) ∧
    ∃ f g, (run step (init 30) (fragmentAndParity 0)).receiver.frameAt 2 = some f ∧
      f.isComplete = true ∧ f.totalSize = 2600 ∧ Plain keyframe1301 2 g ∧ g.totalSize = 1301 := by
  have hat : ((run step (init 30) (fragmentAndParity 0)).receiver.frameAt 2).map
      (fun f => (f.isComplete, f.totalSize)) = some (true, 2600) := by decide +kernel
  obtain ⟨f, hf, hc, hlong⟩ := exists_complete hat
  obtain ⟨g, hg, hsize⟩ := plain_1301
  exact ⟨traffic_fragmentAndParity (by decide), f, g, hf, hc, hlong, hg, hsize⟩

end Recovery

end RemotePlay.Client
