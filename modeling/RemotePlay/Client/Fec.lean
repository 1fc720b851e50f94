import RemotePlay.Client.ReceiverFrames
import RemotePlay.Lib.Run

/-!
# FEC intake

A parity packet is copied to a packet of `m_fecPool`, which its slot of
`m_fecRing` keeps until another group takes the slot, and is copied from there
to the frame when its group lacks one fragment. `FecUse` records these copies.
Nothing checks that the pool had a packet, or the size of the payload.
-/

namespace RemotePlay.Client

open Lib Protocol

/-! ## The copies of a call -/

inductive FecUse where
  /-- `memcpy` of `n` bytes to a packet of the pool. -/
  | fill (packet : Option Packet) (n : Nat)
  /-- `memcpy` of `n` bytes out of the packet of a group. -/
  | read (packet : Option Packet) (n : Nat)
  /-- `n` bytes of the frame buffer are rewritten for a missing fragment. -/
  | rebuild (missingIndex : UInt16) (offset n : Nat)

/-- The packet is there and has room, and a fragment is rebuilt in its own bytes. -/
def FecUse.Safe : FecUse → Prop
  | .fill packet n => ∃ pkt, packet = some pkt ∧ n ≤ pkt.data.size
  | .read packet n => ∃ pkt, packet = some pkt ∧ n ≤ pkt.data.size
  | .rebuild missingIndex offset n =>
    missingIndex.toNat * maxUdpPayload ≤ offset ∧
      offset + n ≤ (missingIndex.toNat + 1) * maxUdpPayload

namespace Receiver

/-- The only fragment of its group that `f` lacks, where `TryRecover` goes on to rebuild it. -/
def onlyMissing (f : FrameData) (frameId : UInt32) (fec : FECHeader) : Option UInt16 :=
  if f.frameId ≠ frameId ∨ f.isComplete then none
  else
    let missing := scanMissing f fec.fragmentStart (0, 0) fec.fragmentCount.toNat 0
    if missing.1 = 1 ∧ missing.2.toNat * maxUdpPayload + fec.dataSize.toNat ≤ f.buffer.size then
      some missing.2
    else none

/-- The frame, the group and the fragment that `TryRecover` rebuilds. -/
def recovery (r : Receiver) (frameId : UInt32) (groupStart : UInt16) :
    Option (FrameData × FECGroup × UInt16) :=
  match r.frameRing.get frameId with
  | none => none
  | some f =>
    let group := r.fecRing.get (fecIdx frameId groupStart)
    if !group.fecReceived ∨ group.frameId ≠ frameId ∨ group.fecHeader.fragmentStart ≠ groupStart
    then none
    else (onlyMissing f frameId group.fecHeader).map (f, group, ·)

def recoverUses (r : Receiver) (frameId : UInt32) (groupStart : UInt16) : List FecUse :=
  match r.recovery frameId groupStart with
  | none => []
  | some (_, group, missingIndex) =>
    [.read group.fecPacket group.fecHeader.dataSize.toNat,
      .rebuild missingIndex (missingIndex.toNat * maxUdpPayload) group.fecHeader.dataSize.toNat]

def fecUses (r : Receiver) (header : FECHeader) (payload : Mem) : List FecUse :=
  if header.frameId < r.nextFrameIdToRead then []
  else if r.NewGroup header then
    match r.acquireFec header with
    | (none, _) => [.fill none header.dataSize.toNat]
    | (some pkt, pool) =>
      .fill (some pkt) header.dataSize.toNat ::
        (r.storeGroup header payload pkt pool).recoverUses header.frameId header.fragmentStart
  else []

/-- The receiver at the call of `TryRecover` in `ProcessPacket`, if the call is reached. -/
def atRecover (r : Receiver) (header : VideoHeader) (payload : Mem) (nowUs : UInt64) :
    Option Receiver :=
  match r.gate header with
  | none => none
  | some r =>
    if header.frameId < r.nextFrameIdToRead then none
    else if header.totalFragments > 1024 ∨ header.dataSize.toNat > maxUdpPayload then none
    else
      let r := r.ensureFrame header nowUs
      match r.frameRing.get header.frameId with
      | none => none
      | some f =>
        if header.fragmentIndex < f.totalFragments ∧
            f.fragmentMap.get header.fragmentIndex.toNat = false then
          some (r.setSlot header.frameId (some (f.store header payload)))
        else none

def packetUses (r : Receiver) (header : VideoHeader) (payload : Mem) (nowUs : UInt64) :
    List FecUse :=
  match r.atRecover header payload nowUs with
  | none => []
  | some r => r.recoverUses header.frameId (header.fragmentIndex / 5 * 5)

/-- `TryRecover` rebuilds what `recovery` says. -/
theorem tryRecover_eq (r : Receiver) (frameId : UInt32) (groupStart : UInt16) :
    r.tryRecover frameId groupStart =
      match r.recovery frameId groupStart with
      | none => r
      | some (f, group, missingIndex) =>
        match group.fecPacket with
        | none => r
        | some pkt => r.complete (recover f group.fecHeader pkt groupStart missingIndex) frameId := by
  unfold tryRecover recovery onlyMissing
  cases r.frameRing.get frameId with
  | none => rfl
  | some f =>
    dsimp only
    by_cases hgroup : !(r.fecRing.get (fecIdx frameId groupStart)).fecReceived ∨
        (r.fecRing.get (fecIdx frameId groupStart)).frameId ≠ frameId ∨
        (r.fecRing.get (fecIdx frameId groupStart)).fecHeader.fragmentStart ≠ groupStart
    · simp only [if_pos hgroup, ite_self]
    · have hstart : (r.fecRing.get (fecIdx frameId groupStart)).fecHeader.fragmentStart =
          groupStart := by
        by_contra hne
        exact hgroup (.inr (.inr hne))
      simp only [if_neg hgroup]
      rw [hstart]
      split
      · rfl
      · split
        · rfl
        · rfl

/-- `ProcessPacket` calls `TryRecover` at `atRecover`, and nothing else of it touches a packet of
the pool. -/
theorem processPacket_of_atRecover {r r' : Receiver} {header : VideoHeader} {payload : Mem}
    {nowUs : UInt64} (h : r.atRecover header payload nowUs = some r') :
    r.processPacket header payload nowUs =
      let r := r'.tryRecover header.frameId (header.fragmentIndex / 5 * 5)
      match r.frameRing.get header.frameId with
      | none => r
      | some f => r.complete f header.frameId := by
  unfold atRecover at h
  unfold processPacket
  cases hgate : r.gate header with
  | none =>
    rw [hgate] at h
    cases h
  | some r₁ =>
    rw [hgate] at h
    dsimp only at h ⊢
    split at h
    · cases h
    next hid =>
    split at h
    · cases h
    next hlimits =>
    rw [if_neg hid, if_neg hlimits]
    unfold storeFragment
    cases hf : (r₁.ensureFrame header nowUs).frameRing.get header.frameId with
    | none =>
      rw [hf] at h
      cases h
    | some f =>
      rw [hf] at h
      dsimp only at h
      split at h
      · next hnew =>
        cases h
        exact congrArg (fun r : Receiver => match r.frameRing.get header.frameId with
          | none => r
          | some f => r.complete f header.frameId) (if_pos hnew)
      · cases h

/-! ## What a rebuilt frame keeps -/

theorem get_xorBytes_out (buffer : Vec UInt8) {recovered other n k : Nat}
    (h : k < recovered ∨ recovered + n ≤ k) :
    (xorBytes buffer recovered other n).get k = buffer.get k := by
  induction n with
  | zero => rfl
  | succ n ih =>
    unfold xorBytes
    rw [Vec.get_set, if_neg (by omega)]
    exact ih (by omega)

theorem get_xorGroup_out (f : FrameData) {dataSize groupStart missingIndex : UInt16}
    (buffer : Vec UInt8) {k : Nat} (h : k < missingIndex.toNat * maxUdpPayload ∨
      missingIndex.toNat * maxUdpPayload + dataSize.toNat ≤ k) (n i : Nat) :
    (xorGroup f dataSize groupStart missingIndex buffer n i).get k = buffer.get k := by
  induction n generalizing buffer i with
  | zero => rfl
  | succ n ih =>
    unfold xorGroup
    dsimp only
    split
    · exact ih buffer (i + 1)
    · rw [ih]
      exact get_xorBytes_out buffer (by omega)

/-- Only the bytes that `FecUse.rebuild` names are written. -/
theorem get_recover_out (f : FrameData) (fec : FECHeader) (pkt : Packet)
    {groupStart missingIndex : UInt16} {k : Nat}
    (h : k < missingIndex.toNat * maxUdpPayload ∨
      missingIndex.toNat * maxUdpPayload + fec.dataSize.toNat ≤ k) :
    (recover f fec pkt groupStart missingIndex).buffer.get k = f.buffer.get k := by
  unfold recover
  dsimp only
  rw [get_xorGroup_out f _ h]
  exact Vec.get_copyIn_out f.buffer _ h

theorem size_xorBytes (buffer : Vec UInt8) (recovered other n : Nat) :
    (xorBytes buffer recovered other n).size = buffer.size := by
  induction n with
  | zero => rfl
  | succ n ih => exact ih

theorem size_xorGroup (f : FrameData) (dataSize groupStart missingIndex : UInt16)
    (buffer : Vec UInt8) (n i : Nat) :
    (xorGroup f dataSize groupStart missingIndex buffer n i).size = buffer.size := by
  induction n generalizing buffer i with
  | zero => rfl
  | succ n ih =>
    unfold xorGroup
    dsimp only
    split
    · exact ih buffer (i + 1)
    · rw [ih, size_xorBytes]

theorem size_recover (f : FrameData) (fec : FECHeader) (pkt : Packet)
    (groupStart missingIndex : UInt16) :
    (recover f fec pkt groupStart missingIndex).buffer.size = f.buffer.size :=
  size_xorGroup f _ _ _ _ _ _

/-! ## The pool and its packets -/

/-- The packets of the pool and of the slots have their capacity, and a received group has its
packet, filled within it. -/
structure FecIntact (r : Receiver) : Prop where
  pool : ∀ pkt ∈ r.fecPool.pool, pkt.data.size = 1500
  group : ∀ i pkt, (r.fecRing.get i).fecPacket = some pkt → pkt.data.size = 1500
  received : ∀ i, (r.fecRing.get i).fecReceived = true →
    ∃ pkt, (r.fecRing.get i).fecPacket = some pkt ∧
      (r.fecRing.get i).fecHeader.dataSize.toNat ≤ pkt.data.size

theorem fecIntact_init (poolSize : Nat) : FecIntact (.init poolSize) where
  pool pkt hpkt := by
    rw [List.eq_of_mem_replicate hpkt]
    rfl
  group i pkt h := by cases h
  received i h := by cases h

theorem FecIntact.congr {r r' : Receiver} (h : FecIntact r) (hsame : SameIntake r r') :
    FecIntact r' := by
  refine ⟨?_, ?_, ?_⟩
  · rw [hsame.fecPool]
    exact h.pool
  · rw [hsame.fecRing]
    exact h.group
  · rw [hsame.fecRing]
    exact h.received

/-- There is a packet for the group of `header`: the one of its slot, or one of the pool. -/
def HasFecPacket (r : Receiver) (header : FECHeader) : Prop :=
  (r.fecRing.get (fecIdx header.frameId header.fragmentStart)).fecPacket ≠ none ∨
    r.fecPool.pool ≠ []

theorem acquireFec_slot {r : Receiver} {header : FECHeader} {pkt : Packet}
    (h : (r.fecRing.get (fecIdx header.frameId header.fragmentStart)).fecPacket = some pkt) :
    r.acquireFec header = (some pkt, r.fecPool) := by
  unfold acquireFec
  rw [h, PacketPool.acquire_release]

theorem acquireFec_empty {r : Receiver} {header : FECHeader}
    (h : (r.fecRing.get (fecIdx header.frameId header.fragmentStart)).fecPacket = none) :
    r.acquireFec header = r.fecPool.acquire := by
  unfold acquireFec
  rw [h]
  rfl

theorem acquireFec_none {r : Receiver} {header : FECHeader} {pool : PacketPool}
    (h : r.acquireFec header = (none, pool)) : ¬ r.HasFecPacket header := by
  rcases hslot : (r.fecRing.get (fecIdx header.frameId header.fragmentStart)).fecPacket with _ | pkt
  · rw [acquireFec_empty hslot] at h
    rintro (hne | hne)
    · exact hne hslot
    · exact hne (PacketPool.acquire_none h)
  · rw [acquireFec_slot hslot] at h
    cases h

theorem acquireFec_some {r : Receiver} (hr : FecIntact r) {header : FECHeader} {pkt : Packet}
    {pool : PacketPool} (h : r.acquireFec header = (some pkt, pool)) :
    r.HasFecPacket header ∧ pkt.data.size = 1500 ∧ ∀ pkt ∈ pool.pool, pkt.data.size = 1500 := by
  rcases hslot : (r.fecRing.get (fecIdx header.frameId header.fragmentStart)).fecPacket with _ | pkt'
  · rw [acquireFec_empty hslot] at h
    have hp := PacketPool.acquire_some h
    have hpool := hr.pool
    rw [hp, List.forall_mem_cons] at hpool
    refine ⟨.inr fun hnil => ?_, hpool⟩
    rw [hp] at hnil
    cases hnil
  · rw [acquireFec_slot hslot] at h
    cases h
    refine ⟨.inl fun hnone => ?_, hr.group _ _ hslot, hr.pool⟩
    rw [hslot] at hnone
    cases hnone

theorem FecIntact.storeGroup {r : Receiver} (h : FecIntact r) {header : FECHeader}
    {pkt : Packet} {pool : PacketPool} (hacquire : r.acquireFec header = (some pkt, pool))
    (hsize : header.dataSize.toNat ≤ 1500) (payload : Mem) :
    FecIntact (r.storeGroup header payload pkt pool) := by
  obtain ⟨-, hcapacity, hpool⟩ := acquireFec_some h hacquire
  refine ⟨hpool, fun i pkt' hpkt' => ?_, fun i hreceived => ?_⟩
  · change ((r.fecRing.insert _ _).get i).fecPacket = some pkt' at hpkt'
    rw [FixedRingBuffer.get_insert] at hpkt'
    split at hpkt'
    · cases hpkt'
      exact hcapacity
    · exact h.group i pkt' hpkt'
  · change ((r.fecRing.insert _ _).get i).fecReceived = true at hreceived
    show ∃ pkt', ((r.fecRing.insert _ _).get i).fecPacket = some pkt' ∧
      ((r.fecRing.insert _ _).get i).fecHeader.dataSize.toNat ≤ pkt'.data.size
    rw [FixedRingBuffer.get_insert] at hreceived ⊢
    split
    · refine ⟨_, rfl, ?_⟩
      show header.dataSize.toNat ≤ pkt.data.size
      omega
    · next hi =>
      rw [if_neg hi] at hreceived
      exact h.received i hreceived

/-! ## Which copies are safe -/

theorem recovery_eq_some {r : Receiver} {frameId : UInt32} {groupStart : UInt16}
    {f : FrameData} {group : FECGroup} {missingIndex : UInt16} :
    r.recovery frameId groupStart = some (f, group, missingIndex) ↔
      r.frameRing.get frameId = some f ∧ r.fecRing.get (fecIdx frameId groupStart) = group ∧
      group.fecReceived = true ∧ group.frameId = frameId ∧
      group.fecHeader.fragmentStart = groupStart ∧
      onlyMissing f frameId group.fecHeader = some missingIndex := by
  unfold recovery
  cases hf : r.frameRing.get frameId with
  | none => simp
  | some f' =>
    dsimp only
    split
    · next hgroup =>
      refine ⟨fun h => (nomatch h), ?_⟩
      rintro ⟨-, rfl, hreceived, hid, hstart, -⟩
      rcases hgroup with h | h | h
      · rw [hreceived] at h
        cases h
      · exact absurd hid h
      · exact absurd hstart h
    · next hgroup =>
      simp only [not_or, Bool.not_eq_true', Bool.not_eq_false, ne_eq, not_not] at hgroup
      obtain ⟨hreceived, hid, hstart⟩ := hgroup
      rw [Option.map_eq_some_iff]
      constructor
      · rintro ⟨m, hm, heq⟩
        cases heq
        exact ⟨rfl, rfl, hreceived, hid, hstart, hm⟩
      · rintro ⟨hf', rfl, -, -, -, hm⟩
        cases hf'
        exact ⟨missingIndex, hm, rfl⟩

/-- A parity packet that `TryRecover` uses is no longer than a fragment. -/
def RebuildFits (r : Receiver) (frameId : UInt32) (groupStart : UInt16) : Prop :=
  ∀ f group missingIndex, r.recovery frameId groupStart = some (f, group, missingIndex) →
    group.fecHeader.dataSize.toNat ≤ maxUdpPayload

theorem recoverUses_safe_iff {r : Receiver} (hr : FecIntact r) (frameId : UInt32)
    (groupStart : UInt16) :
    (∀ u ∈ r.recoverUses frameId groupStart, u.Safe) ↔ r.RebuildFits frameId groupStart := by
  unfold recoverUses RebuildFits
  cases hrec : r.recovery frameId groupStart with
  | none => simp
  | some found =>
    obtain ⟨f, group, missingIndex⟩ := found
    obtain ⟨-, hgroup, hreceived, -⟩ := recovery_eq_some.mp hrec
    rw [← hgroup] at hreceived
    obtain ⟨pkt, hpkt, hsize⟩ := hr.received _ hreceived
    rw [hgroup] at hpkt hsize
    constructor
    · rintro hsafe _ _ _ heq
      cases heq
      have hrebuild := (hsafe _ (List.mem_cons_of_mem _ List.mem_cons_self)).2
      rw [Nat.add_mul] at hrebuild
      omega
    · intro hfits u hu
      have hfits := hfits f group missingIndex rfl
      rcases List.mem_cons.mp hu with rfl | hu
      · exact ⟨pkt, hpkt, hsize⟩
      · cases List.mem_singleton.mp hu
        refine ⟨Nat.le_refl _, ?_⟩
        rw [Nat.add_mul]
        omega

theorem rebuildFits_storeGroup_iff (r : Receiver) (header : FECHeader) (payload : Mem)
    (pkt : Packet) (pool : PacketPool) :
    (r.storeGroup header payload pkt pool).RebuildFits header.frameId header.fragmentStart ↔
      ∀ f, r.frameRing.get header.frameId = some f →
        onlyMissing f header.frameId header ≠ none → header.dataSize.toNat ≤ maxUdpPayload := by
  have hslot : ∀ group, (r.storeGroup header payload pkt pool).fecRing.get
      (fecIdx header.frameId header.fragmentStart) = group → group.fecReceived = true ∧
        group.frameId = header.frameId ∧ group.fecHeader = header := by
    intro group hgroup
    rw [← hgroup]
    simp only [storeGroup, FixedRingBuffer.get_insert_self]
    exact ⟨trivial, trivial, trivial⟩
  constructor
  · intro hfits f hf hmissing
    obtain ⟨missingIndex, hmissing⟩ := Option.ne_none_iff_exists'.mp hmissing
    obtain ⟨hreceived, hid, hheader⟩ := hslot _ rfl
    have hfits := hfits f _ missingIndex (recovery_eq_some.mpr ⟨hf, rfl, hreceived, hid,
      by rw [hheader], by rw [hheader]; exact hmissing⟩)
    rwa [hheader] at hfits
  · intro hfits f group missingIndex hrec
    obtain ⟨hf, hgroup, -, -, -, hmissing⟩ := recovery_eq_some.mp hrec
    rw [(hslot group hgroup).2.2] at hmissing ⊢
    refine hfits f hf fun hnone => ?_
    rw [hnone] at hmissing
    cases hmissing

/-- The copies of a `ProcessFEC`. -/
theorem fecUses_safe_iff {r : Receiver} (hr : FecIntact r) (header : FECHeader) (payload : Mem) :
    (∀ u ∈ r.fecUses header payload, u.Safe) ↔
      (¬ header.frameId < r.nextFrameIdToRead → r.NewGroup header →
        r.HasFecPacket header ∧ header.dataSize.toNat ≤ 1500 ∧
        ∀ f, r.frameRing.get header.frameId = some f →
          onlyMissing f header.frameId header ≠ none → header.dataSize.toNat ≤ maxUdpPayload) := by
  unfold fecUses
  by_cases hid : header.frameId < r.nextFrameIdToRead
  · rw [if_pos hid]
    exact iff_of_true (fun u hu => (nomatch hu)) fun h => absurd hid h
  rw [if_neg hid]
  by_cases hnew : r.NewGroup header
  · rw [if_pos hnew]
    rcases hacquire : r.acquireFec header with ⟨_ | pkt, pool⟩
    · refine iff_of_false (fun hsafe => ?_) fun h => acquireFec_none hacquire (h hid hnew).1
      obtain ⟨pkt, hpkt, -⟩ := hsafe _ List.mem_cons_self
      cases hpkt
    · obtain ⟨hpacket, hcapacity, -⟩ := acquireFec_some hr hacquire
      rw [List.forall_mem_cons]
      constructor
      · rintro ⟨⟨pkt', hpkt', hsize⟩, hrest⟩ - -
        cases hpkt'
        rw [hcapacity] at hsize
        refine ⟨hpacket, hsize, ?_⟩
        exact (rebuildFits_storeGroup_iff r header payload pkt pool).mp
          ((recoverUses_safe_iff (hr.storeGroup hacquire hsize payload) _ _).mp hrest)
      · intro h
        obtain ⟨-, hsize, hfits⟩ := h hid hnew
        refine ⟨⟨pkt, rfl, by rw [hcapacity]; exact hsize⟩, ?_⟩
        exact (recoverUses_safe_iff (hr.storeGroup hacquire hsize payload) _ _).mpr
          ((rebuildFits_storeGroup_iff r header payload pkt pool).mpr hfits)
  · rw [if_neg hnew]
    exact iff_of_true (fun u hu => (nomatch hu)) fun _ h => absurd h hnew

/-- The receiver at the call of `TryRecover` has the fragment stored. -/
theorem atRecover_eq_store {r r' : Receiver} {header : VideoHeader} {payload : Mem}
    {nowUs : UInt64} (h : r.atRecover header payload nowUs = some r') :
    ∃ r₁ f, r.gate header = some r₁ ∧ r₁.Accepts header ∧
      (r₁.ensureFrame header nowUs).frameRing.get header.frameId = some f ∧
      header.fragmentIndex < f.totalFragments ∧
      f.fragmentMap.get header.fragmentIndex.toNat = false ∧
      r' = (r₁.ensureFrame header nowUs).setSlot header.frameId
        (some (f.store header payload)) := by
  unfold atRecover at h
  split at h
  · cases h
  next r₁ hgate =>
  split at h
  · cases h
  next hid =>
  split at h
  · cases h
  next hlimits =>
  dsimp only at h
  split at h
  · cases h
  next f hf =>
  split at h
  · next hnew =>
    cases h
    exact ⟨r₁, f, hgate, ⟨hid, hlimits⟩, hf, hnew.1, hnew.2, rfl⟩
  · cases h

theorem sameIntake_atRecover {r r' : Receiver} {header : VideoHeader} {payload : Mem}
    {nowUs : UInt64} (h : r.atRecover header payload nowUs = some r') : SameIntake r r' := by
  obtain ⟨r₁, f, hgate, -, -, -, -, rfl⟩ := atRecover_eq_store h
  exact (sameIntake_gate hgate).trans
    ((framesOnly_ensureFrame r₁ header nowUs).trans (framesOnly_setSlot _ _ _)).toSameIntake

/-- The copies of a `ProcessPacket`. -/
theorem packetUses_safe_iff {r : Receiver} (hr : FecIntact r) (header : VideoHeader)
    (payload : Mem) (nowUs : UInt64) :
    (∀ u ∈ r.packetUses header payload nowUs, u.Safe) ↔
      ∀ r', r.atRecover header payload nowUs = some r' →
        r'.RebuildFits header.frameId (header.fragmentIndex / 5 * 5) := by
  unfold packetUses
  cases hat : r.atRecover header payload nowUs with
  | none => simp
  | some r' =>
    have hiff := recoverUses_safe_iff (hr.congr (sameIntake_atRecover hat)) header.frameId
      (header.fragmentIndex / 5 * 5)
    constructor
    · rintro hsafe _ ⟨⟩
      exact hiff.mp hsafe
    · intro hfits
      exact hiff.mpr (hfits r' rfl)

/-- `ProcessFEC` keeps the pool intact. -/
theorem FecIntact.processFEC {r : Receiver} (hr : FecIntact r) {header : FECHeader}
    (payload : Mem) (hok : ¬ header.frameId < r.nextFrameIdToRead → r.NewGroup header →
      r.HasFecPacket header ∧ header.dataSize.toNat ≤ 1500) :
    FecIntact (r.processFEC header payload) := by
  unfold Receiver.processFEC
  split
  · exact hr
  next hid =>
  split
  · next hnew =>
    obtain ⟨hpacket, hsize⟩ := hok hid hnew
    rcases hacquire : r.acquireFec header with ⟨_ | pkt, pool⟩
    · exact absurd hpacket (acquireFec_none hacquire)
    · exact (hr.storeGroup hacquire hsize payload).congr (framesOnly_tryRecover _ _ _).toSameIntake
  · exact hr

end Receiver

/-! ## Runs -/

structure FecRun where
  receiver : Receiver
  uses : List FecUse

inductive FecEvent where
  | processFEC (header : FECHeader) (payload : Mem)
  | processPacket (header : VideoHeader) (payload : Mem) (nowUs : UInt64)
  | getNextFrame
  | forceAdvanceTo (frameId : UInt32)
  /-- `ReleaseFrame` of a frame handed out. -/
  | returnToPool (f : FrameData)

namespace FecRun

open Receiver

def start (poolSize : Nat) : FecRun := ⟨.init poolSize, []⟩

def step (s : FecRun) : FecEvent → FecRun
  | .processFEC header payload =>
    ⟨s.receiver.processFEC header payload, s.uses ++ s.receiver.fecUses header payload⟩
  | .processPacket header payload nowUs =>
    ⟨s.receiver.processPacket header payload nowUs,
      s.uses ++ s.receiver.packetUses header payload nowUs⟩
  | .getNextFrame => { s with receiver := s.receiver.getNextFrame.2 }
  | .forceAdvanceTo frameId => { s with receiver := s.receiver.forceAdvanceTo frameId }
  | .returnToPool f => { s with receiver := s.receiver.returnToPool f }

def Safe (s : FecRun) : Prop := ∀ u ∈ s.uses, u.Safe

/-- A group that is stored has a packet and fits it, and a fragment is rebuilt only from a parity
packet that is no longer than a fragment. -/
def FecOk (s : FecRun) : FecEvent → Prop
  | .processFEC header _ =>
    ¬ header.frameId < s.receiver.nextFrameIdToRead → s.receiver.NewGroup header →
      s.receiver.HasFecPacket header ∧ header.dataSize.toNat ≤ 1500 ∧
      ∀ f, s.receiver.frameRing.get header.frameId = some f →
        onlyMissing f header.frameId header ≠ none → header.dataSize.toNat ≤ maxUdpPayload
  | .processPacket header payload nowUs =>
    ∀ r, s.receiver.atRecover header payload nowUs = some r →
      r.RebuildFits header.frameId (header.fragmentIndex / 5 * 5)
  | _ => True

theorem intact_step (s : FecRun) (e : FecEvent) (h : s.receiver.FecIntact) (he : FecOk s e) :
    (step s e).receiver.FecIntact := by
  cases e with
  | processFEC header payload =>
    exact h.processFEC payload fun hid hnew => ⟨(he hid hnew).1, (he hid hnew).2.1⟩
  | processPacket header payload nowUs =>
    exact h.congr (sameIntake_processPacket s.receiver header payload nowUs)
  | getNextFrame => exact h.congr (sameIntake_getNextFrame s.receiver)
  | forceAdvanceTo frameId => exact h.congr (sameIntake_forceAdvanceTo s.receiver frameId)
  | returnToPool f => exact h.congr (framesOnly_returnToPool s.receiver f).toSameIntake

theorem safe_step_iff (s : FecRun) (e : FecEvent) (h : s.receiver.FecIntact) (hs : Safe s) :
    Safe (step s e) ↔ FecOk s e := by
  have happend : ∀ new : List FecUse, (∀ u ∈ s.uses ++ new, u.Safe) ↔ ∀ u ∈ new, u.Safe := by
    intro new
    rw [List.forall_mem_append]
    exact and_iff_right hs
  cases e with
  | processFEC header payload => exact (happend _).trans (fecUses_safe_iff h header payload)
  | processPacket header payload nowUs =>
    exact (happend _).trans (packetUses_safe_iff h header payload nowUs)
  | getNextFrame => exact iff_of_true hs trivial
  | forceAdvanceTo frameId => exact iff_of_true hs trivial
  | returnToPool f => exact iff_of_true hs trivial

theorem safe_of_step (s : FecRun) (e : FecEvent) (h : Safe (step s e)) : Safe s := by
  cases e with
  | processFEC header payload => exact fun u hu => h u (List.mem_append_left _ hu)
  | processPacket header payload nowUs => exact fun u hu => h u (List.mem_append_left _ hu)
  | getNextFrame => exact h
  | forceAdvanceTo frameId => exact h
  | returnToPool f => exact h

/-- **FEC intake is safe** exactly when each group stored finds a packet and fits it, and no
fragment is rebuilt from a longer parity packet. -/
theorem fec_safe_iff (poolSize : Nat) (es : List FecEvent) :
    Safe (run step (start poolSize) es) ↔ Along step FecOk (start poolSize) es := by
  have hsafe : Safe (start poolSize) := fun _ hu => absurd hu List.not_mem_nil
  exact run_iff_along intact_step safe_step_iff safe_of_step (fecIntact_init poolSize) hsafe es

/-! ## Runs that are not safe -/

def zeros : Mem := fun _ => 0

/-- The parity packet of the first group of a frame. -/
def parityHeader (frameId : UInt32) (dataSize : UInt16) : FECHeader :=
  ⟨0x05, frameId, 0, 5, 0, dataSize⟩

/-- Parity packets of the frames `0, …, n - 1`. -/
def parities (n : Nat) : List FecEvent :=
  (List.range n).map fun k => .processFEC (parityHeader (.ofNat k) 1300) zeros

theorem parities_succ (n : Nat) :
    parities (n + 1) = parities n ++ [.processFEC (parityHeader (.ofNat n) 1300) zeros] := by
  unfold parities
  rw [List.range_succ, List.map_append]
  rfl

theorem slot_parity {j k : Nat} (hj : j < k) (hk : k < 1024) :
    (fecIdx (.ofNat k) 0).toNat % 1024 ≠ (fecIdx (.ofNat j) 0).toNat % 1024 := by
  have hslot : ∀ i, (fecIdx (.ofNat i) 0).toNat % 1024 = 13 * i % 1024 := by
    intro i
    have hzero : ((0 : UInt16) / 5).toUInt32 = 0 := rfl
    unfold fecIdx
    rw [hzero, UInt32.add_zero, UInt32.toNat_mul, UInt32.toNat_ofNat']
    show i % 2 ^ 32 * 13 % 2 ^ 32 % 1024 = 13 * i % 1024
    omega
  rw [hslot, hslot]
  omega

/-- The groups of the frames from `n` on are new and `m` packets are left. -/
structure Untouched (n m : Nat) (r : Receiver) : Prop where
  next : r.nextFrameIdToRead = 0
  frames : ∀ i, r.frameRing.get i = none
  pool : r.fecPool.pool.length = m
  slots : ∀ k, n ≤ k → k < 1024 → (r.fecRing.get (fecIdx (.ofNat k) 0)).fecReceived = false ∧
    (r.fecRing.get (fecIdx (.ofNat k) 0)).fecPacket = none

theorem Untouched.newGroup {n m : Nat} {r : Receiver} (h : Untouched n m r) (hn : n < 1024) :
    r.NewGroup (parityHeader (.ofNat n) 1300) := by
  refine .inl ?_
  show (!(r.fecRing.get (fecIdx (.ofNat n) 0)).fecReceived) = true
  rw [(h.slots n (Nat.le_refl n) hn).1]
  rfl

theorem Untouched.acquireFec {n m : Nat} {r : Receiver} (h : Untouched n m r) (hn : n < 1024) :
    r.acquireFec (parityHeader (.ofNat n) 1300) = r.fecPool.acquire :=
  acquireFec_empty (h.slots n (Nat.le_refl n) hn).2

/-- A new group takes a packet. -/
theorem Untouched.processFEC {n m : Nat} {r : Receiver} (h : Untouched n (m + 1) r)
    (hn : n < 1024) :
    Untouched (n + 1) m (r.processFEC (parityHeader (.ofNat n) 1300) zeros) := by
  obtain ⟨pkt, rest, hpool⟩ := List.exists_cons_of_length_eq_add_one h.pool
  have hacquire : r.acquireFec (parityHeader (.ofNat n) 1300) = (some pkt, ⟨rest⟩) := by
    rw [h.acquireFec hn]
    unfold PacketPool.acquire
    rw [hpool]
  have hstored : r.processFEC (parityHeader (.ofNat n) 1300) zeros =
      r.storeGroup (parityHeader (.ofNat n) 1300) zeros pkt ⟨rest⟩ := by
    unfold Receiver.processFEC
    have hid : ¬ (parityHeader (.ofNat n) 1300).frameId < r.nextFrameIdToRead := by
      rw [h.next]
      exact UInt32.not_lt_zero
    rw [if_neg hid, if_pos (h.newGroup hn), hacquire]
    dsimp only
    unfold tryRecover
    show (match r.frameRing.get _ with | none => _ | some f => _) = _
    rw [h.frames]
  rw [hstored]
  refine ⟨h.next, h.frames, ?_, fun k hk hk' => ?_⟩
  · show rest.length = m
    have hlen := h.pool
    rw [hpool] at hlen
    exact Nat.succ.inj hlen
  · have hget : (r.storeGroup (parityHeader (.ofNat n) 1300) zeros pkt ⟨rest⟩).fecRing.get
        (fecIdx (.ofNat k) 0) = r.fecRing.get (fecIdx (.ofNat k) 0) :=
      FixedRingBuffer.get_insert_ne r.fecRing _ (slot_parity hk hk')
    rw [hget]
    exact h.slots k (by omega) hk'

theorem untouched_parities (poolSize n : Nat) (hn : n ≤ 512) :
    Untouched n (512 - n) (run step (start poolSize) (parities n)).receiver := by
  induction n with
  | zero => exact ⟨rfl, fun _ => rfl, List.length_replicate, fun _ _ _ => ⟨rfl, rfl⟩⟩
  | succ n ih =>
    have hpool : 512 - n = 512 - (n + 1) + 1 := by omega
    have h := ih (by omega)
    rw [hpool] at h
    rw [parities_succ, run_append]
    exact h.processFEC (by omega)

/-- A new group without a packet left. -/
theorem Untouched.not_safe {n : Nat} {s : FecRun} (h : Untouched n 0 s.receiver) (hn : n < 1024) :
    ¬ Safe (step s (.processFEC (parityHeader (.ofNat n) 1300) zeros)) := by
  have hnull : s.receiver.fecUses (parityHeader (.ofNat n) 1300) zeros = [.fill none 1300] := by
    unfold fecUses
    have hid : ¬ (parityHeader (.ofNat n) 1300).frameId < s.receiver.nextFrameIdToRead := by
      rw [h.next]
      exact UInt32.not_lt_zero
    rw [if_neg hid, if_pos (h.newGroup hn), h.acquireFec hn]
    unfold PacketPool.acquire
    rw [List.length_eq_zero_iff.mp h.pool]
    rfl
  intro hsafe
  obtain ⟨pkt, hpkt, -⟩ := hsafe (.fill none 1300)
    (List.mem_append_right _ (by rw [hnull]; exact List.mem_singleton_self _))
  cases hpkt

/-- A keyframe of two fragments that lacks the first one. -/
def lastFragment : FecEvent :=
  .processPacket ⟨0x01, 0, 1, 2, 0, 0, 0, 0, 0x01, 1300⟩ zeros 0

theorem fec_not_safe :
    ¬ Safe (run step (start 30) (parities 513)) ∧
    ¬ Safe (run step (start 30) [.processFEC (parityHeader 0 1501) zeros]) ∧
    ¬ Safe (run step (start 30) [lastFragment, .processFEC (parityHeader 0 1400) zeros]) := by
  refine ⟨?_, fun h => ?_, fun h => ?_⟩
  · rw [parities_succ, run_append]
    exact (untouched_parities 30 512 (Nat.le_refl _)).not_safe (by decide)
  · obtain ⟨pkt, hpkt, hsize⟩ := h _ List.mem_cons_self
    cases hpkt
    exact absurd hsize (by decide)
  · have hmem : FecUse.rebuild 0 0 1400 ∈
        (run step (start 30) [lastFragment, .processFEC (parityHeader 0 1400) zeros]).uses :=
      List.mem_of_getLast? rfl
    exact absurd (h _ hmem).2 (by decide)

end FecRun

end RemotePlay.Client
