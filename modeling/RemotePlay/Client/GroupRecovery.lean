import RemotePlay.Client.Rebuild
import RemotePlay.Client.SlotInvariant

/-!
# Recovery of a group

`TryRecover` on a group of fragments of any sizes, cut by any sender: when the
parity payload is the XOR of the fragments and what the frame holds of them is
as it was sent, the one that is missing is restored with zeros behind it, and
nothing else is written (`tryRecover_group`). `Attempted` are the states of the
receiver in which the function is or could be called.
-/

namespace RemotePlay.Client

open Lib Protocol Host

/-- Fragment `i` of `fragments` with zeros behind it. -/
def paddedFragment (fragments : UInt16 → List UInt8) (i : UInt16) : Mem :=
  fun k => (fragments i).getD k 0

/-- `f` has fragment `i` as it was sent, and its size. -/
structure FrameData.HasFragment (fragments : UInt16 → List UInt8) (f : FrameData) (i : UInt16) :
    Prop where
  size : (f.fragmentSizes.get i.toNat).toNat = (fragments i).length
  bytes : ∀ k, k < (fragments i).length →
    f.buffer.get (i.toNat * 1300 + k) = paddedFragment fragments i k

/-- The group of `fec` inside the frame `f`: its parity payload, and what `f` has stored of it. -/
structure GenuineGroup (fragments : UInt16 → List UInt8) (f : FrameData) (fec : FECHeader)
    (payload : Mem) : Prop where
  inside : fec.fragmentStart.toNat + fec.fragmentCount.toNat ≤ f.totalFragments.toNat
  size_le : fec.dataSize.toNat ≤ 1300
  largest : fec.dataSize.toNat = (Finset.range fec.fragmentCount.toNat).sup fun j =>
    (fragments (fec.fragmentStart + UInt16.ofNat j)).length
  parity : ∀ k, k < fec.dataSize.toNat → payload k =
    (Finset.range fec.fragmentCount.toNat).fold (· ^^^ ·) 0 fun j =>
      paddedFragment fragments (fec.fragmentStart + UInt16.ofNat j) k
  stored : ∀ j, j < fec.fragmentCount.toNat →
    f.fragmentMap.get (fec.fragmentStart + UInt16.ofNat j).toNat = true →
      f.HasFragment fragments (fec.fragmentStart + UInt16.ofNat j)

namespace GenuineGroup

variable {fragments : UInt16 → List UInt8} {f : FrameData} {fec : FECHeader} {payload : Mem}

theorem length_le (h : GenuineGroup fragments f fec payload) {j : Nat}
    (hj : j < fec.fragmentCount.toNat) :
    (fragments (fec.fragmentStart + UInt16.ofNat j)).length ≤ 1300 := by
  refine Nat.le_trans ?_ h.size_le
  rw [h.largest]
  exact Finset.le_sup (f := fun j => (fragments (fec.fragmentStart + UInt16.ofNat j)).length)
    (Finset.mem_range.mpr hj)

/-- A stored member of the group is in its place. -/
theorem holds (h : GenuineGroup fragments f fec payload) {j : Nat}
    (hj : j < fec.fragmentCount.toNat)
    (hset : f.fragmentMap.get (fec.fragmentStart + UInt16.ofNat j).toNat = true) :
    f.Holds (paddedFragment fragments (fec.fragmentStart + UInt16.ofNat j))
      (fec.fragmentStart + UInt16.ofNat j) := by
  have hstored := h.stored j hj hset
  refine ⟨?_, fun k hk => ?_, fun k hk => ?_⟩
  · rw [hstored.size]
    exact h.length_le hj
  · rw [hstored.size] at hk
    exact hstored.bytes k hk
  · rw [hstored.size] at hk
    unfold paddedFragment
    rw [List.getD_eq_getElem?_getD, List.getElem?_eq_none hk]
    rfl

/-- The rebuilt fragment is the genuine one. -/
theorem get_recover (h : GenuineGroup fragments f fec payload) {pkt : Packet}
    (hpkt : pkt.data.get = payload) {missingIndex : UInt16}
    (hlacks : Receiver.Lacks f fec missingIndex) {k : Nat} (hk : k < fec.dataSize.toNat) :
    (Receiver.recover f fec pkt fec.fragmentStart missingIndex).buffer.get
        (missingIndex.toNat * 1300 + k) = paddedFragment fragments missingIndex k := by
  obtain ⟨j, hj, rfl⟩ := hlacks.mem
  have hinside := h.inside
  have := f.totalFragments.toNat_lt
  have hparity := h.parity k hk
  rw [Finset.range_eq_Ico] at hparity
  rw [Receiver.get_recover_in h.size_le hinside
    (fun j hj hne => h.holds hj (hlacks.others j hj hne)) hk, hpkt, hparity]
  exact EncodedPacket.parity_except (by omega) hj fun i => paddedFragment fragments i k

end GenuineGroup

namespace Receiver

/-- The map of a frame has room for its fragments. -/
theorem slotRule_mapSize : SlotRule (fun _ _ => True) fun _ f =>
    f.totalFragments.toNat ≤ f.fragmentMap.size where
  later _ h := h
  start _ _ := by
    unfold FrameData.start
    dsimp only
    split
    · exact Nat.le_refl _
    · next h => exact Nat.not_lt.mp h
  store {_ f header payload} h _ _ _ hin := by
    rw [f.store_eq header payload hin]
    exact h
  recover h _ := h
  finish h _ := h

/-- `r'` is `r` with the first `n` bytes of fragment `i` of the frame `f`, which is in the slot of
`fid`, written with `content`, and the fragment marked and counted. -/
structure Restores (r r' : Receiver) (fid : UInt32) (f : FrameData) (i : UInt16) (n : Nat)
    (content : Mem) : Prop extends FramesOnly r r' where
  framePool : r'.framePool = r.framePool
  slot : ∃ g, r'.frameRing = r.frameRing.insert fid (some g) ∧
    g.fragmentMap = f.fragmentMap.set i.toNat true ∧
    g.fragmentsReceived = f.fragmentsReceived + 1 ∧ g.buffer.size = f.buffer.size ∧
    (∀ k, k < n → g.buffer.get (i.toNat * maxUdpPayload + k) = content k) ∧
    ∀ k, k < i.toNat * maxUdpPayload ∨ i.toNat * maxUdpPayload + n ≤ k →
      g.buffer.get k = f.buffer.get k

theorem Lacks.unique {f : FrameData} {fec : FECHeader} {i i' : UInt16} (h : Lacks f fec i)
    (h' : Lacks f fec i') : i' = i := by
  by_contra hne
  obtain ⟨j, hj, rfl⟩ := h'.mem
  have hset := h.others j hj hne
  rw [h'.missing] at hset
  cases hset

variable {r : Receiver} {fid : UInt32} {f : FrameData} {fec : FECHeader} {pkt : Packet}
  {fragments : UInt16 → List UInt8}

/-- What `TryRecover` goes by. -/
theorem recovery_group (hf : r.frameAt fid = some f) (htallied : f.Tallied)
    (hmap : f.totalFragments.toNat ≤ f.fragmentMap.size)
    (hgroup : r.fecRing.get (fecIdx fid fec.fragmentStart) = ⟨fec, true, some pkt, fid⟩)
    (hinside : fec.fragmentStart.toNat + fec.fragmentCount.toNat ≤ f.totalFragments.toNat)
    {group : FECGroup} {i : UInt16} :
    r.recovery fid fec.fragmentStart = some (f, group, i) ↔
      group = ⟨fec, true, some pkt, fid⟩ ∧ Lacks f fec i ∧
        i.toNat * maxUdpPayload + fec.dataSize.toNat ≤ f.buffer.size := by
  obtain ⟨hget, hid⟩ := frameAt_eq_some.mp hf
  have htotal := f.totalFragments.toNat_lt
  rw [recovery_eq_some, and_iff_right hget, hgroup]
  constructor
  · rintro ⟨rfl, -, -, -, honly⟩
    obtain ⟨-, hlacking, hin⟩ := (onlyMissing_eq_some hinside hmap).mp honly
    exact ⟨rfl, lacks_of_lacking hlacking, hin⟩
  · rintro ⟨rfl, hlacks, hin⟩
    refine ⟨rfl, rfl, rfl, rfl, (onlyMissing_eq_some hinside hmap).mpr ⟨?_, ?_, hin⟩⟩
    · -- a frame that lacks a fragment is not complete
      obtain ⟨j, hj, rfl⟩ := hlacks.mem
      have hmember : (fec.fragmentStart + UInt16.ofNat j).toNat = fec.fragmentStart.toNat + j :=
        EncodedPacket.member_toNat (by omega)
      have hincomplete := htallied.incomplete (by rw [hmember]; omega) hlacks.missing
      rw [hid, hincomplete]
      simp
    · exact lacking_of_lacks (by omega) hlacks

theorem tryRecover_restores (hf : r.frameAt fid = some f) (htallied : f.Tallied)
    (hmap : f.totalFragments.toNat ≤ f.fragmentMap.size)
    (hgroup : r.fecRing.get (fecIdx fid fec.fragmentStart) = ⟨fec, true, some pkt, fid⟩)
    (hgenuine : GenuineGroup fragments f fec pkt.data.get) {i : UInt16} (hlacks : Lacks f fec i)
    (hin : i.toNat * maxUdpPayload + fec.dataSize.toNat ≤ f.buffer.size) :
    Restores r (r.tryRecover fid fec.fragmentStart) fid f i fec.dataSize.toNat
      (paddedFragment fragments i) := by
  have hrec := (recovery_group hf htallied hmap hgroup hgenuine.inside).mpr ⟨rfl, hlacks, hin⟩
  have heq : r.tryRecover fid fec.fragmentStart =
      r.complete (recover f fec pkt fec.fragmentStart i) fid := by
    rw [tryRecover_eq, hrec]
  have hsize := size_recover f fec pkt fec.fragmentStart i
  have hin : ∀ k, k < fec.dataSize.toNat →
      (recover f fec pkt fec.fragmentStart i).buffer.get (i.toNat * maxUdpPayload + k) =
        paddedFragment fragments i k := fun k hk => hgenuine.get_recover rfl hlacks hk
  have hout : ∀ k, k < i.toNat * maxUdpPayload ∨
      i.toNat * maxUdpPayload + fec.dataSize.toNat ≤ k →
      (recover f fec pkt fec.fragmentStart i).buffer.get k = f.buffer.get k :=
    fun k hk => get_recover_out f fec pkt hk
  refine ⟨framesOnly_tryRecover r fid _, ?_, ?_⟩
  · rw [heq]
    exact framePool_complete _ _ _
  · rw [heq]
    refine ⟨_, complete_eq _ _ _, ?_⟩
    split <;> exact ⟨rfl, rfl, hsize, hin, hout⟩

theorem tryRecover_none (hf : r.frameAt fid = some f) (htallied : f.Tallied)
    (hmap : f.totalFragments.toNat ≤ f.fragmentMap.size)
    (hgroup : r.fecRing.get (fecIdx fid fec.fragmentStart) = ⟨fec, true, some pkt, fid⟩)
    (hinside : fec.fragmentStart.toNat + fec.fragmentCount.toNat ≤ f.totalFragments.toNat)
    (hnone : ∀ i, Lacks f fec i →
      ¬ i.toNat * maxUdpPayload + fec.dataSize.toNat ≤ f.buffer.size) :
    r.tryRecover fid fec.fragmentStart = r := by
  have hrec : r.recovery fid fec.fragmentStart = none := by
    by_contra hsome
    obtain ⟨⟨f', group, i⟩, hrec⟩ := Option.ne_none_iff_exists'.mp hsome
    have hf' := (recovery_eq_some.mp hrec).1
    rw [(frameAt_eq_some.mp hf).1] at hf'
    cases hf'
    have hlacks := ((recovery_group hf htallied hmap hgroup hinside).mp hrec).2
    exact hnone i hlacks.1 hlacks.2
  rw [tryRecover_eq, hrec]

end Receiver

namespace FrameFlow

open Receiver

/-- The receiver between two calls, or where one of them comes to `TryRecover`. -/
inductive Attempted (poolSize : Nat) (maxFrames : UInt64) : Receiver → Prop
  | between (calls : List FrameCall) :
    Attempted poolSize maxFrames (run step (init poolSize maxFrames) calls).receiver
  | inProcessPacket (calls : List FrameCall) {header : VideoHeader} {payload : Mem}
    {nowUs : UInt64} {r : Receiver} :
    (run step (init poolSize maxFrames) calls).receiver.atRecover header payload nowUs = some r →
      Attempted poolSize maxFrames r
  | inProcessFEC (calls : List FrameCall) {header : FECHeader} (payload : Mem) {pkt : Packet}
    {pool : PacketPool} :
    ¬ header.frameId < (run step (init poolSize maxFrames) calls).receiver.nextFrameIdToRead →
      (run step (init poolSize maxFrames) calls).receiver.NewGroup header →
      (run step (init poolSize maxFrames) calls).receiver.acquireFec header = (some pkt, pool) →
      Attempted poolSize maxFrames
        ((run step (init poolSize maxFrames) calls).receiver.storeGroup header payload pkt pool)

variable {poolSize : Nat} {maxFrames : UInt64} {r : Receiver}

/-- The rule for these states. -/
theorem Attempted.frames {P : UInt32 → FrameData → Prop} (rule : SlotRule (fun _ _ => True) P)
    (h : Attempted poolSize maxFrames r) {i : UInt32} {f : FrameData}
    (hf : r.frameRing.get i = some f) : P r.lastCompletedFrameId f := by
  cases h with
  | between calls => exact (kept_reachable rule poolSize maxFrames calls i f hf).holds
  | inProcessFEC calls payload _ _ _ =>
    exact (kept_reachable rule poolSize maxFrames calls i f hf).holds
  | inProcessPacket calls hat =>
    have hkept := kept_reachable rule poolSize maxFrames calls
    exact hkept.atRecover rule (fun _ _ _ => trivial) hat hf

/-- **Recovery of a group.** -/
theorem tryRecover_group (h : Attempted poolSize maxFrames r) {fid : UInt32} {f : FrameData}
    (hf : r.frameAt fid = some f) {fec : FECHeader} {pkt : Packet}
    (hgroup : r.fecRing.get (fecIdx fid fec.fragmentStart) = ⟨fec, true, some pkt, fid⟩)
    {fragments : UInt16 → List UInt8} (hgenuine : GenuineGroup fragments f fec pkt.data.get) :
    (∀ i, Lacks f fec i →
      if i.toNat * maxUdpPayload + fec.dataSize.toNat ≤ f.buffer.size then
        Restores r (r.tryRecover fid fec.fragmentStart) fid f i fec.dataSize.toNat
          (paddedFragment fragments i)
      else r.tryRecover fid fec.fragmentStart = r) ∧
    ((¬ ∃ i, Lacks f fec i) → r.tryRecover fid fec.fragmentStart = r) := by
  have hget := (frameAt_eq_some.mp hf).1
  have htallied : f.Tallied := h.frames (slotRule_tallied _) hget
  have hmap : f.totalFragments.toNat ≤ f.fragmentMap.size := h.frames slotRule_mapSize hget
  have hinside := hgenuine.inside
  refine ⟨fun i hlacks => ?_, fun hnone => ?_⟩
  · split
    · next hin => exact tryRecover_restores hf htallied hmap hgroup hgenuine hlacks hin
    · next hout =>
      refine tryRecover_none hf htallied hmap hgroup hinside fun i' hlacks' => ?_
      rwa [hlacks.unique hlacks']
  · exact tryRecover_none hf htallied hmap hgroup hinside fun i hlacks => absurd ⟨i, hlacks⟩ hnone

/-- Fragment 1 of frame 5, a keyframe of three, is stored. -/
def fragmentOne : FrameCall :=
  .processPacket ⟨0x01, 5, 1, 3, 0, 0, 0, 0, 0x01, 2⟩ ([1, 2].getD · 0) 0

def parityOfTwo : FECHeader := ⟨0x05, 5, 1, 2, 0, 2⟩

/-- The parity of the last two arrives. -/
def parityStored : Receiver :=
  (run step (init 30 10) [fragmentOne]).receiver.storeGroup parityOfTwo (fun _ => 2) (.new 1500)
    ⟨.replicate 511 (.new 1500)⟩

theorem attempted_parityStored : Attempted 30 10 parityStored := by
  have hsame : ∀ s : FrameFlow, SameIntake s.receiver (run step s [fragmentOne]).receiver :=
    fun s => sameIntake_processPacket s.receiver _ _ _
  refine .inProcessFEC [fragmentOne] _ (by decide +kernel) (by decide +kernel) ?_
  rw [acquireFec_empty (by rw [(hsame _).fecRing]; rfl), (hsame _).fecPool]
  rfl

/-- The last fragment is the byte 3. -/
theorem tryRecover_group_two :
    ∃ f, parityStored.frameAt 5 = some f ∧
      Restores parityStored (parityStored.tryRecover 5 1) 5 f 2 2
        (paddedFragment (fun i => if i = 1 then [1, 2] else [3]) 2) := by
  obtain ⟨f, hf⟩ : ∃ f, parityStored.frameAt 5 = some f :=
    Option.isSome_iff_exists.mp (by decide +kernel)
  have hfields : (parityStored.frameAt 5).map (fun f => (f.totalFragments, f.fragmentMap.get 1,
      f.fragmentMap.get 2, f.fragmentSizes.get 1)) = some (3, true, false, 2) := by decide +kernel
  have hbuffers : (parityStored.frameAt 5).map (fun f => (f.buffer.get 1300, f.buffer.get 1301,
      f.buffer.size)) = some (1, 2, 1024 * 1024) := by decide +kernel
  rw [hf] at hfields hbuffers
  simp only [Option.map_some, Option.some.injEq, Prod.mk.injEq] at hfields hbuffers
  obtain ⟨htotal, hone, htwo, hsize⟩ := hfields
  obtain ⟨hbyte0, hbyte1, hbuffer⟩ := hbuffers
  have hlacks : Lacks f parityOfTwo 2 := by
    refine ⟨⟨1, by decide, rfl⟩, htwo, fun j hj hne => ?_⟩
    match j, hj, hne with
    | 0, _, _ => exact hone
    | 1, _, hne => exact absurd rfl hne
  have hgenuine : GenuineGroup (fun i => if i = 1 then [1, 2] else [3]) f parityOfTwo
      ((Packet.new 1500).data.copyIn 0 2 (fun _ => 2)).get := by
    refine ⟨by rw [htotal]; decide, by decide, by decide, by decide, fun j hj hset => ?_⟩
    match j, hj, hset with
    | 0, _, _ =>
      refine ⟨congrArg UInt16.toNat hsize, fun k hk => ?_⟩
      match k, hk with
      | 0, _ => exact hbyte0
      | 1, _ => exact hbyte1
    | 1, _, hset => exact absurd (htwo.symm.trans hset) (by decide)
  refine ⟨f, hf, ?_⟩
  have hrestores := (tryRecover_group attempted_parityStored hf rfl hgenuine).1 2 hlacks
  rwa [hbuffer, if_pos (by decide)] at hrestores

end FrameFlow

end RemotePlay.Client
