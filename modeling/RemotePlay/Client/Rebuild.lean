import RemotePlay.Client.Fec
import RemotePlay.Client.Reassembly
import RemotePlay.Host.Parity

/-!
# Rebuilt fragments

What `TryRecover` makes of a frame. `Filling` is the invariant of a frame some
of whose fragments are rebuilt from parity packets: a fragment that is marked
is the fragment sent, perhaps with zeros behind it, and its recorded size says
how far. A rebuilt fragment takes the size of the parity packet, which is too
long for a last fragment that is shorter than its group (`LastExact`).
-/

namespace RemotePlay.Client

open Lib Protocol Host

namespace Receiver

/-! ## The scan of a group -/

/-- `n` fragments of a group, from its `i`-th on. -/
def members (groupStart : UInt16) (i n : Nat) : List UInt16 :=
  (List.range' i n).map (groupStart + UInt16.ofNat ·)

theorem mem_members {groupStart idx : UInt16} {i n : Nat} :
    idx ∈ members groupStart i n ↔ ∃ j, i ≤ j ∧ j < i + n ∧ groupStart + UInt16.ofNat j = idx := by
  simp only [members, List.mem_map, List.mem_range'_1, and_assoc]

theorem members_succ (groupStart : UInt16) (i n : Nat) :
    members groupStart i (n + 1) =
      (groupStart + UInt16.ofNat i) :: members groupStart (i + 1) n := rfl

/-- The members of the group that `f` lacks. -/
def lacking (f : FrameData) (idxs : List UInt16) : List UInt16 :=
  idxs.filter fun idx => !f.fragmentMap.get idx.toNat

theorem mem_lacking {f : FrameData} {idxs : List UInt16} {idx : UInt16} :
    idx ∈ lacking f idxs ↔ idx ∈ idxs ∧ f.fragmentMap.get idx.toNat = false := by
  simp only [lacking, List.mem_filter, Bool.not_eq_true']

/-- The scan counts what is lacking and remembers the last of it. -/
theorem scanMissing_eq (f : FrameData) {groupStart : UInt16} {n i : Nat}
    (hin : ∀ idx ∈ members groupStart i n,
      idx.toNat < f.totalFragments.toNat ∧ idx.toNat < f.fragmentMap.size)
    (missing : UInt16 × UInt16) :
    scanMissing f groupStart missing n i =
      (missing.1 + UInt16.ofNat (lacking f (members groupStart i n)).length,
        (lacking f (members groupStart i n)).getLast?.getD missing.2) := by
  induction n generalizing i missing with
  | zero => exact Prod.ext (UInt16.add_zero _).symm rfl
  | succ n ih =>
    rw [members_succ, List.forall_mem_cons] at hin
    obtain ⟨⟨htotal, hsize⟩, hrest⟩ := hin
    have hin : ¬ (groupStart + UInt16.ofNat i ≥ f.totalFragments ∨
        (groupStart + UInt16.ofNat i).toNat ≥ f.fragmentMap.size) := by
      rw [ge_iff_le, UInt16.le_iff_toNat_le]
      omega
    unfold scanMissing
    dsimp only
    rw [if_neg hin, members_succ]
    by_cases hmap : f.fragmentMap.get (groupStart + UInt16.ofNat i).toNat = true
    · have hskip : lacking f ((groupStart + UInt16.ofNat i) :: members groupStart (i + 1) n) =
          lacking f (members groupStart (i + 1) n) :=
        List.filter_cons_of_neg (by rw [hmap]; decide)
      rw [if_pos hmap, ih hrest, hskip]
    · have htake : lacking f ((groupStart + UInt16.ofNat i) :: members groupStart (i + 1) n) =
          (groupStart + UInt16.ofNat i) :: lacking f (members groupStart (i + 1) n) :=
        List.filter_cons_of_pos (by simpa using hmap)
      rw [if_neg hmap, ih hrest, htake, List.getLast?_cons, List.length_cons, Option.getD_some,
        UInt16.add_assoc]
      refine Prod.ext ?_ rfl
      show missing.1 + (1 + UInt16.ofNat _) = missing.1 + UInt16.ofNat (_ + 1)
      rw [UInt16.ofNat_add, UInt16.add_comm (UInt16.ofNat _)]
      rfl

/-- Of the group of `fec`, `f` lacks `missingIndex` and no other. -/
structure Lacks (f : FrameData) (fec : FECHeader) (missingIndex : UInt16) : Prop where
  mem : ∃ j, j < fec.fragmentCount.toNat ∧ fec.fragmentStart + UInt16.ofNat j = missingIndex
  missing : f.fragmentMap.get missingIndex.toNat = false
  others : ∀ j, j < fec.fragmentCount.toNat → fec.fragmentStart + UInt16.ofNat j ≠ missingIndex →
    f.fragmentMap.get (fec.fragmentStart + UInt16.ofNat j).toNat = true

theorem lacks_of_lacking {f : FrameData} {fec : FECHeader} {missingIndex : UInt16}
    (h : lacking f (members fec.fragmentStart 0 fec.fragmentCount.toNat) = [missingIndex]) :
    Lacks f fec missingIndex := by
  have hmem : ∀ idx, idx ∈ lacking f (members fec.fragmentStart 0 fec.fragmentCount.toNat) ↔
      idx = missingIndex := by
    intro idx
    rw [h, List.mem_singleton]
  obtain ⟨hin, hmissing⟩ := mem_lacking.mp ((hmem missingIndex).mpr rfl)
  obtain ⟨j, -, hj, heq⟩ := mem_members.mp hin
  refine ⟨⟨j, by omega, heq⟩, hmissing, fun j hj hne => ?_⟩
  by_contra hnot
  refine hne ((hmem _).mp (mem_lacking.mpr ⟨mem_members.mpr ⟨j, Nat.zero_le j, ?_, rfl⟩, ?_⟩))
  · omega
  · exact Bool.not_eq_true _ ▸ hnot

/-- The members of a group inside a frame. -/
theorem nodup_members {groupStart : UInt16} {n : Nat} (hn : groupStart.toNat + n ≤ 2 ^ 16) :
    (members groupStart 0 n).Nodup := by
  refine (List.nodup_range' ..).map_on fun j hj j' hj' heq => ?_
  rw [List.mem_range'_1] at hj hj'
  have heq := congrArg UInt16.toNat heq
  rw [EncodedPacket.member_toNat (by omega), EncodedPacket.member_toNat (by omega)] at heq
  omega

theorem lacking_of_lacks {f : FrameData} {fec : FECHeader} {missingIndex : UInt16}
    (hn : fec.fragmentStart.toNat + fec.fragmentCount.toNat ≤ 2 ^ 16)
    (h : Lacks f fec missingIndex) :
    lacking f (members fec.fragmentStart 0 fec.fragmentCount.toNat) = [missingIndex] := by
  have hnodup : (lacking f (members fec.fragmentStart 0 fec.fragmentCount.toNat)).Nodup :=
    (nodup_members hn).filter _
  rw [← List.perm_singleton, List.perm_ext_iff_of_nodup hnodup (List.nodup_singleton _)]
  intro idx
  rw [List.mem_singleton, mem_lacking, mem_members]
  constructor
  · rintro ⟨⟨j, -, hj, rfl⟩, hmissing⟩
    by_contra hne
    rw [h.others j (by omega) hne] at hmissing
    cases hmissing
  · rintro rfl
    obtain ⟨j, hj, heq⟩ := h.mem
    exact ⟨⟨j, Nat.zero_le j, by omega, heq⟩, h.missing⟩

theorem frameId_of_onlyMissing {f : FrameData} {frameId : UInt32} {fec : FECHeader}
    {missingIndex : UInt16} (h : onlyMissing f frameId fec = some missingIndex) :
    f.frameId = frameId := by
  unfold onlyMissing at h
  split at h
  · cases h
  · next hok => exact not_not.mp fun hne => hok (.inl hne)

/-- Of a group inside a frame that is not complete, `TryRecover` rebuilds the one fragment that is
lacking, when its place is inside the buffer. -/
theorem onlyMissing_eq_some {f : FrameData} {frameId : UInt32} {fec : FECHeader}
    {missingIndex : UInt16}
    (hinside : fec.fragmentStart.toNat + fec.fragmentCount.toNat ≤ f.totalFragments.toNat)
    (hmap : f.totalFragments.toNat ≤ f.fragmentMap.size) :
    onlyMissing f frameId fec = some missingIndex ↔
      ¬ (f.frameId ≠ frameId ∨ f.isComplete = true) ∧
        lacking f (members fec.fragmentStart 0 fec.fragmentCount.toNat) = [missingIndex] ∧
        missingIndex.toNat * maxUdpPayload + fec.dataSize.toNat ≤ f.buffer.size := by
  have htotal := f.totalFragments.toNat_lt
  have hin : ∀ idx ∈ members fec.fragmentStart 0 fec.fragmentCount.toNat,
      idx.toNat < f.totalFragments.toNat ∧ idx.toNat < f.fragmentMap.size := by
    intro idx hidx
    obtain ⟨j, -, hj, rfl⟩ := mem_members.mp hidx
    rw [EncodedPacket.member_toNat (by omega)]
    omega
  have hle : (lacking f (members fec.fragmentStart 0 fec.fragmentCount.toNat)).length < 2 ^ 16 := by
    refine Nat.lt_of_le_of_lt (List.length_filter_le _ _) ?_
    rw [members, List.length_map, List.length_range']
    omega
  unfold onlyMissing
  rw [scanMissing_eq f hin]
  generalize lacking f (members fec.fragmentStart 0 fec.fragmentCount.toNat) = idxs at hle
  split
  · next hskip => simp [hskip]
  next hgo =>
  rw [and_iff_right hgo]
  have hone : (0 : UInt16) + UInt16.ofNat idxs.length = 1 ↔ idxs.length = 1 := by
    rw [UInt16.zero_add, ← UInt16.toNat_inj, UInt16.toNat_ofNat', Nat.mod_eq_of_lt hle]
    rfl
  dsimp only
  simp only [hone]
  constructor
  · intro h
    split at h
    · next hin =>
      obtain ⟨idx, rfl⟩ := List.length_eq_one_iff.mp hin.1
      cases h
      exact ⟨rfl, hin.2⟩
    · cases h
  · rintro ⟨rfl, hfits⟩
    exact if_pos ⟨rfl, hfits⟩

/-- The fragment that `TryRecover` rebuilds is the one its group lacks. -/
theorem lacks_of_onlyMissing {f : FrameData} {frameId : UInt32} {fec : FECHeader}
    {missingIndex : UInt16} (h : onlyMissing f frameId fec = some missingIndex)
    (hinside : fec.fragmentStart.toNat + fec.fragmentCount.toNat ≤ f.totalFragments.toNat)
    (hmap : f.totalFragments.toNat ≤ f.fragmentMap.size) : Lacks f fec missingIndex :=
  lacks_of_lacking ((onlyMissing_eq_some hinside hmap).mp h).2.1

/-! ## The XOR -/

/-- The byte of the rebuilt fragment after one other fragment. -/
theorem get_xorBytes_in (buffer : Vec UInt8) {recovered other n k : Nat}
    (happart : other + n ≤ recovered ∨ recovered + n ≤ other) (hk : k < n) :
    (xorBytes buffer recovered other n).get (recovered + k) =
      buffer.get (recovered + k) ^^^ buffer.get (other + k) := by
  induction n with
  | zero => omega
  | succ n ih =>
    unfold xorBytes
    dsimp only
    rw [Vec.get_set]
    rcases Nat.eq_or_lt_of_le (Nat.le_of_lt_succ hk) with rfl | hlt
    · rw [if_pos rfl, get_xorBytes_out buffer (.inr (Nat.le_refl _)),
        get_xorBytes_out buffer (by omega)]
    · rw [if_neg (by omega)]
      exact ih (by omega) hlt

end Receiver

namespace FrameData

/-- `content` is in the place of fragment `i`, up to its recorded size, and zero behind it. -/
structure Holds (content : Mem) (f : FrameData) (i : UInt16) : Prop where
  size_le : (f.fragmentSizes.get i.toNat).toNat ≤ 1300
  bytes : ∀ k, k < (f.fragmentSizes.get i.toNat).toNat →
    f.buffer.get (i.toNat * 1300 + k) = content k
  zero : ∀ k, (f.fragmentSizes.get i.toNat).toNat ≤ k → content k = 0

/-- Fragment `i` of `frame` is in its place, up to its recorded size. -/
structure HoldsFragment (frame : EncodedPacket) (f : FrameData) (i : UInt16) : Prop where
  size : (frame.fragmentSize i).toNat ≤ (f.fragmentSizes.get i.toNat).toNat
  size_le : (f.fragmentSizes.get i.toNat).toNat ≤ 1300
  bytes : ∀ k, k < (f.fragmentSizes.get i.toNat).toNat →
    f.buffer.get (i.toNat * 1300 + k) = frame.padded i k

theorem HoldsFragment.congr {frame : EncodedPacket} {f f' : FrameData} {i : UInt16}
    (h : f.HoldsFragment frame i)
    (hsize : f'.fragmentSizes.get i.toNat = f.fragmentSizes.get i.toNat)
    (hbytes : ∀ k, k < 1300 → f'.buffer.get (i.toNat * 1300 + k) =
      f.buffer.get (i.toNat * 1300 + k)) : f'.HoldsFragment frame i := by
  refine ⟨?_, ?_, fun k hk => ?_⟩
  · rw [hsize]
    exact h.size
  · rw [hsize]
    exact h.size_le
  · rw [hsize] at hk
    have hle := h.size_le
    rw [hbytes k (by omega), h.bytes k hk]

/-- Past the end of the fragment there are zeros. -/
theorem HoldsFragment.holds {frame : EncodedPacket} {f : FrameData} {i : UInt16}
    (h : f.HoldsFragment frame i) : f.Holds (frame.padded i) i :=
  ⟨h.size_le, h.bytes, fun _ hk => if_neg (Nat.not_lt.mpr (Nat.le_trans h.size hk))⟩

end FrameData

namespace Receiver

/-- One round of the XOR. -/
theorem get_xorRound {bytes : Mem} {f : FrameData} {dataSize missingIndex idx : UInt16}
    {buffer : Vec UInt8} (hheld : f.Holds bytes idx) (hne : idx ≠ missingIndex)
    (hsize : dataSize.toNat ≤ 1300)
    (hsame : ∀ k, k < 1300 →
      buffer.get (idx.toNat * 1300 + k) = f.buffer.get (idx.toNat * 1300 + k))
    {k : Nat} (hk : k < dataSize.toNat) :
    (xorBytes buffer (missingIndex.toNat * 1300) (idx.toNat * 1300)
        (min dataSize.toNat (f.fragmentSizes.get idx.toNat).toNat)).get
          (missingIndex.toNat * 1300 + k) =
      buffer.get (missingIndex.toNat * 1300 + k) ^^^ bytes k := by
  have hne : idx.toNat ≠ missingIndex.toNat := fun h => hne (UInt16.toNat_inj.mp h)
  have happart : idx.toNat * 1300 + 1300 ≤ missingIndex.toNat * 1300 ∨
      missingIndex.toNat * 1300 + 1300 ≤ idx.toNat * 1300 := by omega
  have hfits := hheld.size_le
  by_cases hin : k < (f.fragmentSizes.get idx.toNat).toNat
  · rw [get_xorBytes_in buffer (by omega) (by omega), hsame k (by omega), hheld.bytes k hin]
  · -- past the end of the other fragment there is nothing to add
    rw [get_xorBytes_out buffer (by omega), hheld.zero k (by omega), UInt8.xor_zero]

/-- The rebuilt fragment after the rounds from the `i`-th on. -/
theorem get_xorGroup_in {bytes : UInt16 → Mem} {f : FrameData}
    {dataSize start missingIndex : UInt16} (hsize : dataSize.toNat ≤ 1300) {n i : Nat}
    (hin : ∀ j, i ≤ j → j < i + n → (start + UInt16.ofNat j).toNat < f.totalFragments.toNat)
    (hheld : ∀ j, i ≤ j → j < i + n → start + UInt16.ofNat j ≠ missingIndex →
      f.Holds (bytes (start + UInt16.ofNat j)) (start + UInt16.ofNat j))
    {buffer : Vec UInt8} (hsame : ∀ k, k < missingIndex.toNat * 1300 ∨
      missingIndex.toNat * 1300 + 1300 ≤ k → buffer.get k = f.buffer.get k)
    {k : Nat} (hk : k < dataSize.toNat) :
    (xorGroup f dataSize start missingIndex buffer n i).get (missingIndex.toNat * 1300 + k) =
      buffer.get (missingIndex.toNat * 1300 + k) ^^^
        (Finset.Ico i (i + n)).fold (· ^^^ ·) 0 fun j =>
          if start + UInt16.ofNat j = missingIndex then 0
          else bytes (start + UInt16.ofNat j) k := by
  induction n generalizing i buffer with
  | zero =>
    rw [Nat.add_zero, Finset.Ico_self, Finset.fold_empty, UInt8.xor_zero]
    rfl
  | succ n ih =>
    have hrest := @ih (i + 1) (fun j hj hj' => hin j (by omega) (by omega))
      (fun j hj hj' => hheld j (by omega) (by omega))
    have hlt := hin i (Nat.le_refl i) (by omega)
    rw [fold_Ico_succ]
    unfold xorGroup
    dsimp only
    rw [FrameData.maxUdpPayload_eq]
    by_cases hidx : start + UInt16.ofNat i = missingIndex
    · rw [if_pos (.inl hidx), if_pos hidx, UInt8.zero_xor]
      exact hrest hsame
    · have hgo : ¬ (start + UInt16.ofNat i = missingIndex ∨
          start + UInt16.ofNat i ≥ f.totalFragments) := by
        rw [ge_iff_le, UInt16.le_iff_toNat_le]
        rintro (h | h)
        · exact hidx h
        · omega
      have hne : (start + UInt16.ofNat i).toNat ≠ missingIndex.toNat :=
        fun h => hidx (UInt16.toNat_inj.mp h)
      rw [if_neg hgo, if_neg hidx, ← UInt8.xor_assoc,
        ← get_xorRound (hheld i (Nat.le_refl i) (by omega) hidx) hidx hsize
          (fun k hk => hsame _ (by omega)) hk]
      refine hrest fun k hk => ?_
      rw [get_xorBytes_out buffer (by omega)]
      exact hsame k hk

/-- The place of the rebuilt fragment has what the parity packet and the other members of its
group, which the frame holds, add up to. -/
theorem get_recover_in {bytes : UInt16 → Mem} {f : FrameData} {fec : FECHeader} {pkt : Packet}
    {missingIndex : UInt16} (hsize : fec.dataSize.toNat ≤ 1300)
    (hinside : fec.fragmentStart.toNat + fec.fragmentCount.toNat ≤ f.totalFragments.toNat)
    (hheld : ∀ j, j < fec.fragmentCount.toNat → fec.fragmentStart + UInt16.ofNat j ≠ missingIndex →
      f.Holds (bytes (fec.fragmentStart + UInt16.ofNat j)) (fec.fragmentStart + UInt16.ofNat j))
    {k : Nat} (hk : k < fec.dataSize.toNat) :
    (recover f fec pkt fec.fragmentStart missingIndex).buffer.get (missingIndex.toNat * 1300 + k) =
      pkt.data.get k ^^^ (Finset.Ico 0 fec.fragmentCount.toNat).fold (· ^^^ ·) 0 fun j =>
        if fec.fragmentStart + UInt16.ofNat j = missingIndex then 0
        else bytes (fec.fragmentStart + UInt16.ofNat j) k := by
  have hmember : ∀ j, j < 0 + fec.fragmentCount.toNat →
      (fec.fragmentStart + UInt16.ofNat j).toNat < f.totalFragments.toNat := by
    intro j hj
    have := f.totalFragments.toNat_lt
    rw [EncodedPacket.member_toNat (by omega)]
    omega
  -- the parity packet is copied to the place, and the other fragments are added to it
  have hsame : ∀ k, k < missingIndex.toNat * 1300 ∨ missingIndex.toNat * 1300 + 1300 ≤ k →
      (f.buffer.copyIn (missingIndex.toNat * 1300) fec.dataSize.toNat pkt.data.get).get k =
        f.buffer.get k :=
    fun k hk => Vec.get_copyIn_out f.buffer _ (by omega)
  have hcopied : (f.buffer.copyIn (missingIndex.toNat * 1300) fec.dataSize.toNat
      pkt.data.get).get (missingIndex.toNat * 1300 + k) = pkt.data.get k := by
    rw [Vec.get_copyIn_in _ _ (Nat.le_add_right _ _) (by omega), Nat.add_sub_cancel_left]
  have hxor := @get_xorGroup_in bytes f fec.dataSize fec.fragmentStart missingIndex hsize
    fec.fragmentCount.toNat 0 (fun j _ hj => hmember j hj)
    (fun j _ hj hne => hheld j (by omega) hne) _ hsame k hk
  rw [hcopied, Nat.zero_add] at hxor
  exact hxor

/-- **A rebuilt fragment** is the one that was lost, with zeros up to the size of the parity
packet. -/
theorem holdsFragment_recover {frame : EncodedPacket} {f : FrameData} {fec : FECHeader}
    {pkt : Packet} {missingIndex : UInt16} (hparity : frame.ParityOf fec pkt.data.get)
    (htotal : f.totalFragments = frame.totalFrags) (hlacks : Lacks f fec missingIndex)
    (hheld : ∀ i : UInt16, i.toNat < frame.totalFrags.toNat →
      f.fragmentMap.get i.toNat = true → f.HoldsFragment frame i) :
    (recover f fec pkt fec.fragmentStart missingIndex).HoldsFragment frame missingIndex := by
  obtain ⟨j, hj, hidx⟩ := hlacks.mem
  have hinside := hparity.inside
  have hsize : (recover f fec pkt fec.fragmentStart missingIndex).fragmentSizes.get
      missingIndex.toNat = fec.dataSize := if_pos rfl
  refine ⟨?_, ?_, fun k hk => ?_⟩
  · rw [hsize, ← hidx]
    exact hparity.covers j hj
  · rw [hsize]
    exact hparity.size_le
  rw [hsize] at hk
  have hothers : ∀ j, j < fec.fragmentCount.toNat →
      fec.fragmentStart + UInt16.ofNat j ≠ missingIndex →
      f.Holds (frame.padded (fec.fragmentStart + UInt16.ofNat j))
        (fec.fragmentStart + UInt16.ofNat j) := by
    intro j hj hne
    refine (hheld _ ?_ (hlacks.others j hj hne)).holds
    rw [hparity.member_toNat hj]
    omega
  rw [get_recover_in hparity.size_le (by rw [htotal]; exact hinside) hothers hk, ← hidx]
  exact hparity.missing hj hk

end Receiver

/-! ## A frame with rebuilt fragments -/

namespace FrameData

/-- `g` is `f` with fragment `i`, of `n` bytes, put in its place. -/
structure Puts (i n : UInt16) (f g : FrameData) : Prop where
  totalFragments : g.totalFragments = f.totalFragments
  isComplete : g.isComplete = f.isComplete
  fragmentMap : g.fragmentMap = f.fragmentMap.set i.toNat true
  fragmentSizes : g.fragmentSizes = f.fragmentSizes.set i.toNat n
  fragmentsReceived : g.fragmentsReceived = f.fragmentsReceived + 1
  totalSize : g.totalSize = if i.toNat + 1 = f.totalFragments.toNat then i.toNat * 1300 + n.toNat
    else f.totalSize
  buffer : ∀ k, k < i.toNat * 1300 ∨ i.toNat * 1300 + 1300 ≤ k → g.buffer.get k = f.buffer.get k

/-- What `f` holds of `frame`: a fragment that is marked is there, and the last one gives the size
of the frame. -/
structure Filling (frame : EncodedPacket) (f : FrameData) : Prop where
  total : f.totalFragments = frame.totalFrags
  mapSize : frame.totalFrags.toNat ≤ f.fragmentMap.size
  tally : ∃ got, Tally f.fragmentMap.get f.fragmentsReceived.toNat frame.totalFrags.toNat got
  held : ∀ i : UInt16, i.toNat < frame.totalFrags.toNat → f.fragmentMap.get i.toNat = true →
    f.HoldsFragment frame i
  totalSize : ∀ i : UInt16, i.toNat + 1 = frame.totalFrags.toNat →
    f.fragmentMap.get i.toNat = true →
      f.totalSize = i.toNat * 1300 + (f.fragmentSizes.get i.toNat).toNat
  complete : f.isComplete = true → ∀ i, i < frame.totalFrags.toNat → f.fragmentMap.get i = true

/-- The last fragment, if it is there, is recorded with its own size. -/
def LastExact (frame : EncodedPacket) (f : FrameData) : Prop :=
  ∀ i : UInt16, i.toNat + 1 = frame.totalFrags.toNat → f.fragmentMap.get i.toNat = true →
    f.fragmentSizes.get i.toNat = frame.fragmentSize i

variable {frame : EncodedPacket} {f g : FrameData} {i n : UInt16}

theorem Filling.put (hfit : frame.Fits) (h : f.Filling frame) (hputs : Puts i n f g)
    (hi : i.toNat < frame.totalFrags.toNat) (hmiss : f.fragmentMap.get i.toNat = false)
    (hheld : g.HoldsFragment frame i) : g.Filling frame := by
  obtain ⟨got, htally⟩ := h.tally
  have hmap : ∀ k, g.fragmentMap.get k = if k = i.toNat then true else f.fragmentMap.get k := by
    intro k
    rw [hputs.fragmentMap]
    rfl
  have hsizes : ∀ k, g.fragmentSizes.get k = if k = i.toNat then n else f.fragmentSizes.get k := by
    intro k
    rw [hputs.fragmentSizes]
    rfl
  refine ⟨hputs.totalFragments.trans h.total, ?_, ⟨insert i.toNat got, ?_⟩, fun j hj hjmap => ?_,
    fun j hj hjmap => ?_, fun hc => ?_⟩
  · rw [hputs.fragmentMap]
    exact h.mapSize
  · have hcount : g.fragmentsReceived.toNat = f.fragmentsReceived.toNat + 1 := by
      have hlt := htally.count_lt hi hmiss
      have hle := EncodedPacket.totalFrags_le hfit
      rw [hputs.fragmentsReceived, UInt16.toNat_add]
      show (f.fragmentsReceived.toNat + 1) % 65536 = _
      omega
    rw [hcount, funext hmap]
    exact htally.mark hi hmiss
  · by_cases heq : j = i
    · rw [heq]
      exact hheld
    have hne : j.toNat ≠ i.toNat := fun h => heq (UInt16.toNat_inj.mp h)
    rw [hmap, if_neg hne] at hjmap
    refine (h.held j hj hjmap).congr (by rw [hsizes, if_neg hne]) fun k hk => ?_
    exact hputs.buffer _ (by omega)
  · rw [hputs.totalSize, h.total, hsizes]
    by_cases heq : j = i
    · rw [← heq, if_pos hj, if_pos rfl]
    have hne : j.toNat ≠ i.toNat := fun h => heq (UInt16.toNat_inj.mp h)
    rw [hmap, if_neg hne] at hjmap
    rw [if_neg (by omega), if_neg hne]
    exact h.totalSize j hj hjmap
  · -- a frame that was complete lacks no fragment
    rw [hputs.isComplete] at hc
    have hset := h.complete hc i.toNat hi
    rw [hmiss] at hset
    cases hset

theorem Puts.lastExact_iff (hputs : Puts i n f g) (hmiss : f.fragmentMap.get i.toNat = false) :
    g.LastExact frame ↔
      f.LastExact frame ∧ (i.toNat + 1 = frame.totalFrags.toNat → n = frame.fragmentSize i) := by
  unfold LastExact
  rw [hputs.fragmentMap, hputs.fragmentSizes]
  constructor
  · intro h
    refine ⟨fun j hj hjmap => ?_, fun hi => ?_⟩
    · have hne : j.toNat ≠ i.toNat := by
        intro heq
        rw [heq, hmiss] at hjmap
        cases hjmap
      have hj := h j hj (get_set_true hjmap)
      rwa [Vec.get_set, if_neg hne] at hj
    · have hi := h i hi (if_pos rfl)
      rwa [Vec.get_set, if_pos rfl] at hi
  · rintro ⟨h, hi⟩ j hj hjmap
    rw [Vec.get_set] at hjmap ⊢
    by_cases heq : j.toNat = i.toNat
    · rw [if_pos heq, UInt16.toNat_inj.mp heq]
      exact hi (heq ▸ hj)
    · rw [if_neg heq] at hjmap ⊢
      exact h j hj hjmap

theorem filling_start (f : FrameData) {header : VideoHeader}
    (htotal : header.totalFragments = frame.totalFrags) (nowUs : UInt64) :
    (f.start header nowUs).Filling frame := by
  obtain ⟨-, -, htot, hrecv, hcomp, -, hmap⟩ := start_eq f header nowUs
  refine ⟨htot.trans htotal, ?_, ⟨∅, ?_⟩, fun j _ hj => ?_, fun j _ hj => ?_, fun hc => ?_⟩
  · rw [← htotal]
    unfold start
    dsimp only
    split
    · exact Nat.le_refl _
    · next h => exact Nat.le_of_not_lt h
  · rw [hrecv, funext hmap]
    exact Tally.empty _
  · rw [hmap] at hj
    cases hj
  · rw [hmap] at hj
    cases hj
  · rw [hcomp] at hc
    cases hc

theorem lastExact_start (f : FrameData) (header : VideoHeader) (nowUs : UInt64) :
    (f.start header nowUs).LastExact frame := by
  intro j _ hj
  rw [(start_eq f header nowUs).2.2.2.2.2.2] at hj
  cases hj

/-- A fragment as it was sent, when it fits the buffer. -/
theorem Filling.store (hfit : frame.Fits) (h : f.Filling frame) {fid : UInt32}
    {header : VideoHeader} {payload : Mem} (hg : IsFragment frame fid header payload)
    (hmiss : f.fragmentMap.get header.fragmentIndex.toNat = false) :
    (f.store header payload).Filling frame ∧
      ((f.store header payload).LastExact frame ↔ f.LastExact frame) := by
  have hsize := EncodedPacket.fragmentSize_toNat hfit header.fragmentIndex
  by_cases hin : header.fragmentIndex.toNat * maxUdpPayload + header.dataSize.toNat ≤ f.buffer.size
  · have heq := store_eq f header payload hin
    rw [maxUdpPayload_eq, hg.dataSize] at heq
    have hputs : Puts header.fragmentIndex (frame.fragmentSize header.fragmentIndex) f
        (f.store header payload) := by
      rw [heq]
      refine ⟨rfl, rfl, rfl, rfl, rfl, ?_, fun k hk => Vec.get_copyIn_out _ _ (by omega)⟩
      rw [hg.totalFragments, h.total]
    have hheld : (f.store header payload).HoldsFragment frame header.fragmentIndex := by
      have hget : (f.store header payload).fragmentSizes.get header.fragmentIndex.toNat =
          frame.fragmentSize header.fragmentIndex := by
        rw [hputs.fragmentSizes]
        exact if_pos rfl
      refine ⟨Nat.le_of_eq (by rw [hget]), by rw [hget]; omega, fun k hk => ?_⟩
      rw [hget] at hk
      rw [heq]
      show (f.buffer.copyIn _ _ payload).get _ = _
      rw [Vec.get_copyIn_in _ _ (Nat.le_add_right _ _) (by omega), Nat.add_sub_cancel_left,
        hg.payload_eq k hk]
      exact (if_pos hk).symm
    exact ⟨h.put hfit hputs hg.index_lt hmiss hheld,
      (hputs.lastExact_iff hmiss).trans (and_iff_left fun _ => rfl)⟩
  · have hkept : f.store header payload = f := by
      unfold FrameData.store
      exact if_neg hin
    rw [hkept]
    exact ⟨h, Iff.rfl⟩

/-- A fragment rebuilt from a parity packet. -/
theorem Filling.recover (hfit : frame.Fits) (h : f.Filling frame) {fec : FECHeader} {pkt : Packet}
    (hparity : frame.ParityOf fec pkt.data.get) (hlacks : Receiver.Lacks f fec i) :
    (Receiver.recover f fec pkt fec.fragmentStart i).Filling frame ∧
      ((Receiver.recover f fec pkt fec.fragmentStart i).LastExact frame ↔
        f.LastExact frame ∧
          (i.toNat + 1 = frame.totalFrags.toNat → fec.dataSize = frame.fragmentSize i)) := by
  have hputs : Puts i fec.dataSize f (Receiver.recover f fec pkt fec.fragmentStart i) := by
    refine ⟨rfl, rfl, rfl, rfl, rfl, rfl, fun k hk => ?_⟩
    have := hparity.size_le
    refine Receiver.get_recover_out f fec pkt ?_
    rw [maxUdpPayload_eq]
    omega
  have hi : i.toNat < frame.totalFrags.toNat := by
    obtain ⟨j, hj, rfl⟩ := hlacks.mem
    have := hparity.inside
    rw [hparity.member_toNat hj]
    omega
  exact ⟨h.put hfit hputs hi hlacks.missing
    (Receiver.holdsFragment_recover hparity h.total hlacks h.held),
    hputs.lastExact_iff hlacks.missing⟩

/-- The mark follows the count. -/
theorem Filling.mark (h : f.Filling frame) :
    (if f.fragmentsReceived = f.totalFragments then { f with isComplete := true } else f).Filling
      frame := by
  split
  · next hc =>
    obtain ⟨got, htally⟩ := h.tally
    refine ⟨h.total, h.mapSize, ⟨got, htally⟩, fun j hj hjmap => ?_, h.totalSize, fun _ j hj => ?_⟩
    · exact ⟨(h.held j hj hjmap).size, (h.held j hj hjmap).size_le, (h.held j hj hjmap).bytes⟩
    · rw [hc, h.total] at htally
      exact (htally.map_eq j hj).mpr (htally.full_iff.mp rfl j hj)
  · exact h

theorem lastExact_mark :
    (if f.fragmentsReceived = f.totalFragments then { f with isComplete := true } else f).LastExact
      frame ↔ f.LastExact frame := by
  split <;> exact Iff.rfl

/-! ### Complete frames -/

theorem Filling.last (hfit : frame.Fits) (h : f.Filling frame) (hc : f.isComplete = true) :
    ∃ i : UInt16, i.toNat + 1 = frame.totalFrags.toNat ∧ f.fragmentMap.get i.toNat = true ∧
      f.totalSize = i.toNat * 1300 + (f.fragmentSizes.get i.toNat).toNat := by
  have hpos := EncodedPacket.totalFrags_pos hfit
  have hlt := frame.totalFrags.toNat_lt
  have hi : (UInt16.ofNat (frame.totalFrags.toNat - 1)).toNat + 1 = frame.totalFrags.toNat := by
    rw [UInt16.toNat_ofNat']
    omega
  have hset := h.complete hc _ (Nat.lt_of_succ_le (Nat.le_of_eq hi))
  exact ⟨_, hi, hset, h.totalSize _ hi hset⟩

/-- A complete frame has the bytes of the frame sent. -/
theorem Filling.bytes (hfit : frame.Fits) (h : f.Filling frame) (hc : f.isComplete = true) {k : Nat}
    (hk : k < frame.packet.size) : f.buffer.get k = frame.packet.data.get k := by
  have hsize := hfit.2
  have hi : (UInt16.ofNat (k / 1300)).toNat = k / 1300 := by
    rw [UInt16.toNat_ofNat']
    omega
  obtain ⟨hlt, hfrag⟩ := EncodedPacket.mem_fragment hfit hk hi
  have hheld := h.held _ hlt (h.complete hc _ hlt)
  have hat : (UInt16.ofNat (k / 1300)).toNat * 1300 +
      (k - (UInt16.ofNat (k / 1300)).toNat * 1300) = k := by omega
  have hbyte := hheld.bytes _ (Nat.lt_of_lt_of_le hfrag hheld.size)
  rw [hat] at hbyte
  refine hbyte.trans ((if_pos hfrag).trans ?_)
  show frame.packet.data.get _ = _
  rw [maxUdpPayload_eq, hat]

/-- A complete frame has the size of the frame sent when its last fragment was not rebuilt too
long. -/
theorem Filling.totalSize_iff (hfit : frame.Fits) (h : f.Filling frame)
    (hc : f.isComplete = true) : f.totalSize = frame.packet.size ↔ f.LastExact frame := by
  obtain ⟨i, hi, hset, htotal⟩ := h.last hfit hc
  have hend := EncodedPacket.last_fragment_end hfit hi
  constructor
  · intro heq j hj _
    obtain rfl : j = i := UInt16.toNat_inj.mp (by omega)
    exact UInt16.toNat_inj.mp (by omega)
  · intro hexact
    rw [htotal, hexact i hi hset]
    exact hend

end FrameData

end RemotePlay.Client
