import RemotePlay.Host.Fragment
import RemotePlay.Lib.Parity

/-!
# The parity encoder

The packetizer of the stress test sends a parity packet after every group of
five fragments, and after the last group of a frame when it has more than one:
the XOR of their payloads, each read as padded with zeros to the longest.
-/

namespace RemotePlay.Host

open Lib Protocol

namespace EncodedPacket

/-- The start of the group of fragment `i`. -/
def groupStart (i : UInt16) : UInt16 := i / 5 * 5

/-- The number of fragments of a group that ends with `i`. -/
def groupCount (i : UInt16) : UInt16 := i - groupStart i + 1

/-- A parity packet is sent after fragment `i`. -/
def ClosesGroup (frame : EncodedPacket) (i : UInt16) : Prop :=
  ((i.toNat + 1) % 5 = 0 ∨ i.toNat + 1 = frame.totalFrags.toNat) ∧ 1 < groupCount i

instance (frame : EncodedPacket) (i : UInt16) : Decidable (frame.ClosesGroup i) := by
  unfold ClosesGroup
  infer_instance

/-- The loop for `maxPayloadSize`, `n` rounds left and `j` done. -/
def maxPayloadSize (frame : EncodedPacket) (groupStart maxSize : UInt16) : Nat → Nat → UInt16
  | 0, _ => maxSize
  | n + 1, j => maxPayloadSize frame groupStart
      (max maxSize (frame.fragmentSize (groupStart + UInt16.ofNat j))) n (j + 1)

/-- `fecPayload[k] ^= fragData[k]` for the bytes of one fragment. -/
def xorFragment (frame : EncodedPacket) (payload : Mem) (i : UInt16) : Mem :=
  fun k => if k < (frame.fragmentSize i).toNat then payload k ^^^ frame.fragmentPayload i k
    else payload k

/-- The loop over the fragments of the group, `n` rounds left and `j` done. -/
def xorFragments (frame : EncodedPacket) (groupStart : UInt16) (payload : Mem) : Nat → Nat → Mem
  | 0, _ => payload
  | n + 1, j => xorFragments frame groupStart
      (frame.xorFragment payload (groupStart + UInt16.ofNat j)) n (j + 1)

/-- The header of the parity packet after fragment `i`. -/
def fecHeader (frame : EncodedPacket) (frameId : UInt32) (i : UInt16) (packetSequence : UInt32) :
    FECHeader where
  type := PacketType.fec.code
  frameId := frameId
  fragmentStart := groupStart i
  fragmentCount := groupCount i
  packetSequence := packetSequence
  dataSize := frame.maxPayloadSize (groupStart i) 0 (groupCount i).toNat 0

def fecPayload (frame : EncodedPacket) (i : UInt16) : Mem :=
  frame.xorFragments (groupStart i) (fun _ => 0) (groupCount i).toNat 0

/-- Fragment `i` with zeros behind it. -/
def padded (frame : EncodedPacket) (i : UInt16) : Mem :=
  fun k => if k < (frame.fragmentSize i).toNat then frame.fragmentPayload i k else 0

/-! ## What a parity packet says -/

section
variable {frame : EncodedPacket} {i : UInt16}

theorem groupStart_toNat (i : UInt16) : (groupStart i).toNat = i.toNat / 5 * 5 := by
  have := i.toNat_lt
  unfold groupStart
  rw [UInt16.toNat_mul, UInt16.toNat_div]
  show i.toNat / 5 * 5 % 2 ^ 16 = i.toNat / 5 * 5
  omega

theorem groupCount_toNat (i : UInt16) : (groupCount i).toNat = i.toNat % 5 + 1 := by
  have hstart := groupStart_toNat i
  have := i.toNat_lt
  unfold groupCount
  rw [UInt16.toNat_add, UInt16.toNat_sub_of_le _ _ (UInt16.le_iff_toNat_le.mpr (by omega)), hstart]
  show (i.toNat - i.toNat / 5 * 5 + 1) % 2 ^ 16 = i.toNat % 5 + 1
  omega

/-- Member `j` of a group. -/
theorem member_toNat {start : UInt16} {j : Nat} (h : start.toNat + j < 2 ^ 16) :
    (start + UInt16.ofNat j).toNat = start.toNat + j := by
  rw [UInt16.toNat_add, UInt16.toNat_ofNat']
  omega

theorem toNat_max (a b : UInt16) : (max a b).toNat = max a.toNat b.toNat := by
  show (if a ≤ b then b else a).toNat = max a.toNat b.toNat
  rw [Nat.max_def]
  split
  · next h => rw [if_pos (UInt16.le_iff_toNat_le.mp h)]
  · next h => rw [if_neg (fun hle => h (UInt16.le_iff_toNat_le.mpr hle))]

/-- A bound of the fragments of a frame bounds its parity packets. -/
theorem maxPayloadSize_le {bound : Nat} (h : ∀ i, (frame.fragmentSize i).toNat ≤ bound)
    (start : UInt16) {maxSize : UInt16} (hmax : maxSize.toNat ≤ bound) (n j : Nat) :
    (frame.maxPayloadSize start maxSize n j).toNat ≤ bound := by
  induction n generalizing maxSize j with
  | zero => exact hmax
  | succ n ih =>
    refine ih ?_ (j + 1)
    rw [toNat_max]
    exact Nat.max_le.mpr ⟨hmax, h _⟩

theorem le_maxPayloadSize (frame : EncodedPacket) (start maxSize : UInt16) (n j : Nat) :
    maxSize.toNat ≤ (frame.maxPayloadSize start maxSize n j).toNat := by
  induction n generalizing maxSize j with
  | zero => exact Nat.le_refl _
  | succ n ih =>
    refine Nat.le_trans ?_ (ih _ (j + 1))
    rw [toNat_max]
    exact Nat.le_max_left _ _

theorem fragmentSize_le_maxPayloadSize (frame : EncodedPacket) (start maxSize : UInt16)
    {n j k : Nat} (hj : j ≤ k) (hk : k < j + n) :
    (frame.fragmentSize (start + UInt16.ofNat k)).toNat ≤
      (frame.maxPayloadSize start maxSize n j).toNat := by
  induction n generalizing maxSize j with
  | zero => omega
  | succ n ih =>
    rcases Nat.eq_or_lt_of_le hj with rfl | hlt
    · refine Nat.le_trans ?_ (frame.le_maxPayloadSize start _ n (j + 1))
      rw [toNat_max]
      exact Nat.le_max_right _ _
    · exact ih _ hlt (by omega)

theorem xorFragment_eq (frame : EncodedPacket) (payload : Mem) (i : UInt16) (k : Nat) :
    frame.xorFragment payload i k = payload k ^^^ frame.padded i k := by
  unfold xorFragment padded
  split
  · rfl
  · exact UInt8.xor_zero.symm

/-- The loop adds the padded fragments to what is there. -/
theorem xorFragments_eq (frame : EncodedPacket) (start : UInt16) (payload : Mem) (n j k : Nat) :
    frame.xorFragments start payload n j k = payload k ^^^
      (Finset.Ico j (j + n)).fold (· ^^^ ·) 0 fun j => frame.padded (start + UInt16.ofNat j) k := by
  induction n generalizing payload j with
  | zero =>
    rw [Nat.add_zero, Finset.Ico_self, Finset.fold_empty, UInt8.xor_zero]
    rfl
  | succ n ih =>
    unfold xorFragments
    rw [ih, xorFragment_eq, fold_Ico_succ, UInt8.xor_assoc]

end

/-- All members of a group and all but one of them give that one. -/
theorem parity_except {start : UInt16} {n j : Nat} (hn : start.toNat + n ≤ 2 ^ 16) (hj : j < n)
    (bytes : UInt16 → UInt8) :
    (((Finset.Ico 0 n).fold (· ^^^ ·) 0 fun j' => bytes (start + UInt16.ofNat j')) ^^^
      (Finset.Ico 0 n).fold (· ^^^ ·) 0 fun j' =>
        if start + UInt16.ofNat j' = start + UInt16.ofNat j then 0
        else bytes (start + UInt16.ofNat j')) = bytes (start + UInt16.ofNat j) := by
  have hothers : ((Finset.Ico 0 n).fold (· ^^^ ·) 0 fun j' =>
        if start + UInt16.ofNat j' = start + UInt16.ofNat j then 0
        else bytes (start + UInt16.ofNat j')) =
      (Finset.Ico 0 n).fold (· ^^^ ·) 0 fun j' =>
        if j' = j then 0 else bytes (start + UInt16.ofNat j') := by
    apply Finset.fold_congr
    intro j' hj'
    have hlt := (Finset.mem_Ico.mp hj').2
    have hiff : start + UInt16.ofNat j' = start + UInt16.ofNat j ↔ j' = j := by
      rw [← UInt16.toNat_inj, member_toNat (by omega), member_toNat (by omega)]
      omega
    simp only [hiff]
  rw [hothers]
  exact fold_except (fun _ => UInt8.xor_self) (Finset.mem_Ico.mpr ⟨Nat.zero_le j, hj⟩)
    fun j => bytes (start + UInt16.ofNat j)

/-- The parity of a group of `frame`, whichever group it is. -/
structure ParityOf (frame : EncodedPacket) (header : FECHeader) (payload : Mem) : Prop where
  count_le : header.fragmentCount.toNat ≤ 5
  inside : header.fragmentStart.toNat + header.fragmentCount.toNat ≤ frame.totalFrags.toNat
  size_le : header.dataSize.toNat ≤ 1300
  covers : ∀ j, j < header.fragmentCount.toNat →
    (frame.fragmentSize (header.fragmentStart + UInt16.ofNat j)).toNat ≤ header.dataSize.toNat
  bytes : ∀ k, k < header.dataSize.toNat → payload k =
    (Finset.Ico 0 header.fragmentCount.toNat).fold (· ^^^ ·) 0 fun j =>
      frame.padded (header.fragmentStart + UInt16.ofNat j) k

section
variable {frame : EncodedPacket} {header : FECHeader} {payload : Mem} {j : Nat}

theorem ParityOf.member_toNat (h : frame.ParityOf header payload)
    (hj : j < header.fragmentCount.toNat) :
    (header.fragmentStart + UInt16.ofNat j).toNat = header.fragmentStart.toNat + j := by
  have hinside := h.inside
  have hbound := frame.totalFrags.toNat_lt
  exact EncodedPacket.member_toNat (by omega)

/-- The parity and the other members of the group give the missing one. -/
theorem ParityOf.missing (h : frame.ParityOf header payload)
    (hj : j < header.fragmentCount.toNat) {k : Nat} (hk : k < header.dataSize.toNat) :
    (payload k ^^^ (Finset.Ico 0 header.fragmentCount.toNat).fold (· ^^^ ·) 0 fun j' =>
      if header.fragmentStart + UInt16.ofNat j' = header.fragmentStart + UInt16.ofNat j then 0
      else frame.padded (header.fragmentStart + UInt16.ofNat j') k) =
        frame.padded (header.fragmentStart + UInt16.ofNat j) k := by
  have hinside := h.inside
  have hbound := frame.totalFrags.toNat_lt
  rw [h.bytes k hk]
  exact parity_except (by omega) hj fun i => frame.padded i k

end

/-- **The parity encoder** sends the parity of a group. -/
theorem parityOf_fecHeader {frame : EncodedPacket} (hfit : frame.Fits) {i : UInt16}
    (hi : i.toNat < frame.totalFrags.toNat) (frameId packetSequence : UInt32) {payload : Mem}
    (hpayload : ∀ k, k < (frame.fecHeader frameId i packetSequence).dataSize.toNat →
      payload k = frame.fecPayload i k) :
    frame.ParityOf (frame.fecHeader frameId i packetSequence) payload where
  count_le := by
    show (groupCount i).toNat ≤ 5
    rw [groupCount_toNat]
    omega
  inside := by
    show (groupStart i).toNat + (groupCount i).toNat ≤ frame.totalFrags.toNat
    rw [groupStart_toNat, groupCount_toNat]
    omega
  size_le := by
    refine maxPayloadSize_le (fun i => ?_) _ (Nat.zero_le 1300) _ _
    rw [fragmentSize_toNat hfit]
    exact Nat.min_le_left _ _
  covers j hj := frame.fragmentSize_le_maxPayloadSize _ _ (Nat.zero_le j) (by rwa [Nat.zero_add])
  bytes k hk := by
    rw [hpayload k hk, fecPayload, xorFragments_eq, UInt8.zero_xor, Nat.zero_add]
    rfl

end EncodedPacket

end RemotePlay.Host
