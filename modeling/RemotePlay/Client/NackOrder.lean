import RemotePlay.Client.Nacks

/-!
# The order of the requests

What `GetPendingNACKs` returns, without its loops: the fragments that the
incomplete frames within 32 of the read pointer have not stored, the nearest
frame first and in it the lowest index first, up to ten (`pending_exact`).
-/

namespace RemotePlay.Client

open Lib

namespace Receiver

/-- How far the frame of a request is from the read pointer. -/
def distance (r : Receiver) (n : NACK) : Nat := (n.frameId - r.nextFrameIdToRead).toNat

/-- The ring holds the frame of the request, which is near and incomplete, and the fragment is one
of its and not stored. -/
def Lacking (r : Receiver) (n : NACK) : Prop :=
  r.distance n < 32 ∧ ∃ f, r.frameAt n.frameId = some f ∧ f.isComplete = false ∧
    n.fragmentIndex < f.totalFragments ∧ f.fragmentMap.get n.fragmentIndex.toNat = false

/-- The request `m` is more urgent than `n`. -/
def Before (r : Receiver) (m n : NACK) : Prop :=
  r.distance m < r.distance n ∨
    m.frameId = n.frameId ∧ m.fragmentIndex < n.fragmentIndex

variable {r : Receiver}

theorem Before.ne {m n : NACK} (h : r.Before m n) : m ≠ n := by
  rintro rfl
  rcases h with h | ⟨-, h⟩
  · omega
  · exact absurd h (UInt16.lt_irrefl _)

theorem distance_window (r : Receiver) {k : Nat} (hk : k < 32) (index : UInt16) :
    r.distance ⟨r.nextFrameIdToRead + UInt32.ofNat k, index⟩ = k := by
  show (r.nextFrameIdToRead + UInt32.ofNat k - r.nextFrameIdToRead).toNat = k
  rw [UInt32.add_comm, UInt32.add_sub_cancel, UInt32.toNat_ofNat']
  omega

theorem frameId_of_distance (r : Receiver) (n : NACK) :
    r.nextFrameIdToRead + UInt32.ofNat (r.distance n) = n.frameId := by
  rw [distance, UInt32.ofNat_toNat, UInt32.add_comm, UInt32.sub_add_cancel]

theorem mem_lackedAt {fid : UInt32} {n : NACK} :
    n ∈ r.lackedAt fid ↔ n.frameId = fid ∧ ∃ f, r.frameAt fid = some f ∧ f.isComplete = false ∧
      n.fragmentIndex < f.totalFragments ∧ f.fragmentMap.get n.fragmentIndex.toNat = false := by
  unfold lackedAt
  cases hf : r.frameAt fid with
  | none => simp
  | some f =>
    dsimp only
    by_cases hc : f.isComplete = true
    · simp [hc]
    rw [if_neg hc, lackedFrom, List.mem_map]
    constructor
    · rintro ⟨k, hk, rfl⟩
      rw [List.mem_filter, List.mem_range'_1, Nat.zero_add, Bool.not_eq_true'] at hk
      have hindex : (UInt16.ofNat k).toNat = k := by
        have := f.totalFragments.toNat_lt
        rw [UInt16.toNat_ofNat']
        omega
      refine ⟨rfl, f, rfl, Bool.eq_false_iff.mpr hc, ?_, ?_⟩
      · rw [UInt16.lt_iff_toNat_lt, hindex]
        exact hk.1.2
      · rw [hindex]
        exact hk.2
    · rintro ⟨hid, f', hf', -, hlt, hmap⟩
      obtain rfl := Option.some.inj hf'
      refine ⟨n.fragmentIndex.toNat, ?_, ?_⟩
      · rw [List.mem_filter, List.mem_range'_1, Nat.zero_add, hmap]
        exact ⟨⟨Nat.zero_le _, UInt16.lt_iff_toNat_lt.mp hlt⟩, rfl⟩
      · rw [UInt16.ofNat_toNat, ← hid]

/-- The window of the loops holds just what is lacking. -/
theorem mem_lackedIn {n : NACK} : n ∈ r.lackedIn 0 32 ↔ r.Lacking n := by
  rw [lackedIn, List.mem_flatMap]
  constructor
  · rintro ⟨k, hk, hn⟩
    rw [List.mem_range'_1, Nat.zero_add] at hk
    obtain ⟨hid, hframe⟩ := mem_lackedAt.mp hn
    have hdist : r.distance n = k := by
      rw [← r.distance_window hk.2 n.fragmentIndex, ← hid]
    exact ⟨hdist ▸ hk.2, hid ▸ hframe⟩
  · rintro ⟨hdist, hframe⟩
    refine ⟨r.distance n, List.mem_range'_1.mpr (by omega), mem_lackedAt.mpr ?_⟩
    rw [r.frameId_of_distance n]
    exact ⟨rfl, hframe⟩

theorem pairwise_lackedAt (fid : UInt32) : (r.lackedAt fid).Pairwise r.Before := by
  unfold lackedAt
  split
  · exact .nil
  · next f _ =>
    split
    · exact .nil
    · rw [lackedFrom, List.pairwise_map]
      refine (List.Pairwise.imp_of_mem ?_ List.pairwise_lt_range').filter _
      intro j k _ hk hlt
      have := f.totalFragments.toNat_lt
      rw [List.mem_range'_1] at hk
      refine .inr ⟨rfl, ?_⟩
      rw [UInt16.lt_iff_toNat_lt, UInt16.toNat_ofNat', UInt16.toNat_ofNat']
      omega

theorem pairwise_lackedIn : (r.lackedIn 0 32).Pairwise r.Before := by
  rw [lackedIn, List.pairwise_flatMap]
  refine ⟨fun k _ => pairwise_lackedAt _, List.Pairwise.imp_of_mem ?_ List.pairwise_lt_range'⟩
  intro j k hj hk hlt m hm n hn
  rw [List.mem_range'_1] at hj hk
  have hjm : r.distance m = j := by
    rw [← r.distance_window (k := j) (by omega) m.fragmentIndex, ← frameId_of_mem_lackedAt hm]
  have hkn : r.distance n = k := by
    rw [← r.distance_window (k := k) (by omega) n.fragmentIndex, ← frameId_of_mem_lackedAt hn]
  exact .inl (by omega)

end Receiver

/-! ## The first of a list -/

/-- What is left out of the first `k` comes after them, and only when there are `k`. -/
theorem take_first {α : Type} {R : α → α → Prop} {l : List α} (h : l.Pairwise R) (k : Nat) {a : α}
    (ha : a ∈ l) (hnot : a ∉ l.take k) :
    (l.take k).length = k ∧ ∀ b ∈ l.take k, R b a := by
  rw [← List.take_append_drop k l] at ha h
  have hdrop : a ∈ l.drop k := (List.mem_append.mp ha).resolve_left hnot
  refine ⟨?_, fun b hb => (List.pairwise_append.mp h).2.2 b hb a hdrop⟩
  have hlen := List.length_pos_of_mem hdrop
  rw [List.length_drop] at hlen
  rw [List.length_take]
  omega

namespace FrameFlow

/-- **The requests are exact.** In every reachable state of the receiver, `GetPendingNACKs` asks
for fragments that are lacking, no more than ten and the most urgent first; what is lacking and
not asked for comes after ten that are. -/
theorem pending_exact (poolSize : Nat) (maxFrames : UInt64) (calls : List FrameCall) :
    let r := (run step (init poolSize maxFrames) calls).receiver
    (∀ n ∈ r.getPendingNACKs, r.Lacking n) ∧
      r.getPendingNACKs.Pairwise r.Before ∧ r.getPendingNACKs.Nodup ∧
      r.getPendingNACKs.length ≤ 10 ∧
      ∀ n, r.Lacking n → n ∉ r.getPendingNACKs →
        r.getPendingNACKs.length = 10 ∧ ∀ m ∈ r.getPendingNACKs, r.Before m n := by
  intro r
  rw [r.pending_eq]
  have hordered : ((r.lackedIn 0 32).take 10).Pairwise r.Before :=
    Receiver.pairwise_lackedIn.sublist (List.take_sublist _ _)
  refine ⟨fun n hn => ?_, hordered, hordered.imp Receiver.Before.ne, List.length_take_le _ _,
    fun n hn hnot => ?_⟩
  · exact Receiver.mem_lackedIn.mp (List.mem_of_mem_take hn)
  · exact take_first Receiver.pairwise_lackedIn 10 (Receiver.mem_lackedIn.mpr hn) hnot

end FrameFlow

end RemotePlay.Client
