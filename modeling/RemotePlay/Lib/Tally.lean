import Mathlib.Data.Finset.Card

/-!
# Tallies

A bitmap over `0 .. n - 1` with a counter of its set bits, as a receiver of
numbered pieces keeps it. `Tally map count n got` says that both describe the
set `got`; then the counter reaches `n` exactly when nothing is missing.
-/

namespace Lib

structure Tally (map : Nat → Bool) (count n : Nat) (got : Finset Nat) : Prop where
  below : got ⊆ Finset.range n
  map_eq : ∀ i, i < n → (map i = true ↔ i ∈ got)
  count_eq : count = got.card

namespace Tally

variable {map : Nat → Bool} {count n : Nat} {got : Finset Nat}

theorem empty (n : Nat) : Tally (fun _ => false) 0 n ∅ :=
  ⟨Finset.empty_subset _, fun _ _ => by simp, rfl⟩

theorem count_lt (h : Tally map count n got) {i : Nat} (hi : i < n) (hmap : map i = false) :
    count < n := by
  have hlt : got ⊂ Finset.range n := by
    refine ⟨h.below, fun hsub => ?_⟩
    have hmem := (h.map_eq i hi).mpr (hsub (Finset.mem_range.mpr hi))
    rw [hmap] at hmem
    exact absurd hmem (by decide)
  rw [h.count_eq, ← Finset.card_range n]
  exact Finset.card_lt_card hlt

/-- Setting a clear bit. -/
theorem mark (h : Tally map count n got) {i : Nat} (hi : i < n) (hmap : map i = false) :
    Tally (fun k => if k = i then true else map k) (count + 1) n (insert i got) where
  below := Finset.insert_subset (Finset.mem_range.mpr hi) h.below
  map_eq k hk := by
    show (if k = i then true else map k) = true ↔ _
    rw [Finset.mem_insert]
    split
    · next hki => simp [hki]
    · next hki => simp [hki, h.map_eq k hk]
  count_eq := by
    have hnot : i ∉ got := fun hmem => by
      rw [(h.map_eq i hi).mpr hmem] at hmap
      exact absurd hmap (by decide)
    rw [Finset.card_insert_of_notMem hnot, h.count_eq]

/-- A bit that is already set. -/
theorem insert_of_set (h : Tally map count n got) {i : Nat} (hi : i < n) (hmap : map i = true) :
    insert i got = got :=
  Finset.insert_eq_self.mpr ((h.map_eq i hi).mp hmap)

theorem full_iff (h : Tally map count n got) : count = n ↔ ∀ i, i < n → i ∈ got := by
  constructor
  · intro hc i hi
    have hcard : (Finset.range n).card ≤ got.card := by
      rw [Finset.card_range, ← h.count_eq, hc]
    rw [Finset.eq_of_subset_of_card_le h.below hcard]
    exact Finset.mem_range.mpr hi
  · intro hall
    have hsub : Finset.range n ⊆ got := fun i hi => hall i (Finset.mem_range.mp hi)
    rw [h.count_eq, Finset.Subset.antisymm h.below hsub, Finset.card_range]

end Tally

end Lib
