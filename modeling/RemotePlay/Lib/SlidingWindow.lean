import Mathlib.Data.List.Basic

/-!
# Anti-replay windows

The abstract anti-replay filter: it remembers the set of numbers it accepted,
without bound, and admits a number that is new and less than `size` behind the
largest one. `admits_iff` restates admission in the usual two-sided form.
-/

namespace Lib.SlidingWindow

/-- The largest number of a history, `0` when there is none. -/
def top : List Nat → Nat
  | [] => 0
  | a :: seen => max a (top seen)

/-- Whether a filter of `size` numbers that accepted `seen` lets `n` through. -/
def Admits (size : Nat) (seen : List Nat) (n : Nat) : Prop :=
  n ∉ seen ∧ top seen < n + size

instance (size : Nat) (seen : List Nat) (n : Nat) : Decidable (Admits size seen n) :=
  inferInstanceAs (Decidable (_ ∧ _))

/-- One number offered to the filter: its verdict and the numbers accepted so far. -/
def offer (size : Nat) (seen : List Nat) (n : Nat) : Bool × List Nat :=
  if Admits size seen n then (true, n :: seen) else (false, seen)

/-- The numbers accepted out of a sequence, latest first. -/
def acceptedOf (size : Nat) (ns : List Nat) : List Nat :=
  ns.foldl (fun seen n => (offer size seen n).2) []

theorem le_top {seen : List Nat} {a : Nat} (h : a ∈ seen) : a ≤ top seen := by
  induction seen with
  | nil => cases h
  | cons b seen ih =>
    simp only [top]
    rcases List.mem_cons.mp h with rfl | h
    · omega
    · have := ih h; omega

theorem top_mem {seen : List Nat} (h : seen ≠ []) : top seen ∈ seen := by
  induction seen with
  | nil => exact absurd rfl h
  | cons b seen ih =>
    simp only [top]
    by_cases hs : seen = []
    · subst hs; simp [top]
    · rcases Nat.le_total b (top seen) with hb | hb
      · rw [Nat.max_eq_right hb]; exact List.mem_cons_of_mem _ (ih hs)
      · rw [Nat.max_eq_left hb]; exact List.mem_cons_self

theorem top_lt_iff {seen : List Nat} {b : Nat} : top seen < b ↔ 0 < b ∧ ∀ a ∈ seen, a < b := by
  constructor
  · intro h
    exact ⟨Nat.lt_of_le_of_lt (Nat.zero_le _) h, fun a ha => Nat.lt_of_le_of_lt (le_top ha) h⟩
  · rintro ⟨hb, h⟩
    by_cases hs : seen = []
    · rw [hs]
      exact hb
    · exact h _ (top_mem hs)

/-- The filter depends on the set of numbers. -/
theorem top_congr {seen seen' : List Nat} (h : ∀ n, n ∈ seen ↔ n ∈ seen') :
    top seen = top seen' := by
  have hle : ∀ {l l' : List Nat}, (∀ n, n ∈ l → n ∈ l') → top l ≤ top l' := by
    intro l l' hsub
    refine Nat.le_of_lt_succ (top_lt_iff.mpr ⟨Nat.succ_pos _, fun a ha => ?_⟩)
    exact Nat.lt_succ_of_le (le_top (hsub a ha))
  exact Nat.le_antisymm (hle fun n => (h n).mp) (hle fun n => (h n).mpr)

/-- Two histories in one: both must let the number through. -/
theorem admits_union {size : Nat} {seen own others : List Nat}
    (h : ∀ n, n ∈ seen ↔ n ∈ own ∨ n ∈ others) (n : Nat) :
    Admits size seen n ↔ Admits size own n ∧ Admits size others n := by
  unfold Admits
  rw [top_lt_iff, top_lt_iff, top_lt_iff, h, not_or]
  constructor
  · rintro ⟨⟨hown, hothers⟩, hpos, hall⟩
    exact ⟨⟨hown, hpos, fun a ha => hall a ((h a).mpr (.inl ha))⟩,
      hothers, hpos, fun a ha => hall a ((h a).mpr (.inr ha))⟩
  · rintro ⟨⟨hown, hpos, hall⟩, hothers, -, hall'⟩
    exact ⟨⟨hown, hothers⟩, hpos, fun a ha => ((h a).mp ha).elim (hall a) (hall' a)⟩

/-- Admission, said from the number's side: new, and either above everything
accepted or less than `size` below the largest. -/
theorem admits_iff {size : Nat} (hsize : 0 < size) {seen : List Nat} {n : Nat} :
    Admits size seen n ↔ n ∉ seen ∧ ((∀ a ∈ seen, a < n) ∨ top seen - n < size) := by
  refine and_congr_right fun hn => ⟨fun h => .inr (by omega), fun h => ?_⟩
  rcases h with h | h
  · by_cases hs : seen = []
    · subst hs; simp only [top]; omega
    · have := h _ (top_mem hs); omega
  · omega

end Lib.SlidingWindow
