import RemotePlay.Lib.Ring
import Mathlib.Data.List.Sort
import Mathlib.Order.Interval.Finset.Nat

/-!
# Statistics of a stream

What a recorder can say of a stream of samples it does not keep. An extreme that
is carried along from a start value is the extreme of the samples unless the
start value beats all of them (`greatest_foldl_max_iff`). A ring of `n` slots
that is filled and then overwritten holds the last `n` samples
(`Ring.Holds.record`), in some order (`Ring.Holds.perm`), so what is sorted out
of it are these.
-/

namespace Lib

/-! ## Extremes -/

section
variable {α : Type} [LinearOrder α]

/-- The greatest element of a list. -/
def Greatest (l : List α) (m : α) : Prop := m ∈ l ∧ ∀ v ∈ l, v ≤ m

/-- The least element of a list. -/
def Least (l : List α) (m : α) : Prop := m ∈ l ∧ ∀ v ∈ l, m ≤ v

theorem le_foldl_max (l : List α) (start : α) :
    start ≤ l.foldl max start ∧ ∀ v ∈ l, v ≤ l.foldl max start := by
  induction l generalizing start with
  | nil => exact ⟨le_rfl, fun v hv => absurd hv List.not_mem_nil⟩
  | cons a l ih =>
    obtain ⟨hstart, hl⟩ := ih (max start a)
    refine ⟨(le_max_left start a).trans hstart, fun v hv => ?_⟩
    rcases List.mem_cons.mp hv with rfl | hv
    · exact (le_max_right start v).trans hstart
    · exact hl v hv

theorem foldl_max_mem (l : List α) (start : α) :
    l.foldl max start = start ∨ l.foldl max start ∈ l := by
  induction l generalizing start with
  | nil => exact .inl rfl
  | cons a l ih =>
    rcases ih (max start a) with h | h
    · rw [List.foldl_cons, h]
      rcases max_choice start a with hmax | hmax
      · exact .inl hmax
      · exact .inr (by rw [hmax]; exact List.mem_cons_self)
    · exact .inr (List.mem_cons_of_mem a h)

/-- **A running maximum** is the greatest sample iff some sample reaches the start value. -/
theorem greatest_foldl_max_iff (l : List α) (start : α) :
    Greatest l (l.foldl max start) ↔ ∃ v ∈ l, start ≤ v := by
  obtain ⟨hstart, hl⟩ := le_foldl_max l start
  constructor
  · exact fun h => ⟨_, h.1, hstart⟩
  · rintro ⟨v, hv, hle⟩
    refine ⟨?_, hl⟩
    rcases foldl_max_mem l start with heq | hmem
    · rw [heq, le_antisymm hle (heq ▸ hl v hv)]
      exact hv
    · exact hmem

/-- A running minimum, which is a running maximum of the opposite order. -/
theorem least_foldl_min_iff (l : List α) (start : α) :
    Least l (l.foldl min start) ↔ ∃ v ∈ l, v ≤ start :=
  greatest_foldl_max_iff (α := αᵒᵈ) l start

end

/-! ## The last samples -/

section
variable {α : Type} {slots : Nat → α} {n : Nat} {xs : List α}

/-- The next sample takes the slot of its number, and of the one `n` before it. -/
theorem Ring.Holds.record (h : Ring.Holds slots n xs (xs.length - n)) (a : α) :
    Ring.Holds (Ring.put slots (xs.length % n) a) n (xs ++ [a]) ((xs ++ [a]).length - n) := by
  have hself : Ring.put slots (xs.length % n) a (xs.length % n) = a := if_pos rfl
  have hlen : (xs ++ [a]).length = xs.length + 1 := by simp
  rw [hlen]
  refine Ring.Holds.snoc ?_ hself
  rcases Nat.lt_or_ge xs.length n with hlt | hge
  · have hzero : xs.length - n = xs.length + 1 - n := by omega
    rw [← hzero]
    exact h.put_next (by omega) a
  · have hslot : (xs.length - n) % n = xs.length % n := (Nat.mod_eq_sub_mod hge).symm
    have hnext : xs.length + 1 - n = xs.length - n + 1 := by omega
    rw [← hslot, hnext]
    exact h.put_first (by omega) a

/-- The last sample is in its slot. -/
theorem Ring.Holds.last (h : Ring.Holds slots n xs (xs.length - n)) (hn : 0 < n) (hxs : xs ≠ []) :
    xs.getLast? = some (slots ((xs.length - 1) % n)) := by
  have hpos := List.length_pos_of_ne_nil hxs
  have hlast : xs[xs.length - 1]? = some xs[xs.length - 1] := List.getElem?_eq_getElem _
  rw [List.getLast?_eq_getElem?, hlast, h (xs.length - 1) _ (Nat.sub_le_sub_left hn _) hlast]

/-- The slots in use hold the last samples. -/
theorem Ring.Holds.perm (h : Ring.Holds slots n xs (xs.length - n)) (hn : 0 < n) :
    ((List.range (min xs.length n)).map slots).Perm (xs.drop (xs.length - n)) := by
  -- the samples are read at the slots of their numbers
  have hdrop : xs.drop (xs.length - n) =
      ((List.range' (xs.length - n) (min xs.length n)).map (· % n)).map slots := by
    refine List.ext_getElem (by simp; omega) fun k h1 h2 => ?_
    rw [List.length_drop] at h1
    have hk : xs.length - n + k < xs.length := by omega
    simp only [List.getElem_drop, List.getElem_map, List.getElem_range', Nat.one_mul]
    exact (h _ _ (Nat.le_add_right _ _) (List.getElem?_eq_getElem hk)).symm
  rw [hdrop]
  refine List.Perm.map slots ?_
  rcases Nat.lt_or_ge xs.length n with hlt | hge
  · -- no number has wrapped
    have hsub : xs.length - n = 0 := by omega
    rw [hsub, Nat.min_eq_left (by omega), List.range_eq_range']
    refine List.Perm.of_eq (Eq.symm ?_)
    refine (List.map_congr_left (g := id) fun k hk => ?_).trans (List.map_id _)
    have hk' := (List.mem_range'_1.mp hk).2
    exact Nat.mod_eq_of_lt (by omega)
  · rw [Nat.min_eq_right hge]
    have hmod := Nat.multiset_Ico_map_mod (xs.length - n) n
    refine (Multiset.coe_eq_coe.mp ?_).symm
    rw [← Multiset.map_coe]
    refine Eq.trans ?_ hmod
    show _ = Multiset.map (· % n)
      (List.range' (xs.length - n) (xs.length - n + n - (xs.length - n)))
    rw [Nat.add_sub_cancel_left]

end

end Lib
