import Mathlib.Data.List.Sort

/-!
# Sorting by descending keys

A sort that need not be stable promises a permutation of the list in descending
order of the keys, and nothing about the order of equal ones. So what comes
first has the highest key, and every element that has it may come first.
-/

namespace Lib

variable {α β : Type} [LinearOrder β] (key : α → β)

/-- What an unstable sort by descending key promises. -/
structure SortsDown (sort : List α → List α) : Prop where
  perm : ∀ l, (sort l).Perm l
  sorted : ∀ l, (sort l).Pairwise fun x y => key y ≤ key x

/-- An element of highest key. -/
def IsTop (l : List α) (x : α) : Prop := x ∈ l ∧ ∀ y ∈ l, key y ≤ key x

variable {key}

theorem isTop_map {γ : Type} {f : γ → α} {l : List γ} {x : α} :
    IsTop key (l.map f) x ↔ ∃ c, IsTop (fun c => key (f c)) l c ∧ f c = x := by
  constructor
  · rintro ⟨hmem, hle⟩
    obtain ⟨c, hc, rfl⟩ := List.mem_map.mp hmem
    exact ⟨c, ⟨hc, fun c' hc' => hle _ (List.mem_map_of_mem hc')⟩, rfl⟩
  · rintro ⟨c, ⟨hc, hle⟩, rfl⟩
    refine ⟨List.mem_map_of_mem hc, fun y hy => ?_⟩
    obtain ⟨c', hc', rfl⟩ := List.mem_map.mp hy
    exact hle c' hc'

theorem SortsDown.isTop_head {sort : List α → List α} (h : SortsDown key sort) {l : List α} {x : α}
    (hx : (sort l).head? = some x) : IsTop key l x := by
  obtain ⟨rest, hsort⟩ := List.head?_eq_some_iff.mp hx
  have hmem : ∀ y, y ∈ l ↔ y ∈ x :: rest := fun y => by rw [← hsort, (h.perm l).mem_iff]
  have hsorted := h.sorted l
  rw [hsort, List.pairwise_cons] at hsorted
  refine ⟨(hmem x).mpr List.mem_cons_self, fun y hy => ?_⟩
  rcases List.mem_cons.mp ((hmem y).mp hy) with rfl | hy
  · exact le_rfl
  · exact hsorted.1 y hy

theorem SortsDown.exists_head {sort : List α → List α} (h : SortsDown key sort) {l : List α}
    (hl : l ≠ []) : ∃ x, (sort l).head? = some x := by
  cases hsort : sort l with
  | nil => exact absurd (hsort ▸ (h.perm l).symm).eq_nil hl
  | cons x rest => exact ⟨x, rfl⟩

/-! ## A sort for every choice among the equal -/

section
variable (key)

def sortDown (l : List α) : List α := l.insertionSort fun x y => key y ≤ key x

theorem sortsDown_sortDown : SortsDown key (sortDown key) where
  perm l := List.perm_insertionSort _ l
  sorted l := by
    have : Std.Total fun x y : α => key y ≤ key x := ⟨fun x y => le_total _ _⟩
    have : IsTrans α fun x y => key y ≤ key x := ⟨fun x y z hxy hyz => hyz.trans hxy⟩
    exact List.pairwise_insertionSort _ l

variable [DecidableEq α]

/-- The sort that puts `x` first wherever it may. -/
def sortFavouring (x : α) (l : List α) : List α :=
  if x ∈ l ∧ ∀ y ∈ l, key y ≤ key x then x :: sortDown key (l.erase x) else sortDown key l

theorem sortsDown_sortFavouring (x : α) : SortsDown key (sortFavouring key x) where
  perm l := by
    unfold sortFavouring
    split
    · rename_i htop
      exact ((sortsDown_sortDown key).perm _).cons x |>.trans (List.perm_cons_erase htop.1).symm
    · exact (sortsDown_sortDown key).perm l
  sorted l := by
    unfold sortFavouring
    split
    · rename_i htop
      refine List.pairwise_cons.mpr ⟨fun y hy => ?_, (sortsDown_sortDown key).sorted _⟩
      have hmem := ((sortsDown_sortDown key).perm _).mem_iff.mp hy
      exact htop.2 y (List.mem_of_mem_erase hmem)
    · exact (sortsDown_sortDown key).sorted l

theorem head_sortFavouring {l : List α} {x : α} (h : IsTop key l x) :
    (sortFavouring key x l).head? = some x := by
  have htop : x ∈ l ∧ ∀ y ∈ l, key y ≤ key x := h
  rw [sortFavouring, if_pos htop]
  rfl

/-- What holds of the first element of every sorted list holds of every element of highest key. -/
theorem forall_sortsDown_head_iff {P : α → Prop} {l : List α} :
    (∀ sort, SortsDown key sort → ∀ x, (sort l).head? = some x → P x) ↔
      ∀ x, IsTop key l x → P x := by
  constructor
  · intro h x htop
    exact h _ (sortsDown_sortFavouring key x) x (head_sortFavouring key htop)
  · intro h sort hsort x hx
    exact h x (hsort.isTop_head hx)

end

end Lib
