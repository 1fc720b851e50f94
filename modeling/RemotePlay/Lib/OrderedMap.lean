import Mathlib.Data.Finmap
import Mathlib.Data.Finset.Sort

/-!
# Finite maps in key order

`inOrder m` lists a finite map's entries by ascending key and `insertAll m es`
enters a list of them one after the other, so that the last one of a key
stays. Entering the list of a map rebuilds it (`insertAll_inOrder`), and every
entry of a map that was entered comes from the list or was there before
(`mem_or_of_insertAll`).
-/

namespace Lib

variable {κ ν : Type} [DecidableEq κ]

def insertAll (m : Finmap fun _ : κ => ν) (es : List (κ × ν)) : Finmap fun _ : κ => ν :=
  es.foldl (fun m e => m.insert e.1 e.2) m

theorem lookup_insertAll_of_notMem {m : Finmap fun _ : κ => ν} {es : List (κ × ν)} {k : κ}
    (h : ∀ e ∈ es, e.1 ≠ k) : (insertAll m es).lookup k = m.lookup k := by
  induction es generalizing m with
  | nil => rfl
  | cons e es ih =>
    have hrest := ih (m := m.insert e.1 e.2) fun e' he' => h e' (List.mem_cons_of_mem e he')
    have hne : k ≠ e.1 := (h e List.mem_cons_self).symm
    exact hrest.trans (Finmap.lookup_insert_of_ne m hne)

theorem lookup_insertAll_of_mem {m : Finmap fun _ : κ => ν} {es : List (κ × ν)}
    (hkeys : es.Pairwise fun e e' => e.1 ≠ e'.1) {k : κ} {v : ν} (h : (k, v) ∈ es) :
    (insertAll m es).lookup k = some v := by
  induction es generalizing m with
  | nil => exact absurd h List.not_mem_nil
  | cons e es ih =>
    obtain ⟨hhead, htail⟩ := List.pairwise_cons.mp hkeys
    rcases List.mem_cons.mp h with rfl | h
    · have hrest : (insertAll (m.insert k v) es).lookup k = (m.insert k v).lookup k :=
        lookup_insertAll_of_notMem fun e he => (hhead e he).symm
      exact hrest.trans (Finmap.lookup_insert m)
    · exact ih htail h

theorem mem_or_of_insertAll {m : Finmap fun _ : κ => ν} {es : List (κ × ν)} {k : κ} {v : ν}
    (h : (insertAll m es).lookup k = some v) : m.lookup k = some v ∨ (k, v) ∈ es := by
  induction es generalizing m with
  | nil => exact .inl h
  | cons e es ih =>
    rcases ih (m := m.insert e.1 e.2) h with h | h
    · by_cases hk : k = e.1
      · subst hk
        rw [Finmap.lookup_insert] at h
        obtain rfl := Option.some.inj h
        exact .inr List.mem_cons_self
      · rw [Finmap.lookup_insert_of_ne m hk] at h
        exact .inl h
    · exact .inr (List.mem_cons_of_mem e h)

-- `DecidableEq κ` need not be that of the order.
variable [LinearOrder κ]

def inOrder (m : Finmap fun _ : κ => ν) : List (κ × ν) :=
  (m.keys.sort).filterMap fun k => (m.lookup k).map fun v => (k, v)

theorem mem_inOrder {m : Finmap fun _ : κ => ν} {k : κ} {v : ν} :
    (k, v) ∈ inOrder m ↔ m.lookup k = some v := by
  rw [inOrder, List.mem_filterMap]
  constructor
  · rintro ⟨k', -, h⟩
    obtain ⟨v', hv', heq⟩ := Option.map_eq_some_iff.mp h
    obtain ⟨rfl, rfl⟩ := Prod.mk.inj heq
    exact hv'
  · intro h
    refine ⟨k, ?_, by rw [h]; rfl⟩
    rw [Finset.mem_sort, Finmap.mem_keys]
    exact Finmap.mem_of_lookup_eq_some h

theorem pairwise_inOrder (m : Finmap fun _ : κ => ν) :
    (inOrder m).Pairwise fun e e' => e.1 < e'.1 := by
  rw [inOrder, List.pairwise_filterMap]
  refine (Finset.sortedLT_sort m.keys).pairwise.imp ?_
  intro k k' hlt e he e' he'
  obtain ⟨v, -, rfl⟩ := Option.map_eq_some_iff.mp he
  obtain ⟨v', -, rfl⟩ := Option.map_eq_some_iff.mp he'
  exact hlt

theorem insertAll_inOrder (m : Finmap fun _ : κ => ν) : insertAll ∅ (inOrder m) = m := by
  refine Finmap.ext_lookup fun k => ?_
  cases h : m.lookup k with
  | some v =>
    exact lookup_insertAll_of_mem ((pairwise_inOrder m).imp ne_of_lt) (mem_inOrder.mpr h)
  | none =>
    rw [lookup_insertAll_of_notMem, Finmap.lookup_empty]
    rintro ⟨k', v⟩ he rfl
    rw [mem_inOrder.mp he] at h
    exact absurd h (by simp)

end Lib
