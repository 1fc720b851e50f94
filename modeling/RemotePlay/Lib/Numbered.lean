import Mathlib.Data.Finmap
import Mathlib.Data.Finset.Card

/-!
# Numbered chains

A finite map `Numbers` a list when it holds the list's elements under the
numbers 1, 2, … and nothing else. `pushUp n` moves the elements 1 to `n` up by
one, from the highest down, as a rotation of numbered files does by renaming
them. With the number `n + 1` cleared before and a new element put at 1, the
list gets that element in front and loses the one at place `n + 1`, if it had
one (`numbers_rotate`).
-/

namespace Lib

variable {ν : Type}

def Numbers (m : Finmap fun _ : Int => ν) (l : List ν) : Prop :=
  ∀ i : Int, m.lookup i = if 0 < i then l[(i - 1).toNat]? else none

theorem numbers_empty : Numbers (∅ : Finmap fun _ : Int => ν) [] := by
  intro i
  rw [Finmap.lookup_empty]
  split <;> rfl

namespace Numbers

variable {m : Finmap fun _ : Int => ν} {l : List ν}

theorem mem_iff (h : Numbers m l) {i : Int} : i ∈ m ↔ 1 ≤ i ∧ i ≤ l.length := by
  rw [← Finmap.lookup_isSome, h i]
  split
  · rw [isSome_getElem?]
    omega
  · simp only [Option.isSome_none, Bool.false_eq_true, false_iff]
    omega

theorem card_keys (h : Numbers m l) : m.keys.card = l.length := by
  have hkeys : m.keys = (Finset.range l.length).image fun n : Nat => (n : Int) + 1 := by
    ext i
    rw [Finmap.mem_keys, h.mem_iff, Finset.mem_image]
    constructor
    · rintro ⟨h1, hle⟩
      exact ⟨(i - 1).toNat, Finset.mem_range.mpr (by omega), by omega⟩
    · rintro ⟨n, hn, rfl⟩
      have := Finset.mem_range.mp hn
      omega
  have hinj : Function.Injective fun n : Nat => (n : Int) + 1 := fun a b hab => by
    change (a : Int) + 1 = b + 1 at hab
    omega
  rw [hkeys, Finset.card_image_of_injective _ hinj, Finset.card_range]

end Numbers

/-! ## Moving elements -/

/-- Gives the element `i` the number `j`, if there is one. -/
def renumber (m : Finmap fun _ : Int => ν) (i j : Int) : Finmap fun _ : Int => ν :=
  match m.lookup i with
  | none => m
  | some v => (m.erase i).insert j v

def pushUp : Nat → (Finmap fun _ : Int => ν) → Finmap fun _ : Int => ν
  | 0, m => m
  | n + 1, m => pushUp n (renumber m (n + 1) (n + 2))

theorem lookup_renumber {m : Finmap fun _ : Int => ν} {i j : Int} (hj : m.lookup j = none)
    (k : Int) :
    (renumber m i j).lookup k =
      if k = j then m.lookup i else if k = i then none else m.lookup k := by
  unfold renumber
  cases hi : m.lookup i with
  | none =>
    simp only
    split
    · next h => rw [h, hj]
    · split
      · next h => rw [h, hi]
      · rfl
  | some v =>
    simp only
    split
    · next h => rw [h, Finmap.lookup_insert]
    · next h =>
      rw [Finmap.lookup_insert_of_ne _ h]
      split
      · next h' => rw [h', Finmap.lookup_erase]
      · next h' => rw [Finmap.lookup_erase_ne h']

theorem lookup_pushUp {n : Nat} {m : Finmap fun _ : Int => ν}
    (hclear : m.lookup ((n : Int) + 1) = none) (k : Int) :
    (pushUp n m).lookup k =
      if k = 1 then none else if 1 < k ∧ k ≤ n + 1 then m.lookup (k - 1) else m.lookup k := by
  induction n generalizing m with
  | zero =>
    show m.lookup k = _
    split
    · next h => rw [h]; simpa using hclear
    · rw [if_neg (by omega)]
  | succ n ih =>
    have hclear' : m.lookup ((n : Int) + 2) = none := by
      have hcast : ((n + 1 : Nat) : Int) + 1 = (n : Int) + 2 := by omega
      rwa [hcast] at hclear
    have hren := lookup_renumber (i := (n : Int) + 1) hclear'
    have hfree : (renumber m ((n : Int) + 1) ((n : Int) + 2)).lookup ((n : Int) + 1) = none := by
      rw [hren, if_neg (by omega), if_pos rfl]
    show (pushUp n (renumber m ((n : Int) + 1) ((n : Int) + 2))).lookup k = _
    rw [ih hfree]
    by_cases h1 : k = 1
    · rw [if_pos h1, if_pos h1]
    · rw [if_neg h1, if_neg h1, hren, hren]
      by_cases htop : k = (n : Int) + 2
      · subst htop
        rw [if_neg (by omega), if_pos rfl, if_pos (by omega)]
        congr 1
        omega
      · by_cases hmid : 1 < k ∧ k ≤ (n : Int) + 1
        · rw [if_pos hmid, if_neg (by omega), if_neg (by omega), if_pos (by omega)]
        · rw [if_neg hmid, if_neg htop, if_neg (by omega), if_neg (by omega)]

/-- One rotation of a numbered chain. Where the limit is not positive nothing moves up and the
new element takes the place of the first. -/
theorem numbers_rotate {m : Finmap fun _ : Int => ν} {l : List ν} (h : Numbers m l) (limit : Int)
    (v : ν) :
    Numbers ((pushUp (limit - 1).toNat (m.erase limit)).insert 1 v)
      (v :: l.eraseIdx (limit - 1).toNat) := by
  intro i
  by_cases h1 : i = 1
  · subst h1
    rw [Finmap.lookup_insert]
    rfl
  rw [Finmap.lookup_insert_of_ne _ h1]
  have hmoved : (pushUp (limit - 1).toNat (m.erase limit)).lookup i =
      if 1 < i ∧ i ≤ limit then m.lookup (i - 1) else m.lookup i := by
    by_cases hlimit : 1 ≤ limit
    · have hcast : (((limit - 1).toNat : Nat) : Int) + 1 = limit := by omega
      rw [lookup_pushUp (by rw [hcast]; exact Finmap.lookup_erase _ _), if_neg h1, hcast]
      split
      · rw [Finmap.lookup_erase_ne (by omega)]
      · rw [Finmap.lookup_erase_ne (by omega)]
    · have hnone : (limit - 1).toNat = 0 := by omega
      rw [hnone, if_neg (by omega)]
      show (m.erase limit).lookup i = _
      by_cases hi : i = limit
      · rw [hi, Finmap.lookup_erase, h limit, if_neg (by omega)]
      · rw [Finmap.lookup_erase_ne hi]
  rw [hmoved]
  by_cases hpos : 0 < i
  · have hidx : (i - 1).toNat = (i - 2).toNat + 1 := by omega
    rw [if_pos hpos, hidx, List.getElem?_cons_succ, List.getElem?_eraseIdx]
    by_cases hle : i ≤ limit
    · rw [if_pos ⟨by omega, hle⟩, if_pos (by omega), h (i - 1), if_pos (by omega)]
      congr 1
      omega
    · rw [if_neg (by omega), if_neg (by omega), h i, if_pos hpos, hidx]
  · rw [if_neg (by omega), if_neg hpos, h i, if_neg hpos]

end Lib
