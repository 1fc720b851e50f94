import Mathlib.Algebra.Group.Nat.Defs
import Mathlib.Order.Lattice.Nat
import Mathlib.Data.List.Basic

/-!
# Fixed-size arrays

`Vec α` is an array of `size` elements with a total read. The operations are
the ones C arrays have: `set` one cell, `fill` all of them, `copyIn` a range
(`memcpy`). A read after a write is a case split on the index, so the lemmas
below are the only thing a proof needs about the representation.
-/

namespace Lib

structure Vec (α : Type) where
  size : Nat
  get : Nat → α

namespace Vec

variable {α : Type}

def replicate (n : Nat) (a : α) : Vec α := ⟨n, fun _ => a⟩

def set (v : Vec α) (i : Nat) (a : α) : Vec α :=
  { v with get := fun k => if k = i then a else v.get k }

def fill (v : Vec α) (a : α) : Vec α := { v with get := fun _ => a }

/-- Copy `src 0 .. src (n - 1)` over the cells from `off` on. -/
def copyIn (v : Vec α) (off n : Nat) (src : Nat → α) : Vec α :=
  { v with get := fun k => if off ≤ k ∧ k < off + n then src (k - off) else v.get k }

/-- Change the size; new cells hold `a`. -/
def resize (v : Vec α) (n : Nat) (a : α) : Vec α :=
  ⟨n, fun k => if k < v.size then v.get k else a⟩

@[simp] theorem get_replicate (n : Nat) (a : α) (k : Nat) : (replicate n a).get k = a := rfl
@[simp] theorem get_fill (v : Vec α) (a : α) (k : Nat) : (v.fill a).get k = a := rfl

theorem get_set (v : Vec α) (i k : Nat) (a : α) :
    (v.set i a).get k = if k = i then a else v.get k := rfl

theorem get_copyIn_in (v : Vec α) {off n k : Nat} (src : Nat → α) (h1 : off ≤ k)
    (h2 : k < off + n) : (v.copyIn off n src).get k = src (k - off) := by
  simp [copyIn, h1, h2]

theorem get_copyIn_out (v : Vec α) {off n k : Nat} (src : Nat → α)
    (h : k < off ∨ off + n ≤ k) : (v.copyIn off n src).get k = v.get k := by
  have : ¬ (off ≤ k ∧ k < off + n) := by omega
  simp [copyIn, this]

end Vec

/-- The list `f 0, …, f (n - 1)`: `n` cells read at a pointer. -/
def readN {α : Type} (f : Nat → α) (n : Nat) : List α := (List.range n).map f

@[simp] theorem length_readN {α : Type} (f : Nat → α) (n : Nat) : (readN f n).length = n := by
  simp [readN]

theorem readN_congr {α : Type} {f g : Nat → α} {n : Nat} (h : ∀ k, k < n → f k = g k) :
    readN f n = readN g n :=
  List.map_congr_left fun k hk => h k (List.mem_range.mp hk)

theorem getElem_readN {α : Type} (f : Nat → α) {n k : Nat} (h : k < (readN f n).length) :
    (readN f n)[k] = f k := by
  simp [readN]

theorem take_readN {α : Type} (f : Nat → α) {n k : Nat} (h : k ≤ n) :
    (readN f n).take k = readN f k := by
  rw [readN, ← List.map_take, List.take_range, Nat.min_eq_left h, readN]

theorem readN_getD {α : Type} (l : List α) (a : α) : readN (l.getD · a) l.length = l := by
  apply List.ext_getElem
  · simp
  · intro k h1 h2
    simp [getElem_readN, h2]

/-- A header and what is copied behind it. -/
theorem readN_copyIn_append {α : Type} (v : Vec α) (header : List α) (a : α) (n : Nat)
    (src : Nat → α) :
    readN ((v.copyIn 0 header.length (header.getD · a)).copyIn header.length n src).get
      (header.length + n) = header ++ readN src n := by
  apply List.ext_getElem
  · simp
  · intro k h1 h2
    rw [length_readN] at h1
    rw [getElem_readN]
    by_cases hk : k < header.length
    · rw [Vec.get_copyIn_out _ _ (.inl hk), Vec.get_copyIn_in _ _ (Nat.zero_le k) (by omega),
        List.getElem_append_left hk]
      simp [hk]
    · rw [Vec.get_copyIn_in _ _ (by omega) h1, List.getElem_append_right (by omega),
        getElem_readN]

end Lib
