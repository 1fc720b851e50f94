import Mathlib.Data.Finset.Fold
import Mathlib.Order.Interval.Finset.Nat

/-!
# Parity

The parity of a family is its fold under an operation in which every element is
its own inverse, as XOR is. One missing member is the parity combined with the
parity of the others. The loops that compute either go over an interval
of indices.
-/

namespace Lib

variable {α : Type} {op : α → α → α} [Std.Commutative op] [Std.Associative op] {e : α}

/-- The first round of a loop over `n + 1` indices from `i` on. -/
theorem fold_Ico_succ (f : Nat → α) (i n : Nat) :
    (Finset.Ico i (i + (n + 1))).fold op e f =
      op (f i) ((Finset.Ico (i + 1) (i + 1 + n)).fold op e f) := by
  have hfirst : insert i (Finset.Ico (i + 1) (i + 1 + n)) = Finset.Ico i (i + (n + 1)) := by
    ext k
    simp only [Finset.mem_insert, Finset.mem_Ico]
    omega
  rw [← hfirst, Finset.fold_insert (by simp)]

/-- The parity and the parity without `m` give back the member `m`. -/
theorem fold_except [Std.LawfulIdentity op e] (hself : ∀ a, op a a = e) {s : Finset Nat} {m : Nat}
    (hm : m ∈ s) (f : Nat → α) :
    op (s.fold op e f) (s.fold op e fun i => if i = m then e else f i) = f m := by
  have hothers : (s.erase m).fold op e (fun i => if i = m then e else f i) =
      (s.erase m).fold op e f :=
    Finset.fold_congr fun i hi => if_neg (Finset.ne_of_mem_erase hi)
  have hmembers := Finset.insert_erase hm
  have hnot := Finset.notMem_erase m s
  calc op (s.fold op e f) (s.fold op e fun i => if i = m then e else f i)
    _ = op (op (f m) ((s.erase m).fold op e f)) (op e ((s.erase m).fold op e f)) := by
      conv_lhs => rw [← hmembers]
      rw [Finset.fold_insert hnot, Finset.fold_insert hnot, hothers, if_pos rfl]
    _ = op (f m) (op ((s.erase m).fold op e f) ((s.erase m).fold op e f)) := by
      have hid : op e ((s.erase m).fold op e f) = (s.erase m).fold op e f :=
        Std.LawfulLeftIdentity.left_id _
      rw [hid]
      exact Std.Associative.assoc _ _ _
    _ = f m := by
      rw [hself]
      exact Std.LawfulRightIdentity.right_id _

end Lib
