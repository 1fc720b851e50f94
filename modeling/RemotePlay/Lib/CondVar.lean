import Mathlib.Data.List.Nodup

/-!
# Condition variables

A thread that waits is parked until it is notified, or until it wakes of itself,
and then has the mutex to take again before its `wait` returns. Which thread a
`notifyOne` wakes is not for the notifier to say. `Covers n` is what a producer
owes its consumers: nobody is parked, or as many threads have been woken as
there are things to take.
-/

namespace Lib

/-- The threads that wait on one condition variable. -/
structure CondVar (ι : Type) where
  parked : List ι
  /-- Woken, and without the mutex yet. -/
  woken : List ι

namespace CondVar

open scoped List

variable {ι : Type}

def empty : CondVar ι := ⟨[], []⟩

def waits (cv : CondVar ι) (t : ι) : Prop := t ∈ cv.parked ∨ t ∈ cv.woken

def park (cv : CondVar ι) (t : ι) : CondVar ι := { cv with parked := cv.parked ++ [t] }

def notifyAll (cv : CondVar ι) : CondVar ι := ⟨[], cv.woken ++ cv.parked⟩

/-- `n` things can be taken, and those who wait for them have been woken. -/
def Covers (cv : CondVar ι) (n : Nat) : Prop := cv.parked = [] ∨ n ≤ cv.woken.length

/-- No thread waits twice. -/
def Distinct (cv : CondVar ι) : Prop := (cv.parked ++ cv.woken).Nodup

theorem covers_zero (cv : CondVar ι) : cv.Covers 0 := Or.inr (Nat.zero_le _)

theorem covers_notifyAll (cv : CondVar ι) (n : Nat) : cv.notifyAll.Covers n := Or.inl rfl

theorem Covers.mono {cv : CondVar ι} {n : Nat} (h : cv.Covers n) {k : Nat} (hk : k ≤ n) :
    cv.Covers k :=
  h.imp_right (Nat.le_trans hk)

theorem distinct_park {cv : CondVar ι} (h : cv.Distinct) {t : ι} (ht : ¬ cv.waits t) :
    (cv.park t).Distinct := by
  have hperm : (cv.park t).parked ++ (cv.park t).woken ~ t :: (cv.parked ++ cv.woken) := by
    show cv.parked ++ [t] ++ cv.woken ~ _
    rw [List.append_assoc]
    exact List.perm_middle
  refine hperm.nodup_iff.mpr (List.nodup_cons.mpr ⟨fun hmem => ht ?_, h⟩)
  exact List.mem_append.mp hmem

theorem distinct_notifyAll {cv : CondVar ι} (h : cv.Distinct) : cv.notifyAll.Distinct := by
  have hperm : cv.woken ++ cv.parked ~ cv.parked ++ cv.woken := List.perm_append_comm
  exact hperm.nodup_iff.mpr h

variable [DecidableEq ι]

instance (cv : CondVar ι) (t : ι) : Decidable (cv.waits t) :=
  inferInstanceAs (Decidable (_ ∨ _))

/-- `t` wakes of itself. -/
def wake (cv : CondVar ι) (t : ι) : CondVar ι :=
  if t ∈ cv.parked then ⟨cv.parked.erase t, cv.woken ++ [t]⟩ else cv

/-- One parked thread wakes, if there is one: `pick`, or the first where `pick` is not parked. -/
def notifyOne (cv : CondVar ι) (pick : ι) : CondVar ι :=
  if pick ∈ cv.parked then cv.wake pick
  else match cv.parked with
    | [] => cv
    | t :: _ => cv.wake t

/-- `t` has the mutex again. -/
def leave (cv : CondVar ι) (t : ι) : CondVar ι := { cv with woken := cv.woken.erase t }

variable {cv : CondVar ι} {n : Nat} {t : ι}

theorem wake_woken (h : t ∈ cv.parked) : (cv.wake t).woken.length = cv.woken.length + 1 := by
  simp [wake, h]

theorem covers_wake (h : cv.Covers n) : (cv.wake t).Covers n := by
  by_cases ht : t ∈ cv.parked
  · rcases h with h | h
    · simp [h] at ht
    · right
      rw [wake_woken ht]
      omega
  · rwa [wake, if_neg ht]

/-- One more thing to take, and one more thread to take it. -/
theorem covers_notifyOne (h : cv.Covers n) (pick : ι) : (cv.notifyOne pick).Covers (n + 1) := by
  rcases h with h | h
  · left
    simp [notifyOne, h]
  · unfold notifyOne
    split
    · next hpick =>
      right
      rw [wake_woken hpick]
      omega
    · split
      · next hnil => exact Or.inl hnil
      · next t rest hcons =>
        right
        rw [wake_woken (by rw [hcons]; exact List.mem_cons_self)]
        omega

theorem covers_leave (h : cv.Covers (n + 1)) (ht : t ∈ cv.woken) : (cv.leave t).Covers n := by
  rcases h with h | h
  · exact Or.inl h
  · right
    show n ≤ (cv.woken.erase t).length
    rw [List.length_erase_of_mem ht]
    omega

theorem wake_perm (cv : CondVar ι) (t : ι) :
    (cv.wake t).parked ++ (cv.wake t).woken ~ cv.parked ++ cv.woken := by
  unfold wake
  split
  · next ht =>
    show cv.parked.erase t ++ (cv.woken ++ [t]) ~ _
    calc cv.parked.erase t ++ (cv.woken ++ [t])
        ~ t :: (cv.parked.erase t ++ cv.woken) := by
          rw [← List.append_assoc]
          exact List.perm_append_singleton t _
      _ ~ cv.parked ++ cv.woken := (List.perm_cons_erase ht).symm.append_right _
  · exact List.Perm.refl _

theorem notifyOne_perm (cv : CondVar ι) (pick : ι) :
    (cv.notifyOne pick).parked ++ (cv.notifyOne pick).woken ~ cv.parked ++ cv.woken := by
  unfold notifyOne
  split
  · exact wake_perm cv pick
  · split
    · exact List.Perm.refl _
    · next t _ _ => exact wake_perm cv t

theorem distinct_wake (h : cv.Distinct) : (cv.wake t).Distinct :=
  (wake_perm cv t).nodup_iff.mpr h

theorem distinct_notifyOne (h : cv.Distinct) (pick : ι) : (cv.notifyOne pick).Distinct :=
  (notifyOne_perm cv pick).nodup_iff.mpr h

theorem distinct_leave (h : cv.Distinct) : (cv.leave t).Distinct :=
  h.sublist (List.Sublist.append_left (List.erase_sublist) _)

theorem wake_parked_nil (h : cv.parked = []) (t : ι) : (cv.wake t).parked = [] := by
  simp [wake, h]

theorem notifyOne_parked_nil (h : cv.parked = []) (pick : ι) :
    (cv.notifyOne pick).parked = [] := by
  simp [notifyOne, h]

/-- Who has left waits no more. -/
theorem not_waits_leave (h : cv.Distinct) (ht : t ∈ cv.woken) : ¬ (cv.leave t).waits t := by
  have hwoken : cv.woken.Nodup := (List.nodup_append.mp h).2.1
  rintro (hparked | hmem)
  · exact (List.nodup_append.mp h).2.2 t hparked t ht rfl
  · exact hwoken.not_mem_erase hmem

end CondVar

end Lib
