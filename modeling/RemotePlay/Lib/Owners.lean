import Mathlib.Logic.Function.Basic

/-!
# Owning pointers

The members of a class that own an object each, by a raw pointer: a pointer is
null, it owns, or it dangles, when it was released and not reset. Releasing or
using a pointer that dangles is a fault, and so is using a null pointer; a
reference that is written over is leaked. `Sound` is what a class keeps that
makes no such mistake, `Stuck` what it does not get out of.
-/

namespace Lib

inductive Owner where
  | null
  | owning
  | dangling
  deriving DecidableEq

structure Owners (ι : Type) where
  ptr : ι → Owner
  /-- How many references were written over. -/
  leaked : Nat
  fault : Bool

namespace Owners

variable {ι : Type}

/-- Every pointer owns or is null, as is right. -/
structure Sound (o : Owners ι) : Prop where
  faultless : o.fault = false
  ptr : ∀ i, o.ptr i ≠ .dangling

/-- There was a fault, or pointer `i` is `p`. -/
def Stuck (i : ι) (p : Owner) (o : Owners ι) : Prop := o.fault = true ∨ o.ptr i = p

def start : Owners ι := ⟨fun _ => .null, 0, false⟩

theorem sound_start : (start : Owners ι).Sound := ⟨rfl, nofun⟩

/-! ## Looking at a pointer -/

section
variable (o : Owners ι) (i : ι)

def isSet : Bool := o.ptr i ≠ .null

/-- A call through the pointer. -/
def use : Owners ι := if o.ptr i = .owning then o else { o with fault := true }

variable {o i} {o' : Owners ι} {p : Owner}

theorem isSet_iff : o.isSet i = true ↔ o.ptr i ≠ .null := decide_eq_true_iff

theorem not_isSet_iff : o.isSet i = false ↔ o.ptr i = .null := by
  rw [← Bool.not_eq_true, isSet_iff, not_not]

theorem isSet_congr (h : o'.ptr i = o.ptr i) : o'.isSet i = o.isSet i := by
  rw [isSet, isSet, h]

@[simp] theorem ptr_use : (o.use i).ptr = o.ptr := by
  unfold use
  split <;> rfl

theorem use_of_owning (h : o.ptr i = .owning) : o.use i = o := if_pos h

theorem Sound.owning (h : o.Sound) (hi : o.isSet i = true) : o.ptr i = .owning := by
  have hnull := isSet_iff.mp hi
  cases hp : o.ptr i with
  | null => exact absurd hp hnull
  | owning => rfl
  | dangling => exact absurd hp (h.ptr i)

theorem Sound.use_eq (h : o.Sound) (hi : o.isSet i = true) : o.use i = o :=
  use_of_owning (h.owning hi)

theorem Stuck.use (h : o.Stuck i p) (j : ι) : (o.use j).Stuck i p := by
  unfold Owners.use
  split
  · exact h
  · exact Or.inl rfl

/-- Using a pointer that does not own is a fault. -/
theorem Stuck.fault_use (h : o.Stuck i p) (hp : p ≠ .owning) : (o.use i).fault = true := by
  unfold Owners.use
  split
  · next howning => exact h.elim id fun hi => absurd (hi.symm.trans howning) hp
  · rfl

end

/-! ## Writing a pointer -/

section
variable [DecidableEq ι] (o : Owners ι) (i : ι)

def set (p : Owner) : Owners ι := { o with ptr := Function.update o.ptr i p }

/-- A call that stores a new reference, or null when it fails. -/
def acquire (ok : Bool) : Owners ι :=
  { o.set i (if ok then .owning else .null) with
    leaked := if o.ptr i = .owning then o.leaked + 1 else o.leaked }

/-- `if (p) p->Release();` -/
def release : Owners ι :=
  match o.ptr i with
  | .null => o
  | .owning => o.set i .dangling
  | .dangling => { o with fault := true }

/-- The same, and `p = nullptr`. -/
def reset : Owners ι := (o.release i).set i .null

variable {o i} {j : ι} {p : Owner}

@[simp] theorem ptr_acquire_self (ok : Bool) :
    (o.acquire i ok).ptr i = if ok then .owning else .null := Function.update_self ..

theorem ptr_acquire_ne (h : j ≠ i) (ok : Bool) : (o.acquire i ok).ptr j = o.ptr j :=
  Function.update_of_ne h ..

@[simp] theorem ptr_reset_self : (o.reset i).ptr i = .null := Function.update_self ..

theorem ptr_release_ne (h : j ≠ i) : (o.release i).ptr j = o.ptr j := by
  unfold release
  split
  · rfl
  · exact Function.update_of_ne h ..
  · rfl

theorem ptr_reset_ne (h : j ≠ i) : (o.reset i).ptr j = o.ptr j :=
  (Function.update_of_ne h ..).trans (ptr_release_ne h)

theorem isSet_acquire_self (ok : Bool) : (o.acquire i ok).isSet i = ok := by
  unfold isSet
  rw [ptr_acquire_self]
  cases ok <;> rfl

theorem isSet_acquire_ne (h : j ≠ i) (ok : Bool) : (o.acquire i ok).isSet j = o.isSet j :=
  isSet_congr (ptr_acquire_ne h ok)

theorem isSet_reset_ne (h : j ≠ i) : (o.reset i).isSet j = o.isSet j := isSet_congr (ptr_reset_ne h)

theorem fault_release (hp : o.ptr i = .dangling ∨ o.fault = true) : (o.release i).fault = true := by
  unfold release
  split
  · next hnull => exact hp.elim (fun hi => by simp [hnull] at hi) id
  · next howning => exact hp.elim (fun hi => by simp [howning] at hi) id
  · rfl

theorem fault_reset (h : o.fault = true) : (o.reset i).fault = true := fault_release (Or.inr h)

theorem stuck_release (h : o.isSet i = true) : (o.release i).Stuck i .dangling := by
  unfold release
  split
  · next hnull => exact absurd hnull (isSet_iff.mp h)
  · exact Or.inr (Function.update_self ..)
  · exact Or.inl rfl

theorem Sound.acquire (h : o.Sound) (i : ι) (ok : Bool) : (o.acquire i ok).Sound := by
  refine ⟨h.faultless, fun j => ?_⟩
  by_cases hj : j = i
  · subst hj
    cases ok <;> simp
  · rw [ptr_acquire_ne hj]
    exact h.ptr j

theorem Sound.reset (h : o.Sound) (i : ι) : (o.reset i).Sound := by
  refine ⟨?_, fun j => ?_⟩
  · show (o.release i).fault = false
    unfold release
    split
    · exact h.faultless
    · exact h.faultless
    · next hp => exact absurd hp (h.ptr i)
  · by_cases hj : j = i
    · subst hj
      simp
    · rw [ptr_reset_ne hj]
      exact h.ptr j

theorem Stuck.acquire (h : o.Stuck i p) (hj : i ≠ j) (ok : Bool) : (o.acquire j ok).Stuck i p :=
  h.imp id fun hp => (ptr_acquire_ne hj ok).trans hp

theorem Stuck.release (h : o.Stuck i p) (hp : p ≠ .owning) (j : ι) :
    (o.release j).Stuck i p := by
  by_cases hj : i = j
  · subst hj
    unfold Owners.release
    split
    · exact h
    · next howning => exact h.imp id fun hi => absurd (hi.symm.trans howning) hp
    · exact Or.inl rfl
  · exact h.imp (fun hfault => fault_release (Or.inr hfault)) fun hi => (ptr_release_ne hj).trans hi

theorem Stuck.reset (h : o.Stuck i p) (hp : p ≠ .owning) (j : ι) : (o.reset j).Stuck i p := by
  by_cases hj : i = j
  · subst hj
    cases p with
    | owning => exact absurd rfl hp
    | null => exact Or.inr ptr_reset_self
    | dangling => exact Or.inl (fault_release h.symm)
  · exact (h.release hp j).imp id fun hi => (Function.update_of_ne hj ..).trans hi

theorem release_of_null (h : o.isSet i = false) : o.release i = o := by
  unfold release
  rw [not_isSet_iff.mp h]

/-- Sound but for some pointers that may dangle. -/
structure SoundBut (is : List ι) (o : Owners ι) : Prop where
  faultless : o.fault = false
  ptr : ∀ i, i ∉ is → o.ptr i ≠ .dangling

omit [DecidableEq ι] in
theorem Sound.soundBut (h : o.Sound) : o.SoundBut [] := ⟨h.faultless, fun i _ => h.ptr i⟩

theorem SoundBut.release {is : List ι} (h : o.SoundBut is) (hi : i ∉ is) :
    (o.release i).SoundBut (i :: is) := by
  refine ⟨?_, fun j hj => ?_⟩
  · unfold Owners.release
    split
    · exact h.faultless
    · exact h.faultless
    · next hp => exact absurd hp (h.ptr i hi)
  · rw [List.mem_cons, not_or] at hj
    rw [ptr_release_ne hj.1]
    exact h.ptr j hj.2

theorem SoundBut.reset {is : List ι} (h : o.SoundBut is) (hi : i ∉ is) :
    (o.reset i).SoundBut is := by
  have hrelease := h.release hi
  refine ⟨hrelease.faultless, fun j hj => ?_⟩
  by_cases hji : j = i
  · subst hji
    simp
  · rw [ptr_reset_ne hji]
    exact h.ptr j hj

/-- A loop over several pointers. -/
def resetAll (o : Owners ι) (is : List ι) : Owners ι := is.foldl reset o

theorem Sound.resetAll (h : o.Sound) (is : List ι) : (o.resetAll is).Sound := by
  induction is generalizing o with
  | nil => exact h
  | cons i is ih => exact ih (h.reset i)

theorem Stuck.resetAll (h : o.Stuck i p) (hp : p ≠ .owning) (is : List ι) :
    (o.resetAll is).Stuck i p := by
  induction is generalizing o with
  | nil => exact h
  | cons j is ih => exact ih (h.reset hp j)

theorem fault_resetAll (h : o.fault = true) (is : List ι) : (o.resetAll is).fault = true := by
  induction is generalizing o with
  | nil => exact h
  | cons i is ih => exact ih (fault_reset h)

theorem SoundBut.resetAll {is : List ι} (h : o.SoundBut is) (js : List ι)
    (hjs : ∀ j ∈ js, j ∉ is) : (o.resetAll js).SoundBut is := by
  induction js generalizing o with
  | nil => exact h
  | cons j js ih =>
    rw [List.forall_mem_cons] at hjs
    exact ih (h.reset hjs.1) hjs.2

theorem ptr_resetAll_ne {is : List ι} (h : j ∉ is) : (o.resetAll is).ptr j = o.ptr j := by
  induction is generalizing o with
  | nil => rfl
  | cons i is ih =>
    rw [List.mem_cons, not_or] at h
    exact (ih h.2).trans (ptr_reset_ne h.1)

end

end Owners

end Lib
