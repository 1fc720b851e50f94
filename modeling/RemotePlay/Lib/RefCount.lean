import Mathlib.Data.Set.Card

/-!
# Counted references

Objects that count their references, and the variables that hold one each. Who
stores a pointer is to take a reference first, and who forgets it to give it
back; an object without references is gone, and using it is a fault. `Balanced`
says that every object has as many references as holders. A reference taken or
given back for no holder puts the count off, one way or the other, and what the
holders do afterwards does not mend it.
-/

namespace Lib

structure RefCounts (ι α : Type) where
  holds : ι → Option α
  count : α → Nat
  fault : Bool

namespace RefCounts

section
variable {ι α : Type} (r : RefCounts ι α) (x : α)

def holders : Set ι := {i | r.holds i = some x}

structure Balanced : Prop where
  faultless : r.fault = false
  exact : ∀ x, (r.count x : ℕ∞) = (r.holders x).encard

/-- There was a fault, or an object has too few references (`short`), or too many. -/
def Off (short : Bool) : Prop :=
  r.fault = true ∨ ∃ x, if short then (r.count x : ℕ∞) < (r.holders x).encard
    else (r.holders x).encard < r.count x

def start : RefCounts ι α := ⟨fun _ => none, fun _ => 0, false⟩

variable {r x}

theorem balanced_start : (start : RefCounts ι α).Balanced := by
  refine ⟨rfl, fun x => ?_⟩
  have hempty : (start : RefCounts ι α).holders x = ∅ :=
    Set.eq_empty_of_forall_notMem fun _ => nofun
  rw [hempty, Set.encard_empty]
  rfl

theorem Balanced.count_eq_zero_iff (h : r.Balanced) : r.count x = 0 ↔ ∀ i, r.holds i ≠ some x := by
  rw [← Nat.cast_eq_zero (R := ℕ∞), h.exact, Set.encard_eq_zero, Set.eq_empty_iff_forall_notMem]
  exact Iff.rfl

theorem Balanced.count_ne_zero_iff (h : r.Balanced) : r.count x ≠ 0 ↔ ∃ i, r.holds i = some x := by
  rw [Ne, h.count_eq_zero_iff, not_forall_not]

theorem Off.not_balanced {short : Bool} (h : r.Off short) : ¬ r.Balanced := by
  intro hr
  rcases h with hfault | ⟨x, hx⟩
  · rw [hr.faultless] at hfault
    cases hfault
  · rw [hr.exact] at hx
    split at hx
    · exact lt_irrefl _ hx
    · exact lt_irrefl _ hx

end

section
variable {ι α : Type} [DecidableEq α] (r : RefCounts ι α) (x : α)

/-- `x->AddRef();` -/
def addRef : RefCounts ι α :=
  { r with count := Function.update r.count x (r.count x + 1),
           fault := r.fault || decide (r.count x = 0) }

/-- `x->Release();` -/
def releaseRef : RefCounts ι α :=
  { r with count := Function.update r.count x (r.count x - 1),
           fault := r.fault || decide (r.count x = 0) }

variable {r x} {y : α} {short : Bool}

theorem count_addRef :
    ((r.addRef x).count y : ℕ∞) = r.count y + if y = x then 1 else 0 := by
  by_cases hy : y = x
  · subst hy
    simp [addRef]
  · simp [addRef, hy]

theorem count_releaseRef (hx : r.count x ≠ 0) :
    ((r.releaseRef x).count y : ℕ∞) + (if y = x then 1 else 0) = r.count y := by
  by_cases hy : y = x
  · subst hy
    have hsub : r.count y - 1 + 1 = r.count y := by omega
    have hself : (r.releaseRef y).count y = r.count y - 1 := Function.update_self ..
    rw [if_pos rfl, hself]
    exact_mod_cast hsub
  · simp [releaseRef, hy]

/-! ## References without a holder -/

theorem Balanced.off_releaseRef (h : r.Balanced) (x : α) : (r.releaseRef x).Off true := by
  by_cases hx : r.count x = 0
  · exact Or.inl (by simp [releaseRef, hx])
  · refine Or.inr ⟨x, ?_⟩
    have hlt : r.count x - 1 < r.count x := by omega
    have hself : (r.releaseRef x).count x = r.count x - 1 := Function.update_self ..
    rw [if_pos rfl, hself]
    calc ((r.count x - 1 : ℕ) : ℕ∞) < r.count x := by exact_mod_cast hlt
      _ = ((r.releaseRef x).holders x).encard := h.exact x

theorem Balanced.off_addRef (h : r.Balanced) (x : α) : (r.addRef x).Off false := by
  refine Or.inr ⟨x, ?_⟩
  rw [if_neg Bool.false_ne_true, count_addRef, if_pos rfl, h.exact x]
  change (r.holders x).encard < _
  rw [← h.exact x]
  exact_mod_cast Nat.lt_succ_self _

theorem addRef_releaseRef (hx : r.count x ≠ 0) : (r.addRef x).releaseRef x = r := by
  simp [addRef, releaseRef, hx]

theorem Off.releaseRef (h : r.Off true) (x : α) : (r.releaseRef x).Off true := by
  rcases h with hfault | ⟨y, hy⟩
  · exact Or.inl (by simp [RefCounts.releaseRef, hfault])
  · by_cases hx : r.count x = 0
    · exact Or.inl (by simp [RefCounts.releaseRef, hx])
    · refine Or.inr ⟨y, lt_of_le_of_lt ?_ hy⟩
      rw [← count_releaseRef (y := y) hx]
      exact le_self_add

theorem Off.addRef (h : r.Off false) (x : α) : (r.addRef x).Off false := by
  rcases h with hfault | ⟨y, hy⟩
  · exact Or.inl (by simp [RefCounts.addRef, hfault])
  · refine Or.inr ⟨y, lt_of_lt_of_le hy ?_⟩
    rw [count_addRef]
    exact le_self_add

theorem Off.addRef_releaseRef (h : r.Off short) (x : α) :
    ((r.addRef x).releaseRef x).Off short := by
  by_cases hx : r.count x = 0
  · exact Or.inl (by simp [RefCounts.addRef, RefCounts.releaseRef, hx])
  · rw [RefCounts.addRef_releaseRef hx]
    exact h

end

/-! ## Holders -/

section
variable {ι α : Type} [DecidableEq ι] [DecidableEq α] (r : RefCounts ι α) (i : ι) (x : α)

/-- `i = x; i->AddRef();` -/
def take : RefCounts ι α :=
  { r.addRef x with holds := Function.update r.holds i (some x) }

/-- `if (i) { i->Release(); i = nullptr; }` -/
def drop : RefCounts ι α :=
  match r.holds i with
  | none => r
  | some x => { r.releaseRef x with holds := Function.update r.holds i none }

/-- `i = nullptr;`, without giving the reference back. -/
def forget : RefCounts ι α := { r with holds := Function.update r.holds i none }

/-- A call that stores an object it has made in `i`. -/
def create : RefCounts ι α :=
  { r with holds := Function.update r.holds i (some x), count := Function.update r.count x 1 }

variable {r i x} {y : α} {short : Bool}

/-- Storing a pointer where there was none. -/
theorem holders_update_some (hi : r.holds i = none) :
    {j | Function.update r.holds i (some x) j = some y} =
      if y = x then insert i (r.holders y) else r.holders y := by
  ext j
  by_cases hj : j = i
  · subst hj
    by_cases hy : y = x
    · simp [hy]
    · simp [hy, holders, hi, Ne.symm hy]
  · by_cases hy : y = x
    · simp [holders, hj, hy]
    · simp [holders, hj, hy]

theorem encard_update_some (hi : r.holds i = none) :
    {j | Function.update r.holds i (some x) j = some y}.encard =
      (r.holders y).encard + if y = x then 1 else 0 := by
  rw [holders_update_some hi]
  split
  · have hnot : i ∉ r.holders y := fun h => by
      rw [holders, Set.mem_ofPred_eq, hi] at h
      cases h
    exact Set.encard_insert_of_notMem hnot
  · exact (add_zero _).symm

/-- Forgetting a pointer. -/
theorem encard_update_none (hi : r.holds i = some x) :
    {j | Function.update r.holds i none j = some y}.encard + (if y = x then 1 else 0) =
      (r.holders y).encard := by
  have hdiff : {j | Function.update r.holds i none j = some y} = r.holders y \ {i} := by
    ext j
    by_cases hj : j = i
    · simp [hj]
    · simp [holders, hj]
  rw [hdiff]
  split
  · next hy =>
    subst hy
    exact Set.encard_sdiff_singleton_add_one hi
  · next hy =>
    have hnot : i ∉ r.holders y := fun h => hy (Option.some.inj (h.symm.trans hi))
    rw [Set.sdiff_singleton_eq_self hnot, add_zero]

/-! ## What a holder does -/

@[simp] theorem holds_take_self : (r.take i x).holds i = some x := Function.update_self ..

theorem holds_take_ne {j : ι} (h : j ≠ i) : (r.take i x).holds j = r.holds j :=
  Function.update_of_ne h ..

@[simp] theorem holds_drop_self : (r.drop i).holds i = none := by
  unfold drop
  split
  · assumption
  · exact Function.update_self ..

theorem holds_drop_ne {j : ι} (h : j ≠ i) : (r.drop i).holds j = r.holds j := by
  unfold drop
  split
  · rfl
  · exact Function.update_of_ne h ..

omit [DecidableEq α] in
@[simp] theorem holds_forget_self : (r.forget i).holds i = none := Function.update_self ..

omit [DecidableEq α] in
theorem holds_forget_ne {j : ι} (h : j ≠ i) : (r.forget i).holds j = r.holds j :=
  Function.update_of_ne h ..

/-- A reference that somebody else gives back. -/
theorem forget_releaseRef (hi : r.holds i = some x) : (r.forget i).releaseRef x = r.drop i := by
  unfold drop
  rw [hi]
  rfl

theorem Balanced.take (h : r.Balanced) (hi : r.holds i = none) (hx : ∃ j, r.holds j = some x) :
    (r.take i x).Balanced := by
  have hcount := h.count_ne_zero_iff.mpr hx
  refine ⟨?_, fun y => ?_⟩
  · simp [RefCounts.take, addRef, h.faultless, hcount]
  · exact count_addRef.trans ((congrArg (· + _) (h.exact y)).trans (encard_update_some hi).symm)

/-- Taking a reference to an object that is gone. -/
theorem Balanced.off_take (h : r.Balanced) (i : ι) (short : Bool)
    (hx : ¬ ∃ j, r.holds j = some x) : (r.take i x).Off short := by
  have hcount := h.count_eq_zero_iff.mpr (not_exists.mp hx)
  exact Or.inl (by simp [RefCounts.take, addRef, hcount])

theorem Balanced.drop (h : r.Balanced) (i : ι) : (r.drop i).Balanced := by
  unfold RefCounts.drop
  split
  · exact h
  · next x hi =>
    have hx : r.count x ≠ 0 := h.count_ne_zero_iff.mpr ⟨i, hi⟩
    refine ⟨?_, fun y => ?_⟩
    · simp [releaseRef, h.faultless, hx]
    · have hcount := count_releaseRef (y := y) hx
      rw [h.exact y, ← encard_update_none hi] at hcount
      split at hcount
      · exact WithTop.add_right_cancel ENat.one_ne_top hcount
      · exact (add_zero _).symm.trans (hcount.trans (add_zero _))

/-- A pointer forgotten with its reference. -/
theorem Balanced.off_forget (h : r.Balanced) (hi : r.holds i = some x) :
    (r.forget i).Off false := by
  refine Or.inr ⟨x, ?_⟩
  have hone := encard_update_none (y := x) hi
  rw [if_pos rfl, ← h.exact x] at hone
  change _ < (r.count x : ℕ∞)
  have hfin : ((r.forget i).holders x).encard ≠ ⊤ := by
    intro htop
    change {j | Function.update r.holds i none j = some x}.encard = ⊤ at htop
    rw [htop] at hone
    exact ENat.natCast_ne_top (r.count x) hone.symm
  rw [← hone]
  exact (ENat.lt_add_one_iff hfin).mpr le_rfl

/-- An object that is made is to be a new one. -/
theorem Balanced.create_iff (h : r.Balanced) (hi : r.holds i = none) :
    (r.create i x).Balanced ↔ ∀ j, r.holds j ≠ some x := by
  rw [← h.count_eq_zero_iff]
  constructor
  · intro hcreate
    have hself : (r.create i x).count x = 1 := Function.update_self ..
    have hexact := (hcreate.exact x).trans (encard_update_some (x := x) (y := x) hi)
    rw [hself, if_pos rfl, ← h.exact x] at hexact
    have hnat : 1 = r.count x + 1 := by exact_mod_cast hexact
    omega
  · intro hzero
    refine ⟨h.faultless, fun y => ?_⟩
    refine Eq.trans ?_ (encard_update_some hi).symm
    rw [← h.exact y]
    by_cases hy : y = x
    · subst hy
      simp [create, hzero]
    · simp [create, hy]

/-! ## Counts that are off stay off -/

theorem Off.take (h : r.Off short) (hi : r.holds i = none) (x : α) : (r.take i x).Off short := by
  rcases h with hfault | ⟨y, hy⟩
  · exact Or.inl (by simp [RefCounts.take, RefCounts.addRef, hfault])
  · refine Or.inr ⟨y, ?_⟩
    have hcount : ((r.take i x).count y : ℕ∞) = r.count y + if y = x then 1 else 0 := count_addRef
    have hholders : ((r.take i x).holders y).encard = _ := encard_update_some (x := x) (y := y) hi
    have hfin : ((if y = x then 1 else 0 : ℕ) : ℕ∞) ≠ ⊤ := ENat.natCast_ne_top _
    rw [Nat.cast_ite, Nat.cast_one, Nat.cast_zero] at hfin
    rw [hcount, hholders, ENat.add_lt_add_iff_right hfin, ENat.add_lt_add_iff_right hfin]
    exact hy

omit [DecidableEq α] in
theorem Off.forget (h : r.Off false) (i : ι) : (r.forget i).Off false := by
  rcases h with hfault | ⟨y, hy⟩
  · exact Or.inl hfault
  · refine Or.inr ⟨y, lt_of_le_of_lt (Set.encard_le_encard fun j hj => ?_) hy⟩
    by_cases hji : j = i
    · subst hji
      exact nomatch holds_forget_self.symm.trans hj
    · exact (holds_forget_ne hji).symm.trans hj

theorem Off.drop (h : r.Off short) (i : ι) : (r.drop i).Off short := by
  unfold RefCounts.drop
  split
  · exact h
  · next x hi =>
    rcases h with hfault | ⟨y, hy⟩
    · exact Or.inl (by simp [RefCounts.releaseRef, hfault])
    · by_cases hx : r.count x = 0
      · exact Or.inl (by simp [RefCounts.releaseRef, hx])
      · refine Or.inr ⟨y, ?_⟩
        have hfin : ((if y = x then 1 else 0 : ℕ) : ℕ∞) ≠ ⊤ := ENat.natCast_ne_top _
        rw [Nat.cast_ite, Nat.cast_one, Nat.cast_zero] at hfin
        rw [← count_releaseRef hx, ← encard_update_none hi, ENat.add_lt_add_iff_right hfin,
          ENat.add_lt_add_iff_right hfin] at hy
        exact hy

end

end RefCounts

end Lib
