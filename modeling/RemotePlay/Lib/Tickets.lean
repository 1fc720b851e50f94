import Mathlib.Data.List.Basic

/-!
# Tickets

Every owner has a counter that only goes up. A thread takes the next number of
some owner and uses it once, later; in between the others may take theirs.
Then no number of an owner is used twice (`Distinct.nodup`), whatever becomes
of the threads that never use theirs.
-/

namespace Lib

/-- The counters of the owners `ω`, what the threads `τ` have taken, and the uses so far. -/
@[ext]
structure Tickets (ω τ : Type) where
  counter : ω → Nat
  taken : τ → Option (ω × Nat)
  used : List (ω × Nat)

namespace Tickets

variable {ω τ : Type} {s : Tickets ω τ} {t t' : τ} {o : ω} {x y : ω × Nat}

/-- No number is out twice. -/
structure Distinct (s : Tickets ω τ) : Prop where
  taken_lt : ∀ t x, s.taken t = some x → x.2 < s.counter x.1
  used_lt : ∀ x ∈ s.used, x.2 < s.counter x.1
  taken_inj : ∀ t t' x, s.taken t = some x → s.taken t' = some x → t = t'
  unused : ∀ t x, s.taken t = some x → x ∉ s.used
  nodup : s.used.Nodup

/-- The next number of an owner is not out. -/
theorem Distinct.next_new (h : s.Distinct) : (∀ t, s.taken t ≠ some (o, s.counter o)) ∧
    (o, s.counter o) ∉ s.used :=
  ⟨fun t ht => Nat.lt_irrefl _ (h.taken_lt t _ ht), fun hu => Nat.lt_irrefl _ (h.used_lt _ hu)⟩

variable [DecidableEq τ]

/-- Thread `t` uses its number `x`. -/
def use (s : Tickets ω τ) (t : τ) (x : ω × Nat) : Tickets ω τ where
  counter := s.counter
  taken t' := if t' = t then none else s.taken t'
  used := s.used ++ [x]

theorem taken_use (h : (s.use t x).taken t' = some y) : t' ≠ t ∧ s.taken t' = some y := by
  simp only [use] at h
  split at h
  · cases h
  · next ht => exact ⟨ht, h⟩

theorem Distinct.use (h : s.Distinct) (ht : s.taken t = some x) : (s.use t x).Distinct where
  taken_lt t' y hy := h.taken_lt t' y (taken_use hy).2
  used_lt y hy := by
    rcases List.mem_append.mp hy with hy | hy
    · exact h.used_lt y hy
    · rw [List.mem_singleton.mp hy]
      exact h.taken_lt t x ht
  taken_inj t₁ t₂ y h₁ h₂ := h.taken_inj t₁ t₂ y (taken_use h₁).2 (taken_use h₂).2
  unused t' y hy hmem := by
    obtain ⟨hne, hy⟩ := taken_use hy
    rcases List.mem_append.mp hmem with hmem | hmem
    · exact h.unused t' y hy hmem
    · rw [List.mem_singleton.mp hmem] at hy
      exact hne (h.taken_inj t' t x hy ht)
  nodup := by
    show (s.used ++ [x]).Nodup
    rw [List.nodup_append]
    refine ⟨h.nodup, List.pairwise_singleton _ _, fun a ha b hb heq => ?_⟩
    rw [heq, List.mem_singleton.mp hb] at ha
    exact h.unused t x ht ha

variable [DecidableEq ω]

/-- Thread `t` takes the next number of `o`. -/
def take (s : Tickets ω τ) (t : τ) (o : ω) : Tickets ω τ where
  counter o' := if o' = o then s.counter o + 1 else s.counter o'
  taken t' := if t' = t then some (o, s.counter o) else s.taken t'
  used := s.used

theorem le_counter_take (s : Tickets ω τ) (t : τ) (o o' : ω) :
    s.counter o' ≤ (s.take t o).counter o' := by
  simp only [take]
  split
  · next h =>
    rw [h]
    exact Nat.le_succ _
  · exact Nat.le_refl _

theorem taken_take (h : (s.take t o).taken t' = some x) :
    t' = t ∧ x = (o, s.counter o) ∨ t' ≠ t ∧ s.taken t' = some x := by
  simp only [take] at h
  split at h
  · next ht => exact .inl ⟨ht, (Option.some.inj h).symm⟩
  · next ht => exact .inr ⟨ht, h⟩

theorem Distinct.take (h : s.Distinct) (t : τ) (o : ω) : (s.take t o).Distinct where
  taken_lt t' x hx := by
    rcases taken_take hx with ⟨-, rfl⟩ | ⟨-, hx⟩
    · simp only [Tickets.take, if_true]
      exact Nat.lt_succ_self _
    · exact Nat.lt_of_lt_of_le (h.taken_lt t' x hx) (le_counter_take s t o _)
  used_lt x hx := Nat.lt_of_lt_of_le (h.used_lt x hx) (le_counter_take s t o _)
  taken_inj t₁ t₂ x h₁ h₂ := by
    rcases taken_take h₁ with ⟨rfl, rfl⟩ | ⟨-, h₁⟩
    · rcases taken_take h₂ with ⟨rfl, -⟩ | ⟨-, h₂⟩
      · rfl
      · exact absurd h₂ (h.next_new.1 t₂)
    · rcases taken_take h₂ with ⟨-, rfl⟩ | ⟨-, h₂⟩
      · exact absurd h₁ (h.next_new.1 t₁)
      · exact h.taken_inj t₁ t₂ x h₁ h₂
  unused t' x hx := by
    rcases taken_take hx with ⟨-, rfl⟩ | ⟨-, hx⟩
    · exact h.next_new.2
    · exact h.unused t' x hx
  nodup := h.nodup

end Tickets

end Lib
