import Mathlib.Algebra.BigOperators.Group.List.Basic

/-!
# Items in groups

Items arrive one at a time and are put into groups: closing the group takes all
that have arrived since the last one was closed, and gives it a value. Each
item is in one group or in the rest. A grouping is exact if the value of every
group is the sum of its items.
-/

namespace Lib

structure Grouping (α : Type) where
  /-- The groups that are closed, each with its value. -/
  groups : List (α × List α)
  rest : List α
  deriving DecidableEq

namespace Grouping

variable {α : Type}

def empty : Grouping α := ⟨[], []⟩

def add (g : Grouping α) (a : α) : Grouping α := { g with rest := g.rest ++ [a] }

def close (g : Grouping α) (value : α) : Grouping α := ⟨g.groups ++ [(value, g.rest)], []⟩

/-- All that has arrived, in order. -/
def items (g : Grouping α) : List α := g.groups.flatMap Prod.snd ++ g.rest

@[simp] theorem items_add (g : Grouping α) (a : α) : (g.add a).items = g.items ++ [a] :=
  (List.append_assoc _ _ _).symm

@[simp] theorem items_close (g : Grouping α) (value : α) : (g.close value).items = g.items := by
  simp only [items, close, List.flatMap_append, List.flatMap_cons, List.flatMap_nil,
    List.append_nil]

variable [AddMonoid α]

def Exact (g : Grouping α) : Prop := ∀ p ∈ g.groups, p.1 = p.2.sum

theorem exact_empty : (empty : Grouping α).Exact := fun _ hp => nomatch hp

theorem exact_close {g : Grouping α} {value : α} :
    (g.close value).Exact ↔ g.Exact ∧ value = g.rest.sum := by
  simp only [Exact, close, List.forall_mem_append, List.forall_mem_singleton]

theorem sum_rest_add (g : Grouping α) (a : α) : (g.add a).rest.sum = g.rest.sum + a := by
  simp only [add, List.sum_append, List.sum_singleton]

end Grouping

end Lib
