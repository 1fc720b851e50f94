import Mathlib.Algebra.BigOperators.Intervals
import Mathlib.Data.List.Chain

/-!
# Pacing

A log of rounds, each with its time and its items. `Apart` says that every
round comes at least a gap after the one before it; then no window as long as
the gap has more items than one round. `Spaced` and `Within` bound the times of
a log by gaps that change from one to the next, from below and from above.
-/

namespace Lib

structure Round (α : Type) where
  time : Int
  items : List α

section
variable {α : Type} {gap : Int} {rounds : List (Round α)} {r : Round α}

/-- Every round is at least `gap` after the one before. -/
def Apart (gap : Int) (rounds : List (Round α)) : Prop :=
  rounds.IsChain fun a b => a.time + gap ≤ b.time

/-- The items of the rounds in the window of length `gap` from `start` on. -/
def inWindow (gap start : Int) (rounds : List (Round α)) : List α :=
  (rounds.filter fun r => decide (start ≤ r.time ∧ r.time < start + gap)).flatMap (·.items)

theorem apart_nil (gap : Int) : Apart gap ([] : List (Round α)) := .nil

/-- A new round is apart from the last one. -/
theorem apart_snoc : Apart gap (rounds ++ [r]) ↔
    Apart gap rounds ∧ ∀ last, rounds.getLast? = some last → last.time + gap ≤ r.time := by
  unfold Apart
  rw [List.isChain_append]
  constructor
  · rintro ⟨h, -, hlast⟩
    exact ⟨h, fun last hl => hlast last hl r rfl⟩
  · rintro ⟨h, hlast⟩
    refine ⟨h, .singleton _, fun last hl s hs => ?_⟩
    cases Option.mem_some.mp hs
    exact hlast last hl

theorem Apart.pairwise (h : Apart gap rounds) (hgap : 0 ≤ gap) :
    rounds.Pairwise fun a b => a.time + gap ≤ b.time := by
  have : IsTrans (Round α) fun a b => a.time + gap ≤ b.time := ⟨fun a b c hab hbc => by omega⟩
  exact List.isChain_iff_pairwise.mp h

/-- **A window** has the items of one round at most. -/
theorem Apart.length_inWindow_le (h : Apart gap rounds) (hgap : 0 ≤ gap) {n : Nat}
    (hn : ∀ r ∈ rounds, r.items.length ≤ n) (start : Int) :
    (inWindow gap start rounds).length ≤ n := by
  have hpairwise := (h.pairwise hgap).filter fun r =>
    decide (start ≤ r.time ∧ r.time < start + gap)
  unfold inWindow
  cases hin : rounds.filter fun r => decide (start ≤ r.time ∧ r.time < start + gap) with
  | nil => exact Nat.zero_le n
  | cons a rest =>
    have hmem : ∀ b ∈ a :: rest, b ∈ rounds ∧ start ≤ b.time ∧ b.time < start + gap := by
      intro b hb
      rw [← hin, List.mem_filter, decide_eq_true_eq] at hb
      exact hb
    cases rest with
    | nil =>
      rw [List.flatMap_cons, List.flatMap_nil, List.append_nil]
      exact hn a (hmem a List.mem_cons_self).1
    | cons b rest =>
      -- two rounds of one window are not apart
      rw [hin, List.pairwise_cons] at hpairwise
      have hab := hpairwise.1 b List.mem_cons_self
      have ha := (hmem a List.mem_cons_self).2
      have hb := (hmem b (List.mem_cons_of_mem a List.mem_cons_self)).2
      omega

end

/-! ## Changing gaps -/

/-- The `n`-th time is related by `R n` to the one before it, the first one to `start`. -/
def Stepwise (R : Nat → Int → Int → Prop) : Int → List Int → Prop
  | _, [] => True
  | start, t :: ts => R 0 start t ∧ Stepwise (fun n => R (n + 1)) t ts

/-- Time `n` comes at least `gap n` after the one before it. -/
def Spaced (gap : Nat → Int) : Int → List Int → Prop := Stepwise fun n a b => a + gap n ≤ b

/-- Time `n` comes less than `gap n` after the one before it. -/
def Within (gap : Nat → Int) : Int → List Int → Prop := Stepwise fun n a b => b < a + gap n

section
variable {R : Nat → Int → Int → Prop} {gap : Nat → Int} {start : Int} {ts : List Int}

theorem stepwise_snoc {t : Int} :
    Stepwise R start (ts ++ [t]) ↔ Stepwise R start ts ∧ R ts.length (ts.getLastD start) t := by
  induction ts generalizing R start with
  | nil => exact and_comm
  | cons u ts ih =>
    rw [List.cons_append, Stepwise, Stepwise, ih, List.getLastD_cons, List.length_cons]
    exact and_assoc.symm

/-- The gaps up to the last time add up. -/
theorem Spaced.sum_le (h : Spaced gap start ts) :
    start + ∑ n ∈ Finset.range ts.length, gap n ≤ ts.getLastD start := by
  induction ts generalizing gap start with
  | nil => simp
  | cons t ts ih =>
    obtain ⟨hfirst, hrest⟩ := h
    have hrest : Spaced (fun n => gap (n + 1)) t ts := hrest
    have hlast := ih hrest
    rw [List.length_cons, Finset.sum_range_succ', List.getLastD_cons]
    omega

end

end Lib
