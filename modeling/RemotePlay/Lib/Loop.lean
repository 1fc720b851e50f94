import Mathlib.Data.Nat.Init

/-!
# While loops

A pass of a `while` loop goes round again or leaves. `passes` runs the loop
from pass `k` on; the body may depend on the number of the pass, which is how
a loop sees a world that changes between its passes. A loop whose every pass
leaves or lowers a measure ends (`ends_of_progress`), and one that comes back
to the state it started from does not (`not_ends_of_stuck`).
-/

namespace Lib

inductive Pass (σ : Type) where
  | again (s : σ)
  | leave (s : σ)

def Pass.state {σ : Type} : Pass σ → σ
  | .again s => s
  | .leave s => s

namespace Loop

variable {σ : Type} (guard : σ → Bool) (body : Nat → σ → Pass σ)

/-- At most `n` passes, the next of which is pass `k`. -/
def passes (k : Nat) : Nat → Pass σ → Pass σ
  | 0, p => p
  | _ + 1, .leave s => .leave s
  | n + 1, .again s => if guard s then passes (k + 1) n (body k s) else .leave s

/-- The loop that starts with pass `k` at `s` is left. -/
def Ends (k : Nat) (s : σ) : Prop := ∃ n s', passes guard body k n (.again s) = .leave s'

/-- Every pass of the loop leaves it or lowers `measure`. -/
def Progress (measure : σ → Nat) (k : Nat) (s : σ) : Prop :=
  ∀ n t t', passes guard body k n (.again s) = .again t → guard t = true →
    body (k + n) t = .again t' → measure t' < measure t

variable {guard : σ → Bool} {body : Nat → σ → Pass σ}

theorem passes_succ {k n : Nat} {s : σ} (h : guard s = true) :
    passes guard body k (n + 1) (.again s) = passes guard body (k + 1) n (body k s) :=
  if_pos h

/-- The last pass taken off. -/
theorem passes_snoc (k n : Nat) (p : Pass σ) :
    passes guard body k (n + 1) p =
      match passes guard body k n p with
      | .leave s => .leave s
      | .again s => if guard s then body (k + n) s else .leave s := by
  induction n generalizing k p with
  | zero => cases p <;> rfl
  | succ n ih =>
    cases p with
    | leave s => rfl
    | again s =>
      rw [passes, passes]
      split
      · rw [ih, show k + 1 + n = k + (n + 1) by omega]
      · rfl

theorem Progress.next {measure : σ → Nat} {k : Nat} {s s' : σ}
    (h : Progress guard body measure k s) (hg : guard s = true) (hb : body k s = .again s') :
    measure s' < measure s ∧ Progress guard body measure (k + 1) s' := by
  refine ⟨h 0 s s' rfl hg hb, fun n t t' hn ht hbt => h (n + 1) t t' ?_ ht ?_⟩
  · rw [passes_succ hg, hb, hn]
  · rwa [show k + (n + 1) = k + 1 + n by omega]

theorem ends_of_progress {measure : σ → Nat} {k : Nat} {s : σ}
    (h : Progress guard body measure k s) : Ends guard body k s := by
  induction hm : measure s using Nat.strongRecOn generalizing k s with
  | _ m ih =>
    by_cases hg : guard s = true
    · rcases hb : body k s with s' | s'
      · obtain ⟨hlt, hnext⟩ := h.next hg hb
        obtain ⟨n, t, hn⟩ := ih (measure s') (hm ▸ hlt) hnext rfl
        exact ⟨n + 1, t, by rw [passes_succ hg, hb, hn]⟩
      · exact ⟨1, s', by rw [passes_succ hg, hb]; rfl⟩
    · exact ⟨1, s, if_neg hg⟩

theorem not_ends_of_stuck {s : σ} (hg : guard s = true) (hb : ∀ k, body k s = .again s) (k : Nat) :
    ¬ Ends guard body k s := by
  rintro ⟨n, t, hn⟩
  induction n generalizing k with
  | zero => cases hn
  | succ n ih =>
    rw [passes_succ hg, hb] at hn
    exact ih (k + 1) hn

end Loop

end Lib
