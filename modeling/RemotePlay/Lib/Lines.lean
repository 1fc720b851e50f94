import Mathlib.Data.List.DropRight
import Mathlib.Data.List.TakeWhile

/-!
# Lines of text

A text is a list of symbols. `lines nl` cuts it after each `nl`; what follows
the last one is a line too, unless it is empty. `unlines nl` ends every line
with `nl` and is undone by `lines nl` (`lines_unlines`). `trim p` drops the
symbols of kind `p` at both ends; it keeps just the texts that neither begin
nor end with one (`trim_eq_self_iff`).
-/

namespace Lib

variable {α : Type}

section
variable [DecidableEq α]

def lines (nl : α) : List α → List (List α)
  | [] => []
  | c :: rest =>
    if c = nl then [] :: lines nl rest
    else
      match lines nl rest with
      | [] => [[c]]
      | l :: ls => (c :: l) :: ls

def unlines (nl : α) (ls : List (List α)) : List α := ls.flatMap (· ++ [nl])

variable {nl : α}

theorem lines_append {l : List α} (h : nl ∉ l) (rest : List α) :
    lines nl (l ++ nl :: rest) = l :: lines nl rest := by
  induction l with
  | nil => simp [lines]
  | cons c l ih =>
    obtain ⟨hc, hl⟩ := not_or.mp (mt List.mem_cons.mpr h)
    simp only [List.cons_append, lines, if_neg (Ne.symm hc), ih hl]

theorem lines_unlines {ls : List (List α)} (h : ∀ l ∈ ls, nl ∉ l) :
    lines nl (unlines nl ls) = ls := by
  induction ls with
  | nil => rfl
  | cons l ls ih =>
    have hrest := ih fun l' hl' => h l' (List.mem_cons_of_mem l hl')
    rw [unlines, List.flatMap_cons, List.append_assoc, List.singleton_append,
      lines_append (h l List.mem_cons_self)]
    exact congrArg (l :: ·) hrest

theorem not_mem_of_mem_lines {text l : List α} (h : l ∈ lines nl text) : nl ∉ l := by
  induction text generalizing l with
  | nil => exact absurd h List.not_mem_nil
  | cons c rest ih =>
    simp only [lines] at h
    split at h
    · rcases List.mem_cons.mp h with rfl | h
      · exact List.not_mem_nil
      · exact ih h
    · next hc =>
      split at h
      · rw [List.mem_singleton.mp h, List.mem_singleton]
        exact Ne.symm hc
      · next l' ls heq =>
        rcases List.mem_cons.mp h with rfl | h
        · have hl' := ih (heq ▸ List.mem_cons_self)
          simp [Ne.symm hc, hl']
        · exact ih (heq ▸ List.mem_cons_of_mem l' h)

end

/-! ## Trimming -/

variable (p : α → Bool)

def trim (l : List α) : List α := (l.dropWhile p).rdropWhile p

/-- Neither end is of kind `p`. -/
def Trimmed (l : List α) : Prop := (∀ a ∈ l.head?, p a = false) ∧ ∀ a ∈ l.getLast?, p a = false

instance (l : List α) : Decidable (Trimmed p l) :=
  inferInstanceAs (Decidable ((∀ a ∈ l.head?, p a = false) ∧ ∀ a ∈ l.getLast?, p a = false))

variable {p}

theorem mem_of_mem_trim {l : List α} {a : α} (h : a ∈ trim p l) : a ∈ l :=
  (List.dropWhile_suffix p).subset ((List.rdropWhile_prefix p _).subset h)

theorem trimmed_trim (l : List α) : Trimmed p (trim p l) := by
  constructor
  · intro a ha
    -- What is left after both cuts begins where the first cut ended.
    obtain ⟨cut, hcut⟩ := List.rdropWhile_prefix p (l.dropWhile p)
    change a ∈ ((l.dropWhile p).rdropWhile p).head? at ha
    cases hl : (l.dropWhile p).rdropWhile p with
    | nil => rw [hl] at ha; exact absurd ha (by simp)
    | cons b rest =>
      rw [hl] at ha hcut
      obtain rfl : b = a := by simpa using ha
      have hne : l.dropWhile p ≠ [] := by rw [← hcut]; simp
      have hnot := List.head_dropWhile_not p hne
      have hhead : (l.dropWhile p).head hne = b := by simp [← hcut]
      rwa [hhead] at hnot
  · intro a ha
    obtain ⟨hne, rfl⟩ := List.mem_getLast?_eq_getLast ha
    exact Bool.eq_false_iff.mpr (List.rdropWhile_last_not p _ hne)

theorem trim_eq_self_iff {l : List α} : trim p l = l ↔ Trimmed p l := by
  refine ⟨fun h => h ▸ trimmed_trim l, fun ⟨hhead, hlast⟩ => ?_⟩
  have hdrop : l.dropWhile p = l := by
    refine List.dropWhile_eq_self_iff.mpr fun hl => Bool.eq_false_iff.mp (hhead _ ?_)
    rw [List.head?_eq_getElem?, List.getElem?_eq_getElem hl]
    rfl
  rw [trim, hdrop]
  refine List.rdropWhile_eq_self_iff.mpr fun hl => Bool.eq_false_iff.mp (hlast _ ?_)
  exact List.getLast?_eq_getLast_of_ne_nil hl

end Lib
