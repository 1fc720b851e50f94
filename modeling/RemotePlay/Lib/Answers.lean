import Mathlib.Data.List.Basic

/-!
# Requests and answers in a log

`Answered` says of a log that between a request and any deadline after it there
is an answer, `Awaits` that a request of the log is still without one. Both
are decided by the log's last entry and what came before it.
-/

namespace Lib

variable {α : Type} {request answer deadline : α → Prop} {log : List α}

/-- A request has an answer before every deadline that follows it. -/
def Answered (request answer deadline : α → Prop) (log : List α) : Prop :=
  ∀ past r between d rest, log = past ++ r :: (between ++ d :: rest) →
    request r → deadline d → ∃ a ∈ between, answer a

/-- A request has had no answer yet. -/
def Awaits (request answer : α → Prop) (log : List α) : Prop :=
  ∃ past r since, log = past ++ r :: since ∧ request r ∧ ∀ a ∈ since, ¬ answer a

theorem answered_nil : Answered request answer deadline [] := by
  intro past r between d rest hlog
  exact absurd hlog.symm (List.append_ne_nil_of_right_ne_nil _ (List.cons_ne_nil _ _))

theorem not_awaits_nil : ¬ Awaits request answer ([] : List α) := by
  rintro ⟨past, r, since, hlog, -⟩
  exact absurd hlog.symm (List.append_ne_nil_of_right_ne_nil _ (List.cons_ne_nil _ _))

theorem awaits_append_singleton (x : α) : Awaits request answer (log ++ [x]) ↔
    request x ∨ Awaits request answer log ∧ ¬ answer x := by
  constructor
  · rintro ⟨past, r, since, hlog, hr, hnone⟩
    rcases List.eq_nil_or_concat since with rfl | ⟨since, a, rfl⟩
    · obtain ⟨-, hx⟩ := List.append_inj' hlog rfl
      cases hx
      exact .inl hr
    · rw [List.concat_eq_append, ← List.cons_append, ← List.append_assoc] at hlog
      rw [List.concat_eq_append] at hnone
      obtain ⟨rfl, hx⟩ := List.append_inj' hlog rfl
      cases hx
      refine .inr ⟨⟨past, r, since, rfl, hr, fun a ha => ?_⟩, hnone x ?_⟩
      · exact hnone a (List.mem_append_left _ ha)
      · exact List.mem_append_right _ List.mem_cons_self
  · rintro (hx | ⟨⟨past, r, since, rfl, hr, hnone⟩, hx⟩)
    · exact ⟨log, x, [], rfl, hx, fun a ha => nomatch ha⟩
    · refine ⟨past, r, since ++ [x], ?_, hr, fun a ha => ?_⟩
      · rw [List.append_assoc, List.cons_append]
      · rcases List.mem_append.mp ha with ha | ha
        · exact hnone a ha
        · rwa [List.mem_singleton.mp ha]

/-- A new entry has to find no request waiting, if it is a deadline. -/
theorem answered_append_singleton {x : α} (h : Answered request answer deadline log)
    (hx : deadline x → ¬ Awaits request answer log) :
    Answered request answer deadline (log ++ [x]) := by
  intro past r between d rest hlog hr hd
  rcases List.eq_nil_or_concat rest with rfl | ⟨rest, y, rfl⟩
  · rw [← List.cons_append, ← List.append_assoc] at hlog
    obtain ⟨rfl, hx'⟩ := List.append_inj' hlog rfl
    cases hx'
    by_contra hnone
    push Not at hnone
    exact hx hd ⟨past, r, between, rfl, hr, hnone⟩
  · rw [List.concat_eq_append, ← List.cons_append, ← List.append_assoc, ← List.cons_append,
      ← List.append_assoc] at hlog
    obtain ⟨hlog, -⟩ := List.append_inj' hlog rfl
    rw [List.append_assoc, List.cons_append] at hlog
    exact h past r between d rest hlog hr hd

/-- Every request has been answered, in time. -/
structure Settled (request answer deadline : α → Prop) (log : List α) : Prop where
  answered : Answered request answer deadline log
  quiet : ¬ Awaits request answer log

namespace Settled

theorem nil : Settled request answer deadline ([] : List α) := ⟨answered_nil, not_awaits_nil⟩

/-- An entry that is no request. -/
theorem append_singleton (h : Settled request answer deadline log) {x : α} (hx : ¬ request x) :
    Settled request answer deadline (log ++ [x]) where
  answered := answered_append_singleton h.answered fun _ => h.quiet
  quiet := by
    rw [awaits_append_singleton]
    rintro (hr | ⟨hawaits, -⟩)
    · exact hx hr
    · exact h.quiet hawaits

/-- A request, and its answer at once. -/
theorem append_pair (h : Settled request answer deadline log) {r a : α} (hr : ¬ deadline r)
    (ha : answer a) (ha' : ¬ request a) (ha'' : ¬ deadline a) :
    Settled request answer deadline (log ++ [r, a]) := by
  rw [List.append_cons]
  refine ⟨?_, ?_⟩
  · refine answered_append_singleton (answered_append_singleton h.answered ?_) ?_
    · exact fun hd => absurd hd hr
    · exact fun hd => absurd hd ha''
  · rw [awaits_append_singleton]
    rintro (hr | ⟨-, hnot⟩)
    · exact ha' hr
    · exact hnot ha

end Settled

end Lib
