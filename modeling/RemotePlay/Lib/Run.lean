import Mathlib.Data.List.Basic

/-!
# Runs

A system is a state and a step on labelled events; `run` takes a list of
events. `Along ok` says that every event of a run meets a condition at the
state it happens in. The rules carry an invariant over a run; `run_history`
lets the invariant speak about the events so far, `augment` adds an auxiliary
variable for what the state itself forgets.
-/

namespace Lib

variable {σ ε : Type} (step : σ → ε → σ)

def run (s : σ) (es : List ε) : σ := es.foldl step s

/-- Every event of the run satisfies `ok` at the state it happens in. -/
def Along (ok : σ → ε → Prop) : σ → List ε → Prop
  | _, [] => True
  | s, e :: es => ok s e ∧ Along ok (step s e) es

theorem run_cons (s : σ) (e : ε) (es : List ε) :
    run step s (e :: es) = run step (step s e) es := rfl

theorem run_append (s : σ) (es es' : List ε) :
    run step s (es ++ es') = run step (run step s es) es' :=
  List.foldl_append

variable {step}

/-- An invariant with a history: `past` are the events before the state. -/
theorem run_history {ok : σ → ε → Prop} {Inv : List ε → σ → Prop}
    (hstep : ∀ past s e, Inv past s → ok s e → Inv (past ++ [e]) (step s e))
    {past : List ε} {s : σ} (hs : Inv past s) {es : List ε} (hes : Along step ok s es) :
    Inv (past ++ es) (run step s es) := by
  induction es generalizing past s with
  | nil => rwa [List.append_nil]
  | cons e es ih =>
    obtain ⟨he, hrest⟩ := hes
    rw [List.append_cons]
    exact ih (hstep past s e hs he) hrest

theorem run_invariant {ok : σ → ε → Prop} {Inv : σ → Prop}
    (hstep : ∀ s e, Inv s → ok s e → Inv (step s e)) {s : σ} (hs : Inv s) {es : List ε}
    (hes : Along step ok s es) : Inv (run step s es) := by
  induction es generalizing s with
  | nil => exact hs
  | cons e es ih => exact ih (hstep s e hs hes.1) hes.2

/-- The rule for an unconditional step. -/
theorem run_invariant' {Inv : σ → Prop} (hstep : ∀ s e, Inv s → Inv (step s e)) {s : σ}
    (hs : Inv s) (es : List ε) : Inv (run step s es) := by
  induction es generalizing s with
  | nil => exact hs
  | cons e es ih => exact ih (hstep s e hs)

theorem along_of_forall {ok : ε → Prop} {es : List ε} (h : ∀ e ∈ es, ok e) {s : σ} :
    Along step (fun _ e => ok e) s es := by
  induction es generalizing s with
  | nil => trivial
  | cons e es ih =>
    exact ⟨h e List.mem_cons_self, ih fun e' he' => h e' (List.mem_cons_of_mem _ he')⟩

theorem along_of_always {ok : σ → ε → Prop} (h : ∀ s e, ok s e) (s : σ) (es : List ε) :
    Along step ok s es := by
  induction es generalizing s with
  | nil => trivial
  | cons e es ih => exact ⟨h s e, ih (step s e)⟩

theorem along_append {ok : σ → ε → Prop} {s : σ} {es es' : List ε} :
    Along step ok s (es ++ es') ↔ Along step ok s es ∧ Along step ok (run step s es) es' := by
  induction es generalizing s with
  | nil => exact (true_and _).to_iff.symm
  | cons e es ih => exact (and_congr_right fun _ => ih).trans and_assoc.symm

/-- The condition at each event, with the events before it. -/
theorem along_iff_forall_split {ok : σ → ε → Prop} {s : σ} {es : List ε} :
    Along step ok s es ↔ ∀ past e rest, es = past ++ e :: rest → ok (run step s past) e := by
  constructor
  · rintro h past e rest rfl
    exact (along_append.mp h).2.1
  · intro h
    induction es generalizing s with
    | nil => trivial
    | cons e es ih =>
      refine ⟨h [] e es rfl, ih fun past e' rest heq => ?_⟩
      exact h (e :: past) e' rest (by rw [heq, List.cons_append])

/-- A condition that an invariant with a history reads off the events before. -/
theorem along_iff_history {ok ok' : σ → ε → Prop} {Inv : List ε → σ → Prop}
    {Q : List ε → ε → Prop} (hstep : ∀ past s e, Inv past s → ok s e → Inv (past ++ [e]) (step s e))
    (hiff : ∀ past s e, Inv past s → ok s e → (ok' s e ↔ Q past e)) {s : σ} (hs : Inv [] s)
    {es : List ε} (hes : Along step ok s es) :
    Along step ok' s es ↔ ∀ past e rest, es = past ++ e :: rest → Q past e := by
  rw [along_iff_forall_split]
  refine forall_congr' fun past => forall_congr' fun e => forall_congr' fun rest =>
    forall_congr' fun heq => ?_
  rw [heq] at hes
  obtain ⟨hpast, hrest⟩ := along_append.mp hes
  exact hiff past _ e (run_history hstep hs hpast) hrest.1

theorem along_and_iff {ok ok' : σ → ε → Prop} {s : σ} {es : List ε} :
    Along step (fun s e => ok s e ∧ ok' s e) s es ↔ Along step ok s es ∧ Along step ok' s es := by
  induction es generalizing s with
  | nil => exact (true_and _).to_iff.symm
  | cons e es ih => exact (and_congr_right fun _ => ih).trans and_and_and_comm

theorem along_and {ok ok' : σ → ε → Prop} {s : σ} {es : List ε} (h : Along step ok s es)
    (h' : Along step ok' s es) : Along step (fun s e => ok s e ∧ ok' s e) s es :=
  along_and_iff.mpr ⟨h, h'⟩

/-- Two conditions that say the same of every event that meets a third, wherever the invariant
holds. -/
theorem along_congr_of {ok ok' ok'' : σ → ε → Prop} {Inv : σ → Prop}
    (hstep : ∀ s e, Inv s → ok s e → Inv (step s e))
    (hiff : ∀ s e, Inv s → ok s e → (ok' s e ↔ ok'' s e)) {s : σ} (hs : Inv s) {es : List ε}
    (hes : Along step ok s es) : Along step ok' s es ↔ Along step ok'' s es := by
  induction es generalizing s with
  | nil => exact Iff.rfl
  | cons e es ih => exact and_congr (hiff s e hs hes.1) (ih (hstep s e hs hes.1) hes.2)

/-- The rule for an invariant that the events which meet the condition keep. -/
theorem along_iff {ok ok' : σ → ε → Prop} {Inv : σ → Prop}
    (hstep : ∀ s e, Inv s → ok s e → Inv (step s e)) (hiff : ∀ s e, Inv s → (ok s e ↔ ok' s e))
    {s : σ} (hs : Inv s) (es : List ε) : Along step ok s es ↔ Along step ok' s es := by
  induction es generalizing s with
  | nil => exact Iff.rfl
  | cons e es ih =>
    constructor
    · rintro ⟨he, hrest⟩
      exact ⟨(hiff s e hs).mp he, (ih (hstep s e hs he)).mp hrest⟩
    · rintro ⟨he, hrest⟩
      have hok := (hiff s e hs).mpr he
      exact ⟨hok, (ih (hstep s e hs hok)).mpr hrest⟩

/-- The rule for an unconditional step. -/
theorem along_congr {ok ok' : σ → ε → Prop} {Inv : σ → Prop}
    (hstep : ∀ s e, Inv s → Inv (step s e)) (hiff : ∀ s e, Inv s → (ok s e ↔ ok' s e)) {s : σ}
    (hs : Inv s) (es : List ε) : Along step ok s es ↔ Along step ok' s es :=
  along_iff (fun s e h _ => hstep s e h) hiff hs es

/-- A condition on the events that is exact: `P` survives a step iff the event meets it, and once
lost does not come back. -/
theorem run_iff_along {ok : σ → ε → Prop} {Inv P : σ → Prop}
    (hstep : ∀ s e, Inv s → ok s e → Inv (step s e))
    (hexact : ∀ s e, Inv s → P s → (P (step s e) ↔ ok s e))
    (hback : ∀ s e, P (step s e) → P s) {s : σ} (hs : Inv s) (h : P s) (es : List ε) :
    P (run step s es) ↔ Along step ok s es := by
  induction es generalizing s with
  | nil => exact iff_of_true h trivial
  | cons e es ih =>
    constructor
    · intro hrun
      have hnext : P (step s e) := by
        clear ih
        change P (run step (step s e) es) at hrun
        generalize step s e = s' at hrun
        induction es generalizing s' with
        | nil => exact hrun
        | cons e' es ih => exact hback s' e' (ih _ hrun)
      have he := (hexact s e hs h).mp hnext
      exact ⟨he, (ih (hstep s e hs he) hnext).mp hrun⟩
    · rintro ⟨he, hrest⟩
      exact (ih (hstep s e hs he) ((hexact s e hs h).mpr he)).mpr hrest

/-- A property that a step keeps iff the event meets a condition, and never brings about. -/
theorem run_and_along {ok ok' : σ → ε → Prop} {Inv P : σ → Prop}
    (hstep : ∀ s e, Inv s → ok s e → Inv (step s e) ∧ (P (step s e) ↔ P s ∧ ok' s e)) {s : σ}
    (hs : Inv s) {es : List ε} (hes : Along step ok s es) :
    Inv (run step s es) ∧ (P (run step s es) ↔ P s ∧ Along step ok' s es) := by
  induction es generalizing s with
  | nil => exact ⟨hs, (and_iff_left trivial).symm⟩
  | cons e es ih =>
    obtain ⟨hnext, hexact⟩ := hstep s e hs hes.1
    obtain ⟨hrun, hrest⟩ := ih hnext hes.2
    refine ⟨hrun, hrest.trans ?_⟩
    rw [hexact]
    exact and_assoc

/-- A property of every state on the way, and the condition that is exact for one step of it, among
the events that meet another. -/
theorem forall_prefix_iff_along_of {ok ok' : σ → ε → Prop} {Inv P : σ → Prop}
    (hstep : ∀ s e, Inv s → ok s e → Inv (step s e))
    (hexact : ∀ s e, Inv s → ok s e → P s → (P (step s e) ↔ ok' s e)) {s : σ} (hs : Inv s)
    (h : P s) {es : List ε} (hes : Along step ok s es) :
    (∀ es', es' <+: es → P (run step s es')) ↔ Along step ok' s es := by
  induction es generalizing s with
  | nil =>
    refine iff_of_true (fun es' hes' => ?_) trivial
    rw [List.prefix_nil.mp hes']
    exact h
  | cons e es ih =>
    have hnext := hstep s e hs hes.1
    have hexact := hexact s e hs hes.1 h
    constructor
    · intro hall
      have hstill : P (step s e) := hall [e] ⟨es, rfl⟩
      refine ⟨hexact.mp hstill, (ih hnext hstill hes.2).mp fun es' hes' => ?_⟩
      exact hall (e :: es') (List.cons_prefix_cons.mpr ⟨rfl, hes'⟩)
    · rintro ⟨he, hrest⟩ es' hes'
      cases es' with
      | nil => exact h
      | cons e' es' =>
        obtain ⟨rfl, htail⟩ := List.cons_prefix_cons.mp hes'
        exact (ih hnext (hexact.mpr he) hes.2).mpr hrest es' htail

/-- The rule for an unconditional step. -/
theorem forall_prefix_iff_along {ok : σ → ε → Prop} {Inv P : σ → Prop}
    (hstep : ∀ s e, Inv s → Inv (step s e))
    (hexact : ∀ s e, Inv s → P s → (P (step s e) ↔ ok s e)) {s : σ} (hs : Inv s) (h : P s)
    (es : List ε) : (∀ es', es' <+: es → P (run step s es')) ↔ Along step ok s es :=
  forall_prefix_iff_along_of (fun s e hs _ => hstep s e hs) (fun s e hs _ => hexact s e hs) hs h
    (along_of_always (fun _ _ => trivial) s es)

/-- A view of the system that has a step of its own. -/
theorem run_map {τ : Type} {step' : τ → ε → τ} {Inv : σ → Prop} (view : σ → τ)
    (hstep : ∀ s e, Inv s → Inv (step s e))
    (hview : ∀ s e, Inv s → view (step s e) = step' (view s) e) {s : σ} (hs : Inv s)
    (es : List ε) : view (run step s es) = run step' (view s) es := by
  induction es generalizing s with
  | nil => rfl
  | cons e es ih => rw [run_cons, run_cons, ih (hstep s e hs), hview s e hs]

/-! ## Logs -/

section
variable {α : Type} {log : σ → List α}

end

/-! ## Auxiliary variables -/

section
variable {η : Type} (step) (note : σ → ε → η → η)

/-- The system with an auxiliary variable, which its steps write and never read. -/
def augment (x : σ × η) (e : ε) : σ × η := (step x.1 e, note x.1 e x.2)

theorem run_augment (x : σ × η) (es : List ε) :
    (run (augment step note) x es).1 = run step x.1 es := by
  induction es generalizing x with
  | nil => rfl
  | cons e es ih => exact ih (augment step note x e)

variable {step}

/-- A condition that does not look at the auxiliary variable. -/
theorem along_augment (ok : σ → ε → Prop) {x : σ × η} {es : List ε} :
    Along (augment step note) (fun x e => ok x.1 e) x es ↔ Along step ok x.1 es := by
  induction es generalizing x with
  | nil => exact Iff.rfl
  | cons e es ih => exact and_congr_right fun _ => ih

end

end Lib
