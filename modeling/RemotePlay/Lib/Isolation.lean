import RemotePlay.Lib.Run

/-!
# Isolation

One system serves several owners, each event being of one of them. An owner is
isolated when its view of a run is the one it would have had alone, with the
events of the others left out. `isolated_iff_along` finds the condition on
single events: a simulation between the run and the run of each owner alone,
which every event that meets the condition keeps and every other one breaks for
somebody.
-/

namespace Lib

variable {σ ε ι β : Type} [DecidableEq ι] (step : σ → ε → σ) (owner : ε → ι) (view : ι → σ → β)

/-- The events of one owner. -/
def ownEvents (i : ι) (es : List ε) : List ε := es.filter fun e => owner e = i

/-- Every owner sees of the run what it would see alone. -/
def Isolated (s : σ) (es : List ε) : Prop :=
  ∀ i, view i (run step s es) = view i (run step s (ownEvents owner i es))

/-- The state of one owner alone after an event, its own or another's. -/
def soloStep (i : ι) (t : σ) (e : ε) : σ := if owner e = i then step t e else t

variable {step owner view}

theorem run_ownEvents_cons (i : ι) (t : σ) (e : ε) (es : List ε) :
    run step t (ownEvents owner i (e :: es)) =
      run step (soloStep step owner i t e) (ownEvents owner i es) := by
  unfold ownEvents soloStep
  by_cases h : owner e = i
  · rw [List.filter_cons_of_pos (by simpa using h), if_pos h]
    rfl
  · rw [List.filter_cons_of_neg (by simpa using h), if_neg h]

/-- **Isolation** all along a run is a condition on its events. `R i s t` relates a state of the run
to the state of owner `i` alone. -/
theorem isolated_iff_along {ok : σ → ε → Prop} {R : ι → σ → σ → Prop}
    (hview : ∀ i s t, R i s t → view i s = view i t)
    (hkeep : ∀ i s t e, R i s t → ok s e → R i (step s e) (soloStep step owner i t e))
    (hbreak : ∀ (t : ι → σ) s e, (∀ i, R i s (t i)) → ¬ ok s e →
      ∃ i, view i (step s e) ≠ view i (soloStep step owner i (t i) e))
    {s : σ} (hs : ∀ i, R i s s) (es : List ε) :
    (∀ es', es' <+: es → Isolated step owner view s es') ↔ Along step ok s es := by
  suffices h : ∀ (t : ι → σ) (s : σ), (∀ i, R i s (t i)) →
      ((∀ es', es' <+: es → ∀ i,
        view i (run step s es') = view i (run step (t i) (ownEvents owner i es'))) ↔
      Along step ok s es) from h (fun _ => s) s hs
  clear hs s
  induction es with
  | nil =>
    intro t s hs
    refine iff_of_true (fun es' hes' i => ?_) trivial
    rw [List.prefix_nil.mp hes']
    exact hview i s (t i) (hs i)
  | cons e es ih =>
    intro t s hs
    constructor
    · intro hall
      have he : ok s e := by
        by_contra hbad
        obtain ⟨i, hi⟩ := hbreak t s e hs hbad
        have hone := hall [e] ⟨es, rfl⟩ i
        rw [run_ownEvents_cons] at hone
        exact hi hone
      refine ⟨he, (ih _ _ fun i => hkeep i s (t i) e (hs i) he).mp fun es' hes' i => ?_⟩
      have hlong := hall (e :: es') (List.cons_prefix_cons.mpr ⟨rfl, hes'⟩) i
      rwa [run_ownEvents_cons] at hlong
    · rintro ⟨he, hrest⟩ es' hes' i
      cases es' with
      | nil => exact hview i s (t i) (hs i)
      | cons e' es' =>
        obtain ⟨rfl, htail⟩ := List.cons_prefix_cons.mp hes'
        rw [run_ownEvents_cons]
        exact (ih _ _ fun i => hkeep i s (t i) e' (hs i) he).mpr hrest es' htail i

end Lib
