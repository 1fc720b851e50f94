import RemotePlay.Lib.Run

/-!
# The start of the host

`runHost` starts the capture thread and waits until it has said whether the
capture works, or `m_running` is reset. The capture thread says so under
`initMutex`, and notifies; `stopSession` resets `m_running` without either. A
capture thread that finds `m_running` reset when it starts returns in silence, and
a `runHost` that waits by then waits for ever. The other threads of `runHost` end
with `m_running`, and are left out. No error callback is installed: one that stops
the session, as the dashboard's, would have `runHost` join its own thread.
-/

namespace RemotePlay.Session

open Lib

/-- Where the capture thread is. -/
inductive CaptureThread where
  /-- Before its first test of `m_running`. -/
  | created
  | initializing
  | acquiring
  /-- `initDone` is set, and nobody notified yet. -/
  | announcing
  | looping
  | done
  deriving DecidableEq

/-- Where `runHost` is. -/
inductive HostMain where
  /-- Before `initMutex`, on the way to the wait or woken in it. -/
  | testing
  /-- The predicate was false: it holds the mutex, and is about to block. -/
  | checked
  | parked
  | joining
  | returned
  deriving DecidableEq

structure HostStartup where
  running : Bool
  initDone : Bool
  initFailed : Bool
  capture : CaptureThread
  main : HostMain
  deriving DecidableEq

inductive StartupEvent where
  /-- The capture thread's next step; `ok` is what `Initialize` or `AcquireFrame` says. -/
  | capture (ok : Bool)
  | main
  /-- `runHost` wakes unnotified. -/
  | spurious
  /-- `m_running` is reset. -/
  | stop
  deriving DecidableEq

namespace HostStartup

/-- `runHost` has started its threads. -/
def init : HostStartup := ⟨true, false, false, .created, .testing⟩

def wake (s : HostStartup) : HostStartup :=
  match s.main with
  | .parked => { s with main := .testing }
  | _ => s

/-- `initFailed`, said under the mutex. -/
def fail (s : HostStartup) : HostStartup :=
  match s.main with
  | .checked => s
  | _ => { s with initFailed := true, capture := .done }.wake

def captureStep (s : HostStartup) (ok : Bool) : HostStartup :=
  match s.capture with
  | .created => { s with capture := if s.running then .initializing else .done }
  | .initializing => if ok then { s with capture := .acquiring } else s.fail
  | .acquiring =>
    if ok then
      match s.main with
      | .checked => s
      | _ => { s with initDone := true, capture := .announcing }
    else s.fail
  | .announcing => { s with capture := .looping }.wake
  | .looping => { s with capture := if s.running then .looping else .done }
  | .done => s

/-- The next step of `runHost`. `reportError`, which it calls where the capture has failed, does
nothing without a callback. -/
def mainStep (s : HostStartup) : HostStartup :=
  match s.main with
  | .testing =>
    if s.initDone || s.initFailed || !s.running then
      { s with running := s.running && !s.initFailed, main := .joining }
    else { s with main := .checked }
  | .checked => { s with main := .parked }
  | .parked => s
  | .joining => if s.capture = .done then { s with main := .returned } else s
  | .returned => s

def step (s : HostStartup) : StartupEvent → HostStartup
  | .capture ok => s.captureStep ok
  | .main => s.mainStep
  | .spurious => s.wake
  | .stop => { s with running := false }

/-- `runHost` returns by the steps of the two threads, whatever the capture says. -/
def Returns (s : HostStartup) : Prop :=
  ∀ ok, ∃ es, (∀ e ∈ es, e = .main ∨ e = .capture ok) ∧ (run step s es).main = .returned

def waits (s : HostStartup) : Prop := s.main = .checked ∨ s.main = .parked

/-- `m_running` is not reset while `runHost` waits for a capture thread that has not started. -/
def Noticed (s : HostStartup) : StartupEvent → Prop
  | .stop => s.waits → s.capture ≠ .created
  | _ => True

/-- `runHost` waits, and the capture thread has returned in silence, or will. -/
structure Doomed (s : HostStartup) : Prop where
  stopped : s.running = false
  waits : s.waits
  silent : s.capture = .created ∨ s.capture = .done

/-! ## What holds on the way -/

/-- Whoever waits has been told nothing, or is about to be notified. -/
structure Told (s : HostStartup) : Prop where
  waiting : s.waits → s.initFailed = false ∧ (s.initDone = true → s.capture = .announcing)
  checked : s.main = .checked → s.initDone = false
  early : s.capture = .created ∨ s.capture = .initializing ∨ s.capture = .acquiring →
    s.initDone = false ∧ s.initFailed = false
  late : s.capture = .announcing ∨ s.capture = .looping → s.initDone = true
  ended : s.capture = .done → s.initDone = true ∨ s.initFailed = true ∨ s.running = false

theorem init_told : Told init :=
  ⟨fun h => (by rcases h with h | h <;> cases h), fun h => (by cases h), fun _ => ⟨rfl, rfl⟩,
    fun h => (by rcases h with h | h <;> cases h), fun h => (by cases h)⟩

variable {s : HostStartup}

/-- Who is notified does not wait. -/
theorem wake_told (hearly : s.capture = .created ∨ s.capture = .initializing ∨
      s.capture = .acquiring → s.initDone = false ∧ s.initFailed = false)
    (hlate : s.capture = .announcing ∨ s.capture = .looping → s.initDone = true)
    (hended : s.capture = .done → s.initDone = true ∨ s.initFailed = true ∨ s.running = false)
    (hchecked : s.main ≠ .checked) : s.wake.Told := by
  unfold wake
  split
  · exact ⟨fun h => (by rcases h with h | h <;> cases h), fun h => (by cases h), hearly, hlate,
      hended⟩
  · next hparked =>
    exact ⟨fun h => (by rcases h with h | h <;> contradiction), fun h => absurd h hchecked, hearly,
      hlate, hended⟩

theorem fail_told (h : s.Told) : s.fail.Told := by
  unfold fail
  split
  · exact h
  · next hchecked =>
    refine wake_told ?_ ?_ (fun _ => Or.inr (Or.inl rfl)) hchecked
    · rintro (hc | hc | hc) <;> cases hc
    · rintro (hc | hc) <;> cases hc

theorem captureStep_told (h : s.Told) (ok : Bool) : (s.captureStep ok).Told := by
  unfold captureStep
  split
  · next hcapture =>
    obtain ⟨hdone, hfailed⟩ := h.early (Or.inl hcapture)
    refine ⟨fun _ => ⟨hfailed, fun hd => ?_⟩, h.checked, fun _ => ⟨hdone, hfailed⟩, ?_, ?_⟩
    · simp [hdone] at hd
    · cases hrunning : s.running <;> simp
    · cases hrunning : s.running <;> simp
  · next hcapture =>
    obtain ⟨hdone, hfailed⟩ := h.early (Or.inr (Or.inl hcapture))
    split
    · refine ⟨fun _ => ⟨hfailed, fun hd => ?_⟩, h.checked, fun _ => ⟨hdone, hfailed⟩, ?_, ?_⟩
      · simp [hdone] at hd
      · rintro (hc | hc) <;> cases hc
      · intro hc
        cases hc
    · exact fail_told h
  · next hcapture =>
    split
    · split
      · exact h
      · next hchecked =>
        refine ⟨fun hw => ⟨(h.waiting hw).1, fun _ => rfl⟩, fun hc => absurd hc hchecked, ?_,
          fun _ => rfl, ?_⟩
        · rintro (hc | hc | hc) <;> cases hc
        · intro hc
          cases hc
    · exact fail_told h
  · next hcapture =>
    have hdone := h.late (Or.inl hcapture)
    refine wake_told ?_ (fun _ => hdone) (fun _ => Or.inl hdone) fun hchecked => ?_
    · rintro (hc | hc | hc) <;> cases hc
    · simp [h.checked hchecked] at hdone
  · next hcapture =>
    have hdone := h.late (Or.inr hcapture)
    have hnot : ¬ s.waits := by
      intro hw
      have hannouncing := (h.waiting hw).2 hdone
      simp [hcapture] at hannouncing
    refine ⟨fun hw => absurd hw hnot, h.checked, ?_, fun _ => hdone, fun _ => Or.inl hdone⟩
    cases hrunning : s.running <;> simp
  · exact h

theorem mainStep_told (h : s.Told) : s.mainStep.Told := by
  unfold mainStep
  split
  · split
    · refine ⟨fun hw => (by rcases hw with hw | hw <;> cases hw), fun hc => (by cases hc), h.early,
        h.late, fun hc => ?_⟩
      rcases h.ended hc with hdone | hfailed | hrunning
      · exact Or.inl hdone
      · exact Or.inr (Or.inl hfailed)
      · exact Or.inr (Or.inr (by simp [hrunning]))
    · next hpredicate =>
      simp only [Bool.or_eq_true, not_or, Bool.not_eq_true] at hpredicate
      obtain ⟨⟨hdone, hfailed⟩, -⟩ := hpredicate
      exact ⟨fun _ => ⟨hfailed, fun hd => (by simp [hdone] at hd)⟩, fun _ => hdone, h.early, h.late,
        h.ended⟩
  · next hchecked =>
    exact ⟨fun _ => h.waiting (Or.inl hchecked), fun hc => (by cases hc), h.early, h.late, h.ended⟩
  · exact h
  · split
    · exact ⟨fun hw => (by rcases hw with hw | hw <;> cases hw), fun hc => (by cases hc), h.early,
        h.late, h.ended⟩
    · exact h
  · exact h

theorem step_told (h : s.Told) (e : StartupEvent) : (s.step e).Told := by
  cases e with
  | capture ok => exact captureStep_told h ok
  | main => exact mainStep_told h
  | spurious =>
    show s.wake.Told
    by_cases hchecked : s.main = .checked
    · have hsame : s.wake = s := by simp [wake, hchecked]
      rwa [hsame]
    · exact wake_told h.early h.late h.ended hchecked
  | stop =>
    exact ⟨h.waiting, h.checked, h.early, h.late, fun _ => Or.inr (Or.inr rfl)⟩

/-! ## Whether it returns -/

/-- Who is doomed stays so by the threads' own steps. -/
theorem doomed_thread (h : s.Doomed) {ok : Bool} {e : StartupEvent}
    (he : e = .main ∨ e = .capture ok) : (s.step e).Doomed := by
  obtain ⟨hstopped, hwaits, hsilent⟩ := h
  rcases he with rfl | rfl
  · show s.mainStep.Doomed
    rcases hwaits with hw | hw <;> simp only [mainStep, hw]
    · exact ⟨hstopped, Or.inr rfl, hsilent⟩
    · exact ⟨hstopped, Or.inr hw, hsilent⟩
  · show (s.captureStep ok).Doomed
    rcases hsilent with hc | hc <;> simp only [captureStep, hc]
    · exact ⟨hstopped, hwaits, Or.inr (by simp [hstopped])⟩
    · exact ⟨hstopped, hwaits, Or.inr hc⟩

theorem doomed_threads (h : s.Doomed) {ok : Bool} {es : List StartupEvent}
    (hes : ∀ e ∈ es, e = .main ∨ e = .capture ok) : (run step s es).Doomed := by
  induction es generalizing s with
  | nil => exact h
  | cons e es ih =>
    obtain ⟨he, hrest⟩ := List.forall_mem_cons.mp hes
    exact ih (doomed_thread h he) hrest

theorem not_returns_of_doomed (h : s.Doomed) : ¬ s.Returns := by
  intro hreturns
  obtain ⟨es, hes, hreturned⟩ := hreturns false
  rcases (doomed_threads h hes).waits with hw | hw <;> simp [hw] at hreturned

/-- Stopped, `runHost` goes through its test or blocks. -/
theorem mainStep_settles (hstopped : s.running = false) :
    s.mainStep.running = false ∧ s.mainStep.capture = s.capture ∧ s.mainStep.main ≠ .checked ∧
      s.mainStep.main ≠ .testing ∧ (s.mainStep.main = .parked → s.waits) := by
  unfold mainStep
  split
  · simp [hstopped]
  · next hchecked => simp [hstopped, waits, hchecked]
  · next hparked => simp [hstopped, waits, hparked]
  · next hjoining => split <;> simp [hstopped, hjoining]
  · next hreturned => simp [hstopped, hreturned]

/-- Stopped, the capture thread ends in four steps at most, and wakes who waits if it had something
to say. -/
theorem capture_ends (ok : Bool) (hstopped : s.running = false) (hchecked : s.main ≠ .checked)
    (hparked : s.main = .parked →
      s.capture = .initializing ∨ s.capture = .acquiring ∨ s.capture = .announcing) :
    (run step s (List.replicate 4 (.capture ok))).running = false ∧
      (run step s (List.replicate 4 (.capture ok))).capture = .done ∧
      ¬ (run step s (List.replicate 4 (.capture ok))).waits := by
  obtain ⟨running, initDone, initFailed, capture, main⟩ := s
  simp only at hstopped hchecked hparked
  subst hstopped
  cases main with
  | checked => exact absurd rfl hchecked
  | parked =>
    rcases hparked rfl with rfl | rfl | rfl <;> cases ok <;>
      simp [List.replicate, run, step, captureStep, fail, wake, waits]
  | testing | joining | returned =>
    cases capture <;> cases ok <;>
      simp [List.replicate, run, step, captureStep, fail, wake, waits]

theorem main_returns (hstopped : s.running = false) (hdone : s.capture = .done)
    (hwaits : ¬ s.waits) : (run step s [.main, .main]).main = .returned := by
  obtain ⟨hchecked, hparked⟩ := not_or.mp hwaits
  cases hmain : s.main with
  | checked => exact absurd hmain hchecked
  | parked => exact absurd hmain hparked
  | testing | joining | returned => simp [run, step, mainStep, hmain, hstopped, hdone]

/-- After a stop `runHost` returns unless it is doomed: it blocks or goes on, the capture thread
ends, and `runHost` is woken and goes through its tests. -/
theorem returns_of_not_doomed (h : s.Told) (hstopped : s.running = false) (hnot : ¬ s.Doomed) :
    s.Returns := by
  obtain ⟨hstopped', hcapture, hchecked, -, hparked⟩ := mainStep_settles hstopped
  have htold : s.mainStep.Told := mainStep_told h
  have hspeaks : s.mainStep.main = .parked → s.mainStep.capture = .initializing ∨
      s.mainStep.capture = .acquiring ∨ s.mainStep.capture = .announcing := by
    intro hmain
    have hsilent : ¬ (s.capture = .created ∨ s.capture = .done) :=
      fun hs => hnot ⟨hstopped, hparked hmain, hs⟩
    rw [hcapture]
    cases hc : s.capture with
    | created => exact absurd (Or.inl hc) hsilent
    | done => exact absurd (Or.inr hc) hsilent
    | initializing => exact Or.inl rfl
    | acquiring => exact Or.inr (Or.inl rfl)
    | announcing => exact Or.inr (Or.inr rfl)
    | looping =>
      rw [← hcapture] at hc
      have hannouncing := (htold.waiting (Or.inr hmain)).2 (htold.late (Or.inr hc))
      simp [hc] at hannouncing
  intro ok
  obtain ⟨hrunning, hdone, hwaits⟩ := capture_ends ok hstopped' hchecked hspeaks
  refine ⟨.main :: (List.replicate 4 (.capture ok) ++ [.main, .main]), by simp, ?_⟩
  rw [run_cons, run_append]
  exact main_returns hrunning hdone hwaits

/-- Nobody who waits is left in the lurch by a thread that ends with a word. -/
theorem wake_not_doomed (hchecked : s.main ≠ .checked) : ¬ s.wake.Doomed := by
  rintro ⟨-, hwaits, -⟩
  unfold wake at hwaits
  split at hwaits
  · rcases hwaits with hw | hw <;> cases hw
  · next hparked =>
    rcases hwaits with hw | hw
    · exact hchecked hw
    · exact hparked hw

theorem fail_not_doomed (hnot : ¬ s.Doomed) : ¬ s.fail.Doomed := by
  unfold fail
  split
  · exact hnot
  · next hchecked => exact wake_not_doomed hchecked

theorem captureStep_not_doomed (h : s.Told) (hnot : ¬ s.Doomed) (ok : Bool) :
    ¬ (s.captureStep ok).Doomed := by
  unfold captureStep
  split
  · next hcreated =>
    rintro ⟨hstopped, hwaits, -⟩
    exact hnot ⟨hstopped, hwaits, Or.inl hcreated⟩
  · split
    · rintro ⟨-, -, hc | hc⟩ <;> cases hc
    · exact fail_not_doomed hnot
  · split
    · split
      · exact hnot
      · rintro ⟨-, -, hc | hc⟩ <;> cases hc
    · exact fail_not_doomed hnot
  · next hannouncing =>
    refine wake_not_doomed fun hchecked => ?_
    have hdone := h.late (Or.inl hannouncing)
    simp [h.checked hchecked] at hdone
  · next hlooping =>
    rintro ⟨-, hwaits, -⟩
    have hannouncing := (h.waiting hwaits).2 (h.late (Or.inr hlooping))
    simp [hlooping] at hannouncing
  · exact hnot

theorem mainStep_not_doomed (hnot : ¬ s.Doomed) : ¬ s.mainStep.Doomed := by
  unfold mainStep
  split
  · split
    · rintro ⟨-, hw | hw, -⟩ <;> cases hw
    · next hpredicate =>
      simp only [Bool.or_eq_true, not_or, Bool.not_eq_true] at hpredicate
      rintro ⟨hstopped, -, -⟩
      have hstopped : s.running = false := hstopped
      simp [hstopped] at hpredicate
  · next hchecked =>
    rintro ⟨hstopped, -, hsilent⟩
    exact hnot ⟨hstopped, Or.inl hchecked, hsilent⟩
  · exact hnot
  · split
    · rintro ⟨-, hw | hw, -⟩ <;> cases hw
    · exact hnot
  · exact hnot

/-- Only a stop that goes unnoticed dooms the host. -/
theorem step_doomed_iff (h : s.Told) (hnot : ¬ s.Doomed) (e : StartupEvent) :
    ¬ (s.step e).Doomed ↔ s.Noticed e := by
  cases e with
  | stop =>
    constructor
    · intro hdoomed hwaits hcreated
      exact hdoomed ⟨rfl, hwaits, Or.inl hcreated⟩
    · rintro hnoticed ⟨-, hwaits, hcreated | hdone⟩
      · exact hnoticed hwaits hcreated
      · obtain ⟨hfailed, hannouncing⟩ := h.waiting hwaits
        have hdone : s.capture = .done := hdone
        rcases h.ended hdone with hinit | hinit | hstopped
        · simp [hdone] at hannouncing
          simp [hinit] at hannouncing
        · simp [hinit] at hfailed
        · exact hnot ⟨hstopped, hwaits, Or.inr hdone⟩
  | capture ok => exact iff_of_true (captureStep_not_doomed h hnot ok) trivial
  | main => exact iff_of_true (mainStep_not_doomed hnot) trivial
  | spurious =>
    refine iff_of_true ?_ trivial
    show ¬ s.wake.Doomed
    by_cases hchecked : s.main = .checked
    · have hsame : s.wake = s := by simp [wake, hchecked]
      rwa [hsame]
    · exact wake_not_doomed hchecked

/-- **The host can be stopped.** In every state of a run in which `m_running` has been reset,
`runHost` and its capture thread get to the end by their own steps, iff it was never reset while
`runHost` waited for a capture thread that had not started. -/
theorem host_returns_iff (es : List StartupEvent) :
    (∀ es', es' <+: es → (run step init es').running = false → (run step init es').Returns) ↔
      Along step Noticed init es := by
  have hstep : ∀ s e, Told s → Told (step s e) := fun _ e h => step_told h e
  have hexact : ∀ s e, Told s → ¬ Doomed s → (¬ Doomed (step s e) ↔ Noticed s e) :=
    fun _ e h hnot => step_doomed_iff h hnot e
  have hinit : ¬ init.Doomed := fun hdoomed => by cases hdoomed.stopped
  rw [← forall_prefix_iff_along hstep hexact init_told hinit es]
  refine forall₂_congr fun es' _ => ?_
  have htold : (run step init es').Told := run_invariant' hstep init_told es'
  exact ⟨fun hreturns hdoomed => not_returns_of_doomed hdoomed (hreturns hdoomed.stopped),
    fun hnot hstopped => returns_of_not_doomed htold hstopped hnot⟩

end HostStartup

end RemotePlay.Session
