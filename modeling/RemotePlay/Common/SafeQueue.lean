import RemotePlay.Lib.CondVar
import RemotePlay.Lib.Run

/-!
# The blocking queue

`SafeQueue` is a `std::queue` under a mutex, with a condition variable for
`wait_and_pop`. A call is one step of its thread, the mutex taken and given back;
`wait_and_pop` gives it back in the middle when it parks, and goes on when the
thread is woken. A call of a thread that is still waiting in another is no event.
-/

namespace RemotePlay

open Lib

variable {α ι : Type} [DecidableEq ι]

/-- A call of `pop` or `wait_and_pop` that has returned, and the value if it returned `true`. -/
structure PopResult (α ι : Type) where
  thread : ι
  waited : Bool
  value : Option α

structure SafeQueue (α ι : Type) where
  queue : List α
  stopped : Bool
  cond : CondVar ι
  /-- The calls that have returned so far. -/
  returned : List (PopResult α ι)

inductive SafeQueueEvent (α ι : Type) where
  /-- `pick` is the thread that the system wakes if it can choose. -/
  | push (value : α) (pick : ι)
  | pop (t : ι)
  | waitAndPop (t : ι)
  /-- A woken thread has the mutex again and tests the predicate. -/
  | resume (t : ι)
  /-- A parked thread wakes unnotified. -/
  | spurious (t : ι)
  | stop

namespace SafeQueue

def init : SafeQueue α ι := ⟨[], false, .empty, []⟩

/-- The predicate of the wait. -/
def ready (q : SafeQueue α ι) : Bool := !q.queue.isEmpty || q.stopped

/-- The end of a call: the front, or `false` where there is none. -/
def take (q : SafeQueue α ι) (t : ι) (waited : Bool) : SafeQueue α ι :=
  match q.queue with
  | [] => { q with returned := q.returned ++ [⟨t, waited, none⟩] }
  | value :: rest => { q with queue := rest, returned := q.returned ++ [⟨t, waited, some value⟩] }

/-- `m_cond.wait`, with the mutex held. -/
def await (q : SafeQueue α ι) (t : ι) : SafeQueue α ι :=
  if q.ready then q.take t true else { q with cond := q.cond.park t }

def push (q : SafeQueue α ι) (value : α) (pick : ι) : SafeQueue α ι :=
  { q with queue := q.queue ++ [value], cond := q.cond.notifyOne pick }

def pop (q : SafeQueue α ι) (t : ι) : SafeQueue α ι :=
  if q.cond.waits t then q else q.take t false

def waitAndPop (q : SafeQueue α ι) (t : ι) : SafeQueue α ι :=
  if q.cond.waits t then q else q.await t

def resume (q : SafeQueue α ι) (t : ι) : SafeQueue α ι :=
  if t ∈ q.cond.woken then { q with cond := q.cond.leave t }.await t else q

def stop (q : SafeQueue α ι) : SafeQueue α ι :=
  { q with stopped := true, cond := q.cond.notifyAll }

def step (q : SafeQueue α ι) : SafeQueueEvent α ι → SafeQueue α ι
  | .push value pick => q.push value pick
  | .pop t => q.pop t
  | .waitAndPop t => q.waitAndPop t
  | .resume t => q.resume t
  | .spurious t => { q with cond := q.cond.wake t }
  | .stop => q.stop

end SafeQueue

def SafeQueueEvent.pushed : SafeQueueEvent α ι → Option α
  | push value _ => some value
  | _ => none

namespace SafeQueue

/-- What the calls so far have returned. -/
def taken (q : SafeQueue α ι) : List α := q.returned.filterMap (·.value)

/-! ## In order, and once -/

section
variable {α ι : Type} {q : SafeQueue α ι} {t : ι} {waited : Bool}

theorem taken_take : (q.take t waited).taken ++ (q.take t waited).queue =
    q.taken ++ q.queue := by
  unfold take
  split <;> simp_all [taken]

theorem taken_await : (q.await t).taken ++ (q.await t).queue = q.taken ++ q.queue := by
  unfold await
  split
  · exact taken_take
  · rfl

end

variable {q : SafeQueue α ι} {t : ι}

theorem taken_pop : (q.pop t).taken ++ (q.pop t).queue = q.taken ++ q.queue := by
  unfold pop
  split
  · rfl
  · exact taken_take

theorem taken_waitAndPop :
    (q.waitAndPop t).taken ++ (q.waitAndPop t).queue = q.taken ++ q.queue := by
  unfold waitAndPop
  split
  · rfl
  · exact taken_await

theorem taken_resume : (q.resume t).taken ++ (q.resume t).queue = q.taken ++ q.queue := by
  unfold resume
  split
  · exact taken_await
  · rfl

theorem taken_step (q : SafeQueue α ι) (e : SafeQueueEvent α ι) :
    (q.step e).taken ++ (q.step e).queue = q.taken ++ q.queue ++ e.pushed.toList := by
  cases e with
  | push value pick => exact (List.append_assoc _ _ _).symm
  | pop t => exact taken_pop.trans (List.append_nil _).symm
  | waitAndPop t => exact taken_waitAndPop.trans (List.append_nil _).symm
  | resume t => exact taken_resume.trans (List.append_nil _).symm
  | spurious t => exact (List.append_nil _).symm
  | stop => exact (List.append_nil _).symm

theorem taken_run (q : SafeQueue α ι) (es : List (SafeQueueEvent α ι)) :
    (run step q es).taken ++ (run step q es).queue =
      q.taken ++ q.queue ++ es.filterMap SafeQueueEvent.pushed := by
  induction es generalizing q with
  | nil => simp [run]
  | cons e es ih =>
    rw [run_cons, ih, taken_step]
    cases h : e.pushed <;> simp [h]

/-! ## Nobody is forgotten -/

/-- Who is parked has nothing to take, but what a woken thread is to take first. -/
structure Attended (q : SafeQueue α ι) : Prop where
  distinct : q.cond.Distinct
  covers : q.cond.Covers q.queue.length
  released : q.stopped = true → q.cond.parked = []

section
variable {α ι : Type} {q : SafeQueue α ι} {t : ι}

theorem ready_eq_false : q.ready = false ↔ q.queue = [] ∧ q.stopped = false := by
  simp [ready]

theorem init_attended : Attended (init : SafeQueue α ι) :=
  ⟨List.nodup_nil, CondVar.covers_zero _, fun _ => rfl⟩

theorem take_attended (h : q.Attended) (waited : Bool) : (q.take t waited).Attended := by
  unfold take
  split
  · exact ⟨h.distinct, h.covers, h.released⟩
  · next value rest hcons =>
    refine ⟨h.distinct, h.covers.mono ?_, h.released⟩
    simp [hcons]

theorem park_attended (h : q.Attended) (ht : ¬ q.cond.waits t) (hready : q.ready = false) :
    Attended { q with cond := q.cond.park t } := by
  obtain ⟨hempty, hrunning⟩ := ready_eq_false.mp hready
  refine ⟨CondVar.distinct_park h.distinct ht, ?_, fun hstopped => ?_⟩
  · show CondVar.Covers _ q.queue.length
    rw [hempty]
    exact CondVar.covers_zero _
  · exact absurd (hrunning.symm.trans hstopped) Bool.false_ne_true

end

theorem pop_attended (h : q.Attended) : (q.pop t).Attended := by
  unfold pop
  split
  · exact h
  · exact take_attended h false

theorem waitAndPop_attended (h : q.Attended) : (q.waitAndPop t).Attended := by
  unfold waitAndPop await
  split
  · exact h
  · next ht =>
    split
    · exact take_attended h true
    · next hready => exact park_attended h ht (Bool.eq_false_iff.mpr hready)

/-- A thread that has woken takes one thing off, or parks again where there is none. -/
theorem resume_attended (h : q.Attended) : (q.resume t).Attended := by
  unfold resume
  split
  · next ht =>
    have hdistinct := CondVar.distinct_leave h.distinct (t := t)
    unfold await
    split
    · unfold take
      split
      · next hnil =>
        refine ⟨hdistinct, ?_, h.released⟩
        show CondVar.Covers _ q.queue.length
        rw [show q.queue = [] from hnil]
        exact CondVar.covers_zero _
      · next value rest hcons =>
        refine ⟨hdistinct, CondVar.covers_leave ?_ ht, h.released⟩
        have hcovers := h.covers
        rwa [show q.queue = value :: rest from hcons] at hcovers
    · next hready =>
      obtain ⟨hempty, hrunning⟩ := ready_eq_false.mp (Bool.eq_false_iff.mpr hready)
      refine ⟨CondVar.distinct_park hdistinct (CondVar.not_waits_leave h.distinct ht), ?_, ?_⟩
      · show CondVar.Covers _ q.queue.length
        rw [show q.queue = [] from hempty]
        exact CondVar.covers_zero _
      · intro hstopped
        exact absurd (hrunning.symm.trans hstopped) Bool.false_ne_true
  · exact h

theorem step_attended (h : q.Attended) (e : SafeQueueEvent α ι) : (q.step e).Attended := by
  cases e with
  | push value pick =>
    refine ⟨CondVar.distinct_notifyOne h.distinct pick, ?_, fun hstopped => ?_⟩
    · show CondVar.Covers _ (q.queue ++ [value]).length
      rw [List.length_append]
      exact CondVar.covers_notifyOne h.covers pick
    · exact CondVar.notifyOne_parked_nil (h.released hstopped) pick
  | pop t => exact pop_attended h
  | waitAndPop t => exact waitAndPop_attended h
  | resume t => exact resume_attended h
  | spurious t =>
    refine ⟨CondVar.distinct_wake h.distinct, CondVar.covers_wake h.covers, fun hstopped => ?_⟩
    exact CondVar.wake_parked_nil (h.released hstopped) t
  | stop => exact ⟨CondVar.distinct_notifyAll h.distinct, CondVar.covers_notifyAll _ _, fun _ => rfl⟩

theorem run_attended (es : List (SafeQueueEvent α ι)) : Attended (run step init es) :=
  run_invariant' (fun q e (h : Attended q) => step_attended h e) init_attended es

/-! ## What a caller sees -/

theorem resume_woken (q : SafeQueue α ι) (t : ι) :
    (q.resume t).cond.woken = q.cond.woken.erase t := by
  unfold resume
  split
  · unfold await take
    split
    · split <;> rfl
    · rfl
  · next ht => exact (List.erase_of_not_mem ht).symm

theorem resumes_woken (q : SafeQueue α ι) (ts : List ι) :
    (run step q (ts.map .resume)).cond.woken = q.cond.woken.diff ts := by
  induction ts generalizing q with
  | nil => rfl
  | cons t ts ih =>
    rw [List.map_cons, run_cons, ih, List.diff_cons]
    exact congrArg (List.diff · ts) (resume_woken q t)

section
variable {α ι : Type} {q : SafeQueue α ι} {t : ι}

theorem take_stopped (waited : Bool) : (q.take t waited).stopped = q.stopped := by
  unfold take
  split <;> rfl

theorem await_stopped : (q.await t).stopped = q.stopped := by
  unfold await
  split
  · exact take_stopped true
  · rfl

/-- What a call returns. -/
theorem take_returned (waited : Bool) :
    (q.take t waited).returned = q.returned ++ [⟨t, waited, q.queue.head?⟩] := by
  unfold take
  split <;> simp_all

/-- `wait_and_pop` returns `false` only on an empty queue that is stopped. -/
theorem await_false {u : ι}
    (h : (q.await t).returned = q.returned ++ [⟨u, true, none⟩]) :
    q.queue = [] ∧ q.stopped = true := by
  unfold await at h
  split at h
  · next hready =>
    rw [take_returned] at h
    obtain ⟨-, -, hnone⟩ := PopResult.mk.inj (List.singleton_inj.mp (List.append_cancel_left h))
    have hempty := List.head?_eq_none_iff.mp hnone
    refine ⟨hempty, ?_⟩
    simpa [ready, hempty] using hready
  · simp at h

end

theorem step_stopped {e : SafeQueueEvent α ι} (h : (q.step e).stopped = true) :
    q.stopped = true ∨ e = .stop := by
  unfold step at h
  split at h
  · exact Or.inl h
  · unfold pop at h
    split at h
    · exact Or.inl h
    · exact Or.inl ((take_stopped false).symm.trans h)
  · unfold waitAndPop at h
    split at h
    · exact Or.inl h
    · exact Or.inl (await_stopped.symm.trans h)
  · unfold resume at h
    split at h
    · have hstopped := await_stopped.symm.trans h
      exact Or.inl hstopped
    · exact Or.inl h
  · exact Or.inl h
  · exact Or.inr rfl

theorem run_stopped {es : List (SafeQueueEvent α ι)} (h : (run step q es).stopped = true) :
    q.stopped = true ∨ .stop ∈ es := by
  induction es generalizing q with
  | nil => exact Or.inl h
  | cons e es ih =>
    rcases ih h with hstep | hmem
    · rcases step_stopped hstep with hstopped | rfl
      · exact Or.inl hstopped
      · exact Or.inr List.mem_cons_self
    · exact Or.inr (List.mem_cons_of_mem _ hmem)

theorem step_false {e : SafeQueueEvent α ι} {u : ι}
    (h : (q.step e).returned = q.returned ++ [⟨u, true, none⟩]) :
    q.queue = [] ∧ q.stopped = true := by
  unfold step at h
  split at h
  · simp [push] at h
  · unfold pop at h
    split at h
    · simp at h
    · simp [take_returned] at h
  · unfold waitAndPop at h
    split at h
    · simp at h
    · exact await_false h
  · unfold resume at h
    split at h
    · have hfalse := await_false h
      exact hfalse
    · simp at h
  · simp at h
  · simp [stop] at h

/-- **First in, first out, and `false` only at the end.** What the calls have returned, over all
threads, is what was pushed first, each value once; a `wait_and_pop` that returns `false` has been
stopped, and everything pushed before it has been taken. -/
theorem popped_in_order (es : List (SafeQueueEvent α ι)) :
    (run step init es).taken ++ (run step init es).queue = es.filterMap SafeQueueEvent.pushed ∧
      ∀ past e rest t, es = past ++ e :: rest →
        (run step init (past ++ [e])).returned =
          (run step init past).returned ++ [⟨t, true, none⟩] →
        .stop ∈ past ∧ (run step init past).taken = past.filterMap SafeQueueEvent.pushed := by
  constructor
  · exact taken_run init es
  · rintro past e rest t - hreturned
    rw [run_append] at hreturned
    obtain ⟨hempty, hstopped⟩ := step_false hreturned
    have htaken : (run step init past).taken ++ (run step init past).queue =
        past.filterMap SafeQueueEvent.pushed := taken_run init past
    rw [hempty, List.append_nil] at htaken
    refine ⟨?_, htaken⟩
    rcases run_stopped hstopped with hinit | hmem
    · exact absurd hinit Bool.false_ne_true
    · exact hmem

/-- The threads that wait have nothing to take, and none waits on a queue that is stopped. -/
structure Settled (q : SafeQueue α ι) : Prop where
  nothingLeft : ∀ t, q.cond.waits t → q.queue = []
  released : q.stopped = true → ∀ t, ¬ q.cond.waits t

/-- **No wakeup is lost.** Once the woken threads have had the mutex, in any order, nobody waits
while there is something to take, and after `stop` nobody waits at all. -/
theorem no_wakeup_lost (es : List (SafeQueueEvent α ι)) (ts : List ι)
    (hts : ∀ t ∈ (run step init es).cond.woken, t ∈ ts) :
    (run step init (es ++ ts.map .resume)).Settled := by
  have hattended := run_attended (es ++ ts.map (SafeQueueEvent.resume (α := α)))
  have hwoken : (run step init (es ++ ts.map (SafeQueueEvent.resume (α := α)))).cond.woken = [] := by
    rw [run_append, resumes_woken]
    have hnodup := (List.nodup_append.mp (run_attended es).distinct).2.1
    refine List.eq_nil_iff_forall_not_mem.mpr fun t ht => ?_
    obtain ⟨hmem, hnot⟩ := hnodup.mem_sdiff_iff.mp ht
    exact hnot (hts t hmem)
  constructor
  · rintro t (hparked | hmem)
    · rcases hattended.covers with hnil | hle
      · simp [hnil] at hparked
      · simpa [hwoken] using hle
    · simp [hwoken] at hmem
  · intro hstopped t
    have hparked := hattended.released hstopped
    simp [CondVar.waits, hwoken, hparked]

/-- Two consumers wait, and one value is pushed. -/
theorem no_wakeup_lost_two :
    (run step (init : SafeQueue Nat Nat)
      ([.waitAndPop 0, .waitAndPop 1, .push 7 1] ++ [1].map .resume)).Settled :=
  no_wakeup_lost [.waitAndPop 0, .waitAndPop 1, .push 7 1] [1] (by decide)

end SafeQueue

end RemotePlay
