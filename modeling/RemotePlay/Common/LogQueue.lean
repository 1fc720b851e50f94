import RemotePlay.Common.Logger
import RemotePlay.Lib.Run

/-!
# The log queue

A call of `log` leaves its record in a queue, for the worker thread to write,
and notifies the worker when it has given `m_queueMutex` back; a record from
`LL_CRITICAL` on it writes itself. The worker holds the mutex from the test of
its predicate until it waits or has a record, so that nothing is queued in
between. `init` for another role and `shutdown` stop the worker: they reset
`m_running` and notify, without the mutex, and join it. No two of them run at the
same time: `m_initMutex` keeps calls of `init` apart, but `shutdown` does not take
it. The base file of a role is a new one.
-/

namespace RemotePlay

open Lib

inductive LogLevel where
  | trace
  | debug
  | info
  | warn
  | error
  | critical
  | fatal
  deriving DecidableEq

namespace LogLevel

def code : LogLevel → Nat
  | trace => 0
  | debug => 1
  | info => 2
  | warn => 3
  | error => 4
  | critical => 5
  | fatal => 6

/-- `levelToString`. -/
def text : LogLevel → Text
  | trace => .ofChars ['T', 'R', 'A', 'C', 'E']
  | debug => .ofChars ['D', 'E', 'B', 'U', 'G']
  | info => .ofChars ['I', 'N', 'F', 'O']
  | warn => .ofChars ['W', 'A', 'R', 'N']
  | error => .ofChars ['E', 'R', 'R', 'O', 'R']
  | critical => .ofChars ['C', 'R', 'I', 'T']
  | fatal => .ofChars ['F', 'A', 'T', 'A', 'L']

/-- `toupper`, in the C locale. -/
def toUpper (b : UInt8) : UInt8 :=
  if 'a'.toUInt8 ≤ b ∧ b ≤ 'z'.toUInt8 then b - 32 else b

def stringToLevel (str : Text) : LogLevel :=
  let str := str.map toUpper
  if str = Text.ofChars ['T', 'R', 'A', 'C', 'E'] then trace
  else if str = Text.ofChars ['D', 'E', 'B', 'U', 'G'] then debug
  else if str = Text.ofChars ['I', 'N', 'F', 'O'] then info
  else if str = Text.ofChars ['W', 'A', 'R', 'N'] ∨
      str = Text.ofChars ['W', 'A', 'R', 'N', 'I', 'N', 'G'] then warn
  else if str = Text.ofChars ['E', 'R', 'R', 'O', 'R'] then error
  else if str = Text.ofChars ['C', 'R', 'I', 'T', 'I', 'C', 'A', 'L'] then critical
  else if str = Text.ofChars ['F', 'A', 'T', 'A', 'L'] then fatal
  else info

end LogLevel

structure LogRecord where
  /-- The second of `timestamp`, as `put_time` writes it. -/
  time : Text
  milliseconds : Nat
  processId : UInt32
  threadId : UInt32
  sessionId : Text
  module : Text
  level : LogLevel
  file : Text
  line : Int
  function : Text
  message : Text

namespace LogRecord

/-- What follows the last slash. -/
def filename (file : Text) : Text :=
  (file.reverse.takeWhile fun b => b ≠ '\\'.toUInt8 && b ≠ '/'.toUInt8).reverse

/-- `setfill('0')` and `setw(3)`. -/
def padded (digits : Text) : Text := List.replicate (3 - digits.length) '0'.toUInt8 ++ digits

def shownSessionId (sessionId : Text) : Text :=
  if sessionId.isEmpty then List.replicate 8 '0'.toUInt8 else sessionId

/-- The line that `writeRecord` makes of a record. -/
def logLine (record : LogRecord) : Text :=
  .ofChars ['['] ++ record.time ++ .ofChars ['.'] ++ padded (.ofInt record.milliseconds) ++
    .ofChars [']', ' ', '[', 'P', 'I', 'D', ':'] ++ .ofInt record.processId.toNat ++
    .ofChars [']', ' ', '[', 'T', 'I', 'D', ':'] ++ .ofInt record.threadId.toNat ++
    .ofChars [']', ' ', '[', 'S', 'e', 's', 's', 'i', 'o', 'n', ':'] ++
    shownSessionId record.sessionId ++
    .ofChars [']', ' ', '['] ++ record.module ++ .ofChars [']', ' ', '['] ++ record.level.text ++
    .ofChars [']', ' '] ++ filename record.file ++ .ofChars [':'] ++ .ofInt record.line ++
    .ofChars [' '] ++ record.function ++ .ofChars ['(', ')', ' '] ++ record.message ++
    .ofChars ['\n']

def streamTrace : Text := .ofChars ['S', 't', 'r', 'e', 'a', 'm', 'T', 'r', 'a', 'c', 'e']

def clientTrace : Text := .ofChars ['C', 'l', 'i', 'e', 'n', 't', 'T', 'r', 'a', 'c', 'e']

/-- The record is not filtered. -/
def passes (runtimeLogLevel : LogLevel) (record : LogRecord) : Bool :=
  runtimeLogLevel.code ≤ record.level.code &&
    !((record.module = streamTrace || record.module = clientTrace) &&
      record.level.code < LogLevel.warn.code)

/-- Written by the thread that logs it. -/
def isSynchronous (record : LogRecord) : Bool := LogLevel.critical.code ≤ record.level.code

end LogRecord

/-- Where the worker is. -/
inductive LogWorker where
  /-- Before the test of `m_running`. -/
  | top
  /-- Before the mutex, on the way to the wait or woken in it. -/
  | locking
  /-- The predicate was false: it holds the mutex, and is about to block. -/
  | checked
  | parked
  | holding (record : LogRecord)
  | draining
  | drained (record : LogRecord)
  /-- There is no thread. -/
  | done

/-- Where the thread is that stops the worker, of which there is one at a time; `next` is the role of
an `init`. -/
inductive LogControl where
  | free
  /-- `m_running` is reset, and `notify_all` not called yet. -/
  | stopping (next : Option Text)
  | joining (next : Option Text)

structure LogQueue where
  /-- `m_role`, once there has been an `init`. -/
  role : Option Text
  running : Bool
  queue : List LogRecord
  /-- The calls of `log` that have given the mutex back and are to call `notify_one`. -/
  notifying : Nat
  worker : LogWorker
  control : LogControl
  runtimeLogLevel : LogLevel
  logger : Logger
  /-- The records queued so far. -/
  accepted : List LogRecord
  /-- The records written so far, by any thread. -/
  written : List LogRecord

inductive LogQueueEvent where
  /-- A call of `log`, up to where it gives the mutex back. -/
  | log (record : LogRecord)
  | notifyOne
  /-- The worker's next step. -/
  | work
  /-- The worker wakes unnotified. -/
  | spurious
  | init (role : Text)
  | shutdown
  | notifyAll
  /-- The join returns; `snapshot` is what a new file starts with. -/
  | joined (snapshot : Text)
  | loadConfig (logLevel : Text) (maxLogFileSizeMb maxLogFiles : Int)

namespace LogQueue

def capacity : Nat := 10000

/-- Before the first `init`. -/
def start (logger : Logger) : LogQueue :=
  ⟨none, false, [], 0, .done, .free, .trace, logger, [], []⟩

def write (s : LogQueue) (record : LogRecord) : LogQueue :=
  { s with logger := s.logger.writeRecord record.logLine, written := s.written ++ [record] }

/-- The critical section of `log`. A full queue takes no more. -/
def enqueue (s : LogQueue) (record : LogRecord) : LogQueue :=
  if s.queue.length < capacity then
    { s with
      queue := s.queue ++ [record]
      accepted := s.accepted ++ [record]
      notifying := s.notifying + 1 }
  else { s with notifying := s.notifying + 1 }

def log (s : LogQueue) (record : LogRecord) : LogQueue :=
  if record.passes s.runtimeLogLevel then
    if record.isSynchronous then s.write record
    else match s.worker with
      -- The worker has the mutex, and the call is still to come.
      | .checked => s
      | _ => s.enqueue record
  else s

/-- The worker is notified, or wakes of itself. -/
def wake (s : LogQueue) : LogQueue :=
  match s.worker with
  | .parked => { s with worker := .locking }
  | _ => s

def notifyOne (s : LogQueue) : LogQueue :=
  if s.notifying = 0 then s else { s.wake with notifying := s.notifying - 1 }

/-- The first record off the queue, and `holding` it; else `empty`. -/
def pop (s : LogQueue) (holding : LogRecord → LogWorker) (empty : LogWorker) : LogQueue :=
  match s.queue with
  | [] => { s with worker := empty }
  | record :: rest => { s with queue := rest, worker := holding record }

/-- `workerLoop`. -/
def work (s : LogQueue) : LogQueue :=
  match s.worker with
  | .top => { s with worker := if s.running then .locking else .draining }
  | .locking =>
    if s.queue.isEmpty && s.running then { s with worker := .checked } else s.pop .holding .top
  | .checked => { s with worker := .parked }
  | .parked => s
  | .holding record => { s.write record with worker := .top }
  | .draining => s.pop .drained .done
  | .drained record => { s.write record with worker := .draining }
  | .done => s

/-- `init` and `shutdown`, up to `notify_all`. -/
def stop (s : LogQueue) (next : Option Text) : LogQueue :=
  if s.running then { s with running := false, control := .stopping next }
  else { s with control := .joining next }

def init (s : LogQueue) (role : Text) : LogQueue :=
  match s.control with
  | .free => if s.role = some role then s else s.stop (some role)
  | _ => s

def shutdown (s : LogQueue) : LogQueue :=
  match s.control with
  | .free => s.stop none
  | _ => s

def notifyAll (s : LogQueue) : LogQueue :=
  match s.control with
  | .stopping next => { s.wake with control := .joining next }
  | _ => s

/-- The rest of `init`, or of `shutdown`. -/
def finish (s : LogQueue) (snapshot : Text) : Option Text → LogQueue
  | some role =>
    { s with
      role := some role
      running := true
      worker := .top
      control := .free
      logger := .start s.logger.maxFileSize s.logger.maxFiles snapshot }
  | none => { s with control := .free, logger := { s.logger with isOpen := false } }

def joined (s : LogQueue) (snapshot : Text) : LogQueue :=
  match s.control, s.worker with
  | .joining next, .done => s.finish snapshot next
  | _, _ => s

def loadConfig (s : LogQueue) (logLevel : Text) (maxLogFileSizeMb maxLogFiles : Int) : LogQueue :=
  { s with
    runtimeLogLevel := .stringToLevel logLevel
    logger := s.logger.loadConfig maxLogFileSizeMb maxLogFiles }

def step (s : LogQueue) : LogQueueEvent → LogQueue
  | .log record => s.log record
  | .notifyOne => s.notifyOne
  | .work => s.work
  | .spurious => s.wake
  | .init role => s.init role
  | .shutdown => s.shutdown
  | .notifyAll => s.notifyAll
  | .joined snapshot => s.joined snapshot
  | .loadConfig logLevel maxLogFileSizeMb maxLogFiles =>
    s.loadConfig logLevel maxLogFileSizeMb maxLogFiles

/-! ## In order, and none lost -/

/-- The record that the worker has taken off and not written. -/
def inHand (s : LogQueue) : Option LogRecord :=
  match s.worker with
  | .holding record => some record
  | .drained record => some record
  | _ => none

/-- What the worker has written. -/
def byWorker (s : LogQueue) : List LogRecord := s.written.filter (!·.isSynchronous)

/-- Every record that was queued is written, in hand or queued still, in this order, and there is
no other. -/
structure InOrder (s : LogQueue) : Prop where
  order : s.byWorker ++ s.inHand.toList ++ s.queue = s.accepted
  queued : ∀ record ∈ s.accepted, record.isSynchronous = false
  bounded : s.queue.length ≤ capacity

variable {s : LogQueue}

theorem start_inOrder (logger : Logger) : (start logger).InOrder :=
  ⟨rfl, by simp [start], Nat.zero_le _⟩

/-- Where the worker may go without a record. -/
theorem move_inOrder (h : s.InOrder) (hhand : s.inHand = none) (worker : LogWorker)
    (hw : ({ s with worker := worker } : LogQueue).inHand = none) :
    InOrder { s with worker := worker } := by
  refine ⟨?_, h.queued, h.bounded⟩
  have horder := h.order
  rw [hhand] at horder
  rw [hw]
  exact horder

theorem wake_inOrder (h : s.InOrder) : s.wake.InOrder := by
  unfold wake
  split
  · next hworker =>
    exact move_inOrder h (by simp [inHand, hworker]) _ (by simp [inHand])
  · exact h

theorem log_inOrder (h : s.InOrder) (record : LogRecord) : (s.log record).InOrder := by
  unfold log
  split
  · split
    · next hsync =>
      refine ⟨?_, h.queued, h.bounded⟩
      have hsame : (s.write record).byWorker = s.byWorker := by
        simp [byWorker, write, hsync]
      exact (congrArg (· ++ s.inHand.toList ++ s.queue) hsame).trans h.order
    · next hsync =>
      split
      · exact h
      · unfold enqueue
        split
        · next hroom =>
          refine ⟨?_, ?_, ?_⟩
          · show s.byWorker ++ s.inHand.toList ++ (s.queue ++ [record]) = s.accepted ++ [record]
            rw [← List.append_assoc, h.order]
          · intro record' hmem
            rcases List.mem_append.mp hmem with hold | hnew
            · exact h.queued record' hold
            · rw [List.mem_singleton.mp hnew]
              exact Bool.eq_false_iff.mpr hsync
          · show (s.queue ++ [record]).length ≤ capacity
            rw [List.length_append]
            exact hroom
        · exact ⟨h.order, h.queued, h.bounded⟩
  · exact h

/-- The worker takes the first record off. -/
theorem pop_inOrder (h : s.InOrder) (hhand : s.inHand = none) {holding : LogRecord → LogWorker}
    {empty : LogWorker}
    (hholding : ∀ (t : LogQueue) record, t.worker = holding record → t.inHand = some record)
    (hempty : ∀ t : LogQueue, t.worker = empty → t.inHand = none) : (s.pop holding empty).InOrder := by
  unfold pop
  split
  · exact move_inOrder h hhand _ (hempty _ rfl)
  · next record rest hcons =>
    have horder := h.order
    rw [hhand, hcons] at horder
    refine ⟨?_, h.queued, ?_⟩
    · rw [hholding _ record rfl, ← horder]
      simp [byWorker]
    · have hbounded := h.bounded
      rw [hcons, List.length_cons] at hbounded
      show rest.length ≤ capacity
      omega

theorem write_inOrder (h : s.InOrder) {record : LogRecord} (hhand : s.inHand = some record)
    {worker : LogWorker} (hw : ∀ t : LogQueue, t.worker = worker → t.inHand = none) :
    InOrder { s.write record with worker := worker } := by
  have horder := h.order
  rw [hhand] at horder
  have hqueued : record.isSynchronous = false := by
    apply h.queued
    rw [← horder]
    simp
  refine ⟨?_, h.queued, h.bounded⟩
  rw [hw _ rfl]
  refine Eq.trans ?_ horder
  simp [byWorker, write, hqueued]

theorem work_inOrder (h : s.InOrder) : s.work.InOrder := by
  unfold work
  split
  · next hworker =>
    refine move_inOrder h (by simp [inHand, hworker]) _ ?_
    split <;> rfl
  · next hworker =>
    have hhand : s.inHand = none := by simp [inHand, hworker]
    split
    · exact move_inOrder h hhand _ rfl
    · exact pop_inOrder h hhand (by simp +contextual [inHand]) (by simp +contextual [inHand])
  · next hworker => exact move_inOrder h (by simp [inHand, hworker]) _ rfl
  · exact h
  · next record hworker =>
    exact write_inOrder h (by simp [inHand, hworker]) (by simp +contextual [inHand])
  · next hworker =>
    exact pop_inOrder h (by simp [inHand, hworker]) (by simp +contextual [inHand])
      (by simp +contextual [inHand])
  · next record hworker =>
    exact write_inOrder h (by simp [inHand, hworker]) (by simp +contextual [inHand])
  · exact h

theorem joined_inOrder (h : s.InOrder) (snapshot : Text) : (s.joined snapshot).InOrder := by
  unfold joined
  split
  · next next' hcontrol hworker =>
    have hhand : s.inHand = none := by simp [inHand, hworker]
    cases next' with
    | none => exact ⟨h.order, h.queued, h.bounded⟩
    | some role =>
      obtain ⟨horder, hqueued, hbounded⟩ := move_inOrder h hhand .top rfl
      exact ⟨horder, hqueued, hbounded⟩
  · exact h

theorem stop_inOrder (h : s.InOrder) (next : Option Text) : (s.stop next).InOrder := by
  unfold stop
  split <;> exact ⟨h.order, h.queued, h.bounded⟩

theorem notifyOne_inOrder (h : s.InOrder) : s.notifyOne.InOrder := by
  unfold notifyOne
  split
  · exact h
  · obtain ⟨horder, hqueued, hbounded⟩ := wake_inOrder h
    exact ⟨horder, hqueued, hbounded⟩

theorem init_inOrder (h : s.InOrder) (role : Text) : (s.init role).InOrder := by
  unfold init
  split
  · split
    · exact h
    · exact stop_inOrder h _
  · exact h

theorem shutdown_inOrder (h : s.InOrder) : s.shutdown.InOrder := by
  unfold shutdown
  split
  · exact stop_inOrder h _
  · exact h

theorem notifyAll_inOrder (h : s.InOrder) : s.notifyAll.InOrder := by
  unfold notifyAll
  split
  · obtain ⟨horder, hqueued, hbounded⟩ := wake_inOrder h
    exact ⟨horder, hqueued, hbounded⟩
  · exact h

theorem step_inOrder (h : s.InOrder) (e : LogQueueEvent) : (s.step e).InOrder := by
  cases e with
  | log record => exact log_inOrder h record
  | notifyOne => exact notifyOne_inOrder h
  | work => exact work_inOrder h
  | spurious => exact wake_inOrder h
  | init role => exact init_inOrder h role
  | shutdown => exact shutdown_inOrder h
  | notifyAll => exact notifyAll_inOrder h
  | joined snapshot => exact joined_inOrder h snapshot
  | loadConfig logLevel mb maxFiles => exact ⟨h.order, h.queued, h.bounded⟩

theorem run_inOrder (logger : Logger) (es : List LogQueueEvent) :
    (run step (start logger) es).InOrder :=
  run_invariant' (fun s e (h : InOrder s) => step_inOrder h e) (start_inOrder logger) es

/-- The worker ends with everything written that has been queued. -/
theorem work_done (h : s.InOrder) (hbefore : s.worker ≠ .done) (hdone : s.work.worker = .done) :
    s.work.byWorker = s.accepted := by
  have horder := (work_inOrder h).order
  unfold work at hdone horder ⊢
  split at hdone
  · split at hdone <;> cases hdone
  · split at hdone
    · cases hdone
    · unfold pop at hdone
      split at hdone <;> cases hdone
  · cases hdone
  · next hworker => exact absurd (hworker.symm.trans hdone) LogWorker.noConfusion
  · cases hdone
  · next hworker =>
    unfold pop at hdone horder ⊢
    split at hdone
    · next hnil =>
      simp only [hworker, hnil] at horder ⊢
      simpa [inHand] using horder
    · cases hdone
  · cases hdone
  · exact absurd hdone hbefore

/-- **No record overtakes another, and none is lost in the queue.** In every run the records queued
are those the worker has written, then the one it has in hand, then those still queued; and when
the worker ends, it has written every record queued so far. -/
theorem logged_in_order (logger : Logger) (es : List LogQueueEvent) :
    (run step (start logger) es).InOrder ∧
      ∀ past rest, es = past ++ .work :: rest →
        (run step (start logger) past).worker ≠ .done →
        (run step (start logger) (past ++ [.work])).worker = .done →
        (run step (start logger) (past ++ [.work])).byWorker =
          (run step (start logger) past).accepted := by
  refine ⟨run_inOrder logger es, ?_⟩
  rintro past rest - hbefore hdone
  rw [run_append] at hdone ⊢
  exact work_done (run_inOrder logger past) hbefore hdone

/-! ## Stopping the worker -/

/-- The worker can no longer come to wait: it has been told to stop, and notified. -/
structure Stops (s : LogQueue) : Prop where
  quiet : s.running = false
  awake : s.worker ≠ .checked ∧ s.worker ≠ .parked

/-- How far the worker is from its end. -/
def distance (s : LogQueue) : Nat :=
  match s.worker with
  | .top => 2 * s.queue.length + 2
  | .locking => 2 * s.queue.length + 3
  | .checked => 0
  | .parked => 0
  | .holding _ => 2 * s.queue.length + 3
  | .draining => 2 * s.queue.length + 1
  | .drained _ => 2 * s.queue.length + 2
  | .done => 0

/-- A step of a worker that stops is a step towards its end. -/
theorem work_stops (h : s.Stops) (hnot : s.worker ≠ .done) :
    s.work.Stops ∧ s.work.distance < s.distance := by
  obtain ⟨hquiet, hchecked, hparked⟩ := h
  unfold work
  split
  · next hworker =>
    refine ⟨⟨hquiet, ?_⟩, ?_⟩ <;> simp [distance, hworker, hquiet]
  · next hworker =>
    rw [hquiet, Bool.and_false]
    simp only [Bool.false_eq_true, if_false]
    unfold pop
    split
    · next hnil => refine ⟨⟨hquiet, ?_⟩, ?_⟩ <;> simp [distance, hworker, hnil]
    · next record rest hcons =>
      refine ⟨⟨hquiet, ?_⟩, ?_⟩ <;> simp [distance, hworker, hcons]
  · next hworker => exact absurd hworker hchecked
  · next hworker => exact absurd hworker hparked
  · next record hworker =>
    refine ⟨⟨hquiet, ?_⟩, ?_⟩ <;> simp [distance, hworker, write]
  · next hworker =>
    unfold pop
    split
    · next hnil => refine ⟨⟨hquiet, ?_⟩, ?_⟩ <;> simp [distance, hworker, hnil]
    · next record rest hcons =>
      refine ⟨⟨hquiet, ?_⟩, ?_⟩ <;> simp [distance, hworker, hcons]
      omega
  · next record hworker =>
    refine ⟨⟨hquiet, ?_⟩, ?_⟩ <;> simp [distance, hworker, write]
  · next hworker => exact absurd hworker hnot

/-- The worker comes to its end by its own steps. -/
def Ends (s : LogQueue) : Prop := ∃ n, (run step s (List.replicate n .work)).worker = .done

theorem ends_of_stops (h : s.Stops) : s.Ends := by
  induction hn : s.distance using Nat.strong_induction_on generalizing s with
  | _ k ih =>
    by_cases hdone : s.worker = .done
    · exact ⟨0, hdone⟩
    · obtain ⟨hstops, hless⟩ := work_stops h hdone
      obtain ⟨n, hend⟩ := ih _ (hn ▸ hless) hstops rfl
      exact ⟨n + 1, hend⟩

/-- A worker that blocks after the last notification. -/
theorem not_ends_of_blocked (h : s.worker = .checked ∨ s.worker = .parked) : ¬ s.Ends := by
  rintro ⟨n, hend⟩
  induction n generalizing s with
  | zero =>
    rcases h with h | h <;> exact absurd (h.symm.trans hend) LogWorker.noConfusion
  | succ n ih =>
    refine ih (s := s.work) ?_ hend
    rcases h with h | h <;> simp [work, h]

theorem ends_iff (hquiet : s.running = false) :
    s.Ends ↔ s.worker ≠ .checked ∧ s.worker ≠ .parked := by
  constructor
  · intro hends
    exact ⟨fun h => not_ends_of_blocked (Or.inl h) hends,
      fun h => not_ends_of_blocked (Or.inr h) hends⟩
  · exact fun h => ends_of_stops ⟨hquiet, h⟩

/-- The thread that stops the worker has notified it, and waits for its end. -/
def joins (s : LogQueue) : Bool :=
  match s.control with
  | .joining _ => true
  | _ => false

/-- It has reset `m_running`, and not notified it yet. -/
def stops (s : LogQueue) : Bool :=
  match s.control with
  | .stopping _ => true
  | _ => false

/-- The worker runs unless it is being stopped, or there is none. -/
structure Staged (s : LogQueue) : Prop where
  free : s.stops = false → s.joins = false → s.running = false → s.worker = .done
  quiet : s.stops = true ∨ s.joins = true → s.running = false

/-- A notification for the end does not come between the worker's test and its wait. -/
def Heard (s : LogQueue) : LogQueueEvent → Prop
  | .notifyAll => s.stops = true → s.worker ≠ .checked
  | _ => True

/-- Who joins the worker does not wait for ever. -/
def Joinable (s : LogQueue) : Prop := s.joins = true → s.worker ≠ .checked ∧ s.worker ≠ .parked

@[simp] theorem wake_running (s : LogQueue) : s.wake.running = s.running := by
  unfold wake
  split <;> rfl

@[simp] theorem wake_control (s : LogQueue) : s.wake.control = s.control := by
  unfold wake
  split <;> rfl

theorem wake_worker_done (h : s.worker = .done) : s.wake.worker = .done := by
  simp [wake, h]

theorem wake_awake : s.wake.worker ≠ .parked ∧ (s.wake.worker = .checked ↔ s.worker = .checked) := by
  unfold wake
  split
  · next hworker => simp [hworker]
  · next hworker => exact ⟨hworker, Iff.rfl⟩

@[simp] theorem log_running (s : LogQueue) (record : LogRecord) :
    (s.log record).running = s.running ∧ (s.log record).control = s.control ∧
      (s.log record).worker = s.worker := by
  unfold log
  split
  · split
    · exact ⟨rfl, rfl, rfl⟩
    · split
      · exact ⟨rfl, rfl, rfl⟩
      · unfold enqueue
        split <;> exact ⟨rfl, rfl, rfl⟩
  · exact ⟨rfl, rfl, rfl⟩

/-- What the worker does changes neither `m_running` nor who stops it. -/
@[simp] theorem work_control (s : LogQueue) :
    s.work.running = s.running ∧ s.work.control = s.control := by
  unfold work pop
  split
  · exact ⟨rfl, rfl⟩
  · split
    · exact ⟨rfl, rfl⟩
    · split <;> exact ⟨rfl, rfl⟩
  · exact ⟨rfl, rfl⟩
  · exact ⟨rfl, rfl⟩
  · exact ⟨rfl, rfl⟩
  · split <;> exact ⟨rfl, rfl⟩
  · exact ⟨rfl, rfl⟩
  · exact ⟨rfl, rfl⟩

/-- A step of a thread that neither starts the worker nor stops it. -/
theorem staged_keep {t : LogQueue} (h : s.Staged) (hrunning : t.running = s.running)
    (hcontrol : t.control = s.control) (hdone : s.worker = .done → t.worker = .done) :
    t.Staged := by
  have hstops : t.stops = s.stops := by simp [stops, hcontrol]
  have hjoins : t.joins = s.joins := by simp [joins, hcontrol]
  constructor
  · rw [hstops, hjoins, hrunning]
    exact fun h1 h2 h3 => hdone (h.free h1 h2 h3)
  · rw [hstops, hjoins, hrunning]
    exact h.quiet

theorem stop_staged (h : s.Staged) (hfree : s.control = .free) (next : Option Text) :
    (s.stop next).Staged ∧ (s.stop next).Joinable := by
  unfold stop
  split
  · exact ⟨⟨by simp [stops], by simp⟩, by simp [Joinable, joins]⟩
  · next hrunning =>
    have hquiet : s.running = false := Bool.eq_false_iff.mpr hrunning
    have hdone := h.free (by simp [stops, hfree]) (by simp [joins, hfree]) hquiet
    exact ⟨⟨by simp [joins], fun _ => hquiet⟩, by simp [Joinable, hdone]⟩

theorem step_staged (h : s.Staged) (e : LogQueueEvent) : (s.step e).Staged := by
  cases e with
  | log record =>
    obtain ⟨hrunning, hcontrol, hworker⟩ := log_running s record
    exact staged_keep h hrunning hcontrol fun hdone => hworker.trans hdone
  | notifyOne =>
    show s.notifyOne.Staged
    unfold notifyOne
    split
    · exact h
    · exact staged_keep h (wake_running s) (wake_control s) wake_worker_done
  | work =>
    exact staged_keep h (work_control s).1 (work_control s).2 fun hdone => by
      simp [step, work, hdone]
  | spurious => exact staged_keep h (wake_running s) (wake_control s) wake_worker_done
  | init role =>
    show (s.init role).Staged
    unfold init
    split
    · next hfree =>
      split
      · exact h
      · exact (stop_staged h hfree _).1
    · exact h
  | shutdown =>
    show s.shutdown.Staged
    unfold shutdown
    split
    · next hfree => exact (stop_staged h hfree _).1
    · exact h
  | notifyAll =>
    show s.notifyAll.Staged
    unfold notifyAll
    split
    · next next hcontrol =>
      refine ⟨by simp [joins], fun _ => ?_⟩
      exact (wake_running s).trans (h.quiet (Or.inl (by simp [stops, hcontrol])))
    · exact h
  | joined snapshot =>
    show (s.joined snapshot).Staged
    unfold joined
    split
    · next next hcontrol hworker =>
      cases next with
      | none => exact ⟨fun _ _ _ => hworker, by simp [finish, stops, joins]⟩
      | some role => exact ⟨by simp [finish], by simp [finish, stops, joins]⟩
    · exact h
  | loadConfig logLevel mb maxFiles => exact staged_keep h rfl rfl id

theorem joinable_keep {t : LogQueue} (h : s.Joinable) (hcontrol : t.control = s.control)
    (hworker : s.worker ≠ .checked ∧ s.worker ≠ .parked →
      t.worker ≠ .checked ∧ t.worker ≠ .parked) : t.Joinable := by
  intro hjoins
  have hsame : t.joins = s.joins := by simp [joins, hcontrol]
  exact hworker (h (hsame ▸ hjoins))

theorem wake_keeps_awake (h : s.worker ≠ .checked ∧ s.worker ≠ .parked) :
    s.wake.worker ≠ .checked ∧ s.wake.worker ≠ .parked :=
  ⟨fun hchecked => h.1 (wake_awake.2.mp hchecked), wake_awake.1⟩

/-- A join that will return still will after a step, unless this is the notification and the worker
does not hear it. -/
theorem step_joinable (h : s.Staged) (hjoin : s.Joinable) (e : LogQueueEvent) :
    (s.step e).Joinable ↔ s.Heard e := by
  cases e with
  | log record =>
    obtain ⟨-, hcontrol, hworker⟩ := log_running s record
    refine iff_of_true (joinable_keep hjoin hcontrol fun hawake => ?_) trivial
    rw [show (s.step (.log record)).worker = s.worker from hworker]
    exact hawake
  | notifyOne =>
    refine iff_of_true ?_ trivial
    show s.notifyOne.Joinable
    unfold notifyOne
    split
    · exact hjoin
    · exact joinable_keep hjoin (wake_control s) wake_keeps_awake
  | work =>
    refine iff_of_true (fun hjoins => ?_) trivial
    have hsame : s.work.joins = s.joins := by simp [joins]
    have hjoins : s.joins = true := hsame ▸ hjoins
    have hstops : s.Stops := ⟨h.quiet (Or.inr hjoins), hjoin hjoins⟩
    by_cases hdone : s.worker = .done
    · simp [step, work, hdone]
    · exact (work_stops hstops hdone).1.awake
  | spurious =>
    exact iff_of_true (joinable_keep hjoin (wake_control s) wake_keeps_awake) trivial
  | init role =>
    refine iff_of_true ?_ trivial
    show (s.init role).Joinable
    unfold init
    split
    · next hfree =>
      split
      · exact hjoin
      · exact (stop_staged h hfree _).2
    · exact hjoin
  | shutdown =>
    refine iff_of_true ?_ trivial
    show s.shutdown.Joinable
    unfold shutdown
    split
    · next hfree => exact (stop_staged h hfree _).2
    · exact hjoin
  | notifyAll =>
    show s.notifyAll.Joinable ↔ (s.stops = true → s.worker ≠ .checked)
    unfold notifyAll
    split
    · next next hcontrol =>
      have hstops : s.stops = true := by simp [stops, hcontrol]
      simp [Joinable, joins, hstops, wake_awake]
    · next hother =>
      refine iff_of_true hjoin fun hstops => ?_
      unfold stops at hstops
      split at hstops
      · next next hcontrol => exact absurd hcontrol (hother next)
      · cases hstops
  | joined snapshot =>
    refine iff_of_true ?_ trivial
    show (s.joined snapshot).Joinable
    unfold joined
    split
    · next next _ _ => cases next <;> simp [Joinable, finish, joins]
    · exact hjoin
  | loadConfig logLevel mb maxFiles => exact iff_of_true hjoin trivial

theorem start_staged (logger : Logger) : (start logger).Staged :=
  ⟨fun _ _ _ => rfl, by simp [start, stops, joins]⟩

/-- **When a join of the worker returns.** In every run, whoever has notified the worker to stop it
sees it end by its own steps, in every state, iff no such notification came between the worker's
test of its predicate and its wait. -/
theorem worker_joined_iff (logger : Logger) (es : List LogQueueEvent) :
    (∀ es', es' <+: es → (run step (start logger) es').joins = true →
      (run step (start logger) es').Ends) ↔ Along step Heard (start logger) es := by
  have hstaged : ∀ es', (run step (start logger) es').Staged := fun es' =>
    run_invariant' (fun s e (h : Staged s) => step_staged h e) (start_staged logger) es'
  have hjoinable : ∀ es', (run step (start logger) es').Joinable ↔
      ((run step (start logger) es').joins = true → (run step (start logger) es').Ends) := by
    intro es'
    refine forall_congr' fun hjoins => ?_
    exact (ends_iff ((hstaged es').quiet (Or.inr hjoins))).symm
  have hstep : ∀ s e, Staged s → Staged (s.step e) := fun _ e h => step_staged h e
  have hexact : ∀ s e, Staged s → Joinable s → (Joinable (s.step e) ↔ Heard s e) :=
    fun _ e h hjoin => step_joinable h hjoin e
  have hstart : Joinable (start logger) := by simp [Joinable, start, joins]
  rw [← forall_prefix_iff_along hstep hexact (start_staged logger) hstart es]
  exact forall_congr' fun es' => imp_congr_right fun _ => (hjoinable es').symm

/-- A shutdown just after the worker has found the queue empty. -/
example (logger : Logger) : ¬ Along step Heard (start logger)
    [.init [], .joined [], .work, .work, .shutdown, .notifyAll] :=
  fun h => h.2.2.2.2.2.1 rfl rfl

end LogQueue

end RemotePlay
