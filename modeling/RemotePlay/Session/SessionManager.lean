import RemotePlay.Lib.Run

/-!
# The session manager's threads

`startSession` and `stopSession` as their caller runs them, statement by
statement, between steps of the threads they start: `runHost`, `runClient` and
the init threads of a host. A thread object is joinable while it is `some` id.
`stopSession` is also run by a thread that reports an error, when the error
callback of the dashboard is installed. Assigning to a joinable thread object
terminates the process.
-/

namespace RemotePlay.Session

/-- `runBoth` and `isHost` of the configuration. -/
inductive Mode where
  | host
  | client
  | both
  deriving DecidableEq

def Mode.runsHost : Mode → Bool
  | client => false
  | _ => true

def Mode.runsClient : Mode → Bool
  | host => false
  | _ => true

inductive ThreadKind where
  | runHost
  | runClient
  /-- Initialises the encoder of one client of the host thread `host`. -/
  | init (host : Nat)
  deriving DecidableEq

/-- The statements of `SessionManager::stopSession`. -/
inductive StopPc where
  | clear
  | testHost
  | joinHost (x : Nat)
  | testClient
  | joinClient (x : Nat)
  | done
  deriving DecidableEq

inductive ThreadPc where
  /-- `runHost` up to the check of `m_running` that follows the capture initialisation; the whole
  body of another thread. -/
  | opening
  /-- `runHost` behind that check. -/
  | serving
  /-- In the error callback. -/
  | reporting (pc : StopPc)
  /-- Back from `reportError`. -/
  | failed
  /-- On the way out, with no join of an init thread or of a session thread ahead. -/
  | leaving
  /-- `runHost` at its loop over the init threads. -/
  | joinInits
  | joining (x : Nat)
  | ended
  deriving DecidableEq

def ThreadPc.InCallback : ThreadPc → Prop
  | reporting _ => True
  | _ => False

structure SessionThread where
  kind : ThreadKind
  pc : ThreadPc

inductive CallerPc where
  | idle
  /-- `startSession` before `if (m_running)`. -/
  | test (mode : Mode)
  /-- In `stopSession`; `startSession` goes on with `next`. -/
  | stop (pc : StopPc) (next : Option Mode)
  | crypto (mode : Mode)
  | setRunning (mode : Mode)
  | newHost (mode : Mode)
  /-- Thread `x` runs and is about to be stored in `m_hostThread`. -/
  | storeHost (mode : Mode) (x : Nat)
  | newClient
  | storeClient (x : Nat)
  deriving DecidableEq

structure SessionManager where
  running : Bool
  hostThread : Option Nat
  clientThread : Option Nat
  /-- Thread `t` exists when `t < count`. -/
  threads : Nat → SessionThread
  count : Nat
  caller : CallerPc
  errorCallback : Bool
  terminated : Bool

inductive SessionEvent where
  | startSession (mode : Mode)
  | stopSession
  /-- The caller's next statement. -/
  | caller (cryptoOk : Bool)
  /-- Thread `t` reports an error. -/
  | fails (t : Nat)
  /-- The next statement of thread `t` outside its body. -/
  | next (t : Nat)
  /-- Host `t` checks `m_running` once the capture is initialised or has failed. -/
  | check (t : Nat)
  /-- Host `t` starts an init thread. -/
  | initThread (t : Nat)
  /-- The body of `t` is over. -/
  | finishes (t : Nat)
  /-- Host `t` comes to its init thread `x`. -/
  | joins (t x : Nat)

namespace SessionManager

def init (errorCallback : Bool) : SessionManager where
  running := false
  hostThread := none
  clientThread := none
  threads := fun _ => ⟨.runHost, .ended⟩
  count := 0
  caller := .idle
  errorCallback := errorCallback
  terminated := false

def setPc (s : SessionManager) (t : Nat) (pc : ThreadPc) : SessionManager :=
  { s with threads := fun u => if u = t then { s.threads u with pc := pc } else s.threads u }

/-- A new thread, which runs at once. -/
def spawn (s : SessionManager) (kind : ThreadKind) : SessionManager :=
  { s with
    threads := fun u => if u = s.count then ⟨kind, .opening⟩ else s.threads u
    count := s.count + 1 }

def Ended (s : SessionManager) (t : Nat) : Prop := (s.threads t).pc = .ended

instance (s : SessionManager) (t : Nat) : Decidable (s.Ended t) :=
  inferInstanceAs (Decidable (_ = _))

/-! ## stopSession -/

/-- One statement of `stopSession`. A join returns once its thread has ended. -/
def stopStep (s : SessionManager) : StopPc → SessionManager × StopPc
  | .clear => ({ s with running := false }, .testHost)
  | .testHost =>
    match s.hostThread with
    | some x => (s, .joinHost x)
    | none => (s, .testClient)
  | .joinHost x => if s.Ended x then ({ s with hostThread := none }, .testClient) else (s, .joinHost x)
  | .testClient =>
    match s.clientThread with
    | some x => (s, .joinClient x)
    | none => (s, .done)
  | .joinClient x => if s.Ended x then ({ s with clientThread := none }, .done) else (s, .joinClient x)
  | .done => (s, .done)

/-! ## The caller -/

/-- `startSession` behind its call of `stopSession`. -/
def afterStop : Option Mode → CallerPc
  | none => .idle
  | some mode => .crypto mode

def callerStep (s : SessionManager) (cryptoOk : Bool) : SessionManager :=
  match s.caller with
  | .idle => s
  | .test mode =>
    { s with caller := if s.running then .stop .clear (some mode) else .crypto mode }
  | .stop pc next =>
    { (s.stopStep pc).1 with
      caller := if (s.stopStep pc).2 = .done then afterStop next else .stop (s.stopStep pc).2 next }
  | .crypto mode =>
    { s with
      caller := if cryptoOk then .setRunning mode
        else if s.errorCallback then .stop .clear none else .idle }
  | .setRunning mode =>
    { s with running := true, caller := if mode.runsHost then .newHost mode else .newClient }
  | .newHost mode => { s.spawn .runHost with caller := .storeHost mode s.count }
  | .storeHost mode x =>
    if s.hostThread.isSome then { s with terminated := true }
    else { s with hostThread := some x, caller := if mode.runsClient then .newClient else .idle }
  | .newClient => { s.spawn .runClient with caller := .storeClient s.count }
  | .storeClient x =>
    if s.clientThread.isSome then { s with terminated := true }
    else { s with clientThread := some x, caller := .idle }

/-! ## The threads -/

/-- Encoder initialisation, capture initialisation, `Bind`, renderer, decoder, handshake or an
exception in the client loop: the report comes out of the body. -/
def fail (s : SessionManager) (t : Nat) : SessionManager :=
  if (s.threads t).pc = .opening then
    s.setPc t (if s.errorCallback then .reporting .clear else .failed)
  else s

def threadStep (s : SessionManager) (t : Nat) : SessionManager :=
  match (s.threads t).pc with
  | .reporting pc =>
    (s.stopStep pc).1.setPc t
      (if (s.stopStep pc).2 = .done then .failed else .reporting (s.stopStep pc).2)
  | .failed =>
    match (s.threads t).kind with
    | .init _ => s.setPc t .leaving
    | _ => { s with running := false }.setPc t .leaving
  | .leaving => s.setPc t .ended
  | .joining x => if s.Ended x then s.setPc t .joinInits else s
  | _ => s

/-- Every init thread of host `t` has ended. -/
def InitsEnded (s : SessionManager) (t : Nat) : Prop :=
  ∀ x, x < s.count → (s.threads x).kind = .init t → s.Ended x

instance (s : SessionManager) (t : Nat) : Decidable (s.InitsEnded t) :=
  inferInstanceAs (Decidable (∀ x, x < s.count → (s.threads x).kind = .init t → s.Ended x))

/-- The loops of a host end when `m_running` is false. -/
def finish (s : SessionManager) (t : Nat) : SessionManager :=
  match (s.threads t).kind, (s.threads t).pc with
  | .runHost, .serving => if s.running then s else s.setPc t .joinInits
  | .runHost, .joinInits => if s.InitsEnded t then s.setPc t .ended else s
  | .runHost, _ => s
  | _, .opening => s.setPc t .leaving
  | _, _ => s

def checkRunning (s : SessionManager) (t : Nat) : SessionManager :=
  if (s.threads t).kind = .runHost ∧ (s.threads t).pc = .opening then
    s.setPc t (if s.running then .serving else .leaving)
  else s

def startInit (s : SessionManager) (t : Nat) : SessionManager :=
  if (s.threads t).kind = .runHost ∧
      ((s.threads t).pc = .opening ∨ (s.threads t).pc = .serving) then
    s.spawn (.init t)
  else s

def joinInit (s : SessionManager) (t x : Nat) : SessionManager :=
  if (s.threads t).pc = .joinInits ∧ (s.threads x).kind = .init t then s.setPc t (.joining x)
  else s

def step (s : SessionManager) (e : SessionEvent) : SessionManager :=
  if s.terminated then s
  else
    match e with
    | .startSession mode => if s.caller = .idle then { s with caller := .test mode } else s
    | .stopSession => if s.caller = .idle then { s with caller := .stop .clear none } else s
    | .caller cryptoOk => s.callerStep cryptoOk
    | .fails t => s.fail t
    | .next t => s.threadStep t
    | .check t => s.checkRunning t
    | .initThread t => s.startInit t
    | .finishes t => s.finish t
    | .joins t x => s.joinInit t x

/-! ## Frames -/

theorem setPc_pc (s : SessionManager) (t u : Nat) (pc : ThreadPc) :
    ((s.setPc t pc).threads u).pc = if u = t then pc else (s.threads u).pc := by
  unfold setPc
  dsimp only
  split <;> rfl

@[simp] theorem setPc_kind (s : SessionManager) (t u : Nat) (pc : ThreadPc) :
    ((s.setPc t pc).threads u).kind = (s.threads u).kind := by
  unfold setPc
  dsimp only
  split <;> rfl

theorem spawn_pc (s : SessionManager) (kind : ThreadKind) (u : Nat) :
    ((s.spawn kind).threads u).pc = if u = s.count then .opening else (s.threads u).pc := by
  unfold spawn
  dsimp only
  split <;> rfl

@[simp] theorem stopStep_threads (s : SessionManager) (pc : StopPc) :
    (s.stopStep pc).1.threads = s.threads := by
  cases pc <;> simp only [stopStep] <;> split <;> rfl

@[simp] theorem stopStep_count (s : SessionManager) (pc : StopPc) :
    (s.stopStep pc).1.count = s.count := by
  cases pc <;> simp only [stopStep] <;> split <;> rfl

end SessionManager

end RemotePlay.Session
