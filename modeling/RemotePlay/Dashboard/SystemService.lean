import RemotePlay.Lib.Run

/-!
# Sessions of the dashboard

`startClient` opens the viewer window at once, and starts the session in the
third of three timers, each set by the one before, half a second later. The
timers carry the configuration along. `stopSession` closes the window and clears
the state, but cancels no timer. An event is a call or the firing of a timer;
timers of different calls fire in any order. This is the build for Windows, the
one with a window.
-/

namespace RemotePlay.Dashboard

open Lib

inductive AppStatus where
  | idle
  | hosting
  | connected
  | error
  | reconnecting
  deriving DecidableEq, Repr

inductive ConnectionStep where
  | stepNone
  | stepResolving
  | stepHandshake
  | stepEncrypting
  | stepConnected
  deriving DecidableEq, Repr

/-- Of the configuration, what decides about the session's window. Windows are numbered as they are
created. -/
structure ParsecConfig where
  isHost : Bool
  windowHandle : Option Nat
  deriving DecidableEq, Repr

/-- The callback of a pending timer: the first, the second or the third of a chain. -/
inductive Callback where
  | handshake (config : ParsecConfig)
  | encrypting (config : ParsecConfig)
  | connect (config : ParsecConfig)
  deriving DecidableEq, Repr

def Callback.config : Callback → ParsecConfig
  | handshake config => config
  | encrypting config => config
  | connect config => config

/-- A call of `Parsec_StartSession`: whose it is, its configuration, and whether the window of the
configuration existed. -/
structure StartedSession where
  /-- The number of the `startClient` call; `none` for `startHost`. -/
  startClient : Option Nat
  config : ParsecConfig
  windowExists : Bool
  deriving DecidableEq, Repr

structure SystemService where
  isSessionActive : Bool
  appStatus : AppStatus
  connectionStep : ConnectionStep
  clientWindow : Option Nat
  /-- The number of windows created, one by each `startClient` call. -/
  created : Nat
  /-- The windows that exist. -/
  windows : List Nat
  /-- The pending timer of each `startClient` call. -/
  timers : Nat → Option Callback
  /-- The calls of `Parsec_StartSession`. -/
  started : List StartedSession

inductive Event where
  | startHost
  | startClient
  | stopSession
  /-- The pending timer of a `startClient` call fires. -/
  | timer (call : Nat)
  deriving DecidableEq, Repr

/-- The call asks for a session. -/
def Event.isStart : Event → Bool
  | startHost => true
  | startClient => true
  | stopSession => false
  | timer _ => false

namespace SystemService

def init : SystemService where
  isSessionActive := false
  appStatus := .idle
  connectionStep := .stepNone
  clientWindow := none
  created := 0
  windows := []
  timers _ := none
  started := []

def parsecStartSession (s : SystemService) (call : Option Nat) (config : ParsecConfig) :
    SystemService :=
  { s with started := s.started ++
      [⟨call, config, config.windowHandle.any fun window => window ∈ s.windows⟩] }

/-- `QTimer::singleShot`, in the chain of a call. -/
def singleShot (s : SystemService) (call : Nat) (callback : Callback) : SystemService :=
  { s with timers := fun c => if c = call then some callback else s.timers c }

def startHost (s : SystemService) : SystemService :=
  let s := s.parsecStartSession none ⟨true, none⟩
  { s with isSessionActive := true, appStatus := .hosting }

def startClient (s : SystemService) : SystemService :=
  let window := s.created
  let s := { s with
    clientWindow := some window
    created := s.created + 1
    windows := window :: s.windows
    appStatus := .reconnecting
    connectionStep := .stepResolving }
  s.singleShot window (.handshake ⟨false, some window⟩)

def stopSession (s : SystemService) : SystemService :=
  { s with
    windows := match s.clientWindow with
      | some window => s.windows.filter (· ≠ window)
      | none => s.windows
    clientWindow := none
    isSessionActive := false
    appStatus := .idle
    connectionStep := .stepNone }

/-- The callback of the third timer. -/
def connected (s : SystemService) (call : Nat) (config : ParsecConfig) : SystemService :=
  let s := s.parsecStartSession (some call) config
  { s with
    timers := fun c => if c = call then none else s.timers c
    isSessionActive := true
    appStatus := .connected
    connectionStep := .stepConnected }

/-- A timer that fires is no longer pending; its callback may set the next one. -/
def fire (s : SystemService) (call : Nat) : SystemService :=
  match s.timers call with
  | none => s
  | some (.handshake config) =>
    { s with connectionStep := .stepHandshake }.singleShot call (.encrypting config)
  | some (.encrypting config) =>
    { s with connectionStep := .stepEncrypting }.singleShot call (.connect config)
  | some (.connect config) => s.connected call config

def step (s : SystemService) : Event → SystemService
  | .startHost => s.startHost
  | .startClient => s.startClient
  | .stopSession => s.stopSession
  | .timer call => s.fire call

/-! ## What is asked of a run -/

/-- The calls of `Parsec_StartSession` that a `startClient` call has led to. -/
def startedBy (s : SystemService) (call : Nat) : Nat :=
  s.started.countP fun session => session.startClient = some call

/-- No timer is pending when the session is stopped. -/
def NothingPending (s : SystemService) (e : Event) : Prop :=
  e = .stopSession → ∀ call, s.timers call = none

/-! ## What a timer does -/

section
variable (s : SystemService)

theorem timers_singleShot (call c : Nat) (callback : Callback) :
    (s.singleShot call callback).timers c = if c = call then some callback else s.timers c := rfl

theorem timers_connected (call c : Nat) (config : ParsecConfig) :
    (s.connected call config).timers c = if c = call then none else s.timers c := rfl

/-- A timer that fires is replaced by the next one of its chain, or by a session. -/
theorem fire_cases (call : Nat) :
    (s.timers call = none ∧ s.fire call = s) ∨
    (∃ callback next connectionStep, s.timers call = some callback ∧
      next.config = callback.config ∧
      s.fire call = { s with connectionStep }.singleShot call next) ∨
    (∃ config, s.timers call = some (.connect config) ∧
      s.fire call = s.connected call config) := by
  unfold fire
  rcases hcall : s.timers call with _ | (config | config | config)
  · exact .inl ⟨rfl, rfl⟩
  · exact .inr (.inl ⟨_, .encrypting config, .stepHandshake, rfl, rfl, rfl⟩)
  · exact .inr (.inl ⟨_, .connect config, .stepEncrypting, rfl, rfl, rfl⟩)
  · exact .inr (.inr ⟨config, rfl, rfl⟩)

end

/-! ## One session for each call -/

variable {s : SystemService}

/-- A `startClient` call has a pending timer or a session, not both, and neither before it. -/
structure OneChain (s : SystemService) : Prop where
  fresh : ∀ call, s.created ≤ call → s.timers call = none ∧ s.startedBy call = 0
  once : ∀ call, s.startedBy call ≤ 1
  pending : ∀ call, s.timers call ≠ none → s.startedBy call = 0

theorem startedBy_parsecStartSession (call : Nat) (call' : Option Nat) (config : ParsecConfig) :
    (s.parsecStartSession call' config).startedBy call =
      s.startedBy call + if call' = some call then 1 else 0 := by
  unfold startedBy parsecStartSession
  rw [List.countP_append, List.countP_singleton]
  simp

theorem startedBy_startHost (call : Nat) : s.startHost.startedBy call = s.startedBy call :=
  startedBy_parsecStartSession call none ⟨true, none⟩

theorem startedBy_connected (call fired : Nat) (config : ParsecConfig) :
    (s.connected fired config).startedBy call =
      s.startedBy call + if fired = call then 1 else 0 := by
  have h := startedBy_parsecStartSession (s := s) call (some fired) config
  simp only [Option.some.injEq] at h
  exact h

/-- The next timer of a chain. -/
theorem OneChain.singleShot (h : OneChain s) {call : Nat} (hcall : call < s.created)
    (hnone : s.startedBy call = 0) (callback : Callback) :
    OneChain (s.singleShot call callback) where
  fresh c hc := by
    rw [timers_singleShot, if_neg]
    · exact h.fresh c hc
    · rintro rfl
      exact Nat.lt_irrefl _ (Nat.lt_of_lt_of_le hcall hc)
  once := h.once
  pending c hc := by
    rw [timers_singleShot] at hc
    by_cases heq : c = call
    · rw [heq]
      exact hnone
    · rw [if_neg heq] at hc
      exact h.pending c hc

/-- The session at the end of a chain. -/
theorem OneChain.connected (h : OneChain s) {call : Nat} (hpending : s.timers call ≠ none)
    (config : ParsecConfig) : OneChain (s.connected call config) where
  fresh c hc := by
    obtain ⟨htimer, hcount⟩ := h.fresh c hc
    rw [timers_connected, startedBy_connected, hcount, htimer, ite_self]
    refine ⟨rfl, ?_⟩
    rw [if_neg]
    rintro rfl
    exact hpending htimer
  once c := by
    rw [startedBy_connected]
    split
    · next heq =>
      subst heq
      exact Nat.le_of_eq (congrArg (· + 1) (h.pending call hpending))
    · exact h.once c
  pending c hc := by
    rw [timers_connected] at hc
    split at hc
    · exact absurd rfl hc
    · next hne =>
      rw [startedBy_connected, if_neg (Ne.symm hne)]
      exact h.pending c hc

theorem OneChain.lt_created (h : OneChain s) {call : Nat} (hpending : s.timers call ≠ none) :
    call < s.created :=
  Nat.lt_of_not_le fun hle => hpending (h.fresh call hle).1

theorem OneChain.step (h : OneChain s) (e : Event) : OneChain (s.step e) := by
  cases e with
  | startHost =>
    refine ⟨fun call hcall => ⟨(h.fresh call hcall).1, ?_⟩, fun call => ?_, fun call hcall => ?_⟩
    · exact (startedBy_startHost call).trans (h.fresh call hcall).2
    · exact Nat.le_trans (Nat.le_of_eq (startedBy_startHost call)) (h.once call)
    · exact (startedBy_startHost call).trans (h.pending call hcall)
  | stopSession => exact ⟨h.fresh, h.once, h.pending⟩
  | startClient =>
    have hcreated : OneChain { s with
        clientWindow := some s.created
        created := s.created + 1
        windows := s.created :: s.windows
        appStatus := .reconnecting
        connectionStep := .stepResolving } :=
      ⟨fun call hcall => h.fresh call (Nat.le_of_succ_le hcall), h.once, h.pending⟩
    exact hcreated.singleShot (Nat.lt_succ_self _) (h.fresh _ (Nat.le_refl _)).2 _
  | timer fired =>
    show OneChain (s.fire fired)
    rcases s.fire_cases fired with ⟨-, heq⟩ | ⟨callback, next, st, hfired, -, heq⟩ |
      ⟨config, hfired, heq⟩
    · rwa [heq]
    · have hpending : s.timers fired ≠ none := by simp [hfired]
      have hstep : OneChain { s with connectionStep := st } := ⟨h.fresh, h.once, h.pending⟩
      rw [heq]
      exact hstep.singleShot (h.lt_created hpending) (h.pending fired hpending) next
    · rw [heq]
      exact h.connected (by simp [hfired]) config

/-- The windows of pending timers are open, and those of sessions were. -/
structure WindowsOpen (s : SystemService) : Prop where
  pending : ∀ call callback, s.timers call = some callback →
    ∃ window ∈ s.windows, callback.config.windowHandle = some window
  started : ∀ session ∈ s.started, session.startClient ≠ none → session.windowExists = true

theorem WindowsOpen.singleShot (h : WindowsOpen s) {call : Nat} {callback : Callback}
    (hopen : ∃ window ∈ s.windows, callback.config.windowHandle = some window) :
    WindowsOpen (s.singleShot call callback) where
  pending c callback' hc := by
    change (if c = call then some callback else s.timers c) = some callback' at hc
    split at hc
    · cases hc
      exact hopen
    · exact h.pending c callback' hc
  started := h.started

theorem WindowsOpen.connected (h : WindowsOpen s) {call : Nat} {config : ParsecConfig}
    (hcall : s.timers call = some (.connect config)) : WindowsOpen (s.connected call config) where
  pending c callback hc := by
    rw [timers_connected] at hc
    split at hc
    · cases hc
    · exact h.pending c callback hc
  started session hsession hstart := by
    rcases List.mem_append.mp hsession with hold | hnew
    · exact h.started session hold hstart
    · obtain ⟨window, hmem, hhandle⟩ := h.pending _ _ hcall
      change config.windowHandle = some window at hhandle
      rw [List.mem_singleton.mp hnew]
      simpa [hhandle] using hmem

/-- **One event** keeps the windows open, unless it is a `stopSession` with a timer pending. -/
theorem WindowsOpen.step (h : WindowsOpen s) (e : Event) (hpending : NothingPending s e) :
    WindowsOpen (s.step e) := by
  cases e with
  | startHost =>
    refine ⟨h.pending, fun session hsession hcall => ?_⟩
    rcases List.mem_append.mp hsession with hold | hnew
    · exact h.started session hold hcall
    · rw [List.mem_singleton.mp hnew] at hcall
      exact absurd rfl hcall
  | stopSession =>
    refine ⟨fun call callback hcall => ?_, h.started⟩
    have hnone := hpending rfl call
    rw [show (s.step .stopSession).timers call = s.timers call from rfl, hnone] at hcall
    cases hcall
  | startClient =>
    have hcreated : WindowsOpen { s with
        clientWindow := some s.created
        created := s.created + 1
        windows := s.created :: s.windows
        appStatus := .reconnecting
        connectionStep := .stepResolving } := by
      refine ⟨fun call callback hcall => ?_, h.started⟩
      obtain ⟨window, hmem, hhandle⟩ := h.pending call callback hcall
      exact ⟨window, List.mem_cons_of_mem _ hmem, hhandle⟩
    exact hcreated.singleShot ⟨s.created, List.mem_cons_self, rfl⟩
  | timer fired =>
    show WindowsOpen (s.fire fired)
    rcases s.fire_cases fired with ⟨-, heq⟩ | ⟨callback, next, st, hfired, hconfig, heq⟩ |
      ⟨config, hfired, heq⟩
    · rwa [heq]
    · have hstep : WindowsOpen { s with connectionStep := st } := ⟨h.pending, h.started⟩
      rw [heq]
      refine hstep.singleShot ?_
      rw [hconfig]
      exact h.pending fired callback hfired
    · rw [heq]
      exact h.connected hfired

/-! ## Nothing after a stop -/

/-- No session is active, and no timer is pending that could start one. -/
structure Stopped (started : List StartedSession) (s : SystemService) : Prop where
  inactive : s.isSessionActive = false
  noTimer : ∀ call, s.timers call = none
  same : s.started = started

theorem Stopped.step {started : List StartedSession} (h : Stopped started s) {e : Event}
    (he : e.isStart = false) : Stopped started (s.step e) := by
  cases e with
  | startHost => cases he
  | startClient => cases he
  | stopSession => exact ⟨rfl, h.noTimer, h.same⟩
  | timer fired =>
    have hfire : s.step (.timer fired) = s := by
      show s.fire fired = s
      rw [fire, h.noTimer fired]
    rwa [hfire]

end SystemService

end RemotePlay.Dashboard
