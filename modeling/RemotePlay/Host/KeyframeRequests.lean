import RemotePlay.Host.ManagerMoves
import RemotePlay.Lib.Run

/-!
# Keyframe requests

`m_encoderMutex` keeps the operations of a manager apart, but not
`RequestKeyframe`, which the receiver thread calls at any moment: also between
the test of `m_forceKeyframe` and its reset, and while the codec has the
picture. The flag loses no request. From the request on no picture goes to the
codec without the key flag, through failures, fallbacks and restarts of the
encoder, until `EncodeFrame` has succeeded with one that has it.
-/

namespace RemotePlay.Host

open Lib

/-- Where the thread that holds `m_encoderMutex` is in `EncodeFrame`. -/
inductive EncodePhase where
  | unlocked
  /-- In `FFmpegHardwareEncoder::EncodeFrame`. -/
  | ready
  /-- `m_forceKeyframe` was set, and is about to be reset. -/
  | clearing
  | sending (keyframe : Bool)

inductive KeyframeNote where
  | requested
  /-- `m_forceKeyframe` is tested, and decides on the key flag of the picture. -/
  | tested (keyframe : Bool)
  /-- `EncodeFrame` has succeeded with the picture. -/
  | encoded (keyframe : Bool)
  deriving DecidableEq

structure KeyframeState where
  manager : EncoderManager
  /-- `m_forceKeyframe` of `m_encoder`. -/
  forceKeyframe : Bool
  phase : EncodePhase
  /-- What has happened, the latest first. -/
  log : List KeyframeNote

inductive KeyframeEvent where
  | requestsKeyframe
  | initializes (i : InitializeInput)
  | updatesMetrics (i : MetricsInput)
  | shutsDown
  /-- `EncodeFrame` begins, and gets the encoder ready. -/
  | begins (selection : Selection)
  /-- The picture is staged or not, in which case the fallback opens its codec or not. -/
  | stages (staged fallback : Bool)
  | clears
  /-- `avcodec_send_frame` and `avcodec_receive_packet` answer. -/
  | answers (sent received fallback : Bool)

namespace EncoderCall

def forces : EncoderCall → Bool
  | .forcesKeyframe => true
  | _ => false

def starts : EncoderCall → Bool
  | .initializes _ _ => true
  | _ => false

end EncoderCall

namespace KeyframeState

def new : KeyframeState := ⟨.new, false, .unlocked, []⟩

section
variable (s : KeyframeState) (lib : FFmpeg)

/-- The manager as an operation finds it, so that `calls` are those of the operation. -/
def found : EncoderManager := { s.manager with calls := [] }

/-- An operation has returned the mutex: `ForceKeyframe` has been called or not, and the flag of a
new encoder is not set. -/
def returns (manager : EncoderManager) (newEncoder : Bool) : KeyframeState :=
  { s with
    manager
    forceKeyframe := manager.calls.any EncoderCall.forces || s.forceKeyframe && !newEncoder
    phase := .unlocked }

/-- `RequestKeyframe`, which does not take the mutex. Its test of `m_encoder` and its call are one
step here: in between a call that has the mutex, as `Shutdown`, may free the encoder. -/
def requestsKeyframe : KeyframeState :=
  { s with
    forceKeyframe := s.forceKeyframe || s.manager.encoder.isSome
    log := .requested :: s.log }

/-- Where the session is not locked `SelectAndInitEncoder` makes a new encoder. -/
def updatesMetrics (i : MetricsInput) : KeyframeState :=
  let manager := s.found.updatePerformanceMetrics lib i
  s.returns manager (!s.manager.sessionLocked && manager.calls.any EncoderCall.starts)

def begins (selection : Selection) : KeyframeState :=
  match s.found.readyEncoder lib selection with
  | (true, manager) => { s.returns manager false with phase := .ready }
  | (false, manager) => s.returns manager false

/-- `EncodeFrame` of the encoder has failed. -/
def fails (fallback : Bool) : KeyframeState :=
  s.returns (s.found.fallback lib fallback).2 false

/-- The picture goes to the codec once the flag has been tested, and reset if it was set. -/
def tests : KeyframeState :=
  { s with
    phase := if s.forceKeyframe then .clearing else .sending false
    log := .tested s.forceKeyframe :: s.log }

def step (s : KeyframeState) : KeyframeEvent → KeyframeState
  | .requestsKeyframe => s.requestsKeyframe
  | .initializes i =>
    match s.phase with
    | .unlocked => s.returns (s.found.initializeManager lib i).2 false
    | _ => s
  | .updatesMetrics i =>
    match s.phase with
    | .unlocked => s.updatesMetrics lib i
    | _ => s
  | .shutsDown =>
    match s.phase with
    | .unlocked => s.returns s.found.shutdownManager true
    | _ => s
  | .begins selection =>
    match s.phase with
    | .unlocked => s.begins lib selection
    | _ => s
  | .stages staged fallback =>
    match s.phase with
    | .ready => if staged then s.tests else s.fails lib fallback
    | _ => s
  | .clears =>
    match s.phase with
    | .clearing => { s with forceKeyframe := false, phase := .sending true }
    | _ => s
  | .answers sent received fallback =>
    match s.phase with
    | .sending keyframe =>
      if sent && received then { s with phase := .unlocked, log := .encoded keyframe :: s.log }
      else s.fails lib fallback
    | _ => s

end

/-! ## Requests that wait -/

/-- A keyframe has been requested, and none encoded since. -/
def Waiting : List KeyframeNote → Prop
  | [] => False
  | .requested :: _ => True
  | .encoded true :: _ => False
  | _ :: log => Waiting log

/-- After a request each picture has the key flag, up to one with it that is encoded. -/
def RequestsHonoured (log : List KeyframeNote) : Prop :=
  ∀ newer between older, log = newer ++ .tested false :: (between ++ .requested :: older) →
    .encoded true ∈ between

theorem waiting_append {between : List KeyframeNote} (h : .encoded true ∉ between)
    (older : List KeyframeNote) : Waiting (between ++ .requested :: older) := by
  induction between with
  | nil => trivial
  | cons note between ih =>
    have hrest := ih fun hmem => h (List.mem_cons_of_mem _ hmem)
    cases note with
    | requested => trivial
    | tested keyframe => exact hrest
    | encoded keyframe =>
      cases keyframe with
      | true => exact absurd List.mem_cons_self h
      | false => exact hrest

/-- No picture without the key flag while a request waits. -/
def NoneMissed : List KeyframeNote → Prop
  | [] => True
  | .tested false :: log => ¬ Waiting log ∧ NoneMissed log
  | _ :: log => NoneMissed log

theorem NoneMissed.honoured {log : List KeyframeNote} (h : NoneMissed log) :
    RequestsHonoured log := by
  rintro newer between older rfl
  induction newer with
  | nil => exact not_imp_comm.mp (waiting_append · older) h.1
  | cons note newer ih =>
    apply ih
    cases note with
    | requested => exact h
    | tested keyframe =>
      cases keyframe with
      | true => exact h
      | false => exact h.2
    | encoded keyframe => exact h

/-! ## What an operation leaves of the encoder -/

/-- The encoder is the one from before, or `ForceKeyframe` has been called since it was started. -/
def Forced (before m : EncoderManager) : Prop :=
  m.isInitialized = true → m.calls.any EncoderCall.forces = true ∨
    before.isInitialized = true ∧ m.calls.any EncoderCall.starts = false

theorem forced_started (before m : EncoderManager) (codecName codec : Option CodecName) :
    Forced before (m.started codecName codec) := by
  intro hinit
  cases codec with
  | none => cases hinit
  | some codec =>
    refine .inl ?_
    simp [EncoderManager.started, EncoderManager.startCalls, EncoderCall.forces]

theorem isInitialized_setBitrate (m : EncoderManager) (bitrateKbps : Int) :
    (m.setBitrate bitrateKbps).isInitialized = m.isInitialized := by
  unfold EncoderManager.setBitrate EncoderManager.isInitialized
  cases m.encoder with
  | none => rfl
  | some enc =>
    simp only [Option.map_some, Option.any_some]
    unfold HardwareEncoder.setBitrate HardwareEncoder.isInitialized
    split <;> rfl

theorem forced_move {before m m' : EncoderManager} (h : Forced before m)
    (hmove : EncoderManager.Move m m') : Forced before m' := by
  cases hmove with
  | starts hchosen codec => exact forced_started _ _ _ _
  | marks hlength => exact h
  | fallsBack hencoder codec => exact forced_started _ _ _ _
  | encodes hinit =>
    intro hinit'
    simpa [EncoderCall.forces, EncoderCall.starts] using h hinit'
  | forces => exact fun _ => .inl (by simp [EncoderCall.forces])
  | sets bitrateKbps =>
    intro hinit
    rw [isInitialized_setBitrate] at hinit
    exact h hinit
  | degrades =>
    rw [EncoderManager.setState_eq]
    exact h
  | records => exact h

theorem forced_moves {m m' : EncoderManager} (hcalls : m.calls = [])
    (h : EncoderManager.Moves m m') : Forced m m' := by
  refine EncoderManager.Moves.keeps (fun _ _ h hmove => forced_move h hmove) ?_ h
  intro hinit
  refine .inr ⟨hinit, ?_⟩
  rw [hcalls]
  rfl

theorem forced_initializeManager (m : EncoderManager) (lib : FFmpeg) (i : InitializeInput) :
    Forced m (m.initializeManager lib i).2 := by
  have hbegin : ∀ {m' : EncoderManager}, m'.encoder = m.encoder → m'.calls = [] → Forced m m' := by
    intro m' hencoder hcalls hinit
    refine .inr ⟨?_, by rw [hcalls]; rfl⟩
    rwa [EncoderManager.isInitialized, hencoder] at hinit
  cases hfirst : EncoderManager.firstPassing lib i with
  | none =>
    obtain ⟨capabilities, -, hinit⟩ := EncoderManager.initializeManager_none hfirst m
    rw [hinit, EncoderManager.setState_eq, EncoderManager.beginSession_eq]
    exact hbegin rfl rfl
  | some codecName =>
    obtain ⟨capabilities, backendIndex, hinit⟩ := EncoderManager.initializeManager_some hfirst m
    rw [hinit, EncoderManager.setState_eq]
    have hlock : Forced m
        ((m.beginSession lib i).lockSession capabilities backendIndex codecName) := by
      rw [EncoderManager.lockSession_eq, EncoderManager.beginSession_eq]
      exact hbegin rfl rfl
    have hsel := EncoderManager.Moves.keeps (fun _ _ h hmove => forced_move h hmove) hlock
      (EncoderManager.selectAndInitEncoder_moves _ lib i.selection)
    exact hsel

/-! ## The flag -/

/-- What `m_forceKeyframe` says, depending on where the thread with the mutex is. -/
def FlagKept (s : KeyframeState) : Prop :=
  match s.phase with
  | .unlocked => s.manager.isInitialized = true → Waiting s.log → s.forceKeyframe = true
  | .ready | .sending false =>
    s.manager.isInitialized = true ∧ (Waiting s.log → s.forceKeyframe = true)
  | .clearing | .sending true => True

structure Inv (s : KeyframeState) : Prop where
  flag : FlagKept s
  missed : NoneMissed s.log

section
variable {s : KeyframeState} {lib : FFmpeg}

theorem isSome_of_isInitialized {m : EncoderManager} (h : m.isInitialized = true) :
    m.encoder.isSome = true := by
  obtain ⟨enc, henc, -⟩ := (Option.any_eq_true _ _).mp h
  rw [henc]
  rfl

theorem Inv.requestsKeyframe (h : Inv s) : Inv s.requestsKeyframe := by
  have hset (hinit : s.manager.isInitialized = true) :
      (s.forceKeyframe || s.manager.encoder.isSome) = true := by
    rw [isSome_of_isInitialized hinit, Bool.or_true]
  obtain ⟨hflag, hmissed⟩ := h
  obtain ⟨manager, forceKeyframe, phase, log⟩ := s
  refine ⟨?_, hmissed⟩
  cases phase with
  | unlocked => exact fun hinit _ => hset hinit
  | ready => exact ⟨hflag.1, fun _ => hset hflag.1⟩
  | clearing => trivial
  | sending keyframe =>
    cases keyframe with
    | true => trivial
    | false => exact ⟨hflag.1, fun _ => hset hflag.1⟩

/-- What has to hold of a manager for its operation to return it. -/
def Returns (s : KeyframeState) (manager : EncoderManager) (newEncoder : Bool) : Prop :=
  manager.isInitialized = true → Waiting s.log →
    manager.calls.any EncoderCall.forces = true ∨ s.forceKeyframe = true ∧ newEncoder = false

theorem flag_returns {manager : EncoderManager} {newEncoder : Bool}
    (h : Returns s manager newEncoder) (hinit : manager.isInitialized = true)
    (hwait : Waiting s.log) : (s.returns manager newEncoder).forceKeyframe = true := by
  unfold returns
  rcases h hinit hwait with hforced | ⟨hflag, hold⟩
  · rw [Bool.or_eq_true]
    exact .inl hforced
  · rw [hflag, hold]
    exact Bool.or_true _

theorem Inv.returns {manager : EncoderManager} {newEncoder : Bool} (h : Inv s)
    (hreturns : Returns s manager newEncoder) : Inv (s.returns manager newEncoder) :=
  ⟨flag_returns hreturns, h.missed⟩

/-- An operation that finds the mutex free, and makes no new encoder without starting it. -/
theorem Forced.returns {manager : EncoderManager} {newEncoder : Bool} (h : Inv s)
    (hphase : s.phase = .unlocked) (hforced : Forced s.found manager)
    (hnew : manager.calls.any EncoderCall.starts = false → newEncoder = false) :
    Returns s manager newEncoder := by
  intro hinit hwait
  have hflag := h.flag
  rw [FlagKept, hphase] at hflag
  rcases hforced hinit with hforced | ⟨hbefore, hkept⟩
  · exact .inl hforced
  · exact .inr ⟨hflag hbefore hwait, hnew hkept⟩

theorem Inv.initializes (h : Inv s) (hphase : s.phase = .unlocked) (i : InitializeInput) :
    Inv (s.returns (s.found.initializeManager lib i).2 false) :=
  h.returns ((forced_initializeManager s.found lib i).returns h hphase fun _ => rfl)

theorem Inv.updatesMetrics (h : Inv s) (hphase : s.phase = .unlocked) (i : MetricsInput) :
    Inv (s.updatesMetrics lib i) := by
  have hforced : Forced s.found (s.found.updatePerformanceMetrics lib i) :=
    forced_moves rfl (EncoderManager.updatePerformanceMetrics_moves _ lib i)
  refine h.returns (hforced.returns h hphase fun hkept => ?_)
  rw [hkept, Bool.and_false]

theorem Inv.shutsDown (h : Inv s) : Inv (s.returns s.found.shutdownManager true) :=
  h.returns fun hinit => (Bool.false_ne_true hinit).elim

theorem Inv.begins (h : Inv s) (hphase : s.phase = .unlocked) (selection : Selection) :
    Inv (s.begins lib selection) := by
  have hforced : Forced s.found (s.found.readyEncoder lib selection).2 :=
    forced_moves rfl (EncoderManager.readyEncoder_moves _ lib selection)
  have hinit := @EncoderManager.isInitialized_readyEncoder s.found lib selection
  unfold KeyframeState.begins
  generalize s.found.readyEncoder lib selection = r at hforced hinit
  obtain ⟨ready, manager⟩ := r
  have hreturns : Returns s manager false := hforced.returns h hphase fun _ => rfl
  cases ready with
  | false => exact h.returns hreturns
  | true => exact ⟨⟨hinit rfl, flag_returns hreturns (hinit rfl)⟩, h.missed⟩

/-- The fallback has started the encoder again, whatever has become of the flag. -/
theorem Inv.fails (h : Inv s) (fallback : Bool) : Inv (s.fails lib fallback) := by
  refine h.returns fun hinit _ => ?_
  unfold EncoderManager.fallback at hinit ⊢
  rw [EncoderManager.emergencyEncoderFallback_eq] at hinit ⊢
  cases hopened : lib.opened (some .libx264) fallback with
  | none =>
    rw [hopened] at hinit
    cases hinit
  | some codec => exact .inl rfl

theorem Inv.tests (h : Inv s) (hphase : s.phase = .ready) : Inv s.tests := by
  have hflag := h.flag
  rw [FlagKept, hphase] at hflag
  obtain ⟨hinit, hset⟩ := hflag
  have hmissed := h.missed
  obtain ⟨manager, forceKeyframe, phase, log⟩ := s
  cases forceKeyframe with
  | true => exact ⟨trivial, hmissed⟩
  | false =>
    have hidle : ¬ Waiting log := fun hwait => Bool.false_ne_true (hset hwait)
    exact ⟨⟨hinit, hset⟩, hidle, hmissed⟩

theorem Inv.answers (h : Inv s) {keyframe : Bool} (hphase : s.phase = .sending keyframe) :
    Inv { s with phase := .unlocked, log := .encoded keyframe :: s.log } := by
  have hflag := h.flag
  rw [FlagKept, hphase] at hflag
  cases keyframe with
  | true => exact ⟨fun _ hwait => hwait.elim, h.missed⟩
  | false => exact ⟨fun _ => hflag.2, h.missed⟩

theorem inv_step (e : KeyframeEvent) (h : Inv s) : Inv (step lib s e) := by
  unfold step
  cases e with
  | requestsKeyframe => exact h.requestsKeyframe
  | initializes i =>
    dsimp only
    split
    · next hphase => exact h.initializes hphase i
    · exact h
  | updatesMetrics i =>
    dsimp only
    split
    · next hphase => exact h.updatesMetrics hphase i
    · exact h
  | shutsDown =>
    dsimp only
    split
    · exact h.shutsDown
    · exact h
  | begins selection =>
    dsimp only
    split
    · next hphase => exact h.begins hphase selection
    · exact h
  | stages staged fallback =>
    dsimp only
    split
    · next hphase =>
      split
      · exact h.tests hphase
      · exact h.fails fallback
    · exact h
  | clears =>
    dsimp only
    split
    · exact ⟨trivial, h.missed⟩
    · exact h
  | answers sent received fallback =>
    dsimp only
    split
    · next hphase =>
      split
      · exact h.answers hphase
      · exact h.fails fallback
    · exact h

theorem inv_new : Inv new :=
  ⟨fun hinit => (Bool.false_ne_true hinit).elim, trivial⟩

end

/-- **No keyframe request is lost.** Whenever the receiver thread asks, and whatever becomes of the
codec: each picture from then on is sent with the key flag, until one is encoded that has it. -/
theorem keyframe_requests_honoured (lib : FFmpeg) (es : List KeyframeEvent) :
    RequestsHonoured (run (step lib) new es).log :=
  (run_invariant' (fun _ e h => inv_step e h) inv_new es).missed.honoured

/-- A request between the test and the reset of the flag: the picture under way answers it. -/
example : (run (step EncoderManager.nvencBuild) new
    [.initializes (EncoderManager.initInput true), .begins ⟨true, true⟩, .stages true true,
      .requestsKeyframe, .clears, .answers true true true, .begins ⟨true, true⟩,
      .stages true true, .answers true true true]).log =
    [.encoded false, .tested false, .encoded true, .requested, .tested true] := by decide

/-! ## The call as a whole -/

/-- The manager without the record of its calls. -/
def forgetCalls (m : EncoderManager) : EncoderManager := { m with calls := [] }

theorem fallback_forgetCalls (m : EncoderManager) (calls : List EncoderCall) (lib : FFmpeg)
    (fallback : Bool) :
    forgetCalls ({ m with calls }.fallback lib fallback).2 =
      forgetCalls (m.fallback lib fallback).2 := by
  unfold EncoderManager.fallback
  rw [EncoderManager.emergencyEncoderFallback_eq, EncoderManager.emergencyEncoderFallback_eq]
  rfl

section
variable {s : KeyframeState} {lib : FFmpeg}

theorem step_begins (hphase : s.phase = .unlocked) (selection : Selection) :
    step lib s (.begins selection) = s.begins lib selection := by
  rw [step, hphase]

theorem step_stages (hphase : s.phase = .ready) (staged fallback : Bool) :
    step lib s (.stages staged fallback) = if staged then s.tests else s.fails lib fallback := by
  rw [step, hphase]

theorem step_answers {keyframe : Bool} (hphase : s.phase = .sending keyframe)
    (sent received fallback : Bool) :
    step lib s (.answers sent received fallback) =
      if sent && received then { s with phase := .unlocked, log := .encoded keyframe :: s.log }
      else s.fails lib fallback := by
  rw [step, hphase]

/-- The codec has the picture once the flag has been tested, and reset if it was set. -/
theorem sending_tests (s : KeyframeState) (lib : FFmpeg) :
    ∃ keyframe, (step lib s.tests .clears).phase = .sending keyframe ∧
      (step lib s.tests .clears).manager = s.manager := by
  obtain ⟨manager, forceKeyframe, phase, log⟩ := s
  cases forceKeyframe with
  | true => exact ⟨true, rfl, rfl⟩
  | false => exact ⟨false, rfl, rfl⟩

theorem forgetCalls_fails (m : EncoderManager) (calls : List EncoderCall) (hm : s.manager = m)
    (fallback : Bool) :
    forgetCalls (s.fails lib fallback).manager =
      forgetCalls ({ m with calls }.fallback lib fallback).2 := by
  rw [fallback_forgetCalls, ← hm]
  exact fallback_forgetCalls s.manager [] lib fallback

end

/-- The steps of one call come to the manager's `EncodeFrame`. -/
theorem manager_encodeFrame {s : KeyframeState} (hphase : s.phase = .unlocked) (lib : FFmpeg)
    (selection : Selection) (staged sent received fallback : Bool) :
    forgetCalls (run (step lib) s [.begins selection, .stages staged fallback, .clears,
        .answers sent received fallback]).manager =
      forgetCalls (s.found.encodeFrame lib
        ⟨selection, staged && (sent && received), fallback⟩).2 := by
  rw [run_cons, step_begins hphase]
  unfold EncoderManager.encodeFrame begins
  generalize s.found.readyEncoder lib selection = r
  obtain ⟨ready, manager⟩ := r
  cases ready with
  | false => rfl
  | true =>
    rw [run_cons, step_stages rfl]
    cases staged with
    | false => exact forgetCalls_fails manager _ rfl fallback
    | true =>
      obtain ⟨keyframe, hsending, hmanager⟩ := sending_tests
        { s.returns manager false with phase := .ready } lib
      rw [if_pos rfl, run_cons, run_cons, step_answers hsending, Bool.true_and]
      cases sent && received with
      | true =>
        have hsame := congrArg forgetCalls hmanager
        exact hsame
      | false => exact forgetCalls_fails manager _ hmanager fallback

end KeyframeState

end RemotePlay.Host
