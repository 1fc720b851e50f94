import RemotePlay.Host.ManagerMoves
import RemotePlay.Lib.Answers

/-!
# The session lock

`Initialize` locks the session to the codec that passes the preflight. From
then on the encoder is started with this codec or with libx264, and with no
other once it has been started with libx264; each start that succeeds forces a
keyframe before the next frame. It is a property of the calls that the encoder
receives, whoever starts it: a frame, a tier that is lost, a failure.
-/

namespace RemotePlay.Host

open Lib

namespace EncoderCall

/-- The codec name that is passed to `Initialize`. -/
def codecName? : EncoderCall → Option (Option CodecName)
  | .initializes codecName _ => some codecName
  | _ => none

def Started : EncoderCall → Prop
  | .initializes _ success => success = true
  | _ => False

def ForcesKeyframe : EncoderCall → Prop
  | .forcesKeyframe => True
  | _ => False

def EncodesFrame : EncoderCall → Prop
  | .encodesFrame => True
  | _ => False

end EncoderCall

namespace EncoderManager

/-- The codec names that the encoder is started with, in order. -/
def codecNames (calls : List EncoderCall) : List (Option CodecName) :=
  calls.filterMap EncoderCall.codecName?

/-- What the lock of a session promises of the calls on its encoder. -/
structure SessionLock (lib : FFmpeg) (i : InitializeInput) (calls : List EncoderCall) : Prop where
  /-- The encoder is started with the first available codec that passed the preflight, or with
  libx264. -/
  codec : ∃ codecName, firstPassing lib i = some codecName ∧
    ∀ name ∈ codecNames calls, name = some codecName ∨ name = some .libx264
  /-- Once with libx264, it is not started with another codec. -/
  emergency : (codecNames calls).Pairwise fun name name' =>
    name = some .libx264 → name' = some .libx264
  /-- Each start that succeeds forces a keyframe before the next frame. -/
  keyframe : Answered EncoderCall.Started EncoderCall.ForcesKeyframe EncoderCall.EncodesFrame calls

/-- A call between `Initialize` and the next. -/
def InSession : ManagerEvent → Prop
  | .encodesFrame _ | .updatesMetrics _ | .requestsKeyframe => True
  | _ => False

/-! ## The calls -/

/-- The calls of a session that was locked to `codecName`, and now is to `current`. -/
structure Kept (codecName : CodecName) (current : Option CodecName) (calls : List EncoderCall) :
    Prop where
  allowed : current = some codecName ∨ current = some .libx264
  named : ∀ name ∈ codecNames calls, name = some codecName ∨ name = some .libx264
  fallen : some .libx264 ∈ codecNames calls → current = some .libx264
  once : (codecNames calls).Pairwise fun name name' =>
    name = some .libx264 → name' = some .libx264
  settled : Settled EncoderCall.Started EncoderCall.ForcesKeyframe EncoderCall.EncodesFrame calls

namespace Kept

variable {codecName : CodecName} {current : Option CodecName} {calls : List EncoderCall}

theorem nil (codecName : CodecName) : Kept codecName (some codecName) [] where
  allowed := .inl rfl
  named := fun _ h => nomatch h
  fallen := fun h => nomatch h
  once := .nil
  settled := .nil

/-- A call that starts nothing. -/
theorem call (h : Kept codecName current calls) {call : EncoderCall}
    (hcall : call.codecName? = none) : Kept codecName current (calls ++ [call]) := by
  have hnames : codecNames (calls ++ [call]) = codecNames calls := by
    simp [codecNames, hcall]
  have hstarted : ¬ call.Started := by
    cases call with
    | initializes name success => cases hcall
    | forcesKeyframe => exact id
    | encodesFrame => exact id
  exact {
    allowed := h.allowed
    named := by
      rw [hnames]
      exact h.named
    fallen := by
      rw [hnames]
      exact h.fallen
    once := by
      rw [hnames]
      exact h.once
    settled := h.settled.append_singleton hstarted }

/-- A start with the codec that the session is locked to. -/
theorem start (h : Kept codecName current calls) (codec : Option CodecName) :
    Kept codecName current (calls ++ startCalls current codec) := by
  have hnames : codecNames (calls ++ startCalls current codec) = codecNames calls ++ [current] := by
    cases codec <;> simp [codecNames, startCalls, EncoderCall.codecName?]
  refine ⟨h.allowed, ?_, ?_, ?_, ?_⟩
  · rw [hnames]
    intro name hname
    rcases List.mem_append.mp hname with hname | hname
    · exact h.named name hname
    · rw [List.mem_singleton.mp hname]
      exact h.allowed
  · rw [hnames]
    intro hname
    rcases List.mem_append.mp hname with hname | hname
    · exact h.fallen hname
    · exact (List.mem_singleton.mp hname).symm
  · rw [hnames, List.pairwise_append]
    refine ⟨h.once, List.pairwise_singleton _ _, ?_⟩
    rintro name hname name' hname' rfl
    rw [List.mem_singleton.mp hname']
    exact h.fallen hname
  · cases codec with
    | none => exact h.settled.append_singleton Bool.false_ne_true
    | some codec => exact h.settled.append_pair id trivial id id

/-- The emergency fallback takes the lock over. -/
theorem fallBack (h : Kept codecName current calls) : Kept codecName (some .libx264) calls where
  allowed := .inr rfl
  named := h.named
  fallen := fun _ => rfl
  once := h.once
  settled := h.settled

end Kept

/-! ## The manager -/

/-- The manager in a session that was locked to the codec. -/
structure Locked (codecName : CodecName) (m : EncoderManager) : Prop where
  locked : m.sessionLocked = true
  kept : Kept codecName m.lockedCodecName m.calls

variable {m m' : EncoderManager} {lib : FFmpeg} {codecName : CodecName}

theorem Locked.move (hm : Locked codecName m) (h : Move m m') : Locked codecName m' := by
  cases h with
  | starts hchosen codec =>
    rw [chosen_locked hm.locked] at hchosen
    cases hchosen
    exact ⟨hm.locked, hm.kept.start codec⟩
  | fallsBack hencoder codec => exact ⟨hm.locked, hm.kept.fallBack.start codec⟩
  | encodes hinit => exact ⟨hm.locked, hm.kept.call rfl⟩
  | forces => exact ⟨hm.locked, hm.kept.call rfl⟩
  | degrades =>
    rw [setState_eq]
    exact ⟨hm.locked, hm.kept⟩
  | marks hlength => exact ⟨hm.locked, hm.kept⟩
  | sets bitrateKbps => exact ⟨hm.locked, hm.kept⟩
  | records currentTier lastFrameDropRate lastAvgEncodeTimeMs lastAdjustmentTime =>
    exact ⟨hm.locked, hm.kept⟩

theorem Locked.moves (hm : Locked codecName m) (h : Moves m m') : Locked codecName m' :=
  h.keeps (fun _ _ => Locked.move) hm

theorem Locked.step (lib : FFmpeg) (m : EncoderManager) (e : ManagerEvent)
    (hm : Locked codecName m) (he : InSession e) : Locked codecName (m.step lib e) := by
  cases e with
  | encodesFrame i => exact hm.moves (encodeFrame_moves m lib i)
  | updatesMetrics i => exact hm.moves (updatePerformanceMetrics_moves m lib i)
  | requestsKeyframe => exact hm.moves (requestKeyframe_moves m)
  | initializes i => exact absurd he id
  | shutsDown => exact absurd he id

/-- `Initialize` locks the session to the first codec that passes the preflight. -/
theorem locked_initializeManager {i : InitializeInput} (h : firstPassing lib i = some codecName)
    (m : EncoderManager) : Locked codecName (m.initializeManager lib i).2 := by
  obtain ⟨capabilities, backendIndex, hinit⟩ := initializeManager_some h m
  have hlocked : Locked codecName
      ((m.beginSession lib i).lockSession capabilities backendIndex codecName) := by
    rw [lockSession_eq, beginSession_eq]
    exact ⟨rfl, .nil codecName⟩
  have hselected := hlocked.moves (selectAndInitEncoder_moves _ lib i.selection)
  rw [hinit, setState_eq]
  exact ⟨hselected.locked, hselected.kept⟩

/-- **The session lock** holds of every run after an `Initialize` that succeeds. -/
theorem sessionLock_run (lib : FFmpeg) (m : EncoderManager) (i : InitializeInput)
    (hinit : (m.initializeManager lib i).1 = true) (es : List ManagerEvent)
    (hes : ∀ e ∈ es, InSession e) :
    SessionLock lib i (run (step lib) (m.initializeManager lib i).2 es).calls := by
  obtain ⟨codecName, hfirst, -⟩ : ∃ codecName, firstPassing lib i = some codecName ∧
      i.selection.succeeds lib (some codecName) = true := by
    rw [initializeManager_fst] at hinit
    exact (Option.any_eq_true _ _).mp hinit
  have hlocked : Locked codecName (run (step lib) (m.initializeManager lib i).2 es) :=
    run_invariant (Locked.step lib) (locked_initializeManager hfirst m) (along_of_forall hes)
  exact ⟨⟨codecName, hfirst, hlocked.kept.named⟩, hlocked.kept.once,
    hlocked.kept.settled.answered⟩

/-- A frame that fails, with its fallback, and a request for a keyframe. -/
theorem sessionLock_run_fallback :
    SessionLock nvencBuild (initInput true)
      (run (step nvencBuild) (new.initializeManager nvencBuild (initInput true)).2
        [.encodesFrame ⟨⟨true, true⟩, false, true⟩, .requestsKeyframe]).calls := by
  refine sessionLock_run nvencBuild new (initInput true) (by decide) _ fun e he => ?_
  rcases List.mem_cons.mp he with rfl | he
  · trivial
  · cases List.mem_singleton.mp he
    trivial

end EncoderManager

end RemotePlay.Host
