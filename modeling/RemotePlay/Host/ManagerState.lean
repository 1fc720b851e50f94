import RemotePlay.Host.ManagerMoves

/-!
# The manager's state

`SetState` refuses what its table does not have, and its callers go on as if
it had not. Between two calls this does no harm but in one state: `SHUTDOWN`
can only be left for `IDLE`, to which nothing goes. `truthful_iff` says that
what `Initialize` and `EncodeFrame` return agrees with the state just until
one of them succeeds there.
-/

namespace RemotePlay.Host

open Lib

namespace StreamingState

/-- A frame may be encoded. -/
def Running (state : StreamingState) : Prop :=
  state = .streaming ∨ state = .degraded ∨ state = .emergencyFallback

/-- Where `Initialize` starts its encoder. -/
def Starts (state : StreamingState) : Prop := state = .ready ∨ state.Running

/-- The states between two calls. -/
def Rests (state : StreamingState) : Prop :=
  state = .idle ∨ state.Running ∨ state = .shutdown

instance : DecidablePred Running := fun _ => inferInstanceAs (Decidable (_ ∨ _))

instance : DecidablePred Starts := fun _ => inferInstanceAs (Decidable (_ ∨ _))

instance : DecidablePred Rests := fun _ => inferInstanceAs (Decidable (_ ∨ _))

/-- The moves of an operation stay in the set. -/
structure Closed (P : StreamingState → Prop) : Prop where
  emergency : ∀ s, P s → P (s.next .emergencyFallback)
  degraded : ∀ s, P s → P (s.next .degraded)

theorem closed_running : Closed Running := by
  constructor <;> intro s <;> cases s <;> decide

theorem closed_starts : Closed Starts := by
  constructor <;> intro s <;> cases s <;> decide

theorem closed_rests : Closed Rests := by
  constructor <;> intro s <;> cases s <;> decide

theorem closed_shutdown : Closed (· = .shutdown) := by
  constructor <;> intro s <;> cases s <;> decide

/-- A state is not idle, or it stays so. -/
theorem closed_ne_idle : Closed (· ≠ .idle) := by
  constructor <;> intro s <;> cases s <;> decide

/-- The transitions of `Initialize`, up to the preflight. -/
def begun (state : StreamingState) : StreamingState :=
  (state.next .starting).next .preflightValidation

theorem begun_shutdown {state : StreamingState} (h : state.Rests) :
    state.begun.next .shutdown = .shutdown := by
  revert h
  cases state <;> decide

theorem starts_begun {state : StreamingState} (h : state.Rests) (hup : state ≠ .shutdown) :
    (state.begun.next .ready).Starts := by
  revert h hup
  cases state <;> decide

theorem starts_next {state : StreamingState} (h : state.Starts) :
    state.next .streaming = .streaming ∧ state.next .shutdown = .shutdown := by
  revert h
  cases state <;> decide

end StreamingState

namespace EncoderManager

variable {m m' : EncoderManager} {lib : FFmpeg}

/-! ## Moves and states -/

theorem Move.state {P : StreamingState → Prop} (hP : StreamingState.Closed P) (hm : P m.state)
    (h : Move m m') : P m'.state := by
  cases h with
  | fallsBack hencoder codec => exact hP.emergency _ hm
  | degrades =>
    rw [setState_eq]
    exact hP.degraded _ hm
  | starts hchosen codec => exact hm
  | marks hlength => exact hm
  | encodes hinit => exact hm
  | forces => exact hm
  | sets bitrateKbps => exact hm
  | records currentTier lastFrameDropRate lastAvgEncodeTimeMs lastAdjustmentTime => exact hm

theorem Moves.state {P : StreamingState → Prop} (hP : StreamingState.Closed P) (hm : P m.state)
    (h : Moves m m') : P m'.state :=
  @Moves.keeps (fun m => P m.state) (fun _ _ => Move.state hP) m m' hm h

/-- The session stays locked or not; the capabilities keep their number, and the index of the one
in use. -/
theorem Move.session (h : Move m m') : m'.sessionLocked = m.sessionLocked ∧
    m'.capabilities.length = m.capabilities.length ∧ m'.backendIndex = m.backendIndex := by
  cases h with
  | marks hlength => exact ⟨rfl, hlength, rfl⟩
  | degrades =>
    rw [setState_eq]
    exact ⟨rfl, rfl, rfl⟩
  | starts hchosen codec => exact ⟨rfl, rfl, rfl⟩
  | fallsBack hencoder codec => exact ⟨rfl, rfl, rfl⟩
  | encodes hinit => exact ⟨rfl, rfl, rfl⟩
  | forces => exact ⟨rfl, rfl, rfl⟩
  | sets bitrateKbps => exact ⟨rfl, rfl, rfl⟩
  | records currentTier lastFrameDropRate lastAvgEncodeTimeMs lastAdjustmentTime =>
    exact ⟨rfl, rfl, rfl⟩

theorem Moves.sessionLocked (h : Moves m m') : m'.sessionLocked = m.sessionLocked :=
  @Moves.keeps (fun m' => m'.sessionLocked = m.sessionLocked)
    (fun _ _ hbefore h => h.session.1.trans hbefore) m m' rfl h

/-! ## The invariant -/

/-- The manager between two calls. -/
structure Sound (m : EncoderManager) : Prop where
  rests : m.state.Rests
  idle : m.state = .idle → m.sessionLocked = false ∧ m.capabilities = []
  /-- Without a codec to start there is no encoder. -/
  bare : m.chosen = none → m.encoder = none

theorem chosen_eq_none : m.chosen = none ↔
    m.sessionLocked = false ∧ m.capabilities.length ≤ m.backendIndex := by
  unfold chosen
  split
  · next hlocked => simp [hlocked]
  · next hlocked => simp [hlocked]

theorem Move.chosen (h : Move m m') : m'.chosen = none ↔ m.chosen = none := by
  obtain ⟨hlocked, hlength, hindex⟩ := h.session
  rw [chosen_eq_none, chosen_eq_none, hlocked, hlength, hindex]

theorem Sound.new : Sound .new := ⟨.inl rfl, fun _ => ⟨rfl, rfl⟩, fun _ => rfl⟩

theorem Sound.move (hm : Sound m) (h : Move m m') : Sound m' where
  rests := h.state StreamingState.closed_rests hm.rests
  idle := by
    intro hidle
    by_cases hbefore : m.state = .idle
    · obtain ⟨hunlocked, hcaps⟩ := hm.idle hbefore
      obtain ⟨hlocked, hlength, -⟩ := h.session
      refine ⟨hlocked.trans hunlocked, List.length_eq_zero_iff.mp ?_⟩
      rw [hlength, hcaps]
      rfl
    · exact absurd hidle (h.state StreamingState.closed_ne_idle hbefore)
  bare := by
    intro hnone
    have hencoder := hm.bare (h.chosen.mp hnone)
    cases h with
    | starts hchosen codec =>
      have hbefore := (Move.starts hchosen codec).chosen.mp hnone
      rw [hchosen] at hbefore
      cases hbefore
    | fallsBack hsome codec =>
      rw [hencoder] at hsome
      cases hsome
    | sets bitrateKbps =>
      show m.encoder.map _ = none
      rw [hencoder]
      rfl
    | degrades =>
      rw [setState_eq]
      exact hencoder
    | marks hlength => exact hencoder
    | encodes hinit => exact hencoder
    | forces => exact hencoder
    | records currentTier lastFrameDropRate lastAvgEncodeTimeMs lastAdjustmentTime =>
      exact hencoder

theorem Sound.moves (hm : Sound m) (h : Moves m m') : Sound m' :=
  h.keeps (fun _ _ => Sound.move) hm

/-- **`Initialize`** ends in `STREAMING` just when it succeeds, and did not begin in `SHUTDOWN`. -/
theorem initializeManager_state (hm : m.state.Rests) (lib : FFmpeg) (i : InitializeInput) :
    (m.initializeManager lib i).2.state =
      if (m.initializeManager lib i).1 = true ∧ m.state ≠ .shutdown then .streaming
      else .shutdown := by
  cases hfirst : firstPassing lib i with
  | none =>
    obtain ⟨capabilities, -, hinit⟩ := initializeManager_none hfirst m
    rw [hinit, setState_eq, beginSession_eq, if_neg fun h => nomatch h.1]
    exact StreamingState.begun_shutdown hm
  | some codecName =>
    obtain ⟨capabilities, backendIndex, hinit⟩ := initializeManager_some hfirst m
    have hlocked : ((m.beginSession lib i).lockSession capabilities backendIndex
        codecName).state = m.state.begun.next .ready := by
      rw [lockSession_eq, beginSession_eq]
      rfl
    have hmoves := selectAndInitEncoder_moves ((m.beginSession lib i).lockSession capabilities
      backendIndex codecName) lib i.selection
    rw [hinit]
    generalize ((m.beginSession lib i).lockSession capabilities backendIndex
      codecName).selectAndInitEncoder lib i.selection = sel at hmoves ⊢
    rw [setState_eq]
    show sel.2.state.next (if sel.1 then .streaming else .shutdown) =
      if sel.1 = true ∧ m.state ≠ .shutdown then .streaming else .shutdown
    by_cases hdown : m.state = .shutdown
    · have hstays := hmoves.state StreamingState.closed_shutdown (by rw [hlocked, hdown]; rfl)
      have hfails : ¬ (sel.1 = true ∧ m.state ≠ .shutdown) := fun h => h.2 hdown
      rw [hstays, if_neg hfails]
      split <;> rfl
    · have hstarts := hmoves.state StreamingState.closed_starts
        (by rw [hlocked]; exact StreamingState.starts_begun hm hdown)
      obtain ⟨hup, hfailed⟩ := StreamingState.starts_next hstarts
      cases hsuccess : sel.1 with
      | true =>
        rw [if_pos rfl, if_pos ⟨rfl, hdown⟩]
        exact hup
      | false =>
        rw [if_neg Bool.false_ne_true, if_neg fun h => Bool.false_ne_true h.1]
        exact hfailed

theorem Sound.initializeManager (hm : Sound m) (lib : FFmpeg) (i : InitializeInput) :
    Sound (m.initializeManager lib i).2 := by
  have hstate := initializeManager_state hm.rests lib i
  have hrests : (m.initializeManager lib i).2.state.Rests ∧
      (m.initializeManager lib i).2.state ≠ .idle := by
    rw [hstate]
    split <;> decide
  refine ⟨hrests.1, fun hidle => absurd hidle hrests.2, ?_⟩
  rw [chosen_eq_none]
  rintro ⟨hunlocked, hlength⟩
  cases hfirst : firstPassing lib i with
  | none =>
    obtain ⟨capabilities, hcaps, hinit⟩ := initializeManager_none hfirst m
    rw [hinit, setState_eq, beginSession_eq] at hlength
    exact absurd (List.length_eq_zero_iff.mp (Nat.le_zero.mp hlength)) hcaps
  | some codecName =>
    obtain ⟨capabilities, backendIndex, hinit⟩ := initializeManager_some hfirst m
    have hmoves := selectAndInitEncoder_moves ((m.beginSession lib i).lockSession capabilities
      backendIndex codecName) lib i.selection
    have hbefore : ((m.beginSession lib i).lockSession capabilities backendIndex
        codecName).sessionLocked = true := by
      rw [lockSession_eq]
    have hlocked := hmoves.sessionLocked.trans hbefore
    rw [hinit, setState_eq] at hunlocked
    exact absurd (hlocked.symm.trans hunlocked) (by decide)

theorem Sound.step (lib : FFmpeg) (m : EncoderManager) (e : ManagerEvent) (hm : Sound m) :
    Sound (m.step lib e) := by
  cases e with
  | initializes i => exact hm.initializeManager lib i
  | encodesFrame i => exact hm.moves (encodeFrame_moves m lib i)
  | updatesMetrics i => exact hm.moves (updatePerformanceMetrics_moves m lib i)
  | requestsKeyframe => exact hm.moves (requestKeyframe_moves m)
  | shutsDown =>
    simp only [EncoderManager.step, shutdownManager, setState_eq]
    refine ⟨?_, ?_, fun _ => rfl⟩
    · have hnext : ∀ s : StreamingState, s.Rests → (s.next .shutdown).Rests := by
        intro s
        cases s <;> decide
      exact hnext _ hm.rests
    · intro hidle
      have hnext : ∀ s : StreamingState, s.next .shutdown = .idle → s = .idle := by
        intro s
        cases s <;> decide
      exact hm.idle (hnext _ hidle)

/-! ## What is returned -/

/-- What the call returns agrees with the state that it leaves. -/
def Truthful (lib : FFmpeg) (m : EncoderManager) : ManagerEvent → Prop
  | .initializes i =>
    ((m.initializeManager lib i).1 = true ↔ (m.initializeManager lib i).2.state = .streaming) ∧
      ((m.initializeManager lib i).1 = false ↔ (m.initializeManager lib i).2.state = .shutdown)
  | .encodesFrame i =>
    (m.encodeFrame lib i).1 = true →
      (m.encodeFrame lib i).2.state ∈
        [.streaming, .degraded, .recovering, StreamingState.emergencyFallback]
  | _ => True

/-- What is called in `SHUTDOWN` fails: no codec passes the preflight, or none that is then asked
for opens; no frame is encoded, and no fallback starts. -/
def StaysDown (lib : FFmpeg) (m : EncoderManager) : ManagerEvent → Prop
  | .initializes i =>
    m.state = .shutdown →
      ((firstPassing lib i).any fun codecName => i.selection.succeeds lib (some codecName)) = false
  | .encodesFrame i => m.state = .shutdown → m.encodes lib i = false
  | _ => True

theorem initializeManager_truthful (hm : Sound m) (lib : FFmpeg) (i : InitializeInput) :
    Truthful lib m (.initializes i) ↔ StaysDown lib m (.initializes i) := by
  unfold Truthful StaysDown
  dsimp only
  rw [initializeManager_state hm.rests, ← initializeManager_fst m]
  cases (m.initializeManager lib i).1 <;> by_cases hdown : m.state = .shutdown <;> simp [hdown]

/-- A manager without an encoder and without a session encodes nothing. -/
theorem encodes_idle (hm : Sound m) (hidle : m.state = .idle) (i : EncodeFrameInput) :
    m.encodes lib i = false := by
  obtain ⟨hunlocked, hcaps⟩ := hm.idle hidle
  have hencoder : m.encoder = none :=
    hm.bare (chosen_eq_none.mpr ⟨hunlocked, by rw [hcaps]; exact Nat.zero_le _⟩)
  unfold encodes isInitialized
  rw [hencoder, hunlocked]
  rfl

theorem encodeFrame_truthful (hm : Sound m) (lib : FFmpeg) (i : EncodeFrameInput) :
    Truthful lib m (.encodesFrame i) ↔ StaysDown lib m (.encodesFrame i) := by
  have hmoves := encodeFrame_moves m lib i
  unfold Truthful StaysDown
  dsimp only
  rw [encodeFrame_fst]
  rcases hm.rests with hidle | hrunning | hdown
  · rw [encodes_idle hm hidle]
    exact iff_of_true (fun h => nomatch h) fun _ => rfl
  · have hstill := hmoves.state StreamingState.closed_running hrunning
    refine iff_of_true (fun _ => ?_) fun hdown => ?_
    · rcases hstill with h | h | h <;> rw [h] <;> decide
    · rw [hdown] at hrunning
      exact absurd hrunning (by decide)
  · have hstill := hmoves.state StreamingState.closed_shutdown hdown
    rw [hstill]
    simp [hdown]

/-- **The state tells the truth** in a run just as long as what is called in `SHUTDOWN` fails. -/
theorem truthful_iff (lib : FFmpeg) (es : List ManagerEvent) :
    Along (step lib) (Truthful lib) new es ↔ Along (step lib) (StaysDown lib) new es := by
  refine along_congr (Sound.step lib) (fun m e hm => ?_) Sound.new es
  cases e with
  | initializes i => exact initializeManager_truthful hm lib i
  | encodesFrame i => exact encodeFrame_truthful hm lib i
  | updatesMetrics i => exact Iff.rfl
  | requestsKeyframe => exact Iff.rfl
  | shutsDown => exact Iff.rfl

/-- The device is lost, and lost again before the encoder is back: the session goes on in
`SHUTDOWN`. -/
theorem deviceLost_not_truthful :
    ¬ Along (step nvencBuild) (Truthful nvencBuild) new
      [.initializes (initInput true), .initializes (initInput false),
        .initializes (initInput true)] := by
  rintro ⟨-, -, ⟨htrue, -⟩, -⟩
  exact absurd (htrue.mp rfl) (by decide)

end EncoderManager

end RemotePlay.Host
