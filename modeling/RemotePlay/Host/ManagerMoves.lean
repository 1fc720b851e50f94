import Mathlib.Logic.Relation
import RemotePlay.Host.EncoderManager

/-!
# What the manager's operations do

One specification lemma for each operation: which encoder it starts, what it
returns, and the moves that a call is made of. An invariant of the manager
needs to be checked against the moves only (`Moves.keeps`).
-/

namespace RemotePlay.Host

namespace EncoderManager

/-- The codec of the first available capability that passes the preflight. -/
def firstPassing (lib : FFmpeg) (i : InitializeInput) : Option CodecName :=
  ((detectCapabilities lib i.supports i.useHardware).find? fun cap =>
    cap.available && passesPreflight lib i.probes cap.codecName).map (·.codecName)

/-! ## The operations one by one -/

theorem setState_eq (m : EncoderManager) (newState : StreamingState) :
    m.setState newState = { m with state := m.state.next newState } := by
  unfold setState StreamingState.next
  split
  · next hsame =>
    rw [← hsame, ite_self]
  · split <;> rfl

/-- What is asked of an encoder that is started and opens this codec. -/
def startCalls (codecName codec : Option CodecName) : List EncoderCall :=
  match codec with
  | some _ => [.initializes codecName true, .forcesKeyframe]
  | none => [.initializes codecName false]

/-- The manager once an encoder has been started. -/
def started (m : EncoderManager) (codecName codec : Option CodecName) : EncoderManager :=
  { m with
    encoder := some ⟨codec, m.getCurrentBitrate⟩
    calls := m.calls ++ startCalls codecName codec }

theorem startEncoder_eq (m : EncoderManager) (lib : FFmpeg) (codecName : Option CodecName)
    (opens : Bool) :
    m.startEncoder lib codecName opens =
      ((lib.opened codecName opens).isSome, m.started codecName (lib.opened codecName opens)) := by
  unfold startEncoder started HardwareEncoder.initializeEncoder HardwareEncoder.isInitialized
  cases lib.opened codecName opens with
  | none => rfl
  | some codec => rfl

/-- The manager as the emergency fallback starts its encoder. -/
def toSoftware (m : EncoderManager) : EncoderManager :=
  { m with
    state := m.state.next .emergencyFallback
    lockedCodecName := some .libx264
    currentBackend := .software }

theorem emergencyEncoderFallback_eq (m : EncoderManager) (lib : FFmpeg) (opens : Bool) :
    m.emergencyEncoderFallback lib opens =
      ((lib.opened (some .libx264) opens).isSome,
        m.toSoftware.started (some .libx264) (lib.opened (some .libx264) opens)) := by
  unfold emergencyEncoderFallback
  rw [startEncoder_eq, setState_eq]
  rfl

/-- The codec that `SelectAndInitEncoder` starts, and the backend on record as it does. -/
def chosen (m : EncoderManager) : Option (Option CodecName × EncoderBackend) :=
  if m.sessionLocked then some (m.lockedCodecName, m.currentBackend)
  else m.capabilities[m.backendIndex]?.map fun cap => (some cap.codecName, cap.backend)

theorem selectAndInitEncoder_none {m : EncoderManager} (h : m.chosen = none) (lib : FFmpeg)
    (selection : Selection) : m.selectAndInitEncoder lib selection = (false, m) := by
  unfold chosen at h
  unfold selectAndInitEncoder
  split at h
  · cases h
  · next hlocked =>
    rw [if_neg hlocked, Option.map_eq_none_iff.mp h]

/-- The codec chosen is started, and if it fails the fallback takes over. -/
theorem selectAndInitEncoder_some {m : EncoderManager} {codecName : Option CodecName}
    {backend : EncoderBackend} (h : m.chosen = some (codecName, backend)) (lib : FFmpeg)
    (selection : Selection) :
    (∃ codec, lib.opened codecName selection.selected = some codec ∧
        m.selectAndInitEncoder lib selection =
          (true, { m with currentBackend := backend }.started codecName (some codec))) ∨
      lib.opened codecName selection.selected = none ∧
        ∃ capabilities : List EncoderCapability, capabilities.length = m.capabilities.length ∧
          m.selectAndInitEncoder lib selection =
            ({ m with
              currentBackend := backend
              capabilities }.started codecName none).emergencyEncoderFallback lib
              selection.emergency := by
  unfold chosen at h
  unfold selectAndInitEncoder
  split at h
  · next hlocked =>
    cases h
    rw [if_pos hlocked, startEncoder_eq]
    cases lib.opened m.lockedCodecName selection.selected with
    | none => exact .inr ⟨rfl, m.capabilities, rfl, rfl⟩
    | some codec => exact .inl ⟨codec, rfl, rfl⟩
  · next hlocked =>
    obtain ⟨cap, hcap, hchosen⟩ := Option.map_eq_some_iff.mp h
    cases hchosen
    rw [if_neg hlocked, hcap]
    simp only [startEncoder_eq]
    cases lib.opened (some cap.codecName) selection.selected with
    | none =>
      refine .inr ⟨rfl, m.capabilities.set m.backendIndex { cap with available := false },
        List.length_set, rfl⟩
    | some codec => exact .inl ⟨codec, rfl, rfl⟩

/-- What the preflight keeps and finds. -/
theorem preflightEncoderValidation_spec (lib : FFmpeg) (probes : CodecName → Bool) (i : Nat)
    (caps : List EncoderCapability) :
    (preflightEncoderValidation lib probes i caps).1.length = caps.length ∧
      (preflightEncoderValidation lib probes i caps).2.map (·.2) =
        (caps.find? fun cap => cap.available && passesPreflight lib probes cap.codecName).map
          (·.codecName) := by
  induction caps generalizing i with
  | nil => exact ⟨rfl, rfl⟩
  | cons cap caps ih =>
    unfold preflightEncoderValidation
    obtain ⟨hlength, hfound⟩ := ih (i + 1)
    cases hpass : cap.available && passesPreflight lib probes cap.codecName with
    | true =>
      simp only [List.find?_cons, hpass]
      exact ⟨rfl, rfl⟩
    | false =>
      simp only [List.find?_cons, hpass]
      exact ⟨congrArg (· + 1) hlength, hfound⟩

theorem detectCapabilities_ne_nil (lib : FFmpeg) (supports : CodecName → Bool)
    (useHardware : Bool) : detectCapabilities lib supports useHardware ≠ [] := by
  have hnonempty : ∀ (cap : EncoderCapability) (found : List EncoderCapability),
      (if found.isEmpty then [cap] else found) ≠ [] := by
    intro cap found
    split
    · exact List.cons_ne_nil _ _
    · next hfound => exact fun hnil => hfound (List.isEmpty_iff.mpr hnil)
  exact hnonempty _ _

theorem beginSession_eq (m : EncoderManager) (lib : FFmpeg) (i : InitializeInput) :
    m.beginSession lib i =
      { m with
        state := (m.state.next .starting).next .preflightValidation
        baseWidth := i.initialWidth
        baseHeight := i.height
        fps := i.fps
        currentTier := .highPerformance
        backendIndex := 0
        sessionLocked := false
        capabilities := detectCapabilities lib i.supports i.useHardware
        calls := [] } := by
  unfold beginSession
  rw [setState_eq, setState_eq]

theorem lockSession_eq (m : EncoderManager) (capabilities : List EncoderCapability)
    (backendIndex : Nat) (codecName : CodecName) :
    m.lockSession capabilities backendIndex codecName =
      { m with
        state := m.state.next .ready
        capabilities
        backendIndex
        lockedCodecName := some codecName
        sessionLocked := true } :=
  setState_eq _ _

theorem initializeManager_none {i : InitializeInput} {lib : FFmpeg}
    (h : firstPassing lib i = none) (m : EncoderManager) :
    ∃ capabilities : List EncoderCapability, capabilities ≠ [] ∧
      m.initializeManager lib i =
        (false, { m.beginSession lib i with capabilities }.setState .shutdown) := by
  have hcaps : (m.beginSession lib i).capabilities =
      detectCapabilities lib i.supports i.useHardware := by
    rw [beginSession_eq]
  obtain ⟨hlength, hfound⟩ := preflightEncoderValidation_spec lib i.probes 0
    (m.beginSession lib i).capabilities
  unfold initializeManager
  dsimp only
  unfold firstPassing at h
  rw [hcaps] at hlength hfound ⊢
  rw [h, Option.map_eq_none_iff] at hfound
  refine ⟨(preflightEncoderValidation lib i.probes 0
    (detectCapabilities lib i.supports i.useHardware)).1, ?_, ?_⟩
  · rw [← List.length_pos_iff, hlength, List.length_pos_iff]
    exact detectCapabilities_ne_nil lib i.supports i.useHardware
  · generalize preflightEncoderValidation lib i.probes 0
      (detectCapabilities lib i.supports i.useHardware) = r at hfound
    obtain ⟨capabilities, found⟩ := r
    cases hfound
    rfl

theorem initializeManager_some {i : InitializeInput} {lib : FFmpeg} {codecName : CodecName}
    (h : firstPassing lib i = some codecName) (m : EncoderManager) :
    ∃ (capabilities : List EncoderCapability) (backendIndex : Nat),
      let sel := ((m.beginSession lib i).lockSession capabilities backendIndex
        codecName).selectAndInitEncoder lib i.selection
      m.initializeManager lib i =
        (sel.1, sel.2.setState (if sel.1 then .streaming else .shutdown)) := by
  have hcaps : (m.beginSession lib i).capabilities =
      detectCapabilities lib i.supports i.useHardware := by
    rw [beginSession_eq]
  have hfound := (preflightEncoderValidation_spec lib i.probes 0
    (m.beginSession lib i).capabilities).2
  unfold initializeManager
  dsimp only
  unfold firstPassing at h
  rw [hcaps] at hfound ⊢
  rw [h] at hfound
  generalize preflightEncoderValidation lib i.probes 0
    (detectCapabilities lib i.supports i.useHardware) = r at hfound
  obtain ⟨capabilities, found⟩ := r
  obtain ⟨⟨backendIndex, name⟩, hsome, hname⟩ := Option.map_eq_some_iff.mp hfound
  cases hsome
  cases hname
  refine ⟨capabilities, backendIndex, ?_⟩
  dsimp only
  generalize ((m.beginSession lib i).lockSession capabilities backendIndex
    name).selectAndInitEncoder lib i.selection = sel
  obtain ⟨success, m'⟩ := sel
  cases success <;> rfl

/-! ## What the operations return -/

theorem selectAndInitEncoder_fst {m : EncoderManager} {codecName : Option CodecName}
    {backend : EncoderBackend} (h : m.chosen = some (codecName, backend)) (lib : FFmpeg)
    (selection : Selection) :
    (m.selectAndInitEncoder lib selection).1 = selection.succeeds lib codecName := by
  unfold Selection.succeeds
  rcases selectAndInitEncoder_some h lib selection with
    ⟨codec, hopened, hsel⟩ | ⟨hopened, capabilities, -, hsel⟩
  · rw [hsel, hopened]
    rfl
  · rw [hsel, hopened, emergencyEncoderFallback_eq]
    rfl

theorem chosen_locked {m : EncoderManager} (h : m.sessionLocked = true) :
    m.chosen = some (m.lockedCodecName, m.currentBackend) :=
  if_pos h

/-- What a session that has just been locked starts, and the backend on record: the old one. -/
theorem chosen_lockSession (m : EncoderManager) (lib : FFmpeg) (i : InitializeInput)
    (capabilities : List EncoderCapability) (backendIndex : Nat) (codecName : CodecName) :
    ((m.beginSession lib i).lockSession capabilities backendIndex codecName).chosen =
      some (some codecName, m.currentBackend) := by
  rw [lockSession_eq, beginSession_eq]
  exact chosen_locked rfl

theorem initializeManager_fst (m : EncoderManager) (lib : FFmpeg) (i : InitializeInput) :
    (m.initializeManager lib i).1 =
      (firstPassing lib i).any fun codecName => i.selection.succeeds lib (some codecName) := by
  cases hfirst : firstPassing lib i with
  | none =>
    obtain ⟨capabilities, -, hinit⟩ := initializeManager_none hfirst m
    rw [hinit]
    rfl
  | some codecName =>
    obtain ⟨capabilities, backendIndex, hinit⟩ := initializeManager_some hfirst m
    rw [hinit]
    exact selectAndInitEncoder_fst (chosen_lockSession m lib i capabilities backendIndex codecName)
      lib i.selection

/-- The frame is encoded, or the fallback starts. -/
def encodes (m : EncoderManager) (lib : FFmpeg) (i : EncodeFrameInput) : Bool :=
  (m.isInitialized || m.sessionLocked && i.selection.succeeds lib m.lockedCodecName) &&
    (i.encoded || (lib.opened (some .libx264) i.fallback).isSome)

theorem readyEncoder_fst (m : EncoderManager) (lib : FFmpeg) (selection : Selection) :
    (m.readyEncoder lib selection).1 =
      (m.isInitialized || m.sessionLocked && selection.succeeds lib m.lockedCodecName) := by
  unfold readyEncoder
  cases m.isInitialized with
  | true => rfl
  | false =>
    cases hlocked : m.sessionLocked with
    | true => exact selectAndInitEncoder_fst (chosen_locked hlocked) lib selection
    | false => rfl

theorem encodeFrame_fst (m : EncoderManager) (lib : FFmpeg) (i : EncodeFrameInput) :
    (m.encodeFrame lib i).1 = m.encodes lib i := by
  have hready := readyEncoder_fst m lib i.selection
  unfold encodeFrame encodes
  rw [← hready]
  obtain ⟨ready, m'⟩ := m.readyEncoder lib i.selection
  cases ready with
  | false => rfl
  | true =>
    dsimp only
    cases i.encoded with
    | true => rfl
    | false =>
      rw [if_neg Bool.false_ne_true, fallback, emergencyEncoderFallback_eq]
      rfl

/-- What the packet path sees of a call. -/
def reply (m : EncoderManager) (lib : FFmpeg) (i : EncodeFrameInput) (encoder : EncoderReply) :
    ManagerReply where
  initialized := m.isInitialized
  sessionLocked := m.sessionLocked
  initLocked := (lib.opened m.lockedCodecName i.selection.selected).isSome
  initEmergency := (lib.opened (some .libx264) i.selection.emergency).isSome
  encoder
  initFallback := (lib.opened (some .libx264) i.fallback).isSome

/-- The call succeeds for the manager just when it does for the packets. -/
theorem encodeFrame_reply (m : EncoderManager) (lib : FFmpeg) (i : EncodeFrameInput)
    (encoder : EncoderReply) (pool : PacketPool)
    (h : (encoder.encodeFrame pool).success = i.encoded) :
    ((m.reply lib i encoder).encodeFrame pool).success = (m.encodeFrame lib i).1 := by
  rw [encodeFrame_fst]
  unfold ManagerReply.encodeFrame ManagerReply.selectAndInitEncoder encodes Selection.succeeds
  simp only [reply, h]
  cases m.isInitialized <;> cases m.sessionLocked <;>
    cases (lib.opened m.lockedCodecName i.selection.selected).isSome <;>
    cases (lib.opened (some .libx264) i.selection.emergency).isSome <;>
    cases hencoded : i.encoded <;> simp [hencoded, h]

/-! ## What the operations do -/

/-- What an operation other than `Initialize` and `Shutdown` is made of. -/
inductive Move (m : EncoderManager) : EncoderManager → Prop where
  | starts {codecName : Option CodecName} {backend : EncoderBackend}
    (h : m.chosen = some (codecName, backend)) (codec : Option CodecName) :
    Move m ({ m with currentBackend := backend }.started codecName codec)
  | marks {capabilities : List EncoderCapability}
    (h : capabilities.length = m.capabilities.length) : Move m { m with capabilities }
  | fallsBack (h : m.encoder.isSome = true) (codec : Option CodecName) :
    Move m (m.toSoftware.started (some .libx264) codec)
  | encodes (h : m.isInitialized = true) :
    Move m { m with calls := m.calls ++ [.encodesFrame] }
  | forces : Move m { m with calls := m.calls ++ [.forcesKeyframe] }
  | sets (bitrateKbps : Int) : Move m (m.setBitrate bitrateKbps)
  | degrades : Move m (m.setState .degraded)
  | records (currentTier : QualityTier) (lastFrameDropRate lastAvgEncodeTimeMs : Float32)
    (lastAdjustmentTime : UInt64) :
    Move m { m with currentTier, lastFrameDropRate, lastAvgEncodeTimeMs, lastAdjustmentTime }

/-- A sequence of moves. -/
abbrev Moves : EncoderManager → EncoderManager → Prop := Relation.ReflTransGen Move

theorem emergencyEncoderFallback_moves {m : EncoderManager} (h : m.encoder.isSome = true)
    (lib : FFmpeg) (opens : Bool) : Moves m (m.emergencyEncoderFallback lib opens).2 := by
  rw [emergencyEncoderFallback_eq]
  exact .single (.fallsBack h _)

theorem selectAndInitEncoder_moves (m : EncoderManager) (lib : FFmpeg) (selection : Selection) :
    Moves m (m.selectAndInitEncoder lib selection).2 := by
  cases hchosen : m.chosen with
  | none =>
    rw [selectAndInitEncoder_none hchosen]
  | some chosen =>
    obtain ⟨codecName, backend⟩ := chosen
    rcases selectAndInitEncoder_some hchosen lib selection with
      ⟨codec, -, hsel⟩ | ⟨-, capabilities, hlength, hsel⟩
    · rw [hsel]
      exact .single (.starts hchosen _)
    · rw [hsel]
      have hstart : Moves m ({ m with currentBackend := backend }.started codecName none) :=
        .single (.starts hchosen none)
      have hmark : Move ({ m with currentBackend := backend }.started codecName none)
          ({ m with currentBackend := backend, capabilities }.started codecName none) :=
        .marks hlength
      exact (hstart.tail hmark).trans (emergencyEncoderFallback_moves rfl lib _)

theorem readyEncoder_moves (m : EncoderManager) (lib : FFmpeg) (selection : Selection) :
    Moves m (m.readyEncoder lib selection).2 := by
  unfold readyEncoder
  split
  · exact .refl
  · split
    · exact selectAndInitEncoder_moves m lib selection
    · exact .refl

/-- A manager that has got its encoder ready has one. -/
theorem isInitialized_readyEncoder {m : EncoderManager} {lib : FFmpeg} {selection : Selection}
    (h : (m.readyEncoder lib selection).1 = true) :
    (m.readyEncoder lib selection).2.isInitialized = true := by
  unfold readyEncoder at h ⊢
  split at h
  · next hinit => rwa [if_pos hinit]
  · next hinit =>
    rw [if_neg hinit]
    split at h
    · next hlocked =>
      rw [if_pos hlocked]
      rcases selectAndInitEncoder_some (chosen_locked hlocked) lib selection with
        ⟨codec, -, hsel⟩ | ⟨-, capabilities, -, hsel⟩
      · rw [hsel]
        rfl
      · rw [hsel, emergencyEncoderFallback_eq] at h ⊢
        exact h
    · cases h

theorem encodeFrame_moves (m : EncoderManager) (lib : FFmpeg) (i : EncodeFrameInput) :
    Moves m (m.encodeFrame lib i).2 := by
  have hready := readyEncoder_moves m lib i.selection
  have hinit := @isInitialized_readyEncoder m lib i.selection
  unfold encodeFrame
  generalize m.readyEncoder lib i.selection = r at hready hinit
  obtain ⟨ready, m'⟩ := r
  cases ready with
  | false => exact hready
  | true =>
    have hcall := hready.tail (.encodes (hinit rfl))
    dsimp only
    split
    · exact hcall
    · refine hcall.trans (emergencyEncoderFallback_moves ?_ lib _)
      obtain ⟨enc, henc, -⟩ := (Option.any_eq_true _ _).mp (hinit rfl)
      show m'.encoder.isSome = true
      rw [henc]
      rfl

theorem requestKeyframe_moves (m : EncoderManager) : Moves m m.requestKeyframe := by
  unfold requestKeyframe
  split
  · exact .single .forces
  · exact .refl

theorem adjustTier_moves (m : EncoderManager) (lib : FFmpeg) (improve : Bool)
    (selection : Selection) : Moves m (m.adjustTier lib improve selection) := by
  have htier : ∀ currentTier : QualityTier, Moves m { m with currentTier } := fun currentTier =>
    .single (.records currentTier m.lastFrameDropRate m.lastAvgEncodeTimeMs m.lastAdjustmentTime)
  unfold adjustTier
  dsimp only
  generalize (if improve then m.currentTier.improved else m.currentTier.reduced) = currentTier
  split
  · split
    · exact (htier _).tail (.sets _)
    · exact (htier _).trans (selectAndInitEncoder_moves _ lib selection)
  · exact htier _

theorem setBitrate_moves (p : Prop) [Decidable p] (m : EncoderManager) (bitrateKbps : Int) :
    Moves m (if p then m.setBitrate bitrateKbps else m) := by
  split
  · exact .single (.sets bitrateKbps)
  · exact .refl

theorem receiveMetrics_moves (m : EncoderManager) (i : MetricsInput) :
    Moves m (m.receiveMetrics i) :=
  (setBitrate_moves _ m _).tail (.records _ _ _ _)

theorem adjustQuality_moves (m : EncoderManager) (lib : FFmpeg) (i : MetricsInput) :
    Moves m (m.adjustQuality lib i) := by
  have hdegrade : Moves m (if m.currentTier ≠ .recovery then m.setState .degraded else m) := by
    split
    · exact .single .degrades
    · exact .refl
  unfold adjustQuality
  split
  · exact .refl
  · split
    · exact (hdegrade.trans (adjustTier_moves _ lib false i.selection)).tail (.records _ _ _ i.now)
    · exact .refl

theorem updatePerformanceMetrics_moves (m : EncoderManager) (lib : FFmpeg) (i : MetricsInput) :
    Moves m (m.updatePerformanceMetrics lib i) :=
  ((receiveMetrics_moves m i).trans (setBitrate_moves _ _ _)).trans (adjustQuality_moves _ lib i)

/-- The moves that a call of these operations makes keep what each of them keeps. -/
theorem Moves.keeps {Inv : EncoderManager → Prop}
    (hmove : ∀ m m', Inv m → Move m m' → Inv m') {m m' : EncoderManager} (hm : Inv m)
    (h : Moves m m') : Inv m' := by
  induction h with
  | refl => exact hm
  | tail _ hlast ih => exact hmove _ _ ih hlast

end EncoderManager

end RemotePlay.Host
