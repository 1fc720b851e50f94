import RemotePlay.Host.ManagerMoves
import RemotePlay.Lib.Run
import Mathlib.Algebra.Order.Field.Rat

/-!
# The tiers over a run

A client or a link that is too slow costs the session a tier, and with it the
encoder is set to another bitrate or started anew. The two upper tiers have the
session's own size, the lower ones sizes of their own, so that the step between
them enlarges what is smaller than 1280×720. The measurements are exact
rationals here, so that a run can be computed.
-/

namespace RemotePlay.Host

open Lib

/-- No dimension and no bitrate above the other profile's. -/
structure QualityProfile.Within (p p' : QualityProfile) : Prop where
  bitrate : p.bitrateKbps ≤ p'.bitrateKbps
  width : p.width ≤ p'.width
  height : p.height ≤ p'.height

namespace EncoderManager

/-- The profile in force. -/
def profile (m : EncoderManager) : QualityProfile := m.getProfileForTier m.currentTier

/-- The end of `UpdatePerformanceMetrics`, whatever the measurements have led to. -/
def adjustWhen (m : EncoderManager) (lib : FFmpeg) (needsDowngrade : Bool) (now : UInt64)
    (selection : Selection) : EncoderManager :=
  if now - m.lastAdjustmentTime < 5000 then m
  else if needsDowngrade then
    let m := if m.currentTier ≠ .recovery then m.setState .degraded else m
    { m.adjustTier lib false selection with lastAdjustmentTime := now }
  else m

theorem adjustQuality_eq (m : EncoderManager) (lib : FFmpeg) (i : MetricsInput) :
    m.adjustQuality lib i =
      m.adjustWhen lib (m.needsDowngrade i.clientDecodeTimeMs) i.now i.selection := rfl

/-! ## Size and tier -/

/-- The captured size and the tier, on which the profile depends. -/
structure SameProfile (m m' : EncoderManager) : Prop where
  baseWidth : m'.baseWidth = m.baseWidth
  baseHeight : m'.baseHeight = m.baseHeight
  tier : m'.currentTier = m.currentTier

theorem SameProfile.refl (m : EncoderManager) : SameProfile m m := ⟨rfl, rfl, rfl⟩

theorem SameProfile.trans {m m' m'' : EncoderManager} (h : SameProfile m m')
    (h' : SameProfile m' m'') : SameProfile m m'' :=
  ⟨h'.baseWidth.trans h.baseWidth, h'.baseHeight.trans h.baseHeight, h'.tier.trans h.tier⟩

theorem SameProfile.getProfileForTier {m m' : EncoderManager} (h : SameProfile m m')
    (tier : QualityTier) : m'.getProfileForTier tier = m.getProfileForTier tier := by
  cases tier <;> simp only [EncoderManager.getProfileForTier, h.baseWidth, h.baseHeight]

theorem setState_same (m : EncoderManager) (newState : StreamingState) :
    SameProfile m (m.setState newState) := by
  rw [setState_eq]
  exact ⟨rfl, rfl, rfl⟩

theorem selectAndInitEncoder_same (m : EncoderManager) (lib : FFmpeg) (selection : Selection) :
    SameProfile m (m.selectAndInitEncoder lib selection).2 := by
  cases hchosen : m.chosen with
  | none =>
    rw [selectAndInitEncoder_none hchosen]
    exact .refl m
  | some chosen =>
    obtain ⟨codecName, backend⟩ := chosen
    rcases selectAndInitEncoder_some hchosen lib selection with
      ⟨codec, -, hsel⟩ | ⟨-, capabilities, -, hsel⟩
    · rw [hsel]
      exact ⟨rfl, rfl, rfl⟩
    · rw [hsel, emergencyEncoderFallback_eq]
      exact ⟨rfl, rfl, rfl⟩

/-- A lost tier, and nothing else that the profile depends on. -/
theorem adjustTier_same (m : EncoderManager) (lib : FFmpeg) (selection : Selection) :
    SameProfile { m with currentTier := m.currentTier.reduced }
      (m.adjustTier lib false selection) := by
  simp only [adjustTier, Bool.false_eq_true, if_false]
  split
  · split
    · exact ⟨rfl, rfl, rfl⟩
    · exact selectAndInitEncoder_same _ lib selection
  · exact ⟨rfl, rfl, rfl⟩

/-- Losing a tier raises nothing, except for a session that is smaller than the third tier. -/
theorem reduced_within_iff (m : EncoderManager) (tier : QualityTier) :
    (m.getProfileForTier tier.reduced).Within (m.getProfileForTier tier) ↔
      (tier = .balanced → 1280 ≤ m.baseWidth ∧ 720 ≤ m.baseHeight) := by
  cases tier with
  | highPerformance =>
    exact iff_of_true ⟨show (8000 : Int) ≤ 15000 by decide, le_rfl, le_rfl⟩ (by rintro ⟨⟩)
  | balanced =>
    constructor
    · rintro ⟨-, hwidth, hheight⟩ -
      exact ⟨hwidth, hheight⟩
    · intro h
      exact ⟨show (4000 : Int) ≤ 8000 by decide, (h rfl).1, (h rfl).2⟩
  | lowEnd =>
    refine iff_of_true ⟨?_, ?_, ?_⟩ (by rintro ⟨⟩)
    · exact show (1500 : Int) ≤ 4000 by decide
    · exact show (854 : Int) ≤ 1280 by decide
    · exact show (480 : Int) ≤ 720 by decide
  | recovery => exact iff_of_true ⟨le_rfl, le_rfl, le_rfl⟩ (by rintro ⟨⟩)

/-- `AdjustTier(false)` is called. -/
def downgrades (m : EncoderManager) (needsDowngrade : Bool) (now : UInt64) : Bool :=
  !decide (now - m.lastAdjustmentTime < 5000) && needsDowngrade

theorem adjustWhen_same (m : EncoderManager) (lib : FFmpeg) (needsDowngrade : Bool) (now : UInt64)
    (selection : Selection) :
    SameProfile { m with
        currentTier := if m.downgrades needsDowngrade now then m.currentTier.reduced
          else m.currentTier }
      (m.adjustWhen lib needsDowngrade now selection) := by
  unfold adjustWhen downgrades
  by_cases hrecent : now - m.lastAdjustmentTime < 5000
  · simp only [hrecent, if_true, decide_true, Bool.not_true, Bool.false_and, Bool.false_eq_true,
      if_false]
    exact ⟨rfl, rfl, rfl⟩
  · cases needsDowngrade with
    | false =>
      simp only [hrecent, if_false, Bool.and_false, Bool.false_eq_true]
      exact ⟨rfl, rfl, rfl⟩
    | true =>
      simp only [hrecent, if_false, decide_false, Bool.not_false, Bool.and_true, if_true]
      have hdegrade : SameProfile m
          (if m.currentTier ≠ .recovery then m.setState .degraded else m) := by
        split
        · exact setState_same m _
        · exact .refl m
      have hlost := adjustTier_same (if m.currentTier ≠ .recovery then m.setState .degraded else m)
        lib selection
      exact ⟨hlost.baseWidth.trans hdegrade.baseWidth, hlost.baseHeight.trans hdegrade.baseHeight,
        hlost.tier.trans (congrArg QualityTier.reduced hdegrade.tier)⟩

theorem adjustWhen_within_iff (m : EncoderManager) (lib : FFmpeg) (needsDowngrade : Bool)
    (now : UInt64) (selection : Selection) :
    (m.adjustWhen lib needsDowngrade now selection).profile.Within m.profile ↔
      (m.downgrades needsDowngrade now = true ∧ m.currentTier = .balanced →
        1280 ≤ m.baseWidth ∧ 720 ≤ m.baseHeight) := by
  have hsame := adjustWhen_same m lib needsDowngrade now selection
  have hprofile : (m.adjustWhen lib needsDowngrade now selection).profile =
      m.getProfileForTier (if m.downgrades needsDowngrade now then m.currentTier.reduced
        else m.currentTier) := by
    unfold profile
    rw [hsame.tier, hsame.getProfileForTier]
    rfl
  rw [hprofile]
  cases m.downgrades needsDowngrade now with
  | false => exact iff_of_true ⟨le_rfl, le_rfl, le_rfl⟩ (by rintro ⟨⟨⟩, -⟩)
  | true =>
    simp only [if_true, true_and]
    exact reduced_within_iff m m.currentTier

theorem initializeManager_same (m : EncoderManager) (lib : FFmpeg) (i : InitializeInput) :
    SameProfile (m.beginSession lib i) (m.initializeManager lib i).2 := by
  cases hfirst : firstPassing lib i with
  | none =>
    obtain ⟨capabilities, -, hinit⟩ := initializeManager_none hfirst m
    rw [hinit, setState_eq]
    exact ⟨rfl, rfl, rfl⟩
  | some codecName =>
    obtain ⟨capabilities, backendIndex, hinit⟩ := initializeManager_some hfirst m
    rw [hinit]
    have hlock : SameProfile (m.beginSession lib i)
        ((m.beginSession lib i).lockSession capabilities backendIndex codecName) := by
      rw [lockSession_eq]
      exact ⟨rfl, rfl, rfl⟩
    exact (hlock.trans (selectAndInitEncoder_same _ lib _)).trans (setState_same _ _)

end EncoderManager

/-! ## Runs of `UpdatePerformanceMetrics` -/

/-- A call of `UpdatePerformanceMetrics`. -/
structure Measurements where
  frameDropRate : ℚ
  avgEncodeTimeMs : ℚ
  clientDecodeTimeMs : ℚ
  targetBitrateKbps : Int
  decision : AdaptationDecision
  now : UInt64
  selection : Selection

/-- A manager with the measurements that it keeps. -/
structure Measured where
  manager : EncoderManager
  lastFrameDropRate : ℚ
  lastAvgEncodeTimeMs : ℚ

namespace Measured

/-- A manager that has been initialised. -/
def start (m : EncoderManager) (lib : FFmpeg) (init : InitializeInput) : Measured :=
  ⟨(m.initializeManager lib init).2, 0, 0⟩

/-- The measurements, with those kept for what a call leaves out. -/
def receive (q : Measured) (i : Measurements) : Measured where
  manager := if i.targetBitrateKbps > 0 then q.manager.setBitrate i.targetBitrateKbps
    else q.manager
  lastFrameDropRate := if i.frameDropRate ≥ 0 then i.frameDropRate else q.lastFrameDropRate
  lastAvgEncodeTimeMs :=
    if i.avgEncodeTimeMs ≥ 0 then i.avgEncodeTimeMs else q.lastAvgEncodeTimeMs

/-- The time is more than four fifths of a frame's; with no frames per second a frame has all the
time there is. -/
def overBudget (fps : Int) (timeMs : ℚ) : Bool := fps ≠ 0 && timeMs > 1000 / fps * (8 / 10)

def needsDowngrade (q : Measured) (clientDecodeTimeMs : ℚ) : Bool :=
  q.lastFrameDropRate > 1 / 10 || overBudget q.manager.fps q.lastAvgEncodeTimeMs ||
    (clientDecodeTimeMs > 0 && overBudget q.manager.fps clientDecodeTimeMs)

def step (lib : FFmpeg) (q : Measured) (i : Measurements) : Measured :=
  let q := q.receive i
  let m := if i.decision.setsBitrate then q.manager.setBitrate i.decision.targetBitrateKbps
    else q.manager
  { q with manager := m.adjustWhen lib (q.needsDowngrade i.clientDecodeTimeMs) i.now i.selection }

/-- The profile is not raised in the step. -/
def NotRaised (lib : FFmpeg) (q : Measured) (i : Measurements) : Prop :=
  (q.step lib i).manager.profile.Within q.manager.profile

/-- The step calls `AdjustTier(false)` in the second tier. -/
def LosesBalanced (q : Measured) (i : Measurements) : Prop :=
  q.manager.downgrades ((q.receive i).needsDowngrade i.clientDecodeTimeMs) i.now = true ∧
    q.manager.currentTier = .balanced

/-- The captured size is the one that the session was initialised with. -/
def HasSize (init : InitializeInput) (q : Measured) : Prop :=
  q.manager.baseWidth = init.initialWidth ∧ q.manager.baseHeight = init.height

theorem hasSize_start (m : EncoderManager) (lib : FFmpeg) (init : InitializeInput) :
    HasSize init (start m lib init) := by
  have hsame := EncoderManager.initializeManager_same m lib init
  rw [EncoderManager.beginSession_eq] at hsame
  exact ⟨hsame.baseWidth, hsame.baseHeight⟩

/-- What the step passes on to the adjustment is the manager, but for the bitrate. -/
theorem step_adjustWhen (lib : FFmpeg) (q : Measured) (i : Measurements) :
    ∃ encoder, (q.step lib i).manager =
      ({ q.manager with encoder } : EncoderManager).adjustWhen lib
        ((q.receive i).needsDowngrade i.clientDecodeTimeMs) i.now i.selection := by
  have hreceive : ∃ encoder, (q.receive i).manager = { q.manager with encoder } := by
    unfold receive
    dsimp only
    split
    · exact ⟨_, rfl⟩
    · exact ⟨_, rfl⟩
  obtain ⟨encoder, hreceive⟩ := hreceive
  unfold step
  dsimp only
  rw [hreceive]
  split
  · exact ⟨_, rfl⟩
  · exact ⟨_, rfl⟩

theorem notRaised_iff {init : InitializeInput} {q : Measured} (h : HasSize init q) (lib : FFmpeg)
    (i : Measurements) :
    q.NotRaised lib i ↔
      (q.LosesBalanced i → 1280 ≤ init.initialWidth ∧ 720 ≤ init.height) := by
  obtain ⟨encoder, hstep⟩ := step_adjustWhen lib q i
  unfold NotRaised LosesBalanced
  rw [hstep, ← h.1, ← h.2]
  exact EncoderManager.adjustWhen_within_iff _ lib _ i.now i.selection

theorem HasSize.step {init : InitializeInput} {q : Measured} (h : HasSize init q) (lib : FFmpeg)
    (i : Measurements) : HasSize init (q.step lib i) := by
  obtain ⟨encoder, hstep⟩ := step_adjustWhen lib q i
  have hsame := EncoderManager.adjustWhen_same { q.manager with encoder } lib
    ((q.receive i).needsDowngrade i.clientDecodeTimeMs) i.now i.selection
  unfold HasSize
  rw [hstep, hsame.baseWidth, hsame.baseHeight]
  exact h

/-- No larger than the captured size. -/
def WithinSize (init : InitializeInput) (q : Measured) : Prop :=
  q.manager.profile.width ≤ init.initialWidth ∧ q.manager.profile.height ≤ init.height

theorem withinSize_start (m : EncoderManager) (lib : FFmpeg) (init : InitializeInput) :
    WithinSize init (start m lib init) := by
  have hsame := EncoderManager.initializeManager_same m lib init
  have hprofile : (start m lib init).manager.profile =
      ⟨init.initialWidth, init.height, 15000, 2⟩ := by
    unfold EncoderManager.profile start
    rw [hsame.tier, hsame.getProfileForTier, EncoderManager.beginSession_eq]
    rfl
  unfold WithinSize
  rw [hprofile]
  exact ⟨le_rfl, le_rfl⟩

theorem WithinSize.step {init : InitializeInput} {q : Measured} (h : WithinSize init q)
    {lib : FFmpeg} {i : Measurements} (hraised : q.NotRaised lib i) :
    WithinSize init (q.step lib i) :=
  ⟨hraised.width.trans h.1, hraised.height.trans h.2⟩

/-- **Losing a tier raises nothing** just when the session is no smaller than the third tier, or the
run never loses the second one. Then the encoder is never started at more than the captured size. -/
theorem notRaised_run_iff (m : EncoderManager) (lib : FFmpeg) (init : InitializeInput)
    (calls : List Measurements) :
    (Along (step lib) (NotRaised lib) (start m lib init) calls ↔
      (1280 ≤ init.initialWidth ∧ 720 ≤ init.height) ∨
        Along (step lib) (fun q i => ¬ q.LosesBalanced i) (start m lib init) calls) ∧
    (Along (step lib) (NotRaised lib) (start m lib init) calls →
      ∀ calls', calls' <+: calls →
        (run (step lib) (start m lib init) calls').manager.profile.width ≤ init.initialWidth ∧
        (run (step lib) (start m lib init) calls').manager.profile.height ≤ init.height) := by
  constructor
  · -- The condition for one step, at the size that the whole run has.
    have hstep : ∀ q i, HasSize init q → HasSize init (step lib q i) := fun q i h => h.step lib i
    have hexact : Along (step lib) (NotRaised lib) (start m lib init) calls ↔
        Along (step lib) (fun q i => q.LosesBalanced i → 1280 ≤ init.initialWidth ∧
          720 ≤ init.height) (start m lib init) calls :=
      along_congr hstep (fun q i h => notRaised_iff h lib i) (hasSize_start m lib init) calls
    rw [hexact]
    by_cases hsize : 1280 ≤ init.initialWidth ∧ 720 ≤ init.height
    · simp only [hsize, and_self, implies_true, true_or, iff_true]
      exact along_of_always (fun _ _ => trivial) _ _
    · simp only [hsize, imp_false, false_or]
  · rintro hall calls' ⟨more, rfl⟩
    have hstep : ∀ q i, WithinSize init q → NotRaised lib q i → WithinSize init (step lib q i) :=
      fun q i h hraised => h.step hraised
    exact run_invariant hstep (withinSize_start m lib init) (along_append.mp hall).1

/-- A monitor of 640×480, and an encoder that every codec opens. -/
def smallInit : InitializeInput :=
  ⟨640, 480, 30, true, fun _ => true, fun _ => true, ⟨true, true⟩⟩

/-- Half of the frames are dropped. -/
def halfDropped (now : UInt64) : Measurements :=
  ⟨1 / 2, 0, 0, 0, ⟨.maintain, 0⟩, now, ⟨true, true⟩⟩

def small : Measured := start .new EncoderManager.nvencBuild smallInit

/-- The session once it has lost a tier. -/
def smallBalanced : Measured := small.step EncoderManager.nvencBuild (halfDropped 5000)

/-- The second lost tier enlarges the stream. -/
theorem small_enlarged :
    (0 < smallInit.initialWidth ∧ 0 < smallInit.height) ∧
    smallBalanced.manager.profile.width = 640 ∧
    (smallBalanced.step EncoderManager.nvencBuild (halfDropped 10000)).manager.profile.width =
      1280 ∧
    ¬ Along (step EncoderManager.nvencBuild) (NotRaised EncoderManager.nvencBuild) small
      [halfDropped 5000, halfDropped 10000] := by
  have hbefore : smallBalanced.manager.profile.width = 640 := by decide +kernel
  have hafter : (smallBalanced.step EncoderManager.nvencBuild
      (halfDropped 10000)).manager.profile.width = 1280 := by decide +kernel
  refine ⟨by decide, hbefore, hafter, ?_⟩
  rintro ⟨-, hraised, -⟩
  have hwidth : (smallBalanced.step EncoderManager.nvencBuild
      (halfDropped 10000)).manager.profile.width ≤ smallBalanced.manager.profile.width :=
    hraised.width
  rw [hbefore, hafter] at hwidth
  exact absurd hwidth (by decide)

end Measured

end RemotePlay.Host
