import RemotePlay.AI.StreamEngine
import RemotePlay.Lib.Run

/-!
# Adaptation to feedback

The host feeds the round-trip time and the loss of every feedback packet to one
latency predictor, and hands its prediction to the stream engine of the client
that sent the packet. The state that the engine compares it with has the
round-trip time 0, so once the cooldown is over any prediction is worse than
the state (`analyze_steady`).
-/

namespace RemotePlay.Host

open Lib AI

/-- A feedback packet, as the host handles it. -/
structure Report where
  sessionId : UInt64
  rttMs : ℚ
  lossRate : ℚ
  /-- The clock when the packet is handled. -/
  timestamp : UInt64
  /-- The clock when the engine reads it. -/
  now : UInt64
  /-- The encoder manager of the client, as it then is. -/
  manager : EncoderManager
  lastEncodedSize : Nat

structure Adaptation where
  latencyPredictor : LatencyPredictor
  /-- The engine of each session's manager. -/
  streamEngine : UInt64 → StreamEngine

namespace EncoderManager

/-- How complex the scene is, by the size of the last frame. -/
def sceneComplexity (m : EncoderManager) (lastEncodedSize : Nat) : ℚ :=
  let bitsPerFrame : ℚ := m.getCurrentBitrate * 1000 / m.fps
  let bytesPerFrameBudget := bitsPerFrame / 8
  min 1 (max (1 / 10) (lastEncodedSize / (bytesPerFrameBudget * (3 / 2))))

/-- The state that `UpdatePerformanceMetrics` has analysed. -/
def aiState (m : EncoderManager) (lastEncodedSize : Nat) (frameDropRate : ℚ) : StreamState where
  currentBitrateKbps := m.getCurrentBitrate
  currentWidth := m.baseWidth
  currentHeight := m.baseHeight
  currentFPS := m.fps
  packetLoss := frameDropRate
  rttMs := 0
  sceneComplexity := m.sceneComplexity lastEncodedSize

end EncoderManager

namespace Adaptation

/-- The host's predictor, and the engines with the times at which they were made. -/
def start (made : UInt64 → UInt64) : Adaptation := ⟨.new 100, fun sessionId => ⟨made sessionId⟩⟩

def metrics (report : Report) : NetworkMetrics :=
  ⟨report.rttMs, 0, report.lossRate, report.timestamp⟩

/-- What the engine decides on the report. -/
def analyzed (a : Adaptation) (report : Report) : StreamEngine × StreamDecision :=
  let predictor := a.latencyPredictor.recordMetrics (metrics report)
  let prediction := predictor.predict 200
  (a.streamEngine report.sessionId).analyze report.now
    (report.manager.aiState report.lastEncodedSize report.lossRate) prediction

def decision (a : Adaptation) (report : Report) : StreamDecision := (a.analyzed report).2

def step (a : Adaptation) (report : Report) : Adaptation where
  latencyPredictor := a.latencyPredictor.recordMetrics (metrics report)
  streamEngine sessionId :=
    if sessionId = report.sessionId then (a.analyzed report).1 else a.streamEngine sessionId

end Adaptation

/-! ## A steady network -/

/-- With a fifth less than the bitrate of its tier, the client is to get another resolution. -/
def EncoderManager.Resized (m : EncoderManager) : Prop :=
  match m.currentTier with
  | .highPerformance | .balanced => m.baseWidth < 1920
  | .lowEnd => False
  | .recovery => 854 < m.baseWidth

theorem reduced_bitrate (m : EncoderManager) :
    truncate ((m.getCurrentBitrate : ℚ) * (4 / 5)) =
      match m.currentTier with
      | .highPerformance => 12000
      | .balanced => 6400
      | .lowEnd => 3200
      | .recovery => 1200 := by
  unfold EncoderManager.getCurrentBitrate EncoderManager.getProfileForTier
  cases m.currentTier <;> norm_num [truncate]

/-- The engine is still cooling down, or the decision becomes a change of resolution. -/
def Adaptation.Spared (a : Adaptation) (report : Report) : Prop :=
  report.now - (a.streamEngine report.sessionId).lastActionTime < StreamEngine.actionCooldownMs ∨
    report.manager.Resized

/-- The engine decides on less bitrate, or on much less. -/
def Punishing (d : StreamDecision) : Prop :=
  d.action = .decreaseBitrate ∨ d.action = .emergencyThrottle

section
variable {m : EncoderManager} {lastEncodedSize : Nat} {frameDropRate : ℚ}

theorem scaleResolution_punishing {d : StreamDecision} (haction : d.action = .decreaseBitrate)
    (hrate : d.targetBitrateKbps = truncate ((m.getCurrentBitrate : ℚ) * (4 / 5))) :
    Punishing (StreamEngine.scaleResolution (m.aiState lastEncodedSize frameDropRate) d) ↔
      ¬m.Resized := by
  rw [reduced_bitrate] at hrate
  unfold Punishing StreamEngine.scaleResolution EncoderManager.Resized
  simp only [EncoderManager.aiState, hrate]
  cases m.currentTier with
  | highPerformance => by_cases hw : m.baseWidth < 1920 <;> simp [hw, haction]
  | balanced => by_cases hw : m.baseWidth < 1920 <;> simp [hw, haction]
  | lowEnd => simp [haction]
  | recovery => by_cases hw : 854 < m.baseWidth <;> simp [hw, haction]

/-- Any round-trip time above 0 is worse than that of the state. -/
theorem analyze_steady {rtt : ℚ} (hpos : 0 < rtt) (hlow : rtt < 50)
    {prediction : LatencyPrediction} (hrtt : prediction.predictedRttMs = rtt)
    (hloss : prediction.predictedLossRate = 0) (engine : StreamEngine) (now : UInt64) :
    Punishing (engine.analyze now (m.aiState lastEncodedSize frameDropRate) prediction).2 ↔
      ¬(now - engine.lastActionTime < StreamEngine.actionCooldownMs ∨ m.Resized) := by
  have hcalm : StreamEngine.isEmergency prediction = false := by
    simp only [StreamEngine.isEmergency, hrtt, hloss, Bool.or_eq_false_iff, decide_eq_false_iff_not]
    constructor
    · norm_num
    · linarith
  have hworse : prediction.predictedLossRate > 2 / 100 ∨
      prediction.predictedRttMs > (m.aiState lastEncodedSize frameDropRate).rttMs * (6 / 5) := by
    refine .inr ?_
    show prediction.predictedRttMs > 0 * (6 / 5)
    rw [hrtt, zero_mul]
    exact hpos
  rw [StreamEngine.analyze, hcalm, if_neg Bool.false_ne_true]
  by_cases hcool : now - engine.lastActionTime < StreamEngine.actionCooldownMs
  · rw [if_pos hcool]
    refine iff_of_false ?_ (not_not.mpr (.inl hcool))
    rintro (h | h) <;> cases h
  · rw [if_neg hcool, StreamEngine.adaptBitrate, if_pos hworse, not_or, and_iff_right hcool]
    exact scaleResolution_punishing rfl rfl

end

namespace Adaptation

/-- Only the round-trip time `rtt` has been reported, without loss. -/
def SteadyReport (rtt : ℚ) (report : Report) : Prop := report.rttMs = rtt ∧ report.lossRate = 0

theorem step_steady {rtt : ℚ} {a : Adaptation} {report : Report}
    (h : a.latencyPredictor.Steady rtt) (hreport : SteadyReport rtt report) :
    (a.step report).latencyPredictor.Steady rtt :=
  (LatencyPredictor.recordMetrics_steady h hreport.1 hreport.2).1

theorem decision_steady {rtt : ℚ} (hpos : 0 < rtt) (hlow : rtt < 50) {a : Adaptation}
    {report : Report} (h : a.latencyPredictor.Steady rtt) (hreport : SteadyReport rtt report) :
    ¬Punishing (a.decision report) ↔ a.Spared report := by
  have hrtt : (metrics report).rttMs = rtt := hreport.1
  have hloss : (metrics report).packetLossRate = 0 := hreport.2
  obtain ⟨hrecorded, hne⟩ := LatencyPredictor.recordMetrics_steady h hrtt hloss
  obtain ⟨hpredicted, hnoLoss⟩ := LatencyPredictor.predict_steady hrecorded hne hpos.le 200
  exact (not_congr (analyze_steady hpos hlow hpredicted hnoLoss _ _)).trans not_not

/-- **When a steady network is not punished.** While every report has the same round-trip time,
between 0 and 50 ms, and no loss, the engine keeps from reducing the bitrate just when every
report comes within the cooldown or has the decision turned into a change of resolution. -/
theorem steady_not_punished_iff {rtt : ℚ} (hpos : 0 < rtt) (hlow : rtt < 50)
    (made : UInt64 → UInt64) {reports : List Report}
    (h : ∀ report ∈ reports, SteadyReport rtt report) :
    Along step (fun a report => ¬Punishing (a.decision report)) (start made) reports ↔
      Along step Spared (start made) reports := by
  have hstart : (start made).latencyPredictor.Steady rtt :=
    LatencyPredictor.new_steady (by decide) rtt
  have hstep : ∀ (a : Adaptation) (report : Report), a.latencyPredictor.Steady rtt →
      SteadyReport rtt report → (a.step report).latencyPredictor.Steady rtt :=
    fun _ _ => step_steady
  exact along_congr_of hstep (fun _ _ => decision_steady hpos hlow) hstart (along_of_forall h)

/-- The first report, 2 s after the client has joined: 20 ms and no loss. -/
def firstReport : Report := ⟨1, 20, 0, 2000, 2000, .new, 0⟩

/-- Reports of two clients, of which the last one comes after the cooldown. -/
def steadyReports : List Report :=
  [⟨1, 20, 0, 500, 500, .new, 0⟩, ⟨2, 20, 0, 900, 900, .new, 0⟩, ⟨1, 20, 0, 1500, 1500, .new, 0⟩,
    ⟨2, 20, 0, 2900, 2900, .new, 0⟩]

theorem steady_not_punished_iff_four :
    ((0 : ℚ) < 20 ∧ (20 : ℚ) < 50 ∧ ∀ report ∈ steadyReports, SteadyReport 20 report) ∧
      (Along step (fun a report => ¬Punishing (a.decision report)) (start fun _ => 0)
          steadyReports ↔
        Along step Spared (start fun _ => 0) steadyReports) := by
  have hsteady : ∀ report ∈ steadyReports, SteadyReport 20 report := by
    simp [steadyReports, SteadyReport]
  exact ⟨⟨by norm_num, by norm_num, hsteady⟩,
    steady_not_punished_iff (by norm_num) (by norm_num) (fun _ => 0) hsteady⟩

/-- It costs the client a fifth of its bitrate. -/
theorem firstReport_punished :
    SteadyReport 20 firstReport ∧
      ((start fun _ => 0).decision firstReport).action = .decreaseBitrate ∧
      ((start fun _ => 0).decision firstReport).targetBitrateKbps = 12000 := by
  refine ⟨⟨rfl, rfl⟩, ?_, ?_⟩ <;> decide +kernel

end Adaptation

end RemotePlay.Host
