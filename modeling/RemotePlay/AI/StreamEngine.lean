import RemotePlay.AI.LatencyPredictor
import RemotePlay.Host.EncoderManager

/-!
# StreamEngine

`Analyze` throttles at once when heavy loss or a long round trip is predicted.
Otherwise it acts at most every two seconds: it reduces the bitrate when the
prediction is worse than the state, raises it when the network is good, and
then a change of resolution takes the decision's place where the bitrate calls
for one. Floats are exact rationals.
-/

namespace RemotePlay.AI

open Host

structure StreamState where
  currentBitrateKbps : Int
  currentWidth : Int
  currentHeight : Int
  currentFPS : Int
  packetLoss : ℚ
  rttMs : ℚ
  sceneComplexity : ℚ

/-- The decision with the data that the manager only logs. -/
structure StreamDecision extends AdaptationDecision where
  targetWidth : Int
  targetHeight : Int
  targetFPS : Int
  reason : String

structure StreamEngine where
  lastActionTime : UInt64

/-- The cast to `int`. -/
def truncate (q : ℚ) : Int := if 0 ≤ q then ⌊q⌋ else ⌈q⌉

namespace StreamEngine

def actionCooldownMs : UInt64 := 2000

/-- The decision to leave everything as it is. -/
def maintain (state : StreamState) : StreamDecision where
  action := .maintain
  targetBitrateKbps := state.currentBitrateKbps
  targetWidth := state.currentWidth
  targetHeight := state.currentHeight
  targetFPS := state.currentFPS
  reason := ""

/-- High loss or a high round-trip time is predicted. -/
def isEmergency (prediction : LatencyPrediction) : Bool :=
  prediction.predictedLossRate > 15 / 100 || prediction.predictedRttMs > 250

def emergency (state : StreamState) : StreamDecision where
  action := .emergencyThrottle
  targetBitrateKbps := max 500 (truncate (state.currentBitrateKbps * (1 / 2)))
  targetWidth := 854
  targetHeight := 480
  targetFPS := 30
  reason := "Critical network congestion predicted"

/-- The bitrate for the motion in the scene. -/
def idealBitrate (state : StreamState) : Int :=
  truncate (state.currentBitrateKbps * (1 + state.sceneComplexity * (1 / 2)))

/-- The change of the bitrate, with the time of the action. -/
def adaptBitrate (engine : StreamEngine) (now : UInt64) (state : StreamState)
    (prediction : LatencyPrediction) : StreamEngine × StreamDecision :=
  if prediction.predictedLossRate > 2 / 100 ∨ prediction.predictedRttMs > state.rttMs * (6 / 5) then
    (⟨now⟩,
      { maintain state with
        action := .decreaseBitrate
        targetBitrateKbps := truncate (state.currentBitrateKbps * (4 / 5))
        reason := "Predicted latency spike or packet loss" })
  else if prediction.predictedLossRate < 5 / 1000 ∧ prediction.predictedRttMs < 50 ∧
      state.packetLoss < 1 / 1000 then
    if state.currentBitrateKbps < 30000 then
      (⟨now⟩,
        { maintain state with
          action := .increaseBitrate
          targetBitrateKbps := min 30000 (idealBitrate state)
          reason := "Stable network, motion-aware quality increase" })
    else (engine, maintain state)
  else (engine, maintain state)

/-- The resolution that the bitrate of the decision calls for, if it is another one. -/
def scaleResolution (state : StreamState) (decision : StreamDecision) : StreamDecision :=
  if decision.targetBitrateKbps < 2500 ∧ state.currentWidth > 854 then
    { decision with
      action := .decreaseResolution
      targetWidth := 854
      targetHeight := 480
      targetFPS := 30 }
  else if decision.targetBitrateKbps > 12000 ∧ state.currentWidth < 3840 ∧
      state.currentWidth ≥ 1920 then
    { decision with
      action := .increaseResolution
      targetWidth := 3840
      targetHeight := 2160 }
  else if decision.targetBitrateKbps > 6000 ∧ state.currentWidth < 1920 then
    { decision with
      action := .increaseResolution
      targetWidth := 1920
      targetHeight := 1080
      targetFPS := 60 }
  else decision

def analyze (engine : StreamEngine) (now : UInt64) (state : StreamState)
    (prediction : LatencyPrediction) : StreamEngine × StreamDecision :=
  if isEmergency prediction then (⟨now⟩, emergency state)
  else if now - engine.lastActionTime < actionCooldownMs then (engine, maintain state)
  else
    let (engine, decision) := engine.adaptBitrate now state prediction
    (engine, scaleResolution state decision)

end StreamEngine

end RemotePlay.AI
