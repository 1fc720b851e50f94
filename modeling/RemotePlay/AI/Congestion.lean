import RemotePlay.AI.StreamEngine

/-!
# Decisions under congestion

When congestion is predicted the engine throttles, or reduces the bitrate. The
emergency throttle sets a bitrate and a size of its own, whatever they were,
and behind the reduction the resolution is still scaled up where what is left
of the bitrate is a lot for the width. `noUpgrade_iff` says for which states
nothing is raised.
-/

namespace RemotePlay.AI

open Host

/-- Loss above 0.02 is predicted, or a round trip above 1.2 times the current one. -/
def Congested (state : StreamState) (prediction : LatencyPrediction) : Prop :=
  prediction.predictedLossRate > 2 / 100 ∨ prediction.predictedRttMs > state.rttMs * (6 / 5)

/-- Nothing is to be raised. -/
structure NoUpgrade (state : StreamState) (d : StreamDecision) : Prop where
  action : d.action = .maintain ∨ d.action = .decreaseBitrate ∨ d.action = .decreaseResolution ∨
    d.action = .emergencyThrottle
  bitrate : d.targetBitrateKbps ≤ state.currentBitrateKbps
  width : d.targetWidth ≤ state.currentWidth
  height : d.targetHeight ≤ state.currentHeight

/-! ## The reduced bitrate -/

theorem truncate_of_nonneg {q : ℚ} (h : 0 ≤ q) : truncate q = ⌊q⌋ := if_pos h

/-- Four fifths of the bitrate, cut off. -/
def fourFifths (bitrateKbps : Int) : Int := truncate (bitrateKbps * (4 / 5))

theorem le_fourFifths {bitrateKbps : Int} (h : 0 ≤ bitrateKbps) (n : Int) :
    n ≤ fourFifths bitrateKbps ↔ 5 * n ≤ 4 * bitrateKbps := by
  have hcast : (0 : ℚ) ≤ bitrateKbps := by exact_mod_cast h
  rw [fourFifths, truncate_of_nonneg (by positivity), Int.le_floor]
  constructor
  · intro hle
    have hle' : (5 * n : ℚ) ≤ 4 * bitrateKbps := by linarith
    exact_mod_cast hle'
  · intro hle
    have hle' : (5 * n : ℚ) ≤ 4 * bitrateKbps := by exact_mod_cast hle
    linarith

/-- Cutting off raises what is below zero. -/
theorem fourFifths_le_iff (bitrateKbps : Int) :
    fourFifths bitrateKbps ≤ bitrateKbps ↔ 0 ≤ bitrateKbps := by
  constructor
  · intro hle
    by_contra hneg
    have hcast : (bitrateKbps : ℚ) < 0 := by exact_mod_cast not_le.mp hneg
    have hceil : fourFifths bitrateKbps = ⌈(bitrateKbps * (4 / 5) : ℚ)⌉ :=
      if_neg (by linarith)
    have hle' : (bitrateKbps * (4 / 5) : ℚ) ≤ bitrateKbps :=
      (Int.le_ceil _).trans (by exact_mod_cast hceil ▸ hle)
    linarith
  · intro h
    by_contra hlt
    have hle := (le_fourFifths h (bitrateKbps + 1)).mp (not_le.mp hlt)
    omega

theorem half_le {bitrateKbps : Int} (h : 0 ≤ bitrateKbps) :
    truncate (bitrateKbps * (1 / 2)) ≤ bitrateKbps := by
  have hcast : (0 : ℚ) ≤ bitrateKbps := by exact_mod_cast h
  rw [truncate_of_nonneg (by positivity)]
  have hfloor : (⌊(bitrateKbps * (1 / 2) : ℚ)⌋ : ℚ) ≤ bitrateKbps :=
    (Int.floor_le _).trans (by linarith)
  exact_mod_cast hfloor

/-! ## Where nothing is raised -/

/-- The state is not below what the throttle sets. -/
def AboveThrottle (state : StreamState) : Prop :=
  500 ≤ state.currentBitrateKbps ∧ 854 ≤ state.currentWidth ∧ 480 ≤ state.currentHeight

/-- What is left of the bitrate calls for no higher resolution, and the lower one, where it is
called for, is not a taller one. -/
structure Settled (state : StreamState) : Prop where
  bitrate : 0 ≤ state.currentBitrateKbps
  small : state.currentBitrateKbps < 3125 → 854 < state.currentWidth → 480 ≤ state.currentHeight
  middle : ¬ (7502 ≤ state.currentBitrateKbps ∧ state.currentWidth < 1920)
  large : ¬ (15002 ≤ state.currentBitrateKbps ∧ 1920 ≤ state.currentWidth ∧
    state.currentWidth < 3840)

theorem noUpgrade_emergency_iff (state : StreamState) :
    NoUpgrade state (StreamEngine.emergency state) ↔ AboveThrottle state := by
  constructor
  · rintro ⟨-, hbitrate, hwidth, hheight⟩
    exact ⟨(le_max_left _ _).trans hbitrate, hwidth, hheight⟩
  · rintro ⟨hbitrate, hwidth, hheight⟩
    exact ⟨.inr (.inr (.inr rfl)), max_le hbitrate (half_le (by omega)), hwidth, hheight⟩

theorem noUpgrade_maintain (state : StreamState) :
    NoUpgrade state (StreamEngine.maintain state) :=
  ⟨.inl rfl, le_rfl, le_rfl, le_rfl⟩

/-- The reduction of the bitrate, before the resolution is looked at. -/
def reduction (state : StreamState) : StreamDecision :=
  { StreamEngine.maintain state with
    action := .decreaseBitrate
    targetBitrateKbps := fourFifths state.currentBitrateKbps
    reason := "Predicted latency spike or packet loss" }

theorem scaleResolution_bitrate (state : StreamState) (d : StreamDecision) :
    (StreamEngine.scaleResolution state d).targetBitrateKbps = d.targetBitrateKbps := by
  unfold StreamEngine.scaleResolution
  split_ifs <;> rfl

theorem noUpgrade_reduction_iff (state : StreamState) :
    NoUpgrade state (StreamEngine.scaleResolution state (reduction state)) ↔ Settled state := by
  by_cases h0 : 0 ≤ state.currentBitrateKbps
  swap
  · refine iff_of_false (fun h => ?_) fun h => h0 h.bitrate
    have hbitrate := h.bitrate
    rw [scaleResolution_bitrate] at hbitrate
    exact h0 ((fourFifths_le_iff _).mp hbitrate)
  have hle := (fourFifths_le_iff _).mpr h0
  have h2500 := le_fourFifths h0 2500
  have h6001 := le_fourFifths h0 6001
  have h12001 := le_fourFifths h0 12001
  have hreduction : (reduction state).targetBitrateKbps = fourFifths state.currentBitrateKbps := rfl
  unfold StreamEngine.scaleResolution
  rw [hreduction]
  split_ifs with hsmall hlarge hmiddle
  · constructor
    · intro h
      have hheight : 480 ≤ state.currentHeight := h.height
      exact ⟨h0, fun _ _ => hheight, by omega, by omega⟩
    · intro h
      have hheight := h.small (by omega) hsmall.2
      exact ⟨.inr (.inr (.inl rfl)), hle, hsmall.2.le, hheight⟩
  · refine iff_of_false (fun h => ?_) fun h => h.large ⟨by omega, hlarge.2.2, hlarge.2.1⟩
    rcases h.action with h | h | h | h <;> cases h
  · refine iff_of_false (fun h => ?_) fun h => h.middle ⟨by omega, hmiddle.2⟩
    rcases h.action with h | h | h | h <;> cases h
  · refine iff_of_true ⟨.inr (.inl rfl), hle, le_rfl, le_rfl⟩ ⟨h0, ?_, ?_, ?_⟩
    · intro hcur hwidth
      exact absurd ⟨by omega, hwidth⟩ hsmall
    · rintro ⟨hcur, hwidth⟩
      exact hmiddle ⟨by omega, hwidth⟩
    · rintro ⟨hcur, hwidth, hwidth'⟩
      exact hlarge ⟨by omega, hwidth', hwidth⟩

/-- The engine is cooling down. -/
def StreamEngine.Cooling (engine : StreamEngine) (now : UInt64) : Prop :=
  now - engine.lastActionTime < StreamEngine.actionCooldownMs

/-- **Nothing is raised under predicted congestion** just when the emergency throttle, if it comes
to it, is below the state, and otherwise the engine is cooling down or what is left of the bitrate
calls for no higher resolution. -/
theorem noUpgrade_iff (engine : StreamEngine) (now : UInt64) {state : StreamState}
    {prediction : LatencyPrediction} (h : Congested state prediction) :
    NoUpgrade state (engine.analyze now state prediction).2 ↔
      (StreamEngine.isEmergency prediction = true → AboveThrottle state) ∧
      (StreamEngine.isEmergency prediction = false → ¬ engine.Cooling now → Settled state) := by
  unfold StreamEngine.analyze
  cases hemergency : StreamEngine.isEmergency prediction with
  | true => simpa using noUpgrade_emergency_iff state
  | false =>
    by_cases hcooling : engine.Cooling now
    · have hcooling' : now - engine.lastActionTime < StreamEngine.actionCooldownMs := hcooling
      simpa [hcooling, hcooling'] using noUpgrade_maintain state
    · have hcooling' : ¬ now - engine.lastActionTime < StreamEngine.actionCooldownMs := hcooling
      have hreduced : (engine.adaptBitrate now state prediction).2 = reduction state := by
        unfold Congested at h
        rw [StreamEngine.adaptBitrate, if_pos h]
        rfl
      simp only [hcooling, hcooling', Bool.false_eq_true, if_false, false_imp_iff, true_and,
        not_false_eq_true, true_imp_iff, hreduced]
      exact noUpgrade_reduction_iff state

/-- A client that is shown 1280 by 720 at 8000 kbps, when loss of 0.05 is predicted. -/
def narrow : StreamState := ⟨8000, 1280, 720, 60, 0, 30, 0⟩

def lossy : LatencyPrediction := ⟨30, 2, 1 / 20, 1⟩

theorem congested_narrow : Congested narrow lossy := .inl (by norm_num [lossy])

/-- The theorem at a state for which nothing is raised. -/
theorem noUpgrade_modest :
    NoUpgrade ⟨5000, 1920, 1080, 60, 0, 30, 0⟩
      ((StreamEngine.analyze ⟨0⟩ 2000 ⟨5000, 1920, 1080, 60, 0, 30, 0⟩ lossy).2) :=
  (noUpgrade_iff ⟨0⟩ 2000 (.inl (by norm_num [lossy]))).mpr
    ⟨fun h => absurd h (by norm_num [StreamEngine.isEmergency, lossy]),
      fun _ _ => ⟨by decide, by decide, by decide, by decide⟩⟩

/-- The engine asks for 1920 by 1080. -/
theorem narrow_upgraded :
    Congested narrow lossy ∧
    (StreamEngine.analyze ⟨0⟩ 2000 narrow lossy).2.action = .increaseResolution ∧
    (StreamEngine.analyze ⟨0⟩ 2000 narrow lossy).2.targetWidth = 1920 ∧
    ¬ NoUpgrade narrow (StreamEngine.analyze ⟨0⟩ 2000 narrow lossy).2 := by
  have hrate : truncate 6400 = 6400 := by norm_num [truncate]
  have hcooling : ¬ (2000 : UInt64) < StreamEngine.actionCooldownMs := by decide
  have hdecision : (StreamEngine.analyze ⟨0⟩ 2000 narrow lossy).2 =
      ⟨⟨.increaseResolution, 6400⟩, 1920, 1080, 60, "Predicted latency spike or packet loss"⟩ := by
    norm_num [StreamEngine.analyze, StreamEngine.isEmergency, lossy, narrow, hcooling,
      StreamEngine.adaptBitrate, StreamEngine.scaleResolution, StreamEngine.maintain, hrate]
  refine ⟨congested_narrow, by rw [hdecision], by rw [hdecision], fun h => ?_⟩
  have hwidth := h.width
  rw [hdecision] at hwidth
  revert hwidth
  decide

end RemotePlay.AI
