import Mathlib.Data.Rat.Floor
import Mathlib.Tactic.FieldSimp
import Mathlib.Tactic.Ring

/-!
# LatencyPredictor

The predictor keeps the last measurements of the network and smooths them
exponentially; a prediction extends the smoothed value along the slope of the
last five. Floats are read as exact rationals. While nothing but one round-trip
time without loss is measured, the smoothed values stay there and every slope
is zero (`predict_steady`).
-/

namespace RemotePlay.AI

structure NetworkMetrics where
  rttMs : ℚ
  jitterMs : ℚ
  packetLossRate : ℚ
  timestamp : UInt64

structure LatencyPrediction where
  predictedRttMs : ℚ
  predictedJitterMs : ℚ
  predictedLossRate : ℚ
  confidenceScore : ℚ

structure LatencyPredictor where
  historySize : Nat
  rttHistory : List ℚ
  jitterHistory : List ℚ
  lossHistory : List ℚ
  timestampHistory : List UInt64
  rttEwma : ℚ
  jitterEwma : ℚ
  lossEwma : ℚ

/-- The sums that a line is fitted from. -/
structure TrendSums where
  x : ℚ
  y : ℚ
  xy : ℚ
  xx : ℚ

def TrendSums.add (sums : TrendSums) (x y : ℚ) : TrendSums :=
  ⟨sums.x + x, sums.y + y, sums.xy + x * y, sums.xx + x * x⟩

namespace LatencyPredictor

def alphaFast : ℚ := 3 / 10
def alphaSlow : ℚ := 1 / 10

def new (historySize : Nat) : LatencyPredictor := ⟨historySize, [], [], [], [], 0, 0, 0⟩

/-- The histories with one more measurement, the oldest gone when there are too many. -/
def remember (predictor : LatencyPredictor) (metrics : NetworkMetrics) : LatencyPredictor :=
  let predictor :=
    { predictor with
      rttHistory := predictor.rttHistory ++ [metrics.rttMs]
      jitterHistory := predictor.jitterHistory ++ [metrics.jitterMs]
      lossHistory := predictor.lossHistory ++ [metrics.packetLossRate]
      timestampHistory := predictor.timestampHistory ++ [metrics.timestamp] }
  if predictor.rttHistory.length > predictor.historySize then
    { predictor with
      rttHistory := predictor.rttHistory.tail
      jitterHistory := predictor.jitterHistory.tail
      lossHistory := predictor.lossHistory.tail
      timestampHistory := predictor.timestampHistory.tail }
  else predictor

def ewma (alpha value smoothed : ℚ) : ℚ := alpha * value + (1 - alpha) * smoothed

def recordMetrics (predictor : LatencyPredictor) (metrics : NetworkMetrics) : LatencyPredictor :=
  let predictor := predictor.remember metrics
  if predictor.rttHistory.length = 1 then
    { predictor with
      rttEwma := metrics.rttMs
      jitterEwma := metrics.jitterMs
      lossEwma := metrics.packetLossRate }
  else
    { predictor with
      rttEwma := ewma alphaFast metrics.rttMs predictor.rttEwma
      jitterEwma := ewma alphaFast metrics.jitterMs predictor.jitterEwma
      lossEwma := ewma alphaSlow metrics.packetLossRate predictor.lossEwma }

/-- The slope of the last five values. -/
def calculateTrend (data : List ℚ) : ℚ :=
  if data.length < 5 then 0
  else
    let n : ℚ := 5
    let sums := (data.drop (data.length - 5)).zipIdx.foldl
      (fun sums point => sums.add (point.2 : ℚ) point.1) (⟨0, 0, 0, 0⟩ : TrendSums)
    (n * sums.xy - sums.x * sums.y) / (n * sums.xx - sums.x * sums.x)

def predict (predictor : LatencyPredictor) (lookaheadMs : UInt32) : LatencyPrediction :=
  if predictor.rttHistory.isEmpty then ⟨0, 0, 0, 0⟩
  else
    let rttTrend := calculateTrend predictor.rttHistory
    let jitterTrend := calculateTrend predictor.jitterHistory
    let lossTrend := calculateTrend predictor.lossHistory
    let lookahead : ℚ := lookaheadMs.toNat
    { predictedRttMs := max 0 (predictor.rttEwma + rttTrend * (lookahead / 100))
      predictedJitterMs := max 0 (predictor.jitterEwma + jitterTrend * (lookahead / 100))
      predictedLossRate := min 1 (max 0 (predictor.lossEwma + lossTrend * (lookahead / 100)))
      confidenceScore := max 0 (1 - lookahead / 1000) }

/-! ## A steady network -/

theorem ewma_self (alpha value : ℚ) : ewma alpha value value = value := by
  unfold ewma
  ring

theorem calculateTrend_const {data : List ℚ} {value : ℚ} (h : ∀ y ∈ data, y = value) :
    calculateTrend data = 0 := by
  unfold calculateTrend
  split
  · rfl
  · next hlen =>
    have hlast : data.drop (data.length - 5) = List.replicate 5 value := by
      refine List.eq_replicate_iff.mpr ⟨?_, fun y hy => h y (List.mem_of_mem_drop hy)⟩
      rw [List.length_drop]
      omega
    simp only [hlast, List.replicate, List.zipIdx_cons, List.zipIdx_nil, List.foldl_cons,
      List.foldl_nil, TrendSums.add]
    norm_num
    ring

/-- Only the round-trip time `rtt`, and no loss, has been measured. -/
structure Steady (rtt : ℚ) (predictor : LatencyPredictor) : Prop where
  historySize_pos : 0 < predictor.historySize
  rttHistory : ∀ y ∈ predictor.rttHistory, y = rtt
  lossHistory : ∀ y ∈ predictor.lossHistory, y = 0
  ewma : predictor.rttHistory ≠ [] → predictor.rttEwma = rtt ∧ predictor.lossEwma = 0

theorem new_steady {historySize : Nat} (h : 0 < historySize) (rtt : ℚ) :
    Steady rtt (new historySize) :=
  ⟨h, fun _ hy => absurd hy List.not_mem_nil, fun _ hy => absurd hy List.not_mem_nil,
    fun hne => absurd rfl hne⟩

/-- What a history holds after one more measurement. -/
theorem mem_remember {α : Type} {history : List α} {value y : α} {P : Prop} [Decidable P]
    (hy : y ∈ if P then (history ++ [value]).tail else history ++ [value]) :
    y ∈ history ∨ y = value := by
  have hmem : y ∈ history ++ [value] := by
    split at hy
    · exact List.mem_of_mem_tail hy
    · exact hy
  simpa using hmem

section
variable {rtt : ℚ} {predictor : LatencyPredictor} {metrics : NetworkMetrics}

theorem remember_eq (predictor : LatencyPredictor) (metrics : NetworkMetrics) :
    (predictor.remember metrics).rttHistory =
        (if predictor.rttHistory.length + 1 > predictor.historySize then
          (predictor.rttHistory ++ [metrics.rttMs]).tail
        else predictor.rttHistory ++ [metrics.rttMs]) ∧
      (predictor.remember metrics).lossHistory =
        (if predictor.rttHistory.length + 1 > predictor.historySize then
          (predictor.lossHistory ++ [metrics.packetLossRate]).tail
        else predictor.lossHistory ++ [metrics.packetLossRate]) ∧
      (predictor.remember metrics).historySize = predictor.historySize ∧
      (predictor.remember metrics).rttEwma = predictor.rttEwma ∧
      (predictor.remember metrics).lossEwma = predictor.lossEwma := by
  unfold remember
  simp only [List.length_append, List.length_singleton]
  split <;> exact ⟨rfl, rfl, rfl, rfl, rfl⟩

/-- The first measurement is the smoothed value; one that agrees with it leaves it there. -/
theorem recordMetrics_steady (h : Steady rtt predictor) (hrtt : metrics.rttMs = rtt)
    (hloss : metrics.packetLossRate = 0) :
    Steady rtt (predictor.recordMetrics metrics) ∧
      (predictor.recordMetrics metrics).rttHistory ≠ [] := by
  obtain ⟨hr, hl, hsize, hrttEwma, hlossEwma⟩ := remember_eq predictor metrics
  have hpos := h.historySize_pos
  have hne : (predictor.remember metrics).rttHistory ≠ [] := by
    rw [hr]
    split
    · next hlong =>
      intro hnil
      have hlen := congrArg List.length hnil
      rw [List.length_tail, List.length_append, List.length_singleton, List.length_nil] at hlen
      omega
    · simp
  have hrttAll : ∀ y ∈ (predictor.remember metrics).rttHistory, y = rtt := fun y hy => by
    rw [hr] at hy
    exact (mem_remember hy).elim (h.rttHistory y) (·.trans hrtt)
  have hlossAll : ∀ y ∈ (predictor.remember metrics).lossHistory, y = 0 := fun y hy => by
    rw [hl] at hy
    exact (mem_remember hy).elim (h.lossHistory y) (·.trans hloss)
  have hsize' : 0 < (predictor.remember metrics).historySize := hsize ▸ hpos
  unfold recordMetrics
  simp only
  split
  · exact ⟨⟨hsize', hrttAll, hlossAll, fun _ => ⟨hrtt, hloss⟩⟩, hne⟩
  · next hlen =>
    -- Longer than one, so something has been measured before.
    have hbefore : predictor.rttHistory ≠ [] := by
      intro hnil
      refine hlen ?_
      rw [hr, hnil, List.length_nil, Nat.zero_add, if_neg (by omega)]
      rfl
    obtain ⟨hr', hl'⟩ := h.ewma hbefore
    refine ⟨⟨hsize', hrttAll, hlossAll, fun _ => ⟨?_, ?_⟩⟩, hne⟩
    · show LatencyPredictor.ewma alphaFast metrics.rttMs _ = rtt
      rw [hrttEwma, hr', hrtt, ewma_self]
    · show LatencyPredictor.ewma alphaSlow metrics.packetLossRate _ = 0
      rw [hlossEwma, hl', hloss, ewma_self]

theorem predict_steady (h : Steady rtt predictor) (hne : predictor.rttHistory ≠ [])
    (hrtt : 0 ≤ rtt) (lookaheadMs : UInt32) :
    (predictor.predict lookaheadMs).predictedRttMs = rtt ∧
      (predictor.predict lookaheadMs).predictedLossRate = 0 := by
  obtain ⟨hr, hl⟩ := h.ewma hne
  have hempty : predictor.rttHistory.isEmpty = false := by simpa using hne
  simp only [predict, hempty, Bool.false_eq_true, if_false, calculateTrend_const h.rttHistory,
    calculateTrend_const h.lossHistory, hr, hl]
  constructor
  · simpa using hrtt
  · simp

end

end LatencyPredictor

end RemotePlay.AI
