import Mathlib.Data.List.Basic

/-!
# The input predictor

`InputPredictor` keeps the last samples and extrapolates linearly from two of
them. The arithmetic is that of doubles; only the two samples go into it, so
what a prediction depends on is the sample just recorded and the one before it.
-/

namespace RemotePlay.AI

structure InputSample where
  x : Int32
  y : Int32
  timestamp : UInt64
  deriving DecidableEq, Repr

structure InputPredictor where
  historySize : Nat
  history : List InputSample
  deriving DecidableEq, Repr

namespace InputPredictor

def new : InputPredictor := ⟨10, []⟩

def recordInput (p : InputPredictor) (x y : Int32) (timestamp : UInt64) : InputPredictor :=
  let history := p.history ++ [⟨x, y, timestamp⟩]
  { p with history := if history.length > p.historySize then history.drop 1 else history }

/-- The cast of a double to a 32-bit integer, as the processor does it: towards zero, and to the
smallest number what does not fit. -/
def castInt32 (d : Float) : Int32 :=
  if d.isNaN then Int32.minValue
  else if d < 0 then
    if (-d).toUInt64 ≤ 0x80000000 then Int32.ofInt (-(-d).toUInt64.toNat) else Int32.minValue
  else if d.toUInt64 < 0x80000000 then Int32.ofInt d.toUInt64.toNat else Int32.minValue

/-- Linear extrapolation based on two samples. -/
def extrapolate (s1 s2 : InputSample) (targetTimestamp : UInt64) : InputSample :=
  if s1.timestamp = s2.timestamp then ⟨s2.x, s2.y, targetTimestamp⟩
  else
    let dt := (targetTimestamp - s2.timestamp).toFloat
    let vdt := (s2.timestamp - s1.timestamp).toFloat
    let vx := Float.ofInt (s2.x - s1.x).toInt / vdt
    let vy := Float.ofInt (s2.y - s1.y).toInt / vdt
    ⟨s2.x + castInt32 (vx * dt), s2.y + castInt32 (vy * dt), targetTimestamp⟩

def predict (p : InputPredictor) (targetTimestamp : UInt64) : InputSample :=
  match p.history.reverse with
  | [] => ⟨0, 0, targetTimestamp⟩
  | [s] => ⟨s.x, s.y, targetTimestamp⟩
  | s2 :: s1 :: _ => extrapolate s1 s2 targetTimestamp

/-- The prediction behind a sample `s2`, if `last` was the sample before it. -/
def predictFrom (last : Option InputSample) (s2 : InputSample) (targetTimestamp : UInt64) :
    InputSample :=
  match last with
  | none => ⟨s2.x, s2.y, targetTimestamp⟩
  | some s1 => extrapolate s1 s2 targetTimestamp

section
variable {p : InputPredictor} (x y : Int32) (timestamp : UInt64)

@[simp] theorem historySize_recordInput :
    (p.recordInput x y timestamp).historySize = p.historySize := rfl

/-- What is dropped is not the sample before the new one. -/
theorem history_recordInput (h : 1 < p.historySize) : ∃ older,
    (p.recordInput x y timestamp).history = older ++ [⟨x, y, timestamp⟩] ∧
      older.getLast? = p.history.getLast? := by
  unfold recordInput
  dsimp only
  split
  · next hlen =>
    rw [List.length_append, List.length_singleton] at hlen
    match hp : p.history with
    | [] =>
      rw [hp, List.length_nil] at hlen
      omega
    | [s] =>
      rw [hp, List.length_singleton] at hlen
      omega
    | _ :: s :: rest => exact ⟨s :: rest, rfl, List.getLast?_cons_cons.symm⟩
  · exact ⟨p.history, rfl, rfl⟩

theorem getLast?_recordInput (h : 1 < p.historySize) :
    (p.recordInput x y timestamp).history.getLast? = some ⟨x, y, timestamp⟩ := by
  obtain ⟨older, hhistory, -⟩ := history_recordInput x y timestamp h
  rw [hhistory, List.getLast?_concat]

/-- A prediction depends on the sample just recorded and the one before it. -/
theorem predict_recordInput (h : 1 < p.historySize) (targetTimestamp : UInt64) :
    (p.recordInput x y timestamp).predict targetTimestamp =
      predictFrom p.history.getLast? ⟨x, y, timestamp⟩ targetTimestamp := by
  obtain ⟨older, hhistory, hlast⟩ := history_recordInput x y timestamp h
  rw [← hlast, predict, hhistory, List.reverse_concat]
  rcases List.eq_nil_or_concat older with rfl | ⟨older, s1, rfl⟩
  · rfl
  · rw [List.concat_eq_append, List.reverse_concat, List.getLast?_concat]
    rfl

end

/-- Two samples 10 μs apart, and 10 μs on. -/
example : ((new.recordInput 100 100 1000).recordInput 110 110 1010).predict 1020 =
    ⟨120, 120, 1020⟩ := by
  decide +kernel

end InputPredictor

end RemotePlay.AI
