import RemotePlay.AI.StreamEngine
import RemotePlay.Lib.Run

/-!
# The cooldown between decisions

The engine notes the time when it throttles or changes the bitrate, and for two
seconds from then on it decides on nothing but a throttle. A change of the
resolution that comes without a change of the bitrate is a decision too, and
leaves the timer as it is, so that the next decision may follow at once.
-/

namespace RemotePlay.AI

open Lib Host

/-- A call of `Analyze` with the reading of the clock. -/
structure Analysis where
  now : UInt64
  state : StreamState
  prediction : LatencyPrediction

/-- An engine with the clock, and with what it forgets of its decisions. -/
structure Paced where
  engine : StreamEngine
  /-- The last reading of the clock, at first the constructor's. -/
  clock : UInt64
  /-- When it last decided on anything but to maintain. -/
  lastDecision : Option UInt64

namespace Paced

def start (made : UInt64) : Paced := ⟨⟨made⟩, made, none⟩

def decision (s : Paced) (a : Analysis) : StreamDecision :=
  (s.engine.analyze a.now a.state a.prediction).2

def step (s : Paced) (a : Analysis) : Paced where
  engine := (s.engine.analyze a.now a.state a.prediction).1
  clock := a.now
  lastDecision := if (s.decision a).action = .maintain then s.lastDecision else some a.now

/-- The clock does not go back. -/
def Monotone (s : Paced) (a : Analysis) : Prop := s.clock ≤ a.now

/-- A decision that is no throttle comes two seconds after the one before. -/
def Spaced (s : Paced) (a : Analysis) : Prop :=
  (s.decision a).action ≠ .maintain → (s.decision a).action ≠ .emergencyThrottle →
    ∀ t ∈ s.lastDecision, t.toNat + 2000 ≤ a.now.toNat

end Paced

/-! ## What a call does -/

namespace Analysis

/-- The bitrate stage changes the bitrate. -/
def ChangesBitrate (a : Analysis) : Prop :=
  (a.prediction.predictedLossRate > 2 / 100 ∨
    a.prediction.predictedRttMs > a.state.rttMs * (6 / 5)) ∨
  (a.prediction.predictedLossRate < 5 / 1000 ∧ a.prediction.predictedRttMs < 50 ∧
    a.state.packetLoss < 1 / 1000) ∧ a.state.currentBitrateKbps < 30000

/-- The bitrate as it is calls for another resolution. -/
def CallsForResolution (a : Analysis) : Prop :=
  (a.state.currentBitrateKbps < 2500 ∧ a.state.currentWidth > 854) ∨
  (a.state.currentBitrateKbps > 12000 ∧ a.state.currentWidth < 3840 ∧
    a.state.currentWidth ≥ 1920) ∨
  (a.state.currentBitrateKbps > 6000 ∧ a.state.currentWidth < 1920)

/-- No throttle is called for, and the timer lets the engine decide. -/
def Due (a : Analysis) (engine : StreamEngine) : Prop :=
  StreamEngine.isEmergency a.prediction = false ∧
    ¬ a.now - engine.lastActionTime < StreamEngine.actionCooldownMs

/-- Only the resolution is to be changed. -/
def ResolutionOnly (a : Analysis) (engine : StreamEngine) : Prop :=
  a.Due engine ∧ ¬ a.ChangesBitrate ∧ a.CallsForResolution

end Analysis

/-- A decision that is neither to maintain nor to throttle. -/
def StreamDecision.Adapts (d : StreamDecision) : Prop :=
  d.action ≠ .maintain ∧ d.action ≠ .emergencyThrottle

inductive Called (s : Paced) (a : Analysis) : Prop where
  | throttle (action : (s.decision a).action = .emergencyThrottle)
      (engine : (s.step a).engine = ⟨a.now⟩) (emergency : ¬ a.Due s.engine)
  | keep (action : (s.decision a).action = .maintain) (engine : (s.step a).engine = s.engine)
      (quiet : ¬ (a.Due s.engine ∧ (a.ChangesBitrate ∨ a.CallsForResolution)))
  | bitrate (action : (s.decision a).Adapts) (engine : (s.step a).engine = ⟨a.now⟩)
      (due : a.Due s.engine) (changes : a.ChangesBitrate)
  | resolution (action : (s.decision a).Adapts) (engine : (s.step a).engine = s.engine)
      (only : a.ResolutionOnly s.engine)

theorem adapts_of_eq {d : StreamDecision} (action : AdaptationAction) (h : d.action = action)
    (haction : action ≠ .maintain ∧ action ≠ .emergencyThrottle) : d.Adapts := by
  rw [← h] at haction
  exact haction

theorem adapts_scaleResolution {state : StreamState} {d : StreamDecision} (h : d.Adapts) :
    (StreamEngine.scaleResolution state d).Adapts := by
  unfold StreamEngine.scaleResolution
  split_ifs
  · exact adapts_of_eq .decreaseResolution rfl (by decide)
  · exact adapts_of_eq .increaseResolution rfl (by decide)
  · exact adapts_of_eq .increaseResolution rfl (by decide)
  · exact h

/-- What the bitrate stage leaves as it is. -/
theorem adaptBitrate_cases (engine : StreamEngine) (a : Analysis) :
    (a.ChangesBitrate ∧ (engine.adaptBitrate a.now a.state a.prediction).1 = ⟨a.now⟩ ∧
      (engine.adaptBitrate a.now a.state a.prediction).2.Adapts) ∨
    (¬ a.ChangesBitrate ∧ engine.adaptBitrate a.now a.state a.prediction =
      (engine, StreamEngine.maintain a.state)) := by
  unfold StreamEngine.adaptBitrate Analysis.ChangesBitrate
  split_ifs with hworse hgood hroom
  · exact .inl ⟨.inl hworse, rfl, adapts_of_eq .decreaseBitrate rfl (by decide)⟩
  · exact .inl ⟨.inr ⟨hgood, hroom⟩, rfl, adapts_of_eq .increaseBitrate rfl (by decide)⟩
  · exact .inr ⟨fun h => h.elim hworse fun h => hroom h.2, rfl⟩
  · exact .inr ⟨fun h => h.elim hworse fun h => hgood h.1, rfl⟩

theorem scaleResolution_maintain (a : Analysis) :
    (a.CallsForResolution ∧
      (StreamEngine.scaleResolution a.state (StreamEngine.maintain a.state)).Adapts) ∨
    (¬ a.CallsForResolution ∧
      StreamEngine.scaleResolution a.state (StreamEngine.maintain a.state) =
        StreamEngine.maintain a.state) := by
  have hrate : (StreamEngine.maintain a.state).targetBitrateKbps = a.state.currentBitrateKbps := rfl
  unfold StreamEngine.scaleResolution Analysis.CallsForResolution
  rw [hrate]
  split_ifs with hsmall hlarge hmiddle
  · exact .inl ⟨.inl hsmall, adapts_of_eq .decreaseResolution rfl (by decide)⟩
  · exact .inl ⟨.inr (.inl hlarge), adapts_of_eq .increaseResolution rfl (by decide)⟩
  · exact .inl ⟨.inr (.inr hmiddle), adapts_of_eq .increaseResolution rfl (by decide)⟩
  · exact .inr ⟨fun h => h.elim hsmall fun h => h.elim hlarge hmiddle, rfl⟩

theorem called (s : Paced) (a : Analysis) : Called s a := by
  have hdecision : s.decision a = (s.engine.analyze a.now a.state a.prediction).2 := rfl
  have hengine : (s.step a).engine = (s.engine.analyze a.now a.state a.prediction).1 := rfl
  unfold StreamEngine.analyze at hdecision hengine
  cases hemergency : StreamEngine.isEmergency a.prediction with
  | true =>
    rw [hemergency] at hdecision hengine
    refine .throttle (by rw [hdecision]; rfl) hengine fun hdue => ?_
    rw [hdue.1] at hemergency
    cases hemergency
  | false =>
    rw [hemergency] at hdecision hengine
    by_cases hcooling : a.now - s.engine.lastActionTime < StreamEngine.actionCooldownMs
    · simp only [hcooling, Bool.false_eq_true, if_false, if_true] at hdecision hengine
      exact .keep (by rw [hdecision]; rfl) hengine fun h => h.1.2 hcooling
    · simp only [hcooling, Bool.false_eq_true, if_false] at hdecision hengine
      have hdue : a.Due s.engine := ⟨hemergency, hcooling⟩
      rcases adaptBitrate_cases s.engine a with ⟨hchanges, hnow, hadapts⟩ | ⟨hchanges, hsame⟩
      · exact .bitrate (hdecision ▸ adapts_scaleResolution hadapts) (hengine.trans hnow) hdue
          hchanges
      · rw [hsame] at hdecision hengine
        rcases scaleResolution_maintain a with ⟨hcalls, hadapts⟩ | ⟨hcalls, hmaintain⟩
        · exact .resolution (hdecision ▸ hadapts) hengine ⟨hdue, hchanges, hcalls⟩
        · refine .keep ?_ hengine fun h => h.2.elim hchanges hcalls
          rw [hdecision, hmaintain]
          rfl

/-! ## The timer and the last decision -/

/-- The last decision is where the timer stands, or came without it, two seconds later at least. -/
structure Timed (s : Paced) : Prop where
  timer : s.engine.lastActionTime ≤ s.clock
  last : ∀ t ∈ s.lastDecision, t ≤ s.clock ∧
    (t = s.engine.lastActionTime ∨ s.engine.lastActionTime.toNat + 2000 ≤ t.toNat)

theorem due_iff {a : Analysis} {engine : StreamEngine} (hle : engine.lastActionTime ≤ a.now) :
    a.Due engine ↔ StreamEngine.isEmergency a.prediction = false ∧
      engine.lastActionTime.toNat + 2000 ≤ a.now.toNat := by
  have hcooldown : StreamEngine.actionCooldownMs.toNat = 2000 := rfl
  have hle' := UInt64.le_iff_toNat_le.mp hle
  rw [Analysis.Due, UInt64.lt_iff_toNat_lt, UInt64.toNat_sub_of_le _ _ hle, hcooldown]
  exact and_congr_right' (by omega)

theorem lastDecision_of_ne {s : Paced} {a : Analysis} (h : (s.decision a).action ≠ .maintain) :
    (s.step a).lastDecision = some a.now := if_neg h

theorem lastDecision_of_maintain {s : Paced} {a : Analysis}
    (h : (s.decision a).action = .maintain) : (s.step a).lastDecision = s.lastDecision := if_pos h

theorem Timed.step {s : Paced} (h : Timed s) {a : Analysis} (ha : s.Monotone a) :
    Timed (s.step a) := by
  have hclock : (s.step a).clock = a.now := rfl
  have htimer : s.engine.lastActionTime ≤ a.now := UInt64.le_trans h.timer ha
  cases called s a with
  | throttle action engine emergency =>
    refine ⟨by rw [engine, hclock]; exact UInt64.le_refl _, fun t ht => ?_⟩
    rw [lastDecision_of_ne (by rw [action]; decide)] at ht
    cases ht
    exact ⟨UInt64.le_refl _, .inl (by rw [engine])⟩
  | bitrate action engine due changes =>
    refine ⟨by rw [engine, hclock]; exact UInt64.le_refl _, fun t ht => ?_⟩
    rw [lastDecision_of_ne action.1] at ht
    cases ht
    exact ⟨UInt64.le_refl _, .inl (by rw [engine])⟩
  | keep action engine quiet =>
    refine ⟨by rw [engine, hclock]; exact htimer, fun t ht => ?_⟩
    rw [lastDecision_of_maintain action] at ht
    rw [engine, hclock]
    exact ⟨UInt64.le_trans (h.last t ht).1 ha, (h.last t ht).2⟩
  | resolution action engine only =>
    refine ⟨by rw [engine, hclock]; exact htimer, fun t ht => ?_⟩
    rw [lastDecision_of_ne action.1] at ht
    cases ht
    rw [engine]
    exact ⟨UInt64.le_refl _, .inr ((due_iff htimer).mp only.1).2⟩

theorem timed_start (made : UInt64) : Timed (Paced.start made) :=
  ⟨UInt64.le_refl _, fun _ ht => by cases ht⟩

/-- A decision is due, the last one left the timer as it was, and was less than two seconds ago. -/
def Overdue (s : Paced) (a : Analysis) : Prop :=
  a.Due s.engine ∧ (a.ChangesBitrate ∨ a.CallsForResolution) ∧
    ∃ t ∈ s.lastDecision, t ≠ s.engine.lastActionTime ∧ a.now.toNat < t.toNat + 2000

theorem adapts_iff (s : Paced) (a : Analysis) :
    (s.decision a).Adapts ↔ a.Due s.engine ∧ (a.ChangesBitrate ∨ a.CallsForResolution) := by
  cases called s a with
  | throttle action engine emergency =>
    exact iff_of_false (fun h => h.2 action) fun h => emergency h.1
  | keep action engine quiet => exact iff_of_false (fun h => h.1 action) quiet
  | bitrate action engine due changes => exact iff_of_true action ⟨due, .inl changes⟩
  | resolution action engine only => exact iff_of_true action ⟨only.1, .inr only.2.2⟩

theorem spaced_iff {s : Paced} (h : Timed s) {a : Analysis} (ha : s.Monotone a) :
    s.Spaced a ↔ ¬ Overdue s a := by
  have htimer : s.engine.lastActionTime ≤ a.now := UInt64.le_trans h.timer ha
  have hadapts := adapts_iff s a
  constructor
  · rintro hspaced ⟨hdue, hcalls, t, ht, -, hlt⟩
    obtain ⟨hmaintain, hthrottle⟩ := hadapts.mpr ⟨hdue, hcalls⟩
    exact absurd (hspaced hmaintain hthrottle t ht) (by omega)
  · intro hover hmaintain hthrottle t ht
    obtain ⟨hdue, hcalls⟩ := hadapts.mp ⟨hmaintain, hthrottle⟩
    by_contra hlt
    refine hover ⟨hdue, hcalls, t, ht, fun heq => ?_, by omega⟩
    have hlate := ((due_iff htimer).mp hdue).2
    rw [heq] at hlt
    exact hlt hlate

/-- Without changes of the resolution alone the timer stands at the last decision. -/
def AtLast (s : Paced) : Prop := ∀ t ∈ s.lastDecision, t = s.engine.lastActionTime

theorem AtLast.step {s : Paced} (h : AtLast s) {a : Analysis}
    (ha : ¬ a.ResolutionOnly s.engine) : AtLast (s.step a) := by
  intro t ht
  cases called s a with
  | throttle action engine emergency =>
    rw [lastDecision_of_ne (by rw [action]; decide)] at ht
    cases ht
    rw [engine]
  | bitrate action engine due changes =>
    rw [lastDecision_of_ne action.1] at ht
    cases ht
    rw [engine]
  | keep action engine quiet =>
    rw [lastDecision_of_maintain action] at ht
    rw [engine]
    exact h t ht
  | resolution action engine only => exact absurd only ha

/-- **Decisions keep their distance** just when none is due within two seconds of one that changed
the resolution alone; so they do where the resolution is never changed alone. -/
theorem cooldown_iff (made : UInt64) {calls : List Analysis}
    (hclock : Along Paced.step Paced.Monotone (Paced.start made) calls) :
    (Along Paced.step Paced.Spaced (Paced.start made) calls ↔
      Along Paced.step (fun s a => ¬ Overdue s a) (Paced.start made) calls) ∧
    (Along Paced.step (fun s a => ¬ a.ResolutionOnly s.engine) (Paced.start made) calls →
      Along Paced.step Paced.Spaced (Paced.start made) calls) := by
  have htimed : ∀ s a, Timed s → s.Monotone a → Timed (s.step a) := fun _ _ h ha => h.step ha
  have hiff : Along Paced.step Paced.Spaced (Paced.start made) calls ↔
      Along Paced.step (fun s a => ¬ Overdue s a) (Paced.start made) calls :=
    along_congr_of htimed (fun _ _ h ha => spaced_iff h ha) (timed_start made) hclock
  refine ⟨hiff, fun halone => hiff.mpr ?_⟩
  have hatLast : ∀ (s : Paced) (a : Analysis), AtLast s → ¬ a.ResolutionOnly s.engine →
      AtLast (s.step a) := fun _ _ h ha => h.step ha
  have hstart : AtLast (Paced.start made) := fun _ ht => by cases ht
  have hnever : Along Paced.step (fun _ _ => True) (Paced.start made) calls ↔
      Along Paced.step (fun s a => ¬ Overdue s a) (Paced.start made) calls :=
    along_congr_of hatLast (fun _ _ h _ => iff_of_true trivial fun hover => by
      obtain ⟨-, -, t, ht, hne, -⟩ := hover
      exact hne (h t ht)) hstart halone
  exact hnever.mp (along_of_forall fun _ _ => trivial)

/-! ## Two changes of the resolution -/

/-- Bitrate for a wide picture, and a network that is neither good nor bad. -/
def wide : StreamState := ⟨30000, 1920, 1080, 60, 0, 60, 0⟩

def steady : LatencyPrediction := ⟨60, 0, 0, 1⟩

/-- A throttle, and a millisecond less than two seconds later a quiet call. -/
def throttled : List Analysis :=
  [⟨5, wide, ⟨300, 0, 0, 1⟩⟩, ⟨2004, wide, steady⟩]

theorem cooldown_throttled :
    (Along Paced.step Paced.Spaced (Paced.start 0) throttled ↔
      Along Paced.step (fun s a => ¬ Overdue s a) (Paced.start 0) throttled) ∧
    (Along Paced.step (fun s a => ¬ a.ResolutionOnly s.engine) (Paced.start 0) throttled →
      Along Paced.step Paced.Spaced (Paced.start 0) throttled) :=
  cooldown_iff 0 ⟨show (0 : UInt64) ≤ 5 by decide, show (5 : UInt64) ≤ 2004 by decide, trivial⟩

theorem analyze_wide (now : UInt64) (h : StreamEngine.actionCooldownMs ≤ now) :
    StreamEngine.analyze ⟨0⟩ now wide steady =
      (⟨0⟩, ⟨⟨.increaseResolution, 30000⟩, 3840, 2160, 60, ""⟩) := by
  norm_num [StreamEngine.analyze, StreamEngine.isEmergency, steady, wide, h,
    StreamEngine.adaptBitrate, StreamEngine.scaleResolution, StreamEngine.maintain]

/-- The resolution is raised, and raised again a millisecond later. -/
theorem twice_wide :
    Along Paced.step Paced.Monotone (Paced.start 0) [⟨2000, wide, steady⟩, ⟨2001, wide, steady⟩] ∧
    ¬ Along Paced.step Paced.Spaced (Paced.start 0)
      [⟨2000, wide, steady⟩, ⟨2001, wide, steady⟩] := by
  have hfirst := analyze_wide 2000 (by decide)
  have hsecond := analyze_wide 2001 (by decide)
  have hstep : (Paced.start 0).step ⟨2000, wide, steady⟩ = ⟨⟨0⟩, 2000, some 2000⟩ := by
    simp only [Paced.step, Paced.decision, Paced.start, hfirst]
    rfl
  refine ⟨⟨show (0 : UInt64) ≤ 2000 by decide, show (2000 : UInt64) ≤ 2001 by decide, trivial⟩, ?_⟩
  rintro ⟨-, hspaced, -⟩
  rw [hstep] at hspaced
  have hlate := hspaced (by simp [Paced.decision, hsecond]) (by simp [Paced.decision, hsecond])
    2000 rfl
  revert hlate
  decide

end RemotePlay.AI
