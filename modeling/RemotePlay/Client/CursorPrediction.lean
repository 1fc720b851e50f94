import RemotePlay.Client.MouseCapture

/-!
# Cursor prediction

Both modes record their samples into one predictor: desktop mode a position,
game mode a movement. For the positions that are sent only the last sample
counts (`positions_eq`), so a movement gets into a position when the mode
changes, and only in the first event of desktop mode. `deltas_hidden_iff` says
for which sequences of modes no position depends on a relative movement.
-/

namespace RemotePlay.Client

open Lib Protocol AI

/-- How a raw mouse event is taken. -/
inductive MouseMode where
  | desktop
  | relative
  /-- A device that reports absolute positions, in game mode. -/
  | absoluteMove
  | absoluteStill
  deriving DecidableEq, Repr

def MouseInput.mode (e : MouseInput) : MouseMode :=
  if e.onDesktop then .desktop
  else if e.isAbsoluteRaw then if e.isMovement then .absoluteMove else .absoluteStill
  else .relative

/-- The same event, but for the delta if it is taken as a relative one. -/
def SameButDelta (e e' : MouseInput) : Prop :=
  e' = e ∨ e.mode = .relative ∧ ∃ x y, e' = { e with lLastX := x, lLastY := y }

/-- A position with the size of the screen that it is on. -/
abbrev Position := Int32 × Int32 × UInt32 × UInt32

def position? : InputEvent → Option Position
  | .mouseMove x y w h isRelative => if isRelative = 0 then some (x, y, w, h) else none
  | _ => none

/-- The absolute positions that are sent. -/
def positions (es : List MouseInput) : List Position :=
  (InputCapture.new.sent es).filterMap position?

/-! ## The last sample -/

namespace MouseInput

/-- A prediction that is outside of the window is not sent. -/
def within (prediction : InputSample) (w h : UInt32) : List Position :=
  if 0 ≤ prediction.x ∧ 0 ≤ prediction.y ∧ prediction.x ≤ w.toInt32 ∧ prediction.y ≤ h.toInt32 then
    [(prediction.x, prediction.y, w, h)]
  else []

/-- The position that an event sends, behind a last sample. -/
def shown (last : Option InputSample) (e : MouseInput) : List Position :=
  match e.mode with
  | .desktop =>
    within (InputPredictor.predictFrom last ⟨e.pt.1, e.pt.2, e.nowUs⟩ (e.nowUs + 16000))
      e.screenWidth e.screenHeight
  | .absoluteMove => [(e.lLastX, e.lLastY, e.screenWidth, e.screenHeight)]
  | .relative => []
  | .absoluteStill => []

/-- The last sample after an event. -/
def record (last : Option InputSample) (e : MouseInput) : Option InputSample :=
  if e.mode = .desktop then some ⟨e.pt.1, e.pt.2, e.nowUs⟩
  else if e.isMovement then some ⟨e.lLastX, e.lLastY, e.nowUs⟩
  else last

end MouseInput

def positionsFrom (last : Option InputSample) : List MouseInput → List Position
  | [] => []
  | e :: es => e.shown last ++ positionsFrom (e.record last) es

section
variable {s : InputCapture} {e : MouseInput}

theorem position?_click {ev : InputEvent} (h : ev ∈ e.clicks) : position? ev = none := by
  obtain ⟨btn, pressed, rfl⟩ | ⟨delta, rfl⟩ := InputCapture.eq_of_mem_clicks h
  · rfl
  · rfl

theorem positions_addToBatch (batch : MouseBatch) :
    (InputCapture.addToBatch batch e).2.filterMap position? = [] := by
  unfold InputCapture.addToBatch
  dsimp only
  split
  · rfl
  · rfl

theorem positions_handleMotion (h : 1 < s.inputPredictor.historySize) :
    (s.handleMotion e).2.filterMap position? = e.shown s.inputPredictor.history.getLast? := by
  rw [InputCapture.handleMotion_eq, MouseInput.shown, MouseInput.mode]
  split
  · unfold InputCapture.handleDesktop
    dsimp only
    rw [InputPredictor.predict_recordInput _ _ _ h, MouseInput.within]
    split
    · rfl
    · rfl
  · cases hmove : e.isMovement with
    | false => cases e.isAbsoluteRaw <;> rfl
    | true =>
      unfold InputCapture.handleGame
      cases e.isAbsoluteRaw with
      | true => rfl
      | false => exact positions_addToBatch s.mouseBatch

theorem getLast?_handleMotion (h : 1 < s.inputPredictor.historySize) :
    (s.handleMotion e).1.inputPredictor.history.getLast? =
      e.record s.inputPredictor.history.getLast? := by
  rw [InputCapture.handleMotion_eq, MouseInput.record, MouseInput.mode]
  split
  · exact InputPredictor.getLast?_recordInput _ _ _ h
  · cases hmove : e.isMovement with
    | false => cases e.isAbsoluteRaw <;> rfl
    | true =>
      unfold InputCapture.handleGame
      cases e.isAbsoluteRaw with
      | true => exact InputPredictor.getLast?_recordInput _ _ _ h
      | false => exact InputPredictor.getLast?_recordInput _ _ _ h

theorem historySize_step :
    (s.step e).inputPredictor.historySize = s.inputPredictor.historySize := by
  change (s.handleMotion e).1.inputPredictor.historySize = _
  rw [InputCapture.handleMotion_eq]
  split
  · rfl
  · split
    · unfold InputCapture.handleGame
      split
      · rfl
      · rfl
    · rfl

/-- The positions are those of the last sample. -/
theorem positions_sent (h : 1 < s.inputPredictor.historySize) (es : List MouseInput) :
    (s.sent es).filterMap position? = positionsFrom s.inputPredictor.history.getLast? es := by
  induction es generalizing s with
  | nil => rfl
  | cons e es ih =>
    have hclicks : e.clicks.filterMap position? = [] :=
      List.filterMap_eq_nil_iff.mpr fun _ hev => position?_click hev
    rw [InputCapture.sent, List.filterMap_append, ih (historySize_step.symm ▸ h), positionsFrom]
    change ((s.handleMotion e).2 ++ e.clicks).filterMap position? ++
      positionsFrom (s.handleMotion e).1.inputPredictor.history.getLast? es = _
    rw [List.filterMap_append, hclicks, List.append_nil, positions_handleMotion h,
      getLast?_handleMotion h]

end

theorem positions_eq (es : List MouseInput) : positions es = positionsFrom none es :=
  positions_sent (by decide) es

/-! ## Two runs -/

/-- The last event that may have been recorded is a relative one. -/
def LastIsDelta (past : List MouseMode) : Prop :=
  (past.filter (· ≠ .absoluteStill)).getLast? = some .relative

theorem not_lastIsDelta_nil : ¬ LastIsDelta [] := fun h => nomatch h

theorem lastIsDelta_concat (past : List MouseMode) (m : MouseMode) : LastIsDelta (past ++ [m]) ↔
    m = .relative ∨ m = .absoluteStill ∧ LastIsDelta past := by
  unfold LastIsDelta
  rw [List.filter_append]
  by_cases hstill : m = .absoluteStill
  · subst hstill
    simp
  · simp [hstill]

theorem mode_eq_relative_iff {e : MouseInput} :
    e.mode = .relative ↔ e.onDesktop = false ∧ e.isAbsoluteRaw = false := by
  unfold MouseInput.mode
  cases e.onDesktop <;> cases e.isAbsoluteRaw <;> cases e.isMovement <;> decide

theorem SameButDelta.mode_eq {e e' : MouseInput} (h : SameButDelta e e') : e'.mode = e.mode := by
  obtain rfl | ⟨hrel, x, y, rfl⟩ := h
  · rfl
  · rw [hrel]
    rw [mode_eq_relative_iff] at hrel ⊢
    exact hrel

section
variable {past : List MouseMode} {last last' : Option InputSample} {e e' : MouseInput}

theorem shown_congr (h : e.mode ≠ .desktop) : e.shown last' = e.shown last := by
  unfold MouseInput.shown
  cases hmode : e.mode with
  | desktop => exact absurd hmode h
  | relative => rfl
  | absoluteMove => rfl
  | absoluteStill => rfl

/-- Nothing but a delta keeps the last sample of the event before. -/
theorem record_congr (h : ¬ LastIsDelta (past ++ [e.mode])) (hpast : LastIsDelta past) :
    e.record last' = e.record last := by
  rw [lastIsDelta_concat, not_or, not_and] at h
  obtain ⟨hrel, hstill⟩ := h
  unfold MouseInput.record
  split
  · rfl
  · next hdesktop =>
    have hmove : e.isMovement = true := by
      by_contra hnot
      unfold MouseInput.mode at hrel hstill hdesktop
      grind
    rw [if_pos hmove, if_pos hmove]

/-- One event of two runs: the last sample stays the same, unless it is a delta. -/
theorem record_sameButDelta (hsame : SameButDelta e e') (hlast : LastIsDelta past ∨ last' = last) :
    LastIsDelta (past ++ [e.mode]) ∨ e'.record last' = e.record last := by
  obtain rfl | ⟨hrel, -⟩ := hsame
  · rw [or_iff_not_imp_left]
    intro hnot
    obtain hdelta | rfl := hlast
    · exact record_congr hnot hdelta
    · rfl
  · exact .inl ((lastIsDelta_concat past e.mode).mpr (.inl hrel))

theorem shown_sameButDelta (hsame : SameButDelta e e') (hlast : LastIsDelta past ∨ last' = last)
    (hpast : e.mode = .desktop → ¬ LastIsDelta past) : e'.shown last' = e.shown last := by
  have hmode : e'.mode = e.mode := hsame.mode_eq
  obtain rfl | ⟨hrel, -⟩ := hsame
  · obtain hdelta | rfl := hlast
    · exact shown_congr fun hdesktop => hpast hdesktop hdelta
    · rfl
  · rw [MouseInput.shown, MouseInput.shown, hmode, hrel]

end

theorem positionsFrom_congr (past : List MouseMode) {last last' : Option InputSample}
    {es es' : List MouseInput} (hsame : List.Forall₂ SameButDelta es es')
    (hlast : LastIsDelta past ∨ last' = last)
    (hmodes : ∀ past' rest, es.map MouseInput.mode = past' ++ .desktop :: rest →
      ¬ LastIsDelta (past ++ past')) : positionsFrom last' es' = positionsFrom last es := by
  induction hsame generalizing past last last' with
  | nil => rfl
  | @cons e e' es es' he _ ih =>
    have hfirst : e.mode = .desktop → ¬ LastIsDelta past := by
      intro hdesktop
      have h := hmodes [] (es.map MouseInput.mode) (by rw [List.map_cons, hdesktop]; rfl)
      rwa [List.append_nil] at h
    have hrest : ∀ past' rest, es.map MouseInput.mode = past' ++ .desktop :: rest →
        ¬ LastIsDelta (past ++ [e.mode] ++ past') := by
      intro past' rest heq
      rw [List.append_assoc]
      exact hmodes (e.mode :: past') rest (by rw [List.map_cons, heq]; rfl)
    rw [positionsFrom, positionsFrom, shown_sameButDelta he hlast hfirst,
      ih _ (record_sameButDelta he hlast) hrest]

/-! ## A delta in a position -/

/-- An event of a mode at time `t`, with the cursor in the corner, and with `dx` for its delta if
it is a relative one. -/
def MouseMode.event (dx : Int32) (t : UInt64) (m : MouseMode) : MouseInput where
  usFlags := if m = .absoluteMove ∨ m = .absoluteStill then 1 else 0
  usButtonFlags := 0
  usButtonData := 0
  lLastX := if m = .relative then dx else if m = .absoluteMove then 1 else 0
  lLastY := 0
  cursorInfo := some (if m = .desktop then 1 else 0)
  focused := true
  pt := (0, 0)
  rect := ⟨0, 0, 100, 100⟩
  nowUs := t
  now := t

theorem mode_event (dx : Int32) (t : UInt64) (m : MouseMode) : (m.event dx t).mode = m := by
  cases m <;> simp [MouseMode.event, MouseInput.mode, MouseInput.onDesktop,
    MouseInput.cursorVisible, MouseInput.isAbsoluteRaw, MouseInput.isMovement]

theorem sameButDelta_event (dx dx' : Int32) (t : UInt64) (m : MouseMode) :
    SameButDelta (m.event dx t) (m.event dx' t) := by
  cases m with
  | relative => exact .inr ⟨mode_event dx t .relative, dx', 0, rfl⟩
  | desktop => exact .inl rfl
  | absoluteMove => exact .inl rfl
  | absoluteStill => exact .inl rfl

/-- All that was recorded was recorded at time 0. -/
def AtZero (last : Option InputSample) : Prop := ∀ s1 ∈ last, s1.timestamp = 0

theorem AtZero.record {last : Option InputSample} (h : AtZero last) (dx : Int32) (m : MouseMode) :
    AtZero ((m.event dx 0).record last) := by
  unfold MouseInput.record
  split
  · exact fun s1 hs1 => (Option.some.inj hs1) ▸ rfl
  · split
    · exact fun s1 hs1 => (Option.some.inj hs1) ▸ rfl
    · exact h

theorem shown_desktop (last : Option InputSample) (dx : Int32) (t : UInt64) :
    (MouseMode.desktop.event dx t).shown last =
      MouseInput.within (InputPredictor.predictFrom last ⟨0, 0, t⟩ (t + 16000)) 100 100 := by
  have hsize : ((100 : Int32) - 0).toUInt32 = 100 := by decide
  rw [MouseInput.shown, mode_event, ← hsize]
  rfl

/-- Without time between them, two samples have no velocity. -/
theorem predictFrom_of_atZero {last : Option InputSample} (h : AtZero last) :
    InputPredictor.predictFrom last ⟨0, 0, 0⟩ (0 + 16000) = ⟨0, 0, 16000⟩ := by
  cases last with
  | none => rfl
  | some s1 => exact if_pos (h s1 rfl)

theorem shown_eq_of_atZero {last last' : Option InputSample} (h : AtZero last) (h' : AtZero last')
    (dx dx' : Int32) (m : MouseMode) :
    (m.event dx 0).shown last = (m.event dx' 0).shown last' := by
  cases m with
  | desktop =>
    rw [shown_desktop, shown_desktop, predictFrom_of_atZero h, predictFrom_of_atZero h']
  | relative => simp only [MouseInput.shown, mode_event]
  | absoluteMove =>
    simp only [MouseInput.shown, mode_event]
    rfl
  | absoluteStill => simp only [MouseInput.shown, mode_event]

theorem positionsFrom_atZero {last last' : Option InputSample} (h : AtZero last)
    (h' : AtZero last') (dx dx' : Int32) (past : List MouseMode) :
    positionsFrom last (past.map (MouseMode.event dx 0)) =
      positionsFrom last' (past.map (MouseMode.event dx' 0)) := by
  induction past generalizing last last' with
  | nil => rfl
  | cons m past ih =>
    rw [List.map_cons, List.map_cons, positionsFrom, positionsFrom,
      shown_eq_of_atZero h h' dx dx' m, ih (h.record dx m) (h'.record dx' m)]

theorem positionsFrom_append (last : Option InputSample) (es es' : List MouseInput) :
    positionsFrom last (es ++ es') =
      positionsFrom last es ++ positionsFrom (run MouseInput.record last es) es' := by
  induction es generalizing last with
  | nil => rfl
  | cons e es ih =>
    rw [List.cons_append, positionsFrom, positionsFrom, ih, List.append_assoc]
    rfl

/-- The last sample is the delta. -/
theorem run_record_of_lastIsDelta {past : List MouseMode} (h : LastIsDelta past) {dx : Int32}
    (hdx : dx ≠ 0) :
    run MouseInput.record none (past.map (MouseMode.event dx 0)) = some ⟨dx, 0, 0⟩ := by
  induction past using List.reverseRecOn with
  | nil => exact absurd h not_lastIsDelta_nil
  | append_singleton past m ih =>
    rw [List.map_append, run_append]
    obtain rfl | ⟨rfl, hpast⟩ := (lastIsDelta_concat past m).mp h
    · change MouseInput.record _ (MouseMode.relative.event dx 0) = _
      have hmove : (MouseMode.relative.event dx 0).isMovement = true := by
        simp [MouseInput.isMovement, MouseMode.event, hdx]
      rw [MouseInput.record, mode_event, if_neg (by decide), if_pos hmove]
      rfl
    · rw [ih hpast]
      change MouseInput.record _ (MouseMode.absoluteStill.event dx 0) = _
      rw [MouseInput.record, mode_event, if_neg (by decide)]
      rfl

/-- A delta of 2048 to the left is a velocity to the right, and one of 4096 is twice that. -/
theorem prediction_of_delta :
    MouseInput.within (InputPredictor.predictFrom (some ⟨-2048, 0, 0⟩) ⟨0, 0, 2097152⟩
      (2097152 + 16000)) 100 100 = [(15, 0, 100, 100)] ∧
    MouseInput.within (InputPredictor.predictFrom (some ⟨-4096, 0, 0⟩) ⟨0, 0, 2097152⟩
      (2097152 + 16000)) 100 100 = [(31, 0, 100, 100)] := by
  decide +kernel

/-- Two seconds in which the delta is the last sample, and then an event on the desktop. -/
def deltaThenDesktop (past rest : List MouseMode) (dx : Int32) : List MouseInput :=
  past.map (MouseMode.event dx 0) ++
    (MouseMode.desktop :: rest).map (MouseMode.event dx 2097152)

theorem mode_deltaThenDesktop (past rest : List MouseMode) (dx : Int32) :
    (deltaThenDesktop past rest dx).map MouseInput.mode = past ++ .desktop :: rest := by
  have hmode : ∀ t, MouseInput.mode ∘ MouseMode.event dx t = id := fun t =>
    funext fun m => mode_event dx t m
  simp only [deltaThenDesktop, List.map_append, List.map_map, hmode, List.map_id]

theorem sameButDelta_deltaThenDesktop (past rest : List MouseMode) (dx dx' : Int32) :
    List.Forall₂ SameButDelta (deltaThenDesktop past rest dx) (deltaThenDesktop past rest dx') := by
  have hmap : ∀ t ms, List.Forall₂ SameButDelta (List.map (MouseMode.event dx t) ms)
      (List.map (MouseMode.event dx' t) ms) := fun t ms =>
    List.forall₂_map_left_iff.mpr (List.forall₂_map_right_iff.mpr
      (List.forall₂_same.mpr fun m _ => sameButDelta_event dx dx' t m))
  exact List.rel_append (hmap 0 past) (hmap 2097152 _)

theorem positions_deltaThenDesktop {past : List MouseMode} (h : LastIsDelta past)
    (rest : List MouseMode) {dx : Int32} (hdx : dx ≠ 0) : ∃ more,
    positions (deltaThenDesktop past rest dx) =
      positionsFrom none (past.map (MouseMode.event 0 0)) ++
        (MouseInput.within (InputPredictor.predictFrom (some ⟨dx, 0, 0⟩) ⟨0, 0, 2097152⟩
          (2097152 + 16000)) 100 100 ++ more) := by
  refine ⟨positionsFrom ((MouseMode.desktop.event dx 2097152).record (some ⟨dx, 0, 0⟩))
    (rest.map (MouseMode.event dx 2097152)), ?_⟩
  have hzero : AtZero none := fun _ hs1 => nomatch hs1
  rw [positions_eq, deltaThenDesktop, positionsFrom_append, run_record_of_lastIsDelta h hdx,
    positionsFrom_atZero hzero hzero dx 0 past, List.map_cons, positionsFrom, shown_desktop]

/-- **The positions** depend on no relative movement iff no event is taken in desktop mode while
the last one that may have been recorded is a relative one. -/
theorem deltas_hidden_iff (modes : List MouseMode) :
    (∀ es es', es.map MouseInput.mode = modes → List.Forall₂ SameButDelta es es' →
      positions es' = positions es) ↔
    ∀ past rest, modes = past ++ .desktop :: rest → ¬ LastIsDelta past := by
  constructor
  · rintro hall past rest rfl hdelta
    have hsame := hall _ _ (mode_deltaThenDesktop past rest (-2048))
      (sameButDelta_deltaThenDesktop past rest (-2048) (-4096))
    obtain ⟨more, hslow⟩ :=
      positions_deltaThenDesktop hdelta rest (by decide : (-2048 : Int32) ≠ 0)
    obtain ⟨more', hfast⟩ :=
      positions_deltaThenDesktop hdelta rest (by decide : (-4096 : Int32) ≠ 0)
    rw [hslow, hfast, prediction_of_delta.1, prediction_of_delta.2] at hsame
    obtain ⟨hfirst, -⟩ := List.cons.inj (List.append_cancel_left hsame)
    exact absurd hfirst (by decide)
  · rintro hmodes es es' rfl hsame
    rw [positions_eq, positions_eq]
    exact positionsFrom_congr [] hsame (.inr rfl) hmodes

/-- The cursor shows at (500, 100) when a game is left, 10 ms after a movement by `dx`. -/
def leaveGame (dx : Int32) : List MouseInput :=
  [InputCapture.inGame 0 dx 1000000,
    { InputCapture.inGame 0 1 1010000 with cursorInfo := some 1, pt := (500, 100) }]

/-- The host is shown the cursor at 1236 or at 1172, for a movement by 40 or by 80. -/
theorem delta_extrapolated :
    positions (leaveGame 40) = [(1236, 260, 1280, 720)] ∧
    positions (leaveGame 80) = [(1172, 260, 1280, 720)] ∧
      ¬ ∀ es es', List.Forall₂ SameButDelta es es' → positions es' = positions es := by
  have hslow : positions (leaveGame 40) = [(1236, 260, 1280, 720)] := by decide +kernel
  have hfast : positions (leaveGame 80) = [(1172, 260, 1280, 720)] := by decide +kernel
  have hsame : List.Forall₂ SameButDelta (leaveGame 40) (leaveGame 80) :=
    .cons (.inr ⟨by decide, 80, 0, rfl⟩) (.cons (.inl rfl) .nil)
  refine ⟨hslow, hfast, fun hall => ?_⟩
  have heq := hall _ _ hsame
  rw [hslow, hfast] at heq
  exact absurd heq (by decide)

end RemotePlay.Client
