import RemotePlay.AI.InputPredictor
import RemotePlay.Common.Protocol
import RemotePlay.Lib.Grouping
import RemotePlay.Lib.Run
import Mathlib.Algebra.Group.Prod
import Mathlib.Algebra.Ring.Int.Defs

/-!
# Captured mouse motion

`HandleRawInput` sends the cursor's position while the cursor is visible, and
the device's own movement while it is hidden. Relative movement is batched: it
is sent with the first movement that comes 4 ms or more after the last batch,
and nothing else sends it. Buttons and the wheel are sent at once, so a click
overtakes what is pending; `motionComplete_iff` says when none does.
-/

namespace RemotePlay.Client

open Lib Protocol AI

/-! ## Raw mouse events -/

structure RawMouse where
  usFlags : UInt16
  usButtonFlags : UInt16
  usButtonData : UInt16
  lLastX : Int32
  lLastY : Int32
  deriving DecidableEq, Repr

structure Rect where
  left : Int32
  top : Int32
  right : Int32
  bottom : Int32
  deriving DecidableEq, Repr

/-- A raw mouse event, with what the system answers while it is handled. -/
structure MouseInput extends RawMouse where
  /-- The flags of `GetCursorInfo`, unless it fails. -/
  cursorInfo : Option UInt32
  /-- The window has the focus. -/
  focused : Bool
  /-- The cursor's position in the window. -/
  pt : Int32 × Int32
  rect : Rect
  /-- The clock when the sample is recorded, and when the batch is looked at. -/
  nowUs : UInt64
  now : UInt64
  deriving DecidableEq, Repr

namespace MouseInput

def cursorVisible (e : MouseInput) : Bool :=
  match e.cursorInfo with
  | some flags => flags &&& 0x00000001 ≠ 0
  | none => true

def isMovement (e : MouseInput) : Bool := e.lLastX ≠ 0 || e.lLastY ≠ 0

def isAbsoluteRaw (e : MouseInput) : Bool := e.usFlags &&& 0x01 ≠ 0

/-- Desktop mode: the cursor is visible, and the window has the focus. -/
def onDesktop (e : MouseInput) : Bool := e.cursorVisible && e.focused

def screenWidth (e : MouseInput) : UInt32 := (e.rect.right - e.rect.left).toUInt32

def screenHeight (e : MouseInput) : UInt32 := (e.rect.bottom - e.rect.top).toUInt32

end MouseInput

/-- The flag of a button event, with the button and whether it is pressed. -/
def buttonFlags : List (UInt16 × UInt8 × UInt8) :=
  [(0x0001, 1, 1), (0x0002, 1, 0), (0x0004, 2, 1), (0x0008, 2, 0), (0x0010, 3, 1),
    (0x0020, 3, 0), (0x0040, 4, 1), (0x0080, 4, 0), (0x0100, 5, 1), (0x0200, 5, 0)]

namespace MouseInput

def buttons (e : MouseInput) : List InputEvent :=
  buttonFlags.filterMap fun (flag, btn, pressed) =>
    if e.usButtonFlags &&& flag ≠ 0 then some (.mouseButton btn pressed) else none

def wheel (e : MouseInput) : List InputEvent :=
  if e.usButtonFlags &&& 0x0400 ≠ 0 then [.mouseScroll e.usButtonData.toInt16.toInt32] else []

/-- What the event's buttons and wheel send. -/
def clicks (e : MouseInput) : List InputEvent := e.buttons ++ e.wheel

end MouseInput

/-! ## The handler -/

structure MouseBatch where
  relX : Int32
  relY : Int32
  lastSentUs : UInt64
  hasPending : Bool
  deriving DecidableEq, Repr

structure InputCapture where
  mouseBatch : MouseBatch
  inputPredictor : InputPredictor
  deriving DecidableEq, Repr

namespace InputCapture

def new : InputCapture := ⟨⟨0, 0, 0, false⟩, .new⟩

/-- Desktop mode: the position is sent as it will be in 16 ms, if that is in the window. -/
def handleDesktop (s : InputCapture) (e : MouseInput) : InputCapture × List InputEvent :=
  let predictor := s.inputPredictor.recordInput e.pt.1 e.pt.2 e.nowUs
  let prediction := predictor.predict (e.nowUs + 16000)
  ({ s with inputPredictor := predictor },
    if 0 ≤ prediction.x ∧ 0 ≤ prediction.y ∧ prediction.x ≤ e.screenWidth.toInt32 ∧
        prediction.y ≤ e.screenHeight.toInt32 then
      [.mouseMove prediction.x prediction.y e.screenWidth e.screenHeight 0]
    else [])

/-- Relative movement is added to the batch, which is sent if 4 ms have elapsed. -/
def addToBatch (batch : MouseBatch) (e : MouseInput) : MouseBatch × List InputEvent :=
  let relX := batch.relX + e.lLastX
  let relY := batch.relY + e.lLastY
  if e.now - batch.lastSentUs ≥ 4000 then
    (⟨0, 0, e.now, false⟩, [.mouseMove relX relY 0 0 1])
  else (⟨relX, relY, batch.lastSentUs, true⟩, [])

/-- Game mode: a movement, which is relative unless the device is an absolute one. -/
def handleGame (s : InputCapture) (e : MouseInput) : InputCapture × List InputEvent :=
  let predictor := s.inputPredictor.recordInput e.lLastX e.lLastY e.nowUs
  if e.isAbsoluteRaw then
    ({ s with inputPredictor := predictor },
      [.mouseMove e.lLastX e.lLastY e.screenWidth e.screenHeight 0])
  else
    let (batch, out) := addToBatch s.mouseBatch e
    (⟨batch, predictor⟩, out)

def handleMotion (s : InputCapture) (e : MouseInput) : InputCapture × List InputEvent :=
  if e.isMovement || e.isAbsoluteRaw || e.cursorVisible then
    if e.onDesktop then s.handleDesktop e
    else if e.isMovement then s.handleGame e
    else (s, [])
  else (s, [])

def handleRawInput (s : InputCapture) (e : MouseInput) : InputCapture × List InputEvent :=
  let (s', motion) := s.handleMotion e
  (s', motion ++ e.clicks)

/-- The capture after an event. -/
def step (s : InputCapture) (e : MouseInput) : InputCapture := (s.handleRawInput e).1

/-- What is given to the callback, in order. -/
def sent (s : InputCapture) : List MouseInput → List InputEvent
  | [] => []
  | e :: es => (s.handleRawInput e).2 ++ (s.step e).sent es

end InputCapture

/-! ## What has been taken and what has been sent -/

/-- The relative motion of an event that is taken in game mode, from a relative device. -/
def MouseInput.delta? (e : MouseInput) : Option (Int × Int) :=
  if e.isMovement ∧ ¬ e.onDesktop ∧ ¬ e.isAbsoluteRaw then some (e.lLastX.toInt, e.lLastY.toInt)
  else none

structure MotionLog where
  /-- The deltas taken, in a group for each relative move that was sent. -/
  motion : Grouping (Int × Int)
  /-- For each button and wheel event, the deltas that were not sent before it. -/
  overtaken : List (List (Int × Int))
  deriving DecidableEq

namespace MotionLog

def empty : MotionLog := ⟨.empty, []⟩

def take (log : MotionLog) (e : MouseInput) : MotionLog :=
  match e.delta? with
  | some d => { log with motion := log.motion.add d }
  | none => log

def click (log : MotionLog) : MotionLog :=
  { log with overtaken := log.overtaken ++ [log.motion.rest] }

/-- A relative move that is sent holds what was taken since the one before it. -/
def note (log : MotionLog) : InputEvent → MotionLog
  | .mouseMove x y _ _ isRelative =>
    if isRelative = 1 then { log with motion := log.motion.close (x.toInt, y.toInt) } else log
  | .mouseButton .. => log.click
  | .mouseScroll .. => log.click
  | .keyboard .. => log
  | .gamepad .. => log
  | .gamepadStatus .. => log

end MotionLog

namespace InputCapture

/-- The capture, with the log of what comes in and goes out. -/
def logged : InputCapture × MotionLog → MouseInput → InputCapture × MotionLog :=
  augment step fun s e log => (s.handleRawInput e).2.foldl MotionLog.note (log.take e)

structure Tallied (x : InputCapture × MotionLog) : Prop where
  /-- Moves are sums, -/
  sums : x.2.motion.Exact
  /-- the batch too, -/
  pending : (x.1.mouseBatch.relX.toInt, x.1.mouseBatch.relY.toInt) = x.2.motion.rest.sum
  /-- and no click has overtaken any motion. -/
  inOrder : ∀ ds ∈ x.2.overtaken, ds = []

/-- Motion is complete and in order, at a state that the events `es` have led to. -/
structure MotionComplete (es : List MouseInput) (x : InputCapture × MotionLog) : Prop
    extends Tallied x where
  /-- Each delta is in one move, or pending. -/
  all : x.2.motion.items = es.filterMap MouseInput.delta?

def InInt32 (n : Int) : Prop := -2 ^ 31 ≤ n ∧ n < 2 ^ 31

/-- The batch has room for the movement. -/
def Fits (s : InputCapture) (e : MouseInput) : Prop :=
  ∀ d ∈ e.delta?, InInt32 (s.mouseBatch.relX.toInt + d.1) ∧
    InInt32 (s.mouseBatch.relY.toInt + d.2)

/-- A click comes with a movement that sends the batch, or without one when nothing is pending. -/
def Flushed (s : InputCapture) (e : MouseInput) : Prop :=
  e.clicks ≠ [] →
    if e.delta?.isSome then e.now - s.mouseBatch.lastSentUs ≥ 4000
    else s.mouseBatch.hasPending = false

/-! ## One event -/

section
variable {s : InputCapture} {e : MouseInput} {log : MotionLog}

/-- The events that `HandleRawInput` leaves out change nothing. -/
theorem handleMotion_eq : s.handleMotion e =
    if e.onDesktop then s.handleDesktop e
    else if e.isMovement then s.handleGame e
    else (s, []) := by
  unfold handleMotion
  split
  · rfl
  · next hskip =>
    simp only [Bool.or_eq_true, not_or, Bool.not_eq_true] at hskip
    obtain ⟨⟨hstill, -⟩, hhidden⟩ := hskip
    rw [MouseInput.onDesktop, hhidden, hstill]
    rfl

/-- What is sent for an event without relative motion is no relative move. -/
theorem handleMotion_of_none (h : e.delta? = none) :
    (s.handleMotion e).1.mouseBatch = s.mouseBatch ∧
      ∀ log : MotionLog, (s.handleMotion e).2.foldl MotionLog.note log = log := by
  have hnot : ¬ (e.isMovement ∧ ¬ e.onDesktop ∧ ¬ e.isAbsoluteRaw) := by
    intro hd
    rw [MouseInput.delta?, if_pos hd] at h
    cases h
  rw [handleMotion_eq]
  split
  · refine ⟨rfl, fun log => ?_⟩
    unfold handleDesktop
    dsimp only
    split
    · rfl
    · rfl
  · next hgame =>
    split
    · next hmove =>
      have habs : e.isAbsoluteRaw = true := by
        by_contra hrel
        exact hnot ⟨hmove, hgame, hrel⟩
      rw [handleGame, if_pos habs]
      exact ⟨rfl, fun _ => rfl⟩
    · exact ⟨rfl, fun _ => rfl⟩

theorem handleMotion_of_some {d : Int × Int} (h : e.delta? = some d) :
    d = (e.lLastX.toInt, e.lLastY.toInt) ∧
      (s.handleMotion e).1.mouseBatch = (addToBatch s.mouseBatch e).1 ∧
      (s.handleMotion e).2 = (addToBatch s.mouseBatch e).2 := by
  unfold MouseInput.delta? at h
  split at h
  · next hd =>
    obtain ⟨hmove, hgame, hrel⟩ := hd
    refine ⟨(Option.some.inj h).symm, ?_⟩
    rw [handleMotion_eq, if_neg hgame, if_pos hmove, handleGame, if_neg hrel]
    exact ⟨rfl, rfl⟩
  · cases h

theorem eq_of_mem_clicks {ev : InputEvent} (h : ev ∈ e.clicks) :
    (∃ btn pressed, ev = .mouseButton btn pressed) ∨ ∃ delta, ev = .mouseScroll delta := by
  rcases List.mem_append.mp h with hbutton | hwheel
  · obtain ⟨⟨flag, btn, pressed⟩, -, hev⟩ := List.mem_filterMap.mp hbutton
    dsimp only at hev
    split at hev
    · exact .inl ⟨btn, pressed, (Option.some.inj hev).symm⟩
    · cases hev
  · unfold MouseInput.wheel at hwheel
    split at hwheel
    · exact .inr ⟨_, List.mem_singleton.mp hwheel⟩
    · cases hwheel

theorem note_click {ev : InputEvent} (h : ev ∈ e.clicks) : log.note ev = log.click := by
  obtain ⟨btn, pressed, rfl⟩ | ⟨delta, rfl⟩ := eq_of_mem_clicks h
  · rfl
  · rfl

/-- The clicks of an event leave the motion alone, and all overtake the same. -/
theorem foldl_note_clicks (log : MotionLog) {evs : List InputEvent}
    (hevs : ∀ ev ∈ evs, ∀ log : MotionLog, log.note ev = log.click) :
    (evs.foldl MotionLog.note log).motion = log.motion ∧
      ((∀ ds ∈ (evs.foldl MotionLog.note log).overtaken, ds = []) ↔
        (∀ ds ∈ log.overtaken, ds = []) ∧ (evs ≠ [] → log.motion.rest = [])) := by
  induction evs generalizing log with
  | nil => simp
  | cons ev evs ih =>
    rw [List.foldl_cons, hevs ev List.mem_cons_self]
    obtain ⟨hmotion, hovertaken⟩ := ih log.click fun ev' hev' =>
      hevs ev' (List.mem_cons_of_mem _ hev')
    refine ⟨hmotion, hovertaken.trans ?_⟩
    simp only [MotionLog.click, List.forall_mem_append, List.forall_mem_singleton]
    constructor
    · rintro ⟨⟨hold, hrest⟩, -⟩
      exact ⟨hold, fun _ => hrest⟩
    · rintro ⟨hold, hrest⟩
      have hrest := hrest (List.cons_ne_nil _ _)
      exact ⟨⟨hold, hrest⟩, fun _ => hrest⟩

/-- The log after the motion of an event. -/
def afterMotion (s : InputCapture) (log : MotionLog) (e : MouseInput) : MotionLog :=
  (s.handleMotion e).2.foldl MotionLog.note (log.take e)

/-- The batch is marked iff there is motion that was not sent. -/
def Marked (x : InputCapture × MotionLog) : Prop :=
  x.1.mouseBatch.hasPending = true ↔ x.2.motion.rest ≠ []

theorem motion_logged : (logged (s, log) e).2.motion = (afterMotion s log e).motion := by
  unfold logged augment handleRawInput afterMotion
  dsimp only
  rw [List.foldl_append]
  exact (foldl_note_clicks _ fun _ hev _ => note_click hev).1

theorem inOrder_logged : (∀ ds ∈ (logged (s, log) e).2.overtaken, ds = []) ↔
    (∀ ds ∈ (afterMotion s log e).overtaken, ds = []) ∧
      (e.clicks ≠ [] → (afterMotion s log e).motion.rest = []) := by
  unfold logged augment handleRawInput afterMotion
  dsimp only
  rw [List.foldl_append]
  exact (foldl_note_clicks _ fun _ hev _ => note_click hev).2

theorem afterMotion_of_none (h : e.delta? = none) : afterMotion s log e = log := by
  rw [afterMotion, (handleMotion_of_none h).2, MotionLog.take, h]

theorem toInt_add_eq_iff (a b : Int32) :
    (a + b).toInt = a.toInt + b.toInt ↔ InInt32 (a.toInt + b.toInt) := by
  have ha := a.toInt_lt
  have ha' := a.le_toInt
  have hb := b.toInt_lt
  have hb' := b.le_toInt
  rw [Int32.toInt_add, Int.bmod_def, InInt32]
  omega

/-- The batch is the sum with the movement iff that fits. -/
theorem sum_add_eq_iff {d : Int × Int} (h : e.delta? = some d) :
    ((s.mouseBatch.relX + e.lLastX).toInt, (s.mouseBatch.relY + e.lLastY).toInt) =
      (s.mouseBatch.relX.toInt, s.mouseBatch.relY.toInt) + d ↔ Fits s e := by
  obtain ⟨rfl, -, -⟩ := handleMotion_of_some (s := s) h
  simp only [Fits, h, Option.mem_def, Option.some.injEq, forall_eq', Prod.mk_add_mk, Prod.mk.injEq,
    toInt_add_eq_iff]

theorem marked_step (hmarked : Marked (s, log)) : Marked (logged (s, log) e) := by
  unfold Marked
  rw [motion_logged]
  change (s.handleMotion e).1.mouseBatch.hasPending = true ↔ _
  cases h : e.delta? with
  | none =>
    rw [afterMotion_of_none h, (handleMotion_of_none h).1]
    exact hmarked
  | some d =>
    obtain ⟨-, hbatch, hout⟩ := handleMotion_of_some (s := s) h
    rw [afterMotion, hbatch, hout, MotionLog.take, h]
    unfold addToBatch
    dsimp only
    split
    · simp [MotionLog.note, Grouping.close]
    · simp [Grouping.add]

theorem tallied_logged_iff : Tallied (logged (s, log) e) ↔
    (afterMotion s log e).motion.Exact ∧
      ((s.handleMotion e).1.mouseBatch.relX.toInt, (s.handleMotion e).1.mouseBatch.relY.toInt) =
        (afterMotion s log e).motion.rest.sum ∧
      (∀ ds ∈ (afterMotion s log e).overtaken, ds = []) ∧
      (e.clicks ≠ [] → (afterMotion s log e).motion.rest = []) := by
  rw [← inOrder_logged, ← motion_logged]
  exact ⟨fun ⟨h, h', h''⟩ => ⟨h, h', h''⟩, fun ⟨h, h', h''⟩ => ⟨h, h', h''⟩⟩

/-- Without motion, the clicks have to find nothing pending. -/
theorem tallied_step_of_none (hmarked : Marked (s, log)) (htallied : Tallied (s, log))
    (h : e.delta? = none) : Tallied (logged (s, log) e) ↔ Fits s e ∧ Flushed s e := by
  have hfits : Fits s e := fun d hd => by rw [h] at hd; cases hd
  have hrest : log.motion.rest = [] ↔ s.mouseBatch.hasPending = false := by
    rw [← Bool.not_eq_true]
    exact iff_not_comm.mp hmarked
  rw [tallied_logged_iff, afterMotion_of_none h, (handleMotion_of_none h).1, Flushed, h, hrest]
  exact ⟨fun ⟨_, _, _, hclicks⟩ => ⟨hfits, hclicks⟩,
    fun ⟨_, hclicks⟩ => ⟨htallied.sums, htallied.pending, htallied.inOrder, hclicks⟩⟩

/-- Motion has to fit, and the clicks with it need the batch to be sent. -/
theorem tallied_step_of_some {d : Int × Int} (htallied : Tallied (s, log))
    (h : e.delta? = some d) : Tallied (logged (s, log) e) ↔ Fits s e ∧ Flushed s e := by
  obtain ⟨-, hbatch, hout⟩ := handleMotion_of_some (s := s) h
  have hsum : ((s.mouseBatch.relX + e.lLastX).toInt, (s.mouseBatch.relY + e.lLastY).toInt) =
      (log.motion.add d).rest.sum ↔ Fits s e := by
    rw [Grouping.sum_rest_add, ← htallied.pending, sum_add_eq_iff h]
  have htake : log.take e = { log with motion := log.motion.add d } := by
    rw [MotionLog.take, h]
  rw [tallied_logged_iff, hbatch, afterMotion, hout, htake, Flushed, h, Option.isSome_some,
    if_pos rfl, addToBatch]
  split
  · next hdue =>
    -- The move closes the group with the delta in it.
    have hafter : [InputEvent.mouseMove (s.mouseBatch.relX + e.lLastX)
        (s.mouseBatch.relY + e.lLastY) 0 0 1].foldl MotionLog.note
          { log with motion := log.motion.add d } =
        { log with motion := (log.motion.add d).close ((s.mouseBatch.relX + e.lLastX).toInt,
          (s.mouseBatch.relY + e.lLastY).toInt) } := rfl
    rw [hafter, Grouping.exact_close, hsum]
    constructor
    · rintro ⟨⟨-, hfits⟩, -⟩
      exact ⟨hfits, fun _ => hdue⟩
    · rintro ⟨hfits, -⟩
      exact ⟨⟨htallied.sums, hfits⟩, rfl, htallied.inOrder, fun _ => rfl⟩
  · next hwait =>
    -- The delta is pending, and the clicks overtake it.
    have hrest : (log.motion.add d).rest ≠ [] :=
      List.append_ne_nil_of_right_ne_nil _ (List.cons_ne_nil _ _)
    rw [List.foldl_nil]
    constructor
    · rintro ⟨-, hsum', -, hclicks⟩
      exact ⟨hsum.mp hsum', fun hne => absurd (hclicks hne) hrest⟩
    · rintro ⟨hfits, hclicks⟩
      exact ⟨htallied.sums, hsum.mpr hfits, htallied.inOrder, fun hne => absurd (hclicks hne) hwait⟩

/-- One event keeps the tally iff its motion fits and its clicks overtake nothing. -/
theorem tallied_step (hmarked : Marked (s, log)) (htallied : Tallied (s, log)) :
    Tallied (logged (s, log) e) ↔ Fits s e ∧ Flushed s e := by
  cases h : e.delta? with
  | none => exact tallied_step_of_none hmarked htallied h
  | some d => exact tallied_step_of_some htallied h

end

/-! ## Runs -/

/-- Nothing is lost from the log. -/
theorem items_logged (x : InputCapture × MotionLog) (e : MouseInput) :
    (logged x e).2.motion.items = x.2.motion.items ++ e.delta?.toList := by
  obtain ⟨s, log⟩ := x
  rw [motion_logged]
  cases h : e.delta? with
  | none =>
    rw [afterMotion_of_none h]
    exact (List.append_nil _).symm
  | some d =>
    obtain ⟨-, -, hout⟩ := handleMotion_of_some (s := s) h
    rw [afterMotion, hout, MotionLog.take, h, addToBatch]
    dsimp only
    split
    · exact (Grouping.items_close _ _).trans (Grouping.items_add _ _)
    · exact Grouping.items_add _ _

theorem items_run (x : InputCapture × MotionLog) (es : List MouseInput) :
    (run logged x es).2.motion.items = x.2.motion.items ++ es.filterMap MouseInput.delta? := by
  induction es generalizing x with
  | nil => exact (List.append_nil _).symm
  | cons e es ih =>
    rw [run_cons, ih, items_logged, List.append_assoc, List.filterMap_cons]
    cases e.delta? with
    | none => rfl
    | some d => rfl

def start : InputCapture × MotionLog := (.new, .empty)

/-- **Motion** is complete and in order all along a run iff every event's motion fits into the
batch, and every click comes when the batch is empty or is just being sent. -/
theorem motionComplete_iff (es : List MouseInput) :
    (∀ es', es' <+: es → MotionComplete es' (run logged start es')) ↔
      Along step (fun s e => Fits s e ∧ Flushed s e) .new es := by
  have hcomplete : ∀ es', MotionComplete es' (run logged start es') ↔
      Tallied (run logged start es') := fun es' =>
    ⟨fun h => h.toTallied, fun h => ⟨h, items_run start es'⟩⟩
  simp only [hcomplete]
  have hmarked : Marked start := ⟨fun h => (nomatch h), fun h => absurd rfl h⟩
  have htallied : Tallied start := ⟨Grouping.exact_empty, rfl, fun _ hds => nomatch hds⟩
  have hstep : ∀ x e, Marked x → Marked (logged x e) := fun _ _ h => marked_step h
  have hexact : ∀ x e, Marked x → Tallied x →
      (Tallied (logged x e) ↔ Fits x.1 e ∧ Flushed x.1 e) := fun _ _ h h' => tallied_step h h'
  exact (forall_prefix_iff_along hstep hexact hmarked htallied es).trans
    (along_augment _ fun s e => Fits s e ∧ Flushed s e)

/-- A game with a mouse that moves by `x`, or is clicked. -/
def inGame (usButtonFlags : UInt16) (x : Int32) (now : UInt64) : MouseInput where
  usFlags := 0
  usButtonFlags := usButtonFlags
  usButtonData := 0
  lLastX := x
  lLastY := 0
  cursorInfo := some 0
  focused := true
  pt := (0, 0)
  rect := ⟨0, 0, 1280, 720⟩
  nowUs := now
  now := now

/-- A movement, another one 1 ms later, and a click 0.5 ms after that. -/
def moveMoveClick : List MouseInput :=
  [inGame 0 5 1000000, inGame 0 3 1001000, inGame 0x0001 0 1001500]

/-- The click is sent, and the second movement is not. -/
theorem click_overtakes :
    InputCapture.new.sent moveMoveClick = [.mouseMove 5 0 0 0 1, .mouseButton 1 1] ∧
      ¬ ∀ es', es' <+: moveMoveClick → MotionComplete es' (run logged start es') := by
  refine ⟨by decide +kernel, fun hall => ?_⟩
  have hovertaken : [(3, 0)] ∈ (run logged start moveMoveClick).2.overtaken := by decide +kernel
  exact nomatch (hall moveMoveClick (List.prefix_refl _)).inOrder _ hovertaken

end InputCapture

end RemotePlay.Client
