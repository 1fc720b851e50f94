import RemotePlay.Host.InputInjector
import RemotePlay.Lib.Run
import Mathlib.Data.List.Chain

/-!
# Polled gamepads

`PollGamepads` reads the four gamepads and sends what has changed: a status when
one comes or goes, and a report when its packet number is another one. The events
build up a `Mirror`, the gamepads that somebody knows of who has the events alone.
The client's side is that the mirror shows the last poll (`sent_shows`), the
host's that the virtual controllers under an address are the mirror of the events
from there (`view_run`), where the driver accepts every controller; a report that is
lost is made up for by the next one (`apply_delivered`).
-/

namespace RemotePlay.Client

open Lib Protocol Host

/-- `XINPUT_STATE`. -/
structure XInputState where
  dwPacketNumber : UInt32
  gamepad : XusbReport
  deriving DecidableEq

/-- What `XInputGetState` says of each gamepad; `none` where it does not succeed. -/
abbrev Pads : Type := Nat → Option XInputState

/-- The fields of `InputCapture` that `PollGamepads` uses. -/
structure GamepadCapture where
  /-- `m_gamepadConnected`. -/
  connected : Nat → Bool
  /-- `m_lastGamepadState`. -/
  last : Nat → XInputState

def xuserMaxCount : Nat := 4

namespace GamepadCapture

def init : GamepadCapture := ⟨fun _ => false, fun _ => ⟨0, ⟨0, 0, 0, 0, 0, 0, 0⟩⟩⟩

def setConnected (c : GamepadCapture) (i : Nat) (connected : Bool) : GamepadCapture :=
  { c with connected := fun j => if j = i then connected else c.connected j }

def setLast (c : GamepadCapture) (i : Nat) (state : XInputState) : GamepadCapture :=
  { c with last := fun j => if j = i then state else c.last j }

def status (i : Nat) (connected : Bool) : InputEvent :=
  .gamepadStatus (UInt8.ofNat i) (if connected then 1 else 0)

def report (i : Nat) (gp : XusbReport) : InputEvent :=
  .gamepad (UInt8.ofNat i) gp.wButtons gp.bLeftTrigger gp.bRightTrigger gp.sThumbLX gp.sThumbLY
    gp.sThumbRX gp.sThumbRY

/-- A status is sent where the gamepad has come or gone; of one that has come, no state is the last
one sent. -/
def pollStatus (c : GamepadCapture) (i : Nat) (state : Option XInputState) :
    GamepadCapture × List InputEvent :=
  if state.isSome = c.connected i then (c, [])
  else
    let c := c.setConnected i state.isSome
    match state with
    | none => (c, [status i false])
    | some state =>
      (c.setLast i { state with dwPacketNumber := state.dwPacketNumber - 1 }, [status i true])

/-- The report of a gamepad that is there. -/
def pollReport (c : GamepadCapture) (i : Nat) : Option XInputState →
    GamepadCapture × List InputEvent
  | none => (c, [])
  | some state =>
    if state.dwPacketNumber = (c.last i).dwPacketNumber then (c, [])
    else (c.setLast i state, [report i state.gamepad])

/-- One gamepad: the events are added to those sent so far. -/
def pollPad (pads : Pads) (x : GamepadCapture × List InputEvent) (i : Nat) :
    GamepadCapture × List InputEvent :=
  let (c, statuses) := x.1.pollStatus i (pads i)
  let (c, reports) := c.pollReport i (pads i)
  (c, x.2 ++ statuses ++ reports)

def pollGamepads (x : GamepadCapture × List InputEvent) (pads : Pads) :
    GamepadCapture × List InputEvent :=
  (List.range xuserMaxCount).foldl (pollPad pads) x

/-- The events of these polls. -/
def sent (polls : List Pads) : List InputEvent := (run pollGamepads (init, []) polls).2

/-- The gamepad as it was when its last event was sent. -/
def seen (c : GamepadCapture) (i : Nat) : Option XInputState :=
  if c.connected i then some (c.last i) else none

end GamepadCapture

/-- XInput gives a state that has changed another packet number. -/
def Renumbered (pads pads' : Pads) : Prop :=
  ∀ i, i < xuserMaxCount → ∀ state state', pads i = some state → pads' i = some state' →
    state.dwPacketNumber = state'.dwPacketNumber → state = state'

/-! ## What the events tell -/

/-- The gamepads that are there, and the last report of each if there is one. -/
abbrev Mirror : Type := UInt8 → Option (Option XusbReport)

namespace Mirror

def set (m : Mirror) (i : UInt8) (pad : Option (Option XusbReport)) : Mirror :=
  fun k => if k = i then pad else m k

/-- A gamepad comes or goes, or one that is there is reported on. -/
def apply (m : Mirror) (ev : InputEvent) : Mirror := fun k =>
  match ev with
  | .gamepadStatus i isConnected =>
    if k = i then (if isConnected = 0 then none else some ((m k).getD none)) else m k
  | .gamepad i buttons leftTrigger rightTrigger thumbLX thumbLY thumbRX thumbRY =>
    if k = i then
      (m k).map fun _ =>
        some ⟨buttons, leftTrigger, rightTrigger, thumbLX, thumbLY, thumbRX, thumbRY⟩
    else m k
  | _ => m k

def empty : Mirror := fun _ => none

end Mirror

/-! ## The client's side -/

namespace Mirror

theorem set_other (m : Mirror) {i k : UInt8} (hk : k ≠ i) (pad : Option (Option XusbReport)) :
    m.set i pad k = m k := if_neg hk

@[simp] theorem set_self (m : Mirror) (i : UInt8) (pad : Option (Option XusbReport)) :
    m.set i pad i = pad := if_pos rfl

theorem apply_status_false (m : Mirror) (i : Nat) :
    m.apply (GamepadCapture.status i false) = m.set (UInt8.ofNat i) none := rfl

theorem apply_status_true {m : Mirror} {i : Nat} (h : m (UInt8.ofNat i) = none) :
    m.apply (GamepadCapture.status i true) = m.set (UInt8.ofNat i) (some none) := by
  funext k
  by_cases hk : k = UInt8.ofNat i
  · subst hk
    simp [apply, GamepadCapture.status, h]
  · simp [apply, GamepadCapture.status, set, hk]

theorem apply_report {m : Mirror} {i : Nat} {old : Option XusbReport}
    (h : m (UInt8.ofNat i) = some old) (gp : XusbReport) :
    m.apply (GamepadCapture.report i gp) = m.set (UInt8.ofNat i) (some (some gp)) := by
  funext k
  by_cases hk : k = UInt8.ofNat i
  · subst hk
    simp [apply, GamepadCapture.report, h]
  · simp [apply, GamepadCapture.report, set, hk]

end Mirror

namespace GamepadCapture

variable {c : GamepadCapture} {i : Nat}

/-- The mirror shows of gamepad `i` what was last sent of it. -/
def Shows (m : Mirror) (c : GamepadCapture) (i : Nat) : Prop :=
  m (UInt8.ofNat i) = (c.seen i).map fun state => some state.gamepad

theorem sub_one_ne (n : UInt32) : n ≠ n - 1 := by
  intro h
  have hto := congrArg UInt32.toNat h
  have hlt := n.toNat_lt
  simp [UInt32.toNat_sub] at hto
  omega

section
variable (c i)

@[simp] theorem seen_setConnected_true (state : XInputState) :
    ((c.setConnected i true).setLast i state).seen i = some state := by
  simp [seen, setConnected, setLast]

@[simp] theorem seen_setConnected_false : (c.setConnected i false).seen i = none := by
  simp [seen, setConnected]

theorem last_setLast (state : XInputState) : (c.setLast i state).last i = state := if_pos rfl

theorem seen_setConnected_other {j : Nat} (hj : j ≠ i) (connected : Bool) :
    (c.setConnected i connected).seen j = c.seen j := by
  simp [seen, setConnected, hj]

theorem seen_setLast_other {j : Nat} (hj : j ≠ i) (state : XInputState) :
    (c.setLast i state).seen j = c.seen j := by
  simp [seen, setLast, hj]

end

/-- What the events of one gamepad do: it is shown as it is, and nothing changes of the others. -/
structure Polled (m : Mirror) (c : GamepadCapture) (pads : Pads) (i : Nat) (c' : GamepadCapture)
    (more : List InputEvent) : Prop where
  seen : c'.seen i = pads i
  shows : Shows (more.foldl Mirror.apply m) c' i
  seenOther : ∀ j, j ≠ i → c'.seen j = c.seen j
  showsOther : ∀ k, k ≠ UInt8.ofNat i → more.foldl Mirror.apply m k = m k

theorem polled_gone {m : Mirror} {pads : Pads} (hpad : pads i = none) :
    Polled m c pads i (c.setConnected i false) [status i false] where
  seen := by simp [hpad]
  shows := by
    rw [Shows, List.foldl_cons, List.foldl_nil, Mirror.apply_status_false, Mirror.set_self,
      seen_setConnected_false]
    rfl
  seenOther j hj := seen_setConnected_other c i hj false
  showsOther k hk := by
    rw [List.foldl_cons, List.foldl_nil, Mirror.apply_status_false]
    exact Mirror.set_other m hk none

theorem polled_come {m : Mirror} (hshows : Shows m c i) (hseen : c.seen i = none) {pads : Pads}
    {state : XInputState} (hpad : pads i = some state) (before : XInputState) :
    Polled m c pads i (((c.setConnected i true).setLast i before).setLast i state)
      [status i true, report i state.gamepad] := by
  have hnone : m (UInt8.ofNat i) = none := by rw [hshows, hseen]; rfl
  have hfold : [status i true, report i state.gamepad].foldl Mirror.apply m =
      (m.set (UInt8.ofNat i) (some none)).set (UInt8.ofNat i) (some (some state.gamepad)) := by
    rw [List.foldl_cons, List.foldl_cons, List.foldl_nil, Mirror.apply_status_true hnone,
      Mirror.apply_report (Mirror.set_self m _ _)]
  have hseen' : (((c.setConnected i true).setLast i before).setLast i state).seen i =
      some state := by
    simp [GamepadCapture.seen, setConnected, setLast]
  refine ⟨hseen'.trans hpad.symm, ?_, fun j hj => ?_, fun k hk => ?_⟩
  · rw [Shows, hfold, Mirror.set_self, hseen']
    rfl
  · rw [seen_setLast_other _ i hj, seen_setLast_other _ i hj, seen_setConnected_other c i hj]
  · rw [hfold, Mirror.set_other _ hk, Mirror.set_other m hk]

theorem polled_changed {m : Mirror} (hshows : Shows m c i) (hconnected : c.connected i = true)
    {pads : Pads} {state : XInputState} (hpad : pads i = some state) :
    Polled m c pads i (c.setLast i state) [report i state.gamepad] := by
  have hold : m (UInt8.ofNat i) = some (some (c.last i).gamepad) := by
    rw [hshows, GamepadCapture.seen, if_pos hconnected]
    rfl
  have hseen : (c.setLast i state).seen i = some state := by
    simp [GamepadCapture.seen, setLast, hconnected]
  refine ⟨hseen.trans hpad.symm, ?_, fun j hj => seen_setLast_other c i hj state, fun k hk => ?_⟩
  · rw [Shows, List.foldl_cons, List.foldl_nil, Mirror.apply_report hold, Mirror.set_self, hseen]
    rfl
  · rw [List.foldl_cons, List.foldl_nil, Mirror.apply_report hold]
    exact Mirror.set_other m hk _

theorem polled_same {m : Mirror} (hshows : Shows m c i) {pads : Pads} (hseen : c.seen i = pads i) :
    Polled m c pads i c [] :=
  ⟨hseen, hshows, fun _ _ => rfl, fun _ _ => rfl⟩

/-- The gamepad has not changed without another packet number. -/
def Numbered (c : GamepadCapture) (pads : Pads) (i : Nat) : Prop :=
  ∀ state state', c.seen i = some state → pads i = some state' →
    state.dwPacketNumber = state'.dwPacketNumber → state = state'

theorem pollPad_spec {m : Mirror} (hshows : Shows m c i) {pads : Pads}
    (hnumbered : c.Numbered pads i) (evs : List InputEvent) :
    ∃ c' more, pollPad pads (c, evs) i = (c', evs ++ more) ∧ Polled m c pads i c' more := by
  cases hpad : pads i with
  | none =>
    cases hconnected : c.connected i with
    | false =>
      refine ⟨c, [], ?_, polled_same hshows ?_⟩
      · simp [pollPad, pollStatus, pollReport, hpad, hconnected]
      · simp [hpad, seen, hconnected]
    | true =>
      refine ⟨_, _, ?_, polled_gone hpad⟩
      simp [pollPad, pollStatus, pollReport, hpad, hconnected]
  | some state =>
    cases hconnected : c.connected i with
    | false =>
      have hseen : c.seen i = none := by simp [seen, hconnected]
      refine ⟨_, _, ?_, polled_come hshows hseen hpad
        { state with dwPacketNumber := state.dwPacketNumber - 1 }⟩
      have hne := sub_one_ne state.dwPacketNumber
      simp [pollPad, pollStatus, pollReport, hpad, hconnected, last_setLast, hne]
    | true =>
      by_cases hsame : state.dwPacketNumber = (c.last i).dwPacketNumber
      · have hseen : c.seen i = some (c.last i) := by simp [seen, hconnected]
        have hstate := hnumbered _ _ hseen hpad hsame.symm
        refine ⟨c, [], ?_, polled_same hshows ?_⟩
        · simp [pollPad, pollStatus, pollReport, hpad, hconnected, hsame]
        · rw [hseen, hpad, hstate]
      · refine ⟨_, _, ?_, polled_changed hshows hconnected hpad⟩
        simp [pollPad, pollStatus, pollReport, hpad, hconnected, hsame]

/-! ## Many polls -/

theorem ofNat_ne {i j : Nat} (hi : i < xuserMaxCount) (hj : j < xuserMaxCount) (hne : j ≠ i) :
    UInt8.ofNat j ≠ UInt8.ofNat i := by
  intro h
  have hto := congrArg UInt8.toNat h
  simp only [UInt8.toNat_ofNat'] at hto
  unfold xuserMaxCount at hi hj
  omega

/-- The mirror shows every gamepad as it was last sent, and there is no other gamepad in it. -/
structure InStep (m : Mirror) (c : GamepadCapture) : Prop where
  shows : ∀ i, i < xuserMaxCount → Shows m c i
  none : ∀ k : UInt8, xuserMaxCount ≤ k.toNat → m k = none

/-- The gamepads `is` are polled one after the other. -/
theorem foldl_pollPad {m : Mirror} (h : InStep m c) {pads : Pads} {is : List Nat}
    (his : ∀ i ∈ is, i < xuserMaxCount) (hnodup : is.Nodup)
    (hnumbered : ∀ i ∈ is, c.Numbered pads i) (evs : List InputEvent) :
    ∃ c' more, is.foldl (pollPad pads) (c, evs) = (c', evs ++ more) ∧
      InStep (more.foldl Mirror.apply m) c' ∧ (∀ i ∈ is, c'.seen i = pads i) ∧
      ∀ i, i ∉ is → c'.seen i = c.seen i := by
  induction is generalizing c m evs with
  | nil => exact ⟨c, [], by simp, h, by simp, fun _ _ => rfl⟩
  | cons i is ih =>
    obtain ⟨hi, hrest⟩ := List.forall_mem_cons.mp his
    obtain ⟨hnot, hnodup⟩ := List.nodup_cons.mp hnodup
    obtain ⟨hnum, hnums⟩ := List.forall_mem_cons.mp hnumbered
    obtain ⟨c₁, more, hpoll, hpolled⟩ := pollPad_spec (h.shows i hi) hnum evs
    have hstep : InStep (more.foldl Mirror.apply m) c₁ := by
      refine ⟨fun j hj => ?_, fun k hk => ?_⟩
      · by_cases hji : j = i
        · rw [hji]
          exact hpolled.shows
        · rw [Shows, hpolled.showsOther _ (ofNat_ne hi hj hji), hpolled.seenOther j hji]
          exact h.shows j hj
      · have hne : k ≠ UInt8.ofNat i := by
          rintro rfl
          simp only [UInt8.toNat_ofNat'] at hk
          unfold xuserMaxCount at hi hk
          omega
        rw [hpolled.showsOther k hne]
        exact h.none k hk
    have hnums' : ∀ j ∈ is, c₁.Numbered pads j := by
      intro j hj
      have hji : j ≠ i := fun heq => hnot (heq ▸ hj)
      unfold Numbered
      rw [hpolled.seenOther j hji]
      exact hnums j hj
    obtain ⟨c₂, more', hfold, hin, hseen, hother⟩ := ih hstep hrest hnodup hnums' (evs ++ more)
    refine ⟨c₂, more ++ more', ?_, ?_, ?_, ?_⟩
    · rw [List.foldl_cons, hpoll, hfold, List.append_assoc]
    · rw [List.foldl_append]
      exact hin
    · rintro j (_ | ⟨_, hj⟩)
      · rw [hother i hnot]
        exact hpolled.seen
      · exact hseen j hj
    · intro j hj
      rw [hother j (List.not_mem_of_not_mem_cons hj),
        hpolled.seenOther j (List.ne_of_not_mem_cons hj)]

theorem pollGamepads_spec {m : Mirror} (h : InStep m c) {pads : Pads}
    (hnumbered : ∀ i, i < xuserMaxCount → c.Numbered pads i) (evs : List InputEvent) :
    ∃ c' more, pollGamepads (c, evs) pads = (c', evs ++ more) ∧
      InStep (more.foldl Mirror.apply m) c' ∧ ∀ i, i < xuserMaxCount → c'.seen i = pads i := by
  obtain ⟨c', more, hfold, hin, hseen, -⟩ := foldl_pollPad h
    (fun i hi => List.mem_range.mp hi) List.nodup_range
    (fun i hi => hnumbered i (List.mem_range.mp hi)) evs
  exact ⟨c', more, hfold, hin, fun i hi => hseen i (List.mem_range.mpr hi)⟩

/-- The last poll. -/
def lastPoll (before : Pads) (polls : List Pads) : Pads := polls.getLast?.getD before

theorem run_pollGamepads (polls : List Pads) {before : Pads} {evs : List InputEvent}
    (hin : InStep (evs.foldl Mirror.apply .empty) c)
    (hseen : ∀ i, i < xuserMaxCount → c.seen i = before i)
    (hchain : (before :: polls).IsChain Renumbered) :
    InStep ((run pollGamepads (c, evs) polls).2.foldl Mirror.apply .empty)
        (run pollGamepads (c, evs) polls).1 ∧
      ∀ i, i < xuserMaxCount →
        (run pollGamepads (c, evs) polls).1.seen i = lastPoll before polls i := by
  induction polls generalizing before c evs with
  | nil => exact ⟨hin, hseen⟩
  | cons pads polls ih =>
    obtain ⟨hnext, hrest⟩ := List.isChain_cons_cons.mp hchain
    have hnumbered : ∀ i, i < xuserMaxCount → c.Numbered pads i := by
      intro i hi
      unfold Numbered
      rw [hseen i hi]
      exact hnext i hi
    obtain ⟨c', more, hpoll, hstep, hseen'⟩ := pollGamepads_spec hin hnumbered evs
    rw [← List.foldl_append] at hstep
    rw [run_cons, hpoll]
    obtain ⟨hend, hlast⟩ := ih hstep hseen' hrest
    refine ⟨hend, fun i hi => (hlast i hi).trans ?_⟩
    unfold lastPoll
    cases polls with
    | nil => rfl
    | cons pads' polls => rw [List.getLast?_cons_cons]; simp [List.getLast?_cons]

/-- What the polls say of the gamepads in the end. -/
def shown (polls : List Pads) : Mirror := fun k =>
  if k.toNat < xuserMaxCount then
    (lastPoll (fun _ => none) polls k.toNat).map fun state => some state.gamepad
  else none

/-- The events tell what the last poll has seen. -/
theorem sent_shows {polls : List Pads} (hpolls : polls.IsChain Renumbered) :
    (sent polls).foldl Mirror.apply .empty = shown polls := by
  have hinit : InStep ([].foldl Mirror.apply .empty) init := ⟨fun _ _ => rfl, fun _ _ => rfl⟩
  have hchain : ((fun _ => none) :: polls : List Pads).IsChain Renumbered := by
    cases polls with
    | nil => exact List.isChain_singleton _
    | cons pads polls =>
      refine List.isChain_cons_cons.mpr ⟨?_, hpolls⟩
      rintro i - state state' ⟨⟩
  obtain ⟨hin, hseen⟩ := run_pollGamepads polls hinit (fun _ _ => rfl) hchain
  funext k
  unfold shown
  split
  · next hk =>
    have hshows := hin.shows k.toNat hk
    rw [Shows, UInt8.ofNat_toNat, hseen k.toNat hk] at hshows
    exact hshows
  · next hk => exact hin.none k (Nat.le_of_not_lt hk)

end GamepadCapture

/-! ## Lost reports -/

namespace Mirror

variable {m m' : Mirror} {k : UInt8}

/-- After the event nothing is left of what was known of gamepad `k`, but whether it is there. -/
def Settles (k : UInt8) : InputEvent → Prop
  | .gamepad i .. => i = k
  | .gamepadStatus i isConnected => i = k ∧ isConnected = 0
  | _ => False

def IsReport (k : UInt8) : InputEvent → Prop
  | .gamepad i .. => i = k
  | _ => False

/-- Each event with whether it is delivered: only reports are lost, and what each was about is
settled by an event that is delivered later. -/
def MadeUp : List (InputEvent × Bool) → Prop
  | [] => True
  | (ev, delivered) :: rest =>
    (delivered = false →
      ∃ k, IsReport k ev ∧ ∃ ev', (ev', true) ∈ rest ∧ Settles k ev') ∧ MadeUp rest

/-- What an event says of a gamepad depends on what was known of this one. -/
theorem apply_local (ev : InputEvent) (h : m k = m' k) : m.apply ev k = m'.apply ev k := by
  simp only [apply, h]

theorem isSome_apply (ev : InputEvent) (h : (m k).isSome = (m' k).isSome) :
    (m.apply ev k).isSome = (m'.apply ev k).isSome := by
  cases ev <;> simp only [apply]
  case gamepad =>
    split
    · simpa using h
    · exact h
  case gamepadStatus =>
    split
    · split <;> rfl
    · exact h
  all_goals exact h

theorem apply_settles {ev : InputEvent} (hev : Settles k ev)
    (h : (m k).isSome = (m' k).isSome) : m.apply ev k = m'.apply ev k := by
  cases ev with
  | gamepad i b lt rt lx ly rx ry =>
    cases hev
    simp only [apply, if_true]
    cases hm : m k <;> cases hm' : m' k <;> simp_all
  | gamepadStatus i isConnected =>
    obtain ⟨rfl, rfl⟩ := hev
    simp [apply]
  | _ => exact hev.elim

/-- A report does not change which gamepads are there, and says nothing of the others. -/
theorem apply_of_isReport {ev : InputEvent} {i : UInt8} (hev : IsReport i ev) (k : UInt8) :
    (m.apply ev k).isSome = (m k).isSome ∧ (k ≠ i → m.apply ev k = m k) := by
  cases ev with
  | gamepad j b lt rt lx ly rx ry =>
    cases hev
    by_cases hk : k = i
    · simp [apply, hk]
    · simp [apply, hk]
  | _ => exact hev.elim

/-- **A lost report is made up for.** What the delivered events tell is what all the events tell,
where a later event settles whatever is lost. -/
theorem apply_delivered {flagged : List (InputEvent × Bool)} (hmade : MadeUp flagged)
    {m m' : Mirror} (hthere : ∀ k, (m k).isSome = (m' k).isSome)
    (hknown : ∀ k, m k = m' k ∨ ∃ ev, (ev, true) ∈ flagged ∧ Settles k ev) :
    (flagged.map Prod.fst).foldl apply m =
      ((flagged.filter Prod.snd).map Prod.fst).foldl apply m' := by
  induction flagged generalizing m m' with
  | nil =>
    funext k
    rcases hknown k with heq | ⟨ev, hmem, -⟩
    · exact heq
    · cases hmem
  | cons x rest ih =>
    obtain ⟨ev, delivered⟩ := x
    obtain ⟨hlost, hrest⟩ := hmade
    cases delivered with
    | true =>
      rw [List.filter_cons_of_pos rfl, List.map_cons, List.map_cons, List.foldl_cons,
        List.foldl_cons]
      refine ih hrest (fun k => isSome_apply ev (hthere k)) fun k => ?_
      rcases hknown k with heq | ⟨ev', hmem, hsettles⟩
      · exact Or.inl (apply_local ev heq)
      · rcases List.mem_cons.mp hmem with hhead | htail
        · cases hhead
          exact Or.inl (apply_settles hsettles (hthere k))
        · exact Or.inr ⟨ev', htail, hsettles⟩
    | false =>
      obtain ⟨i, hreport, ev', hmem', hsettles'⟩ := hlost rfl
      rw [List.filter_cons_of_neg (by simp), List.map_cons, List.foldl_cons]
      refine ih hrest (fun k => (apply_of_isReport hreport k).1.trans (hthere k)) fun k => ?_
      by_cases hk : k = i
      · exact Or.inr ⟨ev', hmem', hk ▸ hsettles'⟩
      · rw [(apply_of_isReport hreport k).2 hk]
        rcases hknown k with heq | ⟨ev'', hmem, hsettles⟩
        · exact Or.inl heq
        · rcases List.mem_cons.mp hmem with hhead | htail
          · cases hhead
          · exact Or.inr ⟨ev'', htail, hsettles⟩

end Mirror

/-! ## The host's side -/

/-- What a call on a controller reports. -/
def reportOf : VigemCall → Option XusbReport
  | .update report => some report
  | .remove => none

/-- What a request says of the gamepad it is for. -/
def ask (m : Mirror) (i : UInt8) : InputInjector.Request → Mirror
  | .plugIn => m.set i (some ((m i).getD none))
  | .call c => m.set i ((m i).bind fun _ => (reportOf c).map some)

theorem apply_of_request {Session : Type} (m : Mirror) (e : SessionInput Session) :
    match InputInjector.request? e with
    | none => m.apply e.ev = m
    | some (key, r) => key.1 = e.sender.ip ∧ m.apply e.ev = ask m key.2 r := by
  unfold InputInjector.request?
  cases e.ev with
  | gamepadStatus i isConnected =>
    refine ⟨rfl, funext fun k => ?_⟩
    by_cases hk : k = i
    · subst hk
      by_cases hgone : isConnected = 0 <;> cases hm : m k <;>
        simp [Mirror.apply, ask, hgone, reportOf, hm]
    · by_cases hgone : isConnected = 0 <;>
        simp [Mirror.apply, ask, hgone, hk, Mirror.set_other]
  | gamepad i b lt rt lx ly rx ry =>
    refine ⟨rfl, funext fun k => ?_⟩
    by_cases hk : k = i
    · subst hk
      cases hm : m k <;> simp [Mirror.apply, ask, reportOf, hm]
    · simp [Mirror.apply, ask, hk, Mirror.set_other]
  | _ => rfl

section
variable {Session : Type} {inj : InputInjector Session}

/-- The virtual controllers under an address, each with the report of its last call. -/
def view (ip : List UInt8) (inj : InputInjector Session) : Mirror := fun k =>
  (inj.targets (ip, k)).map fun target =>
    ((inj.controllers target.session)[target.number]?.bind (·.getLast?)).bind reportOf

theorem view_of_none {ip : List UInt8} {k : UInt8} (h : inj.targets (ip, k) = none) :
    view ip inj k = none := by
  simp [view, h]

theorem view_of_some {ip : List UInt8} {k : UInt8} {target : VigemTarget Session}
    (h : inj.targets (ip, k) = some target) : ∃ pad, view ip inj k = some pad := by
  simp [view, h]

variable [DecidableEq Session]

/-- Every target in the map is a controller of its own. -/
structure OneEach (inj : InputInjector Session) : Prop where
  exist : inj.TargetsExist
  own : ∀ key key' target, inj.targets key = some target → inj.targets key' = some target →
    key = key'

theorem oneEach_plugged (h : OneEach inj) (session : Session) (key : List UInt8 × UInt8) :
    OneEach (inj.plugged session key) := by
  refine ⟨h.exist.plugged session key, fun k k' target hk hk' => ?_⟩
  rw [InputInjector.targets_plugged] at hk hk'
  have hfresh : ∀ k, inj.targets k = some target →
      target ≠ ⟨session, (inj.controllers session).length⟩ := by
    rintro k hk rfl
    exact absurd (h.exist k _ hk) (Nat.lt_irrefl _)
  split at hk <;> split at hk'
  · next hkey hkey' => rw [hkey, hkey']
  · exact absurd (Option.some.inj hk).symm (hfresh k' hk')
  · exact absurd (Option.some.inj hk').symm (hfresh k hk)
  · exact h.own k k' target hk hk'

theorem oneEach_called (h : OneEach inj) (key : List UInt8 × UInt8)
    (target : VigemTarget Session) (c : VigemCall) : OneEach (inj.called key target c) := by
  refine ⟨h.exist.called key target c, fun k k' target' hk hk' => ?_⟩
  rw [InputInjector.targets_called] at hk hk'
  split at hk
  · cases hk
  · split at hk'
    · cases hk'
    · exact h.own k k' target' hk hk'

theorem view_plugged (h : OneEach inj) (session : Session) (key : List UInt8 × UInt8)
    (ip : List UInt8) (k : UInt8) :
    view ip (inj.plugged session key) k = if (ip, k) = key then some none else view ip inj k := by
  unfold view
  rw [InputInjector.targets_plugged]
  split
  · simp [InputInjector.controllers_plugged]
  · cases htarget : inj.targets (ip, k) with
    | none => rfl
    | some target =>
      have hlt := h.exist _ _ htarget
      simp only [Option.map_some, InputInjector.controllers_plugged]
      split
      · rw [List.getElem?_append_left hlt]
      · rfl

theorem view_called (h : OneEach inj) {key : List UInt8 × UInt8} {target : VigemTarget Session}
    (hkey : inj.targets key = some target) (c : VigemCall) (ip : List UInt8) (k : UInt8) :
    view ip (inj.called key target c) k =
      if (ip, k) = key then (reportOf c).map some else view ip inj k := by
  unfold view
  rw [InputInjector.targets_called]
  by_cases hk : (ip, k) = key
  · have hlt := h.exist _ _ hkey
    rw [if_pos hk]
    cases c with
    | remove => simp [hk, reportOf]
    | update report =>
      simp [hk, hkey, reportOf, InputInjector.controllers_called, hlt]
  · rw [if_neg hk, if_neg fun hand => hk hand.1]
    cases htarget : inj.targets (ip, k) with
    | none => rfl
    | some other =>
      simp only [Option.map_some, InputInjector.controllers_called]
      split
      · next hsession =>
        have hnumber : target.number ≠ other.number := by
          intro hnumber
          refine hk (h.own _ _ other htarget ?_)
          rw [hkey]
          exact congrArg some (by cases target; cases other; simp_all)
        rw [List.getElem?_modify_ne _ _ hnumber]
      · rfl

/-- A request under a key of the address, or of another. -/
theorem view_request (h : OneEach inj) (e : SessionInput Session) (ip : List UInt8)
    {key : List UInt8 × UInt8} {r : InputInjector.Request}
    (hreq : InputInjector.request? e = some (key, r)) :
    OneEach (inj.inject e) ∧ ∀ k, view ip (inj.inject e) k =
      if (ip, k) = key then ask (view ip inj) key.2 r k else view ip inj k := by
  rw [InputInjector.inject_eq, hreq]
  cases r with
  | plugIn =>
    cases htarget : inj.targets key with
    | none =>
      simp only [htarget]
      refine ⟨oneEach_plugged h _ _, fun k => ?_⟩
      rw [view_plugged h]
      split
      · next hk =>
        subst hk
        simp [ask, view_of_none htarget]
      · rfl
    | some target =>
      simp only [htarget]
      refine ⟨h, fun k => ?_⟩
      split
      · next hk =>
        subst hk
        obtain ⟨pad, hpad⟩ := view_of_some htarget
        simp [ask, hpad]
      · rfl
  | call c =>
    cases htarget : inj.targets key with
    | none =>
      simp only [htarget]
      refine ⟨h, fun k => ?_⟩
      split
      · next hk =>
        subst hk
        simp [ask, view_of_none htarget]
      · rfl
    | some target =>
      simp only [htarget]
      refine ⟨oneEach_called h _ _ _, fun k => ?_⟩
      rw [view_called h htarget]
      split
      · next hk =>
        subst hk
        obtain ⟨pad, hpad⟩ := view_of_some htarget
        simp [ask, hpad]
      · rfl

/-- An event is told of the address it comes from. -/
theorem view_inject (h : OneEach inj) (e : SessionInput Session) (ip : List UInt8) :
    OneEach (inj.inject e) ∧ view ip (inj.inject e) =
      if e.sender.ip = ip then (view ip inj).apply e.ev else view ip inj := by
  have happly := apply_of_request (view ip inj) e
  cases hreq : InputInjector.request? e with
  | none =>
    rw [hreq] at happly
    rw [InputInjector.inject_eq, hreq, happly]
    exact ⟨h, (ite_self _).symm⟩
  | some request =>
    obtain ⟨key, r⟩ := request
    rw [hreq] at happly
    obtain ⟨hkey, happly⟩ := happly
    obtain ⟨hone, hview⟩ := view_request h e ip hreq
    refine ⟨hone, funext fun k => ?_⟩
    rw [hview k, happly, ← hkey]
    by_cases hip : key.1 = ip
    · rw [if_pos hip]
      by_cases hk : k = key.2
      · rw [if_pos (by rw [← hip, hk])]
      · rw [if_neg fun heq => hk (congrArg Prod.snd heq)]
        cases r <;> exact (Mirror.set_other _ hk _).symm
    · rw [if_neg hip, if_neg fun heq => hip (congrArg Prod.fst heq).symm]

/-- The events from an address. -/
def eventsFrom (ip : List UInt8) (es : List (SessionInput Session)) : List InputEvent :=
  (es.filter (·.sender.ip = ip)).map (·.ev)

/-- **The host's side**: whoever else sends, the controllers under an address are the mirror of the
events from there. -/
theorem view_run (ip : List UInt8) (es : List (SessionInput Session)) :
    view ip (run InputInjector.inject .init es) = (eventsFrom ip es).foldl Mirror.apply .empty := by
  have hrun : ∀ inj : InputInjector Session, OneEach inj →
      view ip (run InputInjector.inject inj es) =
        (eventsFrom ip es).foldl Mirror.apply (view ip inj) := by
    induction es with
    | nil => exact fun _ _ => rfl
    | cons e es ih =>
      intro inj h
      obtain ⟨hone, hview⟩ := view_inject h e ip
      rw [run_cons, ih _ hone, hview]
      by_cases hip : e.sender.ip = ip <;> simp [eventsFrom, hip]
  refine hrun .init ⟨?_, ?_⟩
  · rintro key target ⟨⟩
  · rintro key key' target ⟨⟩

/-- The events of gamepads. -/
def isPad : InputEvent → Bool
  | .gamepad .. | .gamepadStatus .. => true
  | _ => false

theorem apply_not_isPad {ev : InputEvent} (h : isPad ev = false) (m : Mirror) :
    m.apply ev = m := by
  cases ev with
  | gamepad => cases h
  | gamepadStatus => cases h
  | _ => rfl

theorem foldl_filter_isPad (evs : List InputEvent) (m : Mirror) :
    (evs.filter isPad).foldl Mirror.apply m = evs.foldl Mirror.apply m := by
  induction evs generalizing m with
  | nil => rfl
  | cons ev evs ih =>
    cases hpad : isPad ev with
    | true => rw [List.filter_cons_of_pos hpad, List.foldl_cons, List.foldl_cons, ih]
    | false =>
      rw [List.filter_cons_of_neg (by simp [hpad]), List.foldl_cons, apply_not_isPad hpad, ih]

/-- **The host's controllers are the client's gamepads.** Let XInput give a gamepad another packet
number whenever it reads otherwise, and the driver accept every controller; let the gamepad events
that reach the host from an address be those of a client's polls, in order, less some reports that
are made up for. Then, whatever else the host is sent from there and from elsewhere, a controller is
plugged in for each gamepad of the last poll and for no other, and its last report is what that poll
has read. -/
theorem gamepads_mirrored {polls : List Pads} (hpolls : polls.IsChain Renumbered)
    {flagged : List (InputEvent × Bool)}
    (hsent : flagged.map Prod.fst = GamepadCapture.sent polls) (hmade : Mirror.MadeUp flagged)
    (ip : List UInt8) {es : List (SessionInput Session)}
    (hes : (eventsFrom ip es).filter isPad = (flagged.filter Prod.snd).map Prod.fst) :
    view ip (run InputInjector.inject .init es) = GamepadCapture.shown polls := by
  calc view ip (run InputInjector.inject .init es)
      = ((eventsFrom ip es).filter isPad).foldl Mirror.apply .empty := by
        rw [view_run, foldl_filter_isPad]
    _ = (flagged.map Prod.fst).foldl Mirror.apply .empty := by
        rw [hes]
        exact (Mirror.apply_delivered hmade (fun _ => rfl) fun _ => Or.inl rfl).symm
    _ = GamepadCapture.shown polls := by
        rw [hsent]
        exact GamepadCapture.sent_shows hpolls

end

/-- Two polls of a gamepad that is there: the first report is lost. -/
def pressed (n : UInt32) : Pads := fun i =>
  if i = 0 then some ⟨n, ⟨n.toUInt16, 0, 0, 0, 0, 0, 0⟩⟩ else none

def pressedEvents : List (InputEvent × Bool) :=
  [(.gamepadStatus 0 1, true), (.gamepad 0 1 0 0 0 0 0 0, false),
    (.gamepad 0 2 0 0 0 0 0 0, true)]

theorem gamepads_mirrored_two :
    view [1] (run InputInjector.inject (.init : InputInjector Nat)
      [⟨7, ⟨[1], 5005⟩, .gamepadStatus 0 1⟩, ⟨8, ⟨[2], 5005⟩, .gamepadStatus 0 1⟩,
        ⟨7, ⟨[1], 5005⟩, .gamepad 0 2 0 0 0 0 0 0⟩]) =
      GamepadCapture.shown [pressed 1, pressed 2] := by
  have hrenumbered : Renumbered (pressed 1) (pressed 2) := by
    intro i _ state state' h h' hsame
    unfold pressed at h h'
    split at h
    · rw [if_pos ‹_›] at h'
      cases h
      cases h'
      exact absurd hsame (by decide)
    · cases h
  have hsent : pressedEvents.map Prod.fst = GamepadCapture.sent [pressed 1, pressed 2] := rfl
  have hmade : Mirror.MadeUp pressedEvents :=
    ⟨fun h => (by cases h), fun _ => ⟨0, rfl, _, List.mem_singleton_self _, rfl⟩,
      fun h => (by cases h), trivial⟩
  exact gamepads_mirrored (List.isChain_pair.mpr hrenumbered) hsent hmade [1] rfl

end RemotePlay.Client
