import RemotePlay.Host.HostContext
import RemotePlay.Lib.Isolation

/-!
# Virtual controllers

The injector keeps the virtual controllers in a map keyed by the client's
address and its number for the gamepad. The port of the client is not part of
the key, and neither is its session: clients behind one address share a
controller when they use the same number. `OwnController` is the condition on
an event under which it touches no controller of another session. The handlers take
as inputs whether the driver's bus is connected and whether it accepts a controller;
`inject` is the case in which it is and accepts every one.
-/

namespace RemotePlay.Host

open Lib Protocol

/-- `XUSB_REPORT`. -/
structure XusbReport where
  wButtons : UInt16
  bLeftTrigger : UInt8
  bRightTrigger : UInt8
  sThumbLX : Int16
  sThumbLY : Int16
  sThumbRX : Int16
  sThumbRY : Int16
  deriving DecidableEq, Repr

/-- A call on a controller that has been plugged in. -/
inductive VigemCall where
  | update (report : XusbReport)
  | remove
  deriving DecidableEq, Repr

/-- A `PVIGEM_TARGET`. Each call of `vigem_target_x360_alloc` returns a new one; it is named by the
session whose event the call serves, and the number of those the session had before. -/
structure VigemTarget (Session : Type) where
  session : Session
  number : Nat
  deriving DecidableEq, Repr

/-- The injector with the bus behind it. -/
structure InputInjector (Session : Type) where
  /-- `m_targets`, by `(clientIp, gamepadId)`. -/
  targets : List UInt8 × UInt8 → Option (VigemTarget Session)
  /-- The controllers plugged in for a session, each with the calls on it since. -/
  controllers : Session → List (List VigemCall)

/-- An event as the host dispatches it: the session it arrived in, and where its datagram came
from. -/
structure SessionInput (Session : Type) where
  session : Session
  sender : Endpoint
  ev : InputEvent

/-- The dispatch hands the injector the sender's address, and nothing else of the endpoint. -/
theorem address_of_inject {ctx : HostContext} {input : HostInput} {target : ClientState} {n : Nat}
    {m : Mem} {clientIp : List UInt8} {ev : InputEvent}
    (h : HostEffect.inject clientIp ev ∈ (ctx.dispatch input target n m).2) :
    clientIp = input.sender.ip := by
  unfold HostContext.dispatch at h
  split at h
  · -- the input branch
    simp only [HostContext.handleInput] at h
    split at h
    · cases List.mem_singleton.mp h
      rfl
    · cases h
  split at h
  · simp only [HostContext.handleFeedback] at h
    split at h <;> simp at h
  split at h
  · cases h
  split at h
  · simp [HostContext.handleTimeSync] at h
  · cases h

namespace InputInjector

variable {Session : Type} [DecidableEq Session]

def init : InputInjector Session := ⟨fun _ => none, fun _ => []⟩

/-- `vigem_target_x360_alloc`, and a `vigem_target_add` that succeeds. -/
def vigemAdd (inj : InputInjector Session) (session : Session) :
    VigemTarget Session × (Session → List (List VigemCall)) :=
  (⟨session, (inj.controllers session).length⟩,
    fun s => if s = session then inj.controllers s ++ [[]] else inj.controllers s)

/-- A call on a target. -/
def vigemCall (inj : InputInjector Session) (target : VigemTarget Session) (call : VigemCall) :
    Session → List (List VigemCall) :=
  fun s =>
    if s = target.session then (inj.controllers s).modify target.number (· ++ [call])
    else inj.controllers s

def setTarget (inj : InputInjector Session) (key : List UInt8 × UInt8)
    (target : Option (VigemTarget Session)) : List UInt8 × UInt8 → Option (VigemTarget Session) :=
  fun k => if k = key then target else inj.targets k

/-- `HandleGamepadStatus`: `vigem` says that `m_vigem` is not null, and `success` what
`vigem_target_add` answers if it is called; a target that is not accepted is freed again. -/
def handleGamepadStatus (inj : InputInjector Session) (vigem success : Bool) (session : Session)
    (clientIp : List UInt8) (gamepadId isConnected : UInt8) : InputInjector Session :=
  if !vigem then inj else
  let key := (clientIp, gamepadId)
  if isConnected ≠ 0 then
    match inj.targets key with
    | none =>
      if success then
        { targets := inj.setTarget key (some (inj.vigemAdd session).1)
          controllers := (inj.vigemAdd session).2 }
      else inj
    | some _ => inj
  else
    match inj.targets key with
    | none => inj
    | some target =>
      { targets := inj.setTarget key none
        controllers := inj.vigemCall target .remove }

def injectGamepad (inj : InputInjector Session) (vigem : Bool) (clientIp : List UInt8)
    (gamepadId : UInt8) (report : XusbReport) : InputInjector Session :=
  if !vigem then inj else
  match inj.targets (clientIp, gamepadId) with
  | none => inj
  | some target => { inj with controllers := inj.vigemCall target (.update report) }

/-- The input branch of the dispatch, with the bus connected and every `vigem_target_add` a success:
the injector is given the sender's address. Keyboard and mouse events touch no controller. -/
def inject (inj : InputInjector Session) (e : SessionInput Session) : InputInjector Session :=
  match e.ev with
  | .gamepadStatus gamepadId isConnected =>
    inj.handleGamepadStatus true true e.session e.sender.ip gamepadId isConnected
  | .gamepad gamepadId buttons leftTrigger rightTrigger thumbLX thumbLY thumbRX thumbRY =>
    inj.injectGamepad true e.sender.ip gamepadId
      ⟨buttons, leftTrigger, rightTrigger, thumbLX, thumbLY, thumbRX, thumbRY⟩
  | _ => inj

/-- What an event asks for: a controller to be plugged in, or a call on it. -/
inductive Request where
  | plugIn
  | call (c : VigemCall)

/-- The request of an event, with the key it is for. -/
def request? (e : SessionInput Session) : Option ((List UInt8 × UInt8) × Request) :=
  match e.ev with
  | .gamepadStatus gamepadId isConnected =>
    some ((e.sender.ip, gamepadId), if isConnected ≠ 0 then .plugIn else .call .remove)
  | .gamepad gamepadId buttons leftTrigger rightTrigger thumbLX thumbLY thumbRX thumbRY =>
    some ((e.sender.ip, gamepadId), .call (.update
      ⟨buttons, leftTrigger, rightTrigger, thumbLX, thumbLY, thumbRX, thumbRY⟩))
  | _ => none

/-- What a session has of the virtual controllers: those plugged in for it, and what became of
them. -/
def sessionView (session : Session) (inj : InputInjector Session) : List (List VigemCall) :=
  inj.controllers session

/-- A controller under the key of the event is of the event's own session. -/
def OwnController (inj : InputInjector Session) (e : SessionInput Session) : Prop :=
  ∀ r, request? e = some r → ∀ target, inj.targets r.1 = some target → target.session = e.session

/-! ## What one event does -/

/-- A controller is plugged in under the key. -/
def plugged (inj : InputInjector Session) (session : Session) (key : List UInt8 × UInt8) :
    InputInjector Session :=
  ⟨inj.setTarget key (some (inj.vigemAdd session).1), (inj.vigemAdd session).2⟩

/-- The target under the key is called. -/
def called (inj : InputInjector Session) (key : List UInt8 × UInt8)
    (target : VigemTarget Session) (c : VigemCall) : InputInjector Session :=
  ⟨if c = .remove then inj.setTarget key none else inj.targets, inj.vigemCall target c⟩

/-- A controller is plugged in under a free key; other calls go to the target under it. -/
theorem inject_eq (inj : InputInjector Session) (e : SessionInput Session) :
    inj.inject e =
      match request? e with
      | none => inj
      | some (key, .plugIn) =>
        match inj.targets key with
        | none => inj.plugged e.session key
        | some _ => inj
      | some (key, .call c) =>
        match inj.targets key with
        | none => inj
        | some target => inj.called key target c := by
  unfold inject request?
  cases e.ev with
  | gamepadStatus gamepadId isConnected =>
    simp only [handleGamepadStatus, Bool.not_true, Bool.false_eq_true, if_false, if_true]
    split
    · rfl
    · rfl
  | gamepad gamepadId buttons lt rt lx ly rx ry => rfl
  | keyboard => rfl
  | mouseMove => rfl
  | mouseButton => rfl
  | mouseScroll => rfl

section
variable {inj : InputInjector Session} {session : Session} {key : List UInt8 × UInt8}
  {target : VigemTarget Session} {c : VigemCall}

theorem controllers_plugged (s : Session) : (inj.plugged session key).controllers s =
    if s = session then inj.controllers s ++ [[]] else inj.controllers s := rfl

theorem controllers_called (s : Session) : (inj.called key target c).controllers s =
    if s = target.session then (inj.controllers s).modify target.number (· ++ [c])
    else inj.controllers s := rfl

theorem targets_plugged (k : List UInt8 × UInt8) : (inj.plugged session key).targets k =
    if k = key then some ⟨session, (inj.controllers session).length⟩ else inj.targets k := rfl

theorem targets_called (k : List UInt8 × UInt8) : (inj.called key target c).targets k =
    if k = key ∧ c = .remove then none else inj.targets k := by
  by_cases hc : c = .remove <;> simp [called, setTarget, hc]

end

/-- Targets in the map are controllers that were plugged in. -/
def TargetsExist (inj : InputInjector Session) : Prop :=
  ∀ key target, inj.targets key = some target →
    target.number < (inj.controllers target.session).length

theorem TargetsExist.plugged {inj : InputInjector Session} (h : inj.TargetsExist)
    (session : Session) (key : List UInt8 × UInt8) : (inj.plugged session key).TargetsExist := by
  intro k target hk
  rw [targets_plugged] at hk
  rw [controllers_plugged]
  split at hk
  · cases hk
    rw [if_pos rfl, List.length_append]
    exact Nat.lt_succ_self _
  · have hlt := h k target hk
    split
    · rw [List.length_append]
      exact Nat.lt_succ_of_lt hlt
    · exact hlt

theorem TargetsExist.called {inj : InputInjector Session} (h : inj.TargetsExist)
    (key : List UInt8 × UInt8) (target : VigemTarget Session) (c : VigemCall) :
    (inj.called key target c).TargetsExist := by
  intro k target' hk
  rw [targets_called] at hk
  split at hk
  · cases hk
  · rw [controllers_called]
    split
    · rw [List.length_modify]
      exact h k target' hk
    · exact h k target' hk

/-! ## The run and a session alone -/

/-- The injector in the run and the injector of one session alone: the same controllers of the
session, and of the map the targets that are the session's. -/
structure SameFor (session : Session) (inj solo : InputInjector Session) : Prop where
  exist : inj.TargetsExist
  controllers : inj.controllers session = solo.controllers session
  targets : ∀ key, solo.targets key = (inj.targets key).filter fun t => t.session = session

variable {session : Session} {inj solo : InputInjector Session}

/-- The session's own target is there alone too. -/
theorem SameFor.target (h : SameFor session inj solo) {key : List UInt8 × UInt8}
    {target : VigemTarget Session} (ht : inj.targets key = some target)
    (hown : target.session = session) : solo.targets key = some target := by
  rw [h.targets, ht, Option.filter_some, if_pos (by simpa using hown)]

/-- A target of another session is not. -/
theorem SameFor.target_none (h : SameFor session inj solo) {key : List UInt8 × UInt8}
    (ht : ∀ target, inj.targets key = some target → target.session ≠ session) :
    solo.targets key = none := by
  rw [h.targets]
  cases hk : inj.targets key with
  | none => rfl
  | some target => rw [Option.filter_some, if_neg (by simpa using ht target hk)]

theorem SameFor.plugged (h : SameFor session inj solo) (key : List UInt8 × UInt8) :
    SameFor session (inj.plugged session key) (solo.plugged session key) where
  exist := h.exist.plugged session key
  controllers := by rw [controllers_plugged, controllers_plugged, h.controllers]
  targets k := by
    rw [targets_plugged, targets_plugged, h.controllers]
    split
    · rw [Option.filter_some, if_pos (decide_eq_true rfl)]
    · exact h.targets k

theorem SameFor.plugged_other (h : SameFor session inj solo) {other : Session}
    (hne : session ≠ other) {key : List UInt8 × UInt8} (hfree : inj.targets key = none) :
    SameFor session (inj.plugged other key) solo where
  exist := h.exist.plugged other key
  controllers := by rw [controllers_plugged, if_neg hne, h.controllers]
  targets k := by
    rw [targets_plugged]
    split
    · next hk =>
      rw [hk, h.targets, hfree, Option.filter_some, if_neg (by simpa using Ne.symm hne)]
      rfl
    · exact h.targets k

theorem SameFor.called (h : SameFor session inj solo) (key : List UInt8 × UInt8)
    (target : VigemTarget Session) (c : VigemCall) :
    SameFor session (inj.called key target c) (solo.called key target c) where
  exist := h.exist.called key target c
  controllers := by rw [controllers_called, controllers_called, h.controllers]
  targets k := by
    rw [targets_called, targets_called]
    split
    · rfl
    · exact h.targets k

theorem SameFor.called_other (h : SameFor session inj solo) {key : List UInt8 × UInt8}
    {target : VigemTarget Session} (hne : session ≠ target.session)
    (ht : inj.targets key = some target) (c : VigemCall) :
    SameFor session (inj.called key target c) solo where
  exist := h.exist.called key target c
  controllers := by rw [controllers_called, if_neg hne, h.controllers]
  targets k := by
    rw [targets_called]
    split
    · next hk =>
      rw [hk.1, h.targets, ht, Option.filter_some, if_neg (by simpa using Ne.symm hne)]
      rfl
    · exact h.targets k

/-- **One event** on a controller of its own session, seen from any session. -/
theorem SameFor.inject (h : SameFor session inj solo) (e : SessionInput Session)
    (hown : OwnController inj e) :
    SameFor session (inj.inject e)
      (soloStep InputInjector.inject SessionInput.session session solo e) := by
  unfold soloStep
  rw [inject_eq inj e, inject_eq solo e]
  rcases hreq : request? e with _ | ⟨key, req⟩
  · simpa using h
  have hown' := hown _ hreq
  by_cases hs : e.session = session
  · rw [if_pos hs]
    have hsolo : solo.targets key = inj.targets key := by
      cases ht : inj.targets key with
      | none => exact h.target_none fun target htarget => by rw [ht] at htarget; cases htarget
      | some target => exact h.target ht ((hown' target ht).trans hs)
    cases req with
    | plugIn =>
      simp only [hsolo]
      cases inj.targets key with
      | none => exact hs ▸ (hs ▸ h : SameFor e.session inj solo).plugged key
      | some target => exact h
    | call c =>
      simp only [hsolo]
      cases inj.targets key with
      | none => exact h
      | some target => exact h.called key target c
  · rw [if_neg hs]
    cases req with
    | plugIn =>
      cases ht : inj.targets key with
      | none =>
        simp only [ht]
        exact h.plugged_other (Ne.symm hs) ht
      | some target =>
        simp only [ht]
        exact h
    | call c =>
      cases ht : inj.targets key with
      | none =>
        simp only [ht]
        exact h
      | some target =>
        simp only [ht]
        exact h.called_other (fun heq => hs ((hown' target ht).symm.trans heq.symm)) ht c

/-- A call changes what the session of the target has of it. -/
theorem modify_append_ne {l : List (List VigemCall)} {n : Nat} (h : n < l.length)
    (c : VigemCall) : l.modify n (· ++ [c]) ≠ l := by
  intro heq
  have hn := congrArg (·[n]?) heq
  simp [List.getElem?_eq_getElem h] at hn

/-- **One event** on another session's controller is seen: by its own session when a controller is
not plugged in for it, and otherwise by the session of the controller. -/
theorem inject_seen (solos : Session → InputInjector Session) (inj : InputInjector Session)
    (e : SessionInput Session) (h : ∀ session, SameFor session inj (solos session))
    (hown : ¬ OwnController inj e) :
    ∃ session, sessionView session (inj.inject e) ≠ sessionView session
      (soloStep InputInjector.inject SessionInput.session session (solos session) e) := by
  unfold OwnController at hown
  push Not at hown
  obtain ⟨⟨key, req⟩, hreq, target, ht, hne⟩ := hown
  unfold sessionView soloStep
  cases req with
  | plugIn =>
    refine ⟨e.session, ?_⟩
    have hsolo : (solos e.session).targets key = none :=
      (h e.session).target_none fun target' ht' => by
        rw [ht] at ht'
        cases ht'
        exact hne
    rw [if_pos rfl, inject_eq inj e, inject_eq (solos e.session) e, hreq]
    simp only [ht, hsolo]
    rw [controllers_plugged, if_pos rfl, ← (h e.session).controllers]
    exact fun heq => absurd (congrArg List.length heq) (by simp)
  | call c =>
    refine ⟨target.session, ?_⟩
    rw [if_neg (Ne.symm hne), inject_eq inj e, hreq]
    simp only [ht]
    rw [controllers_called, if_pos rfl, ← (h target.session).controllers]
    exact modify_append_ne ((h target.session).exist key target ht) c

/-! ## Runs -/

/-- Every session has of its controllers what it would have alone. -/
def ControllersIsolated (es : List (SessionInput Session)) : Prop :=
  Isolated InputInjector.inject SessionInput.session sessionView .init es

theorem sameFor_init (session : Session) :
    SameFor session (.init : InputInjector Session) .init where
  exist := fun _ _ h => by cases h
  controllers := rfl
  targets _ := rfl

/-- **Controllers belong to their session** all along a run iff each event finds under its key no
controller or one of its own session. -/
theorem controllers_isolated_iff (es : List (SessionInput Session)) :
    (∀ es', es' <+: es → ControllersIsolated es') ↔
      Along InputInjector.inject OwnController .init es :=
  isolated_iff_along (fun _ _ _ h => h.controllers) (fun _ _ _ e h hown => h.inject e hown)
    (fun solos inj e h hown => inject_seen solos inj e h hown) sameFor_init es

/-- Sessions that use different keys. -/
def KeysApart (es : List (SessionInput Session)) : Prop :=
  ∀ e ∈ es, ∀ e' ∈ es, ∀ r r', request? e = some r → request? e' = some r' → r.1 = r'.1 →
    e.session = e'.session

/-- A target in the map was plugged in by an event with its key. -/
def FromEvents (past : List (SessionInput Session)) (inj : InputInjector Session) : Prop :=
  ∀ key target, inj.targets key = some target →
    ∃ e ∈ past, e.session = target.session ∧ ∃ r, request? e = some r ∧ r.1 = key

theorem FromEvents.inject {past : List (SessionInput Session)} (h : FromEvents past inj)
    (e : SessionInput Session) : FromEvents (past ++ [e]) (inj.inject e) := by
  have hpast : FromEvents (past ++ [e]) inj := fun key target ht =>
    let ⟨e', he', hrest⟩ := h key target ht
    ⟨e', List.mem_append_left _ he', hrest⟩
  rw [inject_eq]
  rcases hreq : request? e with _ | ⟨key, req⟩
  · exact hpast
  cases req with
  | plugIn =>
    cases ht : inj.targets key with
    | some target =>
      simp only [ht]
      exact hpast
    | none =>
      simp only [ht]
      intro k target hk
      rw [targets_plugged] at hk
      split at hk
      · next heq =>
        cases hk
        exact ⟨e, by simp, rfl, _, hreq, heq.symm⟩
      · exact hpast k target hk
  | call c =>
    cases ht : inj.targets key with
    | none =>
      simp only [ht]
      exact hpast
    | some target =>
      simp only [ht]
      intro k target' hk
      rw [targets_called] at hk
      split at hk
      · cases hk
      · exact hpast k target' hk

/-- Sessions with addresses or gamepad numbers of their own keep to their own controllers. -/
theorem along_of_keysApart {es : List (SessionInput Session)} (h : KeysApart es) :
    Along InputInjector.inject OwnController .init es := by
  suffices hrun : ∀ (past rest : List (SessionInput Session)) (inj : InputInjector Session),
      past ++ rest = es → FromEvents past inj → Along InputInjector.inject OwnController inj rest
    from hrun [] es .init rfl fun _ _ ht => by cases ht
  intro past rest
  induction rest generalizing past with
  | nil => intros; trivial
  | cons e rest ih =>
    intro inj hes hfrom
    refine ⟨fun r hr target ht => ?_, ih (past ++ [e]) _ (by rw [← hes]; simp) (hfrom.inject e)⟩
    obtain ⟨e', he', hsession, r', hr', hkey⟩ := hfrom r.1 target ht
    have hmem' : e' ∈ es := by rw [← hes]; exact List.mem_append_left _ he'
    have hmem : e ∈ es := by rw [← hes]; simp
    rw [← hsession]
    exact h e' hmem' e hmem r' r hr' hr hkey

/-- Two clients behind one address, on ports of their own, each with its gamepad 0. -/
def pad (session : Nat) (port : UInt16) (ev : InputEvent) : SessionInput Nat :=
  ⟨session, ⟨[0x31], port⟩, ev⟩

/-- The second client unplugs the controller of the first. -/
theorem neighbour_unplugs :
    ¬ ControllersIsolated [pad 1 6000 (.gamepadStatus 0 1), pad 2 6001 (.gamepadStatus 0 0)] := by
  intro h
  have hfirst := h 1
  revert hfirst
  decide

end InputInjector

end RemotePlay.Host
