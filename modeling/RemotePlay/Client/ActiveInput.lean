import RemotePlay.Lib.Run

/-!
# The active input capture

`runClient` has its `InputCapture` on its stack and, when there is a window, a
pointer to it in `m_activeInputCapture`, which the window's thread follows with
every raw input message. Pointer and call are under `m_inputCaptureMutex`. The
pointer is reset where the handshake has failed and at the end of the loop; the
returns after the renderer or the decoder has failed to initialise go past both.
-/

namespace RemotePlay.Client

open Lib

/-- Where `runClient` is. -/
inductive InputPhase where
  /-- About to set the pointer. -/
  | registering
  /-- The renderer and the decoder are initialised. -/
  | initializing
  | connecting
  | looping
  /-- About to reset the pointer. -/
  | clearing
  /-- On the way out behind the reset. -/
  | leaving
  /-- On the way out from a failed initialisation. -/
  | failed
  deriving DecidableEq

/-- Whether the pointer is set in the phase, if there is a window. -/
def InputPhase.isSet : InputPhase → Bool
  | .registering | .leaving => false
  | _ => true

/-- A call of `runClient` and the input capture on its stack. -/
structure ClientCall where
  input : Nat
  /-- `config.windowHandle != nullptr`. -/
  useRenderer : Bool
  phase : InputPhase

structure ActiveInput where
  activeInputCapture : Option Nat
  client : Option ClientCall
  made : Nat
  /-- The input capture `handleMessage` is in, with the mutex. -/
  handling : Option Nat

inductive ActiveInputEvent where
  | start (useRenderer : Bool)
  /-- The next step of `runClient`; `ok` is its outcome. -/
  | client (ok : Bool)
  | message
  | handled

namespace ActiveInput

def init : ActiveInput := ⟨none, none, 0, none⟩

def start (s : ActiveInput) (useRenderer : Bool) : ActiveInput :=
  match s.client with
  | none =>
    let phase := if useRenderer then .registering else .initializing
    { s with client := some ⟨s.made, useRenderer, phase⟩, made := s.made + 1 }
  | some _ => s

def goTo (s : ActiveInput) (c : ClientCall) (phase : InputPhase) : ActiveInput :=
  { s with client := some { c with phase := phase } }

def clientStep (s : ActiveInput) (c : ClientCall) (ok : Bool) : ActiveInput :=
  match c.phase with
  | .registering =>
    if s.handling = none then
      { s with activeInputCapture := some c.input }.goTo c .initializing
    else s
  | .initializing => s.goTo c (if ok then .connecting else .failed)
  | .connecting => s.goTo c (if ok then .looping else .clearing)
  | .looping => s.goTo c (if ok then .looping else .clearing)
  | .clearing =>
    if s.handling = none then { s with activeInputCapture := none }.goTo c .leaving else s
  | .leaving => { s with client := none }
  | .failed => { s with client := none }

/-- The next step of `runClient`, if it runs. -/
def runClient (s : ActiveInput) (ok : Bool) : ActiveInput :=
  match s.client with
  | some c => s.clientStep c ok
  | none => s

def step (s : ActiveInput) : ActiveInputEvent → ActiveInput
  | .start useRenderer => s.start useRenderer
  | .client ok => s.runClient ok
  | .message => if s.handling = none then { s with handling := s.activeInputCapture } else s
  | .handled => { s with handling := none }

/-- The input capture exists. -/
def Exists (s : ActiveInput) (input : Nat) : Prop := ∃ c, s.client = some c ∧ c.input = input

/-- Neither the pointer nor the call is of an input capture that is gone. -/
structure Safe (s : ActiveInput) : Prop where
  active : ∀ input, s.activeInputCapture = some input → s.Exists input
  handling : ∀ input, s.handling = some input → s.Exists input

/-- No client with a window goes because its renderer or its decoder has failed. -/
def Resets (s : ActiveInput) : ActiveInputEvent → Prop
  | .client _ => ∀ c, s.client = some c → c.phase = .failed → c.useRenderer = false
  | _ => True

/-! ## The pointer of the running client -/

variable {s : ActiveInput} {c : ClientCall}

structure Pointing (s : ActiveInput) : Prop where
  /-- No input capture is pointed to before it is made. -/
  active_lt : ∀ input, s.activeInputCapture = some input → input < s.made
  handling_lt : ∀ input, s.handling = some input → input < s.made
  client_lt : ∀ c, s.client = some c → c.input < s.made
  registering : ∀ c, s.client = some c → c.phase = .registering → c.useRenderer = true
  active_iff : ∀ c, s.client = some c →
    (s.activeInputCapture = some c.input ↔ c.useRenderer = true ∧ c.phase.isSet = true)
  handling_imp : ∀ c, s.client = some c → s.handling = some c.input →
    c.useRenderer = true ∧ c.phase.isSet = true

theorem pointing_init : init.Pointing :=
  ⟨nofun, nofun, nofun, nofun, nofun, nofun⟩

theorem pointing_start (h : s.Pointing) (useRenderer : Bool) : (s.start useRenderer).Pointing := by
  unfold start
  split
  · refine ⟨fun i hi => Nat.lt_succ_of_lt (h.active_lt i hi),
      fun i hi => Nat.lt_succ_of_lt (h.handling_lt i hi), ?_, ?_, ?_, ?_⟩
    · rintro _ ⟨⟩
      exact Nat.lt_succ_self s.made
    · rintro _ ⟨⟩ hphase
      cases useRenderer with
      | true => rfl
      | false => cases hphase
    · rintro _ ⟨⟩
      refine iff_of_false (fun hactive => ?_) ?_
      · exact Nat.lt_irrefl _ (h.active_lt _ hactive)
      · cases useRenderer <;> simp [InputPhase.isSet]
    · rintro _ ⟨⟩ hhandling
      exact absurd (h.handling_lt _ hhandling) (Nat.lt_irrefl _)
  · exact h

/-- A step to a phase with the pointer as it is. -/
theorem pointing_goTo (h : s.Pointing) (hc : s.client = some c) {phase : InputPhase}
    (hset : phase.isSet = c.phase.isSet) (hphase : phase ≠ .registering) :
    (s.goTo c phase).Pointing := by
  refine ⟨h.active_lt, h.handling_lt, ?_, ?_, ?_, ?_⟩
  · rintro _ ⟨⟩
    exact h.client_lt c hc
  · rintro _ ⟨⟩ hregistering
    exact absurd hregistering hphase
  · rintro _ ⟨⟩
    show _ ↔ c.useRenderer = true ∧ phase.isSet = true
    rw [hset]
    exact h.active_iff c hc
  · rintro _ ⟨⟩ hhandling
    show c.useRenderer = true ∧ phase.isSet = true
    rw [hset]
    exact h.handling_imp c hc hhandling

theorem pointing_clientStep (h : s.Pointing) (hc : s.client = some c) (ok : Bool) :
    (s.clientStep c ok).Pointing := by
  unfold clientStep
  split
  · next hphase =>
    split
    · next hfree =>
      refine ⟨?_, fun i hi => h.handling_lt i hi, ?_, ?_, ?_, ?_⟩
      · rintro _ ⟨⟩
        exact h.client_lt c hc
      · rintro _ ⟨⟩
        exact h.client_lt c hc
      · rintro _ ⟨⟩ hregistering
        cases hregistering
      · rintro _ ⟨⟩
        exact iff_of_true rfl ⟨h.registering c hc hphase, rfl⟩
      · intro _ _ hhandling
        rw [goTo, hfree] at hhandling
        cases hhandling
    · exact h
  · next hphase => cases ok <;> exact pointing_goTo h hc (by rw [hphase]; rfl) (by decide)
  · next hphase => cases ok <;> exact pointing_goTo h hc (by rw [hphase]; rfl) (by decide)
  · next hphase => cases ok <;> exact pointing_goTo h hc (by rw [hphase]; rfl) (by decide)
  · split
    · next hfree =>
      refine ⟨nofun, fun i hi => h.handling_lt i hi, ?_, ?_, ?_, ?_⟩
      · rintro _ ⟨⟩
        exact h.client_lt c hc
      · rintro _ ⟨⟩ hregistering
        cases hregistering
      · rintro _ ⟨⟩
        exact iff_of_false nofun fun hset => by cases hset.2
      · intro _ _ hhandling
        rw [goTo, hfree] at hhandling
        cases hhandling
    · exact h
  · exact ⟨h.active_lt, h.handling_lt, nofun, nofun, nofun, nofun⟩
  · exact ⟨h.active_lt, h.handling_lt, nofun, nofun, nofun, nofun⟩

theorem pointing_step (h : s.Pointing) (e : ActiveInputEvent) : (s.step e).Pointing := by
  cases e with
  | start useRenderer => exact pointing_start h useRenderer
  | client ok =>
    show (s.runClient ok).Pointing
    unfold runClient
    split
    · next c hc => exact pointing_clientStep h hc ok
    · exact h
  | message =>
    show (if s.handling = none then { s with handling := s.activeInputCapture } else s).Pointing
    split
    · exact ⟨h.active_lt, h.active_lt, h.client_lt, h.registering, h.active_iff,
        fun c hc => (h.active_iff c hc).mp⟩
    · exact h
  | handled =>
    exact ⟨h.active_lt, nofun, h.client_lt, h.registering, h.active_iff, nofun⟩

/-! ## Whether what is pointed to exists -/

theorem safe_goTo (h : s.Safe) (hc : s.client = some c) (phase : InputPhase) :
    (s.goTo c phase).Safe := by
  have hkeep : ∀ input, s.Exists input → (s.goTo c phase).Exists input := by
    rintro input ⟨c', hc', rfl⟩
    obtain rfl := Option.some.inj (hc.symm.trans hc')
    exact ⟨_, rfl, rfl⟩
  exact ⟨fun i hi => hkeep i (h.active i hi), fun i hi => hkeep i (h.handling i hi)⟩

/-- A client that goes leaves nothing behind iff nothing points to its input capture. -/
theorem safe_gone_iff (h : s.Safe) (hc : s.client = some c) :
    ({ s with client := none }).Safe ↔
      s.activeInputCapture ≠ some c.input ∧ s.handling ≠ some c.input := by
  constructor
  · intro hsafe
    refine ⟨fun hactive => ?_, fun hhandling => ?_⟩
    · obtain ⟨c', hc', -⟩ := hsafe.active _ hactive
      cases hc'
    · obtain ⟨c', hc', -⟩ := hsafe.handling _ hhandling
      cases hc'
  · rintro ⟨hactive, hhandling⟩
    refine ⟨fun i hi => ?_, fun i hi => ?_⟩
    · obtain ⟨c', hc', rfl⟩ := h.active i hi
      obtain rfl := Option.some.inj (hc.symm.trans hc')
      exact absurd hi hactive
    · obtain ⟨c', hc', rfl⟩ := h.handling i hi
      obtain rfl := Option.some.inj (hc.symm.trans hc')
      exact absurd hi hhandling

theorem safe_clientStep_iff (h : s.Safe) (hpointing : s.Pointing) (hc : s.client = some c)
    (ok : Bool) : (s.clientStep c ok).Safe ↔ (c.phase = .failed → c.useRenderer = false) := by
  have hother : c.phase ≠ .failed → (c.phase = .failed → c.useRenderer = false) :=
    fun hne hfailed => absurd hfailed hne
  unfold clientStep
  split
  · next hphase =>
    refine iff_of_true ?_ (hother (by rw [hphase]; decide))
    split
    · refine ⟨?_, fun i hi => (safe_goTo h hc .initializing).handling i hi⟩
      rintro _ ⟨⟩
      exact ⟨_, rfl, rfl⟩
    · exact h
  · next hphase =>
    exact iff_of_true (safe_goTo h hc _) (hother (by rw [hphase]; decide))
  · next hphase =>
    exact iff_of_true (safe_goTo h hc _) (hother (by rw [hphase]; decide))
  · next hphase =>
    exact iff_of_true (safe_goTo h hc _) (hother (by rw [hphase]; decide))
  · next hphase =>
    refine iff_of_true ?_ (hother (by rw [hphase]; decide))
    split
    · exact ⟨nofun, fun i hi => (safe_goTo h hc .leaving).handling i hi⟩
    · exact h
  · next hphase =>
    refine iff_of_true ((safe_gone_iff h hc).mpr ⟨fun hactive => ?_, fun hhandling => ?_⟩)
      (hother (by rw [hphase]; decide))
    · have hset := ((hpointing.active_iff c hc).mp hactive).2
      rw [hphase] at hset
      cases hset
    · have hset := (hpointing.handling_imp c hc hhandling).2
      rw [hphase] at hset
      cases hset
  · next hphase =>
    rw [safe_gone_iff h hc, hphase]
    refine ⟨fun hgone _ => ?_, fun hwindow => ⟨fun hactive => ?_, fun hhandling => ?_⟩⟩
    · by_contra hwindow
      rw [Bool.not_eq_false] at hwindow
      exact hgone.1 ((hpointing.active_iff c hc).mpr ⟨hwindow, by rw [hphase]; rfl⟩)
    · have hset := ((hpointing.active_iff c hc).mp hactive).1
      simp [hwindow rfl] at hset
    · have hset := (hpointing.handling_imp c hc hhandling).1
      simp [hwindow rfl] at hset

theorem safe_step_iff (h : s.Safe) (hpointing : s.Pointing) (e : ActiveInputEvent) :
    (s.step e).Safe ↔ s.Resets e := by
  cases e with
  | start useRenderer =>
    refine iff_of_true ?_ trivial
    show (s.start useRenderer).Safe
    unfold start
    split
    · next hc =>
      have hnone : ∀ input, ¬ s.Exists input := by
        rintro input ⟨c, hc', -⟩
        rw [hc] at hc'
        cases hc'
      exact ⟨fun i hi => absurd (h.active i hi) (hnone i),
        fun i hi => absurd (h.handling i hi) (hnone i)⟩
    · exact h
  | client ok =>
    show (s.runClient ok).Safe ↔ ∀ c, s.client = some c → _
    unfold runClient
    split
    · next c hc =>
      rw [safe_clientStep_iff h hpointing hc ok]
      refine ⟨fun himp c' hc' => ?_, fun hall => hall c hc⟩
      obtain rfl := Option.some.inj (hc.symm.trans hc')
      exact himp
    · next hc => exact iff_of_true h fun c hc' => by simp [hc] at hc'
  | message =>
    refine iff_of_true ?_ trivial
    show (if s.handling = none then { s with handling := s.activeInputCapture } else s).Safe
    split
    · exact ⟨h.active, h.active⟩
    · exact h
  | handled => exact iff_of_true ⟨h.active, nofun⟩ trivial

/-- **Raw input** never reaches an input capture that is gone, and none goes while it is in use, in
every state of a run iff no client with a window went because its renderer or its decoder failed. -/
theorem input_capture_safe_iff (es : List ActiveInputEvent) :
    (∀ es', es' <+: es → (run step init es').Safe) ↔ Along step Resets init es := by
  have hstep : ∀ s e, Pointing s → Pointing (step s e) := fun _ e h => pointing_step h e
  have hexact : ∀ s e, Pointing s → Safe s → (Safe (step s e) ↔ Resets s e) :=
    fun _ e hpointing h => safe_step_iff h hpointing e
  exact forall_prefix_iff_along hstep hexact pointing_init ⟨nofun, nofun⟩ es

end ActiveInput

end RemotePlay.Client
