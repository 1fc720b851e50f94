import RemotePlay.Lib.RefCount
import RemotePlay.Lib.Run

/-!
# References to the capture device

The Direct3D device that the screen is captured with is shared: `CaptureDXGI`
owns it, every encoder takes a reference of its own, and another for the
hardware context that FFmpeg is given. The encoder managers keep the pointer
without a reference, and use it whenever they start an encoder again. `Shutdown`
gives the reference of the hardware context back itself, before FFmpeg frees the
context; a context that fails to start is only freed, and so is one that a failed
`avcodec_open2` has taken out of the codec's context. The parameter says whether
FFmpeg releases the device of a context it frees.
-/

namespace RemotePlay.Host

open Lib

/-- The members that own a reference to a device. -/
inductive DeviceHolder (ε : Type) where
  /-- `m_device` of the capture. -/
  | capture
  /-- `d3d11Device` of an encoder. -/
  | encoder (e : ε)
  /-- The device in the hardware context of an encoder. -/
  | hwDevice (e : ε)
  deriving DecidableEq

structure DeviceRefs (μ ε δ : Type) where
  refs : RefCounts (DeviceHolder ε) δ
  /-- `m_dupl` is there. -/
  dupl : Bool
  /-- What `GetDevice` returned for the call of `Initialize` under way. -/
  argument : μ → Option δ
  /-- `m_d3d11Device` of each encoder manager. -/
  d3d11Device : μ → Option δ

/-- What `CaptureDXGI::Initialize` meets; `created` is what `D3D11CreateDevice` makes. -/
structure CaptureInit (δ : Type) where
  removed : Bool
  adapter : Bool
  created : Option δ
  output : Bool
  duplicated : Bool

inductive NextFrame where
  | frame
  | lost
  | failed

/-- What `AcquireFrame` meets. -/
structure CaptureAnswers where
  removed : Bool
  next : NextFrame
  texture : Bool

/-- What `FFmpegHardwareEncoder::Initialize` meets: a codec and its context, whether a hardware
context is allocated and starts, and whether the codec opens. -/
structure EncoderAttempt where
  codec : Bool
  hwContext : Option Bool
  opened : Bool
  /-- An `avcodec_open2` that fails leaves a null `hw_device_ctx` behind. -/
  unref : Bool

/-- A call, of the capture thread or of another one. -/
inductive DeviceEvent (μ ε δ : Type) where
  | captureInitialize (a : CaptureInit δ)
  | acquireFrame (a : CaptureAnswers)
  | cleanup
  /-- The argument of `Initialize` of manager `m` is evaluated. -/
  | getDevice (m : μ)
  /-- Manager `m` stores it. -/
  | storeDevice (m : μ)
  /-- Manager `m` initialises encoder `e`, a test encoder or its own. -/
  | encoderInitialize (m : μ) (e : ε) (a : EncoderAttempt)
  | encoderShutdown (e : ε)

namespace DeviceRefs

open DeviceHolder

variable {μ ε δ : Type}

def start : DeviceRefs μ ε δ := ⟨.start, false, fun _ => none, fun _ => none⟩

section
variable [DecidableEq ε] [DecidableEq δ]

section
variable (s : DeviceRefs μ ε δ)

def on (f : RefCounts (DeviceHolder ε) δ → RefCounts (DeviceHolder ε) δ) : DeviceRefs μ ε δ :=
  { s with refs := f s.refs }

/-! ## The capture -/

def cleanup : DeviceRefs μ ε δ := { s.on (·.drop capture) with dupl := false }

/-- A device that was removed is given up. -/
def forgetRemoved (removed : Bool) : DeviceRefs μ ε δ :=
  if (s.refs.holds capture).isSome ∧ removed then s.cleanup else s

/-- The device that is there, or a new one. -/
def ensureDevice (created : Option δ) : Bool × DeviceRefs μ ε δ :=
  match s.refs.holds capture, created with
  | some _, _ => (true, s)
  | none, some d => (true, s.on (·.create capture d))
  | none, none => (false, s)

def captureInitialize (a : CaptureInit δ) : Bool × DeviceRefs μ ε δ :=
  let s := { s with dupl := false }.forgetRemoved a.removed
  if !a.adapter then (false, s)
  else
    let (ok, s) := s.ensureDevice a.created
    if !ok || !a.output then (false, s) else (a.duplicated, { s with dupl := a.duplicated })

def acquireFrame (a : CaptureAnswers) : Bool × DeviceRefs μ ε δ :=
  if !s.dupl then (false, s)
  else if (s.refs.holds capture).isSome ∧ a.removed then (false, s.cleanup)
  else
    match a.next with
    | .frame => (a.texture, s)
    | .lost => (false, s.cleanup)
    | .failed => (false, s)

/-! ## The encoders -/

variable (free : Bool) (e : ε)

/-- The context is freed, after its device was released if `hw_device_ctx` was still there. -/
def freeContext (unref : Bool) (r : RefCounts (DeviceHolder ε) δ) :
    RefCounts (DeviceHolder ε) δ :=
  match r.holds (hwDevice e) with
  | none => r
  | some d =>
    let r := if unref then r.forget (hwDevice e) else r.drop (hwDevice e)
    if free then r.releaseRef d else r

/-- The references that `Shutdown` gives back. -/
def shutdownRefs (unref : Bool) (r : RefCounts (DeviceHolder ε) δ) :
    RefCounts (DeviceHolder ε) δ :=
  (freeContext free e unref r).drop (encoder e)

def encoderShutdown (unref : Bool) : DeviceRefs μ ε δ := s.on (shutdownRefs free e unref)

/-- The device is put into a new context, which starts or is freed. -/
def initContext (d : δ) (ok : Bool) (r : RefCounts (DeviceHolder ε) δ) :
    RefCounts (DeviceHolder ε) δ :=
  if ok then r.take (hwDevice e) d
  else
    let r := r.addRef d
    if free then r.releaseRef d else r

/-- The hardware context, for a codec that takes one. -/
def openContext (d3d11Device : Option δ) (hwContext : Option Bool)
    (r : RefCounts (DeviceHolder ε) δ) : RefCounts (DeviceHolder ε) δ :=
  match d3d11Device, hwContext with
  | some d, some ok => initContext free e d ok r
  | _, _ => r

def tryInitialize (d3d11Device : Option δ) (a : EncoderAttempt) : Bool × DeviceRefs μ ε δ :=
  if !a.codec then (false, s)
  else
    let s := s.on (openContext free e d3d11Device a.hwContext)
    if !a.opened then (false, s.encoderShutdown free e a.unref) else (true, s)

def takeDevice (d3d11Device : Option δ) : DeviceRefs μ ε δ :=
  match d3d11Device with
  | none => s
  | some d => s.on (·.take (encoder e) d)

def encoderInitialize (d3d11Device : Option δ) (a : EncoderAttempt) : Bool × DeviceRefs μ ε δ :=
  let s := (s.encoderShutdown free e false).takeDevice e d3d11Device
  s.tryInitialize free e d3d11Device a

end

/-! ## The books -/

/-- The device that `ensureDevice` is to make is one nobody holds. -/
def Fresh (s : DeviceRefs μ ε δ) (a : CaptureInit δ) : Prop :=
  a.adapter = true → (s.refs.holds capture = none ∨ a.removed = true) →
    ∀ d, a.created = some d → ∀ i, i ≠ capture → s.refs.holds i ≠ some d

/-- The encoder has no hardware context, or its reference is given back once: by FFmpeg where it is
not given back by `Shutdown`. -/
def ClosesOnce (free unref : Bool) (r : RefCounts (DeviceHolder ε) δ) (e : ε) : Prop :=
  r.holds (hwDevice e) = none ∨ free = unref

/-- Someone but the encoder holds the device it is to use. -/
def Alive (s : DeviceRefs μ ε δ) (e : ε) (d : δ) : Prop :=
  ∃ i, i ≠ encoder e ∧ i ≠ hwDevice e ∧ s.refs.holds i = some d

/-- What is done about a hardware context that fails to start, or whose codec fails to open. -/
def Unwinds (free : Bool) (a : EncoderAttempt) : Prop :=
  a.codec = true →
    (a.hwContext = some false → free = true) ∧
      (a.hwContext = some true → a.opened = false → free = a.unref)

/-! ## The capture keeps the books -/

section
variable {s : DeviceRefs μ ε δ}

theorem forgetRemoved_balanced {removed : Bool} (h : s.refs.Balanced) :
    (s.forgetRemoved removed).refs.Balanced := by
  unfold forgetRemoved
  split
  · exact h.drop _
  · exact h

theorem holds_forgetRemoved {removed : Bool} {i : DeviceHolder ε} (hi : i ≠ capture) :
    (s.forgetRemoved removed).refs.holds i = s.refs.holds i := by
  unfold forgetRemoved
  split
  · exact RefCounts.holds_drop_ne hi
  · rfl

theorem holds_capture_forgetRemoved {removed : Bool} :
    (s.forgetRemoved removed).refs.holds capture = none ↔
      s.refs.holds capture = none ∨ removed = true := by
  unfold forgetRemoved
  split
  · next h => exact iff_of_true RefCounts.holds_drop_self (Or.inr h.2)
  · next h =>
    rw [Option.isSome_iff_ne_none] at h
    exact ⟨Or.inl, fun hor => hor.elim id fun hremoved => not_not.mp fun hne => h ⟨hne, hremoved⟩⟩

theorem ensureDevice_balanced_iff (created : Option δ) (h : s.refs.Balanced) :
    (s.ensureDevice created).2.refs.Balanced ↔
      (s.refs.holds capture = none → ∀ d, created = some d → ∀ i, s.refs.holds i ≠ some d) := by
  unfold ensureDevice
  split
  · next hd => exact iff_of_true h fun hnone => nomatch hd.symm.trans hnone
  · next d hnone =>
    refine (h.create_iff hnone).trans ⟨fun hall _ d' heq => ?_, fun hall => hall hnone d rfl⟩
    cases heq
    exact hall
  · exact iff_of_true h nofun

/-- A device is made only where none is left, and is to be a new one. -/
theorem captureInitialize_balanced_iff {a : CaptureInit δ} (h : s.refs.Balanced) :
    (s.captureInitialize a).2.refs.Balanced ↔ s.Fresh a := by
  have hforget : ({ s with dupl := false }.forgetRemoved a.removed).refs.Balanced :=
    forgetRemoved_balanced h
  unfold captureInitialize Fresh
  split
  · next hadapter =>
    rw [Bool.not_eq_true'] at hadapter
    exact iff_of_true hforget fun htrue => nomatch htrue.symm.trans hadapter
  · next hadapter =>
    rw [Bool.not_eq_true', Bool.not_eq_false] at hadapter
    refine Iff.trans ?_ ((ensureDevice_balanced_iff a.created hforget).trans ?_)
    · dsimp only
      split <;> exact Iff.rfl
    · rw [holds_capture_forgetRemoved]
      constructor
      · intro hall _ hnone d hd i hi
        have hne := hall hnone d hd i
        rw [holds_forgetRemoved hi] at hne
        exact hne
      · intro hall hnone d hd i
        by_cases hi : i = capture
        · rw [hi, holds_capture_forgetRemoved.mpr hnone]
          nofun
        · rw [holds_forgetRemoved hi]
          exact hall hadapter hnone d hd i hi

theorem acquireFrame_balanced {a : CaptureAnswers} (h : s.refs.Balanced) :
    (s.acquireFrame a).2.refs.Balanced := by
  unfold acquireFrame
  split
  · exact h
  · split
    · exact h.drop _
    · split
      · exact h
      · exact h.drop _
      · exact h

end

/-! ## Starting an encoder and shutting it down -/

section
variable {r : RefCounts (DeviceHolder ε) δ} {free unref : Bool} {e : ε}

theorem holds_freeContext {i : DeviceHolder ε} (hi : i ≠ hwDevice e) :
    (freeContext free e unref r).holds i = r.holds i := by
  have hdrop := RefCounts.holds_drop_ne (r := r) hi
  have hforget := RefCounts.holds_forget_ne (r := r) hi
  unfold freeContext
  split
  · rfl
  · cases free <;> cases unref <;> assumption

theorem holds_freeContext_self : (freeContext free e unref r).holds (hwDevice e) = none := by
  have hdrop : (r.drop (hwDevice e)).holds (hwDevice e) = none := RefCounts.holds_drop_self
  have hforget : (r.forget (hwDevice e)).holds (hwDevice e) = none := RefCounts.holds_forget_self
  unfold freeContext
  split
  · assumption
  · cases free <;> cases unref <;> assumption

theorem holds_shutdownRefs_hwDevice :
    (shutdownRefs free e unref r).holds (hwDevice e) = none := by
  have hne : hwDevice e ≠ encoder e := by simp
  exact (RefCounts.holds_drop_ne hne).trans holds_freeContext_self

theorem holds_shutdownRefs_encoder : (shutdownRefs free e unref r).holds (encoder e) = none :=
  RefCounts.holds_drop_self

theorem holds_shutdownRefs {i : DeviceHolder ε} (hi : i ≠ encoder e) (hi' : i ≠ hwDevice e) :
    (shutdownRefs free e unref r).holds i = r.holds i :=
  (RefCounts.holds_drop_ne hi).trans (holds_freeContext hi')

theorem off_shutdownRefs (h : r.Off free) : (shutdownRefs free e unref r).Off free := by
  refine RefCounts.Off.drop ?_ _
  unfold freeContext
  split
  · exact h
  next d hd =>
  have hdrop := h.drop (hwDevice e)
  match free, unref with
  | false, false => exact hdrop
  | true, false => exact hdrop.releaseRef _
  | false, true => exact h.forget _
  | true, true =>
    simp only [if_true]
    rw [RefCounts.forget_releaseRef hd]
    exact hdrop

/-- The reference of a context that is closed is given back twice, or not at all, unless it is by
one of the two. -/
theorem shutdownRefs_balanced (free unref : Bool) (e : ε) (h : r.Balanced) :
    ClosesOnce free unref r e ∧ (shutdownRefs free e unref r).Balanced ∨
      ¬ ClosesOnce free unref r e ∧ (shutdownRefs free e unref r).Off free := by
  unfold ClosesOnce shutdownRefs freeContext
  cases hhw : r.holds (hwDevice e) with
  | none => exact Or.inl ⟨Or.inl rfl, h.drop _⟩
  | some d =>
    have hdrop := h.drop (hwDevice e)
    match free, unref with
    | false, false => exact Or.inl ⟨Or.inr rfl, hdrop.drop _⟩
    | true, false => exact Or.inr ⟨by simp, (hdrop.off_releaseRef d).drop _⟩
    | false, true => exact Or.inr ⟨by simp, (h.off_forget hhw).drop _⟩
    | true, true =>
      refine Or.inl ⟨Or.inr rfl, ?_⟩
      simp only [if_true]
      rw [RefCounts.forget_releaseRef hhw]
      exact hdrop.drop _

theorem off_initContext {d : δ} {ok : Bool} (h : r.Off free) (hhw : r.holds (hwDevice e) = none) :
    (initContext free e d ok r).Off free := by
  unfold initContext
  cases ok with
  | true => exact h.take hhw d
  | false =>
    cases free with
    | true => exact h.addRef_releaseRef d
    | false => exact h.addRef d

theorem off_openContext (dev : Option δ) (hwContext : Option Bool) (h : r.Off free)
    (hhw : r.holds (hwDevice e) = none) : (openContext free e dev hwContext r).Off free := by
  unfold openContext
  split
  · exact off_initContext h hhw
  · exact h

/-- A context that does not start is freed, or its reference is lost. -/
theorem initContext_false {d : δ} (free : Bool) (e : ε) (h : r.Balanced)
    (hd : ∃ i, r.holds i = some d) :
    free = true ∧ initContext free e d false r = r ∨
      free = false ∧ (initContext free e d false r).Off free := by
  cases free with
  | true => exact Or.inl ⟨rfl, RefCounts.addRef_releaseRef (h.count_ne_zero_iff.mpr hd)⟩
  | false => exact Or.inr ⟨rfl, h.off_addRef d⟩

end

section
variable {s : DeviceRefs μ ε δ} {free : Bool} {e : ε} {a : EncoderAttempt}

theorem off_tryInitialize {dev : Option δ} (h : s.refs.Off free)
    (hhw : s.refs.holds (hwDevice e) = none) :
    (s.tryInitialize free e dev a).2.refs.Off free := by
  have hopen := off_openContext dev a.hwContext h hhw
  unfold tryInitialize
  split
  · exact h
  · dsimp only
    split
    · exact off_shutdownRefs hopen
    · exact hopen

/-- What is left when no hardware context was opened. -/
theorem shutdownRefs_plain {r : RefCounts (DeviceHolder ε) δ} (unref : Bool) (h : r.Balanced)
    (hhw : r.holds (hwDevice e) = none) : (shutdownRefs free e unref r).Balanced :=
  (shutdownRefs_balanced free unref e h).elim And.right fun hnot => absurd (Or.inl hhw) hnot.1

theorem tryInitialize_plain {dev : Option δ} (h : s.refs.Balanced)
    (hhw : s.refs.holds (hwDevice e) = none) (hplain : dev = none ∨ a.hwContext = none) :
    (s.tryInitialize free e dev a).2.refs.Balanced := by
  have hopen : openContext free e dev a.hwContext s.refs = s.refs := by
    unfold openContext
    rcases hplain with hnone | hnone <;> rw [hnone]
    split
    · next hd => cases hd
    · rfl
  unfold tryInitialize on
  rw [hopen]
  split
  · exact h
  · split
    · exact shutdownRefs_plain a.unref h hhw
    · exact h

theorem tryInitialize_balanced_iff {d : δ} (h : s.refs.Balanced)
    (hhw : s.refs.holds (hwDevice e) = none) (hd : ∃ i, s.refs.holds i = some d) :
    (s.tryInitialize free e (some d) a).2.refs.Balanced ↔ Unwinds free a := by
  obtain ⟨codec, hwContext, opened, unref⟩ := a
  cases codec with
  | false => exact iff_of_true h nofun
  | true =>
    match hwContext with
    | none => exact iff_of_true (tryInitialize_plain h hhw (Or.inr rfl)) fun _ => ⟨nofun, nofun⟩
    | some true =>
      have hinit : (s.refs.take (hwDevice e) d).Balanced := h.take hhw hd
      cases opened with
      | true => exact iff_of_true hinit fun _ => ⟨nofun, nofun⟩
      | false =>
        have hopen : ClosesOnce free unref (s.refs.take (hwDevice e) d) e ↔ free = unref :=
          or_iff_right (by simp)
        rcases shutdownRefs_balanced free unref e hinit with ⟨honce, hbal⟩ | ⟨htwice, hoff⟩
        · exact iff_of_true hbal fun _ => ⟨nofun, fun _ _ => hopen.mp honce⟩
        · exact iff_of_false hoff.not_balanced fun hall =>
            htwice (hopen.mpr ((hall rfl).2 rfl rfl))
    | some false =>
      rcases initContext_false free e h hd with ⟨rfl, hsame⟩ | ⟨rfl, hoff⟩
      · refine iff_of_true ?_ fun _ => ⟨fun _ => rfl, nofun⟩
        have hbal : (initContext true e d false s.refs).Balanced := hsame.symm ▸ h
        have hnone : (initContext true e d false s.refs).holds (hwDevice e) = none :=
          hsame.symm ▸ hhw
        cases opened with
        | true => exact hbal
        | false => exact shutdownRefs_plain unref hbal hnone
      · refine iff_of_false ?_ fun hall => nomatch (hall rfl).1 rfl
        cases opened with
        | true => exact hoff.not_balanced
        | false => exact (off_shutdownRefs hoff).not_balanced

theorem alive_iff {d : δ} :
    s.Alive e d ↔ ∃ j, (s.encoderShutdown free e false).refs.holds j = some d := by
  constructor
  · rintro ⟨i, henc, hhw, hi⟩
    exact ⟨i, (holds_shutdownRefs henc hhw).trans hi⟩
  · rintro ⟨j, hj⟩
    have henc : j ≠ encoder e := by
      rintro rfl
      exact nomatch holds_shutdownRefs_encoder.symm.trans hj
    have hhw : j ≠ hwDevice e := by
      rintro rfl
      exact nomatch holds_shutdownRefs_hwDevice.symm.trans hj
    exact ⟨j, henc, hhw, (holds_shutdownRefs henc hhw).symm.trans hj⟩

/-- **Initialising an encoder keeps the books** iff it closes its hardware context once, its device
is held by somebody else, and a context that is given up is released once. -/
theorem encoderInitialize_balanced_iff {dev : Option δ} (h : s.refs.Balanced) :
    (s.encoderInitialize free e dev a).2.refs.Balanced ↔
      ClosesOnce free false s.refs e ∧ ∀ d, dev = some d → s.Alive e d ∧ Unwinds free a := by
  have hhw : (s.encoderShutdown free e false).refs.holds (hwDevice e) = none :=
    holds_shutdownRefs_hwDevice
  have henc : (s.encoderShutdown free e false).refs.holds (encoder e) = none :=
    holds_shutdownRefs_encoder
  have hhw' : ∀ d, ((s.encoderShutdown free e false).takeDevice e (some d)).refs.holds (hwDevice e) =
      none := fun d => (RefCounts.holds_take_ne (by simp)).trans hhw
  unfold encoderInitialize
  rcases shutdownRefs_balanced free false e h with ⟨honce, hbal⟩ | ⟨htwice, hoff⟩
  · rw [and_iff_right honce]
    cases dev with
    | none => exact iff_of_true (tryInitialize_plain hbal hhw (Or.inl rfl)) nofun
    | some d =>
      by_cases hd : ∃ j, (s.encoderShutdown free e false).refs.holds j = some d
      · have htake := hbal.take henc hd
        refine (tryInitialize_balanced_iff (s := (s.encoderShutdown free e false).takeDevice e (some d))
          htake (hhw' d) ⟨_, RefCounts.holds_take_self⟩).trans ?_
        refine ⟨fun h d' heq => ?_, fun hall => (hall d rfl).2⟩
        cases heq
        exact ⟨alive_iff.mpr hd, h⟩
      · have hoff := hbal.off_take (encoder e) free hd
        refine iff_of_false ?_ fun hall => hd (alive_iff.mp (hall d rfl).1)
        exact (off_tryInitialize (s := (s.encoderShutdown free e false).takeDevice e (some d)) hoff
          (hhw' d)).not_balanced
  · refine iff_of_false ?_ fun hall => htwice hall.1
    cases dev with
    | none => exact (off_tryInitialize hoff hhw).not_balanced
    | some d =>
      have htake : ((s.encoderShutdown free e false).takeDevice e (some d)).refs.Off free :=
        hoff.take henc d
      exact (off_tryInitialize htake (hhw' d)).not_balanced

end

/-! ## Runs -/

variable [DecidableEq μ]

def step (free : Bool) (s : DeviceRefs μ ε δ) : DeviceEvent μ ε δ → DeviceRefs μ ε δ
  | .captureInitialize a => (s.captureInitialize a).2
  | .acquireFrame a => (s.acquireFrame a).2
  | .cleanup => s.cleanup
  | .getDevice m =>
    { s with argument := Function.update s.argument m (s.refs.holds capture) }
  | .storeDevice m =>
    { s with d3d11Device := Function.update s.d3d11Device m (s.argument m) }
  | .encoderInitialize m e a => (s.encoderInitialize free e (s.d3d11Device m) a).2
  | .encoderShutdown e => s.encoderShutdown free e false

def Ok (free : Bool) (s : DeviceRefs μ ε δ) : DeviceEvent μ ε δ → Prop
  | .captureInitialize a => s.Fresh a
  | .encoderInitialize m e a =>
    ClosesOnce free false s.refs e ∧
      ∀ d, s.d3d11Device m = some d → s.Alive e d ∧ Unwinds free a
  | .encoderShutdown e => ClosesOnce free false s.refs e
  | _ => True

section
variable {s : DeviceRefs μ ε δ} {free : Bool}

omit [DecidableEq μ] in
theorem encoderShutdown_balanced_iff {e : ε} (h : s.refs.Balanced) :
    (s.encoderShutdown free e false).refs.Balanced ↔ ClosesOnce free false s.refs e := by
  rcases shutdownRefs_balanced free false e h with ⟨honce, hbal⟩ | ⟨htwice, hoff⟩
  · exact iff_of_true hbal honce
  · exact iff_of_false hoff.not_balanced htwice

theorem step_balanced_iff (s : DeviceRefs μ ε δ) (ev : DeviceEvent μ ε δ) (h : s.refs.Balanced) :
    (step free s ev).refs.Balanced ↔ Ok free s ev := by
  cases ev with
  | captureInitialize a => exact captureInitialize_balanced_iff h
  | acquireFrame a => exact iff_of_true (acquireFrame_balanced h) trivial
  | cleanup => exact iff_of_true (h.drop _) trivial
  | getDevice m => exact iff_of_true h trivial
  | storeDevice m => exact iff_of_true h trivial
  | encoderInitialize m e a => exact encoderInitialize_balanced_iff h
  | encoderShutdown e => exact encoderShutdown_balanced_iff h

end

/-- **Who counts the references to a device.** At every moment of a run a device has as many
references as there are members that hold one, and none is used that has none, iff every hardware
context that is closed, that does not start or whose codec does not open gives its reference back
once, a device that is made is held by nobody, and an encoder is started only on a device that
somebody else holds. -/
theorem devices_counted_iff (free : Bool) (evs : List (DeviceEvent μ ε δ)) :
    (∀ evs', evs' <+: evs → (run (step free) (start : DeviceRefs μ ε δ) evs').refs.Balanced) ↔
      Along (step free) (Ok free) (start : DeviceRefs μ ε δ) evs :=
  forall_prefix_iff_along (fun _ _ (_ : True) => trivial)
    (fun s ev _ (h : s.refs.Balanced) => step_balanced_iff s ev h) trivial
    RefCounts.balanced_start evs

end

end DeviceRefs

end RemotePlay.Host
