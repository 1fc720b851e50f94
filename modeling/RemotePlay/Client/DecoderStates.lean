import RemotePlay.Client.DecoderHW

/-!
# What the decoder comes to

Seen from outside the decoder has no codec, one it cannot use or one it can, and
the objects for uploads are missing, ready for pictures of one size or broken
for them. `DecoderHW` refines this machine. Objects that are broken are made
again only for a picture of another size, and a codec that is lost in a change
comes back only with `Initialize`, or with another change.
-/

namespace RemotePlay.Client

open Lib

inductive CodecState where
  | absent
  | unusable
  | usable
  deriving DecidableEq

/-- The objects for uploads. -/
inductive Fallback where
  | missing
  | ready (size : PictureSize)
  | broken (size : PictureSize)
  deriving DecidableEq

structure DecoderState where
  codec : CodecState
  isHEVC : Bool
  lastD3D11Device : Bool
  lastUseHardware : Bool
  /-- Frames can be uploaded. -/
  uploads : Bool
  fallback : Fallback

/-! ## The abstract machine -/

def Fallback.size : Fallback → Option PictureSize
  | .missing => none
  | .ready size | .broken size => some size

/-- For a picture of this size: kept, or made again. -/
def Fallback.next (fb : Fallback) (size : PictureSize) (a : FallbackAnswers) : Fallback :=
  if fb.size = some size then fb
  else if a.sws && a.rgbaFrame then
    if a.buffer && a.texture then .ready size else .broken size
  else .missing

theorem Fallback.next_of_size {fb : Fallback} {size : PictureSize} {a : FallbackAnswers}
    (h : fb.size = some size) : fb.next size a = fb := if_pos h

theorem Fallback.next_of_ne {fb : Fallback} {size : PictureSize} {a : FallbackAnswers}
    (h : fb.size ≠ some size) : fb.next size a = Fallback.next .missing size a :=
  (if_neg h).trans (if_neg (nofun : Fallback.missing.size ≠ some size)).symm

def DecoderInit.state (a : DecoderInit) : CodecState :=
  if !a.codec then .absent
  else if a.opened && a.pkt && a.frame && a.tempFrame then .usable
  else .unusable

theorem DecoderInit.state_ne_absent_iff (a : DecoderInit) :
    a.state ≠ .absent ↔ a.codec = true := by
  unfold state
  cases a.codec with
  | false => exact iff_of_false (fun h => h rfl) nofun
  | true =>
    refine iff_of_true ?_ rfl
    rw [if_neg (by decide)]
    split <;> nofun

namespace DecoderState

variable {τ : Type} (s : DecoderState)

def start : DecoderState := ⟨.absent, false, false, true, false, .missing⟩

def initializeDecoder (d3d11Device useHardware : Bool) (a : DecoderInit) : DecoderState :=
  { s with codec := a.state, lastD3D11Device := d3d11Device, lastUseHardware := useHardware,
           uploads := a.state = .usable && d3d11Device && a.context, fallback := .missing }

def softwareFrame (size : PictureSize) (a : FallbackAnswers) :
    Option (DecodedTexture τ) × DecoderState :=
  if !s.uploads then (none, s)
  else
    let fallback := s.fallback.next size a
    (if fallback = .ready size then some (.software size size) else none, { s with fallback })

def output (f : AVFrame τ) (a : FallbackAnswers) : Option (DecodedTexture τ) × DecoderState :=
  if f.size.width ≤ 0 ∨ f.size.height ≤ 0 then (none, s)
  else
    match f.format with
    | .d3d11 texture index => (texture.map (.hardware · index), s)
    | .software => s.softwareFrame f.size a

def changeCodec (isHEVC : Bool) (init : DecoderInit) : DecoderState :=
  if isHEVC = s.isHEVC then s
  else { s with isHEVC }.initializeDecoder s.lastD3D11Device s.lastUseHardware init

def receive (a : DecodeAnswers τ) : Option (DecodedTexture τ) × DecoderState :=
  if s.codec = .usable ∧ a.sent = true then
    match a.frames.getLast? with
    | none => (none, s)
    | some f => s.output f a.fallback
  else (none, s)

def decodeFrame (isHEVC : Bool) (a : DecodeAnswers τ) : Option (DecodedTexture τ) × DecoderState :=
  if s.codec = .absent then (none, s) else (s.changeCodec isHEVC a.init).receive a

def step (s : DecoderState) : DecoderEvent τ → DecoderState
  | .initializeDecoder d3d11Device useHardware a => s.initializeDecoder d3d11Device useHardware a
  | .decodeFrame isHEVC a => (s.decodeFrame isHEVC a).2
  | .shutdown => { s with codec := .absent, uploads := false, fallback := .missing }

def answer (s : DecoderState) : DecoderEvent τ → Option (DecodedTexture τ)
  | .decodeFrame isHEVC a => (s.decodeFrame isHEVC a).1
  | _ => none

def answers (s : DecoderState) : List (DecoderEvent τ) → List (Option (DecodedTexture τ))
  | [] => []
  | e :: es => s.answer e :: answers (s.step e) es

end DecoderState

/-! ## The view of the decoder -/

namespace DecoderHW

section
variable (s : DecoderHW)

def codecState : CodecState :=
  if !s.codecCtx then .absent
  else if s.pkt && s.frame && s.tempFrame then .usable
  else .unusable

def fallback : Fallback :=
  match s.rgbaFrame with
  | none => .missing
  | some (size, _) => if s.swTexture = some size then .ready size else .broken size

def view : DecoderState where
  codec := s.codecState
  isHEVC := s.isHEVC
  lastD3D11Device := s.lastD3D11Device
  lastUseHardware := s.lastUseHardware
  uploads := s.device && s.context
  fallback := s.fallback

/-- The objects for uploads belong together, and the device is that of a codec that works. -/
structure Consistent : Prop where
  swsCtx : ∀ size buffer, s.rgbaFrame = some (size, buffer) → s.swsCtx = some size
  swTexture : ∀ size, s.swTexture = some size → s.rgbaFrame = some (size, true)

end

section
variable {s : DecoderHW} {τ : Type}

theorem consistent_of_missing (hrgba : s.rgbaFrame = none) (htexture : s.swTexture = none) :
    s.Consistent := by
  constructor
  · intro size buffer h
    rw [hrgba] at h
    cases h
  · intro size h
    rw [htexture] at h
    cases h

theorem consistent_fresh : fresh.Consistent := consistent_of_missing rfl rfl

theorem consistent_shutdown : s.shutdown.Consistent := consistent_of_missing rfl rfl

/-- Starting leaves no objects for uploads, whether it works or not. -/
theorem missing_initializeDecoder (d3d11Device useHardware : Bool) (a : DecoderInit) :
    (s.initializeDecoder d3d11Device useHardware a).2.rgbaFrame = none ∧
      (s.initializeDecoder d3d11Device useHardware a).2.swTexture = none := by
  unfold initializeDecoder
  repeat' split
  all_goals exact ⟨rfl, rfl⟩

theorem consistent_initializeDecoder (d3d11Device useHardware : Bool) (a : DecoderInit) :
    (s.initializeDecoder d3d11Device useHardware a).2.Consistent :=
  have h := missing_initializeDecoder d3d11Device useHardware a
  consistent_of_missing h.1 h.2

theorem initializeDecoder_fst (d3d11Device useHardware : Bool) (a : DecoderInit) :
    (s.initializeDecoder d3d11Device useHardware a).1 = decide (a.state = .usable) := by
  obtain ⟨codec, hwContext, opened, pkt, frame, tempFrame, context⟩ := a
  cases codec <;> cases opened <;> cases pkt <;> cases frame <;> cases tempFrame <;>
    cases d3d11Device <;> rfl

theorem view_initializeDecoder (d3d11Device useHardware : Bool) (a : DecoderInit) :
    (s.initializeDecoder d3d11Device useHardware a).2.view =
      s.view.initializeDecoder d3d11Device useHardware a := by
  obtain ⟨codec, hwContext, opened, pkt, frame, tempFrame, context⟩ := a
  cases codec <;> cases opened <;> cases pkt <;> cases frame <;> cases tempFrame <;>
    cases d3d11Device <;> rfl

/-! ## Uploads -/

theorem stale_iff (h : s.Consistent) (size : PictureSize) :
    s.Stale size ↔ s.fallback.size ≠ some size := by
  unfold Stale fallback
  cases hrgba : s.rgbaFrame with
  | none => exact iff_of_true (Or.inr nofun) nofun
  | some entry =>
    obtain ⟨made, buffer⟩ := entry
    have hsws := h.swsCtx made buffer hrgba
    have hsize : (if s.swTexture = some made then Fallback.ready made
        else Fallback.broken made).size = some made := by
      split <;> rfl
    rw [hsws, hsize]
    exact or_iff_right nofun

/-- The objects are made again. -/
theorem buildFallback_spec (size : PictureSize) (a : FallbackAnswers) :
    (s.buildFallback size a).2.Consistent ∧
      (s.buildFallback size a).2.view =
        { s.view with fallback := Fallback.next .missing size a } ∧
      (s.buildFallback size a).1 = decide (Fallback.next .missing size a = .ready size) := by
  obtain ⟨sws, rgbaFrame, buffer, texture⟩ := a
  cases sws <;> cases rgbaFrame <;> cases buffer <;> cases texture <;>
    simp [buildFallback, Fallback.next, Fallback.size, view, codecState, fallback] <;>
    constructor <;> simp

/-- The texture and the scaler are those for the picture. -/
theorem upload_eq (h : s.Consistent) {size : PictureSize} (hsize : s.fallback.size = some size) :
    (s.upload : Option (DecodedTexture τ)) =
      if s.fallback = .ready size then some (.software size size) else none := by
  unfold fallback at hsize ⊢
  cases hrgba : s.rgbaFrame with
  | none =>
    rw [hrgba] at hsize
    cases hsize
  | some entry =>
    obtain ⟨made, buffer⟩ := entry
    rw [hrgba] at hsize
    have hsws := h.swsCtx made buffer hrgba
    have hmade : made = size := by
      dsimp only at hsize
      split at hsize <;> exact Option.some.inj hsize
    subst hmade
    unfold upload
    rw [hsws, hrgba]
    cases htexture : s.swTexture with
    | none => cases buffer <;> rfl
    | some size =>
      have heq := hrgba.symm.trans (h.swTexture size htexture)
      cases heq
      simp

/-- A call does what the abstract machine does. -/
structure Refines (r : Option (DecodedTexture τ) × DecoderHW)
    (r' : Option (DecodedTexture τ) × DecoderState) : Prop where
  consistent : r.2.Consistent
  view : r.2.view = r'.2
  answer : r.1 = r'.1

theorem Refines.unchanged (h : s.Consistent) (t : Option (DecodedTexture τ)) :
    Refines (t, s) (t, s.view) := ⟨h, rfl, rfl⟩

theorem refines_softwareFrame (h : s.Consistent) (size : PictureSize) (a : FallbackAnswers) :
    Refines (s.softwareFrame size a : Option (DecodedTexture τ) × DecoderHW)
      (s.view.softwareFrame size a) := by
  unfold softwareFrame DecoderState.softwareFrame
  split
  · next hdown =>
    rw [if_pos (show (!s.view.uploads) = true from hdown)]
    exact .unchanged h none
  · next hup =>
    rw [if_neg (show ¬ (!s.view.uploads) = true from hup)]
    by_cases hstale : s.Stale size
    · obtain ⟨hcons, hview, hok⟩ := buildFallback_spec (s := s) size a
      have hfallback : (s.buildFallback size a).2.fallback = Fallback.next .missing size a :=
        congrArg DecoderState.fallback hview
      have hnext : s.view.fallback.next size a = Fallback.next .missing size a :=
        Fallback.next_of_ne ((stale_iff h size).mp hstale)
      dsimp only
      rw [if_pos hstale, hnext, hok]
      by_cases hready : Fallback.next .missing size a = .ready size
      · have hsize : (s.buildFallback size a).2.fallback.size = some size := by
          rw [hfallback, hready]
          rfl
        rw [decide_eq_true hready, if_pos hready]
        refine ⟨hcons, hview, (upload_eq hcons hsize).trans ?_⟩
        rw [hfallback, if_pos hready]
      · rw [decide_eq_false hready, if_neg hready]
        exact ⟨hcons, hview, rfl⟩
    · have hsize := not_not.mp (mt (stale_iff h size).mpr hstale)
      have hnext : s.view.fallback.next size a = s.fallback := Fallback.next_of_size hsize
      dsimp only
      rw [if_neg hstale, hnext]
      exact ⟨h, rfl, upload_eq h hsize⟩

/-! ## DecodeFrame -/

theorem refines_output (h : s.Consistent) (f : AVFrame τ) (a : FallbackAnswers) :
    Refines (s.output f a) (s.view.output f a) := by
  unfold output DecoderState.output
  split
  · exact .unchanged h none
  · obtain ⟨size, format⟩ := f
    cases format with
    | d3d11 texture index =>
      cases texture with
      | none => exact .unchanged h none
      | some texture => exact .unchanged h _
    | software => exact refines_softwareFrame h size a

theorem changeCodec_spec (h : s.Consistent) (isHEVC : Bool)
    (init : DecoderInit) :
    (s.changeCodec isHEVC init).2.Consistent ∧
      (s.changeCodec isHEVC init).2.view = s.view.changeCodec isHEVC init ∧
      ((s.changeCodec isHEVC init).1 = false →
        (s.view.changeCodec isHEVC init).codec ≠ .usable) := by
  unfold changeCodec DecoderState.changeCodec
  split
  · next hsame =>
    rw [if_pos (show isHEVC = s.view.isHEVC from hsame)]
    exact ⟨h, rfl, nofun⟩
  · next hother =>
    rw [if_neg (show ¬ isHEVC = s.view.isHEVC from hother)]
    refine ⟨consistent_initializeDecoder _ _ _, view_initializeDecoder _ _ _, fun hfailed => ?_⟩
    rw [initializeDecoder_fst] at hfailed
    exact of_decide_eq_false hfailed

theorem absent_iff : s.view.codec = .absent ↔ s.codecCtx = false := by
  show s.codecState = .absent ↔ _
  unfold codecState
  cases s.codecCtx <;> cases s.pkt <;> cases s.frame <;> cases s.tempFrame <;> decide

theorem usable_iff : s.view.codec = .usable ↔
    s.codecCtx = true ∧ s.pkt = true ∧ s.frame = true ∧ s.tempFrame = true := by
  show s.codecState = .usable ↔ _
  unfold codecState
  cases s.codecCtx <;> cases s.pkt <;> cases s.frame <;> cases s.tempFrame <;> decide

theorem refines_receive (h : s.Consistent) (a : DecodeAnswers τ) :
    Refines (s.receive a) (s.view.receive a) := by
  by_cases husable : s.view.codec = .usable
  · unfold receive DecoderState.receive
    obtain ⟨hcodec, hpkt, hframe, htemp⟩ := usable_iff.mp husable
    simp only [hcodec, hpkt, hframe, htemp, husable, true_and, Bool.not_true, Bool.or_self,
      Bool.false_eq_true, ↓reduceIte]
    cases a.sent with
    | false => exact .unchanged h none
    | true =>
      cases a.frames.getLast? with
      | none => exact .unchanged h none
      | some f => exact refines_output h f a.fallback
  · have hnone : s.view.receive a = (none, s.view) := if_neg fun hboth => husable hboth.1
    rw [hnone]
    unfold receive
    split
    · exact .unchanged h none
    · split
      · exact .unchanged h none
      · split
        · exact .unchanged h none
        · next hin _ hframes =>
          simp only [Bool.or_eq_true, Bool.not_eq_true', not_or, Bool.not_eq_false] at hin hframes
          exact absurd (usable_iff.mpr ⟨hin.1.1, hin.1.2, hin.2, hframes.1⟩) husable

theorem refines_decodeFrame (h : s.Consistent) (isHEVC : Bool) (a : DecodeAnswers τ) :
    Refines (s.decodeFrame isHEVC a) (s.view.decodeFrame isHEVC a) := by
  unfold decodeFrame DecoderState.decodeFrame
  cases hcodec : s.codecCtx with
  | false =>
    rw [if_pos (absent_iff.mpr hcodec)]
    exact .unchanged h none
  | true =>
    rw [if_neg fun habsent => nomatch hcodec.symm.trans (absent_iff.mp habsent)]
    obtain ⟨hcons, hview, hfailed⟩ := changeCodec_spec h isHEVC a.init
    rw [← hview] at hfailed ⊢
    dsimp only
    cases hok : (s.changeCodec isHEVC a.init).1 with
    | true => exact refines_receive hcons a
    | false =>
      have hnone : (s.changeCodec isHEVC a.init).2.view.receive a =
          (none, (s.changeCodec isHEVC a.init).2.view) :=
        if_neg fun hboth => hfailed hok hboth.1
      rw [hnone]
      exact .unchanged hcons none

/-! ## Runs -/

theorem refines_step (h : s.Consistent) (e : DecoderEvent τ) :
    (s.step e).Consistent ∧ (s.step e).view = s.view.step e ∧ s.answer e = s.view.answer e := by
  cases e with
  | initializeDecoder d3d11Device useHardware a =>
    exact ⟨consistent_initializeDecoder _ _ _, view_initializeDecoder _ _ _, rfl⟩
  | decodeFrame isHEVC a =>
    obtain ⟨hcons, hview, hanswer⟩ := refines_decodeFrame h isHEVC a
    exact ⟨hcons, hview, hanswer⟩
  | shutdown => exact ⟨consistent_shutdown, rfl, rfl⟩

theorem refines_run (h : s.Consistent) (es : List (DecoderEvent τ)) :
    (run step s es).Consistent ∧ (run step s es).view = run DecoderState.step s.view es ∧
      s.answers es = s.view.answers es := by
  induction es generalizing s with
  | nil => exact ⟨h, rfl, rfl⟩
  | cons e es ih =>
    obtain ⟨hcons, hview, hanswer⟩ := refines_step h e
    obtain ⟨hcons', hview', hanswers⟩ := ih hcons
    rw [hview] at hview' hanswers
    refine ⟨hcons', hview', ?_⟩
    show s.answer e :: (s.step e).answers es = s.view.answer e :: (s.view.step e).answers es
    rw [hanswer, hanswers]

/-- The decoder answers as the abstract machine does. -/
theorem reachable_refines (es : List (DecoderEvent τ)) :
    (run step fresh es).Consistent ∧
      (run step fresh es).view = run DecoderState.step .start es :=
  have h := refines_run consistent_fresh es
  ⟨h.1, h.2.1⟩

end

end DecoderHW

/-! ## Pictures of one size -/

namespace DecoderState

variable {τ : Type}

/-- A call that brings a picture of this size to upload. -/
def Brings (size : PictureSize) (a : DecodeAnswers τ) : Prop :=
  a.sent = true ∧ a.frames.getLast? = some ⟨size, .software⟩

/-- What the calls that bring pictures of a new size put out. -/
def decided (size : PictureSize) : List (DecodeAnswers τ) → List (Option (DecodedTexture τ))
  | [] => []
  | a :: rest =>
    if a.fallback.sws && a.fallback.rgbaFrame then
      List.replicate (rest.length + 1)
        (if a.fallback.buffer && a.fallback.texture then some (.software size size) else none)
    else none :: decided size rest

section
variable {s : DecoderState} {size : PictureSize} {a : DecodeAnswers τ} {as : List (DecodeAnswers τ)}

/-- The codec can be used, there are a device and a context, and the size is one of pictures that
can be uploaded. -/
def Uploads (s : DecoderState) (size : PictureSize) : Prop :=
  s.codec = .usable ∧ s.uploads = true ∧ 0 < size.width ∧ 0 < size.height

theorem decodeFrame_brings (h : s.Uploads size) (ha : Brings size a) :
    s.decodeFrame s.isHEVC a = s.softwareFrame size a.fallback := by
  obtain ⟨hcodec, -, hwidth, hheight⟩ := h
  have hnot : ¬ (size.width ≤ 0 ∨ size.height ≤ 0) := by omega
  unfold decodeFrame changeCodec receive
  rw [if_neg (by rw [hcodec]; nofun), if_pos rfl, if_pos ⟨hcodec, ha.1⟩, ha.2]
  exact if_neg hnot

theorem softwareFrame_eq (h : s.Uploads size) (a : FallbackAnswers) :
    (s.softwareFrame size a : Option (DecodedTexture τ) × DecoderState) =
      (if s.fallback.next size a = .ready size then some (.software size size) else none,
        { s with fallback := s.fallback.next size a }) := by
  unfold softwareFrame
  rw [h.2.1]
  rfl

/-- The objects for a size are kept, whole or broken. -/
theorem answers_settled (h : s.Uploads size) (hsize : s.fallback.size = some size)
    (has : ∀ a ∈ as, Brings size a) :
    s.answers (as.map (.decodeFrame s.isHEVC)) = List.replicate as.length
      (if s.fallback = .ready size then some (.software size size) else none) := by
  induction as with
  | nil => rfl
  | cons a as ih =>
    rw [List.forall_mem_cons] at has
    have hnext := Fallback.next_of_size (a := a.fallback) hsize
    have hcall := (decodeFrame_brings h has.1).trans (softwareFrame_eq h a.fallback)
    rw [hnext] at hcall
    have hstep : s.step (.decodeFrame s.isHEVC a) = s := congrArg Prod.snd hcall
    show (s.decodeFrame s.isHEVC a).1 ::
      (s.step (.decodeFrame s.isHEVC a)).answers (as.map (.decodeFrame s.isHEVC)) = _
    rw [hcall, hstep, ih has.2]
    rfl

theorem answers_new (h : s.Uploads size) (hsize : s.fallback.size ≠ some size)
    (has : ∀ a ∈ as, Brings size a) :
    s.answers (as.map (.decodeFrame s.isHEVC)) = decided size as := by
  induction as generalizing s with
  | nil => rfl
  | cons a as ih =>
    rw [List.forall_mem_cons] at has
    have hcall := (decodeFrame_brings h has.1).trans (softwareFrame_eq h a.fallback)
    rw [Fallback.next_of_ne hsize] at hcall
    generalize hfb : Fallback.next .missing size a.fallback = fb at hcall
    have hstep : s.step (.decodeFrame s.isHEVC a) = { s with fallback := fb } :=
      congrArg Prod.snd hcall
    have hnext : Fallback.next .missing size a.fallback =
        if a.fallback.sws && a.fallback.rgbaFrame then
          if a.fallback.buffer && a.fallback.texture then .ready size else .broken size
        else .missing := if_neg nofun
    rw [hfb] at hnext
    show (s.decodeFrame s.isHEVC a).1 ::
      (s.step (.decodeFrame s.isHEVC a)).answers (as.map (.decodeFrame s.isHEVC)) = _
    rw [hcall, hstep, decided]
    by_cases hmade : (a.fallback.sws && a.fallback.rgbaFrame) = true
    · -- this call decides for the rest
      rw [if_pos hmade] at hnext ⊢
      have hfate : (if fb = .ready size then some (.software size size) else none) =
          if a.fallback.buffer && a.fallback.texture then
            some (DecodedTexture.software (τ := τ) size size) else none := by
        rw [hnext]
        split <;> simp
      have hsettled : fb.size = some size := by
        rw [hnext]
        split <;> rfl
      refine Eq.trans ?_ (congrArg _ hfate)
      exact congrArg _ (answers_settled (s := { s with fallback := fb }) h hsettled has.2)
    · rw [if_neg hmade] at hnext ⊢
      subst hnext
      exact congrArg _ (ih (s := { s with fallback := .missing }) h nofun has.2)

/-! ## Changes of codec -/

/-- What the calls meet that change the codec, in order. -/
def changes (isHEVC : Bool) : List (Bool × DecodeAnswers τ) → List DecoderInit
  | [] => []
  | (h, a) :: rest => if h = isHEVC then changes isHEVC rest else a.init :: changes h rest

theorem codec_receive : (s.receive a).2.codec = s.codec ∧ (s.receive a).2.isHEVC = s.isHEVC := by
  unfold receive output softwareFrame
  repeat' split
  all_goals exact ⟨rfl, rfl⟩

/-- A codec that is absent stays so. -/
theorem run_absent (h : s.codec = .absent) (calls : List (Bool × DecodeAnswers τ)) :
    (run step s (calls.map fun c => .decodeFrame c.1 c.2)).codec = .absent := by
  induction calls with
  | nil => exact h
  | cons c calls ih =>
    have hstep : s.step (.decodeFrame c.1 c.2) = s := congrArg Prod.snd (if_pos h)
    rw [List.map_cons, run_cons, hstep]
    exact ih

/-- The codec is the one of the last change, if every change finds its codec. -/
theorem usable_run_iff (calls : List (Bool × DecodeAnswers τ)) :
    (run step s (calls.map fun c => .decodeFrame c.1 c.2)).codec = .usable ↔
      s.codec ≠ .absent ∧ (∀ init ∈ changes s.isHEVC calls, init.codec = true) ∧
        ((changes s.isHEVC calls).getLast?.map DecoderInit.state).getD s.codec = .usable := by
  induction calls generalizing s with
  | nil =>
    refine ⟨fun h => ⟨?_, nofun, h⟩, fun h => h.2.2⟩
    rw [show s.codec = .usable from h]
    nofun
  | cons c calls ih =>
    obtain ⟨isHEVC, a⟩ := c
    by_cases habsent : s.codec = .absent
    · refine iff_of_false ?_ fun h => h.1 habsent
      rw [run_absent habsent]
      nofun
    · have hstep : s.step (.decodeFrame isHEVC a) = ((s.changeCodec isHEVC a.init).receive a).2 :=
        congrArg Prod.snd (if_neg habsent)
      obtain ⟨hcodec, hkind⟩ := codec_receive (s := s.changeCodec isHEVC a.init) (a := a)
      rw [← hstep] at hcodec hkind
      rw [List.map_cons, run_cons]
      refine ih.trans ?_
      by_cases hsame : isHEVC = s.isHEVC
      · have hkept : s.changeCodec isHEVC a.init = s := if_pos hsame
        rw [hcodec, hkind, hkept, changes, if_pos hsame]
      · have hchanged : s.changeCodec isHEVC a.init = { s with isHEVC }.initializeDecoder
            s.lastD3D11Device s.lastUseHardware a.init := if_neg hsame
        have hlast : ((changes isHEVC calls).getLast?.map DecoderInit.state).getD a.init.state =
            ((changes isHEVC calls).getLast?.getD a.init).state := Option.getD_map ..
        rw [hcodec, hkind, hchanged, changes, if_neg hsame, List.forall_mem_cons,
          List.getLast?_cons, Option.map_some, Option.getD_some, and_assoc, and_iff_right habsent,
          ← hlast]
        exact and_congr_left' a.init.state_ne_absent_iff

end

end DecoderState

namespace DecoderHW

variable {τ : Type}

/-- **The first picture decides for its size**: after any run that leaves the decoder able to upload
pictures, of the calls without a change of codec that bring pictures of one size it has no objects
for, the first that gets its scaler and its frame says of all that follow whether they are put
out. -/
theorem size_decided_once (es : List (DecoderEvent τ)) (size : PictureSize)
    (as : List (DecodeAnswers τ)) (h : (run step fresh es).view.Uploads size)
    (hnew : (run step fresh es).fallback.size ≠ some size)
    (has : ∀ a ∈ as, DecoderState.Brings size a) :
    (run step fresh es).answers (as.map (.decodeFrame (run step fresh es).isHEVC)) =
      DecoderState.decided size as :=
  (refines_run (reachable_refines es).1 _).2.2.trans (DecoderState.answers_new h hnew has)

/-- The texture cannot be made for the first picture, and is not asked for again. -/
theorem size_decided_once_broken :
    let init : DecoderInit := ⟨true, true, true, true, true, true, true⟩
    let frames : List (AVFrame Unit) := [⟨⟨4, 2⟩, .software⟩]
    (fresh.step (.initializeDecoder true false init : DecoderEvent Unit)).answers
      ([⟨init, true, frames, ⟨true, true, true, false⟩⟩,
        ⟨init, true, frames, ⟨true, true, true, true⟩⟩].map (.decodeFrame false)) =
        [none, none] := by
  intro init frames
  refine size_decided_once [.initializeDecoder true false init] ⟨4, 2⟩ _
    ⟨rfl, rfl, by decide, by decide⟩ nofun ?_
  intro a ha
  rw [List.mem_pair] at ha
  rcases ha with rfl | rfl <;> exact ⟨rfl, rfl⟩

/-- **When a change of codec is survived**: after any run, calls of `DecodeFrame` leave the decoder
usable iff it had a codec, each change among them found its codec, and the last one went through. -/
theorem codec_survives_iff (es : List (DecoderEvent τ)) (calls : List (Bool × DecodeAnswers τ)) :
    (run step (run step fresh es) (calls.map fun c => .decodeFrame c.1 c.2)).codecState = .usable ↔
      (run step fresh es).codecCtx = true ∧
        (∀ init ∈ DecoderState.changes (run step fresh es).isHEVC calls, init.codec = true) ∧
        ((DecoderState.changes (run step fresh es).isHEVC calls).getLast?.map
          DecoderInit.state).getD (run step fresh es).codecState = .usable := by
  have hrun := refines_run (reachable_refines es).1
    (calls.map fun c => (.decodeFrame c.1 c.2 : DecoderEvent τ))
  have hview := congrArg DecoderState.codec hrun.2.1
  refine (Eq.congr_left hview).trans ((DecoderState.usable_run_iff calls).trans ?_)
  refine and_congr ?_ Iff.rfl
  rw [Ne, absent_iff, Bool.not_eq_false]

end DecoderHW

end RemotePlay.Client
