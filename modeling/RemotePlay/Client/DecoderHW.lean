import RemotePlay.Lib.Run

/-!
# The decoder

`DecoderHW` with what FFmpeg and Direct3D answer as part of the call. A frame
that was not decoded on the device is converted and uploaded through three
objects that are kept from frame to frame: the scaler, the converted frame and a
texture. They are made again when the picture changes its size, and when one of
the first two is missing; whether the texture is there is not asked. A change of
codec starts the decoder again with what it was last started with.
-/

namespace RemotePlay.Client

open Lib

structure PictureSize where
  width : Int
  height : Int
  deriving DecidableEq

inductive FrameFormat (τ : Type) where
  /-- On the device, with its texture and the index in it. -/
  | d3d11 (texture : Option τ) (index : Nat)
  | software

/-- A frame from `avcodec_receive_frame`. -/
structure AVFrame (τ : Type) where
  size : PictureSize
  format : FrameFormat τ

/-- What `Initialize` meets: the codec and its context, the hardware context, `avcodec_open2`, the
packet and the two frames, and the immediate context. -/
structure DecoderInit where
  codec : Bool
  hwContext : Bool
  opened : Bool
  pkt : Bool
  frame : Bool
  tempFrame : Bool
  context : Bool

/-- Which of the objects for an upload can be made. -/
structure FallbackAnswers where
  sws : Bool
  rgbaFrame : Bool
  buffer : Bool
  texture : Bool

/-- What a call of `DecodeFrame` meets; `init` is for a change of codec. -/
structure DecodeAnswers (τ : Type) where
  init : DecoderInit
  /-- The packet is sent, if need be after the frames before it were drained. -/
  sent : Bool
  frames : List (AVFrame τ)
  fallback : FallbackAnswers

/-- The texture a call puts out. -/
inductive DecodedTexture (τ : Type) where
  | hardware (texture : τ) (index : Nat)
  /-- The one for uploads: what it measures, and what the scaler was made for. -/
  | software (size scaled : PictureSize)

structure DecoderHW where
  codecCtx : Bool
  /-- `hw_device_ctx` of the codec context. -/
  hwDeviceCtx : Bool
  frame : Bool
  tempFrame : Bool
  pkt : Bool
  isHEVC : Bool
  lastD3D11Device : Bool
  lastUseHardware : Bool
  device : Bool
  context : Bool
  swTexture : Option PictureSize
  swsCtx : Option PictureSize
  /-- The converted frame, and whether it has a buffer. -/
  rgbaFrame : Option (PictureSize × Bool)

inductive DecoderEvent (τ : Type) where
  | initializeDecoder (d3d11Device useHardware : Bool) (a : DecoderInit)
  | decodeFrame (isHEVC : Bool) (a : DecodeAnswers τ)
  | shutdown

namespace DecoderHW

/-- As it is constructed. -/
def fresh : DecoderHW :=
  { codecCtx := false, hwDeviceCtx := false, frame := false, tempFrame := false, pkt := false,
    isHEVC := false, lastD3D11Device := false, lastUseHardware := true, device := false,
    context := false, swTexture := none, swsCtx := none, rgbaFrame := none }

variable {τ : Type} (s : DecoderHW)

def shutdown : DecoderHW :=
  { s with swsCtx := none, rgbaFrame := none, swTexture := none, context := false,
           device := false, codecCtx := false, hwDeviceCtx := false, frame := false,
           tempFrame := false, pkt := false }

/-- A codec that does not open leaves its context behind. -/
def initializeDecoder (d3d11Device useHardware : Bool) (a : DecoderInit) : Bool × DecoderHW :=
  let s := { s.shutdown with lastD3D11Device := d3d11Device, lastUseHardware := useHardware }
  if !a.codec then (false, s)
  else
    let s := { s with codecCtx := true, hwDeviceCtx := useHardware && d3d11Device && a.hwContext }
    if !a.opened then (false, s)
    else
      let s := { s with pkt := a.pkt, frame := a.frame, tempFrame := a.tempFrame }
      if !a.pkt || !a.frame || !a.tempFrame then (false, s)
      else if d3d11Device then (true, { s with device := true, context := a.context })
      else (true, s)

/-! ## Frames that were not decoded on the device -/

/-- The objects for an upload are not those for a picture of this size. -/
def Stale (size : PictureSize) : Prop :=
  s.swsCtx = none ∨ s.rgbaFrame.map Prod.fst ≠ some size

instance (size : PictureSize) : Decidable (s.Stale size) := inferInstanceAs (Decidable (_ ∨ _))

def buildFallback (size : PictureSize) (a : FallbackAnswers) : Bool × DecoderHW :=
  let s := { s with swsCtx := none, rgbaFrame := none, swTexture := none }
  if !a.sws then (false, s)
  else
    let s := { s with swsCtx := some size }
    if !a.rgbaFrame then (false, s)
    else
      let s := { s with rgbaFrame := some (size, a.buffer) }
      if !a.buffer then (false, s)
      else if !a.texture then (false, s)
      else (true, { s with swTexture := some size })

/-- The picture is converted and uploaded. -/
def upload : Option (DecodedTexture τ) :=
  match s.swsCtx, s.rgbaFrame, s.swTexture with
  | some scaled, some (_, true), some size => some (.software size scaled)
  | _, _, _ => none

def softwareFrame (size : PictureSize) (a : FallbackAnswers) :
    Option (DecodedTexture τ) × DecoderHW :=
  if !(s.device && s.context) then (none, s)
  else
    let (ok, s) := if s.Stale size then s.buildFallback size a else (true, s)
    if !ok then (none, s) else (s.upload, s)

/-! ## DecodeFrame -/

/-- What is done with the last frame that came out. -/
def output (f : AVFrame τ) (a : FallbackAnswers) : Option (DecodedTexture τ) × DecoderHW :=
  if f.size.width ≤ 0 ∨ f.size.height ≤ 0 then (none, s)
  else
    match f.format with
    | .d3d11 (some texture) index => (some (.hardware texture index), s)
    | .d3d11 none _ => (none, s)
    | .software => s.softwareFrame f.size a

def changeCodec (isHEVC : Bool) (init : DecoderInit) : Bool × DecoderHW :=
  if isHEVC = s.isHEVC then (true, s)
  else
    { s with isHEVC := isHEVC }.shutdown.initializeDecoder s.lastD3D11Device s.lastUseHardware init

/-- The packet is sent, and the frames it brings are received; the last one counts. -/
def receive (a : DecodeAnswers τ) : Option (DecodedTexture τ) × DecoderHW :=
  if !s.codecCtx || !s.pkt || !s.frame then (none, s)
  else if !a.sent then (none, s)
  else if !s.tempFrame || !s.frame then (none, s)
  else
    match a.frames.getLast? with
    | none => (none, s)
    | some f => s.output f a.fallback

def decodeFrame (isHEVC : Bool) (a : DecodeAnswers τ) : Option (DecodedTexture τ) × DecoderHW :=
  if !s.codecCtx then (none, s)
  else
    let (ok, s) := s.changeCodec isHEVC a.init
    if !ok then (none, s) else s.receive a

def step (s : DecoderHW) : DecoderEvent τ → DecoderHW
  | .initializeDecoder d3d11Device useHardware a =>
    (s.initializeDecoder d3d11Device useHardware a).2
  | .decodeFrame isHEVC a => (s.decodeFrame isHEVC a).2
  | .shutdown => s.shutdown

/-- What an event puts out. -/
def answer (s : DecoderHW) : DecoderEvent τ → Option (DecodedTexture τ)
  | .decodeFrame isHEVC a => (s.decodeFrame isHEVC a).1
  | _ => none

/-- What the events of a run put out, one by one. -/
def answers (s : DecoderHW) : List (DecoderEvent τ) → List (Option (DecodedTexture τ))
  | [] => []
  | e :: es => s.answer e :: answers (s.step e) es

end DecoderHW

end RemotePlay.Client
