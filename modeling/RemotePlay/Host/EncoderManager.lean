import RemotePlay.Host.Encoder
import RemotePlay.Lib.Run

/-!
# Managing an encoder

`EncoderManager` picks a codec for a client, restarts the encoder when the
quality tier changes or a frame fails, and falls back to libx264. Whether
FFmpeg opens a codec, whether a frame is encoded, what the client reports and
what the stream engine decides are inputs; which codec is opened, with which
bitrate and in which state that leaves the manager is the code's own doing.
-/

namespace RemotePlay.Host

inductive StreamingState where
  | idle
  | preflightValidation
  | ready
  | starting
  | streaming
  | degraded
  | recovering
  | emergencyFallback
  | shutdown
  deriving DecidableEq

/-- The table of `SetState`. -/
def StreamingState.allows : StreamingState → StreamingState → Bool
  | .idle, newState => newState = .starting
  | .starting, newState => newState = .preflightValidation || newState = .shutdown
  | .preflightValidation, newState => newState = .ready || newState = .shutdown
  | .ready, newState => newState = .streaming || newState = .shutdown
  | .streaming, newState =>
    newState = .degraded || newState = .recovering || newState = .emergencyFallback ||
      newState = .shutdown
  | .degraded, newState =>
    newState = .streaming || newState = .recovering || newState = .emergencyFallback ||
      newState = .shutdown
  | .recovering, newState =>
    newState = .streaming || newState = .emergencyFallback || newState = .shutdown
  | .emergencyFallback, newState => newState = .streaming || newState = .shutdown
  | .shutdown, newState => newState = .idle

/-- The state that `SetState` leaves. -/
def StreamingState.next (state newState : StreamingState) : StreamingState :=
  if state.allows newState then newState else state

inductive QualityTier where
  | highPerformance
  | balanced
  | lowEnd
  | recovery
  deriving DecidableEq

structure QualityProfile where
  width : Int
  height : Int
  bitrateKbps : Int
  preset : Int

inductive EncoderBackend where
  | nvenc
  | amf
  | qsv
  | software
  | none
  deriving DecidableEq

/-- The encoders of FFmpeg by name. -/
inductive CodecName where
  | hevcNvenc
  | h264Nvenc
  | hevcQsv
  | h264Qsv
  | hevcAmf
  | h264Amf
  | libx264
  /-- The H.264 encoder of a build that has none of these. -/
  | other
  deriving DecidableEq

/-- What a codec runs on. -/
def CodecName.backend : CodecName → EncoderBackend
  | .hevcNvenc | .h264Nvenc => .nvenc
  | .hevcQsv | .h264Qsv => .qsv
  | .hevcAmf | .h264Amf => .amf
  | .libx264 | .other => .software

structure EncoderCapability where
  backend : EncoderBackend
  codecName : CodecName
  available : Bool

/-! ## FFmpeg's encoders -/

/-- The build of FFmpeg that the host is linked with. -/
structure FFmpeg where
  /-- `avcodec_find_encoder_by_name`. -/
  hasEncoder : CodecName → Bool
  /-- `avcodec_find_encoder(AV_CODEC_ID_H264)` finds one, where none of the known names does. -/
  hasH264 : Bool

namespace FFmpeg

/-- The codec that `FFmpegHardwareEncoder::Initialize` settles on; `none` is the empty name. A name
that FFmpeg does not know stands for any hardware encoder, and else for a software one. -/
def findEncoder (lib : FFmpeg) (codecName : Option CodecName) : Option CodecName :=
  match codecName.filter lib.hasEncoder with
  | some codec => some codec
  | none =>
    match [.hevcNvenc, .h264Nvenc, .hevcAmf, .h264Amf, .hevcQsv, .h264Qsv, .libx264].find?
        lib.hasEncoder with
    | some codec => some codec
    | none => if lib.hasH264 then some .other else none

/-- The codec that is running once `avcodec_open2` has taken it or not. -/
def opened (lib : FFmpeg) (codecName : Option CodecName) (opens : Bool) : Option CodecName :=
  if opens then lib.findEncoder codecName else none

end FFmpeg

/-- `FFmpegHardwareEncoder`. -/
structure HardwareEncoder where
  /-- The codec of `codecCtx`, which is there just when `m_initialized` is set. -/
  codec : Option CodecName
  /-- `m_bitrate`, the rate that `codecCtx` is set to. -/
  bitrate : Int

namespace HardwareEncoder

def isInitialized (enc : HardwareEncoder) : Bool := enc.codec.isSome

/-- `FFmpegHardwareEncoder::Initialize`, which begins with a `Shutdown`. -/
def initializeEncoder (lib : FFmpeg) (bitrateKbps : Int) (codecName : Option CodecName)
    (opens : Bool) : HardwareEncoder :=
  ⟨lib.opened codecName opens, bitrateKbps⟩

def setBitrate (enc : HardwareEncoder) (bitrateKbps : Int) : HardwareEncoder :=
  if enc.codec.isSome ∧ enc.bitrate ≠ bitrateKbps then { enc with bitrate := bitrateKbps }
  else enc

end HardwareEncoder

/-- The calls of `Initialize` (and its result), `ForceKeyframe` and `EncodeFrame` on `m_encoder`. -/
inductive EncoderCall where
  | initializes (codecName : Option CodecName) (success : Bool)
  | forcesKeyframe
  | encodesFrame

/-! ## The manager -/

structure EncoderManager where
  capabilities : List EncoderCapability
  encoder : Option HardwareEncoder
  state : StreamingState
  currentTier : QualityTier
  currentBackend : EncoderBackend
  backendIndex : Nat
  sessionLocked : Bool
  lockedCodecName : Option CodecName
  baseWidth : Int
  baseHeight : Int
  fps : Int
  lastFrameDropRate : Float32
  lastAvgEncodeTimeMs : Float32
  lastAdjustmentTime : UInt64
  /-- What has been asked of `m_encoder` since `Initialize` was last entered. -/
  calls : List EncoderCall

/-- Which codecs FFmpeg opens while `SelectAndInitEncoder` runs. -/
structure Selection where
  /-- The one that it selects. -/
  selected : Bool
  /-- The one of the emergency fallback. -/
  emergency : Bool

/-- The codec opens, or that of the fallback does. -/
def Selection.succeeds (selection : Selection) (lib : FFmpeg) (codecName : Option CodecName) :
    Bool :=
  (lib.opened codecName selection.selected).isSome ||
    (lib.opened (some .libx264) selection.emergency).isSome

/-- A call of `EncoderManager::Initialize`. -/
structure InitializeInput where
  initialWidth : Int
  height : Int
  fps : Int
  useHardware : Bool
  /-- `DetectCapabilities` can open the codec. -/
  supports : CodecName → Bool
  /-- The preflight's test encoder can. -/
  probes : CodecName → Bool
  selection : Selection

/-- A call of `EncoderManager::EncodeFrame`. -/
structure EncodeFrameInput where
  selection : Selection
  /-- The encoder encodes the frame. -/
  encoded : Bool
  /-- The fallback opens its codec, once the encoder has failed. -/
  fallback : Bool

inductive AdaptationAction where
  | maintain
  | increaseBitrate
  | decreaseBitrate
  | increaseResolution
  | decreaseResolution
  | increaseFPS
  | decreaseFPS
  | forceKeyframe
  | emergencyThrottle
  deriving DecidableEq

/-- What `StreamEngine::Analyze` decides, as far as the manager goes by it. -/
structure AdaptationDecision where
  action : AdaptationAction
  targetBitrateKbps : Int

/-- The manager passes the decision's bitrate on. -/
def AdaptationDecision.setsBitrate (decision : AdaptationDecision) : Bool :=
  decision.action = .emergencyThrottle || decision.action = .decreaseBitrate ||
    decision.action = .increaseBitrate

/-- A call of `EncoderManager::UpdatePerformanceMetrics`. -/
structure MetricsInput where
  frameDropRate : Float32
  avgEncodeTimeMs : Float32
  clientDecodeTimeMs : Float32
  targetBitrateKbps : Int
  decision : AdaptationDecision
  now : UInt64
  selection : Selection

namespace EncoderManager

def new : EncoderManager where
  capabilities := []
  encoder := none
  state := .idle
  currentTier := .highPerformance
  currentBackend := .none
  backendIndex := 0
  sessionLocked := false
  lockedCodecName := none
  baseWidth := 1920
  baseHeight := 1080
  fps := 60
  lastFrameDropRate := 0
  lastAvgEncodeTimeMs := 0
  lastAdjustmentTime := 0
  calls := []

/-- `SetState`: a transition that the table does not have is refused. -/
def setState (m : EncoderManager) (newState : StreamingState) : EncoderManager :=
  if m.state = newState then m
  else if m.state.allows newState then { m with state := newState }
  else m

def hardwareCodecs : List EncoderCapability :=
  [⟨.nvenc, .hevcNvenc, true⟩, ⟨.nvenc, .h264Nvenc, true⟩,
   ⟨.qsv, .hevcQsv, true⟩, ⟨.qsv, .h264Qsv, true⟩,
   ⟨.amf, .hevcAmf, true⟩, ⟨.amf, .h264Amf, true⟩]

def detectCapabilities (lib : FFmpeg) (supports : CodecName → Bool) (useHardware : Bool) :
    List EncoderCapability :=
  let checkCodec name := lib.hasEncoder name && supports name
  let hardware := if useHardware then hardwareCodecs.filter (checkCodec ·.codecName) else []
  let software : List EncoderCapability :=
    if checkCodec .libx264 then [⟨.software, .libx264, true⟩] else []
  let found := hardware ++ software
  if found.isEmpty then [⟨.software, .libx264, true⟩] else found

/-- A test encoder starts with the codec. -/
def passesPreflight (lib : FFmpeg) (probes : CodecName → Bool) (codecName : CodecName) : Bool :=
  (HardwareEncoder.initializeEncoder lib 5000 (some codecName) (probes codecName)).isInitialized

/-- `PreflightEncoderValidation` from the `i`-th capability on: what it leaves of them, and the
index and the codec of the one that passes. -/
def preflightEncoderValidation (lib : FFmpeg) (probes : CodecName → Bool) (i : Nat) :
    List EncoderCapability → List EncoderCapability × Option (Nat × CodecName)
  | [] => ([], none)
  | cap :: caps =>
    if cap.available && passesPreflight lib probes cap.codecName then
      (cap :: caps, some (i, cap.codecName))
    else
      let (rest, found) := preflightEncoderValidation lib probes (i + 1) caps
      ({ cap with available := false } :: rest, found)

def getProfileForTier (m : EncoderManager) : QualityTier → QualityProfile
  | .highPerformance => ⟨m.baseWidth, m.baseHeight, 15000, 2⟩
  | .balanced => ⟨m.baseWidth, m.baseHeight, 8000, 1⟩
  | .lowEnd => ⟨1280, 720, 4000, 0⟩
  | .recovery => ⟨854, 480, 1500, 0⟩

def getCurrentBitrate (m : EncoderManager) : Int := (m.getProfileForTier m.currentTier).bitrateKbps

/-- `m_encoder && m_encoder->IsInitialized()`. -/
def isInitialized (m : EncoderManager) : Bool := m.encoder.any (·.isInitialized)

/-- `m_encoder->Initialize` with the profile of the tier, and `ForceKeyframe` if it succeeds. -/
def startEncoder (m : EncoderManager) (lib : FFmpeg) (codecName : Option CodecName)
    (opens : Bool) : Bool × EncoderManager :=
  let encoder := HardwareEncoder.initializeEncoder lib m.getCurrentBitrate codecName opens
  if encoder.isInitialized then
    (true,
      { m with
        encoder := some encoder
        calls := m.calls ++ [.initializes codecName true, .forcesKeyframe] })
  else
    (false,
      { m with
        encoder := some encoder
        calls := m.calls ++ [.initializes codecName false] })

def emergencyEncoderFallback (m : EncoderManager) (lib : FFmpeg) (opens : Bool) :
    Bool × EncoderManager :=
  { m.setState .emergencyFallback with
    lockedCodecName := some .libx264
    currentBackend := .software }.startEncoder lib (some .libx264) opens

def fallback (m : EncoderManager) (lib : FFmpeg) (opens : Bool) : Bool × EncoderManager :=
  m.emergencyEncoderFallback lib opens

def selectAndInitEncoder (m : EncoderManager) (lib : FFmpeg) (selection : Selection) :
    Bool × EncoderManager :=
  if m.sessionLocked then
    match m.startEncoder lib m.lockedCodecName selection.selected with
    | (true, m) => (true, m)
    | (false, m) => m.emergencyEncoderFallback lib selection.emergency
  else
    match m.capabilities[m.backendIndex]? with
    | none => (false, m)
    | some cap =>
      match { m with currentBackend := cap.backend }.startEncoder lib (some cap.codecName)
          selection.selected with
      | (true, m) => (true, m)
      | (false, m) =>
        { m with
          capabilities :=
            m.capabilities.set m.backendIndex { cap with available := false } }.fallback lib
          selection.emergency

/-- `EncoderManager::Initialize` up to the preflight. -/
def beginSession (m : EncoderManager) (lib : FFmpeg) (i : InitializeInput) : EncoderManager :=
  { m.setState .starting with
    baseWidth := i.initialWidth
    baseHeight := i.height
    fps := i.fps
    currentTier := .highPerformance
    backendIndex := 0
    sessionLocked := false
    capabilities := detectCapabilities lib i.supports i.useHardware
    calls := [] }.setState .preflightValidation

/-- The session lock, once the preflight has found a codec. -/
def lockSession (m : EncoderManager) (capabilities : List EncoderCapability) (backendIndex : Nat)
    (codecName : CodecName) : EncoderManager :=
  { m with
    capabilities
    backendIndex
    lockedCodecName := some codecName
    sessionLocked := true }.setState .ready

/-- `EncoderManager::Initialize`. -/
def initializeManager (m : EncoderManager) (lib : FFmpeg) (i : InitializeInput) :
    Bool × EncoderManager :=
  let m := m.beginSession lib i
  match preflightEncoderValidation lib i.probes 0 m.capabilities with
  | (capabilities, none) => (false, { m with capabilities }.setState .shutdown)
  | (capabilities, some (backendIndex, codecName)) =>
    match (m.lockSession capabilities backendIndex codecName).selectAndInitEncoder lib
        i.selection with
    | (true, m) => (true, m.setState .streaming)
    | (false, m) => (false, m.setState .shutdown)

/-- The start of `EncodeFrame`: an encoder that is ready for the frame. -/
def readyEncoder (m : EncoderManager) (lib : FFmpeg) (selection : Selection) :
    Bool × EncoderManager :=
  if m.isInitialized then (true, m)
  else if m.sessionLocked then m.selectAndInitEncoder lib selection
  else (false, m)

def encodeFrame (m : EncoderManager) (lib : FFmpeg) (i : EncodeFrameInput) :
    Bool × EncoderManager :=
  match m.readyEncoder lib i.selection with
  | (false, m) => (false, m)
  | (true, m) =>
    let m := { m with calls := m.calls ++ [.encodesFrame] }
    if i.encoded then (true, m) else m.fallback lib i.fallback

def requestKeyframe (m : EncoderManager) : EncoderManager :=
  if m.encoder.isSome then { m with calls := m.calls ++ [.forcesKeyframe] } else m

/-- `if (m_encoder) m_encoder->SetBitrate(bitrateKbps)`. -/
def setBitrate (m : EncoderManager) (bitrateKbps : Int) : EncoderManager :=
  { m with encoder := m.encoder.map (·.setBitrate bitrateKbps) }

end EncoderManager

def QualityTier.improved : QualityTier → QualityTier
  | .balanced => .highPerformance
  | .lowEnd => .balanced
  | .recovery => .lowEnd
  | .highPerformance => .highPerformance

def QualityTier.reduced : QualityTier → QualityTier
  | .highPerformance => .balanced
  | .balanced => .lowEnd
  | .lowEnd => .recovery
  | .recovery => .recovery

namespace EncoderManager

def adjustTier (m : EncoderManager) (lib : FFmpeg) (improve : Bool) (selection : Selection) :
    EncoderManager :=
  let oldTier := m.currentTier
  let currentTier := if improve then oldTier.improved else oldTier.reduced
  let m := { m with currentTier }
  if oldTier ≠ currentTier then
    let oldProfile := m.getProfileForTier oldTier
    let newProfile := m.getProfileForTier currentTier
    if m.encoder.isSome ∧ oldProfile.width = newProfile.width ∧
        oldProfile.height = newProfile.height then
      m.setBitrate newProfile.bitrateKbps
    else (m.selectAndInitEncoder lib selection).2
  else m

/-- `UpdatePerformanceMetrics` up to the call of `Analyze`. -/
def receiveMetrics (m : EncoderManager) (i : MetricsInput) : EncoderManager :=
  let m := if i.targetBitrateKbps > 0 then m.setBitrate i.targetBitrateKbps else m
  { m with
    lastFrameDropRate := if i.frameDropRate ≥ 0 then i.frameDropRate else m.lastFrameDropRate
    lastAvgEncodeTimeMs :=
      if i.avgEncodeTimeMs ≥ 0 then i.avgEncodeTimeMs else m.lastAvgEncodeTimeMs }

def needsDowngrade (m : EncoderManager) (clientDecodeTimeMs : Float32) : Bool :=
  let frameBudgetMs : Float32 := 1000.0 / Float32.ofInt m.fps
  m.lastFrameDropRate > 0.10 || m.lastAvgEncodeTimeMs > frameBudgetMs * 0.8 ||
    (clientDecodeTimeMs > 0 && clientDecodeTimeMs > frameBudgetMs * 0.8)

/-- The end of `UpdatePerformanceMetrics`, where a tier may be lost. -/
def adjustQuality (m : EncoderManager) (lib : FFmpeg) (i : MetricsInput) : EncoderManager :=
  if i.now - m.lastAdjustmentTime < 5000 then m
  else if m.needsDowngrade i.clientDecodeTimeMs then
    let m := if m.currentTier ≠ .recovery then m.setState .degraded else m
    { m.adjustTier lib false i.selection with lastAdjustmentTime := i.now }
  else m

def updatePerformanceMetrics (m : EncoderManager) (lib : FFmpeg) (i : MetricsInput) :
    EncoderManager :=
  let m := m.receiveMetrics i
  let m := if i.decision.setsBitrate then m.setBitrate i.decision.targetBitrateKbps else m
  m.adjustQuality lib i

/-- `EncoderManager::Shutdown`. -/
def shutdownManager (m : EncoderManager) : EncoderManager :=
  { m.setState .shutdown with encoder := none }

end EncoderManager

inductive ManagerEvent where
  | initializes (i : InitializeInput)
  | encodesFrame (i : EncodeFrameInput)
  | updatesMetrics (i : MetricsInput)
  | requestsKeyframe
  | shutsDown

namespace EncoderManager

def step (lib : FFmpeg) (m : EncoderManager) : ManagerEvent → EncoderManager
  | .initializes i => (m.initializeManager lib i).2
  | .encodesFrame i => (m.encodeFrame lib i).2
  | .updatesMetrics i => m.updatePerformanceMetrics lib i
  | .requestsKeyframe => m.requestKeyframe
  | .shutsDown => m.shutdownManager

/-- A build that has NVENC and nothing else. -/
def nvencBuild : FFmpeg := ⟨fun codecName => codecName = .hevcNvenc, false⟩

/-- `Initialize` at 1920×1080; every codec opens, or none does. -/
def initInput (opens : Bool) : InitializeInput :=
  ⟨1920, 1080, 60, true, fun _ => opens, fun _ => opens, ⟨opens, opens⟩⟩

example : (new.initializeManager nvencBuild (initInput true)).2.lockedCodecName =
    some .hevcNvenc := by decide

end EncoderManager

end RemotePlay.Host
