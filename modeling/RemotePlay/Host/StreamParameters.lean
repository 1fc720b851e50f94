import RemotePlay.Host.ManagerState

/-!
# The parameters that the manager reports

`GetCurrentBitrate` is the bitrate of the tier, `GetCurrentBackend` what was
last noted down. The encoder's bitrate is set from three more places, and a
locked session notes no backend. `reports_iff` says in which runs both are
what the encoder has, whenever it is initialised and whenever `Analyze` is
given the bitrate.
-/

namespace RemotePlay.Host

open Lib

/-- The backend noted down is that of the codec that opens. -/
def Selection.OnRecord (selection : Selection) (lib : FFmpeg) (codecName : Option CodecName)
    (backend : EncoderBackend) : Prop :=
  match lib.opened codecName selection.selected with
  | some codec => backend = codec.backend
  | none => ∀ codec, lib.opened (some .libx264) selection.emergency = some codec →
      EncoderBackend.software = codec.backend

namespace EncoderManager

/-- An initialised encoder runs at the bitrate, with a codec of the backend. -/
def Programmed (encoder : Option HardwareEncoder) (bitrateKbps : Int) (backend : EncoderBackend) :
    Prop :=
  ∀ enc codec, encoder = some enc → enc.codec = some codec →
    bitrateKbps = enc.bitrate ∧ backend = codec.backend

/-- What the manager reports is what the encoder has. -/
def Matches (m : EncoderManager) : Prop :=
  Programmed m.encoder m.getCurrentBitrate m.currentBackend

/-- The parameters are right after the event, and where `Analyze` is called during it. -/
def Reports (lib : FFmpeg) (m : EncoderManager) : ManagerEvent → Prop
  | .updatesMetrics i => Matches (m.receiveMetrics i) ∧ Matches (m.updatePerformanceMetrics lib i)
  | e => Matches (m.step lib e)

/-! ## The condition -/

/-- The metrics cost a tier. -/
def losesTier (m : EncoderManager) (i : MetricsInput) : Prop :=
  ¬ i.now - m.lastAdjustmentTime < 5000 ∧ m.needsDowngrade i.clientDecodeTimeMs = true ∧
    m.currentTier ≠ .recovery

/-- The next tier has the same resolution, so that the encoder is kept. -/
def keepsEncoder (m : EncoderManager) : Prop :=
  m.encoder.isSome = true ∧
    (m.getProfileForTier m.currentTier).width =
      (m.getProfileForTier m.currentTier.reduced).width ∧
    (m.getProfileForTier m.currentTier).height =
      (m.getProfileForTier m.currentTier.reduced).height

/-- An encoder that outlives a failed preflight is counted as one of tier A. -/
def InitializeKeeps (m : EncoderManager) (lib : FFmpeg) (i : InitializeInput) : Prop :=
  match firstPassing lib i with
  | none => m.isInitialized = true → m.currentTier = .highPerformance
  | some codecName => i.selection.OnRecord lib (some codecName) m.currentBackend

/-- A frame starts an encoder before it, to be encoded, or after it, since it was not. -/
def EncodeKeeps (m : EncoderManager) (lib : FFmpeg) (i : EncodeFrameInput) : Prop :=
  (i.encoded = true → m.isInitialized = false → m.sessionLocked = true →
    i.selection.OnRecord lib m.lockedCodecName m.currentBackend) ∧
  (i.encoded = false →
    (m.isInitialized || m.sessionLocked && i.selection.succeeds lib m.lockedCodecName) = true →
    ∀ codec, lib.opened (some .libx264) i.fallback = some codec →
      EncoderBackend.software = codec.backend)

/-- The client's target counts where `Analyze` is called, the decision only if no tier is lost. -/
def MetricsKeep (m : EncoderManager) (lib : FFmpeg) (i : MetricsInput) : Prop :=
  (m.isInitialized = true → i.targetBitrateKbps > 0 →
    m.getCurrentBitrate = i.targetBitrateKbps) ∧
  (¬ (m.receiveMetrics i).losesTier i → m.isInitialized = true →
    i.decision.setsBitrate = true → m.getCurrentBitrate = i.decision.targetBitrateKbps) ∧
  ((m.receiveMetrics i).losesTier i → ¬ m.keepsEncoder →
    ∀ codecName backend, m.chosen = some (codecName, backend) →
      i.selection.OnRecord lib codecName backend)

/-- A bitrate that is set is the one of the tier, and a codec that is started is of the backend on
record. -/
def KeepsRecord (lib : FFmpeg) (m : EncoderManager) : ManagerEvent → Prop
  | .initializes i => m.InitializeKeeps lib i
  | .encodesFrame i => m.EncodeKeeps lib i
  | .updatesMetrics i => m.MetricsKeep lib i
  | _ => True

variable {m : EncoderManager} {lib : FFmpeg}

/-! ## The operations -/

theorem isInitialized_iff : m.isInitialized = true ↔
    ∃ enc codec, m.encoder = some enc ∧ enc.codec = some codec := by
  unfold isInitialized HardwareEncoder.isInitialized
  rw [Option.any_eq_true]
  simp only [Option.isSome_iff_exists, exists_and_left]

/-- An encoder that has been started has the bitrate of the tier. -/
theorem matches_started (m : EncoderManager) (codecName codec : Option CodecName) :
    Matches (m.started codecName codec) ↔
      ∀ name, codec = some name → m.currentBackend = name.backend := by
  constructor
  · intro h name hname
    exact (h ⟨codec, m.getCurrentBitrate⟩ name rfl hname).2
  · intro h enc name henc hname
    cases henc
    exact ⟨rfl, h name hname⟩

theorem matches_emergencyEncoderFallback (m : EncoderManager) (lib : FFmpeg) (opens : Bool) :
    Matches (m.emergencyEncoderFallback lib opens).2 ↔
      ∀ codec, lib.opened (some .libx264) opens = some codec →
        EncoderBackend.software = codec.backend := by
  rw [emergencyEncoderFallback_eq]
  exact matches_started m.toSoftware _ _

theorem matches_selectAndInitEncoder {codecName : Option CodecName} {backend : EncoderBackend}
    (h : m.chosen = some (codecName, backend)) (lib : FFmpeg) (selection : Selection) :
    Matches (m.selectAndInitEncoder lib selection).2 ↔
      selection.OnRecord lib codecName backend := by
  unfold Selection.OnRecord
  rcases selectAndInitEncoder_some h lib selection with
    ⟨codec, hopened, hsel⟩ | ⟨hopened, capabilities, -, hsel⟩
  · rw [hsel, hopened, matches_started]
    exact ⟨fun h => h codec rfl, fun h name hname => by cases hname; exact h⟩
  · rw [hsel, hopened]
    exact matches_emergencyEncoderFallback _ lib selection.emergency

theorem matches_initializeManager (hm : Matches m) (lib : FFmpeg) (i : InitializeInput) :
    Matches (m.initializeManager lib i).2 ↔ m.InitializeKeeps lib i := by
  unfold InitializeKeeps
  cases hfirst : firstPassing lib i with
  | none =>
    obtain ⟨capabilities, -, hinit⟩ := initializeManager_none hfirst m
    rw [hinit, setState_eq, beginSession_eq]
    show Programmed m.encoder 15000 m.currentBackend ↔ _
    constructor
    · intro h hinitialized
      obtain ⟨enc, codec, henc, hcodec⟩ := isInitialized_iff.mp hinitialized
      have hbitrate := (hm enc codec henc hcodec).1.trans (h enc codec henc hcodec).1.symm
      unfold getCurrentBitrate at hbitrate
      revert hbitrate
      cases m.currentTier <;> simp [getProfileForTier]
    · intro h enc codec henc hcodec
      have htier := h (isInitialized_iff.mpr ⟨enc, codec, henc, hcodec⟩)
      obtain ⟨hbitrate, hbackend⟩ := hm enc codec henc hcodec
      rw [getCurrentBitrate, htier] at hbitrate
      exact ⟨hbitrate, hbackend⟩
  | some codecName =>
    obtain ⟨capabilities, backendIndex, hinit⟩ := initializeManager_some hfirst m
    rw [hinit, setState_eq]
    exact matches_selectAndInitEncoder
      (chosen_lockSession m lib i capabilities backendIndex codecName) lib i.selection

theorem matches_readyEncoder (hm : Matches m) (lib : FFmpeg) (selection : Selection) :
    Matches (m.readyEncoder lib selection).2 ↔
      (m.isInitialized = false → m.sessionLocked = true →
        selection.OnRecord lib m.lockedCodecName m.currentBackend) := by
  unfold readyEncoder
  cases hinit : m.isInitialized with
  | true => exact iff_of_true hm fun h => nomatch h
  | false =>
    rw [if_neg Bool.false_ne_true]
    split
    · next hlocked =>
      rw [matches_selectAndInitEncoder (chosen_locked hlocked)]
      exact ⟨fun h _ _ => h, fun h => h rfl hlocked⟩
    · next hlocked => exact iff_of_true hm fun _ h => absurd h hlocked

/-- What does not open is not on record wrongly. -/
theorem onRecord_of_fails {selection : Selection} {codecName : Option CodecName}
    (h : selection.succeeds lib codecName = false) (backend : EncoderBackend) :
    selection.OnRecord lib codecName backend := by
  unfold Selection.succeeds at h
  obtain ⟨hselected, hemergency⟩ := Bool.or_eq_false_iff.mp h
  unfold Selection.OnRecord
  rw [Option.isSome_eq_false_iff, Option.isNone_iff_eq_none] at hselected hemergency
  rw [hselected, hemergency]
  exact fun codec hcodec => nomatch hcodec

theorem matches_encodeFrame (hm : Matches m) (lib : FFmpeg) (i : EncodeFrameInput) :
    Matches (m.encodeFrame lib i).2 ↔ m.EncodeKeeps lib i := by
  have hready := readyEncoder_fst m lib i.selection
  have hmatches := matches_readyEncoder hm lib i.selection
  have hfailed : (m.readyEncoder lib i.selection).1 = false →
      Matches (m.readyEncoder lib i.selection).2 := by
    intro hfails
    rw [hready] at hfails
    refine hmatches.mpr fun _ hlocked => onRecord_of_fails ?_ _
    rw [hlocked, Bool.true_and] at hfails
    exact (Bool.or_eq_false_iff.mp hfails).2
  unfold encodeFrame EncodeKeeps
  rw [← hmatches, ← hready]
  generalize m.readyEncoder lib i.selection = r at hfailed ⊢
  obtain ⟨ready, m'⟩ := r
  cases ready with
  | false =>
    refine iff_of_true (hfailed rfl) ⟨fun _ => hfailed rfl, fun _ hready => ?_⟩
    exact absurd hready Bool.false_ne_true
  | true =>
    cases i.encoded with
    | true => exact ⟨fun h => ⟨fun _ => h, fun hnot => absurd hnot.symm Bool.false_ne_true⟩,
        fun h => h.1 rfl⟩
    | false =>
      dsimp only
      rw [if_neg Bool.false_ne_true, fallback, matches_emergencyEncoderFallback]
      exact ⟨fun h => ⟨fun hnot => absurd hnot Bool.false_ne_true, fun _ _ => h⟩,
        fun h => h.2 rfl rfl⟩

/-! ## The bitrate -/

/-- `SetBitrate` on an encoder that is there and initialised, and on any other. -/
theorem setBitrate_encoder (enc : HardwareEncoder) (bitrateKbps : Int) :
    (enc.setBitrate bitrateKbps).codec = enc.codec ∧
      (enc.codec.isSome = true → (enc.setBitrate bitrateKbps).bitrate = bitrateKbps) := by
  unfold HardwareEncoder.setBitrate
  split
  · exact ⟨rfl, fun _ => rfl⟩
  · next h =>
    refine ⟨rfl, fun hcodec => ?_⟩
    by_contra hne
    exact h ⟨hcodec, hne⟩

/-- Once a bitrate is set, the encoder has this one and its codec. -/
theorem programmed_setBitrate {encoder : Option HardwareEncoder} {before bitrateKbps b : Int}
    {backend : EncoderBackend} (h : Programmed encoder before backend) :
    Programmed (encoder.map (·.setBitrate b)) bitrateKbps backend ↔
      (encoder.any (·.isInitialized) = true → bitrateKbps = b) := by
  constructor
  · intro hset hinit
    obtain ⟨enc, henc, hcodec⟩ := (Option.any_eq_true _ _).mp hinit
    obtain ⟨codec, hcodec⟩ := Option.isSome_iff_exists.mp hcodec
    obtain ⟨hkept, hbitrate⟩ := setBitrate_encoder enc b
    rw [henc] at hset
    have hnow := hset (enc.setBitrate b) codec rfl (hkept.trans hcodec)
    rw [hcodec] at hbitrate
    exact hnow.1.trans (hbitrate rfl)
  · intro hb enc' codec henc' hcodec'
    obtain ⟨enc, henc, rfl⟩ := Option.map_eq_some_iff.mp henc'
    obtain ⟨hkept, hbitrate⟩ := setBitrate_encoder enc b
    rw [hkept] at hcodec'
    have hsome : enc.codec.isSome = true := by rw [hcodec']; rfl
    refine ⟨?_, (h enc codec henc hcodec').2⟩
    rw [hbitrate hsome]
    refine hb ((Option.any_eq_true _ _).mpr ⟨enc, henc, hsome⟩)

theorem matches_setBitrate (hm : Matches m) (b : Int) :
    Matches (m.setBitrate b) ↔ (m.isInitialized = true → m.getCurrentBitrate = b) :=
  programmed_setBitrate hm

theorem isInitialized_setBitrate (m : EncoderManager) (b : Int) :
    (m.setBitrate b).isInitialized = m.isInitialized := by
  unfold isInitialized setBitrate
  cases m.encoder with
  | none => rfl
  | some enc => exact congrArg Option.isSome (setBitrate_encoder enc b).1

/-! ## The tier -/

theorem reduced_ne {tier : QualityTier} (h : tier ≠ .recovery) : tier ≠ tier.reduced := by
  revert h
  cases tier <;> decide

/-- A tier that is lost sets its bitrate, or starts the codec chosen with it. -/
theorem matches_adjustTier {before : Int} (h : Programmed m.encoder before m.currentBackend)
    (hbare : m.chosen = none → m.encoder = none) (htier : m.currentTier ≠ .recovery)
    (lib : FFmpeg) (selection : Selection) :
    Matches (m.adjustTier lib false selection) ↔
      (¬ m.keepsEncoder → ∀ codecName backend, m.chosen = some (codecName, backend) →
        selection.OnRecord lib codecName backend) := by
  unfold adjustTier
  dsimp only
  rw [if_neg Bool.false_ne_true, if_pos (reduced_ne htier)]
  split
  · next hkeeps =>
    refine iff_of_true ?_ fun hnot => absurd hkeeps hnot
    exact (programmed_setBitrate h).mpr fun _ => rfl
  · next hkeeps =>
    cases hchosen : m.chosen with
    | none =>
      refine iff_of_true ?_ fun _ _ _ hsome => nomatch hsome
      rw [@selectAndInitEncoder_none { m with currentTier := m.currentTier.reduced } hchosen]
      intro enc codec henc
      change m.encoder = some enc at henc
      rw [hbare hchosen] at henc
      cases henc
    | some chosen =>
      obtain ⟨codecName, backend⟩ := chosen
      rw [@matches_selectAndInitEncoder { m with currentTier := m.currentTier.reduced } codecName
        backend hchosen]
      constructor
      · intro hrecord _ name backend' hsome
        cases hsome
        exact hrecord
      · exact fun hall => hall hkeeps codecName backend rfl

theorem matches_adjustQuality {before : Int} (h : Programmed m.encoder before m.currentBackend)
    (hbare : m.chosen = none → m.encoder = none) (lib : FFmpeg) (i : MetricsInput) :
    Matches (m.adjustQuality lib i) ↔
      (¬ m.losesTier i → Matches m) ∧
        (m.losesTier i → ¬ m.keepsEncoder → ∀ codecName backend,
          m.chosen = some (codecName, backend) → i.selection.OnRecord lib codecName backend) := by
  by_cases hloses : m.losesTier i
  · obtain ⟨hlate, hdowngrade, htier⟩ := hloses
    unfold adjustQuality
    rw [if_neg hlate, if_pos hdowngrade]
    dsimp only
    rw [if_pos htier, setState_eq]
    have hadjust := @matches_adjustTier { m with state := m.state.next .degraded } before h hbare
      htier lib i.selection
    refine hadjust.trans ⟨fun hall => ⟨fun hnot => ?_, fun _ => hall⟩, fun hall => ?_⟩
    · exact absurd ⟨hlate, hdowngrade, htier⟩ hnot
    · exact hall.2 ⟨hlate, hdowngrade, htier⟩
  · have hsame : Matches (m.adjustQuality lib i) ↔ Matches m := by
      unfold adjustQuality
      split
      · exact Iff.rfl
      · next hlate =>
        split
        · next hdowngrade =>
          have htier : m.currentTier = .recovery := by
            by_contra htier
            exact hloses ⟨hlate, hdowngrade, htier⟩
          dsimp only
          rw [if_neg (not_not.mpr htier)]
          unfold adjustTier
          dsimp only
          rw [if_neg Bool.false_ne_true, htier]
          show Programmed m.encoder 1500 m.currentBackend ↔ _
          unfold Matches getCurrentBitrate
          rw [htier]
          exact Iff.rfl
        · exact Iff.rfl
    rw [hsame]
    exact ⟨fun hm => ⟨fun _ => hm, fun h => absurd h hloses⟩, fun h => h.1 hloses⟩

theorem keepsEncoder_setBitrate (m : EncoderManager) (b : Int) :
    (m.setBitrate b).keepsEncoder ↔ m.keepsEncoder := by
  unfold keepsEncoder
  show (m.encoder.map (·.setBitrate b)).isSome = true ∧ _ ↔ _
  rw [Option.isSome_map]
  exact Iff.rfl

/-- The decision, and the tier. -/
theorem matches_decision (hm : Matches m) (hbare : m.chosen = none → m.encoder = none)
    (lib : FFmpeg) (i : MetricsInput) :
    Matches ((if i.decision.setsBitrate then m.setBitrate i.decision.targetBitrateKbps
        else m).adjustQuality lib i) ↔
      (¬ m.losesTier i → m.isInitialized = true → i.decision.setsBitrate = true →
        m.getCurrentBitrate = i.decision.targetBitrateKbps) ∧
      (m.losesTier i → ¬ m.keepsEncoder → ∀ codecName backend,
        m.chosen = some (codecName, backend) → i.selection.OnRecord lib codecName backend) := by
  cases hsets : i.decision.setsBitrate with
  | false =>
    rw [if_neg Bool.false_ne_true, matches_adjustQuality hm hbare]
    exact and_congr_left' (iff_of_true (fun _ => hm) fun _ _ h => nomatch h)
  | true =>
    have hset := matches_setBitrate hm i.decision.targetBitrateKbps
    have hprogrammed : Programmed (m.setBitrate i.decision.targetBitrateKbps).encoder
        i.decision.targetBitrateKbps m.currentBackend := (programmed_setBitrate hm).mpr fun _ => rfl
    have hnone : (m.setBitrate i.decision.targetBitrateKbps).chosen = none →
        (m.setBitrate i.decision.targetBitrateKbps).encoder = none := fun h =>
      Option.map_eq_none_iff.mpr (hbare h)
    rw [if_pos rfl, matches_adjustQuality hprogrammed hnone, hset, keepsEncoder_setBitrate]
    refine and_congr_left' ⟨fun h hkept hinit _ => h hkept hinit, fun h hkept hinit => ?_⟩
    exact h hkept hinit rfl

/-- What is decided by, before and after the metrics have been received. -/
theorem receiveMetrics_reads (m : EncoderManager) (i : MetricsInput) :
    (m.receiveMetrics i).isInitialized = m.isInitialized ∧
      (m.receiveMetrics i).getCurrentBitrate = m.getCurrentBitrate ∧
      (m.receiveMetrics i).chosen = m.chosen ∧
      ((m.receiveMetrics i).keepsEncoder ↔ m.keepsEncoder) := by
  unfold receiveMetrics
  split
  · exact ⟨isInitialized_setBitrate m _, rfl, rfl, keepsEncoder_setBitrate m _⟩
  · exact ⟨rfl, rfl, rfl, Iff.rfl⟩

/-- **Metrics.** The client's target and the decision have to be the tier's bitrate, unless the
tier is lost; then a codec that is started has to be on record. -/
theorem reports_metrics (hm : Matches m) (hsound : Sound m) (lib : FFmpeg) (i : MetricsInput) :
    Matches (m.receiveMetrics i) ∧ Matches (m.updatePerformanceMetrics lib i) ↔
      m.MetricsKeep lib i := by
  have hreceive : Matches (m.receiveMetrics i) ↔
      (m.isInitialized = true → i.targetBitrateKbps > 0 →
        m.getCurrentBitrate = i.targetBitrateKbps) := by
    unfold receiveMetrics
    split
    · next htarget =>
      refine (matches_setBitrate hm i.targetBitrateKbps).trans ?_
      exact ⟨fun h hinit _ => h hinit, fun h hinit => h hinit htarget⟩
    · next htarget => exact iff_of_true hm fun _ h => absurd h htarget
  obtain ⟨hinit, hbitrate, hchosen, hkeeps⟩ := receiveMetrics_reads m i
  have hbare := (hsound.moves (receiveMetrics_moves m i)).bare
  unfold MetricsKeep
  rw [← hreceive]
  refine and_congr_right fun hmatches => ?_
  have hdecision := matches_decision hmatches hbare lib i
  rw [hinit, hbitrate, hchosen, hkeeps] at hdecision
  exact hdecision

/-! ## Runs -/

theorem reports_step (hsound : Sound m) (hm : Matches m) (lib : FFmpeg) (e : ManagerEvent) :
    Reports lib m e ↔ KeepsRecord lib m e := by
  cases e with
  | initializes i => exact matches_initializeManager hm lib i
  | encodesFrame i => exact matches_encodeFrame hm lib i
  | updatesMetrics i => exact reports_metrics hm hsound lib i
  | requestsKeyframe =>
    refine iff_of_true ?_ trivial
    show Matches m.requestKeyframe
    unfold requestKeyframe
    split <;> exact hm
  | shutsDown =>
    refine iff_of_true ?_ trivial
    intro enc codec henc
    cases henc

theorem matches_of_reports {e : ManagerEvent} (h : Reports lib m e) : Matches (m.step lib e) := by
  cases e with
  | updatesMetrics i => exact h.2
  | initializes i => exact h
  | encodesFrame i => exact h
  | requestsKeyframe => exact h
  | shutsDown => exact h

/-- **What the manager reports is what the encoder has**, all along a run, iff every bitrate set is
the tier's and every codec started is of the backend on record. -/
theorem reports_iff (lib : FFmpeg) (es : List ManagerEvent) :
    Along (step lib) (Reports lib) new es ↔ Along (step lib) (KeepsRecord lib) new es := by
  have hstep : ∀ m e, Sound m ∧ Matches m → Reports lib m e →
      Sound (m.step lib e) ∧ Matches (m.step lib e) :=
    fun m e h hreports => ⟨h.1.step lib m e, matches_of_reports hreports⟩
  have hnew : Sound new ∧ Matches new := ⟨Sound.new, fun _ _ h => nomatch h⟩
  exact along_iff hstep (fun m e h => reports_step h.1 h.2 lib e) hnew es

/-- The first session of a host with NVENC runs on a backend that is none. -/
theorem firstSession_not_reports :
    ¬ Along (step nvencBuild) (Reports nvencBuild) new [.initializes (initInput true)] := by
  rintro ⟨hreports, -⟩
  have hbackend := (hreports ⟨some .hevcNvenc, 15000⟩ .hevcNvenc rfl rfl).2
  exact absurd hbackend (by decide)

end EncoderManager

end RemotePlay.Host
