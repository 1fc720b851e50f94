import RemotePlay.Client.RendererD3D11

/-!
# The lifetime of the renderer

A renderer works while its device, its swap chain and ImGui are there and the
video processor, if there is one, is the one for the cached texture. Every call
keeps it so. From a call that returns `false`, for a lost device or because
`GetBuffer` failed, it comes back only if no video device has been obtained:
`Shutdown` leaves that pointer dangling, and the destructor releases it again.
-/

namespace RemotePlay.Client

open Lib

namespace RendererD3D11

open RendererPointer

/-! ## A renderer that works -/

/-- The pointers on which the others depend. -/
def corePointers : List RendererPointer :=
  [device, context, swapChain, imgui, videoDevice, videoContext, videoEnumerator, videoProcessor]

structure Core (o : Owners RendererPointer) : Prop where
  sound : o.Sound
  hasDevice : o.isSet device = true
  hasContext : o.isSet context = true
  hasSwapChain : o.isSet swapChain = true
  hasImgui : o.isSet imgui = true
  noContext : o.isSet videoDevice = false → o.isSet videoContext = false
  noProcessor : o.isSet videoContext = false →
    o.isSet videoEnumerator = false ∧ o.isSet videoProcessor = false

/-- What does not touch these pointers or the cached texture. -/
structure Keeps (s s' : RendererD3D11) : Prop where
  sound : s'.owners.Sound
  ptr : ∀ i ∈ lastInputTexture :: corePointers, s'.owners.ptr i = s.owners.ptr i
  contentDesc : s'.contentDesc = s.contentDesc
  size : s'.size = s.size
  lastInput : s'.lastInput = s.lastInput

/-- The video processor, if it is there, is the one for the texture. -/
def Matches (s : RendererD3D11) (desc : TextureDesc) : Prop :=
  s.isSet videoProcessor = true → s.isSet videoEnumerator = true → ¬ s.Copies desc →
    s.contentDesc = (desc.size, s.size)

structure Working (s : RendererD3D11) : Prop where
  core : Core s.owners
  cached : s.isSet lastInputTexture = true → s.Matches s.lastInput

section
variable {s s' s'' : RendererD3D11}

theorem Core.congr {o o' : Owners RendererPointer} (h : Core o) (hsound : o'.Sound)
    (hptr : ∀ i ∈ corePointers, o'.ptr i = o.ptr i) : Core o' := by
  have hset : ∀ i ∈ corePointers, o'.isSet i = o.isSet i :=
    fun i hi => Owners.isSet_congr (hptr i hi)
  simp only [corePointers, List.forall_mem_cons] at hset
  obtain ⟨hdevice, hcontext, hswap, himgui, hvdevice, hvcontext, henumerator, hprocessor, -⟩ := hset
  constructor
  · exact hsound
  · rw [hdevice, h.hasDevice]
  · rw [hcontext, h.hasContext]
  · rw [hswap, h.hasSwapChain]
  · rw [himgui, h.hasImgui]
  · rw [hvdevice, hvcontext]
    exact h.noContext
  · rw [hvcontext, henumerator, hprocessor]
    exact h.noProcessor

theorem Keeps.core (h : s.Keeps s') (hcore : Core s.owners) : Core s'.owners :=
  hcore.congr h.sound fun i hi => h.ptr i (List.mem_cons_of_mem _ hi)

theorem Keeps.isSet (h : s.Keeps s') {i : RendererPointer}
    (hi : i ∈ lastInputTexture :: corePointers) : s'.isSet i = s.isSet i :=
  Owners.isSet_congr (h.ptr i hi)

theorem Keeps.trans (h : s.Keeps s') (h' : s'.Keeps s'') : s.Keeps s'' :=
  ⟨h'.sound, fun i hi => (h'.ptr i hi).trans (h.ptr i hi), h'.contentDesc.trans h.contentDesc,
    h'.size.trans h.size, h'.lastInput.trans h.lastInput⟩

theorem keeps_of_owners (hsound : s.owners.Sound) (howners : s'.owners = s.owners)
    (hdesc : s'.contentDesc = s.contentDesc) (hsize : s'.size = s.size)
    (hlast : s'.lastInput = s.lastInput) : s.Keeps s' :=
  ⟨howners ▸ hsound, fun _ _ => by rw [howners], hdesc, hsize, hlast⟩

theorem on_use (hsound : s.owners.Sound) {i : RendererPointer} (hi : s.isSet i = true) :
    s.on (·.use i) = s :=
  congrArg (fun o => { s with owners := o }) (hsound.use_eq hi)

theorem keeps_use (hsound : s.owners.Sound) {i : RendererPointer} (hi : s.isSet i = true) :
    s.Keeps (s.on (·.use i)) :=
  keeps_of_owners hsound (hsound.use_eq hi) rfl rfl rfl

theorem keeps_reset (hsound : s.owners.Sound) {i : RendererPointer}
    (hi : i ∉ lastInputTexture :: corePointers) : s.Keeps (s.on (·.reset i)) :=
  ⟨hsound.reset i, fun j hj => Owners.ptr_reset_ne (by rintro rfl; exact hi hj), rfl, rfl, rfl⟩

theorem keeps_acquire (hsound : s.owners.Sound) {i : RendererPointer}
    (hi : i ∉ lastInputTexture :: corePointers) (ok : Bool) : s.Keeps (s.on (·.acquire i ok)) :=
  ⟨hsound.acquire i ok, fun j hj => Owners.ptr_acquire_ne (by rintro rfl; exact hi hj) ok, rfl, rfl,
    rfl⟩

theorem Keeps.matches (h : s.Keeps s') {desc : TextureDesc} (hm : s.Matches desc) :
    s'.Matches desc := by
  intro hprocessor henumerator hcopies
  rw [h.isSet (by decide)] at hprocessor henumerator
  have hnot : ¬ s.Copies desc := fun hc => hcopies ⟨hc.1, hc.2.1, hc.2.2.trans h.size.symm⟩
  rw [h.contentDesc, h.size]
  exact hm hprocessor henumerator hnot

theorem Keeps.working (h : s.Keeps s') (hw : s.Working) : s'.Working := by
  refine ⟨h.core hw.core, fun hset => ?_⟩
  rw [h.isSet (by decide)] at hset
  rw [h.lastInput]
  exact h.matches (hw.cached hset)

theorem keeps_useView (hcore : Core s.owners) : s.Keeps s.useView := by
  unfold useView
  split
  · next hview =>
    refine keeps_of_owners hcore.sound ?_ rfl rfl rfl
    show (s.owners.use _).use _ = s.owners
    rw [hcore.sound.use_eq hcore.hasContext, hcore.sound.use_eq hview]
  · exact keeps_of_owners hcore.sound rfl rfl rfl rfl

theorem ready_of_core (hcore : Core s.owners) : s.ready = true := by
  unfold ready isSet
  rw [hcore.hasSwapChain, hcore.hasContext, hcore.hasDevice]
  rfl

theorem keeps_selectBuffer (hcore : Core s.owners) (index : Nat) :
    s.Keeps (s.selectBuffer index) := by
  unfold selectBuffer
  split
  · exact keeps_of_owners hcore.sound (hcore.sound.use_eq hcore.hasSwapChain) rfl rfl rfl
  · exact keeps_of_owners hcore.sound rfl rfl rfl rfl

theorem keeps_newFrame (hcore : Core s.owners) (removed : Bool) (index : Nat) :
    s.Keeps (s.newFrame removed index) := by
  have hdevice : s.Keeps (s.on (·.use device)) := keeps_use hcore.sound hcore.hasDevice
  unfold newFrame
  rw [ready_of_core hcore]
  simp only [Bool.not_true, Bool.false_eq_true, if_false]
  split
  · exact hdevice
  · have hselect := hdevice.trans (keeps_selectBuffer (hdevice.core hcore) index)
    have hview := hselect.trans (keeps_useView (hselect.core hcore))
    exact hview.trans (keeps_use hview.sound (hview.core hcore).hasImgui)

theorem keeps_clampIndex (hsound : s.owners.Sound) : s.Keeps s.clampIndex :=
  keeps_of_owners hsound rfl rfl rfl rfl

theorem keeps_endFrame (hcore : Core s.owners) (removed lost : Bool) :
    s.Keeps (s.endFrame removed lost).2 := by
  have hdevice : s.Keeps (s.on (·.use device)) := keeps_use hcore.sound hcore.hasDevice
  unfold endFrame
  rw [ready_of_core hcore]
  simp only [Bool.not_true, Bool.false_eq_true, if_false]
  split
  · exact hdevice
  · have hclamp := hdevice.trans (keeps_clampIndex hdevice.sound)
    have himgui := hclamp.trans (keeps_use hclamp.sound (hclamp.core hcore).hasImgui)
    have hview := himgui.trans (keeps_useView (himgui.core hcore))
    exact hview.trans (keeps_use hview.sound (hview.core hcore).hasSwapChain)

/-! ## Setting up the video processor -/

/-- What has become of it. -/
structure SetUp (s : RendererD3D11) (src : VideoSize) (r : Bool × RendererD3D11) : Prop where
  core : Core r.2.owners
  size : r.2.size = s.size
  lastInput : r.2.lastInput = s.lastInput
  complete : r.1 = true → r.2.isSet videoDevice = true ∧ r.2.isSet videoContext = true ∧
    r.2.isSet videoEnumerator = true ∧ r.2.isSet videoProcessor = true
  contentDesc : r.2.isSet videoProcessor = true → r.2.isSet videoEnumerator = true →
    r.2.contentDesc = (src, s.size)
  /-- The cached texture is let go only with a processor for another one. -/
  cached : (s.isSet videoProcessor = true → s.isSet videoEnumerator = true →
    s.contentDesc = (src, s.size)) → r.2.isSet lastInputTexture = s.isSet lastInputTexture

/-- With a video context the halves of the processor may come and go. -/
theorem Core.ofProcessor {o o' : Owners RendererPointer} (h : Core o) (hsound : o'.Sound)
    (hcontext : o.isSet videoContext = true)
    (hptr : ∀ i ∈ [device, context, swapChain, imgui, videoDevice, videoContext],
      o'.isSet i = o.isSet i) : Core o' := by
  simp only [List.forall_mem_cons] at hptr
  obtain ⟨hdevice, hcontext', hswap, himgui, hvdevice, hvcontext, -⟩ := hptr
  refine ⟨hsound, hdevice.trans h.hasDevice, hcontext'.trans h.hasContext,
    hswap.trans h.hasSwapChain, himgui.trans h.hasImgui, ?_, fun hnone => ?_⟩
  · rw [hvdevice, hvcontext]
    exact h.noContext
  · rw [hvcontext, hcontext] at hnone
    cases hnone

theorem setUp_createProcessor (hcore : Core s.owners) (hdevice : s.isSet videoDevice = true)
    (hcontext : s.isSet videoContext = true) (src : VideoSize) (a : RenderAnswers) :
    s.SetUp src (s.createProcessor src a) := by
  have hfirst : (s.owners.use videoDevice).acquire videoEnumerator a.videoEnumerator =
      s.owners.acquire videoEnumerator a.videoEnumerator := by
    rw [hcore.sound.use_eq hdevice]
  have hsound := hcore.sound.acquire videoEnumerator a.videoEnumerator
  have hone : Core (s.owners.acquire videoEnumerator a.videoEnumerator) := by
    refine hcore.ofProcessor hsound hcontext fun i hi => Owners.isSet_acquire_ne ?_ _
    rintro rfl
    simp at hi
  unfold createProcessor on
  simp only [hfirst]
  split
  · next hfailed =>
    have hnone : (s.owners.acquire videoEnumerator a.videoEnumerator).isSet videoEnumerator =
        false := by
      rw [Owners.isSet_acquire_self]
      simpa using hfailed
    refine ⟨hone, rfl, rfl, nofun, fun _ hset => ?_, fun _ => Owners.isSet_acquire_ne (by decide) _⟩
    rw [isSet, hnone] at hset
  · next hmade =>
    have hset : (s.owners.acquire videoEnumerator a.videoEnumerator).isSet videoEnumerator =
        true := by
      rw [Owners.isSet_acquire_self]
      simpa using hmade
    have hkeep : (s.owners.acquire videoEnumerator a.videoEnumerator).isSet videoDevice = true :=
      (Owners.isSet_acquire_ne (by decide) _).trans hdevice
    rw [hsound.use_eq hkeep, hsound.use_eq hset]
    have htwo : Core ((s.owners.acquire videoEnumerator a.videoEnumerator).acquire videoProcessor
        a.videoProcessor) := by
      refine hone.ofProcessor (hsound.acquire _ _)
        ((Owners.isSet_acquire_ne (by decide) _).trans hcontext) fun i hi =>
          Owners.isSet_acquire_ne ?_ _
      rintro rfl
      simp at hi
    refine ⟨htwo, rfl, rfl, fun hok => ⟨?_, ?_, ?_, ?_⟩, fun _ _ => rfl, fun _ => ?_⟩
    · exact (Owners.isSet_acquire_ne (by decide) _).trans hkeep
    · exact (Owners.isSet_acquire_ne (by decide) _).trans
        ((Owners.isSet_acquire_ne (by decide) _).trans hcontext)
    · exact (Owners.isSet_acquire_ne (by decide) _).trans hset
    · exact (Owners.isSet_acquire_self _).trans hok
    · exact (Owners.isSet_acquire_ne (by decide) _).trans (Owners.isSet_acquire_ne (by decide) _)

theorem setUp_setupProcessor (hcore : Core s.owners) (hdevice : s.isSet videoDevice = true)
    (hcontext : s.isSet videoContext = true) (src : VideoSize) (a : RenderAnswers) :
    s.SetUp src (s.setupProcessor src a) := by
  unfold setupProcessor
  split
  · next hboth =>
    obtain ⟨hprocessor, henumerator⟩ := Bool.and_eq_true_iff.mp hboth
    simp only [on_use hcore.sound henumerator]
    split
    · next hdesc =>
      exact ⟨hcore, rfl, rfl, fun _ => ⟨hdevice, hcontext, henumerator, hprocessor⟩,
        fun _ _ => hdesc, fun _ => rfl⟩
    · next hdesc =>
      have hkeep : ∀ i ∈ [device, context, swapChain, imgui, videoDevice, videoContext],
          s.releaseProcessor.owners.isSet i = s.owners.isSet i := by
        intro i hi
        have hviews : i ∉ (List.range 8).map outputView := by
          intro hmem
          obtain ⟨k, -, rfl⟩ := List.mem_map.mp hmem
          simp at hi
        refine Owners.isSet_congr ?_
        unfold releaseProcessor on
        simp only
        rw [Owners.ptr_reset_ne (by rintro rfl; simp at hi),
          Owners.ptr_reset_ne (by rintro rfl; simp at hi),
          Owners.ptr_resetAll_ne hviews,
          Owners.ptr_reset_ne (by rintro rfl; simp at hi),
          Owners.ptr_reset_ne (by rintro rfl; simp at hi)]
      have hsound : s.releaseProcessor.owners.Sound :=
        ((((hcore.sound.reset _).reset _).resetAll _).reset _).reset _
      have hreleased := hcore.ofProcessor hsound hcontext hkeep
      have hset := setUp_createProcessor hreleased ((hkeep _ (by simp)).trans hdevice)
        ((hkeep _ (by simp)).trans hcontext) src a
      exact ⟨hset.core, hset.size, hset.lastInput, hset.complete, hset.contentDesc,
        fun hsame => absurd (hsame hprocessor henumerator) hdesc⟩
  · exact setUp_createProcessor hcore hdevice hcontext src a

/-- What asking for the video device and its context changes. -/
structure Queried (s s' : RendererD3D11) : Prop where
  core : Core s'.owners
  contentDesc : s'.contentDesc = s.contentDesc
  size : s'.size = s.size
  lastInput : s'.lastInput = s.lastInput
  isSet : ∀ i ∈ [videoEnumerator, videoProcessor, lastInputTexture], s'.isSet i = s.isSet i

theorem queried_self (hcore : Core s.owners) : s.Queried s := ⟨hcore, rfl, rfl, rfl, fun _ _ => rfl⟩

theorem queried_queryDevice (hcore : Core s.owners) (a : RenderAnswers) :
    s.Queried (s.queryDevice a) := by
  unfold queryDevice
  split
  · exact queried_self hcore
  · next hunset =>
    rw [Bool.not_eq_true] at hunset
    have hcontext := hcore.noContext hunset
    have howners : (s.owners.use device).acquire videoDevice a.videoDevice =
        s.owners.acquire videoDevice a.videoDevice := by rw [hcore.sound.use_eq hcore.hasDevice]
    unfold on
    simp only [howners]
    have hkeep : ∀ i, i ≠ videoDevice →
        (s.owners.acquire videoDevice a.videoDevice).isSet i = s.owners.isSet i :=
      fun i hi => Owners.isSet_acquire_ne hi _
    refine ⟨⟨hcore.sound.acquire _ _, (hkeep _ (by decide)).trans hcore.hasDevice,
      (hkeep _ (by decide)).trans hcore.hasContext, (hkeep _ (by decide)).trans hcore.hasSwapChain,
      (hkeep _ (by decide)).trans hcore.hasImgui, fun _ => (hkeep _ (by decide)).trans hcontext,
      fun _ => ?_⟩, rfl, rfl, rfl, fun i hi => hkeep i (by rintro rfl; simp at hi)⟩
    rw [hkeep _ (by decide), hkeep _ (by decide)]
    exact hcore.noProcessor hcontext

theorem queried_queryContext (hcore : Core s.owners) (hdevice : s.isSet videoDevice = true)
    (a : RenderAnswers) : s.Queried (s.queryContext a) ∧
      (s.queryContext a).isSet videoDevice = true := by
  unfold queryContext
  split
  · exact ⟨queried_self hcore, hdevice⟩
  · next hunset =>
    rw [Bool.not_eq_true] at hunset
    have howners : (s.owners.use context).acquire videoContext a.videoContext =
        s.owners.acquire videoContext a.videoContext := by
      rw [hcore.sound.use_eq hcore.hasContext]
    unfold on
    simp only [howners]
    have hkeep : ∀ i, i ≠ videoContext →
        (s.owners.acquire videoContext a.videoContext).isSet i = s.owners.isSet i :=
      fun i hi => Owners.isSet_acquire_ne hi _
    have hdevice' := (hkeep videoDevice (by decide)).trans hdevice
    refine ⟨⟨⟨hcore.sound.acquire _ _, (hkeep _ (by decide)).trans hcore.hasDevice,
      (hkeep _ (by decide)).trans hcore.hasContext, (hkeep _ (by decide)).trans hcore.hasSwapChain,
      (hkeep _ (by decide)).trans hcore.hasImgui, fun hnone => ?_,
      fun _ => ?_⟩, rfl, rfl, rfl, fun i hi => hkeep i (by rintro rfl; simp at hi)⟩, hdevice'⟩
    · rw [hdevice'] at hnone
      cases hnone
    · rw [hkeep _ (by decide), hkeep _ (by decide)]
      exact hcore.noProcessor hunset

theorem setUp_setupVideoProcessor (hcore : Core s.owners) (src : VideoSize) (a : RenderAnswers) :
    s.SetUp src (s.setupVideoProcessor src a) := by
  have hdevice := queried_queryDevice hcore a
  -- without the device or its context there is no processor
  have hgiven : ∀ {s' : RendererD3D11}, Core s'.owners → s'.isSet videoContext = false →
      s'.size = s.size → s'.lastInput = s.lastInput →
      s'.isSet lastInputTexture = s.isSet lastInputTexture → s.SetUp src (false, s') := by
    intro s' hcore' hnone hsize hlast htexture
    refine ⟨hcore', hsize, hlast, nofun, fun hprocessor => ?_, fun _ => htexture⟩
    have hunset := (hcore'.noProcessor hnone).2
    rw [isSet, hunset] at hprocessor
    cases hprocessor
  unfold setupVideoProcessor
  simp only
  split
  · next hnone =>
    have hnone : (s.queryDevice a).isSet videoDevice = false := by simpa using hnone
    exact hgiven hdevice.core (hdevice.core.noContext hnone) hdevice.size
      hdevice.lastInput (hdevice.isSet _ (by simp))
  · next hset =>
    obtain ⟨hcontext, hvideo⟩ := queried_queryContext hdevice.core (by simpa using hset) a
    have htexture := (hcontext.isSet lastInputTexture (by simp)).trans (hdevice.isSet _ (by simp))
    split
    · next hnone =>
      exact hgiven hcontext.core (by simpa using hnone) (hcontext.size.trans hdevice.size)
        (hcontext.lastInput.trans hdevice.lastInput) htexture
    · next hset' =>
      have hsetup := setUp_setupProcessor hcontext.core hvideo (by simpa using hset') src a
      refine ⟨hsetup.core, hsetup.size.trans (hcontext.size.trans hdevice.size),
        hsetup.lastInput.trans (hcontext.lastInput.trans hdevice.lastInput), hsetup.complete,
        fun hprocessor henumerator => ?_, fun hmatches => ?_⟩
      · rw [hsetup.contentDesc hprocessor henumerator, hcontext.size, hdevice.size]
      · refine (hsetup.cached fun hprocessor henumerator => ?_).trans htexture
        rw [hcontext.isSet _ (by simp), hdevice.isSet _ (by simp)] at hprocessor henumerator
        rw [hcontext.contentDesc, hdevice.contentDesc, hcontext.size, hdevice.size]
        exact hmatches hprocessor henumerator

/-! ## Drawing -/

theorem keeps_useTexture (hsound : s.owners.Sound) (cached : Bool)
    (hcached : cached = true → s.isSet lastInputTexture = true) :
    s.Keeps (s.useTexture cached) := by
  unfold useTexture
  split
  · next hc => exact keeps_use hsound (hcached hc)
  · exact keeps_of_owners hsound rfl rfl rfl rfl

theorem keeps_refreshInput (hcore : Core s.owners) (hdevice : s.isSet videoDevice = true)
    (henumerator : s.isSet videoEnumerator = true) {cached : Bool}
    (hcached : cached = true → s.isSet lastInputTexture = true) (same : Bool) (a : RenderAnswers) :
    s.Keeps (s.refreshInput cached same a) := by
  unfold refreshInput
  split
  · exact keeps_of_owners hcore.sound rfl rfl rfl rfl
  · have hreset : s.Keeps (s.on (·.reset inputView)) := keeps_reset hcore.sound (by decide)
    have htexture := hreset.trans (keeps_useTexture hreset.sound cached fun hc =>
      (hreset.isSet (by decide)).trans (hcached hc))
    have hone := htexture.trans (keeps_use htexture.sound (i := videoDevice)
      ((htexture.isSet (by decide)).trans hdevice))
    have htwo := hone.trans (keeps_use hone.sound (i := videoEnumerator)
      ((hone.isSet (by decide)).trans henumerator))
    exact htwo.trans (keeps_acquire htwo.sound (by decide) _)

theorem keeps_refreshOutput (hcore : Core s.owners) (hdevice : s.isSet videoDevice = true)
    (henumerator : s.isSet videoEnumerator = true) (a : RenderAnswers) :
    s.Keeps (s.refreshOutput a) := by
  have hout : outputView s.currentBufferIndex ∉ lastInputTexture :: corePointers := by
    simp [corePointers]
  unfold refreshOutput
  split
  · exact keeps_of_owners hcore.sound rfl rfl rfl rfl
  · have hreset : s.Keeps (s.on (·.reset (outputView s.currentBufferIndex))) :=
      keeps_reset hcore.sound hout
    have hone := hreset.trans (keeps_use hreset.sound (i := videoDevice)
      ((hreset.isSet (by decide)).trans hdevice))
    have htwo := hone.trans (keeps_use hone.sound (i := videoEnumerator)
      ((hone.isSet (by decide)).trans henumerator))
    exact htwo.trans (keeps_acquire htwo.sound hout _)

theorem keeps_blit (hcore : Core s.owners) (hcontext : s.isSet videoContext = true)
    (hprocessor : s.isSet videoProcessor = true) (a : RenderAnswers) : s.Keeps (s.blit a).2 := by
  unfold blit
  split
  · next hviews =>
    obtain ⟨hinput, houtput⟩ := Bool.and_eq_true_iff.mp hviews
    refine keeps_of_owners hcore.sound ?_ rfl rfl rfl
    show (((s.owners.use _).use _).use _).use _ = s.owners
    rw [hcore.sound.use_eq hcontext, hcore.sound.use_eq hprocessor, hcore.sound.use_eq hinput,
      hcore.sound.use_eq houtput]
  · exact keeps_of_owners hcore.sound rfl rfl rfl rfl

/-- What has been drawn from the texture. -/
structure Drawn (s : RendererD3D11) (desc : TextureDesc) (cached : Bool) (s' : RendererD3D11) :
    Prop where
  core : Core s'.owners
  size : s'.size = s.size
  lastInput : s'.lastInput = s.lastInput
  desc : s'.Matches desc
  cached : cached = true → s'.isSet lastInputTexture = true

variable {desc : TextureDesc} {cached : Bool}

theorem Drawn.keeps (h : s.Drawn desc cached s') (hkeeps : s'.Keeps s'') :
    s.Drawn desc cached s'' :=
  ⟨hkeeps.core h.core, hkeeps.size.trans h.size, hkeeps.lastInput.trans h.lastInput,
    hkeeps.matches h.desc, fun hc => (hkeeps.isSet (by decide)).trans (h.cached hc)⟩

theorem drawn_scale (hcore : Core s.owners) (hcopies : ¬ s.Copies desc)
    (hcached : cached = true → s.isSet lastInputTexture = true ∧ s.Matches desc)
    (same : Bool) (a : RenderAnswers) : s.Drawn desc cached (s.scale desc cached same a).2 := by
  have hsetup := setUp_setupVideoProcessor hcore desc.size a
  have hdrawn : s.Drawn desc cached (s.setupVideoProcessor desc.size a).2 := by
    refine ⟨hsetup.core, hsetup.size, hsetup.lastInput, fun hprocessor henumerator _ => ?_,
      fun hc => ?_⟩
    · rw [hsetup.contentDesc hprocessor henumerator, hsetup.size]
    · obtain ⟨hset, hmatches⟩ := hcached hc
      exact (hsetup.cached fun hprocessor henumerator =>
        hmatches hprocessor henumerator hcopies).trans hset
  unfold scale
  simp only
  split
  · next hok =>
    obtain ⟨hdevice, hcontext, henumerator, hprocessor⟩ := hsetup.complete hok
    have hinput := keeps_refreshInput hsetup.core hdevice henumerator hdrawn.cached same a
    have houtput := hinput.trans (keeps_refreshOutput (hinput.core hsetup.core)
      ((hinput.isSet (by decide)).trans hdevice) ((hinput.isSet (by decide)).trans henumerator) a)
    have hblit := houtput.trans (keeps_blit (houtput.core hsetup.core)
      ((houtput.isSet (by decide)).trans hcontext) ((houtput.isSet (by decide)).trans hprocessor) a)
    exact hdrawn.keeps hblit
  · exact hdrawn

theorem drawn_present (hcore : Core s.owners)
    (hcached : cached = true → s.isSet lastInputTexture = true ∧ s.Matches desc)
    (same : Bool) (a : RenderAnswers) : s.Drawn desc cached (s.present desc cached same a) := by
  have hcopy : ∀ {s' : RendererD3D11}, Core s'.owners →
      (cached = true → s'.isSet lastInputTexture = true) →
      s'.Keeps ((s'.on (·.use context)).useTexture cached) := by
    intro s' hcore' hset
    have hcontext : s'.Keeps (s'.on (·.use context)) := keeps_use hcore'.sound hcore'.hasContext
    exact hcontext.trans (keeps_useTexture hcontext.sound cached fun hc =>
      (hcontext.isSet (by decide)).trans (hset hc))
  unfold present
  split
  · next hcopies =>
    have hself : s.Drawn desc cached s :=
      ⟨hcore, rfl, rfl, fun _ _ hnot => absurd hcopies hnot, fun hc => (hcached hc).1⟩
    exact hself.keeps (hcopy hcore fun hc => (hcached hc).1)
  · next hcopies =>
    have hscaled := drawn_scale hcore hcopies hcached same a
    simp only
    split
    · exact hscaled
    · exact hscaled.keeps (hcopy hscaled.core hscaled.cached)

theorem working_cacheTexture {same : Bool} (hcore : Core s.owners) (hdesc : s.Matches desc)
    (hcached : cached = true → same = true ∧ s.isSet lastInputTexture = true)
    (hsame : same = true → s.lastInput = desc) :
    (s.cacheTexture desc cached same).Working := by
  unfold cacheTexture
  split
  · next hboth =>
    have hs := (Bool.and_eq_true_iff.mp hboth).1
    exact ⟨hcore, fun _ => hsame hs ▸ hdesc⟩
  · next hnot =>
    have hgiven : cached = false := by
      cases hc : cached
      · rfl
      · obtain ⟨hs, hset⟩ := hcached hc
        exact absurd (Bool.and_eq_true_iff.mpr ⟨hs, hset⟩) hnot
    have htexture : lastInputTexture ∉ corePointers := by decide
    have hnew : Core ((s.owners.reset lastInputTexture).acquire lastInputTexture true) :=
      hcore.congr ((hcore.sound.reset _).acquire _ _) fun i hi => by
        have hne : i ≠ lastInputTexture := by rintro rfl; exact htexture hi
        rw [Owners.ptr_acquire_ne hne, Owners.ptr_reset_ne hne]
    have hsets : ∀ i ∈ corePointers,
        ((s.owners.reset lastInputTexture).acquire lastInputTexture true).isSet i =
          s.owners.isSet i := fun i hi => by
      have hne : i ≠ lastInputTexture := by rintro rfl; exact htexture hi
      rw [Owners.isSet_acquire_ne hne, Owners.isSet_reset_ne hne]
    rw [hgiven]
    refine ⟨hnew, fun _ hprocessor henumerator hcopies => ?_⟩
    exact hdesc ((hsets _ (by decide)).symm.trans hprocessor)
      ((hsets _ (by decide)).symm.trans henumerator) hcopies

theorem working_draw {same : Bool} (hw : s.Working)
    (hcached : cached = true → same = true ∧ s.isSet lastInputTexture = true)
    (hsame : same = true → s.lastInput = desc) (a : RenderAnswers) :
    (s.draw desc cached same a).2.Working := by
  have hclamp : s.Keeps s.clampIndex := keeps_clampIndex hw.core.sound
  have htexture := hclamp.trans (keeps_useTexture hclamp.sound cached fun hc =>
    (hclamp.isSet (by decide)).trans (hcached hc).2)
  have hswap := htexture.trans (keeps_use htexture.sound (htexture.core hw.core).hasSwapChain)
  unfold draw
  simp only
  split
  · exact hswap.working hw
  · have hfrom : cached = true → _ ∧ Matches _ desc := fun hc =>
      ⟨(hswap.isSet (by decide)).trans (hcached hc).2,
        hswap.matches (hsame (hcached hc).1 ▸ hw.cached (hcached hc).2)⟩
    have hdrawn := drawn_present (hswap.core hw.core) hfrom same a
    refine working_cacheTexture hdrawn.core hdrawn.desc
      (fun hc => ⟨(hcached hc).1, hdrawn.cached hc⟩) fun hs => ?_
    rw [hdrawn.lastInput, hswap.lastInput]
    exact hsame hs

theorem working_render (hw : s.Working) (texture : Option Decoded) (a : RenderAnswers) :
    (s.render texture a).2.Working := by
  unfold render
  rw [ready_of_core hw.core, on_use hw.core.sound hw.core.hasDevice]
  simp only [Bool.not_true, Bool.false_eq_true, if_false]
  split
  · exact hw
  · split
    · next t =>
      refine working_draw hw ?_ (fun hs => ?_) a
      · exact nofun
      · rw [if_pos hs]
    · split
      · next hset => exact working_draw hw (fun _ => ⟨rfl, hset⟩) (fun _ => rfl) a
      · exact hw

/-! ## Shutting down and starting again -/

/-- The first time nothing goes wrong. -/
theorem faultless_shutdown (hw : s.Working) : s.shutdown.owners.fault = false := by
  unfold shutdown on
  simp only
  rw [hw.core.sound.use_eq hw.core.hasImgui]
  have hfirst := (((hw.core.sound.reset imgui).reset inputView).reset lastInputTexture).resetAll
    ((List.range s.bufferCount).map outputView)
  have hvideo := (((hfirst.soundBut.release (i := videoProcessor) (by simp)).release
    (i := videoEnumerator) (by simp)).release (i := videoContext) (by simp)).release
    (i := videoDevice) (by simp)
  have hviews := hvideo.resetAll ((List.range s.bufferCount).map backBufferView) (by simp)
  exact (((hviews.reset (i := swapChain) (by simp)).reset (i := context) (by simp)).reset
    (i := device) (by simp)).faultless

/-- Neither a video processor nor a cached texture. -/
structure Blank (s : RendererD3D11) : Prop where
  sound : s.owners.Sound
  unset : ∀ i ∈ [videoDevice, videoContext, videoEnumerator, videoProcessor, lastInputTexture],
    s.isSet i = false

/-- Before a video device is obtained, `Shutdown` leaves nothing behind. -/
theorem blank_shutdown (hw : s.Working) (hdevice : s.isSet videoDevice = false) :
    s.shutdown.Blank := by
  have hcontext := hw.core.noContext hdevice
  obtain ⟨henumerator, hprocessor⟩ := hw.core.noProcessor hcontext
  have hfirst := (((hw.core.sound.reset imgui).reset inputView).reset lastInputTexture).resetAll
    ((List.range s.bufferCount).map outputView)
  have hkeep : ∀ i ∈ [videoDevice, videoContext, videoEnumerator, videoProcessor, lastInputTexture],
      ((((s.owners.reset imgui).reset inputView).reset lastInputTexture).resetAll
        ((List.range s.bufferCount).map outputView)).isSet i = false := by
    intro i hi
    have hviews : i ∉ (List.range s.bufferCount).map outputView := by
      intro hmem
      obtain ⟨k, -, rfl⟩ := List.mem_map.mp hmem
      simp at hi
    have hone : i = lastInputTexture ∨ s.owners.isSet i = false := by
      simp only [List.mem_cons, List.not_mem_nil, or_false] at hi
      rcases hi with rfl | rfl | rfl | rfl | rfl
      · exact Or.inr hdevice
      · exact Or.inr hcontext
      · exact Or.inr henumerator
      · exact Or.inr hprocessor
      · exact Or.inl rfl
    rw [Owners.not_isSet_iff, Owners.ptr_resetAll_ne hviews]
    by_cases htexture : i = lastInputTexture
    · rw [htexture, Owners.ptr_reset_self]
    · rw [Owners.ptr_reset_ne htexture, Owners.ptr_reset_ne (by rintro rfl; simp at hi),
        Owners.ptr_reset_ne (by rintro rfl; simp at hi)]
      exact Owners.not_isSet_iff.mp (hone.resolve_left htexture)
  have howners : s.shutdown.owners = (((((((s.owners.reset imgui).reset inputView).reset
      lastInputTexture).resetAll ((List.range s.bufferCount).map outputView)).resetAll
      ((List.range s.bufferCount).map backBufferView)).reset swapChain).reset context).reset
      device := by
    unfold shutdown on
    simp only
    rw [hw.core.sound.use_eq hw.core.hasImgui, Owners.release_of_null (hkeep _ (by simp)),
      Owners.release_of_null (hkeep _ (by simp)), Owners.release_of_null (hkeep _ (by simp)),
      Owners.release_of_null (hkeep _ (by simp))]
  refine ⟨?_, fun i hi => ?_⟩
  · rw [howners]
    exact (((hfirst.resetAll _).reset _).reset _).reset _
  · have hviews : i ∉ (List.range s.bufferCount).map backBufferView := by
      intro hmem
      obtain ⟨k, -, rfl⟩ := List.mem_map.mp hmem
      simp at hi
    refine (Owners.isSet_congr ?_).trans (hkeep i hi)
    rw [howners, Owners.ptr_reset_ne (by rintro rfl; simp at hi),
      Owners.ptr_reset_ne (by rintro rfl; simp at hi),
      Owners.ptr_reset_ne (by rintro rfl; simp at hi), Owners.ptr_resetAll_ne hviews]

theorem keeps_createViews (hsound : s.owners.Sound) (buffers : List (Bool × Bool)) (k : Nat) :
    s.Keeps (s.createViews buffers k).2 := by
  induction buffers generalizing s k with
  | nil => exact keeps_of_owners hsound rfl rfl rfl rfl
  | cons b rest ih =>
    have hview : s.Keeps (s.on (·.acquire (backBufferView k) b.2)) :=
      keeps_acquire hsound (by simp [corePointers]) _
    unfold createViews
    split
    · split
      · exact keeps_of_owners hsound rfl rfl rfl rfl
      · exact keeps_of_owners hsound rfl rfl rfl rfl
    · simp only
      split
      · exact hview
      · exact hview.trans (ih hview.sound _)

theorem working_initializeRenderer (h : s.Blank) {init : RendererInit}
    (hinit : RendererInit.Succeeds init) : (s.initializeRenderer init).2.Working := by
  obtain ⟨hhwnd, hcreated, hviews⟩ := hinit
  let t : RendererD3D11 := { s.on fun o => ((o.acquire swapChain true).acquire device true).acquire
    context true with size := init.size, bufferCount := min init.buffers.length 8 }
  have hsound : t.owners.Sound := ((h.sound.acquire _ _).acquire _ _).acquire _ _
  have hkeeps : t.Keeps (t.createViews (init.buffers.take 8) 0).2 := keeps_createViews hsound _ _
  have hrun : (s.initializeRenderer init).2 =
      (t.createViews (init.buffers.take 8) 0).2.on (·.acquire imgui true) := by
    have hok := (createViews_fst t (init.buffers.take 8) 0).trans hviews
    unfold initializeRenderer
    simp only [hhwnd, hcreated, Bool.not_true, Bool.false_eq_true, if_false]
    change (if (!(t.createViews (init.buffers.take 8) 0).1) = true then _ else _ :
      Bool × RendererD3D11).2 = _
    rw [hok]
    rfl
  have hset : ∀ i ∈ lastInputTexture :: corePointers, i ≠ imgui →
      ((t.createViews (init.buffers.take 8) 0).2.on (·.acquire imgui true)).isSet i = t.isSet i :=
    fun i hi hne => (Owners.isSet_acquire_ne hne _).trans (hkeeps.isSet hi)
  have hunset : ∀ i ∈
        [videoDevice, videoContext, videoEnumerator, videoProcessor, lastInputTexture],
      ((t.createViews (init.buffers.take 8) 0).2.on (·.acquire imgui true)).isSet i = false := by
    intro i hi
    have hmem : i ∈ lastInputTexture :: corePointers := by
      simp only [List.mem_cons, List.not_mem_nil, or_false] at hi
      rcases hi with rfl | rfl | rfl | rfl | rfl <;> decide
    refine (hset i hmem (by rintro rfl; simp at hi)).trans ((Owners.isSet_congr ?_).trans
      (h.unset i hi))
    exact (Owners.ptr_acquire_ne (by rintro rfl; simp at hi) _).trans
      ((Owners.ptr_acquire_ne (by rintro rfl; simp at hi) _).trans
        (Owners.ptr_acquire_ne (by rintro rfl; simp at hi) _))
  rw [hrun]
  refine ⟨⟨hkeeps.sound.acquire _ _, ?_, ?_, ?_, Owners.isSet_acquire_self _,
    fun _ => hunset _ (by simp), fun _ => ⟨hunset _ (by simp), hunset _ (by simp)⟩⟩,
    fun htexture => ?_⟩
  · exact (hset _ (by decide) (by decide)).trans
      ((Owners.isSet_acquire_ne (by decide) _).trans (Owners.isSet_acquire_self _))
  · exact (hset _ (by decide) (by decide)).trans (Owners.isSet_acquire_self _)
  · exact (hset _ (by decide) (by decide)).trans ((Owners.isSet_acquire_ne (by decide) _).trans
      ((Owners.isSet_acquire_ne (by decide) _).trans (Owners.isSet_acquire_self _)))
  · rw [hunset _ (by simp)] at htexture
    cases htexture

theorem blank_fresh : fresh.Blank := ⟨Owners.sound_start, fun _ _ => rfl⟩

/-! ## A whole session -/

/-- The renderer does not work any more, and the destructor will fail. -/
def Broken (s : RendererD3D11) : Prop :=
  s.owners.Stuck imgui .null ∨ s.owners.Stuck videoDevice .dangling

theorem broken_iff : s.Broken ↔ ∃ i p, Lost i p ∧ s.owners.Stuck i p := by
  constructor
  · rintro (h | h)
    · exact ⟨_, _, Or.inl ⟨rfl, rfl⟩, h⟩
    · exact ⟨_, _, Or.inr ⟨rfl, rfl⟩, h⟩
  · rintro ⟨i, p, ⟨rfl, rfl⟩ | ⟨rfl, rfl⟩, h⟩
    · exact Or.inl h
    · exact Or.inr h

theorem fault_of_broken (h : s.Broken) : s.shutdown.owners.fault = true := by
  obtain ⟨i, p, hlost, hstuck⟩ := broken_iff.mp h
  exact fault_shutdown hlost hstuck

/-- The loop's reaction to a call that has kept the renderer working. -/
theorem recover_cases {r : Bool × RendererD3D11} (hw : r.2.Working) (again : RendererInit) :
    Recovers r again ∧ (recover r again).Working ∨
      ¬ Recovers r again ∧ (recover r again).Broken := by
  unfold recover Recovers
  cases hok : r.1
  · simp only [Bool.false_eq_true, if_false, forall_const]
    by_cases hdevice : r.2.isSet videoDevice = false
    · by_cases hinit : RendererInit.Succeeds again
      · have hblank := blank_shutdown hw hdevice
        exact Or.inl ⟨⟨hdevice, hinit⟩, working_initializeRenderer hblank hinit⟩
      · refine Or.inr ⟨fun hboth => hinit hboth.2, Or.inl ?_⟩
        exact stuck_initializeRenderer stuck_shutdown_imgui (Or.inr ⟨rfl, hinit⟩)
    · refine Or.inr ⟨fun hboth => hdevice hboth.1, Or.inr ?_⟩
      rw [Bool.not_eq_false] at hdevice
      exact stuck_initializeRenderer (stuck_shutdown_videoDevice hdevice) (Or.inl rfl)
  · exact Or.inl ⟨nofun, hw⟩

/-- A broken renderer does not get well. -/
theorem broken_recover {r : Bool × RendererD3D11} (h : r.2.Broken) (again : RendererInit) :
    (recover r again).Broken := by
  unfold recover
  split
  · exact h
  · have hfault := fault_of_broken h
    exact Or.inr (stuck_initializeRenderer (Or.inl hfault) (Or.inl rfl))

theorem broken_step (h : s.Broken) (e : RendererEvent) : (s.step e).Broken := by
  obtain ⟨i, p, hlost, hstuck⟩ := broken_iff.mp h
  cases e with
  | newFrame removed index =>
    exact broken_iff.mpr ⟨i, p, hlost, stuck_newFrame hstuck removed index⟩
  | render texture a again =>
    exact broken_recover (broken_iff.mpr ⟨i, p, hlost, stuck_render hlost hstuck texture a⟩) again
  | endFrame removed lost again =>
    exact broken_recover (broken_iff.mpr ⟨i, p, hlost, stuck_endFrame hstuck removed lost⟩) again

theorem step_cases (hw : s.Working) (e : RendererEvent) :
    s.Lasts e ∧ (s.step e).Working ∨ ¬ s.Lasts e ∧ (s.step e).Broken := by
  cases e with
  | newFrame removed index =>
    exact Or.inl ⟨trivial, (keeps_newFrame hw.core removed index).working hw⟩
  | render texture a again => exact recover_cases (working_render hw texture a) again
  | endFrame removed lost again =>
    exact recover_cases ((keeps_endFrame hw.core removed lost).working hw) again

theorem run_cases (hw : s.Working) (es : List RendererEvent) :
    Along step Lasts s es ∧ (run step s es).Working ∨
      ¬ Along step Lasts s es ∧ (run step s es).Broken := by
  induction es generalizing s with
  | nil => exact Or.inl ⟨trivial, hw⟩
  | cons e es ih =>
    rw [run_cons, Along]
    rcases step_cases hw e with ⟨hlasts, hnext⟩ | ⟨hlasts, hnext⟩
    · rcases ih hnext with ⟨hrest, hrun⟩ | ⟨hrest, hrun⟩
      · exact Or.inl ⟨⟨hlasts, hrest⟩, hrun⟩
      · exact Or.inr ⟨fun hboth => hrest hboth.2, hrun⟩
    · have hbroken : ∀ s e, Broken s → Broken (step s e) := fun _ e h => broken_step h e
      exact Or.inr ⟨fun hboth => hlasts hboth.1, run_invariant' hbroken hnext es⟩

/-- **The renderer's pointers.** No pointer of the renderer is used or released that does not own,
from the construction of the renderer to its destructor, iff there was a window and it was
initialised, and each time a call returned `false` no video device had been obtained and the
renderer could be initialised again. -/
theorem session_faultless_iff (window : Option RendererInit) (es : List RendererEvent) :
    (session window es).owners.fault = false ↔
      (∃ init, window = some init ∧ RendererInit.Succeeds init) ∧
        Along step Lasts (opened window) es := by
  by_cases hopen : ∃ init, window = some init ∧ RendererInit.Succeeds init
  · obtain ⟨init, rfl, hinit⟩ := hopen
    have hw : (opened (some init)).Working := working_initializeRenderer blank_fresh hinit
    rcases run_cases hw es with ⟨hlasts, hrun⟩ | ⟨hlasts, hrun⟩
    · exact iff_of_true (faultless_shutdown hrun) ⟨⟨init, rfl, hinit⟩, hlasts⟩
    · refine iff_of_false (fun hfault => ?_) fun hboth => hlasts hboth.2
      rw [session, fault_of_broken hrun] at hfault
      cases hfault
  · have hnull : fresh.owners.Stuck imgui .null := Or.inr rfl
    have hbroken : (opened window).Broken := by
      cases window with
      | none => exact Or.inl hnull
      | some init =>
        have hinit : ¬ RendererInit.Succeeds init := fun h => hopen ⟨init, rfl, h⟩
        exact Or.inl (stuck_initializeRenderer hnull (Or.inr ⟨rfl, hinit⟩))
    have hstep : ∀ s e, Broken s → Broken (step s e) := fun _ e h => broken_step h e
    have hrun : (run step (opened window) es).Broken := run_invariant' hstep hbroken es
    refine iff_of_false (fun hfault => ?_) fun hboth => hopen hboth.1
    rw [session, fault_of_broken hrun] at hfault
    cases hfault

end

end RendererD3D11

end RemotePlay.Client
