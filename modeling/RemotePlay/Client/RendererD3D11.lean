import RemotePlay.Lib.Owners
import RemotePlay.Lib.Run

/-!
# The renderer

`RendererD3D11` as the session loop uses it: initialised once, asked to draw in
every iteration, shut down and initialised again when a call says that the
device is lost, and shut down by its destructor. `Shutdown` releases the four
pointers of the video processor without resetting them, and it shuts down the
ImGui backend whether or not there is one. What Direct3D answers is part of the
event; a back buffer is taken and given back within one function and is left out.
-/

namespace RemotePlay.Client

open Lib

inductive RendererPointer where
  | device
  | context
  | swapChain
  | backBufferView (i : Nat)
  | videoDevice
  | videoContext
  | videoProcessor
  | videoEnumerator
  | inputView
  | outputView (i : Nat)
  | lastInputTexture
  /-- The context of ImGui with its backends. -/
  | imgui
  deriving DecidableEq

structure VideoSize where
  width : Nat
  height : Nat
  deriving DecidableEq

/-- The description of a texture. -/
structure TextureDesc where
  size : VideoSize
  nv12 : Bool
  /-- It has the format of the back buffers and is no array. -/
  plain : Bool

structure RendererD3D11 where
  owners : Owners RendererPointer
  bufferCount : Nat
  currentBufferIndex : Nat
  /-- What the back buffers measure. -/
  size : VideoSize
  /-- The input and the output of `m_videoEnumerator`. -/
  contentDesc : VideoSize × VideoSize
  /-- The description of `m_lastInputTexture`. -/
  lastInput : TextureDesc

/-- What `Initialize` meets. -/
structure RendererInit where
  hwnd : Bool
  size : VideoSize
  /-- One of the swap chain options works. -/
  created : Bool
  /-- For each buffer of the swap chain, whether `GetBuffer` and its view succeed. -/
  buffers : List (Bool × Bool)

/-- A texture from the decoder; `same` when it is the cached one, at the same array index. -/
structure Decoded where
  desc : TextureDesc
  same : Bool

/-- What a call of `Render` meets. -/
structure RenderAnswers where
  removed : Bool
  backBuffer : Bool
  videoDevice : Bool
  videoContext : Bool
  videoEnumerator : Bool
  videoProcessor : Bool
  inputView : Bool
  /-- The back buffer is the one its output view was made for. -/
  sameBackBuffer : Bool
  outputView : Bool
  blt : Bool

namespace RendererD3D11

open RendererPointer

/-- As it is constructed. -/
def fresh : RendererD3D11 := ⟨.start, 2, 0, ⟨0, 0⟩, (⟨0, 0⟩, ⟨0, 0⟩), ⟨⟨0, 0⟩, false, false⟩⟩

section
variable (s : RendererD3D11)

def on (f : Owners RendererPointer → Owners RendererPointer) : RendererD3D11 :=
  { s with owners := f s.owners }

def isSet (i : RendererPointer) : Bool := s.owners.isSet i

/-! ## Initialize and Shutdown -/

/-- The loop over the buffers from buffer `i` on. -/
def createViews (s : RendererD3D11) : List (Bool × Bool) → Nat → Bool × RendererD3D11
  | [], _ => (true, s)
  | (buffer, view) :: rest, i =>
    if !buffer then
      if i > 0 then (true, { s with bufferCount := i }) else (false, s)
    else
      let s := s.on (·.acquire (backBufferView i) view)
      if !view then (false, s) else createViews s rest (i + 1)

def initializeRenderer (init : RendererInit) : Bool × RendererD3D11 :=
  if !init.hwnd then (false, s)
  else
    let s := s.on fun o => ((o.acquire swapChain init.created).acquire device init.created).acquire
      context init.created
    if !init.created then (false, s)
    else
      let s := { s with size := init.size, bufferCount := min init.buffers.length 8 }
      let (ok, s) := s.createViews (init.buffers.take 8) 0
      if !ok then (false, s) else (true, s.on (·.acquire imgui true))

def shutdown : RendererD3D11 :=
  s.on fun o =>
    let o := (o.use imgui).reset imgui
    let o := (o.reset inputView).reset lastInputTexture
    let o := o.resetAll ((List.range s.bufferCount).map outputView)
    let o := (((o.release videoProcessor).release videoEnumerator).release videoContext).release
      videoDevice
    let o := o.resetAll ((List.range s.bufferCount).map backBufferView)
    ((o.reset swapChain).reset context).reset device

/-! ## NewFrame and EndFrame -/

def ready : Bool := s.isSet swapChain && s.isSet context && s.isSet device

def clampIndex : RendererD3D11 :=
  let bufferCount := if s.bufferCount = 0 then 1 else s.bufferCount
  { s with
    bufferCount := bufferCount
    currentBufferIndex := if s.currentBufferIndex ≥ bufferCount then 0 else s.currentBufferIndex }

/-- The view of the current buffer, for the context. -/
def useView : RendererD3D11 :=
  if s.isSet (backBufferView s.currentBufferIndex) then
    s.on fun o => (o.use context).use (backBufferView s.currentBufferIndex)
  else s

/-- `index` is what the swap chain says is the current buffer. -/
def selectBuffer (index : Nat) : RendererD3D11 :=
  if s.bufferCount > 1 then
    { s.on (·.use swapChain) with
      currentBufferIndex := if index ≥ s.bufferCount then 0 else index }
  else { s with currentBufferIndex := 0 }

def newFrame (removed : Bool) (index : Nat) : RendererD3D11 :=
  if !s.ready then s
  else
    let s := s.on (·.use device)
    if removed then s else (s.selectBuffer index).useView.on (·.use imgui)

def endFrame (removed lost : Bool) : Bool × RendererD3D11 :=
  if !s.ready then (false, s)
  else
    let s := s.on (·.use device)
    if removed then (false, s)
    else
      let s := s.clampIndex.on (·.use imgui)
      (!lost, s.useView.on (·.use swapChain))

/-! ## Render -/

def releaseProcessor : RendererD3D11 :=
  s.on fun o =>
    let o := (o.reset inputView).reset lastInputTexture
    let o := o.resetAll ((List.range 8).map outputView)
    (o.reset videoProcessor).reset videoEnumerator

def createProcessor (src : VideoSize) (a : RenderAnswers) : Bool × RendererD3D11 :=
  let s := { s.on (fun o => (o.use videoDevice).acquire videoEnumerator a.videoEnumerator) with
    contentDesc := (src, s.size) }
  if !a.videoEnumerator then (false, s)
  else
    (a.videoProcessor, s.on fun o =>
      ((o.use videoDevice).use videoEnumerator).acquire videoProcessor a.videoProcessor)

/-- Both halves of the video processor, or the one there is. -/
def setupProcessor (src : VideoSize) (a : RenderAnswers) : Bool × RendererD3D11 :=
  if s.isSet videoProcessor && s.isSet videoEnumerator then
    let s := s.on (·.use videoEnumerator)
    if s.contentDesc = (src, s.size) then (true, s) else s.releaseProcessor.createProcessor src a
  else s.createProcessor src a

def queryDevice (a : RenderAnswers) : RendererD3D11 :=
  if s.isSet videoDevice then s else s.on fun o => (o.use device).acquire videoDevice a.videoDevice

def queryContext (a : RenderAnswers) : RendererD3D11 :=
  if s.isSet videoContext then s
  else s.on fun o => (o.use context).acquire videoContext a.videoContext

def setupVideoProcessor (src : VideoSize) (a : RenderAnswers) : Bool × RendererD3D11 :=
  let s := s.queryDevice a
  if !s.isSet videoDevice then (false, s)
  else
    let s := s.queryContext a
    if !s.isSet videoContext then (false, s) else s.setupProcessor src a

/-- The texture is drawn from: the cached one by `m_lastInputTexture`. -/
def useTexture (cached : Bool) : RendererD3D11 :=
  if cached then s.on (·.use lastInputTexture) else s

/-- The view of the texture; `same` is what the comparison with the cached one says. -/
def refreshInput (cached same : Bool) (a : RenderAnswers) : RendererD3D11 :=
  if same && s.isSet lastInputTexture then s
  else ((s.on (·.reset inputView)).useTexture cached).on fun o =>
    ((o.use videoDevice).use videoEnumerator).acquire inputView a.inputView

/-- The view of the back buffer. -/
def refreshOutput (a : RenderAnswers) : RendererD3D11 :=
  if a.sameBackBuffer then s
  else s.on fun o => (((o.reset (outputView s.currentBufferIndex)).use videoDevice).use
    videoEnumerator).acquire (outputView s.currentBufferIndex) a.outputView

def blit (a : RenderAnswers) : Bool × RendererD3D11 :=
  if s.isSet inputView && s.isSet (outputView s.currentBufferIndex) then
    (a.blt, s.on fun o => (((o.use videoContext).use videoProcessor).use inputView).use
      (outputView s.currentBufferIndex))
  else (false, s)

/-- The texture is scaled by the video processor. -/
def scale (desc : TextureDesc) (cached same : Bool) (a : RenderAnswers) : Bool × RendererD3D11 :=
  let (ok, s) := s.setupVideoProcessor desc.size a
  if ok then ((s.refreshInput cached same a).refreshOutput a).blit a else (false, s)

/-- The texture is copied as it is. -/
def Copies (desc : TextureDesc) : Prop := desc.nv12 = false ∧ desc.plain = true ∧ desc.size = s.size

instance (desc : TextureDesc) : Decidable (s.Copies desc) := by
  unfold Copies
  infer_instance

/-- The texture gets into the back buffer. -/
def present (desc : TextureDesc) (cached same : Bool) (a : RenderAnswers) : RendererD3D11 :=
  if s.Copies desc then (s.on (·.use context)).useTexture cached
  else
    let (done, s) := s.scale desc cached same a
    if desc.nv12 || done then s else (s.on (·.use context)).useTexture cached

def cacheTexture (desc : TextureDesc) (cached same : Bool) : RendererD3D11 :=
  if same && s.isSet lastInputTexture then s
  else
    let s := (s.on (·.reset lastInputTexture)).useTexture cached
    { s.on (·.acquire lastInputTexture true) with lastInput := desc }

/-- From the back buffer on. -/
def draw (desc : TextureDesc) (cached same : Bool) (a : RenderAnswers) : Bool × RendererD3D11 :=
  let s := s.clampIndex.useTexture cached |>.on (·.use swapChain)
  if !a.backBuffer then (false, s)
  else (true, (s.present desc cached same a).cacheTexture desc cached same)

def render (texture : Option Decoded) (a : RenderAnswers) : Bool × RendererD3D11 :=
  if !s.ready then (false, s)
  else
    let s := s.on (·.use device)
    if a.removed then (false, s)
    else
      match texture with
      | some t =>
        let same := t.same && s.isSet lastInputTexture
        s.draw (if same then s.lastInput else t.desc) false same a
      | none =>
        if s.isSet lastInputTexture then s.draw s.lastInput true true a else (true, s)

end

end RendererD3D11

/-! ## A session -/

/-- A call of the session loop, with the re-initialisation in case that it returns false. -/
inductive RendererEvent where
  | newFrame (removed : Bool) (index : Nat)
  | render (texture : Option Decoded) (a : RenderAnswers) (again : RendererInit)
  | endFrame (removed lost : Bool) (again : RendererInit)

namespace RendererD3D11

open RendererPointer

/-- The loop's reaction to a lost device. -/
def recover (r : Bool × RendererD3D11) (again : RendererInit) : RendererD3D11 :=
  if r.1 then r.2 else (r.2.shutdown.initializeRenderer again).2

def step (s : RendererD3D11) : RendererEvent → RendererD3D11
  | .newFrame removed index => s.newFrame removed index
  | .render texture a again => recover (s.render texture a) again
  | .endFrame removed lost again => recover (s.endFrame removed lost) again

/-- `runClient` up to its loop: without a window the renderer stays as it is constructed. -/
def opened : Option RendererInit → RendererD3D11
  | some init => (fresh.initializeRenderer init).2
  | none => fresh

/-- `runClient` to its end, with the destructor. -/
def session (window : Option RendererInit) (es : List RendererEvent) : RendererD3D11 :=
  (run step (opened window) es).shutdown

/-- The swap chain is there, and its first buffer, and a view for every buffer it gives. -/
def viewsSucceed : List (Bool × Bool) → Nat → Bool
  | [], _ => true
  | (buffer, view) :: rest, i =>
    if !buffer then decide (i > 0) else view && viewsSucceed rest (i + 1)

def RendererInit.Succeeds (init : RendererInit) : Prop :=
  init.hwnd = true ∧ init.created = true ∧ viewsSucceed (init.buffers.take 8) 0 = true

/-- Where the call returns `false`, be it for a lost device or because `GetBuffer` failed, no video
device has been obtained since the device was made, and the new one can be initialised. -/
def Recovers (r : Bool × RendererD3D11) (again : RendererInit) : Prop :=
  r.1 = false → r.2.isSet videoDevice = false ∧ RendererInit.Succeeds again

def Lasts (s : RendererD3D11) : RendererEvent → Prop
  | .newFrame _ _ => True
  | .render texture a again => Recovers (s.render texture a) again
  | .endFrame removed lost again => Recovers (s.endFrame removed lost) again

/-! ## What a renderer does not get out of -/

section
variable {s : RendererD3D11} {i : RendererPointer} {p : Owner}

/-- No ImGui to shut down, or a video device that was released. -/
def Lost (i : RendererPointer) (p : Owner) : Prop :=
  i = imgui ∧ p = .null ∨ i = videoDevice ∧ p = .dangling

theorem Lost.ne_owning (h : Lost i p) : p ≠ .owning := by
  rcases h with ⟨-, rfl⟩ | ⟨-, rfl⟩ <;> decide

theorem stuck_useView (h : s.owners.Stuck i p) : s.useView.owners.Stuck i p := by
  unfold useView
  split
  · exact (h.use _).use _
  · exact h

theorem stuck_useTexture (h : s.owners.Stuck i p) (cached : Bool) :
    (s.useTexture cached).owners.Stuck i p := by
  unfold useTexture
  split
  · exact h.use _
  · exact h

theorem stuck_newFrame (h : s.owners.Stuck i p) (removed : Bool) (index : Nat) :
    (s.newFrame removed index).owners.Stuck i p := by
  unfold newFrame
  split
  · exact h
  · simp only
    split
    · exact h.use _
    · refine Owners.Stuck.use (stuck_useView ?_) _
      unfold selectBuffer
      split
      · exact (h.use _).use _
      · exact h.use _

theorem stuck_endFrame (h : s.owners.Stuck i p) (removed lost : Bool) :
    (s.endFrame removed lost).2.owners.Stuck i p := by
  unfold endFrame
  split
  · exact h
  · simp only
    split
    · exact h.use _
    · exact Owners.Stuck.use (stuck_useView ((h.use _).use _)) _

theorem stuck_createProcessor (hlost : Lost i p) (h : s.owners.Stuck i p) (src : VideoSize)
    (a : RenderAnswers) : (s.createProcessor src a).2.owners.Stuck i p := by
  have hne : i ≠ videoEnumerator ∧ i ≠ videoProcessor := by
    rcases hlost with ⟨rfl, -⟩ | ⟨rfl, -⟩ <;> decide
  unfold createProcessor
  simp only
  split
  · exact (h.use _).acquire hne.1 _
  · exact ((((h.use _).acquire hne.1 _).use _).use _).acquire hne.2 _

theorem stuck_setupProcessor (hlost : Lost i p) (h : s.owners.Stuck i p) (src : VideoSize)
    (a : RenderAnswers) : (s.setupProcessor src a).2.owners.Stuck i p := by
  unfold setupProcessor
  split
  · simp only
    split
    · exact h.use _
    · have hp := hlost.ne_owning
      refine stuck_createProcessor hlost ?_ src a
      exact ((((((h.use _).reset hp _).reset hp _).resetAll hp _).reset hp _).reset hp _)
  · exact stuck_createProcessor hlost h src a

theorem stuck_setupVideoProcessor (hlost : Lost i p) (h : s.owners.Stuck i p) (src : VideoSize)
    (a : RenderAnswers) : (s.setupVideoProcessor src a).2.owners.Stuck i p := by
  have hdevice : (s.queryDevice a).owners.Stuck i p := by
    unfold queryDevice
    split
    · exact h
    · next hunset =>
      -- a video device that dangles is not asked for again
      refine (h.use _).imp id fun hp => ?_
      have hne : i ≠ videoDevice := by
        rintro rfl
        rcases hlost with ⟨himgui, -⟩ | ⟨-, rfl⟩
        · cases himgui
        · rw [Owners.ptr_use] at hp
          exact hunset (Owners.isSet_iff.mpr (by rw [hp]; decide))
      exact (Owners.ptr_acquire_ne hne _).trans hp
  have hcontext : ((s.queryDevice a).queryContext a).owners.Stuck i p := by
    have hne : i ≠ videoContext := by
      rcases hlost with ⟨rfl, -⟩ | ⟨rfl, -⟩ <;> decide
    unfold queryContext
    split
    · exact hdevice
    · exact (hdevice.use _).acquire hne _
  unfold setupVideoProcessor
  simp only
  split
  · exact hdevice
  · split
    · exact hcontext
    · exact stuck_setupProcessor hlost hcontext src a

theorem stuck_refreshInput (hlost : Lost i p) (h : s.owners.Stuck i p) (cached same : Bool)
    (a : RenderAnswers) : (s.refreshInput cached same a).owners.Stuck i p := by
  have hne : i ≠ inputView := by
    rcases hlost with ⟨rfl, -⟩ | ⟨rfl, -⟩ <;> decide
  unfold refreshInput
  split
  · exact h
  · have htexture := stuck_useTexture (s := s.on (·.reset inputView))
      (h.reset hlost.ne_owning _) cached
    exact ((htexture.use _).use _).acquire hne _

theorem stuck_refreshOutput (hlost : Lost i p) (h : s.owners.Stuck i p) (a : RenderAnswers) :
    (s.refreshOutput a).owners.Stuck i p := by
  have hne : ∀ k, i ≠ outputView k := by
    rcases hlost with ⟨rfl, -⟩ | ⟨rfl, -⟩ <;> simp
  unfold refreshOutput
  split
  · exact h
  · exact (((h.reset hlost.ne_owning _).use _).use _).acquire (hne _) _

theorem stuck_present (hlost : Lost i p) (h : s.owners.Stuck i p) (desc : TextureDesc)
    (cached same : Bool) (a : RenderAnswers) :
    (s.present desc cached same a).owners.Stuck i p := by
  have hscale : (s.scale desc cached same a).2.owners.Stuck i p := by
    have hsetup := stuck_setupVideoProcessor hlost h desc.size a
    have hviews := stuck_refreshOutput hlost (stuck_refreshInput hlost hsetup cached same a) a
    unfold scale
    simp only
    split
    · unfold blit
      split
      · exact (((hviews.use _).use _).use _).use _
      · exact hviews
    · exact hsetup
  unfold present
  split
  · exact stuck_useTexture (h.use _) cached
  · simp only
    split
    · exact hscale
    · exact stuck_useTexture (hscale.use _) cached

theorem stuck_cacheTexture (hlost : Lost i p) (h : s.owners.Stuck i p) (desc : TextureDesc)
    (cached same : Bool) : (s.cacheTexture desc cached same).owners.Stuck i p := by
  have hne : i ≠ lastInputTexture := by
    rcases hlost with ⟨rfl, -⟩ | ⟨rfl, -⟩ <;> decide
  unfold cacheTexture
  split
  · exact h
  · have htexture := stuck_useTexture (s := s.on (·.reset lastInputTexture))
      (h.reset hlost.ne_owning _) cached
    exact htexture.acquire hne _

theorem stuck_render (hlost : Lost i p) (h : s.owners.Stuck i p) (texture : Option Decoded)
    (a : RenderAnswers) : (s.render texture a).2.owners.Stuck i p := by
  have hdraw : ∀ {s : RendererD3D11}, s.owners.Stuck i p → ∀ desc cached same,
      (s.draw desc cached same a).2.owners.Stuck i p := by
    intro s h desc cached same
    have hbuffer : ((s.clampIndex.useTexture cached).on (·.use swapChain)).owners.Stuck i p :=
      (stuck_useTexture (s := s.clampIndex) h cached).use _
    unfold draw
    simp only
    split
    · exact hbuffer
    · have hpresent := stuck_present hlost hbuffer desc cached same a
      exact stuck_cacheTexture hlost hpresent desc cached same
  unfold render
  split
  · exact h
  · simp only
    split
    · exact h.use _
    · split
      · exact hdraw (h.use _) ..
      · split
        · exact hdraw (h.use _) ..
        · exact h.use _

/-- With the destructor the mistake shows. -/
theorem fault_shutdown (hlost : Lost i p) (h : s.owners.Stuck i p) :
    s.shutdown.owners.fault = true := by
  unfold shutdown
  refine Owners.fault_reset (Owners.fault_reset (Owners.fault_reset (Owners.fault_resetAll ?_ _)))
  rcases hlost with ⟨rfl, rfl⟩ | ⟨rfl, rfl⟩
  · have hfault : (s.owners.use imgui).fault = true := h.fault_use (by decide)
    refine Owners.fault_release (Or.inr (Owners.fault_release (Or.inr (Owners.fault_release (Or.inr
      (Owners.fault_release (Or.inr (Owners.fault_resetAll ?_ _))))))))
    exact Owners.fault_reset (Owners.fault_reset (Owners.fault_reset hfault))
  · have hp : Owner.dangling ≠ .owning := by decide
    have hstuck : (((((s.owners.use imgui).reset imgui).reset inputView).reset
        lastInputTexture).resetAll ((List.range s.bufferCount).map outputView)).Stuck videoDevice
        .dangling :=
      (((((h.use _).reset hp _).reset hp _).reset hp _).resetAll hp _)
    exact Owners.fault_release
      (((hstuck.release hp _).release hp _).release hp _).symm

/-- The video device is not reset. -/
theorem stuck_shutdown_videoDevice (h : s.isSet videoDevice = true) :
    s.shutdown.owners.Stuck videoDevice .dangling := by
  have hp : Owner.dangling ≠ .owning := by decide
  unfold shutdown
  refine Owners.Stuck.reset (Owners.Stuck.reset (Owners.Stuck.reset (Owners.Stuck.resetAll
    (Owners.stuck_release ?_) hp _) hp _) hp _) hp _
  refine (Owners.isSet_congr ?_).trans h
  rw [Owners.ptr_release_ne (by decide), Owners.ptr_release_ne (by decide),
    Owners.ptr_release_ne (by decide), Owners.ptr_resetAll_ne (by simp),
    Owners.ptr_reset_ne (by decide), Owners.ptr_reset_ne (by decide),
    Owners.ptr_reset_ne (by decide), Owners.ptr_use]

theorem stuck_shutdown_imgui : s.shutdown.owners.Stuck imgui .null := by
  have hp : Owner.null ≠ .owning := by decide
  have hstuck : ((s.owners.use imgui).reset imgui).Stuck imgui .null :=
    Or.inr Owners.ptr_reset_self
  unfold shutdown
  exact ((((((((((hstuck.reset hp _).reset hp _).resetAll hp _).release hp _).release hp _).release
    hp _).release hp _).resetAll hp _).reset hp _).reset hp _).reset hp _

theorem createViews_fst (s : RendererD3D11) (buffers : List (Bool × Bool)) (k : Nat) :
    (s.createViews buffers k).1 = viewsSucceed buffers k := by
  induction buffers generalizing s k with
  | nil => rfl
  | cons b rest ih =>
    obtain ⟨buffer, view⟩ := b
    cases buffer
    · by_cases hk : k > 0 <;> simp [createViews, viewsSucceed, hk]
    · cases view
      · rfl
      · exact ih _ _

theorem stuck_createViews (hi : ∀ k, i ≠ backBufferView k) (h : s.owners.Stuck i p)
    (buffers : List (Bool × Bool)) (k : Nat) : (s.createViews buffers k).2.owners.Stuck i p := by
  induction buffers generalizing s k with
  | nil => exact h
  | cons b rest ih =>
    have hacquire := h.acquire (hi k) b.2
    unfold createViews
    split
    · split
      · exact h
      · exact h
    · simp only
      split
      · exact hacquire
      · exact ih (s := s.on (·.acquire (backBufferView k) b.2)) hacquire _

theorem initializeRenderer_fst (s : RendererD3D11) (init : RendererInit) :
    (s.initializeRenderer init).1 = true ↔ RendererInit.Succeeds init := by
  unfold initializeRenderer RendererInit.Succeeds
  cases hhwnd : init.hwnd
  · simp
  · cases hcreated : init.created
    · simp
    · simp only [Bool.not_true, Bool.false_eq_true, if_false, createViews_fst, true_and]
      cases viewsSucceed (init.buffers.take 8) 0 <;> simp

/-- A failed initialisation makes no ImGui, and none gets the video device back. -/
theorem stuck_initializeRenderer {init : RendererInit} (h : s.owners.Stuck i p)
    (hi : i = videoDevice ∨ i = imgui ∧ ¬ RendererInit.Succeeds init) :
    (s.initializeRenderer init).2.owners.Stuck i p := by
  rw [← initializeRenderer_fst s] at hi
  have hne : (i ≠ swapChain ∧ i ≠ device ∧ i ≠ context) ∧ ∀ k, i ≠ backBufferView k := by
    rcases hi with rfl | ⟨rfl, -⟩ <;> simp
  obtain ⟨⟨hswap, hdevice, hcontext⟩, hviews⟩ := hne
  unfold initializeRenderer at hi ⊢
  split
  · exact h
  · next hhwnd =>
    have hdevices := ((h.acquire hswap init.created).acquire hdevice init.created).acquire hcontext
      init.created
    simp only [hhwnd] at hi
    simp only
    split
    · exact hdevices
    · next hcreated =>
      have hall := stuck_createViews (s := { s.on fun o =>
          ((o.acquire swapChain init.created).acquire device init.created).acquire context
            init.created with
        size := init.size, bufferCount := min init.buffers.length 8 }) hviews hdevices
        (init.buffers.take 8) 0
      simp only [hcreated] at hi
      split
      · exact hall
      · next hok =>
        simp only [hok] at hi
        refine hall.acquire ?_ _
        rcases hi with rfl | ⟨-, hfailed⟩
        · decide
        · exact absurd rfl hfailed

end

end RendererD3D11

end RemotePlay.Client
