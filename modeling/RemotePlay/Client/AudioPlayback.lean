import RemotePlay.Host.AudioEncoder

/-!
# Audio playback

The network thread decodes a packet and appends the samples, interleaved, to the
renderer's buffer; the render thread moves what fits from the front of the buffer
to the device, each under the renderer's mutex. The device takes whole frames, one
sample for each channel: of a copy that ends inside a frame it is told the frames
before. What the codec makes of a packet, and how full the device is, are inputs. A
decoder that was never initialised has no codec context and decodes nothing, and only
a started renderer has a render thread; `runClient` initialises neither of its two.
-/

namespace RemotePlay.Client

open Lib Host

/-- A frame that `avcodec_receive_frame` gives out. -/
structure AudioFrame where
  channels : Nat
  nbSamples : Nat
  /-- `data[ch][i]`. -/
  data : Nat → Nat → Sample

namespace AudioDecoder

/-- The loop over `ch`, `n` rounds left and `ch` done. -/
def writeChannels (frame : AudioFrame) (offset i : Nat) : Nat → Nat → List Sample → List Sample
  | 0, _, out => out
  | n + 1, ch, out =>
    writeChannels frame offset i n (ch + 1)
      (out.set (offset + i * frame.channels + ch) (frame.data ch i))

/-- The loop over `i`, `n` rounds left and `i` done. -/
def writeSamples (frame : AudioFrame) (offset : Nat) : Nat → Nat → List Sample → List Sample
  | 0, _, out => out
  | n + 1, i, out =>
    writeSamples frame offset n (i + 1) (writeChannels frame offset i frame.channels 0 out)

/-- One frame: the vector grows, and the new part is filled. -/
def decodeFrame (outPcmData : List Sample) (frame : AudioFrame) : List Sample :=
  writeSamples frame outPcmData.length frame.nbSamples 0
    (outPcmData ++ List.replicate (frame.nbSamples * frame.channels) 0)

/-- `Decode`, into an empty vector: `none` of the frames where the codec refuses the packet, else
those that it gives out. It returns `false` also where there are no samples. -/
def decode (codecCtx : Bool) (frames : Option (List AudioFrame)) : Option (List Sample) :=
  if !codecCtx then none
  else
    match frames with
    | none => none
    | some frames =>
      let outPcmData := frames.foldl decodeFrame []
      if outPcmData.isEmpty then none else some outPcmData

end AudioDecoder

structure AudioRenderer where
  channels : Nat
  running : Bool
  buffer : List Sample
  /-- What has been appended to the buffer so far. -/
  pushed : List Sample
  /-- The samples of the frames that the device has been told of. -/
  played : List Sample
  /-- How many times the device has been given silence. -/
  silences : Nat

inductive AudioEvent where
  | start
  | stop
  /-- A packet is decoded; the codec refuses it, or gives out these frames. -/
  | packet (frames : Option (List AudioFrame))
  /-- The render thread's event is set, and the device says how full it is. -/
  | render (bufferSize padding : UInt32)

namespace AudioRenderer

/-- A renderer whose `Initialize` has succeeded; it has no thread yet. -/
def init (channels : Nat) : AudioRenderer := ⟨channels, false, [], [], [], 0⟩

def start (r : AudioRenderer) : AudioRenderer := { r with running := true }

/-- `Stop`: the thread has ended when it returns. -/
def stop (r : AudioRenderer) : AudioRenderer := { r with running := false }

def pushSamples (r : AudioRenderer) (data : List Sample) : AudioRenderer :=
  { r with buffer := r.buffer ++ data, pushed := r.pushed ++ data }

/-- How many samples `RenderThread` copies. -/
def toCopy (r : AudioRenderer) (available : UInt32) : Nat :=
  min (available.toNat * r.channels) r.buffer.length

/-- One round of `RenderThread`. -/
def render (r : AudioRenderer) (bufferSize padding : UInt32) : AudioRenderer :=
  let available := bufferSize - padding
  if available > 0 then
    if r.toCopy available > 0 then
      let frames := UInt32.ofNat (r.toCopy available / r.channels)
      { r with
        played := r.played ++ r.buffer.take (frames.toNat * r.channels)
        buffer := r.buffer.drop (r.toCopy available) }
    else { r with silences := r.silences + 1 }
  else r

/-- One step of the network thread, of the render thread or of the renderer's owner. Whether the
decoder has a codec context is an input. -/
def step (codecCtx : Bool) (r : AudioRenderer) : AudioEvent → AudioRenderer
  | .start => r.start
  | .stop => r.stop
  | .packet frames =>
    match AudioDecoder.decode codecCtx frames with
    | some pcm => r.pushSamples pcm
    | none => r
  | .render bufferSize padding => if r.running then r.render bufferSize padding else r

end AudioRenderer

/-! ## Decoding -/

/-- The samples of a frame, interleaved. -/
def AudioFrame.interleaved (frame : AudioFrame) : List Sample :=
  AudioEncoder.interleaved frame.data frame.nbSamples frame.channels

namespace AudioDecoder

variable (frame : AudioFrame) (offset : Nat)

theorem getElem?_writeChannels (i n ch : Nat) (out : List Sample) (p : Nat) :
    (writeChannels frame offset i n ch out)[p]? =
      if (offset + i * frame.channels + ch ≤ p ∧ p < offset + i * frame.channels + ch + n) ∧
        p < out.length then some (frame.data (p - (offset + i * frame.channels)) i)
      else out[p]? := by
  induction n generalizing ch out with
  | zero => rw [writeChannels, if_neg (by omega)]
  | succ n ih =>
    rw [writeChannels, ih, List.length_set, List.getElem?_set]
    by_cases hp : offset + i * frame.channels + ch = p
    · subst hp
      rw [if_neg (by omega), if_pos rfl]
      by_cases hlen : offset + i * frame.channels + ch < out.length
      · rw [if_pos hlen, if_pos ⟨⟨Nat.le_refl _, by omega⟩, hlen⟩]
        congr 2
        omega
      · rw [if_neg hlen, if_neg (by omega)]
        exact (List.getElem?_eq_none (by omega)).symm
    · rw [if_neg hp]
      exact if_congr (by omega) rfl rfl

@[simp] theorem length_writeChannels (i n ch : Nat) (out : List Sample) :
    (writeChannels frame offset i n ch out).length = out.length := by
  induction n generalizing ch out with
  | zero => rfl
  | succ n ih => rw [writeChannels, ih, List.length_set]

@[simp] theorem length_writeSamples (n i : Nat) (out : List Sample) :
    (writeSamples frame offset n i out).length = out.length := by
  induction n generalizing i out with
  | zero => rfl
  | succ n ih => rw [writeSamples, ih, length_writeChannels]

/-- Position `offset + k` gets channel `k % channels` of sample `k / channels`. -/
theorem getElem?_writeSamples (n i : Nat) (out : List Sample) (k : Nat) :
    (writeSamples frame offset n i out)[offset + k]? =
      if (i * frame.channels ≤ k ∧ k < (i + n) * frame.channels) ∧ offset + k < out.length then
        some (frame.data (k % frame.channels) (k / frame.channels))
      else out[offset + k]? := by
  induction n generalizing i out with
  | zero => rw [writeSamples, Nat.add_zero, if_neg (by omega)]
  | succ n ih =>
    rw [writeSamples, ih, length_writeChannels, getElem?_writeChannels]
    have hsucc : (i + 1) * frame.channels = i * frame.channels + frame.channels := by
      rw [Nat.succ_mul]
    have hend : i + 1 + n = i + (n + 1) := by omega
    rw [hend]
    have hle : (i + 1) * frame.channels ≤ (i + (n + 1)) * frame.channels :=
      Nat.mul_le_mul_right _ (by omega)
    by_cases hi : k < (i + 1) * frame.channels
    · rw [if_neg (by omega)]
      by_cases hk : i * frame.channels ≤ k ∧ offset + k < out.length
      · rw [if_pos (by omega), if_pos (by omega)]
        have hdiv : k / frame.channels = i :=
          Nat.div_eq_of_lt_le hk.1 hi
        have hmod : k % frame.channels = k - i * frame.channels := by
          rw [Nat.mod_eq_sub_mul_div, hdiv, Nat.mul_comm]
        rw [hdiv, hmod]
        congr 2
        omega
      · rw [if_neg (by omega), if_neg (by omega)]
    · exact if_congr (by omega) rfl (if_neg (by omega))

theorem getElem?_writeSamples_before (n i : Nat) (out : List Sample) {p : Nat} (hp : p < offset) :
    (writeSamples frame offset n i out)[p]? = out[p]? := by
  induction n generalizing i out with
  | zero => rfl
  | succ n ih => rw [writeSamples, ih, getElem?_writeChannels, if_neg (by omega)]

/-- **A frame is appended, interleaved.** -/
theorem decodeFrame_eq (out : List Sample) :
    decodeFrame out frame = out ++ frame.interleaved := by
  refine List.ext_getElem? fun p => ?_
  rcases Nat.lt_or_ge p out.length with hp | hp
  · rw [decodeFrame, getElem?_writeSamples_before _ _ _ _ _ hp, List.getElem?_append_left hp,
      List.getElem?_append_left hp]
  · obtain ⟨k, rfl⟩ := Nat.exists_eq_add_of_le hp
    have hright : (out ++ frame.interleaved)[out.length + k]? = frame.interleaved[k]? := by
      rw [List.getElem?_append_right (Nat.le_add_right _ _), Nat.add_sub_cancel_left]
    rw [decodeFrame, getElem?_writeSamples, hright, List.length_append, List.length_replicate,
      Nat.zero_mul, Nat.zero_add]
    by_cases hk : k < frame.nbSamples * frame.channels
    · rw [if_pos ⟨⟨Nat.zero_le _, hk⟩, by omega⟩]
      exact (AudioEncoder.getElem?_interleaved frame.data hk).symm
    · rw [if_neg (by omega), List.getElem?_eq_none (by simp; omega)]
      exact (List.getElem?_eq_none (by simp [AudioFrame.interleaved]; omega)).symm

variable {frame : AudioFrame}

theorem foldl_decodeFrame (frames : List AudioFrame) (out : List Sample) :
    frames.foldl decodeFrame out = out ++ frames.flatMap AudioFrame.interleaved := by
  induction frames generalizing out with
  | nil => exact (List.append_nil out).symm
  | cons frame frames ih =>
    rw [List.foldl_cons, ih, decodeFrame_eq, List.flatMap_cons, List.append_assoc]

/-- A decoder that was never initialised. -/
@[simp] theorem decode_false (frames : Option (List AudioFrame)) : decode false frames = none := rfl

@[simp] theorem decode_none (codecCtx : Bool) : decode codecCtx none = none := by
  cases codecCtx <;> rfl

/-- What `Decode` leaves the caller with, `true` or `false`. -/
theorem decode_getD (frames : List AudioFrame) :
    (decode true (some frames)).getD [] = frames.flatMap AudioFrame.interleaved := by
  have hfold : frames.foldl decodeFrame [] = frames.flatMap AudioFrame.interleaved := by
    rw [foldl_decodeFrame, List.nil_append]
  simp only [decode, Bool.not_true, Bool.false_eq_true, if_false, hfold]
  split
  · next hempty => exact (List.isEmpty_iff.mp hempty).symm
  · rfl

/-- A packet with samples. -/
theorem decode_eq_some {frames : List AudioFrame} {pcmData : List Sample}
    (h : frames.flatMap AudioFrame.interleaved = pcmData) (hsome : pcmData ≠ []) :
    decode true (some frames) = some pcmData := by
  have hfold : frames.foldl decodeFrame [] = pcmData := by
    rw [foldl_decodeFrame, List.nil_append, h]
  simp only [decode, Bool.not_true, Bool.false_eq_true, if_false, hfold]
  exact if_neg fun hempty => hsome (List.isEmpty_iff.mp hempty)

theorem decode_of_interleaved {channels frameSize : Nat} {data : Nat → Nat → Sample}
    {pcmData : List Sample} (h : AudioEncoder.interleaved data frameSize channels = pcmData)
    (hsome : pcmData ≠ []) :
    decode true (some [⟨channels, frameSize, data⟩]) = some pcmData := by
  refine decode_eq_some ?_ hsome
  rw [List.flatMap_cons, List.flatMap_nil, List.append_nil]
  exact h

/-- **Planes and back.** The planes that the host's encoder has filled from a callback of one frame
give the callback's samples again, whatever the number of channels (`Initialize` of encoder and
decoder sets one or two). -/
theorem decode_encode {frameSize channels : Nat} (hchannels : 0 < channels)
    (e : AudioEncoder) {pcmData : List Sample}
    (hn : AudioEncoder.nbSamples pcmData.length channels = frameSize)
    (hlen : pcmData.length = frameSize * channels) (hsome : pcmData ≠ []) :
    decode true
        (some [⟨channels, frameSize, (AudioEncoder.encode frameSize channels e pcmData).data⟩]) =
      some pcmData := by
  have hframe := AudioEncoder.interleaved_encode hchannels e hn hlen.ge
  have hall : pcmData.take (frameSize * channels) = pcmData := by
    rw [← hlen, List.take_length]
  exact decode_of_interleaved (hframe.trans hall) hsome

end AudioDecoder

/-- One frame of three samples of two channels, after planes that held other samples. -/
theorem decode_encode_one : AudioDecoder.decode true
    (some [⟨2, 3, (AudioEncoder.encode 3 2 (AudioEncoder.start fun _ _ => 9)
      [1, 2, 3, 4, 5, 6]).data⟩]) = some [1, 2, 3, 4, 5, 6] :=
  AudioDecoder.decode_encode (by decide) (AudioEncoder.start fun _ _ => 9) (by decide) (by decide)
    (by decide)

/-! ## Playing -/

/-- The samples of a packet, as `Decode` gives them. -/
def AudioEvent.decoded (codecCtx : Bool) : AudioEvent → List Sample
  | packet (some frames) => if codecCtx then frames.flatMap AudioFrame.interleaved else []
  | _ => []

namespace AudioRenderer

/-- What has been pushed has been played, or is in the buffer still, in this order. -/
def InOrder (r : AudioRenderer) : Prop := r.played ++ r.buffer = r.pushed

/-- A round of the render thread does not end its copy inside a frame. -/
def Whole (r : AudioRenderer) : AudioEvent → Prop
  | .render bufferSize padding =>
    r.running = true → r.channels ∣ r.toCopy (bufferSize - padding)
  | _ => True

variable {codecCtx : Bool} {r : AudioRenderer}

theorem toCopy_le (r : AudioRenderer) (available : UInt32) :
    r.toCopy available ≤ available.toNat * r.channels ∧ r.toCopy available ≤ r.buffer.length :=
  ⟨Nat.min_le_left _ _, Nat.min_le_right _ _⟩

/-- The number of frames fits the `UINT32` that it is converted to. -/
theorem toNat_frames (r : AudioRenderer) (available : UInt32) :
    (UInt32.ofNat (r.toCopy available / r.channels)).toNat =
      r.toCopy available / r.channels := by
  have hle : r.toCopy available / r.channels ≤ available.toNat :=
    Nat.div_le_of_le_mul (Nat.mul_comm _ _ ▸ (r.toCopy_le available).1)
  exact UInt32.toNat_ofNat_of_lt' (Nat.lt_of_le_of_lt hle available.toNat_lt)

/-- A step with a packet appends its samples. -/
theorem step_packet (codecCtx : Bool) (r : AudioRenderer) (frames : Option (List AudioFrame)) :
    r.step codecCtx (.packet frames) =
      r.pushSamples (AudioEvent.decoded codecCtx (.packet frames)) := by
  have hnil : r.pushSamples [] = r := by simp [pushSamples]
  cases frames with
  | none =>
    simp only [step, AudioDecoder.decode_none]
    exact hnil.symm
  | some frames =>
    cases codecCtx with
    | false => exact hnil.symm
    | true =>
      have hdecode := AudioDecoder.decode_getD frames
      simp only [step, AudioEvent.decoded, if_true, ← hdecode]
      cases AudioDecoder.decode true (some frames) with
      | none => exact hnil.symm
      | some pcm => rfl

/-- What is copied is played iff it is a whole number of frames. -/
theorem render_inOrder (h : r.InOrder) (bufferSize padding : UInt32) :
    (r.render bufferSize padding).InOrder ↔ r.channels ∣ r.toCopy (bufferSize - padding) := by
  unfold render
  dsimp only
  split
  · split
    · next hcopy =>
      have hlen := (r.toCopy_le (bufferSize - padding)).2
      generalize hn : r.toCopy (bufferSize - padding) = n at hcopy hlen ⊢
      have hle : n / r.channels * r.channels ≤ n := Nat.div_mul_le_self _ _
      have hframes := r.toNat_frames (bufferSize - padding)
      rw [hn] at hframes
      unfold InOrder at h ⊢
      simp only [hframes, ← h, List.append_assoc, List.append_cancel_left_eq]
      rw [Nat.dvd_iff_div_mul_eq]
      constructor
      · intro heq
        have hlength := congrArg List.length heq
        simp only [List.length_append, List.length_take, List.length_drop] at hlength
        omega
      · intro heq
        rw [heq, List.take_append_drop]
    · next hcopy =>
      refine iff_of_true h ?_
      rw [Nat.eq_zero_of_not_pos hcopy]
      exact Nat.dvd_zero _
  · next hnone =>
    refine iff_of_true h ?_
    have hzero : bufferSize - padding = 0 := by
      by_contra hne
      exact hnone (UInt32.pos_iff_ne_zero.mpr hne)
    rw [hzero, toCopy, UInt32.toNat_zero, Nat.zero_mul, Nat.zero_min]
    exact Nat.dvd_zero _

theorem step_inOrder (codecCtx : Bool) (h : r.InOrder) (e : AudioEvent) :
    (r.step codecCtx e).InOrder ↔ r.Whole e := by
  cases e with
  | start => exact iff_of_true h trivial
  | stop => exact iff_of_true h trivial
  | packet frames =>
    refine iff_of_true ?_ trivial
    rw [step_packet]
    show r.played ++ (r.buffer ++ _) = r.pushed ++ _
    rw [← List.append_assoc, h]
  | render bufferSize padding =>
    simp only [step, Whole]
    by_cases hrunning : r.running = true
    · rw [if_pos hrunning, render_inOrder h bufferSize padding]
      exact ⟨fun hwhole _ => hwhole, fun hwhole => hwhole hrunning⟩
    · rw [if_neg hrunning]
      exact iff_of_true h fun hstarted => absurd hstarted hrunning

/-- **Every sample once, and in order.** In every interleaving of packets and rounds of the render
thread, with the renderer started and stopped at any time, what was pushed is what has been played
followed by the buffer, in every state, iff no round copies a part of a frame. -/
theorem played_in_order_iff (codecCtx : Bool) (channels : Nat) (es : List AudioEvent) :
    (∀ es', es' <+: es → (run (step codecCtx) (init channels) es').InOrder) ↔
      Along (step codecCtx) Whole (init channels) es := by
  have hexact : ∀ r e, True → InOrder r → (InOrder (r.step codecCtx e) ↔ Whole r e) :=
    fun _ e _ h => step_inOrder codecCtx h e
  have hinit : InOrder (init channels) := rfl
  exact forall_prefix_iff_along (fun _ _ _ => trivial) hexact trivial hinit es

/-! ## Packets of whole frames -/

/-- Every frame of the packet has a sample for each of the renderer's channels. -/
def Fits (channels : Nat) : AudioEvent → Prop
  | .packet (some frames) => ∀ frame ∈ frames, frame.channels = channels
  | _ => True

theorem dvd_length_decoded (codecCtx : Bool) {channels : Nat} {e : AudioEvent}
    (h : Fits channels e) :
    channels ∣ (e.decoded codecCtx).length := by
  cases e with
  | start => exact Nat.dvd_zero _
  | stop => exact Nat.dvd_zero _
  | packet frames =>
    cases frames with
    | none => exact Nat.dvd_zero _
    | some frames =>
      cases codecCtx with
      | false => exact Nat.dvd_zero _
      | true =>
        show channels ∣ (frames.flatMap AudioFrame.interleaved).length
        unfold Fits at h
        induction frames with
        | nil => exact Nat.dvd_zero _
        | cons frame frames ih =>
          obtain ⟨hframe, hrest⟩ := List.forall_mem_cons.mp h
          rw [List.flatMap_cons, List.length_append, AudioFrame.interleaved,
            AudioEncoder.length_interleaved, hframe]
          exact Nat.dvd_add (Nat.dvd_mul_left _ _) (ih hrest)
  | render bufferSize padding => exact Nat.dvd_zero _

/-- Everything that is played or buffered is whole frames. -/
structure Framed (channels : Nat) (r : AudioRenderer) : Prop where
  same : r.channels = channels
  inOrder : r.InOrder
  whole : channels ∣ r.buffer.length

theorem dvd_toCopy {channels : Nat} (h : r.Framed channels) (available : UInt32) :
    r.channels ∣ r.toCopy available := by
  show r.channels ∣ min _ _
  rcases Nat.le_total (available.toNat * r.channels) r.buffer.length with hle | hle
  · rw [Nat.min_eq_left hle]
    exact Nat.dvd_mul_left _ _
  · rw [Nat.min_eq_right hle, h.same]
    exact h.whole

theorem whole_of_framed {channels : Nat} (h : r.Framed channels) (e : AudioEvent) :
    r.Whole e := by
  cases e with
  | start => trivial
  | stop => trivial
  | packet frames => trivial
  | render bufferSize padding => exact fun _ => dvd_toCopy h _

theorem render_channels (r : AudioRenderer) (bufferSize padding : UInt32) :
    (r.render bufferSize padding).channels = r.channels ∧
      (r.render bufferSize padding).pushed = r.pushed ∧
      ((r.render bufferSize padding).buffer = r.buffer ∨
        (r.render bufferSize padding).buffer =
          r.buffer.drop (r.toCopy (bufferSize - padding))) := by
  unfold render
  dsimp only
  split
  · split
    · exact ⟨rfl, rfl, Or.inr rfl⟩
    · exact ⟨rfl, rfl, Or.inl rfl⟩
  · exact ⟨rfl, rfl, Or.inl rfl⟩

theorem render_framed {channels : Nat} (h : r.Framed channels) (bufferSize padding : UInt32) :
    (r.render bufferSize padding).Framed channels ∧
      (r.render bufferSize padding).pushed = r.pushed := by
  obtain ⟨hsame, hpushed, hbuffer⟩ := render_channels r bufferSize padding
  have hcopy := dvd_toCopy h (bufferSize - padding)
  have horder := (render_inOrder h.inOrder bufferSize padding).mpr hcopy
  refine ⟨⟨hsame.trans h.same, horder, ?_⟩, hpushed⟩
  rcases hbuffer with hbuffer | hbuffer
  · rw [hbuffer]
    exact h.whole
  · rw [hbuffer, List.length_drop]
    rw [h.same] at hcopy
    exact Nat.dvd_sub h.whole hcopy

theorem step_framed (codecCtx : Bool) {channels : Nat} (h : r.Framed channels) {e : AudioEvent}
    (he : Fits channels e) :
    (r.step codecCtx e).Framed channels ∧
      (r.step codecCtx e).pushed = r.pushed ++ e.decoded codecCtx := by
  cases e with
  | start => exact ⟨⟨h.same, h.inOrder, h.whole⟩, (List.append_nil _).symm⟩
  | stop => exact ⟨⟨h.same, h.inOrder, h.whole⟩, (List.append_nil _).symm⟩
  | packet frames =>
    have horder := (step_inOrder codecCtx h.inOrder (.packet frames)).mpr trivial
    have hwhole := dvd_length_decoded codecCtx he
    rw [step_packet] at horder ⊢
    refine ⟨⟨h.same, horder, ?_⟩, rfl⟩
    show channels ∣ (r.buffer ++ _).length
    rw [List.length_append]
    exact Nat.dvd_add h.whole hwhole
  | render bufferSize padding =>
    simp only [step]
    by_cases hrunning : r.running = true
    · rw [if_pos hrunning]
      obtain ⟨hframed, hpushed⟩ := render_framed h bufferSize padding
      exact ⟨hframed, hpushed.trans (List.append_nil _).symm⟩
    · rw [if_neg hrunning]
      exact ⟨h, (List.append_nil _).symm⟩

/-- The device is given silence only by a running thread and when there is nothing to play. -/
theorem silences_render (codecCtx : Bool) (hchannels : 0 < r.channels) {bufferSize padding : UInt32}
    (h : (r.step codecCtx (.render bufferSize padding)).silences ≠ r.silences) :
    r.running = true ∧ r.buffer = [] := by
  simp only [step] at h
  by_cases hrunning : r.running = true
  · rw [if_pos hrunning] at h
    refine ⟨hrunning, ?_⟩
    unfold render at h
    dsimp only at h
    split at h
    · next havailable =>
      split at h
      · exact absurd rfl h
      · next hcopy =>
        have hpos : 0 < (bufferSize - padding).toNat * r.channels := by
          refine Nat.mul_pos ?_ hchannels
          exact UInt32.lt_iff_toNat_lt.mp havailable
        unfold toCopy at hcopy
        exact List.eq_nil_of_length_eq_zero (by omega)
    · exact absurd rfl h
  · rw [if_neg hrunning] at h
    exact absurd rfl h

theorem run_framed (codecCtx : Bool) {channels : Nat} (h : r.Framed channels)
    {es : List AudioEvent} (hes : ∀ e ∈ es, Fits channels e) :
    (run (step codecCtx) r es).Framed channels ∧
      (run (step codecCtx) r es).pushed =
        r.pushed ++ es.flatMap (AudioEvent.decoded codecCtx) := by
  induction es generalizing r with
  | nil => exact ⟨h, (List.append_nil _).symm⟩
  | cons e es ih =>
    obtain ⟨he, hrest⟩ := List.forall_mem_cons.mp hes
    obtain ⟨hstep, hpushed⟩ := step_framed codecCtx h he
    obtain ⟨hrun, hall⟩ := ih hstep hrest
    refine ⟨hrun, ?_⟩
    rw [run_cons, hall, hpushed, List.append_assoc, List.flatMap_cons]

theorem init_framed (channels : Nat) : (init channels).Framed channels :=
  ⟨rfl, rfl, Nat.dvd_zero _⟩

/-- **Playback.** Of a decoder with a codec context or without one, and of a renderer that has been
initialised and is started and stopped at any time: where every decoded frame has the renderer's
channels, the samples of the packets are played once each and in the packets' order, in every
interleaving with the render thread, and silence is played only by a running thread and when all
that was decoded has been played. -/
theorem playback (codecCtx : Bool) {channels : Nat} (hchannels : 0 < channels)
    (es : List AudioEvent) (hes : ∀ e ∈ es, Fits channels e) :
    (run (step codecCtx) (init channels) es).played ++
          (run (step codecCtx) (init channels) es).buffer =
        es.flatMap (AudioEvent.decoded codecCtx) ∧
      ∀ past bufferSize padding rest, es = past ++ .render bufferSize padding :: rest →
        (run (step codecCtx) (init channels) (past ++ [.render bufferSize padding])).silences ≠
          (run (step codecCtx) (init channels) past).silences →
        (run (step codecCtx) (init channels) past).running = true ∧
          (run (step codecCtx) (init channels) past).played =
            past.flatMap (AudioEvent.decoded codecCtx) := by
  have hall : ∀ es, (∀ e ∈ es, Fits channels e) →
      (run (step codecCtx) (init channels) es).Framed channels ∧
        (run (step codecCtx) (init channels) es).played ++
            (run (step codecCtx) (init channels) es).buffer =
          es.flatMap (AudioEvent.decoded codecCtx) := by
    intro es hes
    obtain ⟨hframed, hpushed⟩ := run_framed codecCtx (init_framed channels) hes
    exact ⟨hframed, hframed.inOrder.trans hpushed⟩
  refine ⟨(hall es hes).2, ?_⟩
  rintro past bufferSize padding rest rfl hsilences
  obtain ⟨hframed, horder⟩ := hall past fun e he => hes e (List.mem_append_left _ he)
  rw [run_append] at hsilences
  obtain ⟨hrunning, hempty⟩ := silences_render codecCtx (hframed.same.symm ▸ hchannels) hsilences
  refine ⟨hrunning, ?_⟩
  rwa [hempty, List.append_nil] at horder

/-- Two packets of stereo frames before and after `Start`, and two rounds of the render thread: the
first has room for one frame. -/
theorem playback_stereo :
    (run (step true) (init 2)
        [.packet (some [⟨2, 2, fun ch i => UInt32.ofNat (2 * i + ch)⟩]), .start, .render 3 2,
          .packet (some [⟨2, 1, fun ch _ => UInt32.ofNat (4 + ch)⟩]), .render 3 2]).played ++
      (run (step true) (init 2)
        [.packet (some [⟨2, 2, fun ch i => UInt32.ofNat (2 * i + ch)⟩]), .start, .render 3 2,
          .packet (some [⟨2, 1, fun ch _ => UInt32.ofNat (4 + ch)⟩]), .render 3 2]).buffer =
      [0, 1, 2, 3, 4, 5] :=
  (playback true (by decide)
    [.packet (some [⟨2, 2, fun ch i => UInt32.ofNat (2 * i + ch)⟩]), .start, .render 3 2,
      .packet (some [⟨2, 1, fun ch _ => UInt32.ofNat (4 + ch)⟩]), .render 3 2]
    (by simp [Fits])).1

end AudioRenderer

end RemotePlay.Client
