import RemotePlay.Lib.Run
import RemotePlay.Lib.Vec

/-!
# The audio encoder

`Encode` spreads the samples of a capture callback over the planes of its one
frame, and submits that frame to the codec, once for every callback. The number
of samples copied is set by the callback and the number submitted by the codec:
nothing is kept from one callback for the next. A sample is the bits of its
float, and the codec a list of the samples submitted to it, interleaved again.
-/

namespace RemotePlay.Host

open Lib

abbrev Sample : Type := UInt32

/-- `AV_CHANNEL_LAYOUT_MONO` or `AV_CHANNEL_LAYOUT_STEREO`. -/
def nbChannels (channels : Int) : Nat := if channels = 1 then 1 else 2

structure AudioEncoder where
  /-- `frame->data[ch][i]`. -/
  data : Nat → Nat → Sample
  /-- The indices `i` at which the planes have been written. -/
  written : List Nat
  /-- The samples of the frames sent to the codec, interleaved. -/
  submitted : List Sample

namespace AudioEncoder

/-- `(int)samples / channels`. -/
def nbSamples (samples channels : Nat) : Int := (Int.bmod samples (2 ^ 32)).tdiv channels

/-- `channelData[i] = pcmData[i * channels + ch]`, for each channel. -/
def writeSample (e : AudioEncoder) (pcmData : List Sample) (channels i : Nat) : AudioEncoder :=
  { e with
    data := fun ch k =>
      if k = i ∧ ch < channels then pcmData.getD (i * channels + ch) 0 else e.data ch k
    written := e.written ++ [i] }

/-- The loop over `i`, `n` rounds left and `i` done. -/
def deinterleave (pcmData : List Sample) (channels : Nat) : Nat → Nat → AudioEncoder → AudioEncoder
  | 0, _, e => e
  | n + 1, i, e => deinterleave pcmData channels n (i + 1) (e.writeSample pcmData channels i)

/-- The frame's samples: sample `k` is in the plane of its channel. -/
def interleaved (data : Nat → Nat → Sample) (frameSize channels : Nat) : List Sample :=
  readN (fun k => data (k % channels) (k / channels)) (frameSize * channels)

/-- `avcodec_send_frame`. -/
def sendFrame (frameSize channels : Nat) (e : AudioEncoder) : AudioEncoder :=
  { e with submitted := e.submitted ++ interleaved e.data frameSize channels }

/-- The rounds of the loop: none for a negative count. -/
def rounds (pcmData : List Sample) (channels : Nat) : Nat :=
  (nbSamples pcmData.length channels).toNat

/-- `Encode`. The test of `nb_samples` against the frame size has an empty body. -/
def encode (frameSize channels : Nat) (e : AudioEncoder) (pcmData : List Sample) : AudioEncoder :=
  sendFrame frameSize channels (deinterleave pcmData channels (rounds pcmData channels) 0 e)

/-- The encoder before the first callback, with whatever its buffer holds. -/
def start (data : Nat → Nat → Sample) : AudioEncoder := ⟨data, [], []⟩

def encodeAll (frameSize channels : Nat) (data : Nat → Nat → Sample)
    (captured : List (List Sample)) : AudioEncoder :=
  run (encode frameSize channels) (start data) captured

/-- What was captured is what is submitted, and no write passes the frame. -/
structure Unchanged (frameSize channels : Nat) (captured : List (List Sample))
    (e : AudioEncoder) : Prop where
  inside : ∀ i ∈ e.written, i < frameSize
  inOrder : e.submitted <+: captured.flatten
  heldBack : captured.flatten.length < e.submitted.length + frameSize * channels

/-- The callbacks of these sizes are submitted as captured, whatever their samples and the buffer
hold. -/
def SubmittedUnchanged (frameSize channels : Nat) (sizes : List Nat) : Prop :=
  ∀ captured : List (List Sample), captured.map List.length = sizes → ∀ data,
    Unchanged frameSize channels captured (encodeAll frameSize channels data captured)

/-- Every callback has one frame of samples, and the last one may have some more that are not
enough for one of every channel. -/
def OneFrameEach (frameSize channels : Nat) (sizes : List Nat) : Prop :=
  ∀ before size after, sizes = before ++ size :: after →
    nbSamples size channels = frameSize ∧ size < frameSize * channels + channels ∧
      (after ≠ [] → size = frameSize * channels)

/-! ## One callback -/

section
variable (pcmData : List Sample) (channels : Nat)

theorem data_deinterleave (n i : Nat) (e : AudioEncoder) (ch k : Nat) :
    (deinterleave pcmData channels n i e).data ch k =
      if (i ≤ k ∧ k < i + n) ∧ ch < channels then pcmData.getD (k * channels + ch) 0
      else e.data ch k := by
  induction n generalizing i e with
  | zero => rw [deinterleave, if_neg (by omega)]
  | succ n ih =>
    rw [deinterleave, ih]
    by_cases hk : k = i
    · subst hk
      rw [if_neg (by omega)]
      by_cases hch : ch < channels
      · rw [if_pos (by omega)]
        simp [writeSample, hch]
      · rw [if_neg (by omega)]
        simp [writeSample, hch]
    · have hsame : (e.writeSample pcmData channels i).data ch k = e.data ch k := by
        simp [writeSample, hk]
      rw [hsame]
      exact if_congr (by omega) rfl rfl

theorem written_deinterleave (n i : Nat) (e : AudioEncoder) :
    (deinterleave pcmData channels n i e).written = e.written ++ List.range' i n := by
  induction n generalizing i e with
  | zero => simp [deinterleave]
  | succ n ih =>
    rw [deinterleave, ih, List.range'_succ]
    simp [writeSample]

theorem submitted_deinterleave (n i : Nat) (e : AudioEncoder) :
    (deinterleave pcmData channels n i e).submitted = e.submitted := by
  induction n generalizing i e with
  | zero => rfl
  | succ n ih =>
    rw [deinterleave, ih]
    rfl

end

variable {frameSize channels : Nat}

/-- The loop with any number of rounds, and the frame sent after it. -/
theorem sendFrame_deinterleave (e : AudioEncoder) (pcmData : List Sample) (n : Nat) :
    (∀ ch k, (sendFrame frameSize channels (deinterleave pcmData channels n 0 e)).data ch k =
      if k < n ∧ ch < channels then pcmData.getD (k * channels + ch) 0 else e.data ch k) ∧
    (sendFrame frameSize channels (deinterleave pcmData channels n 0 e)).written =
      e.written ++ List.range n ∧
    (sendFrame frameSize channels (deinterleave pcmData channels n 0 e)).submitted =
      e.submitted ++ interleaved
        (sendFrame frameSize channels (deinterleave pcmData channels n 0 e)).data
        frameSize channels := by
  refine ⟨fun ch k => ?_, ?_, ?_⟩
  · rw [sendFrame, data_deinterleave]
    exact if_congr (by omega) rfl rfl
  · rw [sendFrame, written_deinterleave, List.range_eq_range']
  · rw [sendFrame, submitted_deinterleave]

/-- **One callback**: a prefix of each plane is its samples, and the whole frame is submitted. -/
theorem encode_spec (e : AudioEncoder) (pcmData : List Sample) :
    (∀ ch k, (encode frameSize channels e pcmData).data ch k =
      if k < rounds pcmData channels ∧ ch < channels then pcmData.getD (k * channels + ch) 0
      else e.data ch k) ∧
    (encode frameSize channels e pcmData).written =
      e.written ++ List.range (rounds pcmData channels) ∧
    (encode frameSize channels e pcmData).submitted = e.submitted ++
      interleaved (encode frameSize channels e pcmData).data frameSize channels :=
  sendFrame_deinterleave e pcmData (rounds pcmData channels)

@[simp] theorem length_interleaved (data : Nat → Nat → Sample) :
    (interleaved data frameSize channels).length = frameSize * channels := length_readN _ _

theorem getElem?_interleaved (data : Nat → Nat → Sample) {k : Nat}
    (hk : k < frameSize * channels) :
    (interleaved data frameSize channels)[k]? = some (data (k % channels) (k / channels)) := by
  rw [List.getElem?_eq_getElem (by simpa using hk)]
  exact congrArg some (getElem_readN _ _)

/-- A callback with one frame of samples is submitted as it is. -/
theorem interleaved_encode (hchannels : 0 < channels) (e : AudioEncoder) {pcmData : List Sample}
    (hn : nbSamples pcmData.length channels = frameSize)
    (hlen : frameSize * channels ≤ pcmData.length) :
    interleaved (encode frameSize channels e pcmData).data frameSize channels =
      pcmData.take (frameSize * channels) := by
  have htake : pcmData.take (frameSize * channels) =
      readN (pcmData.getD · 0) (frameSize * channels) := by
    rw [← take_readN _ hlen, readN_getD]
  rw [htake]
  refine readN_congr fun k hk => ?_
  have hdiv : k / channels < frameSize := Nat.div_lt_of_lt_mul (by rwa [Nat.mul_comm])
  rw [(encode_spec e pcmData).1, rounds, hn, Int.toNat_natCast,
    if_pos ⟨hdiv, Nat.mod_lt k hchannels⟩, Nat.mul_comm, Nat.div_add_mod]

/-! ## Many callbacks -/

/-- What the callbacks submit. -/
def frames (frameSize channels : Nat) : AudioEncoder → List (List Sample) → List Sample
  | _, [] => []
  | e, c :: cs =>
    interleaved (encode frameSize channels e c).data frameSize channels ++
      frames frameSize channels (encode frameSize channels e c) cs

theorem submitted_run (e : AudioEncoder) (cs : List (List Sample)) :
    (run (encode frameSize channels) e cs).submitted =
      e.submitted ++ frames frameSize channels e cs := by
  induction cs generalizing e with
  | nil => exact (List.append_nil _).symm
  | cons c cs ih =>
    rw [run_cons, ih, (encode_spec e c).2.2, List.append_assoc]
    rfl

theorem length_frames (e : AudioEncoder) (cs : List (List Sample)) :
    (frames frameSize channels e cs).length = cs.length * (frameSize * channels) := by
  induction cs generalizing e with
  | nil => exact (Nat.zero_mul _).symm
  | cons c cs ih =>
    rw [frames, List.length_append, ih, length_interleaved, List.length_cons, Nat.succ_mul,
      Nat.add_comm]

/-- The planes are written inside the frame iff no callback has more samples than it. -/
theorem written_run_iff (e : AudioEncoder) (cs : List (List Sample)) :
    (∀ i ∈ (run (encode frameSize channels) e cs).written, i < frameSize) ↔
      (∀ i ∈ e.written, i < frameSize) ∧
        ∀ c ∈ cs, nbSamples c.length channels ≤ frameSize := by
  induction cs generalizing e with
  | nil => exact (and_iff_left fun c hc => absurd hc List.not_mem_nil).symm
  | cons c cs ih =>
    rw [run_cons, ih, (encode_spec e c).2.1, List.forall_mem_append, List.forall_mem_cons,
      and_assoc]
    refine and_congr_right fun _ => and_congr_left fun _ => ?_
    constructor
    · intro h
      by_contra hlt
      have hmem : frameSize ∈ List.range (rounds c channels) := by
        rw [List.mem_range, rounds]
        omega
      exact absurd (h frameSize hmem) (Nat.lt_irrefl _)
    · intro h i hi
      rw [List.mem_range, rounds] at hi
      omega

/-- Callbacks of one frame each are submitted one after the other. -/
theorem frames_exact (hchannels : 0 < channels) (e : AudioEncoder) {cs : List (List Sample)}
    (h : ∀ c ∈ cs, nbSamples c.length channels = frameSize ∧ c.length = frameSize * channels) :
    frames frameSize channels e cs = cs.flatten := by
  induction cs generalizing e with
  | nil => rfl
  | cons c cs ih =>
    obtain ⟨⟨hn, hlen⟩, hcs⟩ := List.forall_mem_cons.mp h
    rw [frames, ih _ hcs, interleaved_encode hchannels e hn hlen.ge, ← hlen, List.take_length,
      List.flatten_cons]

theorem frames_append (e : AudioEncoder) (cs cs' : List (List Sample)) :
    frames frameSize channels e (cs ++ cs') = frames frameSize channels e cs ++
      frames frameSize channels (run (encode frameSize channels) e cs) cs' := by
  induction cs generalizing e with
  | nil => rfl
  | cons c cs ih =>
    rw [List.cons_append, frames, ih, frames, List.append_assoc, run_cons]

/-! ## Sizes -/

/-- `(int)samples / channels` is the frame size: the `int` has that many of each channel, and fewer
than one more. -/
theorem nbSamples_eq_iff (hframe : 0 < frameSize) (hchannels : 0 < channels) {size : Nat} :
    nbSamples size channels = frameSize ↔
      ((frameSize * channels : Nat) : Int) ≤ Int.bmod size (2 ^ 32) ∧
        Int.bmod size (2 ^ 32) < ((frameSize * channels + channels : Nat) : Int) := by
  unfold nbSamples
  generalize Int.bmod size (2 ^ 32) = samples
  have hpos : (0 : Int) < channels := by omega
  rcases Int.lt_or_le samples 0 with hneg | hnonneg
  · have hle : samples.tdiv channels ≤ 0 := by
      simpa only [Int.zero_tdiv] using Int.tdiv_le_tdiv hpos hneg.le
    refine iff_of_false (by omega) fun h => ?_
    exact absurd h.1 (by omega)
  · rw [Int.tdiv_eq_ediv_of_nonneg hnonneg]
    push_cast
    constructor
    · intro h
      have hdiv := Int.mul_ediv_add_emod samples channels
      have hmod := Int.emod_nonneg samples hpos.ne'
      have hlt := Int.emod_lt_of_pos samples hpos
      rw [h, Int.mul_comm] at hdiv
      omega
    · rintro ⟨hle, hlt⟩
      refine le_antisymm ?_ ((Int.le_ediv_iff_mul_le hpos).mpr hle)
      refine Int.lt_add_one_iff.mp ((Int.ediv_lt_iff_lt_mul hpos).mpr ?_)
      rwa [Int.add_mul, Int.one_mul]

theorem bmod_le (size : Nat) : Int.bmod size (2 ^ 32) ≤ size := by
  rw [Int.bmod_def]
  split <;> omega

/-- A frame fits the callback that has its number of samples. -/
theorem le_of_nbSamples (hframe : 0 < frameSize) (hchannels : 0 < channels) {size : Nat}
    (h : nbSamples size channels = frameSize) : frameSize * channels ≤ size := by
  have hle := ((nbSamples_eq_iff hframe hchannels).mp h).1.trans (bmod_le size)
  exact Int.ofNat_le.mp hle

/-- Less than a second frame fits, so less than one sample of each channel is left over. -/
theorem lt_of_nbSamples (hframe : 0 < frameSize) (hchannels : 0 < channels) {size : Nat}
    (h : nbSamples size channels = frameSize) (hlt : size < 2 * (frameSize * channels)) :
    size < frameSize * channels + channels := by
  obtain ⟨hle, hlt'⟩ := (nbSamples_eq_iff hframe hchannels).mp h
  generalize frameSize * channels = total at *
  rw [Int.bmod_def] at hle hlt'
  split at hle <;> omega

theorem submitted_encodeAll (data : Nat → Nat → Sample) (captured : List (List Sample)) :
    (encodeAll frameSize channels data captured).submitted =
      frames frameSize channels (start data) captured := by
  rw [encodeAll, submitted_run]
  rfl

/-- Callbacks of one frame each, the last one with a rest. -/
theorem submittedUnchanged_of_oneFrameEach (hframe : 0 < frameSize) (hchannels : 0 < channels)
    {sizes : List Nat} (h : OneFrameEach frameSize channels sizes) :
    SubmittedUnchanged frameSize channels sizes := by
  rintro captured rfl data
  have hwritten : ∀ i ∈ (encodeAll frameSize channels data captured).written, i < frameSize := by
    rw [encodeAll, written_run_iff]
    refine ⟨fun i hi => absurd hi List.not_mem_nil, fun c hc => ?_⟩
    obtain ⟨before, after, rfl⟩ := List.append_of_mem hc
    rw [List.map_append, List.map_cons] at h
    exact (h _ _ _ rfl).1.le
  rcases List.eq_nil_or_concat captured with rfl | ⟨before, last, rfl⟩
  · refine ⟨hwritten, List.nil_prefix, ?_⟩
    exact Nat.add_pos_right _ (Nat.mul_pos hframe hchannels)
  have hbefore : ∀ c ∈ before,
      nbSamples c.length channels = frameSize ∧ c.length = frameSize * channels := by
    intro c hc
    obtain ⟨l, r, rfl⟩ := List.append_of_mem hc
    have hc' := h (l.map List.length) c.length (r.map List.length ++ [last.length]) (by simp)
    exact ⟨hc'.1, hc'.2.2 (by simp)⟩
  obtain ⟨hlast, hlt, -⟩ := h (before.map List.length) last.length [] (by simp)
  have hle := le_of_nbSamples hframe hchannels hlast
  have hsubmitted : (encodeAll frameSize channels data (before ++ [last])).submitted =
      before.flatten ++ last.take (frameSize * channels) := by
    rw [submitted_encodeAll, frames_append, frames_exact hchannels _ hbefore, frames, frames,
      List.append_nil, interleaved_encode hchannels _ hlast hle]
  have hflatten : (before ++ [last]).flatten = before.flatten ++ last := by simp
  rw [List.concat_eq_append] at hwritten ⊢
  refine ⟨hwritten, ?_, ?_⟩
  · rw [hsubmitted, hflatten]
    exact List.prefix_append_right_inj _ |>.mpr (List.take_prefix _ _)
  · rw [hsubmitted, hflatten, List.length_append, List.length_append, List.length_take,
      Nat.min_eq_left hle]
    have hone : channels ≤ frameSize * channels := Nat.le_mul_of_pos_left channels hframe
    omega

/-! ## Sizes that are not submitted unchanged -/

/-- Silent callbacks leave a silent buffer silent. -/
theorem data_run_zero (e : AudioEncoder) (he : ∀ ch k, e.data ch k = 0) {cs : List (List Sample)}
    (h : ∀ c ∈ cs, ∀ v ∈ c, v = 0) (ch k : Nat) :
    (run (encode frameSize channels) e cs).data ch k = 0 := by
  induction cs generalizing e with
  | nil => exact he ch k
  | cons first cs ih =>
    obtain ⟨hfirst, hcs⟩ := List.forall_mem_cons.mp h
    rw [run_cons]
    refine ih _ (fun ch k => ?_) hcs
    rw [(encode_spec e first).1]
    split
    · rw [List.getD_eq_getElem?_getD]
      cases hget : first[k * channels + ch]? with
      | none => rfl
      | some v => exact hfirst v (List.mem_of_getElem? hget)
    · exact he ch k

/-- After callbacks of one frame each, the next frames continue the samples they come from. -/
theorem frames_prefix {data : Nat → Nat → Sample} {before rest : List (List Sample)}
    (hbefore : ∀ c ∈ before,
      nbSamples c.length channels = frameSize ∧ c.length = frameSize * channels)
    (hchannels : 0 < channels)
    (h : (encodeAll frameSize channels data (before ++ rest)).submitted <+:
      (before ++ rest).flatten) :
    frames frameSize channels (encodeAll frameSize channels data before) rest <+:
      rest.flatten := by
  rw [submitted_encodeAll, frames_append, frames_exact hchannels _ hbefore,
    List.flatten_append] at h
  exact (List.prefix_append_right_inj _).mp h

theorem getElem?_mono {l l' : List Sample} (h : l <+: l') {k : Nat} {v : Sample}
    (hk : l[k]? = some v) : l'[k]? = some v := by
  obtain ⟨more, rfl⟩ := h
  rwa [List.getElem?_append_left (List.getElem?_eq_some_iff.mp hk).1]

/-- Callbacks with these samples, each of its size. -/
def constant (sizes : List Nat) (v : Sample) : List (List Sample) :=
  sizes.map fun n => List.replicate n v

theorem map_length_constant (sizes : List Nat) (v : Sample) :
    (constant sizes v).map List.length = sizes := by
  simp [constant, Function.comp_def]

theorem eq_of_mem_constant {sizes : List Nat} {v w : Sample} :
    ∀ c ∈ constant sizes v, w ∈ c → w = v := by
  intro c hc hw
  obtain ⟨n, -, rfl⟩ := List.mem_map.mp hc
  exact List.eq_of_mem_replicate hw

section
variable {before after : List Nat} {size : Nat} (hframe : 0 < frameSize) (hchannels : 0 < channels)
  (h : SubmittedUnchanged frameSize channels (before ++ size :: after))
  (hbefore : ∀ n ∈ before, nbSamples n channels = frameSize ∧ n = frameSize * channels)

include h in
/-- A longer callback is written past the frame. -/
theorem nbSamples_le : nbSamples size channels ≤ frameSize := by
  have hinside := (h (constant (before ++ size :: after) 0) (map_length_constant _ _)
    fun _ _ => 0).inside
  rw [encodeAll, written_run_iff] at hinside
  have hc := hinside.2 (List.replicate size 0) (List.mem_map_of_mem (by simp))
  rwa [List.length_replicate] at hc

include hbefore in
theorem oneFrame_constant : ∀ c ∈ constant before 0,
    nbSamples c.length channels = frameSize ∧ c.length = frameSize * channels := by
  intro c hc
  obtain ⟨n, hn, rfl⟩ := List.mem_map.mp hc
  rw [List.length_replicate]
  exact hbefore n hn

include hframe hchannels h hbefore in
/-- A shorter callback leaves the end of the frame as it was: a silent end, when only later samples
are loud. -/
theorem nbSamples_ge : (frameSize : Int) ≤ nbSamples size channels := by
  by_contra hlt
  have hprefix := frames_prefix (oneFrame_constant hbefore) hchannels
    (h (constant before 0 ++ constant (size :: after) 1)
      (by rw [List.map_append, map_length_constant, map_length_constant]) fun _ _ => 0).inOrder
  have hsilent : ∀ ch k,
      (encodeAll frameSize channels (fun _ _ => 0) (constant before 0)).data ch k = 0 :=
    data_run_zero _ (fun _ _ => rfl) fun c hc v hv => eq_of_mem_constant c hc hv
  generalize encodeAll frameSize channels (fun _ _ => 0) (constant before 0) = e at hprefix hsilent
  have htotal : frameSize * channels - 1 < frameSize * channels :=
    Nat.sub_lt (Nat.mul_pos hframe hchannels) Nat.one_pos
  -- the last sample of the frame
  have hlast : (frameSize * channels - 1) / channels = frameSize - 1 := by
    obtain ⟨f, rfl⟩ := Nat.exists_eq_add_of_lt hframe
    have hsplit : (0 + f + 1) * channels - 1 = channels * f + (channels - 1) := by
      rw [Nat.zero_add, Nat.succ_mul, Nat.mul_comm]
      omega
    rw [hsplit, Nat.mul_add_div hchannels, Nat.div_eq_of_lt (by omega)]
    omega
  have hzero : (frames frameSize channels e (constant (size :: after) 1))[
      frameSize * channels - 1]? = some 0 := by
    have hcons : constant (size :: after) 1 = List.replicate size 1 :: constant after 1 := rfl
    rw [hcons, frames, List.getElem?_append_left (by simpa using htotal),
      getElem?_interleaved _ htotal, (encode_spec e _).1, hlast, if_neg, hsilent]
    rintro ⟨hround, -⟩
    rw [rounds, List.length_replicate] at hround
    omega
  have hmem := List.mem_of_getElem? (getElem?_mono hprefix hzero)
  obtain ⟨c, hc, hmem⟩ := List.mem_flatten.mp hmem
  exact absurd (eq_of_mem_constant c hc hmem) (by decide)

include hframe hchannels h hbefore in
/-- What is left over of a callback is missing from the next frame. -/
theorem size_eq_of_next (hn : nbSamples size channels = frameSize) (hafter : after ≠ []) :
    size = frameSize * channels := by
  obtain ⟨next, after, rfl⟩ := List.exists_cons_of_ne_nil hafter
  refine le_antisymm (Nat.not_lt.mp fun hlong => ?_) (le_of_nbSamples hframe hchannels hn)
  have htotal := Nat.mul_pos hframe hchannels
  -- only the sample that is left over first, and those behind it, are loud
  let loud : List Sample := List.replicate (frameSize * channels) 0 ++
    List.replicate (size - frameSize * channels) 1
  have hlength : loud.length = size := by
    simp only [loud, List.length_append, List.length_replicate]
    omega
  have hprefix := frames_prefix (oneFrame_constant hbefore) hchannels
    (h (constant before 0 ++ loud :: constant (next :: after) 0)
      (by rw [List.map_append, List.map_cons, map_length_constant, map_length_constant, hlength])
      fun _ _ => 0).inOrder
  have hsilent : ∀ ch k,
      (encodeAll frameSize channels (fun _ _ => 0) (constant before 0)).data ch k = 0 :=
    data_run_zero _ (fun _ _ => rfl) fun c hc v hv => eq_of_mem_constant c hc hv
  generalize encodeAll frameSize channels (fun _ _ => 0) (constant before 0) = e at hprefix hsilent
  have hfirst : (encode frameSize channels e loud).data 0 0 = 0 := by
    rw [(encode_spec e loud).1]
    split
    · rw [Nat.zero_mul, Nat.add_zero, List.getD_eq_getElem?_getD,
        List.getElem?_append_left (by simpa using htotal), List.getElem?_replicate]
      split <;> rfl
    · exact hsilent 0 0
  have hnext : (encode frameSize channels (encode frameSize channels e loud)
      (List.replicate next 0)).data 0 0 = 0 := by
    rw [(encode_spec _ _).1]
    split
    · rw [List.getD_eq_getElem?_getD, List.getElem?_replicate]
      split <;> rfl
    · exact hfirst
  have hzero : (frames frameSize channels e (loud :: constant (next :: after) 0))[
      frameSize * channels]? = some 0 := by
    have hcons : constant (next :: after) 0 = List.replicate next 0 :: constant after 0 := rfl
    rw [frames, List.getElem?_append_right (by simp), length_interleaved, Nat.sub_self, hcons,
      frames, List.getElem?_append_left (by simpa using htotal), getElem?_interleaved _ htotal,
      Nat.zero_mod, Nat.zero_div, hnext]
  have hone : ((loud :: constant (next :: after) 0).flatten)[frameSize * channels]? = some 1 := by
    rw [List.flatten_cons, List.getElem?_append_left (by rw [hlength]; exact hlong),
      List.getElem?_append_right (by simp), List.length_replicate, Nat.sub_self,
      List.getElem?_replicate, if_pos (by omega)]
  rw [getElem?_mono hprefix hzero] at hone
  exact absurd hone (by decide)

include hframe hchannels h hbefore in
/-- What comes after callbacks of one frame each. -/
theorem oneFrame_next : nbSamples size channels = frameSize ∧
    size < frameSize * channels + channels ∧ (after ≠ [] → size = frameSize * channels) := by
  have hn := le_antisymm (nbSamples_le h) (nbSamples_ge hframe hchannels h hbefore)
  have hafter := size_eq_of_next hframe hchannels h hbefore hn
  refine ⟨hn, ?_, hafter⟩
  by_cases hnil : after = []
  · subst hnil
    have hheld := (h (constant (before ++ [size]) 0) (map_length_constant _ _)
      fun _ _ => 0).heldBack
    have hbefore' : before.sum = before.length * (frameSize * channels) := by
      rw [← List.sum_replicate_nat, ← List.eq_replicate_of_mem fun n hn => (hbefore n hn).2]
    have hsum : (constant (before ++ [size]) 0).flatten.length =
        before.length * (frameSize * channels) + size := by
      rw [List.length_flatten, map_length_constant, List.sum_append, hbefore',
        List.sum_singleton]
    rw [submitted_encodeAll, length_frames, hsum] at hheld
    refine lt_of_nbSamples hframe hchannels hn ?_
    have hcount : (constant (before ++ [size]) 0).length = before.length + 1 := by
      simp [constant]
    rw [hcount, Nat.succ_mul] at hheld
    omega
  · rw [hafter hnil]
    omega

end

/-- **Captured audio** is submitted unchanged, whatever its samples, exactly when each callback has
one frame of samples. -/
theorem submittedUnchanged_iff (hframe : 0 < frameSize) (channels : Int) (sizes : List Nat) :
    SubmittedUnchanged frameSize (nbChannels channels) sizes ↔
      OneFrameEach frameSize (nbChannels channels) sizes := by
  have hchannels : 0 < nbChannels channels := by
    unfold nbChannels
    split <;> decide
  refine ⟨fun h => ?_, submittedUnchanged_of_oneFrameEach hframe hchannels⟩
  intro before
  induction hlen : before.length using Nat.strong_induction_on generalizing before with
  | _ n ih =>
    rintro size after rfl
    refine oneFrame_next hframe hchannels h fun m hm => ?_
    obtain ⟨l, r, rfl⟩ := List.append_of_mem hm
    have hm' := ih l.length (by rw [← hlen]; simp) l rfl m (r ++ size :: after) (by simp)
    exact ⟨hm'.1, hm'.2.2 (by simp)⟩

/-- Two callbacks of 20 ms, the frame of the codec. -/
theorem submittedUnchanged_twoFrames :
    SubmittedUnchanged 960 (nbChannels 2) [1920, 1920] := by
  refine (submittedUnchanged_iff (by decide) 2 [1920, 1920]).mpr ?_
  rintro (_ | ⟨a, _ | ⟨b, before⟩⟩) size after heq
  · cases heq
    decide
  · cases heq
    decide
  · simp at heq

/-- One callback of 10 ms: half of the frame submitted was never captured. -/
theorem short_callback_changed : ¬ SubmittedUnchanged 960 (nbChannels 2) [960] := by
  intro h
  have hheld := (h (constant [960] 0) (map_length_constant _ _) fun _ _ => 0).inOrder.length_le
  rw [submitted_encodeAll, length_frames, List.length_flatten, map_length_constant] at hheld
  exact absurd hheld (by decide)

end AudioEncoder

end RemotePlay.Host
