import RemotePlay.Client.JitterRange

/-!
# Keyframe recovery

Before it drains the receiver, the client loop looks for the newest complete
keyframe in the ring and skips to it, in four calls that lock one after the
other; the network thread goes on in between. The scan starts at the read
pointer and does not ask whether the frame there is blocked, nor does
`ForceAdvanceTo`, so the step throws away complete frames whenever a keyframe
has completed behind them. `skipsOnlyBlocked_iff` says when it does not.
-/

namespace RemotePlay.Client

open Lib Protocol

namespace Receiver

/-- There is a complete keyframe of this id. -/
def KeyframeAt (r : Receiver) (fid : UInt32) : Prop :=
  ∃ f, r.frameAt fid = some f ∧ f.isComplete = true ∧ f.isKeyframe = true

/-- The newest complete keyframe of the `n` ids from the read pointer on is the one `i` ahead. -/
def NewestKeyframe (r : Receiver) (n i : Nat) : Prop :=
  i < n ∧ r.KeyframeAt (r.nextFrameIdToRead + UInt32.ofNat i) ∧
    ∀ k, i < k → k < n → ¬ r.KeyframeAt (r.nextFrameIdToRead + UInt32.ofNat k)

/-- The frame at the read pointer is missing or incomplete. -/
def Blocked (r : Receiver) : Prop :=
  ∀ f, r.frameAt r.nextFrameIdToRead = some f → f.isComplete = false

variable {r : Receiver}

/-- A round of the scan. -/
theorem scanKeyframes_succ (r : Receiver) (n : Nat) :
    (r.KeyframeAt (r.nextFrameIdToRead + UInt32.ofNat n) ∧
      r.scanKeyframes (n + 1) = some (r.nextFrameIdToRead + UInt32.ofNat n)) ∨
    (¬ r.KeyframeAt (r.nextFrameIdToRead + UInt32.ofNat n) ∧
      r.scanKeyframes (n + 1) = r.scanKeyframes n) := by
  simp only [scanKeyframes]
  cases hf : r.frameAt (r.nextFrameIdToRead + UInt32.ofNat n) with
  | none =>
    refine .inr ⟨?_, rfl⟩
    rintro ⟨f, hf', -⟩
    rw [hf] at hf'
    cases hf'
  | some f =>
    by_cases hc : (f.isComplete && f.isKeyframe) = true
    · have hkey := Bool.and_eq_true_iff.mp hc
      exact .inl ⟨⟨f, hf, hkey.1, hkey.2⟩, if_pos hc⟩
    · refine .inr ⟨?_, if_neg hc⟩
      rintro ⟨f', hf', hkey⟩
      rw [hf] at hf'
      cases hf'
      exact hc (Bool.and_eq_true_iff.mpr hkey)

/-- The scan finds the newest complete keyframe. -/
theorem scanKeyframes_eq_some {n : Nat} {fid : UInt32} : r.scanKeyframes n = some fid ↔
    ∃ i, r.NewestKeyframe n i ∧ fid = r.nextFrameIdToRead + UInt32.ofNat i := by
  induction n with
  | zero =>
    refine iff_of_false (by simp [scanKeyframes]) ?_
    rintro ⟨i, ⟨hi, -⟩, -⟩
    omega
  | succ n ih =>
    rcases r.scanKeyframes_succ n with ⟨hkey, heq⟩ | ⟨hnone, heq⟩ <;> rw [heq]
    · constructor
      · intro h
        exact ⟨n, ⟨Nat.lt_succ_self n, hkey, fun k h1 h2 => by omega⟩, (Option.some.inj h).symm⟩
      · rintro ⟨i, ⟨hi, -, hlast⟩, rfl⟩
        rcases Nat.eq_or_lt_of_le (Nat.le_of_lt_succ hi) with rfl | hlt
        · rfl
        · exact absurd hkey (hlast n hlt (Nat.lt_succ_self n))
    · rw [ih]
      constructor
      · rintro ⟨i, ⟨hi, hkey, hlast⟩, rfl⟩
        refine ⟨i, ⟨by omega, hkey, fun k h1 h2 => ?_⟩, rfl⟩
        rcases Nat.eq_or_lt_of_le (Nat.le_of_lt_succ h2) with rfl | hlt
        · exact hnone
        · exact hlast k h1 hlt
      · rintro ⟨i, ⟨hi, hkey, hlast⟩, rfl⟩
        refine ⟨i, ⟨?_, hkey, fun k h1 h2 => hlast k h1 (by omega)⟩, rfl⟩
        rcases Nat.eq_or_lt_of_le (Nat.le_of_lt_succ hi) with rfl | hlt
        · exact absurd hkey hnone
        · exact hlt

/-- There are no frames before the first keyframe. -/
def Idle (r : Receiver) : Prop := r.firstFrameReceived = false → ∀ i, r.frameRing.get i = none

theorem idle_init (poolSize : Nat) : (init poolSize).Idle := fun _ _ => rfl

/-- A scan that finds a keyframe finds it in a receiver that has started. -/
theorem Idle.started_of_found (h : r.Idle) (hfound : r.findLatestAvailableKeyframe > 0) :
    r.firstFrameReceived = true := by
  unfold findLatestAvailableKeyframe at hfound
  cases hscan : r.scanKeyframes 64 with
  | none =>
    rw [hscan] at hfound
    exact absurd hfound (by decide)
  | some fid =>
    obtain ⟨i, ⟨-, ⟨f, hf, -, -⟩, -⟩, -⟩ := scanKeyframes_eq_some.mp hscan
    cases hs : r.firstFrameReceived with
    | true => rfl
    | false =>
      have hget := (frameAt_eq_some.mp hf).1
      rw [h hs] at hget
      cases hget

/-- Fewer frames, the same reader. -/
theorem Idle.subset {r' : Receiver} (h : r.Idle)
    (hstarted : r'.firstFrameReceived = r.firstFrameReceived)
    (hring : ∀ i f, r'.frameRing.get i = some f → r.frameRing.get i = some f) : r'.Idle := by
  intro hs i
  cases hf : r'.frameRing.get i with
  | none => rfl
  | some f =>
    have hget := hring i f hf
    rw [h (hstarted ▸ hs) i] at hget
    cases hget

theorem Idle.processPacket (h : r.Idle) (header : VideoHeader) (payload : Mem) (nowUs : UInt64) :
    (r.processPacket header payload nowUs).Idle := by
  cases hgate : r.gate header with
  | none =>
    rw [processPacket_gate_none hgate]
    exact h
  | some r' =>
    rw [processPacket_gate hgate]
    have hs := (gate_some hgate).1
    intro hno
    rw [(sameReader_processPacket hs header payload nowUs).firstFrameReceived, hs] at hno
    cases hno

theorem Idle.forceAdvanceTo (h : r.Idle) (frameId : UInt32) : (r.forceAdvanceTo frameId).Idle := by
  rcases r.forceAdvanceTo_cases frameId with ⟨-, heq⟩ | ⟨-, r', hd, heq⟩ <;> rw [heq]
  · exact h
  · exact h.subset hd.same.firstFrameReceived hd.ring

theorem Idle.getNextFrame (h : r.Idle) : r.getNextFrame.2.Idle := by
  rcases r.getNextFrame_cases with heq | ⟨f, -, -, heq⟩ <;> rw [heq]
  · exact h
  · refine h.subset rfl fun i g hg => ?_
    rcases FixedRingBuffer.get_insert_cases hg with hg | hg
    · cases hg
    · exact hg

theorem Idle.returnToPool (h : r.Idle) (f : FrameData) : (r.returnToPool f).Idle :=
  h.subset (r.framesOnly_returnToPool f).toSameReader.firstFrameReceived fun i g hg => by
    rwa [frameRing_returnToPool] at hg

/-- The frame at the pointer is not in the ring after an advance. -/
theorem forceAdvanceTo_gone (hslots : r.InSlots) {f : FrameData}
    (hf : r.frameAt r.nextFrameIdToRead = some f) {frameId : UInt32}
    (hlt : r.nextFrameIdToRead < frameId) (i : UInt32) :
    (r.forceAdvanceTo frameId).frameRing.get i ≠ some f := by
  intro hget
  have hle : ¬ frameId ≤ r.nextFrameIdToRead := by
    rw [UInt32.lt_iff_toNat_lt] at hlt
    rw [UInt32.le_iff_toNat_le]
    omega
  have hid := (frameAt_eq_some.mp hf).2
  have hat := (hslots.forceAdvanceTo frameId).frameAt (Nat.mod_lt i.toNat (by omega)) hget
  have hgone : (r.forceAdvanceTo frameId).frameAt r.nextFrameIdToRead = none := by
    unfold forceAdvanceTo
    rw [if_neg hle]
    have hcount : (frameId - r.nextFrameIdToRead).toNat =
        frameId.toNat - r.nextFrameIdToRead.toNat :=
      UInt32.toNat_sub_of_le _ _ (UInt32.le_of_lt hlt)
    rw [UInt32.lt_iff_toNat_lt] at hlt
    exact dropFrames_gone (UInt32.le_refl _) (by omega)
  rw [hid, hgone] at hat
  cases hat

end Receiver

namespace Playback

/-! ## The recovery step -/

/-- A step from `s` to `s'` throws `f` out of one of the rings. (A recovery moves no frame from one
to the other.) -/
def Discards (s s' : Playback) (f : FrameData) : Prop :=
  ((∃ i, s.receiver.frameRing.get i = some f) ∧ ∀ i, s'.receiver.frameRing.get i ≠ some f) ∨
    (∃ i, s.jitterBuffer.ring.get i = some f) ∧ ∀ i, s'.jitterBuffer.ring.get i ≠ some f

/-- A step of a recovery to `latest` only skips what is blocked in the receiver `r` that it finds. -/
structure SkipsOnlyBlocked (r : Receiver) (latest : UInt32) (s s' : Playback) : Prop where
  blocked : ∀ f, Discards s s' f → r.Blocked
  /-- Complete frames up to the keyframe are kept, and so are those in the jitter buffer. -/
  healthy : (∀ fid, r.nextFrameIdToRead ≤ fid → fid < latest →
    ∃ f, r.frameAt fid = some f ∧ f.isComplete = true) → ∀ f, ¬ Discards s s' f

/-- The receiver as the last `ForceAdvanceTo` found it. -/
def noteFound (s : Playback) (e : PlaybackEvent) (found : Receiver) : Receiver :=
  match e, s.pc with
  | .loop _ _, .advance _ => s.receiver
  | _, _ => found

/-- The four calls of a recovery: the first two throw nothing away, the others only skip what is
blocked in the receiver that `ForceAdvanceTo` finds. -/
def Recovers (x : Playback × Receiver) (e : PlaybackEvent) : Prop :=
  match e, x.1.pc with
  | .loop _ _, .findKeyframe => ∀ f, ¬ Discards x.1 (x.1.step e) f
  | .loop _ _, .checkKeyframe _ => ∀ f, ¬ Discards x.1 (x.1.step e) f
  | .loop _ _, .advance latest => SkipsOnlyBlocked x.1.receiver latest x.1 (x.1.step e)
  | .loop _ _, .resetJitter latest => SkipsOnlyBlocked x.2 latest x.1 (x.1.step e)
  | _, _ => True

/-- When the loop comes to `ForceAdvanceTo`, the frame at the read pointer is missing or
incomplete. -/
def AdvancesBlocked (s : Playback) (e : PlaybackEvent) : Prop :=
  match e, s.pc with
  | .loop _ _, .advance _ => s.receiver.Blocked
  | _, _ => True

/-! ## Along the loop -/

theorem inSlots_step (s : Playback) (e : PlaybackEvent) (h : s.receiver.InSlots) :
    (s.step e).receiver.InSlots := by
  have hreturn : ∀ f, (s.receiver.returnToPool f).InSlots := fun f => by
    unfold Receiver.InSlots
    rw [Receiver.frameRing_returnToPool]
    exact h
  cases e with
  | packet header payload nowUs => exact h.processPacket header payload nowUs
  | loop syncTimeUs now =>
    simp only [step]
    split
    · exact hreturn _
    unfold loopStep
    split
    · exact h
    · split <;> exact h
    · exact h.forceAdvanceTo _
    · exact h
    · exact h.getNextFrame
    · exact h
    · split <;> exact h
    · exact hreturn _

theorem idle_step (s : Playback) (e : PlaybackEvent) (h : s.receiver.Idle) :
    (s.step e).receiver.Idle := by
  cases e with
  | packet header payload nowUs => exact h.processPacket header payload nowUs
  | loop syncTimeUs now =>
    simp only [step]
    split
    · exact h.returnToPool _
    unfold loopStep
    split
    · exact h
    · split <;> exact h
    · exact h.forceAdvanceTo _
    · exact h
    · exact h.getNextFrame
    · exact h
    · split <;> exact h
    · exact h.returnToPool _

/-- What the loop knows of the receiver, and of the one that `ForceAdvanceTo` found, at its
position. -/
def FoundAt (r found : Receiver) : LoopPc → Prop
  | .checkKeyframe latest => latest > 0 → r.firstFrameReceived = true
  | .advance latest => r.firstFrameReceived = true ∧ r.nextFrameIdToRead < latest
  | .resetJitter latest => found.Blocked ∧ found.nextFrameIdToRead < latest
  | _ => True

structure Recovering (x : Playback × Receiver) : Prop where
  slots : x.1.receiver.InSlots
  idle : x.1.receiver.Idle
  found : FoundAt x.1.receiver x.2 x.1.pc
  /-- The deleters run before the drain goes on. -/
  settled : x.1.dropped ≠ [] → x.1.pc = .drain

theorem recovering_init (poolSize : Nat) : Recovering (init poolSize, .init poolSize) :=
  ⟨(Receiver.ahead_init poolSize).slots, Receiver.idle_init poolSize, trivial,
    fun h => absurd rfl h⟩

variable {s : Playback} {found : Receiver}

/-- A packet moves the read pointer only before the receiver has started. -/
theorem FoundAt.packet {pc : LoopPc} (h : FoundAt s.receiver found pc) (header : VideoHeader)
    (payload : Mem) (nowUs : UInt64) :
    FoundAt (s.receiver.processPacket header payload nowUs) found pc := by
  have hsame : s.receiver.firstFrameReceived = true →
      (s.receiver.processPacket header payload nowUs).firstFrameReceived = true ∧
        (s.receiver.processPacket header payload nowUs).nextFrameIdToRead =
          s.receiver.nextFrameIdToRead := fun hs => by
    have hreader := Receiver.sameReader_processPacket hs header payload nowUs
    exact ⟨hreader.firstFrameReceived.trans hs, hreader.nextFrameIdToRead⟩
  cases pc with
  | checkKeyframe latest => exact fun hpos => (hsame (h hpos)).1
  | advance latest =>
    obtain ⟨hs, hlt⟩ := h
    exact ⟨(hsame hs).1, (hsame hs).2 ▸ hlt⟩
  | _ => exact h

/-- The loop gives a dropped frame back, or goes on. -/
theorem step_loop (syncTimeUs : UInt64) (now : Int) (h : s.dropped = []) :
    s.step (.loop syncTimeUs now) = s.loopStep syncTimeUs now := by
  rw [step, h]

theorem Recovering.dropped_nil {x : Playback × Receiver} (h : Recovering x)
    (hpc : x.1.pc ≠ .drain) : x.1.dropped = [] := by
  by_contra hne
  exact hpc (h.settled hne)

theorem foundAt_step {x : Playback × Receiver} (h : Recovering x) (e : PlaybackEvent)
    (hok : AdvancesBlocked x.1 e) :
    FoundAt (x.1.step e).receiver (noteFound x.1 e x.2) (x.1.step e).pc := by
  obtain ⟨s, found⟩ := x
  cases e with
  | packet header payload nowUs => exact h.found.packet header payload nowUs
  | loop syncTimeUs now =>
    change FoundAt (s.step _).receiver (noteFound s _ found) (s.step _).pc
    by_cases hdrain : s.pc = .drain
    · unfold step
      dsimp only
      split
      · rw [hdrain]
        trivial
      · unfold loopStep
        rw [hdrain]
        dsimp only
        split <;> trivial
    rw [step_loop syncTimeUs now (h.dropped_nil hdrain)]
    have hat := h.found
    cases hpc : s.pc with
    | findKeyframe =>
      unfold loopStep
      rw [hpc]
      exact h.idle.started_of_found
    | checkKeyframe latest =>
      rw [hpc] at hat
      unfold loopStep
      rw [hpc]
      dsimp only
      split
      · next hahead => exact ⟨hat hahead.1, hahead.2⟩
      · trivial
    | advance latest =>
      simp only [AdvancesBlocked, hpc] at hok
      rw [hpc] at hat
      unfold loopStep noteFound
      rw [hpc]
      exact ⟨hok, hat.2⟩
    | pop =>
      unfold loopStep
      rw [hpc]
      dsimp only
      split <;> trivial
    | drain => exact absurd hpc hdrain
    | _ =>
      unfold loopStep
      rw [hpc]
      trivial

/-- Only `Reset` and a push to the jitter buffer drop frames, and the drain follows both. -/
theorem settled_step {x : Playback × Receiver} (h : Recovering x) (e : PlaybackEvent) :
    (x.1.step e).dropped ≠ [] → (x.1.step e).pc = .drain := by
  obtain ⟨s, found⟩ := x
  cases e with
  | packet header payload nowUs => exact h.settled
  | loop syncTimeUs now =>
    change (s.step _).dropped ≠ [] → (s.step _).pc = .drain
    by_cases hdrain : s.pc = .drain
    · unfold step
      dsimp only
      split
      · exact fun _ => hdrain
      · next hnil =>
        unfold loopStep
        rw [hdrain]
        exact fun hne => absurd hnil hne
    have hnil := h.dropped_nil hdrain
    rw [step_loop syncTimeUs now hnil]
    cases hpc : s.pc with
    | checkKeyframe latest =>
      unfold loopStep
      rw [hpc]
      dsimp only
      split <;> exact fun hne => absurd hnil hne
    | resetJitter latest =>
      unfold loopStep
      rw [hpc]
      exact fun _ => rfl
    | push frame =>
      unfold loopStep
      rw [hpc]
      exact fun _ => rfl
    | pop =>
      unfold loopStep
      rw [hpc]
      dsimp only
      split <;> exact fun hne => absurd hnil hne
    | _ =>
      unfold loopStep
      rw [hpc]
      exact fun hne => absurd hnil hne

theorem recovering_step (x : Playback × Receiver) (e : PlaybackEvent) (h : Recovering x)
    (hok : AdvancesBlocked x.1 e) : Recovering (augment step noteFound x e) :=
  ⟨inSlots_step x.1 e h.slots, idle_step x.1 e h.idle, foundAt_step h e hok, settled_step h e⟩

/-! ## When it only skips what is blocked -/

theorem not_discards {s s' : Playback} (hring : s'.receiver.frameRing = s.receiver.frameRing)
    (hjitter : s'.jitterBuffer = s.jitterBuffer) (f : FrameData) : ¬ Discards s s' f := by
  rintro (⟨⟨i, hi⟩, hno⟩ | ⟨⟨i, hi⟩, hno⟩)
  · rw [hring] at hno
    exact hno i hi
  · rw [hjitter] at hno
    exact hno i hi

/-- `ForceAdvanceTo` throws away the frame at the read pointer. -/
theorem discards_pointer (hslots : s.receiver.InSlots) (hnil : s.dropped = []) {latest : UInt32}
    (hpc : s.pc = .advance latest) (hlt : s.receiver.nextFrameIdToRead < latest) {f : FrameData}
    (hf : s.receiver.frameAt s.receiver.nextFrameIdToRead = some f) (syncTimeUs : UInt64)
    (now : Int) : Discards s (s.step (.loop syncTimeUs now)) f := by
  refine .inl ⟨⟨_, (Receiver.frameAt_eq_some.mp hf).1⟩, ?_⟩
  rw [step_loop syncTimeUs now hnil, loopStep, hpc]
  exact Receiver.forceAdvanceTo_gone hslots hf hlt

/-- In a blocked receiver there is nothing a recovery has to keep. -/
theorem skipsOnlyBlocked_of_blocked {r : Receiver} {latest : UInt32} (h : r.Blocked)
    (hlt : r.nextFrameIdToRead < latest) (s s' : Playback) : SkipsOnlyBlocked r latest s s' := by
  refine ⟨fun _ _ => h, fun hcomplete => ?_⟩
  obtain ⟨f, hf, hc⟩ := hcomplete _ (UInt32.le_refl _) hlt
  rw [h f hf] at hc
  cases hc

/-- **One step** only skips what is blocked iff `ForceAdvanceTo` finds the pointer blocked. -/
theorem recovers_iff (x : Playback × Receiver) (e : PlaybackEvent) (h : Recovering x) :
    AdvancesBlocked x.1 e ↔ Recovers x e := by
  obtain ⟨s, found⟩ := x
  cases e with
  | packet header payload nowUs => exact Iff.rfl
  | loop syncTimeUs now =>
    have hat := h.found
    cases hpc : s.pc with
    | findKeyframe =>
      have hnil : s.dropped = [] := h.dropped_nil (by rw [hpc]; exact LoopPc.noConfusion)
      simp only [AdvancesBlocked, Recovers, hpc, true_iff]
      rw [step_loop syncTimeUs now hnil, loopStep, hpc]
      exact not_discards rfl rfl
    | checkKeyframe latest =>
      have hnil : s.dropped = [] := h.dropped_nil (by rw [hpc]; exact LoopPc.noConfusion)
      simp only [AdvancesBlocked, Recovers, hpc, true_iff]
      rw [step_loop syncTimeUs now hnil, loopStep, hpc]
      dsimp only
      split <;> exact not_discards rfl rfl
    | advance latest =>
      have hnil : s.dropped = [] := h.dropped_nil (by rw [hpc]; exact LoopPc.noConfusion)
      rw [hpc] at hat
      simp only [AdvancesBlocked, Recovers, hpc]
      constructor
      · exact fun hblocked => skipsOnlyBlocked_of_blocked hblocked hat.2 s _
      · intro hskips f hf
        exact hskips.blocked f (discards_pointer h.slots hnil hpc hat.2 hf syncTimeUs now) f hf
    | resetJitter latest =>
      rw [hpc] at hat
      simp only [AdvancesBlocked, Recovers, hpc, true_iff]
      exact skipsOnlyBlocked_of_blocked hat.1 hat.2 s _
    | _ => simp only [AdvancesBlocked, Recovers, hpc]

/-- **Keyframe recovery.** In every run of the two threads, the recoveries of the client loop only
skip what is blocked iff each time that the loop comes to `ForceAdvanceTo`, the frame at the read
pointer is missing or incomplete. -/
theorem skipsOnlyBlocked_iff (poolSize : Nat) (events : List PlaybackEvent) :
    Along (augment step noteFound) Recovers (init poolSize, .init poolSize) events ↔
      Along step AdvancesBlocked (init poolSize) events := by
  rw [← along_augment noteFound AdvancesBlocked (x := (init poolSize, .init poolSize))]
  exact (along_iff recovering_step recovers_iff (recovering_init poolSize) events).symm

/-- A frame of one fragment of one byte. -/
def wholeFrame (fid : UInt32) (keyframe : Bool) : PlaybackEvent :=
  .packet ⟨1, fid, 0, 1, 0, 0, 0, 0, if keyframe then 1 else 0, 1⟩ (fun _ => 0) 0

/-- Two keyframes and what lies between them arrive, and the loop comes to `ForceAdvanceTo`. -/
def healthyStream : List PlaybackEvent :=
  [wholeFrame 1 true, wholeFrame 2 false, wholeFrame 3 true, .loop 0 0, .loop 0 0]

theorem pc_healthyStream : (run step (init 30) healthyStream).pc = .advance 3 := rfl

/-- Three frames complete between two iterations, and the first two are thrown away. -/
theorem healthyStream_skipped : ¬ ∀ (poolSize : Nat) (events : List PlaybackEvent),
    Along (augment step noteFound) Recovers (init poolSize, .init poolSize) events := by
  intro h
  have hlast := along_iff_forall_split.mp (h 30 (healthyStream ++ [.loop 0 0])) healthyStream
    (.loop 0 0) [] rfl
  have hslots : (run step (init 30) healthyStream).receiver.InSlots :=
    run_invariant' inSlots_step (Receiver.ahead_init 30).slots healthyStream
  have hcomplete : ((run step (init 30) healthyStream).receiver.frameAt
      (run step (init 30) healthyStream).receiver.nextFrameIdToRead).map (·.isComplete) =
        some true := by decide +kernel
  have hlt : (run step (init 30) healthyStream).receiver.nextFrameIdToRead < 3 := by
    decide +kernel
  obtain ⟨f, hf, hc⟩ := Option.map_eq_some_iff.mp hcomplete
  simp only [Recovers, run_augment, pc_healthyStream] at hlast
  rw [hlast.blocked f (discards_pointer hslots rfl pc_healthyStream hlt hf 0 0) f hf] at hc
  cases hc

end Playback

end RemotePlay.Client
