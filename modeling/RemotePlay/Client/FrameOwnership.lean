import RemotePlay.Client.JitterBuffer
import RemotePlay.Client.ReceiverRing
import RemotePlay.Lib.Run

/-!
# Frame buffer ownership

The frames of `m_frameStorage` are known by their addresses. `Owns r out` says
that each of them is at one place: in the pool of `r`, in a slot of its ring,
or in `out`, which are the frames that handles own outside the receiver. Every
method is a rule for `Owns`; `FrameFlow` puts the receiver together with a
jitter buffer and the other handles, and carries the rules over its runs.
-/

namespace RemotePlay.Client

open Lib Protocol

/-- How often the frame at `addr` is in the list. -/
def copies (addr : Nat) (frames : List FrameData) : Nat := frames.countP (·.addr = addr)

@[simp] theorem copies_nil (a : Nat) : copies a [] = 0 := rfl

@[simp] theorem copies_append (a : Nat) (l l' : List FrameData) :
    copies a (l ++ l') = copies a l + copies a l' := List.countP_append

@[simp] theorem copies_cons (a : Nat) (f : FrameData) (l : List FrameData) :
    copies a (f :: l) = copies a l + if f.addr = a then 1 else 0 := by
  simp [copies, List.countP_cons]

theorem copies_insert {n : Nat} (hn : 0 < n) (a : Nat)
    (ring : FixedRingBuffer n (Option FrameData)) (i : UInt32) (v : Option FrameData) :
    copies a (ring.insert i v).occupants + copies a (ring.get i).toList =
      copies a ring.occupants + copies a v.toList :=
  ring.countP_insert _ hn i v

namespace Receiver

/-- Every frame of the storage is once in the pool, in the ring or in `out`, and no other is. -/
def Owns (r : Receiver) (out : List FrameData) : Prop :=
  ∀ a, copies a r.framePool + copies a r.frameRing.occupants + copies a out =
    if a < r.frameStorage then 1 else 0

variable {r r' : Receiver} {out : List FrameData}

theorem Owns.of_eq (h : Owns r out) {out' : List FrameData}
    (hout : ∀ a, copies a out' = copies a out) : Owns r out' := by
  intro a
  rw [hout a]
  exact h a

theorem copies_init (n a : Nat) :
    copies a ((List.range n).map FrameData.new).reverse = if a < n then 1 else 0 := by
  unfold copies
  rw [List.countP_reverse]
  induction n with
  | zero => rfl
  | succ n ih =>
    rw [List.range_succ, List.map_append, List.countP_append, ih]
    rcases Nat.lt_trichotomy a n with hlt | rfl | hgt
    · have hne : n ≠ a := by omega
      simp [FrameData.new, hlt, hne, Nat.lt_succ_of_lt hlt]
    · simp [FrameData.new]
    · have hne : n ≠ a := by omega
      simp [FrameData.new, hne, Nat.not_lt_of_gt hgt, show ¬ a < n + 1 by omega]

theorem owns_init (poolSize : Nat) : Owns (init poolSize) [] := by
  intro a
  show copies a ((List.range poolSize).map FrameData.new).reverse +
    copies a (⟨fun _ => none⟩ : FixedRingBuffer 64 (Option FrameData)).occupants + 0 = _
  rw [FixedRingBuffer.occupants_empty, copies_init]
  rfl

/-! ## One frame moved -/

/-- The frame from the pool, or a new one, is handed out. -/
theorem Owns.getFromPool (h : Owns r out) : Owns r.getFromPool.2 (r.getFromPool.1 :: out) := by
  intro a
  have ha := h a
  unfold Receiver.getFromPool
  cases hp : r.framePool with
  | nil =>
    simp only [hp, copies_nil, copies_cons, FrameData.new] at ha ⊢
    split at ha <;> split <;> split <;> omega
  | cons f rest =>
    simp only [hp, copies_cons] at ha ⊢
    omega

/-- A frame that is out is not in the pool, so it is put there. -/
theorem Owns.returnToPool {f : FrameData} (h : Owns r (f :: out)) : Owns (r.returnToPool f) out := by
  have hnew : ¬ r.framePool.any (·.addr = f.addr) = true := by
    intro hany
    have hpos : 0 < copies f.addr r.framePool :=
      List.countP_pos_iff.mpr (List.any_eq_true.mp hany)
    have hf := h f.addr
    rw [copies_cons, if_pos rfl] at hf
    split at hf <;> omega
  intro a
  have ha := h a
  unfold Receiver.returnToPool
  rw [if_neg hnew]
  simp only [copies_cons] at ha ⊢
  omega

/-- A frame goes into a slot, and what the slot had goes out. -/
theorem Owns.setSlot {i : UInt32} {v : Option FrameData} (h : Owns r (v.toList ++ out)) :
    Owns (r.setSlot i v) ((r.frameRing.get i).toList ++ out) := by
  intro a
  have ha := h a
  have hput := copies_insert (by omega) a r.frameRing i v
  rw [copies_append] at ha ⊢
  show copies a r.framePool + copies a (r.frameRing.insert i v).occupants + _ =
    if a < r.frameStorage then 1 else 0
  omega

theorem Owns.touches (h : Owns r out) {fid : UInt32} (ht : Touches fid r r') : Owns r' out := by
  intro a
  have ha := h a
  rw [ht.framePool, ht.frameStorage]
  rcases ht.frameRing with heq | ⟨f, g, hf, hgrow, heq⟩
  · rw [heq]
    exact ha
  · have hput := copies_insert (by omega) a r.frameRing fid (some g)
    rw [hf] at hput
    simp only [Option.toList_some, copies_cons, copies_nil, hgrow.addr] at hput
    rw [heq]
    omega

/-! ## ProcessPacket -/

theorem getFromPool_setSlot (r : Receiver) (i : UInt32) (v : Option FrameData) :
    (r.setSlot i v).getFromPool = (r.getFromPool.1, r.getFromPool.2.setSlot i v) := by
  unfold Receiver.getFromPool
  cases hp : r.framePool with
  | nil => simp only [Receiver.setSlot, hp]
  | cons f rest => simp only [Receiver.setSlot, hp]

theorem startFrame_setSlot (r : Receiver) (header : VideoHeader) (nowUs : UInt64)
    (v : Option FrameData) :
    (r.setSlot header.frameId v).startFrame header nowUs = r.startFrame header nowUs := by
  unfold Receiver.startFrame
  rw [getFromPool_setSlot]
  simp only [Receiver.setSlot, FixedRingBuffer.insert_insert]

theorem returnToPool_setSlot (r : Receiver) (f : FrameData) (i : UInt32) (v : Option FrameData) :
    (r.setSlot i v).returnToPool f = (r.returnToPool f).setSlot i v := by
  unfold Receiver.returnToPool Receiver.setSlot
  split <;> rfl

theorem Owns.startFrame (h : Owns r out) {header : VideoHeader}
    (hslot : r.frameRing.get header.frameId = none) (nowUs : UInt64) :
    Owns (r.startFrame header nowUs) out := by
  have hstarted : Owns r.getFromPool.2
      ((some (r.getFromPool.1.start header nowUs)).toList ++ out) :=
    h.getFromPool.of_eq fun a => by simp [FrameData.start_addr]
  have hset := hstarted.setSlot (i := header.frameId)
  rw [frameRing_getFromPool, hslot] at hset
  exact hset

/-- The frame of the slot goes back to the pool before the slot is written over. -/
theorem Owns.evict (h : Owns r out) {i : UInt32} {f : FrameData}
    (hf : r.frameRing.get i = some f) : Owns ((r.returnToPool f).setSlot i none) out := by
  have hout : Owns (r.setSlot i none) ([f] ++ out) := by
    have hset := Owns.setSlot (i := i) (v := none) h
    rwa [hf] at hset
  rw [← returnToPool_setSlot]
  exact hout.returnToPool

theorem Owns.ensureFrame (h : Owns r out) (header : VideoHeader) (nowUs : UInt64) :
    Owns (r.ensureFrame header nowUs) out := by
  unfold Receiver.ensureFrame
  cases hf : r.frameRing.get header.frameId with
  | none => exact h.startFrame hf nowUs
  | some old =>
    dsimp only
    split
    · rw [← startFrame_setSlot _ header nowUs none]
      refine (h.evict hf).startFrame ?_ nowUs
      rw [frameRing_setSlot, FixedRingBuffer.get_insert_self]
    · exact h

theorem Owns.gate (h : Owns r out) {header : VideoHeader} (hgate : r.gate header = some r') :
    Owns r' out := by
  unfold Receiver.gate at hgate
  split at hgate
  · cases hgate
    exact h
  · split at hgate
    · cases hgate
      exact h
    · cases hgate

theorem Owns.processPacket (h : Owns r out) (header : VideoHeader) (payload : Mem)
    (nowUs : UInt64) : Owns (r.processPacket header payload nowUs) out := by
  rcases processPacket_cases r header payload nowUs with ⟨-, heq⟩ | ⟨r', hgate, hcases⟩
  · rwa [heq]
  · rcases hcases with ⟨-, heq⟩ | ⟨-, ht⟩
    · rw [heq]
      exact h.gate hgate
    · exact ((h.gate hgate).ensureFrame header nowUs).touches ht

/-! ## The reading side -/

/-- The delivered frame is in the handle. -/
theorem Owns.getNextFrame (h : Owns r out) :
    Owns r.getNextFrame.2 (r.getNextFrame.1.toList ++ out) := by
  rcases getNextFrame_cases r with heq | ⟨f, hf, -, heq⟩
  · rw [heq]
    exact h
  · rw [heq]
    have hset := Owns.setSlot (i := r.nextFrameIdToRead) (v := none) h
    rw [(frameAt_eq_some.mp hf).1] at hset
    exact hset

theorem Owns.dropFrames (h : Owns r out) (fid : UInt32) (n : Nat) :
    Owns (r.dropFrames fid n) out := by
  induction n generalizing r fid with
  | zero => exact h
  | succ n ih =>
    unfold Receiver.dropFrames
    split
    · next f hf => exact ih (h.evict (frameAt_eq_some.mp hf).1) (fid + 1)
    · exact ih h (fid + 1)

theorem Owns.forceAdvanceTo (h : Owns r out) (frameId : UInt32) :
    Owns (r.forceAdvanceTo frameId) out := by
  unfold Receiver.forceAdvanceTo
  split
  · exact h
  · exact h.dropFrames r.nextFrameIdToRead _

/-- Handles that are destroyed give their frames back, one after the other. -/
def returnAll (r : Receiver) (frames : List FrameData) : Receiver := frames.foldl returnToPool r

theorem Owns.returnAll {frames : List FrameData} (h : Owns r (frames ++ out)) :
    Owns (r.returnAll frames) out := by
  induction frames generalizing r with
  | nil => exact h
  | cons f frames ih => exact ih h.returnToPool

end Receiver

/-! ## The jitter buffer -/

namespace JitterBuffer

/-! Each method keeps the frames it is given, returns them or drops them. -/

theorem countP_dropOldest (p : FrameData → Bool) (j : JitterBuffer) (rounds : Nat) :
    (j.dropOldest rounds).1.ring.occupants.countP p + (j.dropOldest rounds).2.countP p =
      j.ring.occupants.countP p := by
  induction rounds generalizing j with
  | zero => rfl
  | succ rounds ih =>
    unfold dropOldest
    cases ho : j.oldest 0xffffffff false 32 0 with
    | none => rfl
    | some oldestId =>
      have hrest := ih (j.dropFrame oldestId)
      have hdrop := j.ring.countP_insert p (by omega) oldestId none
      simp only [List.countP_append]
      change _ + (j.ring.get oldestId).toList.countP p = _ + 0 at hdrop
      change _ = (j.ring.insert oldestId none).occupants.countP p at hrest
      omega

/-- **PushFrame** keeps the pushed frame or drops it, with whatever else it drops. -/
theorem countP_pushFrame (p : FrameData → Bool) (j : JitterBuffer) (frame : FrameData)
    (now : Int) :
    (j.pushFrame frame now).1.ring.occupants.countP p + (j.pushFrame frame now).2.countP p =
      j.ring.occupants.countP p + [frame].countP p := by
  have hring : (j.firstPush frame).ring = j.ring := by
    unfold firstPush
    split <;> rfl
  unfold pushFrame
  dsimp only
  split
  · rw [hring]
  · have hest : ((j.firstPush frame).estimate now).ring = j.ring := hring
    split
    · rw [hest]
    · have hplace := j.ring.countP_insert p (by omega) frame.frameId (some frame)
      have hdrop := countP_dropOldest p (((j.firstPush frame).estimate now).place frame now)
        ((((j.firstPush frame).estimate now).place frame now).count.toNat - capacity.toNat)
      have hplaced : (((j.firstPush frame).estimate now).place frame now).ring =
          j.ring.insert frame.frameId (some frame) := by
        unfold place
        rw [hest]
      rw [hplaced] at hdrop
      simp only [hest, List.countP_append]
      simp only [Option.toList_some] at hplace
      omega

theorem countP_popFrame (p : FrameData → Bool) (j : JitterBuffer) (currentSyncTimeUs : UInt64)
    (now : Int) :
    (j.popFrame currentSyncTimeUs now).2.ring.occupants.countP p +
        (j.popFrame currentSyncTimeUs now).1.toList.countP p = j.ring.occupants.countP p := by
  unfold popFrame
  dsimp only
  split
  · cases hf : j.ring.get j.nextPopFrameId with
    | none => rfl
    | some frame =>
      dsimp only
      split
      · rfl
      · have htake := j.ring.countP_insert p (by omega) j.nextPopFrameId none
        rw [hf] at htake
        exact htake
  · rfl

theorem countP_clear (p : FrameData → Bool) (j : JitterBuffer) (n i : Nat) :
    (j.clear n i).1.ring.occupants.countP p + (j.clear n i).2.countP p =
      j.ring.occupants.countP p := by
  induction n generalizing j i with
  | zero => rfl
  | succ n ih =>
    unfold clear
    dsimp only
    rw [List.countP_append, Nat.add_left_comm, ih, Nat.add_comm]
    exact j.ring.countP_insert p (by omega) (j.nextPopFrameId + UInt32.ofNat i) none

theorem countP_reset (p : FrameData → Bool) (j : JitterBuffer) (nextExpectedId : UInt32) :
    (j.reset nextExpectedId).1.ring.occupants.countP p + (j.reset nextExpectedId).2.countP p =
      j.ring.occupants.countP p :=
  countP_clear p j 32 0

theorem copies_pushFrame (a : Nat) (j : JitterBuffer) (frame : FrameData) (now : Int) :
    copies a (j.pushFrame frame now).1.ring.occupants + copies a (j.pushFrame frame now).2 =
      copies a j.ring.occupants + copies a [frame] :=
  countP_pushFrame _ j frame now

theorem copies_popFrame (a : Nat) (j : JitterBuffer) (currentSyncTimeUs : UInt64) (now : Int) :
    copies a (j.popFrame currentSyncTimeUs now).2.ring.occupants +
        copies a (j.popFrame currentSyncTimeUs now).1.toList = copies a j.ring.occupants :=
  countP_popFrame _ j currentSyncTimeUs now

theorem copies_reset (a : Nat) (j : JitterBuffer) (nextExpectedId : UInt32) :
    copies a (j.reset nextExpectedId).1.ring.occupants + copies a (j.reset nextExpectedId).2 =
      copies a j.ring.occupants :=
  countP_reset _ j nextExpectedId

end JitterBuffer

/-! ## The receiver, the jitter buffer and the other handles -/

structure FrameFlow where
  receiver : Receiver
  jitter : JitterBuffer
  /-- The frames of the handles that are neither destroyed nor in the jitter buffer. -/
  held : List FrameData

inductive FrameCall where
  | processPacket (header : VideoHeader) (payload : Mem) (nowUs : UInt64)
  | processFEC (header : FECHeader) (payload : Mem)
  | getNextFrame
  | findLatestAvailableKeyframe
  | forceAdvanceTo (frameId : UInt32)
  | validateSequence (seq : UInt64)
  /-- The handle at `i` of `held` is destroyed. -/
  | drop (i : Nat)
  /-- The handle at `i` of `held` is moved to the jitter buffer. -/
  | pushFrame (i : Nat) (now : Int)
  | popFrame (currentSyncTimeUs : UInt64) (now : Int)
  | reset (nextExpectedId : UInt32)

namespace FrameFlow

def init (poolSize : Nat) (maxFrames : UInt64) : FrameFlow :=
  ⟨.init poolSize, .init maxFrames, []⟩

def step (s : FrameFlow) : FrameCall → FrameFlow
  | .processPacket header payload nowUs =>
    { s with receiver := s.receiver.processPacket header payload nowUs }
  | .processFEC header payload => { s with receiver := s.receiver.processFEC header payload }
  | .getNextFrame =>
    { s with
      receiver := s.receiver.getNextFrame.2
      held := s.receiver.getNextFrame.1.toList ++ s.held }
  | .findLatestAvailableKeyframe => s
  | .forceAdvanceTo frameId => { s with receiver := s.receiver.forceAdvanceTo frameId }
  | .validateSequence seq => { s with receiver := (s.receiver.validateSequence seq).2 }
  | .drop i =>
    match s.held[i]? with
    | none => s
    | some f => { s with receiver := s.receiver.returnToPool f, held := s.held.eraseIdx i }
  | .pushFrame i now =>
    match s.held[i]? with
    | none => s
    | some f =>
      { receiver := s.receiver.returnAll (s.jitter.pushFrame f now).2
        jitter := (s.jitter.pushFrame f now).1
        held := s.held.eraseIdx i }
  | .popFrame currentSyncTimeUs now =>
    { s with
      jitter := (s.jitter.popFrame currentSyncTimeUs now).2
      held := (s.jitter.popFrame currentSyncTimeUs now).1.toList ++ s.held }
  | .reset nextExpectedId =>
    { s with
      receiver := s.receiver.returnAll (s.jitter.reset nextExpectedId).2
      jitter := (s.jitter.reset nextExpectedId).1 }

/-- The frames of the outstanding handles. -/
def outstanding (s : FrameFlow) : List FrameData := s.jitter.ring.occupants ++ s.held

theorem copies_eraseIdx {l : List FrameData} {i : Nat} {f : FrameData} (h : l[i]? = some f)
    (a : Nat) : copies a (f :: l.eraseIdx i) = copies a l := by
  induction l generalizing i with
  | nil => cases h
  | cons g l ih =>
    cases i with
    | zero =>
      cases h
      rfl
    | succ i =>
      have hrest := ih (i := i) h
      simp only [List.eraseIdx_cons_succ, copies_cons] at hrest ⊢
      omega

/-- **One call.** -/
theorem owns_step (s : FrameFlow) (call : FrameCall) (h : s.receiver.Owns s.outstanding) :
    (s.step call).receiver.Owns (s.step call).outstanding := by
  cases call with
  | processPacket header payload nowUs => exact h.processPacket header payload nowUs
  | processFEC header payload => exact h.touches (s.receiver.touches_processFEC header payload)
  | getNextFrame =>
    refine h.getNextFrame.of_eq fun a => ?_
    simp only [step, outstanding, copies_append]
    omega
  | findLatestAvailableKeyframe => exact h
  | forceAdvanceTo frameId => exact h.forceAdvanceTo frameId
  | validateSequence seq => exact h
  | drop i =>
    simp only [step]
    cases hi : s.held[i]? with
    | none => exact h
    | some f =>
      refine Receiver.Owns.returnToPool (h.of_eq fun a => ?_)
      have hf := copies_eraseIdx hi a
      simp only [outstanding, copies_append, copies_cons] at hf ⊢
      omega
  | pushFrame i now =>
    simp only [step]
    cases hi : s.held[i]? with
    | none => exact h
    | some f =>
      refine Receiver.Owns.returnAll (h.of_eq fun a => ?_)
      have hf := copies_eraseIdx hi a
      have hpush := s.jitter.copies_pushFrame a f now
      simp only [outstanding, copies_append, copies_cons, copies_nil] at hf hpush ⊢
      omega
  | popFrame currentSyncTimeUs now =>
    refine h.of_eq fun a => ?_
    have hpop := s.jitter.copies_popFrame a currentSyncTimeUs now
    simp only [step, outstanding, copies_append]
    omega
  | reset nextExpectedId =>
    refine Receiver.Owns.returnAll (h.of_eq fun a => ?_)
    have hreset := s.jitter.copies_reset a nextExpectedId
    simp only [step, outstanding, copies_append]
    omega

theorem owns_start (poolSize : Nat) (maxFrames : UInt64) :
    (init poolSize maxFrames).receiver.Owns (init poolSize maxFrames).outstanding := by
  have hempty : (init poolSize maxFrames).outstanding = [] := by
    unfold outstanding init
    simp only [JitterBuffer.init, FixedRingBuffer.occupants_empty, List.append_nil]
  rw [hempty]
  exact Receiver.owns_init poolSize

/-- **Frame buffer ownership.** After any sequence of calls every frame of the storage is at one
place: once in the pool, in one slot of the frame ring, in one slot of the jitter buffer, or with
one other handle. Nothing else is at any of these places. -/
theorem frame_ownership (poolSize : Nat) (maxFrames : UInt64) (calls : List FrameCall) (a : Nat) :
    let s := run step (init poolSize maxFrames) calls
    copies a s.receiver.framePool + copies a s.receiver.frameRing.occupants +
        copies a s.jitter.ring.occupants + copies a s.held =
      if a < s.receiver.frameStorage then 1 else 0 := by
  intro s
  have h : s.receiver.Owns s.outstanding :=
    run_invariant' (fun s call (hs : s.receiver.Owns s.outstanding) => owns_step s call hs)
      (owns_start poolSize maxFrames) calls
  have ha := h a
  rw [outstanding, copies_append] at ha
  omega

end FrameFlow

end RemotePlay.Client
