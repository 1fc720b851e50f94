import RemotePlay.Client.JitterBuffer
import RemotePlay.Client.Reassembly

/-!
# From the receiver to the decoder

The client loop recovers at keyframes, drains the receiver into the jitter
buffer and pops one frame per iteration for the decoder; the network thread
feeds the receiver at the same time. A step is one critical section of either
thread. `Playing` is the invariant: what the pop pointer waits for is a
keyframe or the successor of the last frame handed over. Only an overflow of
the jitter buffer moves the pop pointer past a frame (`pushFrame_pointer`).
-/

namespace RemotePlay.Client

open Lib Protocol Host

/-- Where the client loop is in an iteration. -/
inductive LoopPc where
  | findKeyframe
  | checkKeyframe (latestKeyframe : UInt32)
  | advance (latestKeyframe : UInt32)
  | resetJitter (latestKeyframe : UInt32)
  | drain
  | push (frame : FrameData)
  | pop
  | giveBack (frame : FrameData)

structure Playback where
  receiver : Receiver
  jitterBuffer : JitterBuffer
  pc : LoopPc
  /-- Frames dropped by the jitter buffer whose deleter has not run yet. -/
  dropped : List FrameData
  /-- What the decoder has been given, in order. -/
  handed : List FrameData

inductive PlaybackEvent where
  /-- The network thread processes a video packet. -/
  | packet (header : VideoHeader) (payload : Mem) (nowUs : UInt64)
  /-- The next critical section of the client loop, with the times it reads. -/
  | loop (syncTimeUs : UInt64) (now : Int)

namespace Playback

def init (poolSize : Nat) : Playback :=
  ⟨.init poolSize, .init 10, .findKeyframe, [], []⟩

def loopStep (s : Playback) (syncTimeUs : UInt64) (now : Int) : Playback :=
  match s.pc with
  | .findKeyframe => { s with pc := .checkKeyframe s.receiver.findLatestAvailableKeyframe }
  | .checkKeyframe latest =>
    if latest > 0 ∧ latest > s.receiver.nextFrameIdToRead then { s with pc := .advance latest }
    else { s with pc := .drain }
  | .advance latest =>
    { s with receiver := s.receiver.forceAdvanceTo latest, pc := .resetJitter latest }
  | .resetJitter latest =>
    { s with
      jitterBuffer := (s.jitterBuffer.reset latest).1
      dropped := (s.jitterBuffer.reset latest).2
      pc := .drain }
  | .drain =>
    { s with
      receiver := s.receiver.getNextFrame.2
      pc := match s.receiver.getNextFrame.1 with
        | some frame => .push frame
        | none => .pop }
  | .push frame =>
    { s with
      jitterBuffer := (s.jitterBuffer.pushFrame frame now).1
      dropped := (s.jitterBuffer.pushFrame frame now).2
      pc := .drain }
  | .pop =>
    match s.jitterBuffer.popFrame syncTimeUs now with
    | (some frame, jitterBuffer) =>
      { s with jitterBuffer, pc := .giveBack frame, handed := s.handed ++ [frame] }
    | (none, jitterBuffer) => { s with jitterBuffer, pc := .findKeyframe }
  | .giveBack frame => { s with receiver := s.receiver.returnToPool frame, pc := .findKeyframe }

def step (s : Playback) : PlaybackEvent → Playback
  | .packet header payload nowUs =>
    { s with receiver := s.receiver.processPacket header payload nowUs }
  | .loop syncTimeUs now =>
    match s.dropped with
    | frame :: rest => { s with receiver := s.receiver.returnToPool frame, dropped := rest }
    | [] => s.loopStep syncTimeUs now

/-! ## What the decoder may be given -/

/-- A packet the host sent: a fragment of the frame that `stream` has under its id. -/
def Genuine (stream : UInt32 → EncodedPacket) (header : VideoHeader) (payload : Mem) : Prop :=
  IsFragment (stream header.frameId) header.frameId header payload

/-- Every frame is a keyframe or the successor of the frame before it; the first is a keyframe. -/
def Unbroken (stream : UInt32 → EncodedPacket) (handed : List FrameData) : Prop :=
  ∀ before frame after, handed = before ++ frame :: after →
    (stream frame.frameId).isKeyframe = true ∨
      ∃ last, before.getLast? = some last ∧ frame.frameId = last.frameId + 1

/-- The packets are genuine, and no push finds the jitter buffer at its capacity. -/
def Calm (stream : UInt32 → EncodedPacket) (s : Playback) : PlaybackEvent → Prop
  | .packet header payload _ => Genuine stream header payload
  | .loop _ _ => ∀ frame, s.pc = .push frame → s.jitterBuffer.count < JitterBuffer.capacity

/-! ## Keyframes along the way -/

section
variable {stream : UInt32 → EncodedPacket}

/-- The frame is marked as the host encoded it. -/
def Marked (stream : UInt32 → EncodedPacket) (f : FrameData) : Prop :=
  f.isKeyframe = (stream f.frameId).isKeyframe

def IsKey (stream : UInt32 → EncodedPacket) (fid : UInt32) : Prop :=
  (stream fid).isKeyframe = true

theorem Genuine.isKeyframe {header : VideoHeader} {payload : Mem}
    (h : Genuine stream header payload) :
    header.isKeyframe = (stream header.frameId).isKeyframe := by
  conv_lhs => rw [h.header_eq]
  exact EncodedPacket.isKeyframe_videoHeader _ _ _ _

theorem deliver_eq (f : FrameData) (header : VideoHeader) (payload : Mem) :
    (f.deliver header payload).frameId = f.frameId ∧
      (f.deliver header payload).isKeyframe = f.isKeyframe := by
  have hstore : (f.store header payload).frameId = f.frameId ∧
      (f.store header payload).isKeyframe = f.isKeyframe := by
    unfold FrameData.store
    simp only
    split <;> exact ⟨rfl, rfl⟩
  unfold FrameData.deliver
  simp only
  split <;> split <;> first | exact ⟨rfl, rfl⟩ | exact hstore

theorem marked_deliver {f : FrameData} (h : Marked stream f) (header : VideoHeader)
    (payload : Mem) : Marked stream (f.deliver header payload) := by
  obtain ⟨hid, hkey⟩ := deliver_eq f header payload
  rw [Marked, hid, hkey]
  exact h

theorem marked_start (f : FrameData) {header : VideoHeader} {payload : Mem}
    (h : Genuine stream header payload) (nowUs : UInt64) :
    Marked stream (f.start header nowUs) := by
  obtain ⟨-, hid, -, -, -, hkey, -⟩ := FrameData.start_eq f header nowUs
  rw [Marked, hid, hkey, h.isKeyframe]

/-- What the receiver owes the client loop: marked frames, none before it has started. -/
structure Receiving (stream : UInt32 → EncodedPacket) (r : Receiver) : Prop where
  noFec : r.NoFec
  marked : ∀ i f, r.frameRing.get i = some f → Marked stream f
  unstarted : r.firstFrameReceived = false → ∀ i, r.frameRing.get i = none

theorem receiving_init (poolSize : Nat) : Receiving stream (.init poolSize) :=
  ⟨fun _ => rfl, fun _ _ h => (nomatch h), fun _ _ => rfl⟩

theorem Receiving.started {r : Receiver} (h : Receiving stream r) {i : UInt32} {f : FrameData}
    (hf : r.frameRing.get i = some f) : r.firstFrameReceived = true := by
  rcases hs : r.firstFrameReceived with _ | _
  · rw [h.unstarted hs i] at hf
    cases hf
  · rfl

/-- Fewer frames, the same reader. -/
theorem Receiving.subset {r r' : Receiver} (h : Receiving stream r) (hsame : r.SameReader r')
    (hring : ∀ i f, r'.frameRing.get i = some f → r.frameRing.get i = some f) :
    Receiving stream r' where
  noFec := hsame.noFec h.noFec
  marked i f hf := h.marked i f (hring i f hf)
  unstarted hs i := by
    rcases hf : r'.frameRing.get i with _ | f
    · rfl
    · rw [hsame.firstFrameReceived, h.started (hring i f hf)] at hs
      cases hs

/-- A genuine packet. The receiver starts at a keyframe or keeps its read pointer. -/
theorem Receiving.processPacket {r : Receiver} (h : Receiving stream r) {header : VideoHeader}
    {payload : Mem} (hg : Genuine stream header payload) (nowUs : UInt64) :
    Receiving stream (r.processPacket header payload nowUs) ∧
      ((r.processPacket header payload nowUs).firstFrameReceived = r.firstFrameReceived ∧
          (r.processPacket header payload nowUs).nextFrameIdToRead = r.nextFrameIdToRead ∨
        r.firstFrameReceived = false ∧
          IsKey stream (r.processPacket header payload nowUs).nextFrameIdToRead) := by
  rcases hgate : r.gate header with _ | r'
  · rw [Receiver.processPacket_gate_none hgate]
    exact ⟨h, .inl ⟨rfl, rfl⟩⟩
  obtain ⟨hs, hring, -, hfecRing, hnext⟩ := Receiver.gate_some hgate
  have hfec : r'.NoFec := fun i => by
    rw [hfecRing]
    exact h.noFec i
  have hmarked : ∀ i f, r'.frameRing.get i = some f → Marked stream f := by
    rw [hring]
    exact h.marked
  have hsame := Receiver.sameReader_processPacket hs header payload nowUs
  rw [Receiver.processPacket_gate hgate]
  refine ⟨⟨hsame.noFec hfec, fun i f hf => ?_, fun hn => ?_⟩, ?_⟩
  · by_cases hacc : r'.Accepts header
    · rw [Receiver.frameRing_processPacket hfec hs hacc] at hf
      rcases FixedRingBuffer.get_insert_cases hf with hf | hf
      · cases hf
        refine marked_deliver ?_ header payload
        rcases r'.frameFor_cases header nowUs with hat | ⟨-, g, heq, -⟩
        · exact hmarked _ _ (Receiver.frameAt_eq_some.mp hat).1
        · rw [heq]
          exact marked_start g hg nowUs
      · exact hmarked i f hf
    · rw [Receiver.processPacket_refused hs hacc] at hf
      exact hmarked i f hf
  · rw [hsame.firstFrameReceived, hs] at hn
    cases hn
  · rw [hsame.firstFrameReceived, hsame.nextFrameIdToRead]
    rcases hnext with rfl | ⟨hns, hkey, hid⟩
    · exact .inl ⟨rfl, rfl⟩
    · refine .inr ⟨hns, ?_⟩
      rw [hid, IsKey, ← hg.isKeyframe]
      exact hkey

theorem Receiving.scanKeyframes {r : Receiver} (h : Receiving stream r) {n : Nat} {fid : UInt32}
    (hf : r.scanKeyframes n = some fid) : IsKey stream fid := by
  induction n with
  | zero => cases hf
  | succ n ih =>
    simp only [Receiver.scanKeyframes] at hf
    split at hf
    · next f hat =>
      split at hf
      · next hc =>
        obtain ⟨hget, hid⟩ := Receiver.frameAt_eq_some.mp hat
        have hm := h.marked _ f hget
        rw [Marked, hid, (Bool.and_eq_true_iff.mp hc).2] at hm
        rw [← Option.some.inj hf]
        exact hm.symm
      · exact ih hf
    · exact ih hf

theorem Receiving.findLatest {r : Receiver} (h : Receiving stream r)
    (hpos : r.findLatestAvailableKeyframe > 0) : IsKey stream r.findLatestAvailableKeyframe := by
  unfold Receiver.findLatestAvailableKeyframe at hpos ⊢
  rcases hf : r.scanKeyframes 64 with _ | fid
  · rw [hf] at hpos
    exact absurd hpos (by decide)
  · exact h.scanKeyframes hf

theorem Receiving.forceAdvanceTo {r : Receiver} (h : Receiving stream r) (frameId : UInt32) :
    Receiving stream (r.forceAdvanceTo frameId) ∧
      (r.forceAdvanceTo frameId).firstFrameReceived = r.firstFrameReceived ∧
      ((r.forceAdvanceTo frameId).nextFrameIdToRead = r.nextFrameIdToRead ∨
        (r.forceAdvanceTo frameId).nextFrameIdToRead = frameId) := by
  rcases r.forceAdvanceTo_cases frameId with ⟨-, heq⟩ | ⟨-, r', hd, heq⟩ <;> rw [heq]
  · exact ⟨h, rfl, .inl rfl⟩
  · obtain ⟨h1, h2, h3⟩ := h.subset hd.same hd.ring
    exact ⟨⟨h1, h2, h3⟩, hd.same.firstFrameReceived, .inr rfl⟩

theorem Receiving.returnToPool {r : Receiver} (h : Receiving stream r) (f : FrameData) :
    Receiving stream (r.returnToPool f) :=
  h.subset (r.framesOnly_returnToPool f).toSameReader fun i g hg => by
    rwa [Receiver.frameRing_returnToPool] at hg

/-! ## The invariant -/

/-- What the loop knows at its position. -/
def PcOk (stream : UInt32 → EncodedPacket) (jitterBuffer : JitterBuffer) : LoopPc → Prop
  | .checkKeyframe latest => latest > 0 → IsKey stream latest
  | .advance latest => IsKey stream latest
  | .resetJitter latest => IsKey stream latest
  | .push frame => Marked stream frame ∧
      (jitterBuffer.initialized = false → IsKey stream frame.frameId)
  | _ => True

/-- The read pointer while the jitter buffer has not been set up. -/
def ReaderOk (stream : UInt32 → EncodedPacket) (r : Receiver) : LoopPc → Prop
  | .push _ => True
  | _ => r.firstFrameReceived = true → IsKey stream r.nextFrameIdToRead

structure Playing (stream : UInt32 → EncodedPacket) (s : Playback) : Prop where
  receiving : Receiving stream s.receiver
  consistent : s.jitterBuffer.Consistent (Marked stream)
  pcOk : PcOk stream s.jitterBuffer s.pc
  /-- Before the first push there is nothing to pop, and the reader waits for a keyframe. -/
  fresh : s.jitterBuffer.initialized = false →
    s.handed = [] ∧ (∀ i, (s.jitterBuffer.info.get i).occupied = false) ∧
      ReaderOk stream s.receiver s.pc
  /-- Later the pop pointer is at a keyframe or after the last frame handed over. -/
  ready : s.jitterBuffer.initialized = true → IsKey stream s.jitterBuffer.nextPopFrameId ∨
    ∃ last, s.handed.getLast? = some last ∧ s.jitterBuffer.nextPopFrameId = last.frameId + 1
  unbroken : Unbroken stream s.handed

theorem playing_init (poolSize : Nat) : Playing stream (init poolSize) where
  receiving := receiving_init poolSize
  consistent := JitterBuffer.consistent_init 10
  pcOk := trivial
  fresh _ := ⟨rfl, fun _ => rfl, fun h => (nomatch h)⟩
  ready h := (nomatch h)
  unbroken before frame after h := by simp [init] at h

/-- A step of the receiver and the position only. -/
theorem Playing.receiver_step {s : Playback} (h : Playing stream s) {r : Receiver} {pc : LoopPc}
    {dropped : List FrameData} (hr : Receiving stream r) (hpc : PcOk stream s.jitterBuffer pc)
    (hreader : ReaderOk stream s.receiver s.pc → ReaderOk stream r pc) :
    Playing stream ⟨r, s.jitterBuffer, pc, dropped, s.handed⟩ where
  receiving := hr
  consistent := h.consistent
  pcOk := hpc
  fresh hi := by
    obtain ⟨h1, h2, h3⟩ := h.fresh hi
    exact ⟨h1, h2, hreader h3⟩
  ready := h.ready
  unbroken := h.unbroken

theorem readerOk_of_eq {r r' : Receiver} {pc : LoopPc}
    (hstarted : r'.firstFrameReceived = r.firstFrameReceived)
    (hnext : r'.nextFrameIdToRead = r.nextFrameIdToRead) (h : ReaderOk stream r pc) :
    ReaderOk stream r' pc := by
  cases pc <;> simp only [ReaderOk, hstarted, hnext] at h ⊢ <;> exact h

theorem Playing.packet {s : Playback} (h : Playing stream s) {header : VideoHeader}
    {payload : Mem} (hg : Genuine stream header payload) (nowUs : UInt64) :
    Playing stream (s.step (.packet header payload nowUs)) := by
  obtain ⟨hr, hnext⟩ := h.receiving.processPacket hg nowUs
  refine h.receiver_step hr h.pcOk fun hreader => ?_
  rcases hnext with ⟨h1, h2⟩ | ⟨-, hkey⟩
  · exact readerOk_of_eq h1 h2 hreader
  · cases s.pc <;> first | exact trivial | exact fun _ => hkey

theorem Playing.giveFrame {s : Playback} (h : Playing stream s) (frame : FrameData) {pc : LoopPc}
    {dropped : List FrameData} (hpc : PcOk stream s.jitterBuffer pc)
    (hreader : ReaderOk stream s.receiver s.pc → ReaderOk stream s.receiver pc) :
    Playing stream ⟨s.receiver.returnToPool frame, s.jitterBuffer, pc, dropped, s.handed⟩ := by
  have hsame := (s.receiver.framesOnly_returnToPool frame).toSameReader
  exact h.receiver_step (h.receiving.returnToPool frame) hpc fun hreader' =>
    readerOk_of_eq hsame.firstFrameReceived hsame.nextFrameIdToRead (hreader hreader')

/-- Draining: a frame read before the first push is the keyframe the reader waited for. -/
theorem Playing.drain {s : Playback} (h : Playing stream s) (hpc : s.pc = .drain) :
    Playing stream ⟨s.receiver.getNextFrame.2, s.jitterBuffer,
      match s.receiver.getNextFrame.1 with
        | some frame => .push frame
        | none => .pop, s.dropped, s.handed⟩ := by
  rcases s.receiver.getNextFrame_cases with heq | ⟨f, hf, -, heq⟩ <;> rw [heq]
  · refine h.receiver_step h.receiving trivial fun hreader => ?_
    rw [hpc] at hreader
    exact hreader
  · obtain ⟨hget, hid⟩ := Receiver.frameAt_eq_some.mp hf
    have hstarted := h.receiving.started hget
    have hsub : Receiving stream { s.receiver.setSlot s.receiver.nextFrameIdToRead none with
        nextFrameIdToRead := s.receiver.nextFrameIdToRead + 1 } :=
      ⟨h.receiving.noFec, fun i g hg => by
        rcases FixedRingBuffer.get_insert_cases hg with hg | hg
        · cases hg
        · exact h.receiving.marked i g hg,
        fun hn => absurd (hstarted.symm.trans hn) (by decide)⟩
    refine h.receiver_step hsub ⟨h.receiving.marked _ f hget, fun hi => ?_⟩ fun _ => trivial
    have hreader := (h.fresh hi).2.2
    rw [hpc] at hreader
    rw [hid]
    exact hreader hstarted

theorem Playing.reset {s : Playback} (h : Playing stream s) {latest : UInt32}
    (hpc : s.pc = .resetJitter latest) :
    Playing stream ⟨s.receiver, (s.jitterBuffer.reset latest).1, .drain,
      (s.jitterBuffer.reset latest).2, s.handed⟩ where
  receiving := h.receiving
  consistent := h.consistent.reset latest
  pcOk := trivial
  fresh hi := by
    rw [(s.jitterBuffer.reset_pointer latest).2] at hi
    cases hi
  ready _ := by
    have hkey := h.pcOk
    rw [hpc] at hkey
    rw [(s.jitterBuffer.reset_pointer latest).1]
    exact .inl hkey
  unbroken := h.unbroken

theorem Playing.push {s : Playback} (h : Playing stream s) {frame : FrameData}
    (hpc : s.pc = .push frame) (hcount : s.jitterBuffer.count < JitterBuffer.capacity) (now : Int) :
    Playing stream ⟨s.receiver, (s.jitterBuffer.pushFrame frame now).1, .drain,
      (s.jitterBuffer.pushFrame frame now).2, s.handed⟩ := by
  obtain ⟨hinit, hnext⟩ := JitterBuffer.pushFrame_pointer hcount frame now
  have hok := h.pcOk
  rw [hpc] at hok
  refine ⟨h.receiving, h.consistent.pushFrame hok.1 now, trivial, fun hi => ?_, fun _ => ?_,
    h.unbroken⟩
  · rw [hinit] at hi
    cases hi
  · show IsKey stream (s.jitterBuffer.pushFrame frame now).1.nextPopFrameId ∨ _
    simp only [hnext]
    split
    · next hi => exact h.ready hi
    · next hi => exact .inl (hok.2 (by simpa using hi))

/-- Handing over the frame at the pop pointer keeps the chain. -/
theorem Unbroken.snoc {handed : List FrameData} (h : Unbroken stream handed) {frame : FrameData}
    (hframe : IsKey stream frame.frameId ∨
      ∃ last, handed.getLast? = some last ∧ frame.frameId = last.frameId + 1) :
    Unbroken stream (handed ++ [frame]) := by
  intro before f after heq
  rcases List.eq_nil_or_concat after with rfl | ⟨init, last, rfl⟩
  · obtain ⟨hb, hf⟩ := List.append_inj' heq rfl
    cases hf
    rw [← hb]
    exact hframe
  · refine h before f init ?_
    rw [List.concat_eq_append, ← List.cons_append, ← List.append_assoc] at heq
    exact (List.append_inj' heq rfl).1

theorem Playing.pop {s : Playback} (h : Playing stream s) (hpc : s.pc = .pop) (syncTimeUs : UInt64)
    (now : Int) : Playing stream (s.loopStep syncTimeUs now) := by
  simp only [loopStep, hpc]
  rcases JitterBuffer.popFrame_cases h.consistent syncTimeUs now with heq | ⟨f, -, hid, hocc, heq⟩
  · rw [heq]
    refine h.receiver_step h.receiving trivial fun hreader => ?_
    rw [hpc] at hreader
    exact hreader
  · rw [heq]
    -- something was there to pop, so the buffer has been set up
    have hinit : s.jitterBuffer.initialized = true := by
      rcases hi : s.jitterBuffer.initialized with _ | _
      · rw [(h.fresh hi).2.1] at hocc
        cases hocc
      · rfl
    refine ⟨h.receiving, h.consistent.takeFrame, trivial, fun hi => ?_, fun _ => .inr ⟨f, ?_, ?_⟩,
      h.unbroken.snoc ?_⟩
    · exact absurd (hinit.symm.trans hi) (by decide)
    · rw [List.getLast?_concat]
    · show s.jitterBuffer.nextPopFrameId + 1 = f.frameId + 1
      rw [hid]
    · rw [hid]
      exact h.ready hinit

/-- **One step** of either thread, unless the jitter buffer overflows. -/
theorem playing_step (s : Playback) (e : PlaybackEvent) (h : Playing stream s)
    (hok : Calm stream s e) : Playing stream (s.step e) := by
  cases e with
  | packet header payload nowUs => exact h.packet hok nowUs
  | loop syncTimeUs now =>
    simp only [step]
    split
    · exact h.giveFrame _ h.pcOk id
    rcases hpc : s.pc with _ | latest | latest | latest | _ | frame | _ | frame
    case findKeyframe =>
      simp only [loopStep, hpc]
      refine h.receiver_step h.receiving (fun hpos => h.receiving.findLatest hpos) fun hr => ?_
      rw [hpc] at hr
      exact hr
    case checkKeyframe =>
      simp only [loopStep, hpc]
      have hkey := h.pcOk
      rw [hpc] at hkey
      split
      · next hc =>
        refine h.receiver_step h.receiving (hkey hc.1) fun hr => ?_
        rw [hpc] at hr
        exact hr
      · refine h.receiver_step h.receiving trivial fun hr => ?_
        rw [hpc] at hr
        exact hr
    case advance =>
      simp only [loopStep, hpc]
      have hkey := h.pcOk
      rw [hpc] at hkey
      obtain ⟨hr, hstarted, hnext⟩ := h.receiving.forceAdvanceTo latest
      refine h.receiver_step hr hkey fun hreader => ?_
      rw [hpc] at hreader
      rcases hnext with hn | hn
      · show ReaderOk stream _ (.resetJitter latest)
        exact readerOk_of_eq hstarted hn hreader
      · intro _
        rw [hn]
        exact hkey
    case resetJitter =>
      simp only [loopStep, hpc]
      exact h.reset hpc
    case drain =>
      simp only [loopStep, hpc]
      exact h.drain hpc
    case push =>
      simp only [loopStep, hpc]
      exact h.push hpc (hok frame hpc) now
    case pop => exact h.pop hpc syncTimeUs now
    case giveBack =>
      simp only [loopStep, hpc]
      refine h.giveFrame frame trivial fun hr => ?_
      rw [hpc] at hr
      exact hr

/-- **The decoder sees an unbroken chain** in every run of the two threads over genuine packets,
lost, duplicated and reordered in any way, in which no push finds the jitter buffer full. -/
theorem unbroken_of_calm (stream : UInt32 → EncodedPacket) (poolSize : Nat)
    (events : List PlaybackEvent)
    (hcalm : Along step (Calm stream) (init poolSize) events) :
    Unbroken stream (run step (init poolSize) events).handed :=
  (run_invariant playing_step (playing_init poolSize) hcalm).unbroken

end

/-- A stream of one-byte frames of which only frame 1 is a keyframe. -/
def oneKeyframe (fid : UInt32) : EncodedPacket :=
  ⟨⟨⟨1, fun _ => 0⟩, 1, fid == 1, 0, 0⟩, fid == 1, false, 0, 0, 0⟩

/-- The only fragment of its frame `fid`. -/
def onlyFragment (fid : UInt32) : PlaybackEvent :=
  .packet ((oneKeyframe fid).videoHeader fid 0 0) ((oneKeyframe fid).fragmentPayload 0) 0

theorem genuine_onlyFragment (fid : UInt32) :
    Genuine oneKeyframe ((oneKeyframe fid).videoHeader fid 0 0)
      ((oneKeyframe fid).fragmentPayload 0) :=
  ⟨rfl, show (0 : UInt16).toNat < (UInt16.ofNat ((1 + maxUdpPayload - 1) / maxUdpPayload)).toNat by
    decide, fun _ _ => rfl⟩

theorem calm_loops {stream : UInt32 → EncodedPacket} {s : Playback} {syncTimeUs : UInt64}
    {now : Int} (n : Nat) (h : ∀ k < n, (run step s
      (List.replicate k (.loop syncTimeUs now))).jitterBuffer.count < JitterBuffer.capacity) :
    Along step (Calm stream) s (List.replicate n (.loop syncTimeUs now)) := by
  induction n generalizing s with
  | zero => trivial
  | succ n ih =>
    refine ⟨fun _ _ => h 0 n.succ_pos, ih fun k hk => ?_⟩
    have hlater := h (k + 1) (Nat.succ_lt_succ hk)
    rwa [List.replicate_succ, run_cons] at hlater

/-- Frame 3 overtakes frame 2; both are to follow frame 1 to the decoder. -/
def overtaken : List PlaybackEvent :=
  [onlyFragment 1, onlyFragment 3, onlyFragment 2]

theorem unbroken_of_calm_three :
    let s := run step (init 30) (overtaken ++ List.replicate 20 (.loop 1 0))
    s.handed.map (·.frameId) = [1, 2, 3] ∧ Unbroken oneKeyframe s.handed := by
  have hloops : Along step (Calm oneKeyframe) (run step (init 30) overtaken)
      (List.replicate 20 (.loop 1 0)) := calm_loops 20 (by decide)
  have hpackets : Along step (Calm oneKeyframe) (init 30) overtaken :=
    ⟨genuine_onlyFragment 1, genuine_onlyFragment 3, genuine_onlyFragment 2, trivial⟩
  exact ⟨by decide, unbroken_of_calm oneKeyframe 30 _ (along_append.mpr ⟨hpackets, hloops⟩)⟩

/-- Frames 1 to 29 arrive while the loop stalls, then one iteration drains them. -/
def burst : List PlaybackEvent :=
  (List.range 29).map (fun n => onlyFragment (UInt32.ofNat (n + 1))) ++
    List.replicate 63 (.loop 1 0)

set_option maxRecDepth 4000 in
theorem handed_burst : (run step (init 30) burst).handed.map (·.frameId) = [2] := by
  decide +kernel

/-- The overflow drops the keyframe, and the decoder starts at frame 2. -/
theorem overflow_breaks_chain :
    (∀ header payload nowUs, .packet header payload nowUs ∈ burst →
      Genuine oneKeyframe header payload) ∧
    ¬ Unbroken oneKeyframe (run step (init 30) burst).handed := by
  constructor
  · intro header payload nowUs hmem
    rcases List.mem_append.mp hmem with h | h
    · obtain ⟨n, -, heq⟩ := List.mem_map.mp h
      cases heq
      exact genuine_onlyFragment _
    · cases (List.mem_replicate.mp h).2
  · intro hun
    obtain ⟨frame, hframe, hid⟩ := List.map_eq_singleton_iff.mp handed_burst
    rcases hun [] frame [] hframe with hkey | ⟨last, hlast, -⟩
    · rw [hid] at hkey
      exact absurd hkey (by decide)
    · cases hlast

end Playback

end RemotePlay.Client
