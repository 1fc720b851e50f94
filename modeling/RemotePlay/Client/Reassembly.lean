import RemotePlay.Client.ReceiverRing
import RemotePlay.Host.Fragment
import RemotePlay.Lib.Run
import RemotePlay.Lib.Tally
import RemotePlay.Session.Envelope

/-!
# Fragmentation and reassembly

A frame cut by the packetizer and delivered fragment by fragment is the frame.
`Progress frame fid f got` is the invariant of a partly received frame: `f`
holds the fragments `got` and nothing else is counted. `deliver` takes one
more fragment (`Progress.deliver`), everything else the receiver does leaves
the slot alone, and the invariant gives completion and the bytes.
-/

namespace RemotePlay.Client

open Lib Protocol Host

/-- A fragment of `frame` as the packetizer cuts it and sends it as frame `fid`, with any packet
sequence number. -/
structure IsFragment (frame : EncodedPacket) (fid : UInt32) (header : VideoHeader) (payload : Mem) :
    Prop where
  header_eq : header = frame.videoHeader fid header.fragmentIndex header.packetSequence
  index_lt : header.fragmentIndex.toNat < frame.totalFrags.toNat
  payload_eq : ∀ k, k < (frame.fragmentSize header.fragmentIndex).toNat →
    payload k = frame.fragmentPayload header.fragmentIndex k

namespace IsFragment

variable {frame : EncodedPacket} {fid : UInt32} {header : VideoHeader} {payload : Mem}

theorem frameId (h : IsFragment frame fid header payload) : header.frameId = fid := by
  rw [h.header_eq]; rfl

theorem totalFragments (h : IsFragment frame fid header payload) :
    header.totalFragments = frame.totalFrags := by
  rw [h.header_eq]; rfl

theorem dataSize (h : IsFragment frame fid header payload) :
    header.dataSize = frame.fragmentSize header.fragmentIndex := by
  conv_lhs => rw [h.header_eq]
  rfl

end IsFragment

namespace FrameData

/-- `f` holds exactly the fragments `got` of `frame`, sent as frame `fid`. -/
structure Holding (frame : EncodedPacket) (fid : UInt32) (f : FrameData) (got : Finset Nat) :
    Prop where
  frameId : f.frameId = fid
  size : f.buffer.size = 1024 * 1024
  total : f.totalFragments = frame.totalFrags
  tally : Tally f.fragmentMap.get f.fragmentsReceived.toNat frame.totalFrags.toNat got
  bytes : ∀ k, k < frame.packet.size → k / 1300 ∈ got → f.buffer.get k = frame.packet.data.get k
  totalSize : frame.totalFrags.toNat - 1 ∈ got → f.totalSize = frame.packet.size

/-- And is marked complete as soon as nothing is missing. -/
structure Progress (frame : EncodedPacket) (fid : UInt32) (f : FrameData) (got : Finset Nat) :
    Prop extends Holding frame fid f got where
  complete : f.isComplete = true ↔ ∀ i, i < frame.totalFrags.toNat → i ∈ got

section
variable {frame : EncodedPacket} {fid : UInt32} {f : FrameData} {got : Finset Nat}

theorem start_eq (f : FrameData) (header : VideoHeader) (nowUs : UInt64) :
    (f.start header nowUs).buffer = f.buffer ∧ (f.start header nowUs).frameId = header.frameId ∧
      (f.start header nowUs).totalFragments = header.totalFragments ∧
      (f.start header nowUs).fragmentsReceived = 0 ∧ (f.start header nowUs).isComplete = false ∧
      (f.start header nowUs).isKeyframe = header.isKeyframe ∧
      ∀ k, (f.start header nowUs).fragmentMap.get k = false := by
  unfold start
  simp only
  split
  · refine ⟨rfl, rfl, rfl, rfl, rfl, rfl, fun k => ?_⟩
    show (if k < f.fragmentMap.size then false else false) = false
    rw [ite_self]
  · exact ⟨rfl, rfl, rfl, rfl, rfl, rfl, fun k => rfl⟩

/-- A recycled frame has got nothing. -/
theorem progress_start (hfit : frame.Fits) (hsize : f.buffer.size = 1024 * 1024)
    {header : VideoHeader} (hfid : header.frameId = fid)
    (htotal : header.totalFragments = frame.totalFrags) (nowUs : UInt64) :
    Progress frame fid (f.start header nowUs) ∅ := by
  obtain ⟨hbuf, hid, htot, hrecv, hcomp, -, hmap⟩ := start_eq f header nowUs
  have hpos := EncodedPacket.totalFrags_pos hfit
  refine ⟨⟨hid.trans hfid, by rw [hbuf, hsize], htot.trans htotal, ?_, fun k _ hk => by simp at hk,
    fun h => by simp at h⟩, ?_⟩
  · rw [hrecv, funext hmap]
    exact Tally.empty _
  · rw [hcomp]
    refine iff_of_false (by decide) fun hall => ?_
    exact absurd (hall 0 hpos) (Finset.notMem_empty 0)

theorem maxUdpPayload_eq : maxUdpPayload = 1300 := rfl

theorem store_eq (f : FrameData) (header : VideoHeader) (payload : Mem)
    (hin : header.fragmentIndex.toNat * maxUdpPayload + header.dataSize.toNat ≤ f.buffer.size) :
    f.store header payload =
      { f with
        buffer := f.buffer.copyIn (header.fragmentIndex.toNat * maxUdpPayload)
          header.dataSize.toNat payload
        fragmentMap := f.fragmentMap.set header.fragmentIndex.toNat true
        fragmentSizes := f.fragmentSizes.set header.fragmentIndex.toNat header.dataSize
        fragmentsReceived := f.fragmentsReceived + 1
        totalSize := if header.fragmentIndex.toNat + 1 = header.totalFragments.toNat
          then header.fragmentIndex.toNat * maxUdpPayload + header.dataSize.toNat
          else f.totalSize } := by
  simp only [store, if_pos hin]

/-- A fragment that was missing. -/
theorem Holding.store (hfit : frame.Fits) (h : Holding frame fid f got) {header : VideoHeader}
    {payload : Mem} (hg : IsFragment frame fid header payload)
    (hmiss : f.fragmentMap.get header.fragmentIndex.toNat = false) :
    Holding frame fid (f.store header payload) (insert header.fragmentIndex.toNat got) := by
  have htot := hg.totalFragments
  have hsize := hg.dataSize
  obtain ⟨-, hi, hpay⟩ := hg
  generalize hn : header.fragmentIndex = i at *
  have hend := EncodedPacket.fragment_end_le hfit hi
  have hin : i.toNat * maxUdpPayload + header.dataSize.toNat ≤ f.buffer.size := by
    have := hfit.2
    rw [h.size, hsize, maxUdpPayload_eq]
    omega
  have hcount : (f.fragmentsReceived + 1).toNat = f.fragmentsReceived.toNat + 1 := by
    have hlt := h.tally.count_lt hi hmiss
    have hle := EncodedPacket.totalFrags_le hfit
    rw [UInt16.toNat_add]
    show (f.fragmentsReceived.toNat + 1) % 65536 = _
    omega
  rw [store_eq f header payload (by rw [hn]; exact hin), hn, hsize, maxUdpPayload_eq]
  clear hin
  refine ⟨h.frameId, h.size, h.total, ?_, fun k hk hmem => ?_, fun hlast => ?_⟩
  · show Tally _ (f.fragmentsReceived + 1).toNat _ _
    rw [hcount]
    exact h.tally.mark hi hmiss
  · -- byte `k` lies in the new fragment or in an old one
    show (f.buffer.copyIn _ _ payload).get k = _
    by_cases hnew : k / 1300 = i.toNat
    · have hfrag := (EncodedPacket.mem_fragment hfit hk hnew.symm).2
      have hlo : i.toNat * 1300 ≤ k := by
        rw [← hnew]
        exact Nat.div_mul_le_self k 1300
      rw [Vec.get_copyIn_in _ _ hlo (by omega), hpay _ hfrag]
      show frame.packet.data.get (i.toNat * 1300 + (k - i.toNat * 1300)) = _
      rw [Nat.add_sub_cancel' hlo]
    · have hout : k < i.toNat * 1300 ∨ i.toNat * 1300 + (frame.fragmentSize i).toNat ≤ k := by
        have := EncodedPacket.fragmentSize_toNat hfit i
        omega
      rw [Vec.get_copyIn_out _ _ hout]
      exact h.bytes k hk ((Finset.mem_insert.mp hmem).resolve_left hnew)
  · -- only the last fragment sets the size
    show (if i.toNat + 1 = header.totalFragments.toNat then _ else f.totalSize) = _
    rw [htot]
    split
    · next hl => exact EncodedPacket.last_fragment_end hfit hl
    · next hl =>
      refine h.totalSize ((Finset.mem_insert.mp hlast).resolve_left fun e => hl ?_)
      omega

/-- The mark follows the count. -/
theorem Holding.mark (h : Holding frame fid f got)
    (hinc : f.isComplete = true → ∀ i, i < frame.totalFrags.toNat → i ∈ got) :
    Progress frame fid
      (if f.fragmentsReceived = f.totalFragments then { f with isComplete := true } else f)
      got := by
  have hfull := h.tally.full_iff
  split
  · next hc =>
    rw [h.total] at hc
    exact ⟨⟨h.frameId, h.size, h.total, h.tally, h.bytes, h.totalSize⟩,
      iff_of_true rfl (hfull.mp (by rw [hc]))⟩
  · next hc =>
    refine ⟨h, hinc, fun hall => absurd (UInt16.toNat_inj.mp ?_) hc⟩
    rw [hfull.mpr hall, h.total]

/-- A complete frame is the frame sent. -/
theorem Progress.whole (hfit : frame.Fits) (h : Progress frame fid f got)
    (hc : f.isComplete = true) : f.totalSize = frame.packet.size ∧
      readN f.buffer.get f.totalSize = readN frame.packet.data.get frame.packet.size := by
  have hpos := EncodedPacket.totalFrags_pos hfit
  have hall := h.complete.mp hc
  have hsize := h.totalSize (hall _ (by omega))
  refine ⟨hsize, ?_⟩
  rw [hsize]
  refine readN_congr fun k hk => h.bytes k hk (hall _ ?_)
  rw [EncodedPacket.totalFrags_toNat hfit]
  omega

theorem isComplete_store (f : FrameData) (header : VideoHeader) (payload : Mem) :
    (f.store header payload).isComplete = f.isComplete := by
  unfold FrameData.store
  simp only
  split <;> rfl

/-- **One delivered fragment**: new or a duplicate, it is in afterwards and nothing else changed. -/
theorem Progress.deliver (hfit : frame.Fits) (h : Progress frame fid f got) {header : VideoHeader}
    {payload : Mem} (hg : IsFragment frame fid header payload) :
    Progress frame fid (f.deliver header payload) (insert header.fragmentIndex.toNat got) := by
  have hlt : header.fragmentIndex < f.totalFragments := by
    rw [h.total]
    exact UInt16.lt_iff_toNat_lt.mpr hg.index_lt
  unfold FrameData.deliver
  by_cases hmiss : f.fragmentMap.get header.fragmentIndex.toNat = false
  · simp only [hlt, hmiss, and_self, if_true]
    refine (h.toHolding.store hfit hg hmiss).mark fun hc j hj => ?_
    rw [isComplete_store] at hc
    exact Finset.mem_insert_of_mem (h.complete.mp hc j hj)
  · have hset : f.fragmentMap.get header.fragmentIndex.toNat = true := by simpa using hmiss
    rw [h.tally.insert_of_set hg.index_lt hset]
    simp only [hset, Bool.true_eq_false, and_false, if_false]
    exact h.toHolding.mark h.complete.mp

end

end FrameData

/-! ## The receiver in use -/

/-- A receiver and the frames its reader has been handed. -/
structure ReceiverUse where
  receiver : Receiver
  held : List FrameData

/-- The calls of a session without FEC packets, in the order the receiver's mutex gives them. -/
inductive ReceiverCall where
  | processPacket (header : VideoHeader) (payload : Mem) (nowUs : UInt64)
  | getNextFrame
  | forceAdvanceTo (frameId : UInt32)
  | validateSequence (seq : UInt64)
  /-- The reader drops one of its frames. -/
  | returnToPool (i : Nat)

namespace ReceiverUse

def init (poolSize : Nat) : ReceiverUse := ⟨.init poolSize, []⟩

def step (s : ReceiverUse) : ReceiverCall → ReceiverUse
  | .processPacket header payload nowUs =>
    { s with receiver := s.receiver.processPacket header payload nowUs }
  | .getNextFrame => ⟨s.receiver.getNextFrame.2, s.receiver.getNextFrame.1.toList ++ s.held⟩
  | .forceAdvanceTo frameId => { s with receiver := s.receiver.forceAdvanceTo frameId }
  | .validateSequence seq => { s with receiver := (s.receiver.validateSequence seq).2 }
  | .returnToPool i =>
    match s.held[i]? with
    | some f => ⟨s.receiver.returnToPool f, s.held.eraseIdx i⟩
    | none => s

/-- Every frame has its 1 MiB buffer, and no FEC group has been received. -/
structure Sized (s : ReceiverUse) : Prop where
  noFec : s.receiver.NoFec
  owned : s.receiver.AllFrames fun f => f.buffer.size = 1024 * 1024
  held : ∀ f ∈ s.held, f.buffer.size = 1024 * 1024

theorem frameInvariant_size : Receiver.FrameInvariant fun f => f.buffer.size = 1024 * 1024 where
  new _ := rfl
  start f header nowUs h := by rw [(FrameData.start_eq f header nowUs).1]; exact h
  deliver f header payload h := by
    have hstore : (f.store header payload).buffer.size = f.buffer.size := by
      unfold FrameData.store
      simp only
      split <;> rfl
    unfold FrameData.deliver
    simp only
    split <;> split <;> first | exact h | exact hstore.trans h

theorem sized_init (poolSize : Nat) : Sized (init poolSize) where
  noFec _ := rfl
  owned := by
    refine ⟨fun f hf => ?_, fun i f h => by cases h⟩
    obtain ⟨a, -, rfl⟩ := List.mem_map.mp (List.mem_reverse.mp hf)
    rfl
  held f hf := by cases hf

theorem sized_step {s : ReceiverUse} (call : ReceiverCall) (h : Sized s) : Sized (s.step call) := by
  obtain ⟨hfec, howned, hheld⟩ := h
  cases call with
  | processPacket header payload nowUs =>
    obtain ⟨h1, h2⟩ :=
      Receiver.allFrames_processPacket frameInvariant_size hfec howned header payload nowUs
    exact ⟨h2, h1, hheld⟩
  | getNextFrame =>
    show Sized ⟨s.receiver.getNextFrame.2, s.receiver.getNextFrame.1.toList ++ s.held⟩
    rcases s.receiver.getNextFrame_cases with heq | ⟨f, hf, -, heq⟩ <;> rw [heq]
    · exact ⟨hfec, howned, hheld⟩
    · have hsize := howned.2 _ f (Receiver.frameAt_eq_some.mp hf).1
      refine ⟨hfec, ⟨howned.1, fun i g hg => ?_⟩, ?_⟩
      · rcases FixedRingBuffer.get_insert_cases hg with h | h
        · cases h
        · exact howned.2 i g h
      · rintro g (_ | ⟨_, hg⟩)
        · exact hsize
        · exact hheld g hg
  | forceAdvanceTo frameId =>
    show Sized ⟨s.receiver.forceAdvanceTo frameId, s.held⟩
    rcases s.receiver.forceAdvanceTo_cases frameId with ⟨-, heq⟩ | ⟨-, r', hd, heq⟩ <;> rw [heq]
    · exact ⟨hfec, howned, hheld⟩
    · refine ⟨hd.same.noFec hfec, ⟨fun g hg => ?_, fun i g hg => howned.2 i g (hd.ring i g hg)⟩,
        hheld⟩
      rcases hd.pool g hg with hp | ⟨i, hi⟩
      · exact howned.1 g hp
      · exact howned.2 i g hi
  | validateSequence seq => exact ⟨hfec, howned, hheld⟩
  | returnToPool i =>
    simp only [step]
    rcases hi : s.held[i]? with _ | f
    · exact ⟨hfec, howned, hheld⟩
    · have hsize := hheld f (List.mem_of_getElem? hi)
      refine ⟨(Receiver.framesOnly_returnToPool _ f).noFec hfec, ⟨fun g hg => ?_, ?_⟩,
        fun g hg => hheld g (List.mem_of_mem_eraseIdx hg)⟩
      · rcases Receiver.mem_returnToPool hg with h | rfl
        · exact howned.1 g h
        · exact hsize
      · show ∀ i g, (s.receiver.returnToPool f).frameRing.get i = some g → _
        rw [Receiver.frameRing_returnToPool]
        exact howned.2

/-! ## Delivery of one frame -/

/-- What may happen while frame `fid` is delivered: its own fragments, packets of other slots, and
reads that stay behind it. -/
def Delivering (frame : EncodedPacket) (fid : UInt32) (s : ReceiverUse) : ReceiverCall → Prop
  | .processPacket header payload _ =>
    IsFragment frame fid header payload ∨ header.frameId.toNat % 64 ≠ fid.toNat % 64
  | .getNextFrame => s.receiver.nextFrameIdToRead < fid
  | .forceAdvanceTo frameId => frameId ≤ fid
  | .validateSequence _ => True
  | .returnToPool _ => True

/-- The fragment of frame `fid` that a call delivers. -/
def delivers (fid : UInt32) : ReceiverCall → Option Nat
  | .processPacket header _ _ =>
    if header.frameId = fid then some header.fragmentIndex.toNat else none
  | _ => none

def delivered (fid : UInt32) (calls : List ReceiverCall) : Finset Nat :=
  (calls.filterMap (delivers fid)).toFinset

theorem delivered_append_none {fid : UInt32} {call : ReceiverCall} (h : delivers fid call = none)
    (past : List ReceiverCall) : delivered fid (past ++ [call]) = delivered fid past := by
  simp [delivered, h]

theorem delivered_append_some {fid : UInt32} {call : ReceiverCall} {i : Nat}
    (h : delivers fid call = some i) (past : List ReceiverCall) :
    delivered fid (past ++ [call]) = insert i (delivered fid past) := by
  ext k
  simp [delivered, h]

/-- The invariant of the delivery: the slot holds what has been delivered. -/
structure Delivery (frame : EncodedPacket) (fid : UInt32) (past : List ReceiverCall)
    (s : ReceiverUse) : Prop where
  sized : Sized s
  started : s.receiver.firstFrameReceived = true
  ahead : s.receiver.nextFrameIdToRead ≤ fid
  untouched : s.receiver.frameAt fid = none → delivered fid past = ∅
  progress : ∀ f, s.receiver.frameAt fid = some f →
    FrameData.Progress frame fid f (delivered fid past)

variable {frame : EncodedPacket} {fid : UInt32} {past : List ReceiverCall} {s : ReceiverUse}

/-- A call that leaves the frame of `fid` alone. -/
theorem Delivery.frame_rule {call : ReceiverCall} (h : Delivery frame fid past s)
    (hnone : delivers fid call = none)
    (hstarted : (s.step call).receiver.firstFrameReceived = true)
    (hahead : (s.step call).receiver.nextFrameIdToRead ≤ fid)
    (hframe : (s.step call).receiver.frameAt fid = s.receiver.frameAt fid) :
    Delivery frame fid (past ++ [call]) (s.step call) where
  sized := sized_step call h.sized
  started := hstarted
  ahead := hahead
  untouched := by
    rw [hframe, delivered_append_none hnone]
    exact h.untouched
  progress := by
    rw [hframe, delivered_append_none hnone]
    exact h.progress

theorem IsFragment.accepts (hfit : frame.Fits) {header : VideoHeader} {payload : Mem}
    (hg : IsFragment frame fid header payload) {r : Receiver} (hahead : r.nextFrameIdToRead ≤ fid) :
    r.Accepts header := by
  refine ⟨?_, ?_⟩
  · rw [hg.frameId, UInt32.lt_iff_toNat_lt]
    have := UInt32.le_iff_toNat_le.mp hahead
    omega
  · have hle := EncodedPacket.totalFrags_le hfit
    have hsize := EncodedPacket.fragmentSize_toNat hfit header.fragmentIndex
    rw [hg.totalFragments, hg.dataSize]
    rintro (h | h)
    · have h1024 : 1024 < frame.totalFrags.toNat := UInt16.lt_iff_toNat_lt.mp h
      omega
    · simp only [FrameData.maxUdpPayload_eq] at h
      omega

theorem frameAt_getNextFrame_other {r : Receiver} {fid : UInt32} (h : r.nextFrameIdToRead < fid) :
    r.getNextFrame.2.frameAt fid = r.frameAt fid ∧
      r.getNextFrame.2.nextFrameIdToRead ≤ fid ∧
      r.getNextFrame.2.firstFrameReceived = r.firstFrameReceived := by
  have hlt := UInt32.lt_iff_toNat_lt.mp h
  rcases r.getNextFrame_cases with heq | ⟨f, hf, -, heq⟩ <;> rw [heq]
  · exact ⟨rfl, UInt32.le_iff_toNat_le.mpr (Nat.le_of_lt hlt), rfl⟩
  · refine ⟨Receiver.frameAt_insert_none hf rfl fun e => ?_, UInt32.le_iff_toNat_le.mpr ?_, rfl⟩
    · rw [e] at hlt; omega
    · show (r.nextFrameIdToRead + 1).toNat ≤ fid.toNat
      rw [UInt32.toNat_add]
      show (r.nextFrameIdToRead.toNat + 1) % 2 ^ 32 ≤ fid.toNat
      omega

theorem returnToPool_step (s : ReceiverUse) (i : Nat) :
    Receiver.SameReader s.receiver (s.step (.returnToPool i)).receiver ∧
      (s.step (.returnToPool i)).receiver.frameRing = s.receiver.frameRing := by
  simp only [step]
  split
  · exact ⟨(Receiver.framesOnly_returnToPool _ _).toSameReader, Receiver.frameRing_returnToPool _ _⟩
  · exact ⟨.refl _, rfl⟩

/-- The fragment of the frame itself. -/
theorem Delivery.fragment (hfit : frame.Fits) (h : Delivery frame fid past s)
    {header : VideoHeader} {payload : Mem} (hg : IsFragment frame fid header payload)
    (nowUs : UInt64) :
    Delivery frame fid (past ++ [.processPacket header payload nowUs])
      (s.step (.processPacket header payload nowUs)) := by
  have hsame := Receiver.sameReader_processPacket h.started header payload nowUs
  have hring := Receiver.frameRing_processPacket h.sized.noFec h.started
    (IsFragment.accepts hfit hg h.ahead) payload nowUs
  have hdel : delivers fid (.processPacket header payload nowUs) =
      some header.fragmentIndex.toNat := if_pos hg.frameId
  -- the frame before this fragment, whether it was there or is started now
  have hbefore : FrameData.Progress frame fid (s.receiver.frameFor header nowUs)
      (delivered fid past) := by
    rcases s.receiver.frameFor_cases header nowUs with hf | ⟨hnone, f, heq, hf⟩
    · rw [hg.frameId] at hf
      exact h.progress _ hf
    · rw [hg.frameId] at hnone
      rw [heq, h.untouched hnone]
      refine FrameData.progress_start hfit ?_ hg.frameId hg.totalFragments nowUs
      rcases hf with hf | hf | ⟨addr, rfl⟩
      · exact h.sized.owned.1 f hf
      · exact h.sized.owned.2 _ f hf
      · rfl
  have hafter := hbefore.deliver hfit hg
  have hat : (s.receiver.processPacket header payload nowUs).frameAt fid =
      some ((s.receiver.frameFor header nowUs).deliver header payload) := by
    refine Receiver.frameAt_eq_some.mpr ⟨?_, hafter.frameId⟩
    rw [hring, ← hg.frameId, FixedRingBuffer.get_insert_self]
  refine ⟨sized_step _ h.sized, hsame.firstFrameReceived.trans h.started, ?_, fun hn => ?_,
    fun f hf => ?_⟩
  · show (s.receiver.processPacket header payload nowUs).nextFrameIdToRead ≤ fid
    rw [hsame.nextFrameIdToRead]
    exact h.ahead
  · exact absurd (hat.symm.trans hn) (by simp)
  · rw [delivered_append_some hdel, ← Option.some.inj (hat.symm.trans hf)]
    exact hafter

/-- **One call of the delivery.** -/
theorem delivery_step (hfit : frame.Fits) (past : List ReceiverCall) (s : ReceiverUse)
    (call : ReceiverCall) (h : Delivery frame fid past s) (hok : Delivering frame fid s call) :
    Delivery frame fid (past ++ [call]) (s.step call) := by
  cases call with
  | processPacket header payload nowUs =>
    rcases hok with hg | hslot
    · exact h.fragment hfit hg nowUs
    · have hsame := Receiver.sameReader_processPacket h.started header payload nowUs
      refine h.frame_rule (if_neg fun e => hslot (by rw [e]))
        (hsame.firstFrameReceived.trans h.started) ?_
        (Receiver.frameAt_processPacket_other (fun e => hslot (by rw [e])) (.inl hslot) payload
          nowUs)
      show (s.receiver.processPacket header payload nowUs).nextFrameIdToRead ≤ fid
      rw [hsame.nextFrameIdToRead]
      exact h.ahead
  | getNextFrame =>
    obtain ⟨hat, hahead, hstarted⟩ := frameAt_getNextFrame_other hok
    exact h.frame_rule rfl (hstarted.trans h.started) hahead hat
  | forceAdvanceTo frameId =>
    have hat : (s.step (.forceAdvanceTo frameId)).receiver.frameAt fid = s.receiver.frameAt fid :=
      Receiver.frameAt_forceAdvanceTo hok
    rcases s.receiver.forceAdvanceTo_cases frameId with ⟨-, heq⟩ | ⟨-, r', hd, heq⟩
    · refine h.frame_rule rfl ?_ ?_ hat <;> simp only [step, heq]
      · exact h.started
      · exact h.ahead
    · refine h.frame_rule rfl ?_ ?_ hat <;> simp only [step, heq]
      · exact hd.same.firstFrameReceived.trans h.started
      · exact hok
  | validateSequence seq => exact h.frame_rule rfl h.started h.ahead rfl
  | returnToPool i =>
    obtain ⟨hsame, hring⟩ := returnToPool_step s i
    refine h.frame_rule rfl (hsame.firstFrameReceived.trans h.started) ?_
      (Receiver.frameAt_congr hring fid)
    rw [hsame.nextFrameIdToRead]
    exact h.ahead

/-! ## Reassembly -/

/-- A receiver as it is after `before`, whatever the calls were, which has started, has not read
past frame `fid` and has not seen it. -/
structure Awaiting (fid : UInt32) (poolSize : Nat) (before : List ReceiverCall) : Prop where
  started : (run step (init poolSize) before).receiver.firstFrameReceived = true
  ahead : (run step (init poolSize) before).receiver.nextFrameIdToRead ≤ fid
  fresh : (run step (init poolSize) before).receiver.frameAt fid = none

theorem delivery_run (hfit : frame.Fits) {poolSize : Nat} {before calls : List ReceiverCall}
    (h : Awaiting fid poolSize before)
    (hcalls : Along step (Delivering frame fid) (run step (init poolSize) before) calls) :
    Delivery frame fid calls (run step (init poolSize) (before ++ calls)) := by
  have h0 : Delivery frame fid [] (run step (init poolSize) before) :=
    ⟨run_invariant' (fun _ call hs => sized_step call hs) (sized_init poolSize) before,
      h.started, h.ahead, fun _ => rfl, fun f hf => by rw [h.fresh] at hf; cases hf⟩
  rw [run_append]
  exact run_history (delivery_step hfit) h0 hcalls

/-- **Fragmentation and reassembly are inverse.** The fragments of a frame fit the pool buffers and
the receiver's limits. Whatever else arrives between them, and however often each of them does, the
frame is complete exactly when all of them have arrived, and then it is the encoded frame. Every
prefix of the delivery is a delivery, so it becomes complete with its last distinct fragment. -/
theorem reassembly_exact (frame : EncodedPacket) (fid : UInt32) (hfit : frame.Fits)
    (poolSize : Nat) (before calls : List ReceiverCall) (h : Awaiting fid poolSize before)
    (hcalls : Along step (Delivering frame fid) (run step (init poolSize) before) calls) :
    (frame.totalFrags.toNat ≤ 1024 ∧ ∀ i : UInt16, i.toNat < frame.totalFrags.toNat →
      (frame.fragmentSize i).toNat ≤ maxUdpPayload ∧
      SecureHeader.size + (VideoHeader.size + (frame.fragmentSize i).toNat) ≤
        Session.SealSite.hostVideo.bufferSize) ∧
    ((∃ f, (run step (init poolSize) (before ++ calls)).receiver.frameAt fid = some f ∧
        f.isComplete = true) ↔
      ∀ i, i < frame.totalFrags.toNat → i ∈ delivered fid calls) ∧
    ∀ f, (run step (init poolSize) (before ++ calls)).receiver.frameAt fid = some f →
      f.isComplete = true → f.totalSize = frame.packet.size ∧
        readN f.buffer.get f.totalSize = readN frame.packet.data.get frame.packet.size := by
  have hd := delivery_run hfit h hcalls
  have hpos := EncodedPacket.totalFrags_pos hfit
  have hle := EncodedPacket.totalFrags_le hfit
  refine ⟨⟨by omega, fun i hi => ?_⟩, ?_, fun f hf hc => ?_⟩
  · have hsize := EncodedPacket.fragmentSize_toNat hfit i
    simp only [FrameData.maxUdpPayload_eq, SecureHeader.size, VideoHeader.size,
      Session.SealSite.bufferSize]
    omega
  · constructor
    · rintro ⟨f, hf, hc⟩
      exact (hd.progress f hf).complete.mp hc
    · intro hall
      rcases hat : (run step (init poolSize) (before ++ calls)).receiver.frameAt fid with _ | f
      · have := hall 0 hpos
        rw [hd.untouched hat] at this
        exact absurd this (Finset.notMem_empty 0)
      · exact ⟨f, rfl, (hd.progress f hat).complete.mpr hall⟩
  · exact (hd.progress f hf).whole hfit hc

/-- A keyframe of 1301 bytes. -/
def keyframe1301 : EncodedPacket :=
  ⟨⟨⟨1024 * 1024, fun k => UInt8.ofNat k⟩, 1301, true, 0, 0⟩, true, false, 0, 0, 0⟩

/-- Fragment `i` of it as frame `fid`. -/
def fragment1301 (fid : UInt32) (i : UInt16) : ReceiverCall :=
  .processPacket (keyframe1301.videoHeader fid i 0) (keyframe1301.fragmentPayload i) 0

theorem isFragment_1301 (fid : UInt32) {i : UInt16} (hi : i.toNat < keyframe1301.totalFrags.toNat) :
    IsFragment keyframe1301 fid (keyframe1301.videoHeader fid i 0)
      (keyframe1301.fragmentPayload i) :=
  ⟨rfl, hi, fun _ _ => rfl⟩

/-- Frame 2 in the order 1, 1, 0 with a fragment of frame 3 between, after frame 1 opened the
gate. -/
theorem reassembly_exact_1301 :
    ∃ f, (run step (init 30) ([fragment1301 1 0] ++
        [fragment1301 2 1, fragment1301 3 0, fragment1301 2 1,
          fragment1301 2 0])).receiver.frameAt 2 = some f ∧ f.isComplete = true :=
  (reassembly_exact keyframe1301 2 ⟨by decide, by decide⟩ 30 [fragment1301 1 0]
    [fragment1301 2 1, fragment1301 3 0, fragment1301 2 1, fragment1301 2 0]
    ⟨by decide, by decide, rfl⟩
    ⟨.inl (isFragment_1301 2 (by decide)), .inr (by decide), .inl (isFragment_1301 2 (by decide)),
      .inl (isFragment_1301 2 (by decide)), trivial⟩).2.1.mpr (by decide)

end ReceiverUse

end RemotePlay.Client
