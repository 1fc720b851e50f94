import RemotePlay.Client.ReceiverFrames

/-!
# The jitter buffer

`JitterBuffer` holds reassembled frames until it is time to decode them. Clock
readings are nanoseconds and come in as arguments. A frame whose handle is
dropped goes back to the receiver through its deleter; each method returns the
frames it drops. `Consistent` is the invariant that ties the two rings
together, and the spec lemmas say what `PopFrame` hands out and where each
method leaves `m_nextPopFrameId`.
-/

namespace RemotePlay.Client

structure EntryInfo where
  frameId : UInt32
  pushTime : Int
  occupied : Bool

structure JitterBuffer where
  ring : FixedRingBuffer 32 (Option FrameData)
  info : FixedRingBuffer 32 EntryInfo
  nextPopFrameId : UInt32
  initialized : Bool
  count : UInt64
  maxFrames : UInt64
  avgJitterMs : Float
  lastPushTime : Int
  hasLastPushTime : Bool

namespace JitterBuffer

def init (maxFrames : UInt64) : JitterBuffer where
  ring := ⟨fun _ => none⟩
  info := ⟨fun _ => ⟨0, 0, false⟩⟩
  nextPopFrameId := 0
  initialized := false
  count := 0
  maxFrames := maxFrames
  avgJitterMs := 5.0
  lastPushTime := 0
  hasLastPushTime := false

/-- Milliseconds between two clock readings, by way of whole microseconds. -/
def elapsedMs (now before : Int) : Float := Float.ofInt ((now - before).tdiv 1000) / 1000.0

/-- The running estimate of the jitter, at a push. -/
def estimate (j : JitterBuffer) (now : Int) : JitterBuffer :=
  { j with
    avgJitterMs := if j.hasLastPushTime then
        j.avgJitterMs * 0.9 + (elapsedMs now j.lastPushTime - 16.67).abs * 0.1
      else j.avgJitterMs
    lastPushTime := now
    hasLastPushTime := true }

/-- The smallest occupied id below `oldestId`, over the slots `i, …, i + n - 1` from the pop
pointer. -/
def oldest (j : JitterBuffer) (oldestId : UInt32) (found : Bool) : Nat → Nat → Option UInt32
  | 0, _ => if found then some oldestId else none
  | n + 1, i =>
    let inf := j.info.get (j.nextPopFrameId + UInt32.ofNat i)
    if inf.occupied && decide (inf.frameId < oldestId) then oldest j inf.frameId true n (i + 1)
    else oldest j oldestId found n (i + 1)

/-- Drop the oldest frame; its slot is emptied and the pop pointer steps over it. -/
def dropFrame (j : JitterBuffer) (oldestId : UInt32) : JitterBuffer :=
  { j with
    ring := j.ring.insert oldestId none
    info := j.info.insert oldestId { j.info.get oldestId with occupied := false }
    count := j.count - 1
    nextPopFrameId :=
      if oldestId = j.nextPopFrameId then j.nextPopFrameId + 1 else j.nextPopFrameId }

/-- `m_ring.capacity() - 4`. -/
def capacity : UInt64 := 28

/-- The overflow loop, `rounds` of which are left. -/
def dropOldest (j : JitterBuffer) : Nat → JitterBuffer × List FrameData
  | 0 => (j, [])
  | rounds + 1 =>
    match j.oldest 0xffffffff false 32 0 with
    | none => (j, [])
    | some oldestId =>
      let (j', dropped) := dropOldest (j.dropFrame oldestId) rounds
      (j', (j.ring.get oldestId).toList ++ dropped)

/-- Both rings get the frame; the frame that was in its slot is dropped. -/
def place (j : JitterBuffer) (frame : FrameData) (now : Int) : JitterBuffer :=
  { j with
    ring := j.ring.insert frame.frameId (some frame)
    info := j.info.insert frame.frameId ⟨frame.frameId, now, true⟩
    count := j.count + 1 }

/-- The first push places the pop pointer. -/
def firstPush (j : JitterBuffer) (frame : FrameData) : JitterBuffer :=
  if j.initialized then j
  else { j with nextPopFrameId := frame.frameId, initialized := true }

def pushFrame (j : JitterBuffer) (frame : FrameData) (now : Int) :
    JitterBuffer × List FrameData :=
  let j := j.firstPush frame
  if frame.frameId < j.nextPopFrameId then (j, [frame])
  else
    let j := j.estimate now
    let existing := j.ring.get frame.frameId
    if existing.any (·.frameId = frame.frameId) then (j, [frame])
    else
      let j := j.place frame now
      let (j, dropped) := j.dropOldest (j.count.toNat - capacity.toNat)
      (j, existing.toList ++ dropped)

/-- Without a sync time a frame waits out the jitter estimate unless the buffer is full enough. -/
def tooEarly (j : JitterBuffer) (info : EntryInfo) (frame : FrameData) (currentSyncTimeUs : UInt64)
    (now : Int) : Bool :=
  if currentSyncTimeUs > 0 then frame.captureTimestamp > currentSyncTimeUs + 5000
  else
    let target := j.avgJitterMs * 1.1
    let targetDelayMs := if target < 1.0 then 1.0 else if 20.0 < target then 20.0 else target
    decide (elapsedMs now info.pushTime < targetDelayMs) && decide (j.count < j.maxFrames)

/-- The pop pointer's frame leaves the buffer. -/
def takeFrame (j : JitterBuffer) : JitterBuffer :=
  { j with
    ring := j.ring.insert j.nextPopFrameId none
    info := j.info.insert j.nextPopFrameId { j.info.get j.nextPopFrameId with occupied := false }
    count := j.count - 1
    nextPopFrameId := j.nextPopFrameId + 1 }

/-- An occupied slot holds its frame (`Consistent`), so the inner `none` is never met. -/
def popFrame (j : JitterBuffer) (currentSyncTimeUs : UInt64) (now : Int) :
    Option FrameData × JitterBuffer :=
  let info := j.info.get j.nextPopFrameId
  if info.occupied ∧ info.frameId = j.nextPopFrameId then
    match j.ring.get j.nextPopFrameId with
    | none => (none, j)
    | some frame =>
      if j.tooEarly info frame currentSyncTimeUs now then (none, j) else (some frame, j.takeFrame)
  else (none, j)

/-- The loop of `Reset`: `n` slots left, `i` done. -/
def clear (j : JitterBuffer) : Nat → Nat → JitterBuffer × List FrameData
  | 0, _ => (j, [])
  | n + 1, i =>
    let fid := j.nextPopFrameId + UInt32.ofNat i
    let (j', dropped) := clear { j with
      ring := j.ring.insert fid none
      info := j.info.insert fid { j.info.get fid with occupied := false } } n (i + 1)
    (j', (j.ring.get fid).toList ++ dropped)

def reset (j : JitterBuffer) (nextExpectedId : UInt32) : JitterBuffer × List FrameData :=
  let (j, dropped) := j.clear 32 0
  ({ j with nextPopFrameId := nextExpectedId, count := 0, initialized := true }, dropped)

/-! ## The two rings together -/

/-- An occupied slot holds the frame its info names, and `P` of every frame in the ring. -/
structure Consistent (P : FrameData → Prop) (j : JitterBuffer) : Prop where
  occupied : ∀ i, (j.info.get i).occupied = true →
    ∃ f, j.ring.get i = some f ∧ f.frameId = (j.info.get i).frameId
  frames : ∀ i f, j.ring.get i = some f → P f

variable {P : FrameData → Prop} {j : JitterBuffer}

theorem consistent_init (maxFrames : UInt64) : Consistent P (init maxFrames) where
  occupied _ h := by cases h
  frames _ _ h := by cases h

/-- The rings after one slot is emptied. -/
theorem Consistent.vacate (h : Consistent P j) {j' : JitterBuffer} {fid : UInt32} {inf : EntryInfo}
    (hring : j'.ring = j.ring.insert fid none) (hinfo : j'.info = j.info.insert fid inf)
    (hinf : inf.occupied = false) : Consistent P j' where
  occupied i hi := by
    rw [hinfo] at hi ⊢
    rw [hring]
    rw [FixedRingBuffer.get_insert] at hi
    split at hi
    · rw [hinf] at hi
      cases hi
    · next hne =>
      rw [FixedRingBuffer.get_insert_ne _ _ hne, FixedRingBuffer.get_insert_ne _ _ hne]
      exact h.occupied i hi
  frames i f hf := by
    rw [hring] at hf
    rcases FixedRingBuffer.get_insert_cases hf with h' | h'
    · cases h'
    · exact h.frames i f h'

theorem Consistent.place (h : Consistent P j) {frame : FrameData} (hframe : P frame) (now : Int) :
    Consistent P (j.place frame now) where
  occupied i hi := by
    simp only [JitterBuffer.place] at hi ⊢
    by_cases hslot : i.toNat % 32 = frame.frameId.toNat % 32
    · rw [FixedRingBuffer.get_insert, if_pos hslot, FixedRingBuffer.get_insert, if_pos hslot]
      exact ⟨frame, rfl, rfl⟩
    · rw [FixedRingBuffer.get_insert_ne _ _ hslot] at hi ⊢
      rw [FixedRingBuffer.get_insert_ne _ _ hslot]
      exact h.occupied i hi
  frames i f hf := by
    rcases FixedRingBuffer.get_insert_cases hf with h' | h'
    · cases h'
      exact hframe
    · exact h.frames i f h'

theorem Consistent.congr (h : Consistent P j) {j' : JitterBuffer} (hring : j'.ring = j.ring)
    (hinfo : j'.info = j.info) : Consistent P j' where
  occupied := by
    rw [hring, hinfo]
    exact h.occupied
  frames := by
    rw [hring]
    exact h.frames

theorem Consistent.dropOldest (h : Consistent P j) (rounds : Nat) :
    Consistent P (j.dropOldest rounds).1 := by
  induction rounds generalizing j with
  | zero => exact h
  | succ rounds ih =>
    simp only [JitterBuffer.dropOldest]
    split
    · exact h
    · exact ih (h.vacate rfl rfl rfl)

theorem Consistent.pushFrame (h : Consistent P j) {frame : FrameData} (hframe : P frame)
    (now : Int) : Consistent P (j.pushFrame frame now).1 := by
  have h0 : Consistent P (j.firstPush frame) := by
    unfold firstPush
    split
    · exact h
    · exact h.congr rfl rfl
  have h1 : Consistent P ((j.firstPush frame).estimate now) := h0.congr rfl rfl
  simp only [JitterBuffer.pushFrame]
  split
  · exact h0
  · split
    · exact h1
    · exact (h1.place hframe now).dropOldest _

theorem clear_spec (h : Consistent P j) (n i : Nat) :
    Consistent P (j.clear n i).1 := by
  induction n generalizing j i with
  | zero => exact h
  | succ n ih => exact ih (h.vacate rfl rfl rfl) (i + 1)

theorem Consistent.reset (h : Consistent P j) (nextExpectedId : UInt32) :
    Consistent P (j.reset nextExpectedId).1 :=
  (clear_spec h 32 0).congr rfl rfl

/-! ## The pop pointer -/

/-- **PopFrame** hands out the frame at the pop pointer and steps over it, or does nothing. -/
theorem popFrame_cases (h : Consistent P j) (currentSyncTimeUs : UInt64) (now : Int) :
    j.popFrame currentSyncTimeUs now = (none, j) ∨
    ∃ f, P f ∧ f.frameId = j.nextPopFrameId ∧ (j.info.get j.nextPopFrameId).occupied = true ∧
      j.popFrame currentSyncTimeUs now = (some f, j.takeFrame) := by
  simp only [popFrame]
  split
  · next hocc =>
    obtain ⟨f, hf, hid⟩ := h.occupied _ hocc.1
    simp only [hf]
    split
    · exact .inl rfl
    · exact .inr ⟨f, h.frames _ f hf, hid.trans hocc.2, hocc.1, rfl⟩
  · exact .inl rfl

theorem Consistent.takeFrame (h : Consistent P j) : Consistent P j.takeFrame :=
  h.vacate rfl rfl rfl

theorem reset_pointer (j : JitterBuffer) (nextExpectedId : UInt32) :
    (j.reset nextExpectedId).1.nextPopFrameId = nextExpectedId ∧
      (j.reset nextExpectedId).1.initialized = true := ⟨rfl, rfl⟩

/-- A push that does not overflow moves the pop pointer only when it is the first. -/
theorem pushFrame_pointer (hcount : j.count < capacity) (frame : FrameData) (now : Int) :
    (j.pushFrame frame now).1.initialized = true ∧
      (j.pushFrame frame now).1.nextPopFrameId =
        if j.initialized then j.nextPopFrameId else frame.frameId := by
  have hfirst : (j.firstPush frame).initialized = true ∧ (j.firstPush frame).count = j.count ∧
      (j.firstPush frame).nextPopFrameId =
        if j.initialized then j.nextPopFrameId else frame.frameId := by
    unfold firstPush
    split
    · next hinit => exact ⟨hinit, rfl, rfl⟩
    · exact ⟨rfl, rfl, rfl⟩
  obtain ⟨hinit, hcnt, hnext⟩ := hfirst
  have hrounds : (((j.firstPush frame).estimate now).place frame now).count.toNat -
      capacity.toNat = 0 := by
    show ((j.firstPush frame).count + 1).toNat - capacity.toNat = 0
    have hlt := UInt64.lt_iff_toNat_lt.mp hcount
    have hcap : capacity.toNat = 28 := rfl
    rw [hcnt, UInt64.toNat_add]
    show (j.count.toNat + 1) % 2 ^ 64 - capacity.toNat = 0
    omega
  simp only [pushFrame]
  split
  · exact ⟨hinit, hnext⟩
  · split
    · exact ⟨hinit, hnext⟩
    · rw [hrounds]
      exact ⟨hinit, hnext⟩

end JitterBuffer

end RemotePlay.Client
