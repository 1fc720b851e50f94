import RemotePlay.Client.FrameOwnership
import RemotePlay.Client.JitterRange
import Mathlib.Data.List.Chain

/-!
# The slots of the jitter buffer

What any pushes, pops and resets keep of the two rings, whatever the frame ids
are. `Slots` ties the rings to each other and to the pop pointer. The counter
follows the occupied entries until a push overwrites a frame of another id,
which nothing subtracts. The pop pointer moves by one at a time, over the frames
it hands out and over those that the overflow loop drops under it.
-/

namespace RemotePlay.Client

open Lib

/-! ## Ids in a row -/

/-- The ids follow each other, up to the one before `next`. -/
structure Trails (ids : List UInt32) (next : UInt32) : Prop where
  chain : ids.IsChain fun a b => b = a + 1
  last : ∀ id ∈ ids.getLast?, next = id + 1

theorem trails_nil (next : UInt32) : Trails [] next := ⟨List.isChain_nil, fun _ h => nomatch h⟩

theorem Trails.snoc {ids : List UInt32} {next : UInt32} (h : Trails ids next) :
    Trails (ids ++ [next]) (next + 1) := by
  refine ⟨List.isChain_append.mpr ⟨h.chain, List.isChain_singleton _, fun a ha b hb => ?_⟩,
    fun id hid => ?_⟩
  · cases hb
    exact h.last a ha
  · rw [List.getLast?_concat] at hid
    cases hid
    rfl

namespace JitterBuffer

/-! ## The rings -/

/-- An entry is occupied when its slot holds a frame, and then both have one id, which belongs to
the slot and is not behind the pop pointer. -/
structure Slots (j : JitterBuffer) : Prop where
  occupied : ∀ i, (j.info.get i).occupied = true ↔ ∃ f, j.ring.get i = some f
  frame : ∀ i f, j.ring.get i = some f → f.frameId = (j.info.get i).frameId ∧
    f.frameId.toNat % 32 = i.toNat % 32 ∧ j.nextPopFrameId ≤ f.frameId

def occupiedEntries (j : JitterBuffer) : Nat :=
  (List.range 32).countP fun k => (j.info.buffer k).occupied

variable {j j' : JitterBuffer}

theorem Vacant.slotsEmpty (h : Vacant j) : Slots j where
  occupied i := by
    rw [(h.slots i).1, (h.slots i).2]
    simp
  frame i f hf := by
    rw [(h.slots i).1] at hf
    cases hf

theorem Slots.congr (h : Slots j) (hring : j'.ring = j.ring) (hinfo : j'.info = j.info)
    (hnext : j'.nextPopFrameId = j.nextPopFrameId) : Slots j' := by
  refine ⟨?_, ?_⟩
  · rw [hring, hinfo]
    exact h.occupied
  · rw [hring, hinfo, hnext]
    exact h.frame

/-- One slot is emptied; the pop pointer is not beyond what is in the others. -/
theorem Slots.vacate (h : Slots j) {fid : UInt32} {inf : EntryInfo}
    (hring : j'.ring = j.ring.insert fid none) (hinfo : j'.info = j.info.insert fid inf)
    (hinf : inf.occupied = false)
    (hnext : ∀ i f, i.toNat % 32 ≠ fid.toNat % 32 → j.ring.get i = some f →
      j'.nextPopFrameId ≤ f.frameId) : Slots j' := by
  refine ⟨fun i => ?_, fun i f hf => ?_⟩
  · rw [hring, hinfo, FixedRingBuffer.get_insert, FixedRingBuffer.get_insert]
    split
    · simp [hinf]
    · exact h.occupied i
  · rw [hring, FixedRingBuffer.get_insert] at hf
    split at hf
    · cases hf
    · next hne =>
      obtain ⟨hid, hslot, -⟩ := h.frame i f hf
      rw [hinfo, FixedRingBuffer.get_insert_ne _ _ hne]
      exact ⟨hid, hslot, hnext i f hne hf⟩

theorem Slots.place (h : Slots j) {frame : FrameData} (hge : j.nextPopFrameId ≤ frame.frameId)
    (now : Int) : Slots (j.place frame now) := by
  refine ⟨fun i => ?_, fun i f hf => ?_⟩
  · simp only [JitterBuffer.place, FixedRingBuffer.get_insert]
    split
    · simp
    · exact h.occupied i
  · simp only [JitterBuffer.place, FixedRingBuffer.get_insert] at hf ⊢
    split at hf
    · next hslot =>
      cases hf
      rw [if_pos hslot]
      exact ⟨rfl, hslot.symm, hge⟩
    · next hne =>
      rw [if_neg hne]
      exact h.frame i f hf

/-- A frame that is not at the pop pointer is beyond it. -/
theorem Slots.beyond (h : Slots j) {i : UInt32} {f : FrameData}
    (hne : i.toNat % 32 ≠ j.nextPopFrameId.toNat % 32) (hf : j.ring.get i = some f) :
    j.nextPopFrameId + 1 ≤ f.frameId := by
  obtain ⟨-, hslot, hge⟩ := h.frame i f hf
  rw [UInt32.le_iff_toNat_le] at hge ⊢
  have hid : f.frameId.toNat ≠ j.nextPopFrameId.toNat := fun heq => hne (by rw [← hslot, heq])
  have := f.frameId.toNat_lt
  rw [UInt32.toNat_add]
  show (j.nextPopFrameId.toNat + 1) % 2 ^ 32 ≤ _
  omega

theorem Slots.takeFrame (h : Slots j) : Slots j.takeFrame :=
  h.vacate rfl rfl rfl fun _ _ hne hf => h.beyond hne hf

theorem Slots.dropFrame (h : Slots j) (oldestId : UInt32) : Slots (j.dropFrame oldestId) := by
  by_cases heq : oldestId = j.nextPopFrameId
  · rw [heq, dropFrame_pointer]
    exact h.takeFrame
  · have hnext : (j.dropFrame oldestId).nextPopFrameId = j.nextPopFrameId := if_neg heq
    refine h.vacate rfl rfl rfl fun i f _ hf => ?_
    rw [hnext]
    exact (h.frame i f hf).2.2

theorem Slots.consistent (h : Slots j) : Consistent (fun _ => True) j where
  occupied i hi := by
    obtain ⟨f, hf⟩ := (h.occupied i).mp hi
    exact ⟨f, hf, (h.frame i f hf).1⟩
  frames _ _ _ := trivial

/-- What the scan finds is an occupied entry. -/
theorem oldest_occupied {start oldestId : UInt32} {found : Bool} {n i : Nat}
    (h : j.oldest start found n i = some oldestId) : (found = true ∧ oldestId = start) ∨
      ∃ k, (j.info.get k).occupied = true ∧ (j.info.get k).frameId = oldestId := by
  induction n generalizing start found i with
  | zero =>
    unfold oldest at h
    split at h
    · next hfound =>
      cases h
      exact .inl ⟨hfound, rfl⟩
    · cases h
  | succ n ih =>
    simp only [oldest] at h
    split at h
    · next hocc =>
      rw [Bool.and_eq_true] at hocc
      rcases ih h with ⟨-, rfl⟩ | hk
      · exact .inr ⟨_, hocc.1, rfl⟩
      · exact .inr hk
    · exact ih h

/-- And its frame is in the slot. -/
theorem Slots.oldest (h : Slots j) {oldestId : UInt32}
    (ho : j.oldest 0xffffffff false 32 0 = some oldestId) : ∃ f, j.ring.get oldestId = some f := by
  rcases oldest_occupied ho with ⟨hfalse, -⟩ | ⟨k, hocc, rfl⟩
  · cases hfalse
  · obtain ⟨f, hf⟩ := (h.occupied k).mp hocc
    obtain ⟨hid, hslot, -⟩ := h.frame k f hf
    refine ⟨f, ?_⟩
    rw [← hid, j.ring.get_congr hslot]
    exact hf

/-! ## The counter -/

/-- The counter is right. -/
def Counts (j : JitterBuffer) : Prop := j.count.toNat = j.ring.occupants.length

theorem length_occupants_le (j : JitterBuffer) : j.ring.occupants.length ≤ 32 :=
  List.length_filterMap_le _ _

theorem slot_ofNat {k : Nat} (hk : k ∈ List.range 32) : (UInt32.ofNat k).toNat % 32 = k := by
  have := List.mem_range.mp hk
  rw [UInt32.toNat_ofNat']
  omega

theorem occupiedEntries_eq (h : Slots j) : j.occupiedEntries = j.ring.occupants.length := by
  unfold occupiedEntries FixedRingBuffer.occupants Ring.occupants
  rw [List.length_filterMap_eq_countP]
  refine List.countP_congr fun k hk => ?_
  have hocc := h.occupied (UInt32.ofNat k)
  unfold FixedRingBuffer.get at hocc
  rw [slot_ofNat hk] at hocc
  rw [hocc, Option.isSome_iff_exists]

theorem Vacant.counts (h : Vacant j) : Counts j := by
  have hnil : j.ring.occupants = [] := by
    refine List.filterMap_eq_nil_iff.mpr fun k hk => ?_
    have hslot := (h.slots (UInt32.ofNat k)).1
    unfold FixedRingBuffer.get at hslot
    rwa [slot_ofNat hk] at hslot
  unfold Counts
  rw [hnil, h.count]
  rfl

theorem length_insert (j : JitterBuffer) (i : UInt32) (v : Option FrameData) :
    (j.ring.insert i v).occupants.length + (j.ring.get i).toList.length =
      j.ring.occupants.length + v.toList.length := by
  have hput := j.ring.countP_insert (fun _ => true) (by omega) i v
  simpa only [List.countP_true] using hput

theorem counts_place (h : Counts j) {frame : FrameData}
    (hfree : j.ring.get frame.frameId = none) (now : Int) : Counts (j.place frame now) := by
  have hput := j.length_insert frame.frameId (some frame)
  have hle := j.length_occupants_le
  rw [hfree] at hput
  unfold Counts at h ⊢
  show (j.count + 1).toNat = (j.ring.insert frame.frameId (some frame)).occupants.length
  rw [UInt64.toNat_add]
  show (j.count.toNat + 1) % 2 ^ 64 = _
  simp only [Option.toList_none, Option.toList_some, List.length_nil, List.length_singleton] at hput
  omega

/-- A frame is taken out of its slot. -/
theorem counts_vacate (h : Counts j) {fid : UInt32} {f : FrameData} (hf : j.ring.get fid = some f)
    (hring : j'.ring = j.ring.insert fid none) (hcount : j'.count = j.count - 1) : Counts j' := by
  have hput := j.length_insert fid none
  rw [hf] at hput
  simp only [Option.toList_none, Option.toList_some, List.length_nil, List.length_singleton] at hput
  unfold Counts at h ⊢
  have hone : (1 : UInt64) ≤ j.count :=
    UInt64.le_iff_toNat_le.mpr (by show 1 ≤ j.count.toNat; omega)
  rw [hring, hcount, UInt64.toNat_sub_of_le _ _ hone, h]
  show j.ring.occupants.length - 1 = _
  omega

/-! ## The overflow loop -/

/-- The ids that the overflow loop drops at the pop pointer. -/
def passedOver (j : JitterBuffer) : Nat → List UInt32
  | 0 => []
  | rounds + 1 =>
    match j.oldest 0xffffffff false 32 0 with
    | none => []
    | some oldestId =>
      (if oldestId = j.nextPopFrameId then [oldestId] else []) ++
        passedOver (j.dropFrame oldestId) rounds

theorem Slots.dropOldest (h : Slots j) (rounds : Nat) : Slots (j.dropOldest rounds).1 := by
  induction rounds generalizing j with
  | zero => exact h
  | succ rounds ih =>
    simp only [JitterBuffer.dropOldest]
    split
    · exact h
    · exact ih (h.dropFrame _)

theorem counts_dropOldest (h : Slots j) (hcounts : Counts j) (rounds : Nat) :
    Counts (j.dropOldest rounds).1 := by
  induction rounds generalizing j with
  | zero => exact hcounts
  | succ rounds ih =>
    simp only [JitterBuffer.dropOldest]
    split
    · exact hcounts
    · next oldestId ho =>
      obtain ⟨f, hf⟩ := h.oldest ho
      exact ih (h.dropFrame oldestId) (counts_vacate hcounts hf rfl rfl)

theorem trails_dropOldest {ids : List UInt32} (h : Trails ids j.nextPopFrameId) (rounds : Nat) :
    Trails (ids ++ j.passedOver rounds) (j.dropOldest rounds).1.nextPopFrameId := by
  induction rounds generalizing j ids with
  | zero =>
    simp only [passedOver, List.append_nil, JitterBuffer.dropOldest]
    exact h
  | succ rounds ih =>
    simp only [passedOver, JitterBuffer.dropOldest]
    cases j.oldest 0xffffffff false 32 0 with
    | none =>
      rw [List.append_nil]
      exact h
    | some oldestId =>
      dsimp only
      rw [← List.append_assoc]
      apply ih
      simp only [dropFrame]
      split
      · next heq =>
        rw [heq]
        exact h.snoc
      · rw [List.append_nil]
        exact h

end JitterBuffer

/-! ## Runs -/

inductive JitterCall where
  | pushFrame (frame : FrameData) (now : Int)
  | popFrame (currentSyncTimeUs : UInt64) (now : Int)
  | reset (nextExpectedId : UInt32)

/-- A step of the pop pointer: the frame it was at is handed out, or the overflow loop drops it. -/
inductive Passed where
  | popped (frameId : UInt32)
  | dropped (frameId : UInt32)

def Passed.frameId : Passed → UInt32
  | .popped frameId => frameId
  | .dropped frameId => frameId

structure JitterLog where
  pushed : List FrameData
  popped : List FrameData
  /-- Since the last `Reset`. -/
  passed : List Passed
  /-- Since the last `Reset` a push has overwritten a frame of another id. -/
  overwritten : Bool

namespace JitterBuffer

def step (j : JitterBuffer) : JitterCall → JitterBuffer
  | .pushFrame frame now => (j.pushFrame frame now).1
  | .popFrame currentSyncTimeUs now => (j.popFrame currentSyncTimeUs now).2
  | .reset nextExpectedId => (j.reset nextExpectedId).1

/-- The push is neither late nor a duplicate. -/
def Places (j : JitterBuffer) (frame : FrameData) : Prop :=
  ¬ frame.frameId < (j.firstPush frame).nextPopFrameId ∧
    ¬ (j.ring.get frame.frameId).any (·.frameId = frame.frameId) = true

instance (j : JitterBuffer) (frame : FrameData) : Decidable (j.Places frame) := by
  unfold Places
  infer_instance

/-- The buffer before the overflow loop of a push. -/
def placed (j : JitterBuffer) (frame : FrameData) (now : Int) : JitterBuffer :=
  ((j.firstPush frame).estimate now).place frame now

def overflow (j : JitterBuffer) : Nat := j.count.toNat - capacity.toNat

def note (j : JitterBuffer) (call : JitterCall) (log : JitterLog) : JitterLog :=
  match call with
  | .pushFrame frame now =>
    { log with
      pushed := log.pushed ++ [frame]
      passed := if j.Places frame then
          log.passed ++
            ((j.placed frame now).passedOver (j.placed frame now).overflow).map .dropped
        else log.passed
      overwritten := log.overwritten ||
        decide (j.Places frame) && (j.ring.get frame.frameId).isSome }
  | .popFrame currentSyncTimeUs now =>
    match (j.popFrame currentSyncTimeUs now).1 with
    | none => log
    | some frame =>
      { log with
        popped := log.popped ++ [frame]
        passed := log.passed ++ [.popped frame.frameId] }
  | .reset _ => { log with passed := [], overwritten := false }

/-- What holds of the buffer and its log. -/
structure Sound (j : JitterBuffer) (log : JitterLog) : Prop where
  slots : Slots j
  fresh : j.initialized = false → (∀ i, j.ring.get i = none) ∧ log.passed = []
  counts : log.overwritten = false → Counts j
  once : ∀ p : FrameData → Bool,
    log.popped.countP p + j.ring.occupants.countP p ≤ log.pushed.countP p
  trails : Trails (log.passed.map Passed.frameId) j.nextPopFrameId

variable {j : JitterBuffer} {log : JitterLog}

theorem firstPush_ring (j : JitterBuffer) (frame : FrameData) :
    (j.firstPush frame).ring = j.ring ∧ (j.firstPush frame).info = j.info ∧
      (j.firstPush frame).count = j.count := by
  unfold firstPush
  split <;> exact ⟨rfl, rfl, rfl⟩

/-- The three ends of a push. -/
theorem pushFrame_cases (j : JitterBuffer) (frame : FrameData) (now : Int) :
    (¬ j.Places frame ∧ ((j.pushFrame frame now).1 = j.firstPush frame ∨
      (j.pushFrame frame now).1 = (j.firstPush frame).estimate now)) ∨
    (j.Places frame ∧ (j.pushFrame frame now).1 =
      ((j.placed frame now).dropOldest (j.placed frame now).overflow).1) := by
  have hring : ((j.firstPush frame).estimate now).ring = j.ring := (j.firstPush_ring frame).1
  unfold pushFrame
  dsimp only
  rw [hring]
  by_cases hlate : frame.frameId < (j.firstPush frame).nextPopFrameId
  · rw [if_pos hlate]
    exact .inl ⟨fun h => h.1 hlate, .inl rfl⟩
  rw [if_neg hlate]
  by_cases hdup : (j.ring.get frame.frameId).any (·.frameId = frame.frameId) = true
  · rw [if_pos hdup]
    exact .inl ⟨fun h => h.2 hdup, .inr rfl⟩
  · rw [if_neg hdup]
    exact .inr ⟨⟨hlate, hdup⟩, rfl⟩

/-- The first push may move the pop pointer, since nothing is in the rings yet. -/
theorem Sound.firstPush (h : Sound j log) (frame : FrameData) :
    Slots (j.firstPush frame) ∧
      Trails (log.passed.map Passed.frameId) (j.firstPush frame).nextPopFrameId := by
  unfold JitterBuffer.firstPush
  split
  · exact ⟨h.slots, h.trails⟩
  · next hinit =>
    obtain ⟨hempty, hpassed⟩ := h.fresh (Bool.not_eq_true _ ▸ hinit)
    refine ⟨⟨h.slots.occupied, fun i f hf => ?_⟩, ?_⟩
    · change j.ring.get i = some f at hf
      rw [hempty] at hf
      cases hf
    · rw [hpassed]
      exact trails_nil _

theorem pushed_once (h : Sound j log) (frame : FrameData) (now : Int) (p : FrameData → Bool) :
    log.popped.countP p + (j.pushFrame frame now).1.ring.occupants.countP p ≤
      (log.pushed ++ [frame]).countP p := by
  have hpush := j.countP_pushFrame p frame now
  have honce := h.once p
  rw [List.countP_append]
  omega

theorem Sound.pushFrame (h : Sound j log) (frame : FrameData) (now : Int) :
    Sound (j.pushFrame frame now).1 (j.note (.pushFrame frame now) log) := by
  obtain ⟨hslots, htrails⟩ := h.firstPush frame
  obtain ⟨hring, hinfo, hcount⟩ := j.firstPush_ring frame
  have hinit := j.pushFrame_initialized frame now
  have hfresh : (j.pushFrame frame now).1.initialized = false →
      (∀ i, (j.pushFrame frame now).1.ring.get i = none) ∧
        (j.note (.pushFrame frame now) log).passed = [] := by
    intro hnot
    rw [hinit] at hnot
    cases hnot
  rcases j.pushFrame_cases frame now with ⟨hnot, heq⟩ | ⟨hplaces, heq⟩
  · -- the frame is dropped, and at most the estimate is new
    have hnote : j.note (.pushFrame frame now) log =
        { log with pushed := log.pushed ++ [frame] } := by
      simp [note, hnot]
    have hsame : (j.pushFrame frame now).1.ring = (j.firstPush frame).ring ∧
        (j.pushFrame frame now).1.info = (j.firstPush frame).info ∧
        (j.pushFrame frame now).1.count = (j.firstPush frame).count ∧
        (j.pushFrame frame now).1.nextPopFrameId = (j.firstPush frame).nextPopFrameId := by
      rcases heq with heq | heq <;> rw [heq] <;> exact ⟨rfl, rfl, rfl, rfl⟩
    obtain ⟨hring', hinfo', hcount', hnext'⟩ := hsame
    refine ⟨hslots.congr hring' hinfo' hnext', hfresh, ?_, ?_, ?_⟩
    · rw [hnote]
      intro hover
      unfold Counts
      rw [hcount', hring', hcount, hring]
      exact h.counts hover
    · rw [hnote]
      exact pushed_once h frame now
    · rw [hnote, hnext']
      exact htrails
  · have hest : Slots ((j.firstPush frame).estimate now) := hslots.congr rfl rfl rfl
    have hplaced : Slots (j.placed frame now) := hest.place (UInt32.not_lt.mp hplaces.1) now
    have htrails' : Trails (log.passed.map Passed.frameId) (j.placed frame now).nextPopFrameId :=
      htrails
    have hpassed : (j.note (.pushFrame frame now) log).passed.map Passed.frameId =
        log.passed.map Passed.frameId ++
          (j.placed frame now).passedOver (j.placed frame now).overflow := by
      simp only [note, hplaces, if_true, List.map_append, List.map_map]
      exact congrArg _ (List.map_id _)
    refine ⟨?_, hfresh, fun hover => ?_, pushed_once h frame now, ?_⟩
    · rw [heq]
      exact hplaced.dropOldest _
    · simp only [note, hplaces, decide_true, Bool.true_and, Bool.or_eq_false_iff,
        Option.isSome_eq_false_iff, Option.isNone_iff_eq_none] at hover
      have hcounts : Counts ((j.firstPush frame).estimate now) := by
        unfold Counts
        show (j.firstPush frame).count.toNat = (j.firstPush frame).ring.occupants.length
        rw [hcount, hring]
        exact h.counts hover.1
      have hfree : ((j.firstPush frame).estimate now).ring.get frame.frameId = none := by
        show (j.firstPush frame).ring.get frame.frameId = none
        rw [hring]
        exact hover.2
      rw [heq]
      exact counts_dropOldest hplaced (counts_place hcounts hfree now) _
    · rw [heq, hpassed]
      exact trails_dropOldest htrails' _

theorem Sound.popFrame (h : Sound j log) (currentSyncTimeUs : UInt64) (now : Int) :
    Sound (j.popFrame currentSyncTimeUs now).2 (j.note (.popFrame currentSyncTimeUs now) log) := by
  rcases popFrame_cases h.slots.consistent currentSyncTimeUs now with
    heq | ⟨f, -, hid, hocc, heq⟩
  · simp only [note, heq]
    exact h
  have honce := fun p => j.countP_popFrame p currentSyncTimeUs now
  simp only [note, heq] at honce ⊢
  obtain ⟨g, hg⟩ := (h.slots.occupied _).mp hocc
  refine ⟨h.slots.takeFrame, fun hinit => ?_, fun hover => ?_, fun p => ?_, ?_⟩
  · obtain ⟨hempty, -⟩ := h.fresh hinit
    rw [hempty] at hg
    cases hg
  · exact counts_vacate (h.counts hover) hg rfl rfl
  · have hold := h.once p
    have hpop := honce p
    rw [Option.toList_some] at hpop
    show (log.popped ++ [f]).countP p + _ ≤ log.pushed.countP p
    rw [List.countP_append]
    omega
  · rw [List.map_append]
    show Trails (_ ++ [f.frameId]) (j.nextPopFrameId + 1)
    rw [hid]
    exact h.trails.snoc

theorem Sound.reset (h : Sound j log) (nextExpectedId : UInt32) :
    Sound (j.reset nextExpectedId).1 (j.note (.reset nextExpectedId) log) := by
  have hvacant := j.vacant_reset nextExpectedId
  refine ⟨hvacant.slotsEmpty, fun hinit => ?_, fun _ => hvacant.counts, fun p => ?_, trails_nil _⟩
  · rw [(j.reset_pointer nextExpectedId).2] at hinit
    cases hinit
  · have hold := h.once p
    have hreset := j.countP_reset p nextExpectedId
    show log.popped.countP p + _ ≤ log.pushed.countP p
    omega

def start (maxFrames : UInt64) : JitterBuffer × JitterLog := (init maxFrames, ⟨[], [], [], false⟩)

theorem sound_start (maxFrames : UInt64) :
    Sound (start maxFrames).1 (start maxFrames).2 := by
  have hvacant := vacant_init maxFrames
  refine ⟨hvacant.slotsEmpty, fun _ => ⟨fun i => (hvacant.slots i).1, rfl⟩, fun _ => hvacant.counts,
    fun p => ?_, trails_nil _⟩
  have hnil : (init maxFrames).ring.occupants = [] := FixedRingBuffer.occupants_empty
  show 0 + (init maxFrames).ring.occupants.countP p ≤ 0
  rw [hnil]
  exact Nat.le_refl 0

/-- **One call.** -/
theorem sound_step (x : JitterBuffer × JitterLog) (call : JitterCall) (h : Sound x.1 x.2) :
    Sound (augment step note x call).1 (augment step note x call).2 := by
  cases call with
  | pushFrame frame now => exact h.pushFrame frame now
  | popFrame currentSyncTimeUs now => exact h.popFrame currentSyncTimeUs now
  | reset nextExpectedId => exact h.reset nextExpectedId

theorem subperm_of_countP {l l' : List FrameData}
    (h : ∀ p : FrameData → Bool, l.countP p ≤ l'.countP p) : l.Subperm l' := by
  classical
  exact List.subperm_ext_iff.mpr fun x _ => h (· == x)

/-- **The jitter buffer after any calls.** The rings agree, the counter is the number of occupied
entries unless a push has overwritten a frame since the last `Reset`, no frame is handed out more
often than it was pushed, and the pop pointer passes one id after the other. -/
theorem slots_run (maxFrames : UInt64) (calls : List JitterCall) :
    let x := run (augment step note) (start maxFrames) calls
    x.1.Slots ∧ (x.2.overwritten = false → x.1.count.toNat = x.1.occupiedEntries) ∧
      x.2.popped.Subperm x.2.pushed ∧
      (x.2.passed.map Passed.frameId).IsChain fun a b => b = a + 1 := by
  intro x
  have h : Sound x.1 x.2 := by
    have hinv : ∀ (x : JitterBuffer × JitterLog) (call : JitterCall), Sound x.1 x.2 →
        Sound (augment step note x call).1 (augment step note x call).2 := sound_step
    exact run_invariant' hinv (sound_start maxFrames) calls
  refine ⟨h.slots, fun hover => ?_, subperm_of_countP fun p => ?_, h.trails.chain⟩
  · rw [occupiedEntries_eq h.slots]
    exact h.counts hover
  · exact Nat.le_trans (Nat.le_add_right _ _) (h.once p)

def frameOf (frameId : UInt32) : FrameData := { FrameData.new 0 with frameId := frameId }

/-- Frame 0 is handed out, and then 29 frames come before the next pop. -/
def burst : List JitterCall :=
  [.pushFrame (frameOf 0) 0, .popFrame 1 0] ++
    (List.range 29).map (fun k => .pushFrame (frameOf (.ofNat (k + 1))) 0) ++ [.popFrame 1 0]

/-- Two frames for one slot. -/
def collision : List JitterCall := [.pushFrame (frameOf 0) 0, .pushFrame (frameOf 32) 0]

/-- Frame 1 is not handed out, and of the two frames the counter counts both. -/
theorem burst_skips_collision_drifts :
    ((run (augment step note) (start 10) burst).2.popped.map (·.frameId)) = [0, 2] ∧
      (run (augment step note) (start 10) collision).1.count = 2 ∧
      (run (augment step note) (start 10) collision).1.occupiedEntries = 1 := by
  decide +kernel

end JitterBuffer

end RemotePlay.Client
