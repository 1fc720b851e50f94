import RemotePlay.Lib.Vec
import RemotePlay.Lib.SlidingWindow
import Mathlib.Data.List.Induction
import Mathlib.Tactic.Common

/-!
# The receiver's replay window

`Receiver::ValidateSequence` keeps the largest accepted sequence number and a
ring of 1024 bits (16 words) indexed by the number modulo 1024. The ring is
advanced bit by bit for a jump below 1024 and cleared whole for a larger one.
`validateSequence_spec` is the step lemma: on a window that represents a
history, one call decides as the abstract filter does and represents the
history it leaves.
-/

namespace RemotePlay.Client

open Lib

/-- `WINDOW_SIZE` of the receiver. -/
def windowSize : Nat := 1024

structure SequenceWindow where
  maxSequenceReceived : UInt64
  sequenceWindow : Vec UInt64

namespace SequenceWindow

/-- The window of a new receiver: `WINDOW_SIZE / 64` zero words. -/
def init : SequenceWindow := ⟨0, .replicate (windowSize / 64) 0⟩

/-- The word of the ring holding the bit of `seq`. -/
def wordIdx (seq : UInt64) : Nat := (seq / 64).toNat % (windowSize / 64)

/-- `1ULL << (seq % 64)`. -/
def bit (seq : UInt64) : UInt64 := 1 <<< (seq % 64)

/-- The advance loop, `n` rounds: round `i` clears the bit of `max + i + 1`. -/
def clearAhead (win : Vec UInt64) (max : UInt64) : Nat → Vec UInt64
  | 0 => win
  | i + 1 =>
    let win := clearAhead win max i
    let targetSeq := max + UInt64.ofNat i + 1
    win.set (wordIdx targetSeq) (win.get (wordIdx targetSeq) &&& ~~~ bit targetSeq)

/-- The tail of `ValidateSequence`: refuse a number whose bit is set, else set it. -/
def mark (w : SequenceWindow) (seq : UInt64) : Bool × SequenceWindow :=
  if w.sequenceWindow.get (wordIdx seq) &&& bit seq ≠ 0 then (false, w)
  else (true, { w with sequenceWindow :=
    w.sequenceWindow.set (wordIdx seq) (w.sequenceWindow.get (wordIdx seq) ||| bit seq) })

def validateSequence (w : SequenceWindow) (seq : UInt64) : Bool × SequenceWindow :=
  if seq > w.maxSequenceReceived then
    let diff := seq - w.maxSequenceReceived
    let win :=
      if diff.toNat ≥ windowSize then w.sequenceWindow.fill 0
      else clearAhead w.sequenceWindow w.maxSequenceReceived diff.toNat
    mark ⟨seq, win⟩ seq
  else if (w.maxSequenceReceived - seq).toNat ≥ windowSize then (false, w)
  else mark w seq

/-- One more call, with the numbers accepted so far (latest first) beside the window. -/
def observe (h : SequenceWindow × List UInt64) (seq : UInt64) : SequenceWindow × List UInt64 :=
  ((h.1.validateSequence seq).2, if (h.1.validateSequence seq).1 then seq :: h.2 else h.2)

/-- A sequence of calls on a new receiver: its window and the numbers it accepted. -/
def run (calls : List UInt64) : SequenceWindow × List UInt64 := calls.foldl observe (init, [])

/-! ## The ring as a set of bits -/

/-- The ring's bit at number `s`. -/
def bitAt (win : Vec UInt64) (s : Nat) : Bool :=
  (win.get (s / 64 % 16)).toBitVec.getLsbD (s % 64)

@[simp] theorem wordIdx_eq (seq : UInt64) : wordIdx seq = seq.toNat / 64 % 16 := by
  simp [wordIdx, windowSize]

theorem getLsbD_bit (seq : UInt64) {j : Nat} (hj : j < 64) :
    (bit seq).toBitVec.getLsbD j = decide (j = seq.toNat % 64) := by
  simp only [bit, UInt64.toBitVec_shiftLeft, BitVec.shiftLeft_eq', BitVec.getLsbD_shiftLeft, hj,
    decide_true, Bool.true_and]
  simp only [UInt64.toNat_toBitVec, BitVec.toNat_umod, UInt64.toNat_mod, UInt64.reduceToNat,
    UInt64.toBitVec_ofNat, BitVec.reduceToNat, Nat.mod_mod, BitVec.getLsbD_one]
  by_cases h : j < seq.toNat % 64
  · have : j ≠ seq.toNat % 64 := by omega
    simp [h, this]
  · have : j - seq.toNat % 64 = 0 ↔ j = seq.toNat % 64 := by omega
    simp [h, this]

/-- Clearing the bit of `t` in its word. -/
theorem bitAt_clear (win : Vec UInt64) (t : UInt64) (s : Nat) :
    bitAt (win.set (wordIdx t) (win.get (wordIdx t) &&& ~~~ bit t)) s =
      (bitAt win s && !decide (s % 1024 = t.toNat % 1024)) := by
  have hj : s % 64 < 64 := Nat.mod_lt _ (by decide)
  simp only [bitAt, wordIdx_eq, Vec.get_set]
  split
  · next hw =>
    rw [← hw]
    simp only [UInt64.toBitVec_and, UInt64.toBitVec_not, BitVec.getLsbD_and, BitVec.getLsbD_not,
      hj, decide_true, Bool.true_and, getLsbD_bit t hj]
    congr 3
    simp only [eq_iff_iff]
    omega
  · next hw =>
    have : ¬ s % 1024 = t.toNat % 1024 := by omega
    simp [this]

theorem bitAt_mark (win : Vec UInt64) (t : UInt64) (s : Nat) :
    bitAt (win.set (wordIdx t) (win.get (wordIdx t) ||| bit t)) s =
      (bitAt win s || decide (s % 1024 = t.toNat % 1024)) := by
  have hj : s % 64 < 64 := Nat.mod_lt _ (by decide)
  simp only [bitAt, wordIdx_eq, Vec.get_set]
  split
  · next hw =>
    rw [← hw]
    simp only [UInt64.toBitVec_or, BitVec.getLsbD_or, getLsbD_bit t hj]
    congr 2
    simp only [eq_iff_iff]
    omega
  · next hw =>
    have : ¬ s % 1024 = t.toNat % 1024 := by omega
    simp [this]

/-- The test of `mark` reads the bit of `t`. -/
theorem and_bit_ne_zero (win : Vec UInt64) (t : UInt64) :
    win.get (wordIdx t) &&& bit t ≠ 0 ↔ bitAt win t.toNat = true := by
  have hj : t.toNat % 64 < 64 := Nat.mod_lt _ (by decide)
  rw [ne_eq, ← UInt64.toBitVec_inj, wordIdx_eq, bitAt]
  constructor
  · intro h
    by_contra hc
    refine h (BitVec.eq_of_getLsbD_eq fun j hj => ?_)
    simp only [UInt64.toBitVec_and, BitVec.getLsbD_and, getLsbD_bit t hj]
    by_cases e : j = t.toNat % 64
    · rw [e, Bool.eq_false_iff.mpr hc]; simp
    · simp [e]
  · intro h hc
    have := congrArg (BitVec.getLsbD · (t.toNat % 64)) hc
    simp [getLsbD_bit t hj, h] at this

/-- The advance loop clears exactly the bits of the numbers it passes over. -/
theorem bitAt_clearAhead (win : Vec UInt64) (max : UInt64) (s : Nat) :
    ∀ n, max.toNat + n < 2 ^ 64 → (bitAt (clearAhead win max n) s = true ↔
      bitAt win s = true ∧ ∀ i < n, s % 1024 ≠ (max.toNat + i + 1) % 1024)
  | 0, _ => by simp [clearAhead]
  | n + 1, hn => by
    have ht : (max + UInt64.ofNat n + 1).toNat = max.toNat + n + 1 := by
      simp [UInt64.toNat_add]; omega
    simp only [clearAhead]
    rw [bitAt_clear, Bool.and_eq_true, bitAt_clearAhead win max s n (by omega), ht]
    simp only [Nat.forall_lt_succ_right, and_assoc, Bool.not_eq_true', decide_eq_false_iff_not]

/-- On the last 1024 numbers up to `m` the ring's bits are the numbers of `seen`. -/
def Covers (win : Vec UInt64) (m : Nat) (seen : List Nat) : Prop :=
  ∀ s, s ≤ m → m < s + 1024 → (bitAt win s = true ↔ s ∈ seen)

/-- The window represents a history of accepted numbers. -/
def Represents (w : SequenceWindow) (seen : List Nat) : Prop :=
  w.maxSequenceReceived.toNat = SlidingWindow.top seen ∧
    Covers w.sequenceWindow (SlidingWindow.top seen) seen

theorem represents_init : Represents init [] := by
  refine ⟨rfl, fun s _ _ => ?_⟩
  simp [bitAt, init]

/-- The ring after an advance to `seq`, before its bit is set. -/
theorem covers_advance {w : SequenceWindow} {seen : List Nat} (h : Represents w seen)
    {seq : UInt64} (hgt : w.maxSequenceReceived.toNat < seq.toNat) :
    Covers (if (seq - w.maxSequenceReceived).toNat ≥ windowSize then w.sequenceWindow.fill 0
      else clearAhead w.sequenceWindow w.maxSequenceReceived (seq - w.maxSequenceReceived).toNat)
      seq.toNat seen := by
  obtain ⟨hm, hc⟩ := h
  have hd : (seq - w.maxSequenceReceived).toNat = seq.toNat - w.maxSequenceReceived.toNat :=
    UInt64.toNat_sub_of_le _ _ (by simpa [UInt64.le_iff_toNat_le] using Nat.le_of_lt hgt)
  have hlt := seq.toNat_lt
  have hnew : ∀ {s}, w.maxSequenceReceived.toNat < s → s ∉ seen := fun hs hmem => by
    have := SlidingWindow.le_top hmem; omega
  intro s hs1 hs2
  rw [hd, windowSize]
  split
  · -- a jump of at least the window: everything at or below the old maximum falls out
    have : s ∉ seen := hnew (by omega)
    simp [bitAt, this]
  · rw [bitAt_clearAhead _ _ _ _ (by omega)]
    by_cases hs : s ≤ w.maxSequenceReceived.toNat
    · rw [hc s (by omega) (by omega)]
      refine and_iff_left fun i hi => by omega
    · refine iff_of_false (fun hb => ?_) (hnew (by omega))
      exact hb.2 (s - w.maxSequenceReceived.toNat - 1) (by omega) (by congr 1; omega)

/-- `mark` on a number inside the window. -/
theorem mark_spec (w : SequenceWindow) (seq : UInt64) {seen : List Nat}
    (hc : Covers w.sequenceWindow w.maxSequenceReceived.toNat seen)
    (h1 : seq.toNat ≤ w.maxSequenceReceived.toNat)
    (h2 : w.maxSequenceReceived.toNat < seq.toNat + 1024) :
    ((w.mark seq).1 = true ↔ seq.toNat ∉ seen) ∧
      (w.mark seq).2.maxSequenceReceived = w.maxSequenceReceived ∧
      Covers (w.mark seq).2.sequenceWindow w.maxSequenceReceived.toNat
        (if seq.toNat ∈ seen then seen else seq.toNat :: seen) := by
  have hb := hc seq.toNat h1 h2
  by_cases hmem : seq.toNat ∈ seen
  · have : w.mark seq = (false, w) := if_pos ((and_bit_ne_zero _ _).mpr (hb.mpr hmem))
    simp [this, hmem, hc]
  · have hz : ¬ w.sequenceWindow.get (wordIdx seq) &&& bit seq ≠ 0 :=
      fun hn => hmem (hb.mp ((and_bit_ne_zero _ _).mp hn))
    have : w.mark seq = (true, ⟨w.maxSequenceReceived, w.sequenceWindow.set (wordIdx seq)
        (w.sequenceWindow.get (wordIdx seq) ||| bit seq)⟩) := if_neg hz
    refine ⟨by simp [this, hmem], by simp [this], ?_⟩
    rw [this, if_neg hmem]
    intro s hs1 hs2
    have hs := hc s hs1 hs2
    simp only [bitAt_mark, Bool.or_eq_true, decide_eq_true_eq, List.mem_cons, hs]
    have : s % 1024 = seq.toNat % 1024 ↔ s = seq.toNat := by omega
    rw [this, or_comm]

/-- **One call**: the ring decides as the unbounded filter does. -/
theorem validateSequence_spec {w : SequenceWindow} {seen : List Nat} (h : Represents w seen)
    (seq : UInt64) :
    (w.validateSequence seq).1 = (SlidingWindow.offer windowSize seen seq.toNat).1 ∧
      Represents (w.validateSequence seq).2 (SlidingWindow.offer windowSize seen seq.toNat).2 := by
  have hm := h.1
  by_cases hgt : w.maxSequenceReceived.toNat < seq.toNat
  · have hnew : seq.toNat ∉ seen := fun hmem => by
      have := SlidingWindow.le_top hmem; omega
    have hadm : SlidingWindow.Admits windowSize seen seq.toNat :=
      ⟨hnew, by simp only [windowSize]; omega⟩
    have ht : SlidingWindow.top (seq.toNat :: seen) = seq.toNat := by
      simp only [SlidingWindow.top]; omega
    have hgt' : seq > w.maxSequenceReceived := UInt64.lt_iff_toNat_lt.mpr hgt
    have hc := covers_advance h hgt
    simp only [validateSequence, if_pos hgt', SlidingWindow.offer, if_pos hadm]
    generalize (if (seq - w.maxSequenceReceived).toNat ≥ windowSize then _ else _) = win at hc ⊢
    obtain ⟨m1, m2, m3⟩ := mark_spec ⟨seq, win⟩ seq hc (Nat.le_refl seq.toNat) (by simp)
    rw [if_neg hnew] at m3
    exact ⟨m1.mpr hnew, by rw [m2, ht], by rw [ht]; exact m3⟩
  · have hle : ¬ seq > w.maxSequenceReceived := by
      simpa [GT.gt, UInt64.lt_iff_toNat_lt] using hgt
    have hd : (w.maxSequenceReceived - seq).toNat = w.maxSequenceReceived.toNat - seq.toNat :=
      UInt64.toNat_sub_of_le _ _ (by simpa [UInt64.le_iff_toNat_le] using hgt)
    simp only [validateSequence, if_neg hle, hd]
    split
    · next hold =>
      have hadm : ¬ SlidingWindow.Admits windowSize seen seq.toNat := fun ha => by
        have := ha.2; simp only [windowSize] at this hold; omega
      simp [SlidingWindow.offer, if_neg hadm, h]
    · next hin =>
      have hin' : w.maxSequenceReceived.toNat < seq.toNat + 1024 := by
        simp only [windowSize] at hin; omega
      obtain ⟨m1, m2, m3⟩ := mark_spec w seq (hm ▸ h.2) (by omega) hin'
      by_cases hmem : seq.toNat ∈ seen
      · have hadm : ¬ SlidingWindow.Admits windowSize seen seq.toNat := fun ha => ha.1 hmem
        rw [if_pos hmem] at m3
        rw [SlidingWindow.offer, if_neg hadm]
        exact ⟨Bool.eq_false_iff.mpr fun e => m1.mp e hmem, by rw [m2, hm], hm ▸ m3⟩
      · have hadm : SlidingWindow.Admits windowSize seen seq.toNat :=
          ⟨hmem, by simp only [windowSize]; omega⟩
        rw [if_neg hmem] at m3
        rw [SlidingWindow.offer, if_pos hadm]
        have ht : SlidingWindow.top (seq.toNat :: seen) = SlidingWindow.top seen := by
          simp only [SlidingWindow.top]; omega
        exact ⟨m1.mpr hmem, by rw [m2, hm, ht], by rw [ht]; exact hm ▸ m3⟩

theorem validateSequence_fresh_iff {w : SequenceWindow} {seen : List Nat} (h : Represents w seen)
    (seq : UInt64) : (w.validateSequence seq).1 = true ↔
      SlidingWindow.Admits windowSize seen seq.toNat := by
  rw [(validateSequence_spec h seq).1]
  unfold SlidingWindow.offer
  split
  · next hadm => exact iff_of_true rfl hadm
  · next hadm => exact iff_of_false Bool.false_ne_true hadm

/-- A window represents a set of numbers. -/
theorem Represents.congr {w : SequenceWindow} {seen seen' : List Nat} (h : Represents w seen)
    (heq : ∀ n, n ∈ seen ↔ n ∈ seen') : Represents w seen' := by
  obtain ⟨hmax, hcovers⟩ := h
  have htop := SlidingWindow.top_congr heq
  refine ⟨hmax.trans htop, fun s hs hs' => ?_⟩
  rw [← htop] at hs hs'
  rw [hcovers s hs hs', heq]

/-- A sequence of calls accepts what the unbounded filter accepts, and the window
represents it. -/
theorem run_spec (calls : List UInt64) :
    Represents (run calls).1 ((run calls).2.map UInt64.toNat) ∧
      (run calls).2.map UInt64.toNat =
        SlidingWindow.acceptedOf windowSize (calls.map UInt64.toNat) := by
  induction calls using List.reverseRecOn with
  | nil => exact ⟨represents_init, rfl⟩
  | append_singleton calls seq ih =>
    obtain ⟨h1, h2⟩ := validateSequence_spec ih.1 seq
    have hstep : (run (calls ++ [seq])).2.map UInt64.toNat =
        (SlidingWindow.offer windowSize ((run calls).2.map UInt64.toNat) seq.toNat).2 := by
      simp only [run, List.foldl_append, List.foldl_cons, List.foldl_nil, observe] at h1 ⊢
      rw [h1]
      by_cases ha : SlidingWindow.Admits windowSize
          (((calls.foldl observe (init, [])).2).map UInt64.toNat) seq.toNat <;>
        simp [SlidingWindow.offer, ha]
    refine ⟨?_, ?_⟩
    · rw [hstep]
      simpa only [run, List.foldl_append, List.foldl_cons, List.foldl_nil, observe] using h2
    · rw [hstep, ih.2]
      simp [SlidingWindow.acceptedOf]

/-- **Replay window exactness.** After any calls, the next number is accepted
iff it was not accepted before and either exceeds every accepted number or is
less than 1024 below the greatest one (`0` when there is none); and the ring's
bits on the last 1024 numbers are the accepted numbers there. -/
theorem validateSequence_exact (calls : List UInt64) (seq : UInt64) :
    (((run calls).1.validateSequence seq).1 = true ↔
      seq ∉ (run calls).2 ∧ ((∀ a ∈ (run calls).2, a < seq) ∨
        SlidingWindow.top ((run calls).2.map UInt64.toNat) - seq.toNat < 1024)) ∧
    ∀ s : UInt64, s.toNat ≤ SlidingWindow.top ((run calls).2.map UInt64.toNat) →
      SlidingWindow.top ((run calls).2.map UInt64.toNat) - s.toNat < 1024 →
      (bitAt (run calls).1.sequenceWindow s.toNat = true ↔ s ∈ (run calls).2) := by
  have hmem : ∀ s : UInt64, s.toNat ∈ (run calls).2.map UInt64.toNat ↔ s ∈ (run calls).2 :=
    fun s => by simp [UInt64.toNat_inj]
  obtain ⟨hrep, -⟩ := run_spec calls
  refine ⟨?_, fun s h1 h2 => (hrep.2 s.toNat h1 (by omega)).trans (hmem s)⟩
  rw [validateSequence_fresh_iff hrep, SlidingWindow.admits_iff (by decide), hmem]
  simp only [List.forall_mem_map, UInt64.lt_iff_toNat_lt, windowSize]

end SequenceWindow

end RemotePlay.Client
