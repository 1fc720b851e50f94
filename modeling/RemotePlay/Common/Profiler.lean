import RemotePlay.Lib.Samples
import RemotePlay.Lib.Vec
import Mathlib.Algebra.Order.Field.Rat
import Mathlib.Tactic.NormNum

/-!
# The profiler

A sample buffer keeps the last 1000 samples, a count of all of them, their sum,
and the extremes, which start at `1e18` and `0`. Samples are read as exact
rationals. Times and values are kept apart: `getStats` looks for a name among
the times first, and among the values only when it has no times.
-/

namespace RemotePlay.Common

open Lib

namespace Profiler

def maxSamples : Nat := 1000

/-- Of fewer than 2^64 samples, so that `count` does not wrap. -/
structure SampleBuffer where
  samples : Vec ℚ
  count : Nat
  min : ℚ
  max : ℚ
  sum : ℚ

structure Stats where
  avg : ℚ
  min : ℚ
  max : ℚ
  p99 : ℚ
  latest : ℚ
  totalCount : Nat
  deriving DecidableEq, Repr

/-- `Stats{}`. -/
def Stats.empty : Stats := ⟨0, 0, 0, 0, 0, 0⟩

namespace SampleBuffer

def new : SampleBuffer := ⟨.replicate maxSamples 0, 0, 10 ^ 18, 0, 0⟩

def record (buf : SampleBuffer) (val : ℚ) : SampleBuffer where
  samples :=
    if buf.count < maxSamples then buf.samples.set buf.count val
    else buf.samples.set (buf.count % maxSamples) val
  count := buf.count + 1
  min := if val < buf.min then val else buf.min
  max := if val > buf.max then val else buf.max
  sum := buf.sum + val

/-- `std::sort` of the slots in use. -/
def sorted (buf : SampleBuffer) : List ℚ :=
  (readN buf.samples.get (Min.min buf.count maxSamples)).insertionSort (· ≤ ·)

def calculateStats (buf : SampleBuffer) : Stats :=
  let n := Min.min buf.count maxSamples
  if n = 0 then .empty
  else {
    avg := buf.sum / buf.count
    min := buf.min
    max := buf.max
    -- `n * 0.99`, cut to an integer
    p99 := buf.sorted.getD (n * 99 / 100) 0
    latest := buf.samples.get ((buf.count - 1) % maxSamples)
    totalCount := buf.count }

end SampleBuffer

/-- `getBuffer(map, name).record(val)`. -/
def recordIn (map : String → Option SampleBuffer) (name : String) (val : ℚ) :
    String → Option SampleBuffer :=
  fun other => if other = name then some (((map name).getD .new).record val) else map other

/-- A call that records a sample. -/
inductive Recording where
  | recordTime (name : String) (durationUs : ℚ)
  | recordValue (name : String) (value : ℚ)

end Profiler

/-- The two maps of sample buffers. -/
structure Profiler where
  timeSamples : String → Option Profiler.SampleBuffer
  valueSamples : String → Option Profiler.SampleBuffer

namespace Profiler

def init : Profiler := ⟨fun _ => none, fun _ => none⟩

def step (p : Profiler) : Recording → Profiler
  | .recordTime name durationUs => { p with timeSamples := recordIn p.timeSamples name durationUs }
  | .recordValue name value => { p with valueSamples := recordIn p.valueSamples name value }

def run (calls : List Recording) : Profiler := calls.foldl step init

def getStats (p : Profiler) (name : String) : Stats :=
  match p.timeSamples name with
  | some buf => buf.calculateStats
  | none =>
    match p.valueSamples name with
    | some buf => buf.calculateStats
    | none => .empty

/-! ## What was recorded -/

/-- The time that a call records under the name. -/
def Recording.time? (name : String) : Recording → Option ℚ
  | .recordTime name' durationUs => if name' = name then some durationUs else none
  | .recordValue _ _ => none

/-- The value that a call records under the name. -/
def Recording.value? (name : String) : Recording → Option ℚ
  | .recordTime _ _ => none
  | .recordValue name' value => if name' = name then some value else none

/-- The sample, time or value, that a call records under the name. -/
def Recording.sample? (name : String) (call : Recording) : Option ℚ :=
  (call.time? name).or (call.value? name)

def times (name : String) (calls : List Recording) : List ℚ := calls.filterMap (·.time? name)

def values (name : String) (calls : List Recording) : List ℚ := calls.filterMap (·.value? name)

def samples (name : String) (calls : List Recording) : List ℚ := calls.filterMap (·.sample? name)

/-- The last `k` samples in ascending order, `k` at most 1000. -/
def lastSorted (vs : List ℚ) : List ℚ := (vs.drop (vs.length - maxSamples)).insertionSort (· ≤ ·)

/-- The statistics are those of the samples `vs`. -/
structure Describes (s : Stats) (vs : List ℚ) : Prop where
  totalCount : s.totalCount = vs.length
  latest : vs.getLast? = some s.latest
  least : Least vs s.min
  greatest : Greatest vs s.max
  avg : s.avg = vs.sum / vs.length
  p99 : (lastSorted vs)[min vs.length maxSamples * 99 / 100]? = some s.p99

/-! ## One buffer -/

/-- What a buffer knows of the samples it was given. -/
structure Summarises (buf : SampleBuffer) (vs : List ℚ) : Prop where
  count : buf.count = vs.length
  held : Ring.Holds buf.samples.get maxSamples vs (vs.length - maxSamples)
  min_eq : buf.min = vs.foldl min (10 ^ 18)
  max_eq : buf.max = vs.foldl max 0
  sum_eq : buf.sum = vs.sum

theorem summarises_new : Summarises .new [] := ⟨rfl, Ring.holds_nil _ _ _, rfl, rfl, rfl⟩

/-- Appending and overwriting write the same slot. -/
theorem get_samples_record (buf : SampleBuffer) (val : ℚ) :
    (buf.record val).samples.get = Ring.put buf.samples.get (buf.count % maxSamples) val := by
  unfold SampleBuffer.record
  simp only
  split
  · next h => rw [Nat.mod_eq_of_lt h]; rfl
  · rfl

variable {buf : SampleBuffer} {vs : List ℚ}

theorem Summarises.record (h : Summarises buf vs) (val : ℚ) :
    Summarises (buf.record val) (vs ++ [val]) where
  count := by
    rw [List.length_append, ← h.count]
    rfl
  held := by
    rw [get_samples_record, h.count]
    exact h.held.record val
  min_eq := by
    rw [List.foldl_append, ← h.min_eq, List.foldl_cons, List.foldl_nil, min_comm, min_def_lt]
    rfl
  max_eq := by
    rw [List.foldl_append, ← h.max_eq, List.foldl_cons, List.foldl_nil, max_def_lt]
    rfl
  sum_eq := by
    rw [List.sum_append, List.sum_singleton, ← h.sum_eq]
    rfl

/-- The buffer after the samples `vs`. -/
def bufferOf (vs : List ℚ) : SampleBuffer := vs.foldl SampleBuffer.record .new

theorem summarises_bufferOf (vs : List ℚ) : Summarises (bufferOf vs) vs := by
  induction vs using List.reverseRecOn with
  | nil => exact summarises_new
  | append_singleton vs val ih =>
    rw [bufferOf, List.foldl_append]
    exact ih.record val

theorem Summarises.sorted_eq (h : Summarises buf vs) : buf.sorted = lastSorted vs := by
  have hperm := h.held.perm (by decide : 0 < maxSamples)
  rw [← h.count] at hperm
  unfold SampleBuffer.sorted lastSorted readN
  rw [← h.count]
  refine List.Perm.eq_of_pairwise' (r := (· ≤ ·)) (List.pairwise_insertionSort _ _)
    (List.pairwise_insertionSort _ _) ?_
  exact (List.perm_insertionSort _ _).trans (hperm.trans (List.perm_insertionSort _ _).symm)

theorem length_lastSorted (vs : List ℚ) : (lastSorted vs).length = min vs.length maxSamples := by
  unfold lastSorted
  rw [List.length_insertionSort, List.length_drop]
  omega

/-- **One buffer** describes its samples iff some sample is at most `10 ^ 18`. -/
theorem Summarises.describes_iff (h : Summarises buf vs) (hne : vs ≠ [])
    (hnonneg : ∀ v ∈ vs, 0 ≤ v) :
    Describes buf.calculateStats vs ↔ ∃ v ∈ vs, v ≤ 10 ^ 18 := by
  have hlen := List.length_pos_of_ne_nil hne
  have hn : min buf.count maxSamples ≠ 0 := by
    rw [h.count]
    show min vs.length 1000 ≠ 0
    omega
  have hstats : buf.calculateStats =
      { avg := buf.sum / buf.count, min := buf.min, max := buf.max,
        p99 := buf.sorted.getD (min buf.count maxSamples * 99 / 100) 0,
        latest := buf.samples.get ((buf.count - 1) % maxSamples), totalCount := buf.count } := by
    unfold SampleBuffer.calculateStats
    simp only [if_neg hn]
  rw [hstats, ← least_foldl_min_iff, ← h.min_eq]
  refine ⟨fun hd => hd.least, fun hleast => ⟨h.count, ?_, hleast, ?_, ?_, ?_⟩⟩
  · show _ = some (buf.samples.get ((buf.count - 1) % maxSamples))
    rw [h.count]
    exact h.held.last (by decide) hne
  · show Greatest vs buf.max
    rw [h.max_eq, greatest_foldl_max_iff]
    obtain ⟨v, hv⟩ := List.exists_mem_of_ne_nil vs hne
    exact ⟨v, hv, hnonneg v hv⟩
  · show buf.sum / buf.count = _
    rw [h.sum_eq, h.count]
  · show _ = some (buf.sorted.getD (min buf.count maxSamples * 99 / 100) 0)
    have hlt : min vs.length maxSamples * 99 / 100 < (lastSorted vs).length := by
      rw [length_lastSorted]
      rw [h.count] at hn
      omega
    rw [h.sorted_eq, h.count, List.getD_eq_getElem?_getD, List.getElem?_eq_getElem hlt,
      Option.getD_some]

/-! ## All buffers -/

theorem run_snoc (calls : List Recording) (call : Recording) :
    run (calls ++ [call]) = (run calls).step call := by
  rw [run, List.foldl_append]
  rfl

/-- The buffer of a map for the samples it was given, if any. -/
def bufferOf? (vs : List ℚ) : Option SampleBuffer := if vs = [] then none else some (bufferOf vs)

theorem bufferOf?_snoc (vs : List ℚ) (val : ℚ) :
    bufferOf? (vs ++ [val]) = some (((bufferOf? vs).getD .new).record val) := by
  have hsnoc : bufferOf (vs ++ [val]) = (bufferOf vs).record val := List.foldl_append
  rw [bufferOf?, if_neg (by simp), hsnoc]
  unfold bufferOf?
  split
  · next h => rw [h]; rfl
  · rfl

theorem bufferOf?_append (vs : List ℚ) (val? : Option ℚ) :
    bufferOf? (vs ++ val?.toList) =
      val?.elim (bufferOf? vs) fun val => some (((bufferOf? vs).getD .new).record val) := by
  cases val? with
  | none => exact congrArg bufferOf? (List.append_nil vs)
  | some val => exact bufferOf?_snoc vs val

theorem times_snoc (name : String) (calls : List Recording) (call : Recording) :
    times name (calls ++ [call]) = times name calls ++ (call.time? name).toList := by
  rw [times, List.filterMap_append]
  cases h : call.time? name <;> simp [times, h]

theorem values_snoc (name : String) (calls : List Recording) (call : Recording) :
    values name (calls ++ [call]) = values name calls ++ (call.value? name).toList := by
  rw [values, List.filterMap_append]
  cases h : call.value? name <;> simp [values, h]

theorem step_timeSamples (p : Profiler) (call : Recording) (name : String) :
    (p.step call).timeSamples name = (call.time? name).elim (p.timeSamples name)
      fun val => some (((p.timeSamples name).getD .new).record val) := by
  cases call with
  | recordValue name' value => rfl
  | recordTime name' durationUs =>
    by_cases h : name' = name
    · subst h
      simp [step, recordIn, Recording.time?]
    · simp [step, recordIn, Recording.time?, h, Ne.symm h]

theorem step_valueSamples (p : Profiler) (call : Recording) (name : String) :
    (p.step call).valueSamples name = (call.value? name).elim (p.valueSamples name)
      fun val => some (((p.valueSamples name).getD .new).record val) := by
  cases call with
  | recordTime name' durationUs => rfl
  | recordValue name' value =>
    by_cases h : name' = name
    · subst h
      simp [step, recordIn, Recording.value?]
    · simp [step, recordIn, Recording.value?, h, Ne.symm h]

/-- **All buffers**: each name has the buffers of its times and of its values. -/
theorem run_buffers (name : String) (calls : List Recording) :
    (run calls).timeSamples name = bufferOf? (times name calls) ∧
      (run calls).valueSamples name = bufferOf? (values name calls) := by
  induction calls using List.reverseRecOn with
  | nil => exact ⟨rfl, rfl⟩
  | append_singleton calls call ih =>
    constructor
    · rw [run_snoc, step_timeSamples, times_snoc, bufferOf?_append, ih.1]
    · rw [run_snoc, step_valueSamples, values_snoc, bufferOf?_append, ih.2]

/-! ## Names -/

theorem length_samples (name : String) (calls : List Recording) :
    (samples name calls).length = (times name calls).length + (values name calls).length := by
  induction calls using List.reverseRecOn with
  | nil => rfl
  | append_singleton calls call ih =>
    have hlast : (call.sample? name).toList.length =
        (call.time? name).toList.length + (call.value? name).toList.length := by
      cases call <;> simp only [Recording.sample?, Recording.time?, Recording.value?] <;>
        split <;> rfl
    have hsnoc : samples name (calls ++ [call]) =
        samples name calls ++ (call.sample? name).toList := by
      rw [samples, List.filterMap_append]
      cases h : call.sample? name <;> simp [samples, h]
    rw [hsnoc, times_snoc, values_snoc, List.length_append, List.length_append,
      List.length_append]
    omega

/-- A name with values only: they are its samples. -/
theorem samples_of_times_nil {name : String} {calls : List Recording} (h : times name calls = []) :
    samples name calls = values name calls := by
  refine List.filterMap_congr fun call hcall => ?_
  rw [Recording.sample?, List.filterMap_eq_nil_iff.mp h call hcall, Option.none_or]

/-- A name with times only: they are its samples. -/
theorem samples_of_values_nil {name : String} {calls : List Recording}
    (h : values name calls = []) : samples name calls = times name calls := by
  refine List.filterMap_congr fun call hcall => ?_
  rw [Recording.sample?, List.filterMap_eq_nil_iff.mp h call hcall, Option.or_none]

theorem getStats_of_times {name : String} {calls : List Recording} (h : times name calls ≠ []) :
    (run calls).getStats name = (bufferOf (times name calls)).calculateStats := by
  rw [getStats, (run_buffers name calls).1, bufferOf?, if_neg h]

theorem getStats_of_values {name : String} {calls : List Recording} (ht : times name calls = [])
    (hv : values name calls ≠ []) :
    (run calls).getStats name = (bufferOf (values name calls)).calculateStats := by
  rw [getStats, (run_buffers name calls).1, (run_buffers name calls).2, bufferOf?, bufferOf?,
    if_pos ht, if_neg hv]

/-- The samples of a name are all times or all values. -/
def OneKind (name : String) (calls : List Recording) : Prop :=
  times name calls = [] ∨ values name calls = []

/-- The times of a name that has values too are not all of its samples. -/
theorem not_describes_of_both {name : String} {calls : List Recording}
    (ht : times name calls ≠ []) (hv : values name calls ≠ []) :
    ¬ Describes ((run calls).getStats name) (samples name calls) := by
  intro hd
  have hpos := List.length_pos_of_ne_nil ht
  have hpos' := List.length_pos_of_ne_nil hv
  have hcount := (summarises_bufferOf (times name calls)).count
  have htotal := hd.totalCount
  rw [length_samples, getStats_of_times ht, SampleBuffer.calculateStats, if_neg] at htotal
  · simp only [hcount] at htotal
    omega
  · rw [hcount]
    show min _ 1000 ≠ 0
    omega

/-- **Profiler statistics** describe what was recorded under a name iff it was all recorded as
times or all as values, and some of it is at most `10 ^ 18`. -/
theorem getStats_describes_iff (name : String) (calls : List Recording)
    (hne : samples name calls ≠ []) (hnonneg : ∀ v ∈ samples name calls, 0 ≤ v) :
    Describes ((run calls).getStats name) (samples name calls) ↔
      OneKind name calls ∧ ∃ v ∈ samples name calls, v ≤ 10 ^ 18 := by
  by_cases ht : times name calls = []
  · rw [samples_of_times_nil ht] at hne hnonneg ⊢
    rw [getStats_of_values ht hne, (summarises_bufferOf _).describes_iff hne hnonneg]
    exact (and_iff_right (.inl ht)).symm
  by_cases hv : values name calls = []
  · rw [samples_of_values_nil hv] at hne hnonneg ⊢
    rw [getStats_of_times ht, (summarises_bufferOf _).describes_iff hne hnonneg]
    exact (and_iff_right (.inr hv)).symm
  · refine iff_of_false (not_describes_of_both ht hv) ?_
    rintro ⟨hone | hone, -⟩
    · exact ht hone
    · exact hv hone

/-- Two times of a frame. -/
def twoFrames : List Recording :=
  [.recordTime "Encode_Time" 4000, .recordTime "Decode_Time" 900, .recordTime "Encode_Time" 5000]

theorem getStats_describes_iff_twoFrames :
    Describes ((run twoFrames).getStats "Encode_Time") (samples "Encode_Time" twoFrames) := by
  have hsamples : samples "Encode_Time" twoFrames = [4000, 5000] := by decide +kernel
  refine (getStats_describes_iff "Encode_Time" twoFrames ?_ ?_).mpr ⟨.inr ?_, 4000, ?_, ?_⟩
  · rw [hsamples]
    exact List.cons_ne_nil _ _
  · rw [hsamples]
    decide +kernel
  · decide +kernel
  · rw [hsamples]
    exact List.mem_cons_self
  · norm_num

/-- An end-to-end latency of one microsecond below zero, taken modulo 2 ^ 64. -/
theorem latency_min_not_recorded :
    ¬ Describes ((run [.recordTime "EndToEnd_Latency" (2 ^ 64)]).getStats "EndToEnd_Latency")
      (samples "EndToEnd_Latency" [.recordTime "EndToEnd_Latency" (2 ^ 64)]) := by
  intro h
  have hsamples : samples "EndToEnd_Latency" [.recordTime "EndToEnd_Latency" (2 ^ 64)] =
      [2 ^ 64] := by decide +kernel
  have hmin : ((run [.recordTime "EndToEnd_Latency" (2 ^ 64)]).getStats "EndToEnd_Latency").min =
      10 ^ 18 := by decide +kernel
  have hleast := h.least.1
  rw [hsamples, hmin, List.mem_singleton] at hleast
  norm_num at hleast

end Profiler

end RemotePlay.Common
