import RemotePlay.Client.SlotInvariant

/-!
# Retransmission requests

`GetPendingNACKs` asks for the missing fragments of the next 32 frames, ten at
a time: it returns the first ten of what those frames lack (`pending_eq`). A
frame it has no record of lacks nothing in its eyes. `Accounted` is the
invariant of the frames in the ring, by which an incomplete one does lack a
fragment; `asksForLosses_iff` says in which states every loss is asked for.
-/

namespace RemotePlay.Client

open Lib Protocol

structure NACK where
  frameId : UInt32
  fragmentIndex : UInt16
  deriving DecidableEq, Repr

instance (r : Receiver) (header : VideoHeader) : Decidable (r.Accepts header) := by
  unfold Receiver.Accepts
  infer_instance

namespace FrameData

/-- The counter is right, and the frame is marked complete when it has all fragments. -/
structure Accounted (f : FrameData) : Prop where
  counted : f.Counted
  unfinished : f.isComplete = false → f.fragmentsReceived ≠ f.totalFragments

variable {f : FrameData}

/-- An incomplete frame lacks a fragment. -/
theorem Accounted.lacks (h : f.Accounted) (hc : f.isComplete = false) :
    ∃ i, i < f.totalFragments.toNat ∧ f.fragmentMap.get i = false := by
  by_contra hall
  refine h.unfinished hc (h.counted.full_iff.mpr fun i hi => ?_)
  by_contra hmap
  exact hall ⟨i, hi, Bool.not_eq_true _ ▸ hmap⟩

end FrameData

namespace Receiver

/-- The loop over the fragments of one frame, `n` rounds left and `j` done; `true` when it returns
from the function. -/
def scanFragments (f : FrameData) (fid : UInt32) (nacks : List NACK) :
    Nat → Nat → List NACK × Bool
  | 0, _ => (nacks, false)
  | n + 1, j =>
    if f.fragmentMap.get j then scanFragments f fid nacks n (j + 1)
    else if nacks.length ≥ 10 then (nacks, true)
    else scanFragments f fid (nacks ++ [⟨fid, UInt16.ofNat j⟩]) n (j + 1)

/-- The loop over the frames, `n` rounds left and `i` done. -/
def scanFrames (r : Receiver) (nacks : List NACK) : Nat → Nat → List NACK
  | 0, _ => nacks
  | n + 1, i =>
    let fid := r.nextFrameIdToRead + UInt32.ofNat i
    match r.frameAt fid with
    | none => scanFrames r nacks n (i + 1)
    | some f =>
      if f.isComplete then scanFrames r nacks n (i + 1)
      else
        match scanFragments f fid nacks f.totalFragments.toNat 0 with
        | (nacks, true) => nacks
        | (nacks, false) => scanFrames r nacks n (i + 1)

def getPendingNACKs (r : Receiver) : List NACK := r.scanFrames [] 32 0

/-! ## What it returns -/

/-- What the frame `fid` lacks, from fragment `j` on, `n` of them. -/
def lackedFrom (f : FrameData) (fid : UInt32) (j n : Nat) : List NACK :=
  ((List.range' j n).filter fun k => !f.fragmentMap.get k).map fun k => ⟨fid, UInt16.ofNat k⟩

/-- What the record of the frame `fid` lacks: nothing when there is none. -/
def lackedAt (r : Receiver) (fid : UInt32) : List NACK :=
  match r.frameAt fid with
  | none => []
  | some f => if f.isComplete then [] else lackedFrom f fid 0 f.totalFragments.toNat

/-- What the frames `i, …, i + n - 1` after the read pointer lack. -/
def lackedIn (r : Receiver) (i n : Nat) : List NACK :=
  (List.range' i n).flatMap fun k => r.lackedAt (r.nextFrameIdToRead + UInt32.ofNat k)

variable {r r' : Receiver}

theorem scanFragments_eq (f : FrameData) (fid : UInt32) (n j : Nat) {nacks : List NACK}
    (hlen : nacks.length ≤ 10) :
    scanFragments f fid nacks n j =
      ((nacks ++ lackedFrom f fid j n).take 10,
        decide (10 < (nacks ++ lackedFrom f fid j n).length)) := by
  induction n generalizing nacks j with
  | zero =>
    have hnil : lackedFrom f fid j 0 = [] := rfl
    rw [hnil, List.append_nil, List.take_of_length_le hlen, decide_eq_false (by omega)]
    rfl
  | succ n ih =>
    unfold scanFragments
    by_cases hset : f.fragmentMap.get j = true
    · have hskip : lackedFrom f fid j (n + 1) = lackedFrom f fid (j + 1) n := by
        simp [lackedFrom, List.range'_succ, hset]
      rw [if_pos hset, hskip, ih (j + 1) hlen]
    · have htake : lackedFrom f fid j (n + 1) =
          ⟨fid, UInt16.ofNat j⟩ :: lackedFrom f fid (j + 1) n := by
        simp [lackedFrom, List.range'_succ, hset]
      rw [if_neg hset, htake]
      by_cases hfull : nacks.length ≥ 10
      · have hten : nacks.length = 10 := by omega
        have hover : 10 <
            (nacks ++ (⟨fid, UInt16.ofNat j⟩ : NACK) :: lackedFrom f fid (j + 1) n).length := by
          rw [List.length_append, List.length_cons]
          omega
        rw [if_pos hfull, decide_eq_true hover, List.take_append_of_le_length (by omega),
          List.take_of_length_le hlen]
      · have hroom : (nacks ++ [(⟨fid, UInt16.ofNat j⟩ : NACK)]).length ≤ 10 := by
          rw [List.length_append, List.length_singleton]
          omega
        rw [if_neg hfull, ih (j + 1) hroom, List.append_assoc]
        rfl

theorem scanFrames_eq (r : Receiver) (n i : Nat) {nacks : List NACK} (hlen : nacks.length ≤ 10) :
    r.scanFrames nacks n i = (nacks ++ r.lackedIn i n).take 10 := by
  induction n generalizing nacks i with
  | zero =>
    have hnil : r.lackedIn i 0 = [] := rfl
    rw [hnil, List.append_nil, List.take_of_length_le hlen]
    rfl
  | succ n ih =>
    have hsplit : r.lackedIn i (n + 1) =
        r.lackedAt (r.nextFrameIdToRead + UInt32.ofNat i) ++ r.lackedIn (i + 1) n := by
      simp [lackedIn, List.range'_succ]
    unfold scanFrames
    rw [hsplit]
    dsimp only
    cases hf : r.frameAt (r.nextFrameIdToRead + UInt32.ofNat i) with
    | none =>
      have hnil : r.lackedAt (r.nextFrameIdToRead + UInt32.ofNat i) = [] := by
        simp only [lackedAt, hf]
      dsimp only
      rw [hnil, List.nil_append, ih (i + 1) hlen]
    | some f =>
      dsimp only
      by_cases hc : f.isComplete = true
      · have hnil : r.lackedAt (r.nextFrameIdToRead + UInt32.ofNat i) = [] := by
          simp only [lackedAt, hf, if_pos hc]
        rw [if_pos hc, hnil, List.nil_append, ih (i + 1) hlen]
      · have hsome : r.lackedAt (r.nextFrameIdToRead + UInt32.ofNat i) =
            lackedFrom f (r.nextFrameIdToRead + UInt32.ofNat i) 0 f.totalFragments.toNat := by
          simp only [lackedAt, hf, if_neg hc]
        rw [if_neg hc, hsome, scanFragments_eq f _ _ _ hlen]
        generalize lackedFrom f (r.nextFrameIdToRead + UInt32.ofNat i) 0 f.totalFragments.toNat = l
        rw [← List.append_assoc]
        by_cases hover : 10 < (nacks ++ l).length
        · rw [decide_eq_true hover, List.take_append_of_le_length (Nat.le_of_lt hover)]
        · rw [decide_eq_false hover, List.take_of_length_le (by omega)]
          exact ih (i + 1) (by omega)

/-- **GetPendingNACKs** returns the first ten fragments that the records of the next 32 frames
lack. -/
theorem pending_eq (r : Receiver) : r.getPendingNACKs = (r.lackedIn 0 32).take 10 := by
  rw [getPendingNACKs, scanFrames_eq r 32 0 (Nat.zero_le _), List.nil_append]

/-! ## Losses and requests -/

/-- Every frame in the ring is accounted for. -/
def AllAccounted (r : Receiver) : Prop := ∀ i f, r.frameRing.get i = some f → f.Accounted

/-- The frame is one of the next 32 and has not been received completely, although a fragment of a
later frame has been accepted. -/
structure Lost (r : Receiver) (accepted : List UInt32) (fid : UInt32) : Prop where
  low : r.nextFrameIdToRead.toNat ≤ fid.toNat
  high : fid.toNat < r.nextFrameIdToRead.toNat + 32
  incomplete : ∀ f, r.frameAt fid = some f → f.isComplete = false
  later : ∃ g ∈ accepted, fid < g

/-- The requests for frames from the read pointer to below `fid`. -/
def pendingBefore (r : Receiver) (fid : UInt32) : List NACK :=
  r.getPendingNACKs.filter fun n => decide (r.nextFrameIdToRead ≤ n.frameId ∧ n.frameId < fid)

/-- There is a request for the frame, or there are ten for frames before it; and there are ten
whenever it is left out. -/
structure AskedFor (r : Receiver) (fid : UInt32) : Prop where
  asked : (∃ n ∈ r.getPendingNACKs, n.frameId = fid) ∨ (r.pendingBefore fid).length = 10
  full : (∀ n ∈ r.getPendingNACKs, n.frameId ≠ fid) → ¬ r.getPendingNACKs.length < 10

/-- Every loss in the window is asked for. -/
def AsksForLosses (r : Receiver) (accepted : List UInt32) : Prop :=
  ∀ fid, r.Lost accepted fid → r.AskedFor fid

/-- The receiver has a record of the frame. -/
def Recorded (r : Receiver) (fid : UInt32) : Prop := ∃ f, r.frameAt fid = some f

/-- The number of fragments lacked by the recorded frames from the read pointer to below `fid`. -/
def lackedBefore (r : Receiver) (fid : UInt32) : Nat :=
  (r.lackedIn 0 (fid.toNat - r.nextFrameIdToRead.toNat)).length

theorem frameId_of_mem_lackedAt {fid : UInt32} {n : NACK} (h : n ∈ r.lackedAt fid) :
    n.frameId = fid := by
  unfold lackedAt at h
  split at h
  · cases h
  · split at h
    · cases h
    · obtain ⟨k, -, rfl⟩ := List.mem_map.mp h
      rfl

/-- The window at `fid`: what comes before it, its own and the rest. -/
theorem lackedIn_split (r : Receiver) {d : Nat} (hd : d < 32) :
    r.lackedIn 0 32 = r.lackedIn 0 d ++
      (r.lackedAt (r.nextFrameIdToRead + UInt32.ofNat d) ++ r.lackedIn (d + 1) (31 - d)) := by
  have hrange : List.range' 0 32 = List.range' 0 d ++ (d :: List.range' (d + 1) (31 - d)) := by
    rw [← List.range'_succ, show 31 - d + 1 = 32 - d by omega]
    have happend := List.range'_append_1 (s := 0) (m := d) (n := 32 - d)
    rw [Nat.zero_add, show d + (32 - d) = 32 by omega] at happend
    exact happend.symm
  simp only [lackedIn, hrange, List.flatMap_append, List.flatMap_cons]

/-- The ids of the window, as long as they are below `2 ^ 32`. -/
theorem window_toNat (r : Receiver) {k : Nat} (hk : r.nextFrameIdToRead.toNat + k < 2 ^ 32) :
    (r.nextFrameIdToRead + UInt32.ofNat k).toNat = r.nextFrameIdToRead.toNat + k := by
  rw [UInt32.toNat_add, UInt32.toNat_ofNat']
  omega

/-- A request from a part of the window after `fid` is not for a frame up to `fid`. -/
theorem frameId_after {fid : UInt32} {d m : Nat} (hd : fid.toNat = r.nextFrameIdToRead.toNat + d)
    (hm : d + m < 32) {n : NACK} (h : n ∈ r.lackedIn (d + 1) m) :
    ¬ (r.nextFrameIdToRead ≤ n.frameId ∧ n.frameId ≤ fid) := by
  obtain ⟨k, hk, hn⟩ := List.mem_flatMap.mp h
  rw [List.mem_range'_1] at hk
  rw [frameId_of_mem_lackedAt hn, UInt32.le_iff_toNat_le, UInt32.le_iff_toNat_le,
    UInt32.toNat_add, UInt32.toNat_ofNat']
  have := UInt32.toNat_lt r.nextFrameIdToRead
  have := UInt32.toNat_lt fid
  omega

theorem frameId_before {fid : UInt32} {d : Nat} (hd : fid.toNat = r.nextFrameIdToRead.toNat + d)
    {n : NACK} (h : n ∈ r.lackedIn 0 d) :
    r.nextFrameIdToRead ≤ n.frameId ∧ n.frameId < fid := by
  obtain ⟨k, hk, hn⟩ := List.mem_flatMap.mp h
  rw [List.mem_range'_1] at hk
  have := UInt32.toNat_lt fid
  rw [frameId_of_mem_lackedAt hn, UInt32.le_iff_toNat_le, UInt32.lt_iff_toNat_lt,
    r.window_toNat (by omega)]
  omega

/-- The requests for earlier frames, split off the ten. -/
theorem filter_take_before {p : NACK → Bool} {before after : List NACK}
    (hbefore : ∀ n ∈ before, p n = true) (hafter : ∀ n ∈ after, p n = false) (m : Nat) :
    ((before ++ after).take m).filter p = before.take m := by
  have htake : (before.take m).filter p = before.take m :=
    List.filter_eq_self.mpr fun n hn => hbefore n (List.mem_of_mem_take hn)
  have hnone : (after.take (m - before.length)).filter p = [] :=
    List.filter_eq_nil_iff.mpr fun n hn => by
      rw [hafter n (List.mem_of_mem_take hn)]
      decide
  rw [List.take_append, List.filter_append, htake, hnone, List.append_nil]

/-- A record that is not complete lacks a fragment. -/
theorem exists_lackedAt (hr : r.AllAccounted) {fid : UInt32} {f : FrameData}
    (hf : r.frameAt fid = some f) (hc : f.isComplete = false) :
    ∃ n rest, r.lackedAt fid = n :: rest ∧ n.frameId = fid := by
  obtain ⟨i, hi, hmap⟩ := (hr fid f (frameAt_eq_some.mp hf).1).lacks hc
  have hmem : (⟨fid, UInt16.ofNat i⟩ : NACK) ∈ r.lackedAt fid := by
    simp only [lackedAt, hf, hc, Bool.false_eq_true, if_false, lackedFrom]
    refine List.mem_map.mpr ⟨i, List.mem_filter.mpr ⟨List.mem_range'_1.mpr (by omega), ?_⟩, rfl⟩
    simp [hmap]
  obtain ⟨n, rest, hcons⟩ := List.exists_cons_of_ne_nil (List.ne_nil_of_mem hmem)
  refine ⟨n, rest, hcons, frameId_of_mem_lackedAt (r := r) ?_⟩
  rw [hcons]
  exact List.mem_cons_self

section AtFrame

variable {fid : UInt32} {d : Nat} (hd : fid.toNat = r.nextFrameIdToRead.toNat + d) (hd32 : d < 32)
include hd hd32

/-- The requests are the first ten of what lacks before the frame, in it and after it. -/
theorem pending_split : r.getPendingNACKs =
    (r.lackedIn 0 d ++ (r.lackedAt fid ++ r.lackedIn (d + 1) (31 - d))).take 10 := by
  have hid : r.nextFrameIdToRead + UInt32.ofNat d = fid := by
    have := fid.toNat_lt
    exact UInt32.toNat_inj.mp ((r.window_toNat (by omega)).trans hd.symm)
  rw [r.pending_eq, r.lackedIn_split hd32, hid]

/-- The requests for earlier frames are the first ten of what these lack. -/
theorem pendingBefore_eq : r.pendingBefore fid = (r.lackedIn 0 d).take 10 := by
  unfold pendingBefore
  rw [pending_split hd hd32]
  refine filter_take_before (fun n hn => decide_eq_true (frameId_before hd hn))
    (fun n hn => decide_eq_false ?_) 10
  rintro ⟨hge, hlt⟩
  rcases List.mem_append.mp hn with hown | hafter
  · rw [frameId_of_mem_lackedAt hown] at hlt
    exact UInt32.lt_irrefl _ hlt
  · exact frameId_after hd (by omega) hafter ⟨hge, UInt32.le_of_lt hlt⟩

/-- There is a request for the frame only out of its own record, behind those for earlier frames. -/
theorem requested_own {n : NACK} (hn : n ∈ r.getPendingNACKs) (hfid : n.frameId = fid) :
    n ∈ r.lackedAt fid ∧ (r.lackedIn 0 d).length < 10 := by
  have hearlier : n ∉ r.lackedIn 0 d := by
    intro h
    have hlt := (frameId_before hd h).2
    rw [hfid] at hlt
    exact UInt32.lt_irrefl _ hlt
  rw [pending_split hd hd32] at hn
  refine ⟨?_, Nat.lt_of_not_le fun hten => ?_⟩
  · rcases List.mem_append.mp (List.mem_of_mem_take hn) with h | h
    · exact absurd h hearlier
    rcases List.mem_append.mp h with hown | hafter
    · exact hown
    · refine absurd ⟨?_, ?_⟩ (frameId_after hd (by omega) hafter)
      · rw [hfid, UInt32.le_iff_toNat_le]
        omega
      · rw [hfid]
        exact UInt32.le_refl _
  · rw [List.take_append_of_le_length hten] at hn
    exact hearlier (List.mem_of_mem_take hn)

/-- Where there is room behind the requests for earlier frames, a record that is not complete gets
one. -/
theorem requested_of_room (hr : r.AllAccounted) {f : FrameData} (hf : r.frameAt fid = some f)
    (hc : f.isComplete = false) (hroom : (r.lackedIn 0 d).length < 10) :
    ∃ n ∈ r.getPendingNACKs, n.frameId = fid := by
  obtain ⟨n, rest, hcons, hfid⟩ := exists_lackedAt hr hf hc
  obtain ⟨m, hm⟩ := Nat.exists_eq_add_of_lt hroom
  refine ⟨n, ?_, hfid⟩
  rw [pending_split hd hd32, hcons, List.take_append, List.mem_append, List.cons_append]
  refine .inr ?_
  rw [show 10 - (r.lackedIn 0 d).length = m + 1 by omega, List.take_succ_cons]
  exact List.mem_cons_self

end AtFrame

/-- A loss is asked for iff the frame has a record, or ten fragments are lacking before it. -/
theorem askedFor_iff (hr : r.AllAccounted) {fid : UInt32}
    (hlow : r.nextFrameIdToRead.toNat ≤ fid.toNat)
    (hhigh : fid.toNat < r.nextFrameIdToRead.toNat + 32)
    (hincomplete : ∀ f, r.frameAt fid = some f → f.isComplete = false) :
    r.AskedFor fid ↔ r.Recorded fid ∨ 10 ≤ r.lackedBefore fid := by
  obtain ⟨d, hd⟩ := Nat.exists_eq_add_of_le hlow
  have hd32 : d < 32 := by omega
  have hbound : r.lackedBefore fid = (r.lackedIn 0 d).length := by
    rw [lackedBefore, hd, Nat.add_sub_cancel_left]
  have hbefore : (r.pendingBefore fid).length = min 10 (r.lackedIn 0 d).length := by
    rw [pendingBefore_eq hd hd32, List.length_take]
  rw [hbound]
  constructor
  · rintro ⟨⟨n, hn, hfid⟩ | hten, -⟩
    · -- a request for the frame comes out of its record
      refine .inl ?_
      have hown := (requested_own hd hd32 hn hfid).1
      cases hf : r.frameAt fid with
      | some f => exact ⟨f, hf⟩
      | none =>
        simp only [lackedAt, hf] at hown
        cases hown
    · refine .inr ?_
      omega
  · intro h
    by_cases hten : 10 ≤ (r.lackedIn 0 d).length
    · -- ten requests for earlier frames come first
      have hall : (r.pendingBefore fid).length ≤ r.getPendingNACKs.length :=
        List.length_filter_le _ _
      refine ⟨.inr ?_, fun _ => ?_⟩ <;> omega
    · obtain ⟨f, hf⟩ := h.resolve_right hten
      obtain ⟨n, hn, hfid⟩ :=
        requested_of_room hd hd32 hr hf (hincomplete f hf) (Nat.lt_of_not_le hten)
      exact ⟨.inl ⟨n, hn, hfid⟩, fun hnone => absurd hfid (hnone n hn)⟩

end Receiver

namespace FrameFlow

/-- The frame ids of the accepted fragments. -/
def noteAccepted (s : FrameFlow) (call : FrameCall) (accepted : List UInt32) : List UInt32 :=
  match call with
  | .processPacket header _ _ =>
    match s.receiver.gate header with
    | some r => if r.Accepts header then accepted ++ [header.frameId] else accepted
    | none => accepted
  | _ => accepted

theorem allAccounted_run (poolSize : Nat) (maxFrames : UInt64) (calls : List FrameCall) :
    (run step (init poolSize maxFrames) calls).receiver.AllAccounted := by
  intro i f hf
  have hsettled := kept_reachable (Receiver.slotRule_tallied _) poolSize maxFrames calls i f hf
  exact ⟨hsettled.holds.counted, hsettled.unfinished⟩

/-- **Requests for losses.** In every reachable state of the receiver every loss in the window is
asked for iff each lost frame has a record, or ten fragments are lacking before it. -/
theorem asksForLosses_iff (poolSize : Nat) (maxFrames : UInt64) (calls : List FrameCall) :
    let x := run (augment step noteAccepted) (init poolSize maxFrames, []) calls
    x.1.receiver.AsksForLosses x.2 ↔ ∀ fid, x.1.receiver.Lost x.2 fid →
      x.1.receiver.Recorded fid ∨ 10 ≤ x.1.receiver.lackedBefore fid := by
  intro x
  have hr : x.1.receiver.AllAccounted := by
    rw [show x.1 = run step (init poolSize maxFrames) calls from run_augment step noteAccepted _ _]
    exact allAccounted_run poolSize maxFrames calls
  constructor
  · intro h fid hlost
    exact (Receiver.askedFor_iff hr hlost.low hlost.high hlost.incomplete).mp (h fid hlost)
  · intro h fid hlost
    exact (Receiver.askedFor_iff hr hlost.low hlost.high hlost.incomplete).mpr (h fid hlost)

/-- Frames of one fragment: 5 is read, 6 is lost and 7 arrives. -/
def lostWhole : List FrameCall :=
  [.processPacket ⟨1, 5, 0, 1, 0, 0, 0, 0, 1, 1⟩ (fun _ => 0) 0, .getNextFrame,
    .processPacket ⟨1, 7, 0, 1, 0, 0, 0, 0, 0, 1⟩ (fun _ => 0) 0]

/-- Nothing is asked for. -/
theorem lostWhole_not_asked :
    ¬ (run (augment step noteAccepted) (init 30 10, []) lostWhole).1.receiver.AsksForLosses
      (run (augment step noteAccepted) (init 30 10, []) lostWhole).2 := by
  have hnone : (run (augment step noteAccepted) (init 30 10, []) lostWhole).1.receiver.getPendingNACKs
      = [] := by decide +kernel
  intro h
  have hlost : (run (augment step noteAccepted) (init 30 10, []) lostWhole).1.receiver.Lost
      (run (augment step noteAccepted) (init 30 10, []) lostWhole).2 6 := by
    refine ⟨by decide +kernel, by decide +kernel, fun f hf => ?_, 7, by decide +kernel, by decide⟩
    have hmissing : ((run (augment step noteAccepted) (init 30 10, []) lostWhole).1.receiver.frameAt
        6).isNone = true := by decide +kernel
    rw [hf] at hmissing
    cases hmissing
  refine (h 6 hlost).full ?_ ?_
  · rw [hnone]
    intro n hn
    cases hn
  · rw [hnone]
    decide

end FrameFlow

end RemotePlay.Client
