import RemotePlay.Common.LockFreeQueue
import RemotePlay.Host.HostContext

/-!
# The send queue

`ctx->sendQueue` is a `LockFreeQueue` with three kinds of producers: the
packetizer, the audio callback of each client, and the receiver thread when it
retransmits. Nothing keeps their pushes apart. While they do not overlap, every
datagram accepted is popped once; two that overlap take the same slot.
-/

namespace RemotePlay.Host

open Lib Common QueueRun

/-- The threads that push. -/
inductive SendThread where
  | packetizer
  | audio (client : Nat)
  | receiver
  deriving DecidableEq

/-- An element of `m_buffer`. The packet of `none` is a null pointer, as in a new element and in
one that was moved from. -/
abbrev SendSlot := Option OutgoingPacket

abbrev SendRun := QueueRun SendThread SendSlot

abbrev SendEvent := QueueEvent SendThread SendSlot

/-- `LockFreeQueue<OutgoingPacket, 4096>`. -/
def sendCapacity : Capacity := ⟨4096, by decide, by decide⟩

def sendStart : SendRun := start none

def sendStep : SendRun → SendEvent → SendRun := step sendCapacity fun _ => none

/-- What was popped and what is still queued are the accepted datagrams, each once. -/
def Lossless (s : SendRun) : Prop := s.popped ++ s.contents sendCapacity = s.accepted

/-- **The send queue loses nothing** while its pushes do not overlap. -/
theorem send_queue_lossless {es : List SendEvent}
    (hes : Along sendStep (Tidy sendCapacity) sendStart es) :
    let s := run sendStep sendStart es
    Lossless s ∧ s.popped <+: s.accepted ∧
    (s.popping = .idle →
      (run sendStep s (drain (s.contents sendCapacity).length)).popped = s.accepted) := by
  intro s
  have hinv : Invariant sendCapacity s :=
    run_invariant (fun s _ (h : Invariant sendCapacity s) he => invariant_step h he)
      (invariant_start sendCapacity none) hes
  have hlossless := hinv.popped_append_contents
  refine ⟨hlossless, ⟨_, hlossless⟩, fun hidle => hinv.popped_drain hidle ?_⟩
  rw [← hlossless, List.length_append]

def videoDatagram : OutgoingPacket := ⟨.new 1500, ⟨[49], 5000⟩⟩

def audioDatagram : OutgoingPacket := ⟨.new 1500, ⟨[49], 5001⟩⟩

/-- The packetizer pushes, then the receiver thread, whose push the sender thread comes into. -/
def apartPushes : List SendEvent :=
  [.call .packetizer (some videoDatagram), .push .packetizer, .push .packetizer,
    .push .packetizer, .call .receiver (some videoDatagram), .push .receiver, .pop, .pop,
    .push .receiver, .push .receiver, .pop, .pop]

theorem send_queue_lossless_two :
    let s := run sendStep sendStart apartPushes
    s.accepted.length = 2 ∧ s.popped.length = 1 ∧ Lossless s ∧ s.popped <+: s.accepted ∧
    (s.popping = .idle →
      (run sendStep s (drain (s.contents sendCapacity).length)).popped = s.accepted) := by
  refine ⟨by decide, by decide, send_queue_lossless ⟨trivial, ?_, ?_, ?_, trivial, ?_, trivial,
    trivial, ?_, ?_, trivial, trivial, trivial⟩⟩
  -- the first step of a push, in which nobody else fills a slot
  case refine_1 | refine_4 =>
    intro item tail h _
    cases h
    exact ⟨rfl, fun r' hr' => by cases r' <;> exact hr'⟩
  all_goals
    intro item tail h
    cases h

/-- The packetizer and an audio callback load the same `m_tail`. -/
def overlappingPushes : List SendEvent :=
  [.call .packetizer (some videoDatagram), .call (.audio 0) (some audioDatagram),
    .push .packetizer, .push (.audio 0), .push .packetizer, .push (.audio 0),
    .push .packetizer, .push (.audio 0)]

theorem overlapping_pushes_lose :
    let s := run sendStep sendStart (overlappingPushes ++ drain 2)
    s.accepted = [some videoDatagram, some audioDatagram] ∧ s.popped = [some audioDatagram] ∧
    s.queue.head = s.queue.tail ∧ ¬ Lossless s := by
  refine ⟨rfl, rfl, rfl, fun h => ?_⟩
  have hlen := congrArg List.length h
  exact absurd hlen (by decide)

end RemotePlay.Host
