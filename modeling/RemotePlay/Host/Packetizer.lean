import RemotePlay.Host.Fragment
import RemotePlay.Host.HostContext

/-!
# The packetizer

The fragment loop of `packetizerThread`. Packet handles are `Option Packet`:
`none` is a handle that has been moved from. `vh` points into the packet that
`udpPkt` owns at first, and is `none` once that packet is back in the pool. A
use of either is a `Fault`. The other threads may change the context and the
client before each `acquire`.
-/

namespace RemotePlay.Host

open Lib Protocol Crypto Session

inductive Fault where
  /-- A handle that has been moved from is dereferenced. -/
  | movedFrom
  /-- A packet that is back in the pool is used. -/
  | released
  deriving DecidableEq, Repr

def deref {α : Type} (fault : Fault) : Option α → Except Fault α
  | some a => .ok a
  | none => .error fault

/-- The bytes a packet sends: `size` of them. -/
def packetBytes (p : Packet) : List UInt8 := readN p.data.get p.size

/-- A fragment pushed to the send queue: its bytes, and the cache slot as the push left it. -/
structure PushedFragment where
  frameId : UInt32
  fragmentIndex : UInt16
  sent : List UInt8
  slot : CachedPacket

structure Packetizer where
  ctx : HostContext
  client : ClientState
  pushed : List PushedFragment

/-- What the loop depends on besides its state: the stack slot of each header, and the other
threads before the first (`0`) and the second (`1`) `acquire` of each fragment. -/
structure PacketizerInput where
  cm : CryptoManager
  stackHeader : UInt16 → SecureHeader
  world : UInt16 → Nat → HostContext × ClientState → HostContext × ClientState

namespace Packetizer

def start (ctx : HostContext) (client : ClientState) : Packetizer := ⟨ctx, client, []⟩

def meanwhile (world : HostContext × ClientState → HostContext × ClientState) (s : Packetizer) :
    Packetizer :=
  { s with ctx := (world (s.ctx, s.client)).1, client := (world (s.ctx, s.client)).2 }

/-- `ctx->udpPool.release(std::move(pkt))`. -/
def release (s : Packetizer) (pkt : Option Packet) : Packetizer :=
  { s with ctx := { s.ctx with udpPool := s.ctx.udpPool.release pkt } }

/-- A pooled packet with the header and the payload of a fragment. -/
def fillFragment (pkt : Packet) (vh : VideoHeader) (payload : Mem) : Packet :=
  let data := pkt.data.copyIn 0 VideoHeader.size (vh.bytes.getD · 0)
  { pkt with data := data.copyIn VideoHeader.size vh.dataSize.toNat payload }

/-- What `Encrypt` makes of a filled fragment: the sealed datagram. -/
def sealFragment (input : PacketizerInput) (s : Packetizer) (i : UInt16) (pkt : Packet)
    (vh : VideoHeader) : Option (List UInt8) :=
  sealEnvelope input.cm (input.stackHeader i) s.client.sessionId s.client.sendSequenceNumber
    s.client.txKey (readN pkt.data.get (VideoHeader.size + vh.dataSize.toNat))

/-- The end of the loop's body: the cache slot is written from `vh` and `securePkt`, then `udpPkt`
is pushed. A packet that the full queue refuses is lost with its temporary. -/
def cacheAndPush (s : Packetizer) (vh : Option VideoHeader) (udpPkt securePkt : Option Packet) :
    Except Fault Packetizer := do
  let header ← deref .released vh
  let sec ← deref .movedFrom securePkt
  let slot : CachedPacket := ⟨packetBytes sec, header.frameId, header.fragmentIndex, true⟩
  let cacheIdx := ClientState.cacheIdx header.frameId header.fragmentIndex
  let client := { s.client with packetCache := s.client.packetCache.insert cacheIdx slot }
  let pkt ← deref .movedFrom udpPkt
  let (queued, ctx) := s.ctx.push ⟨pkt, client.endpoint⟩
  if queued then
    pure ⟨ctx, client,
      s.pushed ++ [⟨header.frameId, header.fragmentIndex, packetBytes pkt, slot⟩]⟩
  else pure ⟨ctx, client, s.pushed⟩

/-- The state once the first packet of fragment `i` has been acquired and filled. -/
def filled (s : Packetizer) (udpPool : PacketPool) : Packetizer :=
  { s with ctx := { s.ctx with udpPool, globalPacketSequence := s.ctx.globalPacketSequence + 1 } }

/-- The state once the second packet has been acquired and the sequence number taken. -/
def numbered (s : Packetizer) (udpPool : PacketPool) : Packetizer :=
  { s with
    ctx := { s.ctx with udpPool }
    client := { s.client with sendSequenceNumber := s.client.sendSequenceNumber + 1 } }

/-- Fragment `i`; the flag says whether the loop goes on. -/
def fragment (input : PacketizerInput) (frame : EncodedPacket) (currentFid : UInt32) (i : UInt16)
    (s : Packetizer) : Except Fault (Bool × Packetizer) :=
  let s := s.meanwhile (input.world i 0)
  match s.ctx.udpPool.acquire with
  | (none, _) => .ok (false, s)
  | (some pkt, udpPool) =>
    let vh := frame.videoHeader currentFid i s.ctx.globalPacketSequence
    let udpPkt := fillFragment pkt vh (frame.fragmentPayload i)
    let s := (s.filled udpPool).meanwhile (input.world i 1)
    match s.ctx.udpPool.acquire with
    | (none, _) => .ok (false, s.release (some udpPkt))
    | (some securePkt, udpPool) =>
      match s.sealFragment input i udpPkt vh with
      | none => .ok (false, ((s.numbered udpPool).release (some securePkt)).release (some udpPkt))
      | some datagram =>
        let securePkt := HostContext.fillCached securePkt datagram
        -- `release(std::move(udpPkt)); udpPkt = std::move(securePkt);`
        let s := (s.numbered udpPool).release (some udpPkt)
        match s.cacheAndPush none (some securePkt) none with
        | .error fault => .error fault
        | .ok s => .ok (true, s)

/-- The loop from fragment `i` on, `n` fragments left. -/
def fragments (input : PacketizerInput) (frame : EncodedPacket) (currentFid : UInt32) :
    Nat → UInt16 → Packetizer → Except Fault Packetizer
  | 0, _, s => .ok s
  | n + 1, i, s =>
    match fragment input frame currentFid i s with
    | .error fault => .error fault
    | .ok (false, s) => .ok s
    | .ok (true, s) => fragments input frame currentFid n (i + 1) s

def packetize (input : PacketizerInput) (frame : EncodedPacket) (currentFid : UInt32)
    (s : Packetizer) : Except Fault Packetizer :=
  fragments input frame currentFid frame.totalFrags.toNat 0 s

end Packetizer

/-! ## Retransmission -/

/-- A retransmit request for the fragment, in any context with a free packet and room in the queue
and with the cache slot as the push left it, queues the bytes that were pushed. -/
def RetransmitsAs (p : PushedFragment) : Prop :=
  ∀ (ctx : HostContext) (target : ClientState) (rrp : RetransmitRequestPacket) (pkt : Packet)
    (rest : List Packet), rrp.frameId = p.frameId → rrp.fragmentIndex = p.fragmentIndex →
    target.packetCache.get (ClientState.cacheIdx p.frameId p.fragmentIndex) = p.slot →
    ctx.udpPool.pool = pkt :: rest → ctx.sendQueue.length < sendQueueCapacity →
    ∃ out, (ctx.handleRetransmitRequest target rrp).sendQueue = ctx.sendQueue ++ [out] ∧
      packetBytes out.packet = p.sent ∧ out.target = target.endpoint

theorem packetBytes_fillCached (pkt : Packet) (data : List UInt8) :
    packetBytes (HostContext.fillCached pkt data) = data := by
  refine List.ext_getElem (by simp [packetBytes, HostContext.fillCached]) fun k h1 h2 => ?_
  simp only [packetBytes, HostContext.fillCached, getElem_readN]
  rw [Vec.get_copyIn_in _ _ (Nat.zero_le k) (by omega), Nat.sub_zero, List.getD_eq_getElem?_getD,
    List.getElem?_eq_getElem h2, Option.getD_some]

/-- A slot that holds the bytes sent is enough. -/
theorem retransmitsAs_of_slot {p : PushedFragment}
    (h : p.slot = ⟨p.sent, p.frameId, p.fragmentIndex, true⟩) : RetransmitsAs p := by
  intro ctx target rrp pkt rest hid hidx hslot hpool hroom
  have hcached : target.cachedFragment rrp.frameId rrp.fragmentIndex = some p.sent := by
    simp only [ClientState.cachedFragment, hid, hidx, hslot, h, and_self, if_true]
  refine ⟨⟨HostContext.fillCached pkt p.sent, target.endpoint⟩, ?_, packetBytes_fillCached _ _, rfl⟩
  have hacq : ctx.udpPool.acquire = (some pkt, ⟨rest⟩) := by
    simp only [PacketPool.acquire, hpool]
  simp only [HostContext.handleRetransmitRequest, hcached, hacq, HostContext.push]
  rw [if_neg (Nat.not_le_of_lt hroom)]

namespace Packetizer

/-- With live handles to the sealed packet, the end of the body keeps pushed fragments
retransmittable. -/
theorem cacheAndPush_live {s s' : Packetizer} {vh : VideoHeader} {p : Packet}
    (h : s.cacheAndPush (some vh) (some p) (some p) = .ok s')
    (hs : ∀ q ∈ s.pushed, RetransmitsAs q) : ∀ q ∈ s'.pushed, RetransmitsAs q := by
  simp only [cacheAndPush, deref] at h
  change (if _ then Except.ok _ else Except.ok _) = _ at h
  split at h <;> cases h
  · intro q hq
    rcases List.mem_append.mp hq with hq | hq
    · exact hs q hq
    · rw [List.mem_singleton.mp hq]
      exact retransmitsAs_of_slot rfl
  · exact hs

/-! ## What the loop does -/

/-- Fragment `i` is given up before it is sealed into its second packet: the pool is empty at one
of the two `acquire` calls, or `Encrypt` fails. -/
def GivesUp (input : PacketizerInput) (frame : EncodedPacket) (currentFid : UInt32) (i : UInt16)
    (s : Packetizer) : Prop :=
  let s₁ := s.meanwhile (input.world i 0)
  match s₁.ctx.udpPool.acquire with
  | (none, _) => True
  | (some pkt, udpPool) =>
    let vh := frame.videoHeader currentFid i s₁.ctx.globalPacketSequence
    let s₂ := (s₁.filled udpPool).meanwhile (input.world i 1)
    s₂.ctx.udpPool.pool = [] ∨
      s₂.sealFragment input i (fillFragment pkt vh (frame.fragmentPayload i)) vh = none

/-- **One fragment**: it is given up, or its body uses the packet it has just released. -/
theorem fragment_spec (input : PacketizerInput) (frame : EncodedPacket) (currentFid : UInt32)
    (i : UInt16) (s : Packetizer) :
    (GivesUp input frame currentFid i s ∧
      ∃ s', fragment input frame currentFid i s = .ok (false, s') ∧ s'.pushed = s.pushed) ∨
    (¬ GivesUp input frame currentFid i s ∧
      fragment input frame currentFid i s = .error .released) := by
  unfold GivesUp fragment
  simp only
  generalize hs₁ : s.meanwhile (input.world i 0) = s₁
  have hp₁ : s₁.pushed = s.pushed := by rw [← hs₁]; rfl
  rcases hacq : s₁.ctx.udpPool.acquire with ⟨_ | pkt, pool₁⟩
  · exact .inl ⟨trivial, s₁, rfl, hp₁⟩
  simp only
  generalize frame.videoHeader currentFid i s₁.ctx.globalPacketSequence = vh
  generalize fillFragment pkt vh (frame.fragmentPayload i) = udpPkt
  generalize hs₂ : (s₁.filled pool₁).meanwhile (input.world i 1) = s₂
  have hp₂ : s₂.pushed = s.pushed := by rw [← hs₂]; exact hp₁
  rcases hpool : s₂.ctx.udpPool.pool with _ | ⟨securePkt, rest⟩
  · have hnone : s₂.ctx.udpPool.acquire = (none, s₂.ctx.udpPool) := by
      simp only [PacketPool.acquire, hpool]
    rw [hnone]
    exact .inl ⟨.inl rfl, _, rfl, hp₂⟩
  · have hsome : s₂.ctx.udpPool.acquire = (some securePkt, ⟨rest⟩) := by
      simp only [PacketPool.acquire, hpool]
    rw [hsome]
    rcases hseal : s₂.sealFragment input i udpPkt vh with _ | datagram
    · exact .inl ⟨.inr rfl, _, rfl, hp₂⟩
    · refine .inr ⟨?_, rfl⟩
      rintro (h | h) <;> cases h

/-- **One frame**: nothing is pushed and the packetizer goes on, or it uses a released packet. -/
theorem packetize_cases (input : PacketizerInput) (frame : EncodedPacket) (currentFid : UInt32)
    (s : Packetizer) :
    ((frame.totalFrags = 0 ∨ GivesUp input frame currentFid 0 s) ∧
      ∃ s', packetize input frame currentFid s = .ok s' ∧ s'.pushed = s.pushed) ∨
    (¬ (frame.totalFrags = 0 ∨ GivesUp input frame currentFid 0 s) ∧
      packetize input frame currentFid s = .error .released) := by
  unfold packetize
  cases hn : frame.totalFrags.toNat with
  | zero => exact .inl ⟨.inl (UInt16.toNat_inj.mp hn), s, rfl, rfl⟩
  | succ n =>
    have hne : frame.totalFrags ≠ 0 := fun h => by
      rw [h] at hn
      cases hn
    rcases fragment_spec input frame currentFid 0 s with ⟨hgive, s', hfrag, hpushed⟩ | ⟨hgive, hfrag⟩
    · exact .inl ⟨.inr hgive, s', by simp only [fragments, hfrag], hpushed⟩
    · exact .inr ⟨not_or.mpr ⟨hne, hgive⟩, by simp only [fragments, hfrag]⟩

/-- Every handle is live when it is used, and what was pushed is retransmitted as it was sent. -/
def Faithful (result : Except Fault Packetizer) : Prop :=
  ∃ s, result = .ok s ∧ ∀ p ∈ s.pushed, RetransmitsAs p

/-- **Retransmission fidelity** holds of a frame iff it has no fragment or its first one is given
up: the pool is empty at the fragment's first or second `acquire`, or `Encrypt` fails on it. -/
theorem packetize_faithful_iff (input : PacketizerInput) (frame : EncodedPacket)
    (currentFid : UInt32) (ctx : HostContext) (client : ClientState) :
    Faithful (packetize input frame currentFid (start ctx client)) ↔
      frame.totalFrags = 0 ∨ GivesUp input frame currentFid 0 (start ctx client) := by
  rcases packetize_cases input frame currentFid (start ctx client) with
    ⟨hnone, s, hok, hpushed⟩ | ⟨hsome, hfault⟩
  · refine iff_of_true ⟨s, hok, fun p hp => ?_⟩ hnone
    rw [hpushed] at hp
    cases hp
  · refine iff_of_false ?_ hsome
    rintro ⟨s, hs, -⟩
    rw [hfault] at hs
    cases hs

/-- A host with two free packets and a client with session 7. -/
def twoPackets : HostContext := { HostContext.init with udpPool := .init 2 1500 }

def session7 : ClientState := { ClientState.new ⟨[0x31], 6000⟩ [3] 0 with sessionId := 7 }

/-- The build without libsodium, a zeroed stack, no other thread. -/
def quiet : PacketizerInput := ⟨mock, fun _ => ⟨0, 0, 0, 0, Vector.replicate 16 0⟩, fun _ _ s => s⟩

/-- A one-byte frame whose fragment finds both packets and is encrypted: the body then reads its
header out of the released packet. -/
theorem packetize_uses_released :
    packetize quiet ⟨⟨⟨1, fun _ => 0⟩, 1, true, 0, 0⟩, true, false, 0, 0, 0⟩ 1
        (start twoPackets session7) = .error .released ∧
      ¬ Faithful (packetize quiet ⟨⟨⟨1, fun _ => 0⟩, 1, true, 0, 0⟩, true, false, 0, 0, 0⟩ 1
        (start twoPackets session7)) := by
  have herr : packetize quiet ⟨⟨⟨1, fun _ => 0⟩, 1, true, 0, 0⟩, true, false, 0, 0, 0⟩ 1
      (start twoPackets session7) = .error .released := rfl
  refine ⟨herr, ?_⟩
  rw [herr]
  rintro ⟨s, hs, -⟩
  cases hs

end Packetizer

end RemotePlay.Host
