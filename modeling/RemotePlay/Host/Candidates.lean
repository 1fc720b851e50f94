import RemotePlay.Host.ReceiverThread
import RemotePlay.Lib.Run

/-!
# Reflected candidates

The receiver thread sends a candidate datagram on, unchanged, to the address
that it names, whoever it comes from. One that names the host's own address
comes back and is sent on again (`selfFed_sent`); `bounded_iff` says that these
are the only ones that make the host send more than it has received.
-/

namespace RemotePlay.Host

open Lib Protocol Crypto Session

/-- The network as the host's socket sees it. -/
structure HostNetwork where
  /-- `SendTo` gets a datagram out: `inet_pton` takes the address, `sendto` does not fail. -/
  sends : Endpoint → Bool
  /-- The address is the one the socket is bound to. -/
  isBound : Endpoint → Bool
  sends_of_isBound : ∀ e, isBound e = true → sends e = true

/-- A datagram that the candidate branch takes. -/
structure CandidateDatagram where
  data : List UInt8
  type : data.head? = some PacketType.candidateDiscovery.code
  length : CandidatePacket.size ≤ data.length

namespace CandidateDatagram

/-- `cp->ip` and `cp->port`. -/
def named (d : CandidateDatagram) : Endpoint :=
  let cp := CandidatePacket.read (Mem.load (fun _ => 0) d.data)
  ⟨cp.ipChars, cp.port⟩

/-- What `recvfrom` leaves of a datagram in `buf[2048]`. -/
def received (d : CandidateDatagram) : CandidateDatagram where
  data := d.data.take ReceiverThread.bufSize
  type := by
    rw [List.head?_take, if_neg (by decide)]
    exact d.type
  length := by
    rw [List.length_take]
    exact Nat.le_min.mpr ⟨by decide, d.length⟩

/-- In memory the packet is what the datagram says, whatever the buffer held. -/
theorem read_load (d : CandidateDatagram) (buf : Mem) :
    CandidatePacket.read (buf.load d.data) =
      CandidatePacket.read (Mem.load (fun _ => 0) d.data) := by
  have hlen := d.length
  refine CandidatePacket.read_congr fun i hi => ?_
  have hlt : i < d.data.length := Nat.lt_of_lt_of_le hi hlen
  simp [Mem.load, hlt]

theorem named_received (d : CandidateDatagram) : d.received.named = d.named := by
  have hread : CandidatePacket.read (Mem.load (fun _ => 0) d.received.data) =
      CandidatePacket.read (Mem.load (fun _ => 0) d.data) := by
    refine CandidatePacket.read_congr fun i hi => ?_
    have hlt : i < d.data.length := Nat.lt_of_lt_of_le hi d.length
    have hbuf : i < ReceiverThread.bufSize := Nat.lt_trans hi (by decide)
    simp [received, Mem.load, hlt, hbuf]
  unfold named
  rw [hread]

end CandidateDatagram

/-- The receiver thread when a datagram arrives. -/
structure Arrival where
  ctx : HostContext
  input : HostInput
  buf : Mem

/-- The `SendTo` calls for the datagram. -/
def Arrival.reflected (a : Arrival) (data : List UInt8) : List Datagram :=
  ((ReceiverThread.receive a.ctx (a.buf.load data) data.length).pass
    a.input).state.effects.filterMap fun
      | .sendTo datagram => some datagram
      | _ => none

/-- A candidate is sent on once, as it came. -/
theorem reflected_eq (a : Arrival) (d : CandidateDatagram) :
    a.reflected d.data = [⟨d.data, d.named⟩] := by
  have htype : a.buf.load d.data 0 = PacketType.candidateDiscovery.code := by
    have h := d.type
    rw [List.head?_eq_getElem?] at h
    simp only [Mem.load, List.getD_eq_getElem?_getD, h, Option.getD_some]
  have hdata : (a.buf.load d.data).read 0 d.data.length = d.data := Mem.holds_load a.buf d.data
  have hpass : (ReceiverThread.receive a.ctx (a.buf.load d.data) d.data.length).pass a.input =
      .leave (ReceiverThread.receive a.ctx (a.buf.load d.data) d.data.length).reflectCandidate :=
    if_pos ⟨htype, d.length⟩
  unfold Arrival.reflected
  rw [hpass]
  simp only [Pass.state, ReceiverThread.reflectCandidate, ReceiverThread.receive,
    List.nil_append, List.filterMap_cons, List.filterMap_nil, hdata, d.read_load a.buf]
  rfl

/-! ## Runs -/

/-- How many candidates have come from other machines, the datagrams the host has sent for
candidates, and those of them that are on their way back. -/
structure Reflector where
  received : Nat
  sent : List Datagram
  returning : List (List UInt8)

inductive ReflectorEvent where
  /-- A candidate from another machine is received. -/
  | other (a : Arrival) (d : CandidateDatagram)
  /-- One of the host's own datagrams is, the `n`-th of those on their way. -/
  | own (a : Arrival) (n : Nat)

namespace Reflector

def start : Reflector := ⟨0, [], []⟩

/-- The datagrams that get out, and those of them that come back. -/
def sendTo (net : HostNetwork) (s : Reflector) (datagrams : List Datagram) : Reflector :=
  { s with
    sent := s.sent ++ datagrams.filter (net.sends ·.target)
    returning := s.returning ++ (datagrams.filter (net.isBound ·.target)).map (·.data) }

def step (net : HostNetwork) (s : Reflector) : ReflectorEvent → Reflector
  | .other a d =>
    { s with received := s.received + 1 }.sendTo net (a.reflected d.received.data)
  | .own a n =>
    match s.returning[n]? with
    | some data => { s with returning := s.returning.eraseIdx n }.sendTo net (a.reflected data)
    | none => s

/-- Nothing else arrives than these, and the host's own datagrams. -/
def From (ds : List CandidateDatagram) : ReflectorEvent → Prop
  | .other _ d => d ∈ ds
  | .own _ _ => True

/-- Whatever arrives of these and whenever, the host sends at most what it has received. -/
def Bounded (net : HostNetwork) (ds : List CandidateDatagram) : Prop :=
  ∀ es : List ReflectorEvent, (∀ e ∈ es, From ds e) →
    (run (step net) start es).sent.length ≤ (run (step net) start es).received

variable {net : HostNetwork} {s : Reflector}

/-- A candidate that names another address is sent on once at most, and does not come back. -/
theorem sendTo_elsewhere {x : Datagram} (h : net.isBound x.target = false) :
    (s.sendTo net [x]).returning = s.returning ∧
      (s.sendTo net [x]).sent.length ≤ s.sent.length + 1 := by
  constructor
  · simp [sendTo, h]
  · have hle := List.length_filter_le (fun x : Datagram => net.sends x.target) [x]
    simp only [List.length_singleton] at hle
    simp only [sendTo, List.length_append]
    omega

/-- One that names the host's address is sent and comes back. -/
theorem sendTo_bound {x : Datagram} (h : net.isBound x.target = true) :
    s.sendTo net [x] =
      { s with
        sent := s.sent ++ [x]
        returning := s.returning ++ [x.data] } := by
  simp [sendTo, h, net.sends_of_isBound _ h]

/-- Nothing comes back, and no more has been sent than received. -/
def Still (s : Reflector) : Prop := s.returning = [] ∧ s.sent.length ≤ s.received

theorem still_step {ds : List CandidateDatagram} (hds : ∀ d ∈ ds, net.isBound d.named = false)
    (s : Reflector) (e : ReflectorEvent) (h : Still s) (he : From ds e) : Still (s.step net e) := by
  obtain ⟨hnone, hle⟩ := h
  cases e with
  | other a d =>
    have hbound : net.isBound d.named = false := hds d he
    obtain ⟨hback, hsent⟩ := sendTo_elsewhere (s := { s with received := s.received + 1 })
      (x := ⟨d.received.data, d.named⟩) hbound
    simp only [step, reflected_eq, d.named_received]
    refine ⟨hback.trans hnone, ?_⟩
    show _ ≤ s.received + 1
    simp only at hsent
    omega
  | own a n =>
    simp only [step, hnone, List.getElem?_nil]
    exact ⟨hnone, hle⟩

/-- **A candidate that names the host's own address** is sent on for ever. -/
theorem selfFed_sent {d : CandidateDatagram} (h : net.isBound d.named = true) (a : Arrival)
    (n : Nat) :
    run (step net) start (.other a d :: List.replicate n (.own a 0)) =
      ⟨1, List.replicate (n + 1) ⟨d.received.data, d.named⟩, [d.received.data]⟩ := by
  have hsend : ∀ s : Reflector, s.sendTo net [⟨d.received.data, d.named⟩] =
      { s with
        sent := s.sent ++ [⟨d.received.data, d.named⟩]
        returning := s.returning ++ [d.received.data] } := fun s => sendTo_bound h
  induction n with
  | zero =>
    simp only [List.replicate_zero, run, List.foldl_cons, List.foldl_nil, step, reflected_eq,
      d.named_received, hsend]
    rfl
  | succ n ih =>
    rw [List.replicate_succ', ← List.cons_append, run_append, ih]
    simp only [run, List.foldl_cons, List.foldl_nil, step, List.getElem?_cons_zero,
      List.eraseIdx_cons_zero, reflected_eq, d.named_received, hsend, List.nil_append]
    rw [← List.replicate_succ']

/-- A datagram at a host without sessions. -/
def idleArrival : Arrival where
  ctx := .init
  input := ⟨mock, ⟨[0x31], 5005⟩, 0, 0, fun _ => 0, staleHeader 0⟩
  buf _ := 0

theorem not_bounded {ds : List CandidateDatagram} {d : CandidateDatagram} (hd : d ∈ ds)
    (h : net.isBound d.named = true) : ¬ Bounded net ds := by
  intro hbounded
  have hrun := hbounded (.other idleArrival d :: List.replicate 1 (.own idleArrival 0)) ?_
  · rw [selfFed_sent h] at hrun
    exact absurd hrun (by decide : ¬ 2 ≤ 1)
  · intro e he
    rcases List.mem_cons.mp he with rfl | he
    · exact hd
    · cases List.eq_of_mem_replicate he
      trivial

/-- **Reflection.** The host sends at most as many candidates as it has received, in every run, iff
none of them names its own address. -/
theorem bounded_iff (net : HostNetwork) (ds : List CandidateDatagram) :
    Bounded net ds ↔ ∀ d ∈ ds, net.isBound d.named = false := by
  constructor
  · intro hbounded d hd
    by_contra hself
    rw [Bool.not_eq_false] at hself
    exact not_bounded hd hself hbounded
  · intro hds es hes
    have h0 : Still start := ⟨rfl, Nat.le_refl 0⟩
    exact (run_invariant (still_step hds) h0 (along_of_forall hes)).2

/-- A host on 127.0.0.1:5005. -/
def loopback : HostNetwork where
  sends _ := true
  isBound e := e = ⟨[0x31, 0x32, 0x37, 0x2E, 0x30, 0x2E, 0x30, 0x2E, 0x31], 5005⟩
  sends_of_isBound _ _ := rfl

/-- The candidate 127.0.0.1:5005. -/
def loopbackCandidate : CandidateDatagram where
  data := [0x0D, 0x31, 0x32, 0x37, 0x2E, 0x30, 0x2E, 0x30, 0x2E, 0x31] ++ List.replicate 55 0 ++
    [0x8D, 0x13, 0]
  type := rfl
  length := by decide

/-- One such datagram is enough. -/
theorem loopback_not_bounded : ¬ Bounded loopback [loopbackCandidate] :=
  not_bounded (List.mem_singleton.mpr rfl) (by decide +kernel)

end Reflector

end RemotePlay.Host
