import RemotePlay.Client.NetThread
import RemotePlay.Client.ReceiverFrames
import RemotePlay.Lib.Run

/-!
# Sessions and the replay window

The receiver has one replay window, and a response that installs another
session leaves it as it is: the numbers of all sessions are judged together.
So a packet is judged as by a new receiver exactly when the numbers accepted
in the other sessions let it through as well.
-/

namespace RemotePlay.Client

open Lib Protocol Crypto Session

/-! ## One datagram -/

namespace NetThread

/-- The thread after a datagram. -/
def served (input : NetInput) (t : NetThread) : NetThread := ((loop input).passes 2 t).state

/-- The envelope at the front of the datagram, when it belongs to the session and opens. -/
def opening (input : NetInput) (t : NetThread) : Option (SecureHeader × List UInt8) :=
  match t.envelope with
  | some e =>
    if e > decryptedSize then none
    else (decryptEnvelope input.cm t.session.rxKey t.buf).map fun plaintext =>
      (SecureHeader.read t.buf, plaintext)
  | none => none

/-- The same of the datagram itself or of the one in the relay packet it is. -/
def opened (input : NetInput) (t : NetThread) : Option (SecureHeader × List UInt8) :=
  match t.relayed with
  | some t' => t'.opening input
  | none => t.opening input

variable {input : NetInput} {t t' : NetThread} {sh : SecureHeader} {plaintext : List UInt8}

theorem pass_of_opening (h : t.opening input = some (sh, plaintext)) :
    ∃ t', t.pass input = .leave t' ∧ t'.session =
      (t.session.receiveDecrypted sh (input.stack.load plaintext) input.nowUs).1 := by
  unfold opening at h
  split at h
  · next e henv =>
    split at h
    · cases h
    · next hsize =>
      obtain ⟨plaintext', hplain, heq⟩ := Option.map_eq_some_iff.mp h
      cases heq
      refine ⟨t.openSecure input, ?_, ?_⟩
      · rw [pass_of_envelope henv, if_neg hsize]
      · unfold openSecure
        dsimp only
        rw [hplain]
  · cases h

theorem receiver_handshakeResponse (c : ClientSession) (cm : CryptoManager) (sender : Endpoint)
    (hrp : HandshakeSecureResponsePacket) :
    (c.handshakeResponse cm sender hrp).receiver = c.receiver := by
  unfold ClientSession.handshakeResponse ClientSession.adopt
  split
  · dsimp only
    split <;> rfl
  · rfl

/-- A pass over a datagram that is not opened leaves the receiver alone, and goes round at the same
datagram if it goes round. -/
theorem pass_of_unopened (h : t.opening input = none) (hrel : t.relayed = none) :
    (t.pass input).state.session.receiver = t.session.receiver ∧
      ∀ t', t.pass input = .again t' → t' = t := by
  rcases henv : t.envelope with _ | e
  · rw [pass_of_other henv hrel]
    refine ⟨?_, fun _ h => (nomatch h)⟩
    unfold Pass.state
    dsimp only
    split
    · exact receiver_handshakeResponse t.session input.cm input.sender _
    · rfl
  · rw [pass_of_envelope henv]
    split
    · exact ⟨rfl, fun _ h => (Pass.again.inj h).symm⟩
    · next hsize =>
      have hplain : decryptEnvelope input.cm t.session.rxKey t.buf = none := by
        unfold opening at h
        rw [henv] at h
        simp only [if_neg hsize] at h
        exact Option.map_eq_none_iff.mp h
      unfold openSecure
      dsimp only
      rw [hplain]
      exact ⟨rfl, fun _ h => (nomatch h)⟩

theorem served_of_opened (h : t.opened input = some (sh, plaintext)) :
    (t.served input).session =
      (t.session.receiveDecrypted sh (input.stack.load plaintext) input.nowUs).1 := by
  unfold opened at h
  unfold served
  split at h
  · next t' hrel =>
    obtain ⟨t'', hpass, hsession⟩ := pass_of_opening h
    obtain ⟨-, hlen, -, heq, -⟩ := relayed_eq_some hrel
    have hpos : 0 < t.len := Nat.lt_of_le_of_lt (Nat.zero_le _) hlen
    have hpos' : 0 < t'.len := by
      rw [heq]
      exact Nat.sub_pos_of_lt hlen
    rw [DatagramLoop.passes_two_of_again (L := loop input) hpos (pass_of_relayed hrel) hpos']
    show (t'.pass input).state.session = _
    rw [hpass]
    rw [heq] at hsession
    exact hsession
  · obtain ⟨t'', hpass, hsession⟩ := pass_of_opening h
    have hpos : 0 < t.len := by
      unfold opening at h
      split at h
      · next henv =>
        obtain ⟨-, hlen, -⟩ := envelope_eq_some henv
        exact Nat.lt_of_lt_of_le (by decide) hlen
      · cases h
    rw [DatagramLoop.passes_two_of_leave (L := loop input) hpos hpass]
    exact hsession

theorem served_of_unopened (h : t.opened input = none) :
    (t.served input).session.receiver = t.session.receiver := by
  unfold opened at h
  unfold served
  split at h
  · next t' hrel =>
    obtain ⟨-, hlen, -, heq, -⟩ := relayed_eq_some hrel
    have hpos : 0 < t.len := Nat.lt_of_le_of_lt (Nat.zero_le _) hlen
    have hpos' : 0 < t'.len := by
      rw [heq]
      exact Nat.sub_pos_of_lt hlen
    have hpass := (pass_of_unopened h (relayed_of_secure (secure_of_relayed hrel))).1
    rw [DatagramLoop.passes_two_of_again (L := loop input) hpos (pass_of_relayed hrel) hpos']
    rw [heq] at hpass ⊢
    exact hpass
  · next hrel =>
    rcases Nat.eq_zero_or_pos t.len with hlen | hpos
    · rw [DatagramLoop.passes_two_of_empty (L := loop input) hlen]
      rfl
    · obtain ⟨hreceiver, hagain⟩ := pass_of_unopened h hrel
      rcases hpass : t.pass input with t' | t'
      · cases hagain t' hpass
        rw [DatagramLoop.passes_two_of_again (L := loop input) hpos hpass hpos]
        exact hreceiver
      · rw [DatagramLoop.passes_two_of_leave (L := loop input) hpos hpass]
        rw [hpass] at hreceiver
        exact hreceiver

end NetThread

/-! ## What the window sees -/

theorem sequence_receiveDecrypted (c : ClientSession) (sh : SecureHeader) (decrypted : Mem)
    (nowUs : UInt64) : (c.receiveDecrypted sh decrypted nowUs).1.receiver.sequence =
      (c.receiver.sequence.validateSequence sh.sequenceNumber).2 := by
  unfold ClientSession.receiveDecrypted
  dsimp only
  split
  · unfold ClientSession.dispatch
    split
    · exact (Receiver.sameIntake_processPacket _ _ _ _).sequence
    split
    · rfl
    split <;> rfl
  · rfl

/-! ## Decisions -/

/-- What the replay check said about an opened envelope. -/
structure Decision where
  sessionId : UInt64
  number : UInt64
  fresh : Bool
  deriving DecidableEq, Repr

/-- The numbers the sessions in `p` have sent. -/
def numbersOf (p : UInt64 → Bool) (ds : List Decision) : List UInt64 :=
  (ds.filter fun d => p d.sessionId).map Decision.number

/-- Those that were accepted. -/
def acceptedOf (p : UInt64 → Bool) (ds : List Decision) : List Nat :=
  (ds.filter fun d => d.fresh && p d.sessionId).map fun d => d.number.toNat

/-- What a new receiver says of a packet after the packets `ds` of its session. -/
def freshDecision (ds : List Decision) (sessionId number : UInt64) : Bool :=
  ((SequenceWindow.run (numbersOf (· = sessionId) ds)).1.validateSequence number).1

/-- Every decision is that of a new receiver that has seen the session's earlier packets. -/
def Separate (ds : List Decision) : Prop :=
  ∀ past d rest, ds = past ++ d :: rest → d.fresh = freshDecision past d.sessionId d.number

section
variable {ds : List Decision} {d : Decision} {sid : UInt64}

theorem separate_snoc : Separate (ds ++ [d]) ↔
    Separate ds ∧ d.fresh = freshDecision ds d.sessionId d.number := by
  constructor
  · intro h
    refine ⟨fun past d' rest heq => h past d' (rest ++ [d]) ?_, h ds d [] rfl⟩
    rw [heq, List.append_assoc, List.cons_append]
  · rintro ⟨h, hd⟩ past d' rest heq
    rcases List.eq_nil_or_concat rest with rfl | ⟨rest, d'', rfl⟩
    · obtain ⟨rfl, hlast⟩ := List.append_inj' heq rfl
      cases hlast
      exact hd
    · rw [List.concat_eq_append, ← List.cons_append, ← List.append_assoc] at heq
      exact h past d' rest (List.append_inj' heq rfl).1

theorem mem_acceptedOf {p : UInt64 → Bool} {n : Nat} : n ∈ acceptedOf p ds ↔
    ∃ d ∈ ds, d.fresh = true ∧ p d.sessionId = true ∧ n = d.number.toNat := by
  unfold acceptedOf
  rw [List.mem_map]
  refine exists_congr fun d => ?_
  rw [List.mem_filter, Bool.and_eq_true, and_assoc, and_assoc, eq_comm (a := n)]

theorem mem_acceptedOf_snoc (p : UInt64 → Bool) (n : Nat) : n ∈ acceptedOf p (ds ++ [d]) ↔
    n ∈ acceptedOf p ds ∨ d.fresh = true ∧ p d.sessionId = true ∧ n = d.number.toNat := by
  rw [mem_acceptedOf, mem_acceptedOf]
  simp only [List.mem_append, List.mem_singleton, or_and_right, exists_or, exists_eq_left]

theorem numbersOf_snoc (p : UInt64 → Bool) : numbersOf p (ds ++ [d]) =
    numbersOf p ds ++ if p d.sessionId then [d.number] else [] := by
  unfold numbersOf
  rw [List.filter_append, List.map_append, List.filter_cons]
  split <;> rfl

/-- While the sessions are separate, a new receiver has accepted what the session had accepted. -/
theorem acceptedOf_eq_run (h : Separate ds) (n : Nat) :
    n ∈ acceptedOf (· = sid) ds ↔
      n ∈ (SequenceWindow.run (numbersOf (· = sid) ds)).2.map UInt64.toNat := by
  induction ds using List.reverseRecOn with
  | nil => exact Iff.rfl
  | append_singleton ds d ih =>
    obtain ⟨hds, hd⟩ := separate_snoc.mp h
    rw [mem_acceptedOf_snoc, ih hds]
    rw [numbersOf_snoc]
    by_cases hsid : d.sessionId = sid
    · have hrun : SequenceWindow.run (numbersOf (· = sid) ds ++ [d.number]) =
          SequenceWindow.observe (SequenceWindow.run (numbersOf (· = sid) ds)) d.number :=
        List.foldl_append
      rw [hsid] at hd
      rw [if_pos (decide_eq_true hsid), hrun]
      show _ ↔ n ∈ List.map UInt64.toNat
        (if freshDecision ds sid d.number then d.number :: _ else _)
      rw [← hd]
      split
      · next hfresh =>
        rw [List.map_cons, List.mem_cons, or_comm]
        exact or_congr_left ⟨fun h => h.2.2, fun h => ⟨hfresh, decide_eq_true hsid, h⟩⟩
      · next hfresh => exact or_iff_left fun h => hfresh h.1
    · rw [if_neg fun h => hsid (of_decide_eq_true h), List.append_nil]
      exact or_iff_left fun h => hsid (of_decide_eq_true h.2.1)

theorem freshDecision_iff (h : Separate ds) (number : UInt64) :
    freshDecision ds sid number = true ↔
      SlidingWindow.Admits windowSize (acceptedOf (· = sid) ds) number.toNat := by
  obtain ⟨hrep, -⟩ := SequenceWindow.run_spec (numbersOf (· = sid) ds)
  exact SequenceWindow.validateSequence_fresh_iff
    (hrep.congr fun n => (acceptedOf_eq_run h n).symm) number

end

/-! ## Runs -/

/-- The client, with the decisions of its replay check. -/
structure ReplayClient where
  session : ClientSession
  decisions : List Decision

inductive ReplayClientEvent where
  | datagram (input : NetInput) (buf : Mem) (len : Nat)
  /-- The client loop reads frames. -/
  | playback (f : Receiver → Receiver)

namespace ReplayClient

def start (clientKeyPair : KeyPair) (hostIp : List UInt8) (poolSize : Nat) : ReplayClient :=
  ⟨.init clientKeyPair hostIp poolSize, []⟩

/-- Only the network thread calls `ValidateSequence`. -/
def step (s : ReplayClient) : ReplayClientEvent → ReplayClient
  | .datagram input buf len =>
    let t := NetThread.receive s.session buf len
    { session := (t.served input).session
      decisions := match t.opened input with
        | some (sh, _) => s.decisions ++ [⟨sh.sessionId, sh.sequenceNumber,
            (s.session.receiver.validateSequence sh.sequenceNumber).1⟩]
        | none => s.decisions }
  | .playback f =>
    let receiver := { f s.session.receiver with sequence := s.session.receiver.sequence }
    { s with session := { s.session with receiver } }

/-- What the packets of its session let through, the packets of the other sessions do, too. -/
def Unaffected (s : ReplayClient) : ReplayClientEvent → Prop
  | .datagram input buf len => ∀ sh plaintext,
    (NetThread.receive s.session buf len).opened input = some (sh, plaintext) →
    SlidingWindow.Admits windowSize (acceptedOf (· = sh.sessionId) s.decisions)
      sh.sequenceNumber.toNat →
    SlidingWindow.Admits windowSize (acceptedOf (· ≠ sh.sessionId) s.decisions)
      sh.sequenceNumber.toNat
  | .playback _ => True

/-- The window represents everything accepted, whichever session it was in. -/
def Invariant (s : ReplayClient) : Prop :=
  s.session.receiver.sequence.Represents (acceptedOf (fun _ => true) s.decisions)

theorem invariant_step (s : ReplayClient) (e : ReplayClientEvent) (h : Invariant s) :
    Invariant (step s e) := by
  cases e with
  | playback f => exact h
  | datagram input buf len =>
    unfold Invariant
    simp only [step]
    rcases ho : (NetThread.receive s.session buf len).opened input with _ | ⟨sh, plaintext⟩
    · rw [NetThread.served_of_unopened ho]
      exact h
    · rw [NetThread.served_of_opened ho, sequence_receiveDecrypted]
      obtain ⟨-, hrep⟩ := SequenceWindow.validateSequence_spec h sh.sequenceNumber
      refine hrep.congr fun n => ?_
      rw [mem_acceptedOf_snoc]
      show n ∈ (SlidingWindow.offer _ _ _).2 ↔
        _ ∨ (s.session.receiver.sequence.validateSequence sh.sequenceNumber).1 = true ∧ _
      rw [SequenceWindow.validateSequence_fresh_iff h]
      unfold SlidingWindow.offer
      split
      · next hadmits =>
        rw [List.mem_cons, or_comm]
        exact or_congr_right ⟨fun h => ⟨hadmits, rfl, h⟩, fun h => h.2.2⟩
      · next hadmits => exact (or_iff_left fun h => hadmits h.1).symm

theorem separate_step_iff (s : ReplayClient) (e : ReplayClientEvent) (hinv : Invariant s)
    (h : Separate s.decisions) : Separate (step s e).decisions ↔ Unaffected s e := by
  cases e with
  | playback f => exact iff_of_true h trivial
  | datagram input buf len =>
    simp only [step, Unaffected]
    rcases ho : (NetThread.receive s.session buf len).opened input with _ | ⟨sh, plaintext⟩
    · exact iff_of_true h fun _ _ h => (nomatch h)
    · have hall : ∀ n, n ∈ acceptedOf (fun _ => true) s.decisions ↔
          n ∈ acceptedOf (· = sh.sessionId) s.decisions ∨
            n ∈ acceptedOf (· ≠ sh.sessionId) s.decisions := by
        intro n
        rw [mem_acceptedOf, mem_acceptedOf, mem_acceptedOf, ← exists_or]
        refine exists_congr fun d => ?_
        by_cases hsid : d.sessionId = sh.sessionId <;> simp [hsid]
      rw [separate_snoc, and_iff_right h]
      show (s.session.receiver.sequence.validateSequence sh.sequenceNumber).1 = _ ↔ _
      rw [Bool.eq_iff_iff, SequenceWindow.validateSequence_fresh_iff hinv, freshDecision_iff h,
        SlidingWindow.admits_union hall, and_iff_left_iff_imp]
      constructor
      · intro hadmits sh' plaintext' heq
        cases heq
        exact hadmits
      · intro hadmits
        exact hadmits sh plaintext rfl

theorem separate_of_step (s : ReplayClient) (e : ReplayClientEvent)
    (h : Separate (step s e).decisions) : Separate s.decisions := by
  cases e with
  | playback f => exact h
  | datagram input buf len =>
    simp only [step] at h
    split at h
    · exact (separate_snoc.mp h).1
    · exact h

/-- **Replay state belongs to its session** in exactly the runs in which every number its own
session's packets let through is let through by the numbers of the other sessions as well. -/
theorem separate_iff (clientKeyPair : KeyPair) (hostIp : List UInt8) (poolSize : Nat)
    (es : List ReplayClientEvent) :
    Separate (run step (start clientKeyPair hostIp poolSize) es).decisions ↔
      Along step Unaffected (start clientKeyPair hostIp poolSize) es := by
  have hinv : Invariant (start clientKeyPair hostIp poolSize) := SequenceWindow.represents_init
  have hseparate : Separate (start clientKeyPair hostIp poolSize).decisions := by
    intro past d rest heq
    cases past <;> cases heq
  exact run_iff_along (fun s e h _ => invariant_step s e h) separate_step_iff separate_of_step
    hinv hseparate es

/-- The build without libsodium, with a key exchange in which each side sends under its own public
key. -/
def exchange : CryptoManager :=
  { mock with deriveSessionKeys := fun pub _ peer _ _ _ => (true, peer, pub) }

def fromHost : NetInput := ⟨exchange, ⟨[0x31], 5005⟩, 0, fun _ => 0⟩

def arrival (bytes : List UInt8) : ReplayClientEvent :=
  .datagram fromHost (Mem.load (fun _ => 0) bytes) bytes.length

/-- A response for a session with the host key `b, b, …`. -/
def response (b : UInt8) (sessionId : UInt64) : ReplayClientEvent :=
  arrival (HandshakeSecureResponsePacket.bytes
    ⟨PacketType.handshakeSecureResponse.code, Vector.replicate 32 b, 1, sessionId⟩)

/-- The session's envelope number 0. -/
def firstPacket (b : UInt8) (sessionId : UInt64) : ReplayClientEvent :=
  arrival ((SecureHeader.mk PacketType.secure.code sessionId 0 1
    (Mock.tag [0xFF] 0 [b])).bytes ++ [0xFF])

/-- A session, its first packet, another session and its first packet. -/
def twoSessions : List ReplayClientEvent :=
  [response 2 7, firstPacket 2 7, response 3 8, firstPacket 3 8]

/-- The first packet of the second session is refused, a new receiver accepts it. -/
theorem second_session_refused :
    let s := run step (start ⟨[1], [1]⟩ [0x31] 0) twoSessions
    (s.session.sessionId, s.session.rxKey) = (8, List.replicate 32 3) ∧
      s.decisions = [⟨7, 0, true⟩, ⟨8, 0, false⟩] ∧ ¬ Separate s.decisions := by
  intro s
  have hdecisions : s.decisions = [⟨7, 0, true⟩, ⟨8, 0, false⟩] := by decide
  refine ⟨by decide, hdecisions, fun h => ?_⟩
  have hfresh : false = freshDecision [⟨7, 0, true⟩] 8 0 := h [⟨7, 0, true⟩] _ [] hdecisions
  revert hfresh
  decide

end ReplayClient

end RemotePlay.Client
