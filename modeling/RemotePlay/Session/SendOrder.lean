import RemotePlay.Host.Dispatch
import RemotePlay.Lib.Run

/-!
# Sending order and the host's replay check

The client sends from two threads, the input callback and the session loop;
each takes a number with `fetch_add`, seals, and calls `SendTo`. The network
delivers every datagram once, in the order of the `SendTo` calls, and every
envelope opens at the host. The host drops a number below the one after the
last it let through, so it drops what `SendTo` sends out of numeric order.
-/

namespace RemotePlay.Session

open Lib Protocol Crypto Host

inductive Sender where
  | inputCallback | sessionLoop
  deriving DecidableEq, Repr

/-- A packet in its envelope. -/
structure Sealed where
  header : SecureHeader
  packet : ClientPacket

/-- Where a thread stands between two sends. -/
inductive Stage where
  | idle
  /-- The number is taken and the header filled. -/
  | numbered (header : SecureHeader) (packet : ClientPacket)
  /-- `Encrypt` has succeeded. -/
  | encrypted (p : Sealed)

structure SendPath where
  sendSequenceNumber : UInt64
  stage : Sender → Stage
  /-- The `SendTo` calls so far. -/
  sent : List Sealed
  inFlight : List Sealed
  ctx : HostContext
  /-- The deliveries so far, each with the host's state before it. -/
  delivered : List (HostContext × Sealed)

inductive SendEvent where
  | take (t : Sender) (stack : SecureHeader) (packet : ClientPacket)
  /-- `Encrypt` returns, with the tag it wrote or with a failure. -/
  | encrypt (t : Sender) (tag : Option (Bytes 16))
  | sendTo (t : Sender)
  | deliver (input : HostInput) (target : ClientState)
  /-- The host does anything else. -/
  | meanwhile (world : HostContext → HostContext)

/-- The number of an envelope. -/
def Sealed.seq (p : Sealed) : UInt64 := p.header.sequenceNumber

namespace SendPath

/-- A session the host has received nothing of yet. -/
def start (ctx : HostContext) : SendPath := ⟨0, fun _ => .idle, [], [], ctx, []⟩

def setStage (s : SendPath) (t : Sender) (stage : Stage) : SendPath :=
  { s with stage := fun t' => if t' = t then stage else s.stage t' }

/-- Only the receiver thread has `lastSeqs`, and only the session's packets change its entry. -/
def keepSeq (sid : UInt64) (world : HostContext → HostContext) (ctx : HostContext) : HostContext :=
  { world ctx with
    lastSeqs := fun i => if i = sid then ctx.lastSeqs sid else (world ctx).lastSeqs i }

/-- The receiver thread with the opened envelope. -/
def receive (ctx : HostContext) (p : Sealed) (input : HostInput) (target : ClientState) :
    HostContext × List HostEffect :=
  ctx.receiveDecrypted input target p.header (input.stack.load p.packet.bytes)

def step (sid : UInt64) (s : SendPath) : SendEvent → SendPath
  | .take t stack packet =>
    match s.stage t with
    | .idle =>
      let header := fillHeader stack sid s.sendSequenceNumber packet.bytes.length
      { s.setStage t (.numbered header packet) with
        sendSequenceNumber := s.sendSequenceNumber + 1 }
    | _ => s
  | .encrypt t tag =>
    match s.stage t, tag with
    | .numbered header packet, some tag => s.setStage t (.encrypted ⟨withTag header tag, packet⟩)
    | .numbered _ _, none => s.setStage t .idle
    | _, _ => s
  | .sendTo t =>
    match s.stage t with
    | .encrypted p =>
      { s.setStage t .idle with sent := s.sent ++ [p], inFlight := s.inFlight ++ [p] }
    | _ => s
  | .deliver input target =>
    match s.inFlight with
    | [] => s
    | p :: rest =>
      { s with
        inFlight := rest
        ctx := (receive s.ctx p input target).1
        delivered := s.delivered ++ [(s.ctx, p)] }
  | .meanwhile world => { s with ctx := keepSeq sid world s.ctx }

/-! ## What the host does with a delivery -/

/-- The receiver's state once the replay check has let the packet through. -/
def accept (ctx : HostContext) (p : Sealed) (input : HostInput) : HostContext :=
  ((ctx.updateSession input.sender p.header.sessionId (·.touch input)).replayCheck p.header).2

/-- The host lets the packet through to its handler. -/
def Reaches (ctx : HostContext) (p : Sealed) : Prop :=
  (ctx.replayCheck p.header).1 = true ∧ ∀ input target,
    receive ctx p input target = p.packet.handle (accept ctx p input) input (target.touch input)

/-- Every packet sent is in flight or was delivered once, and every one that was delivered has gone
to its handler. -/
def Lossless (s : SendPath) : Prop :=
  s.delivered.map Prod.snd ++ s.inFlight = s.sent ∧ ∀ d ∈ s.delivered, Reaches d.1 d.2

/-- Every `SendTo` sends a larger number than those before it. -/
def InOrder (s : SendPath) : SendEvent → Prop
  | .sendTo t => ∀ p, s.stage t = .encrypted p → ∀ q ∈ s.sent, q.seq < p.seq
  | _ => True

/-- An envelope of the session, of the size of its packet. -/
def Envelope (sid : UInt64) (header : SecureHeader) (packet : ClientPacket) : Prop :=
  header.sessionId = sid ∧ header.encryptedSize.toNat = packet.bytes.length

theorem envelope_fillHeader (sid : UInt64) (stack : SecureHeader) (n : UInt64)
    (packet : ClientPacket) :
    Envelope sid (fillHeader stack sid n packet.bytes.length) packet :=
  ⟨rfl, by simp only [fillHeader, UInt16.toNat_ofNat', Nat.mod_eq_of_lt packet.length_bytes_lt]⟩

section
variable {sid : UInt64} {ctx : HostContext} {p : Sealed} {input : HostInput} {target : ClientState}

theorem receive_of_le (hp : Envelope sid p.header p.packet) (h : ctx.lastSeqs sid ≤ p.seq) :
    receive ctx p input target =
      p.packet.handle (accept ctx p input) input (target.touch input) := by
  have hfresh : ((ctx.updateSession input.sender p.header.sessionId
      (·.touch input)).replayCheck p.header).1 = true :=
    HostContext.replayCheck_fresh_iff.mpr (by rw [hp.1]; exact h)
  simp only [receive, HostContext.receiveDecrypted, hfresh, if_true, hp.2]
  exact p.packet.dispatch_of_holds (Mem.holds_load _ _)

theorem reaches_of_le (hp : Envelope sid p.header p.packet) (h : ctx.lastSeqs sid ≤ p.seq) :
    Reaches ctx p :=
  ⟨HostContext.replayCheck_fresh_iff.mpr (by rw [hp.1]; exact h), fun _ _ => receive_of_le hp h⟩

theorem lastSeqs_receive (hp : Envelope sid p.header p.packet) (h : ctx.lastSeqs sid ≤ p.seq) :
    (receive ctx p input target).1.lastSeqs sid = p.seq + 1 := by
  rw [receive_of_le hp h, ClientPacket.lastSeqs_handle, accept, ← hp.1]
  exact HostContext.lastSeqs_replayCheck (by
    rw [hp.1]
    exact h)

end

/-! ## Runs -/

/-- The envelope a thread holds is one of the session. -/
def StageOk (sid : UInt64) : Stage → Prop
  | .idle => True
  | .numbered header packet => Envelope sid header packet
  | .encrypted p => Envelope sid p.header p.packet

/-- What a run whose sends are in order keeps. The host's number is the one after a packet that was
delivered, and everything in flight was sent after that packet. -/
structure Invariant (sid : UInt64) (s : SendPath) : Prop where
  conveyed : s.delivered.map Prod.snd ++ s.inFlight = s.sent
  reached : ∀ d ∈ s.delivered, Reaches d.1 d.2
  ordered : s.sent.Pairwise (fun p q => p.seq < q.seq)
  last : s.ctx.lastSeqs sid = 0 ∨ ∃ d ∈ s.delivered, s.ctx.lastSeqs sid = d.2.seq + 1
  stages : ∀ t, StageOk sid (s.stage t)
  envelopes : ∀ p ∈ s.sent, Envelope sid p.header p.packet

theorem invariant_start {sid : UInt64} {ctx : HostContext} (hnew : ctx.lastSeqs sid = 0) :
    Invariant sid (start ctx) where
  conveyed := rfl
  reached _ hd := nomatch hd
  ordered := .nil
  last := .inl hnew
  stages _ := trivial
  envelopes _ hp := nomatch hp

section
variable {sid : UInt64} {s : SendPath}

theorem stageOk_setStage {t : Sender} {stage : Stage} (h : ∀ t, StageOk sid (s.stage t))
    (hstage : StageOk sid stage) (t' : Sender) : StageOk sid ((s.setStage t stage).stage t') := by
  unfold setStage
  dsimp only
  split
  · exact hstage
  · exact h t'

theorem Invariant.setStage (h : Invariant sid s) (t : Sender) (stage : Stage)
    (hstage : StageOk sid stage) : Invariant sid (s.setStage t stage) where
  conveyed := h.conveyed
  reached := h.reached
  ordered := h.ordered
  last := h.last
  stages := stageOk_setStage h.stages hstage
  envelopes := h.envelopes

theorem Invariant.sendTo (h : Invariant sid s) {t : Sender} {p : Sealed}
    (hp : s.stage t = .encrypted p) (horder : ∀ q ∈ s.sent, q.seq < p.seq) :
    Invariant sid
      { s.setStage t .idle with sent := s.sent ++ [p], inFlight := s.inFlight ++ [p] } where
  conveyed := by
    show s.delivered.map Prod.snd ++ (s.inFlight ++ [p]) = s.sent ++ [p]
    rw [← List.append_assoc, h.conveyed]
  reached := h.reached
  ordered := by
    refine List.pairwise_append.mpr ⟨h.ordered, List.pairwise_singleton _ _, fun q hq p' hp' => ?_⟩
    rw [List.mem_singleton.mp hp']
    exact horder q hq
  last := h.last
  stages := stageOk_setStage h.stages trivial
  envelopes q hq := by
    rcases List.mem_append.mp hq with hq | hq
    · exact h.envelopes q hq
    · have hstage := h.stages t
      rw [hp] at hstage
      rw [List.mem_singleton.mp hq]
      exact hstage

theorem add_one_le_of_lt {a b : UInt64} (h : a < b) : a + 1 ≤ b := by
  rw [UInt64.lt_iff_toNat_lt] at h
  rw [UInt64.le_iff_toNat_le, UInt64.toNat_add]
  have hb := b.toNat_lt
  have hone : (1 : UInt64).toNat = 1 := rfl
  omega

theorem Invariant.count (h : Invariant sid s) (n : UInt64) :
    Invariant sid { s with sendSequenceNumber := n } where
  conveyed := h.conveyed
  reached := h.reached
  ordered := h.ordered
  last := h.last
  stages := h.stages
  envelopes := h.envelopes

/-- The packet at the front of the network is not below the host's number. -/
theorem Invariant.lastSeqs_le (h : Invariant sid s) {p : Sealed} {rest : List Sealed}
    (hflight : s.inFlight = p :: rest) :
    Envelope sid p.header p.packet ∧ s.ctx.lastSeqs sid ≤ p.seq := by
  have hsent := h.conveyed
  rw [hflight] at hsent
  refine ⟨h.envelopes p (by rw [← hsent]; simp), ?_⟩
  rcases h.last with hzero | ⟨d, hd, hlast⟩
  · rw [hzero]
    exact UInt64.zero_le
  · rw [hlast]
    have hordered := h.ordered
    rw [← hsent] at hordered
    exact add_one_le_of_lt ((List.pairwise_append.mp hordered).2.2 d.2
      (List.mem_map_of_mem hd) p List.mem_cons_self)

theorem Invariant.deliver (h : Invariant sid s) {p : Sealed} {rest : List Sealed}
    (hflight : s.inFlight = p :: rest) (input : HostInput) (target : ClientState) :
    Invariant sid { s with
      inFlight := rest
      ctx := (receive s.ctx p input target).1
      delivered := s.delivered ++ [(s.ctx, p)] } where
  conveyed := by
    show (s.delivered ++ [(s.ctx, p)]).map Prod.snd ++ rest = s.sent
    rw [← h.conveyed, hflight, List.map_append, List.append_assoc]
    rfl
  reached d hd := by
    rcases List.mem_append.mp hd with hd | hd
    · exact h.reached d hd
    · obtain ⟨hp, hle⟩ := h.lastSeqs_le hflight
      rw [List.mem_singleton.mp hd]
      exact reaches_of_le hp hle
  ordered := h.ordered
  last := by
    obtain ⟨hp, hle⟩ := h.lastSeqs_le hflight
    exact .inr ⟨(s.ctx, p), List.mem_append_right _ (List.mem_singleton.mpr rfl),
      lastSeqs_receive hp hle⟩
  stages := h.stages
  envelopes := h.envelopes

theorem lastSeqs_keepSeq (sid : UInt64) (world : HostContext → HostContext) (ctx : HostContext) :
    (keepSeq sid world ctx).lastSeqs sid = ctx.lastSeqs sid := by
  simp only [keepSeq, if_true]

theorem Invariant.meanwhile (h : Invariant sid s) (world : HostContext → HostContext) :
    Invariant sid { s with ctx := keepSeq sid world s.ctx } where
  conveyed := h.conveyed
  reached := h.reached
  ordered := h.ordered
  last := by
    show (keepSeq sid world s.ctx).lastSeqs sid = 0 ∨ _
    simp only [lastSeqs_keepSeq]
    exact h.last
  stages := h.stages
  envelopes := h.envelopes

/-- One step. -/
theorem invariant_step {e : SendEvent} (h : Invariant sid s) (he : InOrder s e) :
    Invariant sid (step sid s e) := by
  cases e with
  | take t stack packet =>
    simp only [step]
    split
    · exact (h.setStage t (.numbered _ packet) (envelope_fillHeader sid stack _ packet)).count _
    · exact h
  | encrypt t tag =>
    simp only [step]
    split
    · next header packet tag hstage =>
      have hok := h.stages t
      rw [hstage] at hok
      exact h.setStage t (.encrypted _) hok
    · exact h.setStage t .idle trivial
    · exact h
  | sendTo t =>
    simp only [step]
    split
    · next p hstage => exact h.sendTo hstage (he p hstage)
    · exact h
  | deliver input target =>
    simp only [step]
    split
    · exact h
    · next p rest hflight => exact h.deliver hflight input target
  | meanwhile world => exact h.meanwhile world

end

/-- **No client packet is lost** in a run whose `SendTo` calls are in the order of the numbers:
every packet that is delivered goes through the replay check to its handler. -/
theorem lossless_of_inOrder (sid : UInt64) {ctx : HostContext} (hnew : ctx.lastSeqs sid = 0)
    {es : List SendEvent} (hes : Along (step sid) InOrder (start ctx) es) :
    Lossless (run (step sid) (start ctx) es) := by
  have h := run_invariant (fun s e hs he => invariant_step hs he) (invariant_start hnew) hes
  exact ⟨h.conveyed, h.reached⟩

def session7 : ClientState := { ClientState.new ⟨[0x31], 6000⟩ [3] 0 with sessionId := 7 }

def delivery : SendEvent :=
  .deliver ⟨mock, ⟨[0x31], 6000⟩, 0, 0, fun _ => 0, staleHeader 0⟩ session7

/-- The input callback takes 0 for a key-up, the session loop 1 for a time-sync request; both seal,
and the threads call `SendTo` in the order given. -/
def keyUpAndTimeSync (first second : Sender) : List SendEvent :=
  [.take .inputCallback (staleHeader 0) (.input 0 (.keyboard 0x41 0)),
    .take .sessionLoop (staleHeader 0) (.timeSync 0),
    .encrypt .inputCallback (some (Vector.replicate 16 0)),
    .encrypt .sessionLoop (some (Vector.replicate 16 0)),
    .sendTo first, .sendTo second, delivery, delivery]

theorem lossless_of_inOrder_keyUp :
    Lossless (run (step 7) (start .init) (keyUpAndTimeSync .inputCallback .sessionLoop)) := by
  refine lossless_of_inOrder 7 rfl ⟨trivial, trivial, trivial, trivial, ?_, ?_, trivial, trivial,
    trivial⟩
  · intro p _ q hq
    cases hq
  · intro p hp q hq
    cases hp
    rw [List.mem_singleton.mp hq]
    decide

/-- The session loop overtakes the input callback: the key-up is dropped. -/
theorem keyUp_lost :
    ¬ Lossless (run (step 7) (start .init) (keyUpAndTimeSync .sessionLoop .inputCallback)) := by
  rintro ⟨-, hreached⟩
  obtain ⟨hfresh, -⟩ := hreached _ (List.mem_cons_of_mem _ List.mem_cons_self)
  exact absurd hfresh (by decide)

end SendPath

end RemotePlay.Session
