import RemotePlay.Host.HostContext

/-!
# What the client sends in a session

The packets of the client's two sending threads, and that the host's dispatch
takes each of them, once it is decrypted, to its handler with the fields the
client wrote.
-/

namespace RemotePlay.Host

open Lib Protocol Crypto Session

inductive ClientPacket where
  /-- `InputCapture::SendPacket`. -/
  | input (timestamp : UInt64) (ev : InputEvent)
  /-- The sender sets the type, and leaves the last two fields as its stack slot held them. -/
  | feedback (fh : FeedbackHeader)
  | retransmitRequest (frameId : UInt32) (fragmentIndex : UInt16)
  | timeSync (clientSendTimestamp : UInt64)

namespace ClientPacket

def inputHeader (timestamp : UInt64) (ev : InputEvent) : InputHeader :=
  ⟨PacketType.input.code, ev.inputType.code, timestamp⟩

def feedbackHeader (fh : FeedbackHeader) : FeedbackHeader :=
  { fh with type := PacketType.feedback.code }

def rrp (frameId : UInt32) (fragmentIndex : UInt16) : RetransmitRequestPacket :=
  ⟨PacketType.retransmitRequest.code, frameId, fragmentIndex⟩

def tsp (clientSendTimestamp : UInt64) : TimeSyncPacket :=
  ⟨PacketType.timeSync.code, clientSendTimestamp⟩

def bytes : ClientPacket → List UInt8
  | input timestamp ev => (inputHeader timestamp ev).bytes ++ ev.bytes
  | feedback fh => (feedbackHeader fh).bytes
  | retransmitRequest frameId fragmentIndex => (rrp frameId fragmentIndex).bytes
  | timeSync clientSendTimestamp => (tsp clientSendTimestamp).bytes

/-- The handler of a packet. -/
def handle (ctx : HostContext) (input : HostInput) (target : ClientState) :
    ClientPacket → HostContext × List HostEffect
  | .input _ ev => (ctx, [.inject input.sender.ip ev])
  | feedback fh =>
    (ctx, .updatePerformanceMetrics target.sessionId (feedbackHeader fh) ::
      if fh.requestKeyframe ≠ 0 then [.requestKeyframe target.sessionId] else [])
  | retransmitRequest frameId fragmentIndex =>
    (ctx.handleRetransmitRequest target (rrp frameId fragmentIndex), [])
  | timeSync clientSendTimestamp => ctx.handleTimeSync input target (tsp clientSendTimestamp)

theorem length_bytes_lt (p : ClientPacket) : p.bytes.length < 2 ^ 16 := by
  cases p with
  | input timestamp ev => cases ev <;> simp [bytes, InputHeader.size, InputEvent.inputType,
      InputEvent.size]
  | feedback fh => simp [bytes, FeedbackHeader.size]
  | retransmitRequest frameId fragmentIndex => simp [bytes, RetransmitRequestPacket.size]
  | timeSync clientSendTimestamp => simp [bytes, TimeSyncPacket.size]

variable {ctx : HostContext} {input : HostInput} {target : ClientState} {m : Mem}

/-- The input branch finds the event the client captured. -/
theorem handleInput_of_holds {timestamp : UInt64} {ev : InputEvent}
    (hm : m.Holds 0 ((inputHeader timestamp ev).bytes ++ ev.bytes)) :
    HostContext.handleInput input (InputHeader.size + InputEvent.size ev.inputType) m =
      [.inject input.sender.ip ev] := by
  obtain ⟨hheader, hev⟩ := Mem.holds_append.mp hm
  rw [InputHeader.length_bytes, Nat.zero_add] at hev
  have hfind : HostContext.inputTypes.find? (fun ty => ev.inputType.code = ty.code &&
      decide (InputEvent.size ev.inputType ≥ InputEvent.size ty)) = some ev.inputType := by
    cases ev <;> rfl
  simp only [HostContext.handleInput, InputHeader.read_of_holds hheader, inputHeader,
    Nat.add_sub_cancel_left, hfind]
  rw [InputEvent.read_of_holds (m := m.shift InputHeader.size) (Mem.holds_shift.mpr hev)]

/-- **Dispatch.** A decrypted client packet goes to its handler. -/
theorem dispatch_of_holds (p : ClientPacket) (hm : m.Holds 0 p.bytes) :
    ctx.dispatch input target p.bytes.length m = p.handle ctx input target := by
  cases p with
  | input timestamp ev =>
    have htype : m 0 = PacketType.input.code := (Mem.holds_cons.mp hm).1
    have hlen : (bytes (.input timestamp ev)).length =
        InputHeader.size + InputEvent.size ev.inputType := by
      simp only [bytes, List.length_append, InputHeader.length_bytes, InputEvent.length_bytes]
    rw [HostContext.dispatch, if_pos ⟨htype, by omega⟩, hlen, handleInput_of_holds hm]
    rfl
  | feedback fh =>
    have htype : m 0 = PacketType.feedback.code := (Mem.holds_cons.mp hm).1
    have hread := FeedbackHeader.read_of_holds hm
    have hlen : (bytes (.feedback fh)).length = FeedbackHeader.size :=
      FeedbackHeader.length_bytes _
    rw [HostContext.dispatch, if_neg (not_branch htype (by decide) _), if_pos ⟨htype, by omega⟩,
      HostContext.handleFeedback, hread]
    rfl
  | retransmitRequest frameId fragmentIndex =>
    have htype : m 0 = PacketType.retransmitRequest.code := (Mem.holds_cons.mp hm).1
    have hread := RetransmitRequestPacket.read_of_holds hm
    have hlen : (bytes (.retransmitRequest frameId fragmentIndex)).length =
        RetransmitRequestPacket.size := RetransmitRequestPacket.length_bytes _
    rw [HostContext.dispatch, if_neg (not_branch htype (by decide) _),
      if_neg (not_branch htype (by decide) _), if_pos ⟨htype, by omega⟩, hread]
    rfl
  | timeSync clientSendTimestamp =>
    have htype : m 0 = PacketType.timeSync.code := (Mem.holds_cons.mp hm).1
    have hread := TimeSyncPacket.read_of_holds hm
    have hlen : (bytes (.timeSync clientSendTimestamp)).length = TimeSyncPacket.size :=
      TimeSyncPacket.length_bytes _
    rw [HostContext.dispatch, if_neg (not_branch htype (by decide) _),
      if_neg (not_branch htype (by decide) _), if_neg (not_branch htype (by decide) _),
      if_pos ⟨htype, by omega⟩, hread]
    rfl

/-- A handler leaves the replay state alone. -/
theorem lastSeqs_handle (p : ClientPacket) :
    (p.handle ctx input target).1.lastSeqs = ctx.lastSeqs := by
  cases p with
  | input timestamp ev => rfl
  | feedback fh => rfl
  | retransmitRequest frameId fragmentIndex =>
    simp only [handle, HostContext.handleRetransmitRequest]
    split
    · rfl
    · split
      · rfl
      · unfold HostContext.push
        split <;> rfl
  | timeSync clientSendTimestamp => rfl

end ClientPacket

end RemotePlay.Host
