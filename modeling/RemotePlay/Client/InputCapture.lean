import RemotePlay.Host.Dispatch
import RemotePlay.Host.Roaming

/-!
# Captured input

`InputCapture` sends one header for all of its events, with the subtype in it,
and the event's structure behind. The host goes by the subtype, and checks that
what follows is as long as the structure. `input_survives` follows a captured
event from its bytes to the injector.
-/

namespace RemotePlay.Client

open Lib Protocol Crypto Session Host

namespace InputCapture

/-- The header that an event is sent with; the timestamp is not set yet. -/
def header (ev : InputEvent) : InputHeader := ⟨PacketType.input.code, ev.inputType.code, 0⟩

/-- What `SendPacket` passes to the callback. -/
def sendPacket (now : UInt64) (header : InputHeader) (payload : InputEvent) : List UInt8 :=
  { header with timestamp := now }.bytes ++ payload.bytes

/-- An event of each kind is sent in the same way. -/
def captured (now : UInt64) (ev : InputEvent) : List UInt8 := sendPacket now (header ev) ev

theorem captured_eq_bytes (now : UInt64) (ev : InputEvent) :
    captured now ev = (ClientPacket.input now ev).bytes := rfl

theorem length_captured (now : UInt64) (ev : InputEvent) :
    (captured now ev).length = InputHeader.size + InputEvent.size ev.inputType := by
  simp only [captured, sendPacket, List.length_append, InputHeader.length_bytes,
    InputEvent.length_bytes]

end InputCapture

/-- The calls of the injector's functions, each for the sender and with its event. -/
def injectorCalls (effects : List HostEffect) : List (List UInt8 × InputEvent) :=
  effects.filterMap fun
    | .inject clientIp ev => some (clientIp, ev)
    | _ => none

/-! ## What is not injected -/

section
variable {ctx : HostContext} {input : HostInput} {target : ClientState} {m : Mem} {n : Nat}

theorem injectorCalls_handleFeedback :
    injectorCalls (HostContext.handleFeedback target m) = [] := by
  unfold HostContext.handleFeedback
  dsimp only
  split
  · rfl
  · rfl

theorem injectorCalls_handleTimeSync (tsp : TimeSyncPacket) :
    injectorCalls (ctx.handleTimeSync input target tsp).2 = [] := by
  unfold HostContext.handleTimeSync
  dsimp only
  cases sealEnvelope input.cm input.stackHeader target.sessionId target.sendSequenceNumber
    target.txKey _ with
  | none => rfl
  | some datagram => rfl

/-- Only the input branch injects. -/
theorem injectorCalls_dispatch (hinput : m 0 = PacketType.input.code → InputHeader.size ≤ n →
      injectorCalls (HostContext.handleInput input n m) = []) :
    injectorCalls (ctx.dispatch input target n m).2 = [] := by
  unfold HostContext.dispatch
  split
  · next h => exact hinput h.1 h.2
  split
  · exact injectorCalls_handleFeedback
  split
  · rfl
  split
  · exact injectorCalls_handleTimeSync _
  · rfl

theorem inputType_of_code {ty ty' : InputType} (h : ty.code = ty'.code) : ty = ty' := by
  cases ty <;> cases ty' <;> first | rfl | exact absurd h (by decide)

/-- A payload that is shorter than the structure of its subtype. -/
theorem handleInput_of_short {h : InputHeader} {ty : InputType} (hm : m.Holds 0 h.bytes)
    (hty : h.inputType = ty.code) (hn : n < InputHeader.size + InputEvent.size ty)
    (hheader : InputHeader.size ≤ n) : HostContext.handleInput input n m = [] := by
  have hfind : HostContext.inputTypes.find? (fun ty' => h.inputType = ty'.code &&
      decide (n - InputHeader.size ≥ InputEvent.size ty')) = none := by
    refine List.find?_eq_none.mpr fun ty' _ hmatch => ?_
    obtain ⟨hcode, hsize⟩ := Bool.and_eq_true_iff.mp hmatch
    obtain rfl := inputType_of_code (hty.symm.trans (of_decide_eq_true hcode))
    have hsize := of_decide_eq_true hsize
    omega
  simp only [HostContext.handleInput, InputHeader.read_of_holds hm, hfind]

/-- A packet that is cut short is not injected. -/
theorem injectorCalls_of_prefix {now : UInt64} {ev : InputEvent} {packet : List UInt8}
    (hpacket : packet <+: InputCapture.captured now ev)
    (hshort : packet ≠ InputCapture.captured now ev) (hm : m.Holds 0 packet) :
    injectorCalls (ctx.dispatch input target packet.length m).2 = [] := by
  have hlen : packet.length < InputHeader.size + InputEvent.size ev.inputType := by
    rw [← InputCapture.length_captured now ev]
    exact lt_of_le_of_ne hpacket.length_le fun h => hshort (hpacket.eq_of_length h)
  refine injectorCalls_dispatch fun _ hheader => ?_
  -- The header has come through whole.
  obtain ⟨rest, rfl⟩ : (ClientPacket.inputHeader now ev).bytes <+: packet := by
    refine List.prefix_of_prefix_length_le (List.prefix_append _ _) hpacket ?_
    rw [InputHeader.length_bytes]
    exact hheader
  rw [handleInput_of_short (Mem.holds_append.mp hm).1 rfl hlen hheader]
  rfl

end

/-! ## From the capture to the injector -/

/-- The header of a sealed datagram. -/
theorem header_of_sealEnvelope {cm : CryptoManager} {stack : SecureHeader} {sid seq : UInt64}
    {key : Key} {packet datagram : List UInt8}
    (h : sealEnvelope cm stack sid seq key packet = some datagram) :
    ∃ (sh : SecureHeader) (ciphertext : List UInt8), datagram = sh.bytes ++ ciphertext ∧
      sh.type = PacketType.secure.code ∧ sh.sessionId = sid ∧ sh.sequenceNumber = seq ∧
      sh.encryptedSize = UInt16.ofNat packet.length := by
  unfold sealEnvelope at h
  dsimp only at h
  split at h
  · next ciphertext tag _ =>
    exact ⟨_, ciphertext, (Option.some.inj h).symm, rfl, rfl, rfl, rfl⟩
  · cases h

section
variable {cm : CryptoManager} {stack : SecureHeader} {sid seq : UInt64} {key : Key}
  {packet datagram : List UInt8} {ctx : HostContext} {input : HostInput} {stale : Mem} {o : Opening}

theorem header_of_opened {sh : SecureHeader} {ciphertext : List UInt8}
    (htype : sh.type = PacketType.secure.code)
    (hopen : (ReceiverThread.receive ctx (stale.load (sh.bytes ++ ciphertext))
      (sh.bytes ++ ciphertext).length).opened input = some o) : o.header = sh := by
  have hholds := (Mem.holds_append.mp (Mem.holds_load stale (sh.bytes ++ ciphertext))).1
  have hbare : (ReceiverThread.receive ctx (stale.load (sh.bytes ++ ciphertext))
      (sh.bytes ++ ciphertext).length).relayed = none :=
    ReceiverThread.relayed_of_secure ((Mem.holds_cons.mp hholds).1.trans htype)
  unfold ReceiverThread.opened at hopen
  rw [hbare] at hopen
  obtain ⟨-, -, -, hread, -⟩ := ReceiverThread.opening_eq_some hopen
  exact hread.trans (SecureHeader.read_of_holds hholds)

/-- The host dispatches what opens, unless its number is an old one. -/
theorem effects_served (hseal : sealEnvelope cm stack sid seq key packet = some datagram)
    (hopen : (ReceiverThread.receive ctx (stale.load datagram) datagram.length).opened input =
      some o) (hsize : packet.length < 2 ^ 16) :
    ∃ ctx',
      ((ReceiverThread.receive ctx (stale.load datagram) datagram.length).served input).effects =
        if ctx.lastSeqs sid ≤ seq then
          (HostContext.dispatch ctx' input (o.target.touch input) packet.length
            (input.stack.load o.plaintext)).2
        else [] := by
  obtain ⟨sh, ciphertext, rfl, htype, rfl, rfl, hencrypted⟩ := header_of_sealEnvelope hseal
  have hlen : sh.encryptedSize.toNat = packet.length := by
    rw [hencrypted, UInt16.toNat_ofNat', Nat.mod_eq_of_lt hsize]
  refine ⟨((ctx.updateSession input.sender sh.sessionId (·.touch input)).replayCheck sh).2, ?_⟩
  have hfresh : ((ctx.updateSession input.sender sh.sessionId (·.touch input)).replayCheck sh).1 =
      true ↔ ctx.lastSeqs sh.sessionId ≤ sh.sequenceNumber := HostContext.replayCheck_fresh_iff
  rw [(ReceiverThread.served_of_opened hopen).2]
  unfold ReceiverThread.receiveOpened ReceiverThread.receive HostContext.receiveDecrypted
  simp only [header_of_opened htype hopen, hlen, List.nil_append, hfresh]
  split
  · rfl
  · rfl

/-- **Input survives the wire.** A captured event that the host decrypts to what was sealed is
injected once, by the function for it, and a shorter prefix of it is not. -/
theorem input_survives {now : UInt64} {ev : InputEvent}
    (hpacket : packet <+: InputCapture.captured now ev)
    (hseal : sealEnvelope cm stack sid seq key packet = some datagram)
    (hopen : (ReceiverThread.receive ctx (stale.load datagram) datagram.length).opened input =
      some o) (hsame : o.plaintext = packet) :
    (packet = InputCapture.captured now ev → ctx.lastSeqs sid ≤ seq →
      ((ReceiverThread.receive ctx (stale.load datagram) datagram.length).served input).effects =
        [.inject input.sender.ip ev]) ∧
    (packet ≠ InputCapture.captured now ev →
      injectorCalls ((ReceiverThread.receive ctx (stale.load datagram)
        datagram.length).served input).effects = []) := by
  have hsize : packet.length < 2 ^ 16 :=
    Nat.lt_of_le_of_lt hpacket.length_le (ClientPacket.length_bytes_lt (.input now ev))
  obtain ⟨ctx', heffects⟩ := effects_served hseal hopen hsize
  have hholds : (input.stack.load o.plaintext).Holds 0 packet := by
    rw [hsame]
    exact Mem.holds_load input.stack packet
  rw [heffects]
  constructor
  · rintro rfl hfresh
    rw [if_pos hfresh, InputCapture.captured_eq_bytes, ClientPacket.dispatch_of_holds _ hholds]
    rfl
  · intro hshort
    split
    · exact injectorCalls_of_prefix hpacket hshort hholds
    · rfl

end

/-- The key A is pressed. -/
def keyPacket : List UInt8 := InputCapture.captured 1000 (.keyboard 0x41 1)

/-- The first packet of session 7, in the build without libsodium. -/
def keyDatagram : List UInt8 := (sealEnvelope mock (staleHeader 0) 7 0 [3] keyPacket).getD []

theorem key_survives :
    ((ReceiverThread.receive ReceiverThread.oneSession (Mem.load (fun _ => 0) keyDatagram)
      keyDatagram.length).served ReceiverThread.atOneSecond).effects =
        [.inject [0x31] (.keyboard 0x41 1)] := by
  have hseal : sealEnvelope mock (staleHeader 0) 7 0 [3] keyPacket = some keyDatagram := rfl
  obtain ⟨o, hopen, hsame⟩ : ∃ o, (ReceiverThread.receive ReceiverThread.oneSession
      (Mem.load (fun _ => 0) keyDatagram) keyDatagram.length).opened ReceiverThread.atOneSecond =
        some o ∧ o.plaintext = keyPacket := ⟨_, rfl, by decide +kernel⟩
  exact (input_survives (List.prefix_refl keyPacket) hseal hopen hsame).1 rfl (by decide)

end RemotePlay.Client
