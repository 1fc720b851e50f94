import RemotePlay.Host.Opening

/-!
# Session roaming

An envelope that decrypts under a session's key proves who sent it, and the
receiver thread has code that moves the session to the address it came from.
The session is looked up by that address as well, so the code is never reached
for a new one.
-/

namespace RemotePlay.Host

open Lib Protocol Crypto Session

/-- An envelope for session `c`: it names the session and decrypts under its key. -/
structure EnvelopeFor (cm : CryptoManager) (c : ClientState) (sh : SecureHeader)
    (ciphertext plaintext : List UInt8) : Prop where
  type : sh.type = PacketType.secure.code
  sessionId : sh.sessionId = c.sessionId
  size : sh.encryptedSize.toNat = ciphertext.length
  decrypts : cm.decrypt ciphertext sh.authTag (associatedData sh) sh.sequenceNumber c.rxKey =
    some plaintext

/-- How an envelope reaches the host. -/
inductive Carrier where
  | bare
  | relay (rh : RelayHeader)

namespace Carrier

/-- What stands in front of the envelope. -/
def bytes : Carrier → List UInt8
  | bare => []
  | relay rh => rh.bytes

/-- A relay packet is one for the session. -/
def For (c : ClientState) : Carrier → Prop
  | bare => True
  | relay rh => rh.type = PacketType.relayData.code ∧ rh.sessionId = c.sessionId

end Carrier

/-- The same input with another sender. -/
def HostInput.sentFrom (input : HostInput) (source : Endpoint) : HostInput :=
  { input with sender := source }

namespace ReceiverThread

/-- The receiver thread with the datagram in its buffer. -/
def arrival (ctx : HostContext) (carrier : Carrier) (sh : SecureHeader) (ciphertext : List UInt8)
    (stale : Mem) : ReceiverThread :=
  receive ctx (stale.load (carrier.bytes ++ (sh.bytes ++ ciphertext)))
    (carrier.bytes.length + (SecureHeader.size + ciphertext.length))

/-- The envelope is processed from `source` as the bare envelope is from the session's recorded
endpoint, and a bare one moves the session to `source`. -/
def Follows (ctx : HostContext) (input : HostInput) (c : ClientState) (carrier : Carrier)
    (source : Endpoint) (sh : SecureHeader) (ciphertext : List UInt8) (stale : Mem) : Prop :=
  let recorded := (arrival ctx .bare sh ciphertext stale).served (input.sentFrom c.endpoint)
  let moved := (arrival ctx carrier sh ciphertext stale).served (input.sentFrom source)
  moved.decrypts = recorded.decrypts ∧ moved.effects = recorded.effects ∧
    moved.ctx = match carrier with
      | .bare => recorded.ctx.updateSession c.endpoint c.sessionId ({ · with endpoint := source })
      | .relay _ => recorded.ctx

/-! ## The look-up -/

section
variable {ctx : HostContext} {c : ClientState}

theorem isSession_iff {sender : Endpoint} {sessionId : UInt64} :
    c.isSession sender sessionId = true ↔ c.endpoint = sender ∧ c.sessionId = sessionId := by
  unfold ClientState.isSession
  rw [Bool.and_eq_true, decide_eq_true_eq, decide_eq_true_eq]

/-- The only session with an id is found at its endpoint, -/
theorem findSession_recorded (hc : c ∈ ctx.clients)
    (hid : ∀ d ∈ ctx.clients, d.sessionId = c.sessionId → d = c) :
    ctx.findSession c.endpoint c.sessionId = some c := by
  have hsome : (ctx.findSession c.endpoint c.sessionId).isSome = true := by
    unfold HostContext.findSession
    rw [List.find?_isSome]
    exact ⟨c, hc, isSession_iff.mpr ⟨rfl, rfl⟩⟩
  obtain ⟨d, hd⟩ := Option.isSome_iff_exists.mp hsome
  have hsession := isSession_iff.mp (List.find?_some hd)
  rw [hd, hid d (List.mem_of_find?_eq_some hd) hsession.2]

/-- and nowhere else. -/
theorem findSession_elsewhere (hid : ∀ d ∈ ctx.clients, d.sessionId = c.sessionId → d = c)
    {source : Endpoint} (hsource : source ≠ c.endpoint) :
    ctx.findSession source c.sessionId = none := by
  unfold HostContext.findSession
  rw [List.find?_eq_none]
  intro d hd hsession
  obtain ⟨hendpoint, hsid⟩ := isSession_iff.mp hsession
  rw [hid d hd hsid] at hendpoint
  exact hsource hendpoint.symm

end

/-! ## The envelope in the buffer -/

section
variable {ctx : HostContext} {input : HostInput} {c : ClientState} {sh : SecureHeader}
  {ciphertext plaintext : List UInt8} {t : ReceiverThread}

theorem buf_zero_of_holds (h : EnvelopeFor input.cm c sh ciphertext plaintext)
    (hm : t.buf.Holds 0 (sh.bytes ++ ciphertext)) :
    t.buf 0 = PacketType.secure.code ∧ SecureHeader.read t.buf = sh := by
  have hsh := (Mem.holds_append.mp hm).1
  have htype := hsh
  unfold SecureHeader.bytes at htype
  exact ⟨(Mem.holds_cons.mp htype).1.trans h.type, SecureHeader.read_of_holds hsh⟩

theorem opening_of_holds (h : EnvelopeFor input.cm c sh ciphertext plaintext)
    (hm : t.buf.Holds 0 (sh.bytes ++ ciphertext))
    (hlen : t.len = SecureHeader.size + ciphertext.length) (hfit : t.len ≤ bufSize)
    (hfind : t.ctx.findSession input.sender c.sessionId = some c) :
    t.opening input = some ⟨sh, c, plaintext⟩ := by
  obtain ⟨htype, hread⟩ := buf_zero_of_holds h hm
  have hplain := decryptEnvelope_of_holds input.cm c.rxKey hm h.size
  have hsize := h.size
  unfold opening
  dsimp only
  rw [hread, if_pos ⟨htype, by omega, by
    simp only [bufSize, decryptedSize] at hfit ⊢
    omega⟩, h.sessionId, hfind]
  dsimp only
  rw [hplain, h.decrypts, Option.map_some]

/-- What the relay packet of a known session is unwrapped to. -/
theorem relayed_arrival (h : EnvelopeFor input.cm c sh ciphertext plaintext) (hc : c ∈ ctx.clients)
    {rh : RelayHeader} (hfor : (Carrier.relay rh).For c) (stale : Mem)
    (hfit : RelayHeader.size + (SecureHeader.size + ciphertext.length) ≤ bufSize) :
    ∃ t', (arrival ctx (.relay rh) sh ciphertext stale).relayed = some t' ∧
      t'.buf.Holds 0 (sh.bytes ++ ciphertext) ∧
      t'.len = SecureHeader.size + ciphertext.length ∧ t'.ctx = ctx ∧ t'.effects = [] ∧
      t'.decrypts = [] := by
  have hm := Mem.holds_append.mp
    (Mem.holds_load stale ((Carrier.relay rh).bytes ++ (sh.bytes ++ ciphertext)))
  obtain ⟨hrelay, henv⟩ := hm
  change Mem.Holds _ 0 rh.bytes at hrelay
  change Mem.Holds _ (0 + rh.bytes.length) _ at henv
  rw [RelayHeader.length_bytes, Nat.zero_add] at henv
  have hread := RelayHeader.read_of_holds hrelay
  have hzero := hrelay
  unfold RelayHeader.bytes at hzero
  have hinner := (Mem.holds_append.mp henv).1
  unfold SecureHeader.bytes at hinner
  have hlen : (arrival ctx (.relay rh) sh ciphertext stale).len =
      RelayHeader.size + (SecureHeader.size + ciphertext.length) := by
    show rh.bytes.length + _ = _
    rw [RelayHeader.length_bytes]
  have hcopy : (arrival ctx (.relay rh) sh ciphertext stale).copyLen =
      SecureHeader.size + ciphertext.length := by
    unfold copyLen
    rw [hlen]
    omega
  have hpos : 0 < SecureHeader.size := by decide
  refine ⟨{ arrival ctx (.relay rh) sh ciphertext stale with
    buf := (arrival ctx (.relay rh) sh ciphertext stale).buf.moveDown RelayHeader.size
      (arrival ctx (.relay rh) sh ciphertext stale).copyLen
    len := (arrival ctx (.relay rh) sh ciphertext stale).copyLen }, ?_,
    Mem.holds_moveDown henv (Nat.le_of_eq ?_), hcopy, rfl, rfl, rfl⟩
  · unfold relayed unwrapRelay
    rw [if_pos ⟨(Mem.holds_cons.mp hzero).1.trans hfor.1, by omega⟩]
    refine if_pos ⟨by omega, ?_, (Mem.holds_cons.mp hinner).1.trans h.type⟩
    rw [List.any_eq_true]
    refine ⟨c, hc, decide_eq_true ?_⟩
    rw [← hfor.2]
    exact congrArg RelayHeader.sessionId hread.symm
  · rw [hcopy, List.length_append, SecureHeader.length_bytes]

variable (input)

/-- An envelope from the recorded endpoint is dispatched to the session, however it arrives. -/
theorem served_recorded (h : EnvelopeFor input.cm c sh ciphertext plaintext) (hc : c ∈ ctx.clients)
    (hid : ∀ d ∈ ctx.clients, d.sessionId = c.sessionId → d = c) {carrier : Carrier}
    (hfor : carrier.For c) (stale : Mem)
    (hfit : carrier.bytes.length + (SecureHeader.size + ciphertext.length) ≤ bufSize)
    (hsender : input.sender = c.endpoint) :
    let received := ctx.receiveDecrypted input c sh (input.stack.load plaintext)
    ((arrival ctx carrier sh ciphertext stale).served input).ctx = received.1 ∧
      ((arrival ctx carrier sh ciphertext stale).served input).effects = received.2 ∧
      ((arrival ctx carrier sh ciphertext stale).served input).decrypts =
        [⟨ciphertext.length, SecureHeader.size + ciphertext.length⟩] := by
  have hfind := findSession_recorded hc hid
  rw [← hsender] at hfind
  cases carrier with
  | bare =>
    have hm := Mem.holds_load stale (sh.bytes ++ ciphertext)
    change 0 + (SecureHeader.size + ciphertext.length) ≤ bufSize at hfit
    have hopening : (arrival ctx .bare sh ciphertext stale).opening input =
        some ⟨sh, c, plaintext⟩ :=
      opening_of_holds h hm (Nat.zero_add _) hfit hfind
    rw [served_of_leave (by
      show 0 < 0 + (SecureHeader.size + ciphertext.length)
      have hpos : 0 < SecureHeader.size := by decide
      omega) (pass_of_opening hopening)]
    refine ⟨rfl, List.nil_append _, ?_⟩
    show [] ++ [DecryptCall.mk sh.encryptedSize.toNat _] = _
    rw [h.size]
    exact congrArg (fun n => [DecryptCall.mk ciphertext.length n]) (Nat.zero_add _)
  | relay rh =>
    change rh.bytes.length + _ ≤ _ at hfit
    rw [RelayHeader.length_bytes] at hfit
    obtain ⟨t', hrel, hm, hlen, hctx, heffects, hdecrypts⟩ := relayed_arrival h hc hfor stale hfit
    have hopening : t'.opening input = some ⟨sh, c, plaintext⟩ :=
      opening_of_holds h hm hlen (by omega) (by rw [hctx]; exact hfind)
    rw [served_of_relayed hrel, pass_of_opening hopening]
    unfold receiveOpened Pass.state
    dsimp only
    rw [hctx, heffects, hdecrypts, hlen, h.size]
    exact ⟨rfl, List.nil_append _, rfl⟩

/-- From any other address it is not even decrypted. -/
theorem served_elsewhere (h : EnvelopeFor input.cm c sh ciphertext plaintext)
    (hc : c ∈ ctx.clients) (hid : ∀ d ∈ ctx.clients, d.sessionId = c.sessionId → d = c)
    {carrier : Carrier} (hfor : carrier.For c) (stale : Mem)
    (hfit : carrier.bytes.length + (SecureHeader.size + ciphertext.length) ≤ bufSize)
    (hsender : input.sender ≠ c.endpoint) :
    ((arrival ctx carrier sh ciphertext stale).served input).decrypts = [] := by
  have hfind := findSession_elsewhere hid hsender
  rw [← h.sessionId] at hfind
  cases carrier with
  | bare =>
    obtain ⟨htype, hread⟩ := buf_zero_of_holds (t := arrival ctx .bare sh ciphertext stale) h
      (Mem.holds_load stale (sh.bytes ++ ciphertext))
    rw [served_of_leave (by
      show 0 < 0 + (SecureHeader.size + ciphertext.length)
      have hpos : 0 < SecureHeader.size := by decide
      omega) (pass_of_unknown htype (by rw [hread]; exact hfind))]
    rfl
  | relay rh =>
    change rh.bytes.length + _ ≤ _ at hfit
    rw [RelayHeader.length_bytes] at hfit
    obtain ⟨t', hrel, hm, -, hctx, -, hdecrypts⟩ := relayed_arrival h hc hfor stale hfit
    obtain ⟨htype, hread⟩ := buf_zero_of_holds h hm
    rw [served_of_relayed hrel, pass_of_unknown htype (by rw [hread, hctx]; exact hfind)]
    exact hdecrypts

end

section
variable {ctx : HostContext} {input : HostInput} {c : ClientState} {carrier : Carrier}
  {source : Endpoint} {sh : SecureHeader} {ciphertext plaintext : List UInt8}

theorem bare_fits (hfit : carrier.bytes.length + (SecureHeader.size + ciphertext.length) ≤ bufSize) :
    Carrier.bare.bytes.length + (SecureHeader.size + ciphertext.length) ≤ bufSize :=
  Nat.le_trans (Nat.add_le_add_right (Nat.zero_le _) _) hfit

theorem bare_for : Carrier.bare.For c := trivial

/-- The recorded endpoint's envelope is decrypted, the other one is not. -/
theorem not_follows_of_ne (h : EnvelopeFor input.cm c sh ciphertext plaintext)
    (hc : c ∈ ctx.clients) (hid : ∀ d ∈ ctx.clients, d.sessionId = c.sessionId → d = c)
    (hfor : carrier.For c)
    (hfit : carrier.bytes.length + (SecureHeader.size + ciphertext.length) ≤ bufSize)
    (hsource : source ≠ c.endpoint) (stale : Mem) :
    ¬ Follows ctx input c carrier source sh ciphertext stale := by
  rintro ⟨hsame, -, -⟩
  obtain ⟨-, -, hdecrypts⟩ := served_recorded (input.sentFrom c.endpoint) h hc hid bare_for stale
    (bare_fits hfit) rfl
  rw [hdecrypts, served_elsewhere (input.sentFrom source) h hc hid hfor stale hfit hsource] at hsame
  cases hsame

end

/-- **A session follows its envelopes** to the address they come from iff that is the endpoint it
has already. -/
theorem follows_iff (ctx : HostContext) (input : HostInput) (c : ClientState) (carrier : Carrier)
    (source : Endpoint) (sh : SecureHeader) (ciphertext plaintext : List UInt8) (stale : Mem)
    (hc : c ∈ ctx.clients) (hid : ∀ d ∈ ctx.clients, d.sessionId = c.sessionId → d = c)
    (h : EnvelopeFor input.cm c sh ciphertext plaintext) (hfor : carrier.For c)
    (hfit : carrier.bytes.length + (SecureHeader.size + ciphertext.length) ≤ bufSize) :
    Follows ctx input c carrier source sh ciphertext stale ↔ source = c.endpoint := by
  constructor
  · intro hfollows
    by_contra hsource
    exact not_follows_of_ne h hc hid hfor hfit hsource stale hfollows
  · intro hsource
    subst hsource
    obtain ⟨hctx, heffects, hdecrypts⟩ := served_recorded (input.sentFrom c.endpoint) h hc hid
      bare_for stale (bare_fits hfit) rfl
    obtain ⟨hctx', heffects', hdecrypts'⟩ := served_recorded (input.sentFrom c.endpoint) h hc hid
      hfor stale hfit rfl
    unfold Follows
    dsimp only
    rw [hctx, heffects, hdecrypts]
    refine ⟨hdecrypts', heffects', ?_⟩
    rw [hctx']
    cases carrier with
    | relay rh => rfl
    | bare =>
      refine congrArg (fun clients => HostContext.mk clients _ _ _ _ _)
        (updateFirst_eq_self _ fun d _ hd => ?_).symm
      rw [← (isSession_iff.mp hd).1]

/-- Session 7, of a client at `1:6000`, under one-byte keys. -/
def session7 : ClientState :=
  { ClientState.new ⟨[0x31], 6000⟩ [] 0 with rxKey := [3], txKey := [4], sessionId := 7 }

def oneSession : HostContext := { HostContext.init with clients := [session7] }

/-- The build without libsodium, one second later. -/
def atOneSecond : HostInput := ⟨mock, ⟨[0x31], 6000⟩, 1000000, 1000000000, fun _ => 0,
  staleHeader 0⟩

/-- The header of the envelope that carries `[0xFF]`, a packet of no known type. -/
def header7 : SecureHeader :=
  ⟨PacketType.secure.code, 7, 0, 1, Mock.tag [0xFF] 0 [3]⟩

theorem envelopeFor_session7 : EnvelopeFor mock session7 header7 [0xFF] [0xFF] where
  type := rfl
  sessionId := rfl
  size := rfl
  decrypts := by decide

theorem unique_session7 : ∀ d ∈ oneSession.clients, d.sessionId = session7.sessionId →
    d = session7 := by
  intro d hd _
  exact List.mem_singleton.mp hd

/-- A relay packet for session 7. -/
def relay7 : Carrier := .relay ⟨PacketType.relayData.code, 7, Vector.replicate 16 0, 36⟩

theorem relay7_for : relay7.For session7 := ⟨rfl, rfl⟩

theorem follows_iff_relay7 :
    Follows oneSession atOneSecond session7 relay7 ⟨[0x31], 6000⟩ header7 [0xFF] (fun _ => 0) :=
  (follows_iff oneSession atOneSecond session7 relay7 ⟨[0x31], 6000⟩ header7 [0xFF] [0xFF]
    (fun _ => 0) (List.mem_singleton.mpr rfl) unique_session7 envelopeFor_session7 relay7_for
    (by decide)).mpr rfl

/-- The client's address changes, or a relay forwards for it: the envelope is ignored. -/
theorem moved_session_not_followed :
    EnvelopeFor mock session7 header7 [0xFF] [0xFF] ∧
    ¬ Follows oneSession atOneSecond session7 .bare ⟨[0x32], 6000⟩ header7 [0xFF] (fun _ => 0) ∧
    ¬ Follows oneSession atOneSecond session7 relay7 ⟨[0x32], 6000⟩ header7 [0xFF] (fun _ => 0) :=
  ⟨envelopeFor_session7,
    not_follows_of_ne envelopeFor_session7 (List.mem_singleton.mpr rfl) unique_session7 bare_for
      (by decide) (by decide) _,
    not_follows_of_ne envelopeFor_session7 (List.mem_singleton.mpr rfl) unique_session7 relay7_for
      (by decide) (by decide) _⟩

end ReceiverThread

end RemotePlay.Host
