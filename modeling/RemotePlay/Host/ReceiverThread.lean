import RemotePlay.Host.HostContext
import RemotePlay.Session.DatagramLoop

/-!
# The host's receiver thread

One pass of the `while (len > 0)` loop of `runHost`'s `receiverThread`. The
other threads may change the context between two passes; `loop` takes what
they do as an argument.
-/

namespace RemotePlay.Host

open Lib Protocol Crypto Session

/-- The thread inside its loop: the context, the datagram, and what it has called so far. -/
structure ReceiverThread where
  ctx : HostContext
  buf : Mem
  len : Nat
  decrypts : List DecryptCall
  effects : List HostEffect

namespace ReceiverThread

def receive (ctx : HostContext) (buf : Mem) (len : Nat) : ReceiverThread := ⟨ctx, buf, len, [], []⟩

/-- The size of `buf` and of `localBuf`. -/
def bufSize : Nat := 2048

/-- The number of inner bytes copied out of a relay packet. -/
def copyLen (t : ReceiverThread) : Nat := min (t.len - RelayHeader.size) bufSize

/-- The datagram of a relay packet for a known session that carries an envelope. -/
def unwrapRelay (t : ReceiverThread) : Option ReceiverThread :=
  let rh := RelayHeader.read t.buf
  if t.len > RelayHeader.size ∧ t.ctx.clients.any (·.sessionId = rh.sessionId) ∧
      t.buf RelayHeader.size = PacketType.secure.code then
    some { t with buf := t.buf.moveDown RelayHeader.size t.copyLen, len := t.copyLen }
  else none

/-- An envelope of the session of `target` whose ciphertext fits the output buffer. -/
def openSecure (t : ReceiverThread) (input : HostInput) (target : ClientState) : ReceiverThread :=
  let sh := SecureHeader.read t.buf
  let t := { t with decrypts := t.decrypts ++ [⟨sh.encryptedSize.toNat, t.len⟩] }
  match decryptEnvelope input.cm target.rxKey t.buf with
  | some plaintext =>
    let (ctx, effects) := t.ctx.receiveDecrypted input target sh (input.stack.load plaintext)
    { t with ctx, effects := t.effects ++ effects }
  | none => t

/-- The datagram goes back to where the candidate packet points. -/
def reflectCandidate (t : ReceiverThread) : ReceiverThread :=
  let cp := CandidatePacket.read t.buf
  { t with effects := t.effects ++ [.sendTo ⟨t.buf.read 0 t.len, ⟨cp.ipChars, cp.port⟩⟩] }

def answerHandshake (t : ReceiverThread) (input : HostInput) : ReceiverThread :=
  let (ctx, effects) := t.ctx.handleHandshake input (HandshakeSecurePacket.read t.buf)
  { t with ctx, effects := t.effects ++ effects }

/-- The body of `while (len > 0)`. -/
def pass (input : HostInput) (t : ReceiverThread) : Pass ReceiverThread :=
  let type := t.buf 0
  if type = PacketType.candidateDiscovery.code ∧ t.len ≥ CandidatePacket.size then
    .leave t.reflectCandidate
  else if type = PacketType.relayData.code ∧ t.len ≥ RelayHeader.size then
    match t.unwrapRelay with
    | some t' => .again t'
    | none => .leave t
  else if type = PacketType.handshakeSecure.code ∧ t.len ≥ HandshakeSecurePacket.size then
    .leave (t.answerHandshake input)
  else if type = PacketType.secure.code ∧ t.len ≥ SecureHeader.size then
    let sh := SecureHeader.read t.buf
    match t.ctx.findSession input.sender sh.sessionId with
    | some target =>
      -- `if (sh.encryptedSize > sizeof(decrypted)) continue;`
      if sh.encryptedSize.toNat > decryptedSize then .again t
      else .leave (t.openSecure input target)
    | none => .leave t
  else .leave t

/-! ## The shape of the loop -/

/-- The envelope of a known session at the front of the datagram. -/
def envelope (input : HostInput) (t : ReceiverThread) : Option Nat :=
  let sh := SecureHeader.read t.buf
  if t.buf 0 = PacketType.secure.code ∧ t.len ≥ SecureHeader.size ∧
      (t.ctx.findSession input.sender sh.sessionId).isSome then
    some sh.encryptedSize.toNat
  else none

/-- The datagram a pass unwraps. -/
def relayed (t : ReceiverThread) : Option ReceiverThread :=
  if t.buf 0 = PacketType.relayData.code ∧ t.len ≥ RelayHeader.size then t.unwrapRelay else none

variable {input : HostInput} {t t' : ReceiverThread}

theorem envelope_eq_some {e : Nat} (h : t.envelope input = some e) :
    t.buf 0 = PacketType.secure.code ∧ t.len ≥ SecureHeader.size ∧
      (∃ target, t.ctx.findSession input.sender (SecureHeader.read t.buf).sessionId =
        some target) ∧ e = (SecureHeader.read t.buf).encryptedSize.toNat := by
  simp only [envelope] at h
  split at h
  · next hc => exact ⟨hc.1, hc.2.1, Option.isSome_iff_exists.mp hc.2.2, (Option.some.inj h).symm⟩
  · cases h

theorem relayed_eq_some (h : t.relayed = some t') :
    t.buf 0 = PacketType.relayData.code ∧ t.len > RelayHeader.size ∧
      t.buf RelayHeader.size = PacketType.secure.code ∧
      t' = { t with
        buf := t.buf.moveDown RelayHeader.size t.copyLen
        len := t.copyLen } ∧ t.unwrapRelay = some t' := by
  simp only [relayed] at h
  split at h
  · next hc =>
    have hun := h
    simp only [unwrapRelay] at h
    split at h
    · next hr => exact ⟨hc.1, hr.1, hr.2.2, (Option.some.inj h).symm, hun⟩
    · cases h
  · cases h

theorem copyLen_pos (h : t.len > RelayHeader.size) : 0 < t.copyLen := by
  simp only [copyLen, bufSize]
  omega

theorem copyLen_lt (h : t.len > RelayHeader.size) : t.copyLen < t.len := by
  simp only [copyLen, bufSize, RelayHeader.size] at h ⊢
  omega

theorem relayed_of_secure (h : t.buf 0 = PacketType.secure.code) : t.relayed = none :=
  if_neg (not_branch h (by decide) _)

/-- What is unwrapped is an envelope. -/
theorem secure_of_relayed (h : t.relayed = some t') : t'.buf 0 = PacketType.secure.code := by
  obtain ⟨-, hlen, htype, rfl, -⟩ := relayed_eq_some h
  show (if 0 < t.copyLen then _ else _) = _
  rw [if_pos (copyLen_pos hlen)]
  exact htype

/-- A pass over an envelope of a known session. -/
theorem pass_of_envelope {e : Nat} (h : t.envelope input = some e) :
    ∃ target, t.ctx.findSession input.sender (SecureHeader.read t.buf).sessionId = some target ∧
      t.pass input =
        if e > decryptedSize then .again t else .leave (t.openSecure input target) := by
  obtain ⟨htype, hlen, ⟨target, htarget⟩, rfl⟩ := envelope_eq_some h
  refine ⟨target, htarget, ?_⟩
  unfold pass
  dsimp only
  rw [if_neg (not_branch htype (by decide) _), if_neg (not_branch htype (by decide) _),
    if_neg (not_branch htype (by decide) _), if_pos ⟨htype, hlen⟩, htarget]

/-- A pass over a relay packet that it unwraps. -/
theorem pass_of_relayed (h : t.relayed = some t') : t.pass input = .again t' := by
  obtain ⟨htype, hlen, -, -, hun⟩ := relayed_eq_some h
  unfold pass
  dsimp only
  rw [if_neg (not_branch htype (by decide) _), if_pos ⟨htype, Nat.le_of_lt hlen⟩, hun]

/-- Any other pass leaves the loop without a call of `Decrypt`. -/
theorem pass_of_other (henv : t.envelope input = none) (hrel : t.relayed = none) :
    ∃ t', t.pass input = .leave t' ∧ t'.decrypts = t.decrypts := by
  simp only [pass]
  split
  · exact ⟨_, rfl, rfl⟩
  split
  · next hc =>
    simp only [relayed, if_pos hc] at hrel
    rw [hrel]
    exact ⟨_, rfl, rfl⟩
  split
  · exact ⟨_, rfl, rfl⟩
  split
  · next hc =>
    rcases hfind : t.ctx.findSession input.sender (SecureHeader.read t.buf).sessionId with
      _ | target
    · exact ⟨_, rfl, rfl⟩
    · simp only [envelope, hc.1, hc.2, hfind, Option.isSome_some, and_self, if_true] at henv
      cases henv
  · exact ⟨_, rfl, rfl⟩

theorem decrypts_openSecure (t : ReceiverThread) (input : HostInput) (target : ClientState) :
    (t.openSecure input target).decrypts =
      t.decrypts ++ [⟨(SecureHeader.read t.buf).encryptedSize.toNat, t.len⟩] := by
  unfold openSecure
  dsimp only
  split <;> rfl

/-- Other threads have run. -/
def meanwhile (world : HostContext → HostContext) (t : ReceiverThread) : ReceiverThread :=
  { t with ctx := world t.ctx }

/-- The host's loop is a datagram loop, whatever the other threads do before each pass. -/
def loop (input : HostInput) (world : Nat → HostContext → HostContext) :
    DatagramLoop ReceiverThread where
  pass k t := (t.meanwhile (world k)).pass input
  len := len
  decrypts := decrypts
  IsSecure t := t.buf 0 = PacketType.secure.code
  encryptedSize t := (SecureHeader.read t.buf).encryptedSize.toNat
  envelope k t := (t.meanwhile (world k)).envelope input
  unwrap k t := (t.meanwhile (world k)).relayed
  secure h := by
    obtain ⟨htype, -, -, heq⟩ := envelope_eq_some h
    exact ⟨htype, heq.symm⟩
  not_relay h := relayed_of_secure h
  oversized h he := by
    obtain ⟨htype, -, -, heq⟩ := envelope_eq_some h
    obtain ⟨target, -, hpass⟩ := pass_of_envelope h
    exact ⟨_, by rw [hpass, if_pos he], htype, heq.symm, rfl, rfl⟩
  opened h he := by
    obtain ⟨-, -, -, heq⟩ := envelope_eq_some h
    obtain ⟨target, -, hpass⟩ := pass_of_envelope h
    refine ⟨_, by rw [hpass, if_neg (Nat.not_lt_of_le he)], ?_⟩
    rw [decrypts_openSecure, heq]
    rfl
  unwrapped _ h := by
    obtain ⟨-, hlen, -, heq, -⟩ := relayed_eq_some h
    refine ⟨pass_of_relayed h, secure_of_relayed h, ?_⟩
    rw [heq]
    exact ⟨rfl, copyLen_pos hlen, copyLen_lt hlen⟩
  other henv hrel := pass_of_other henv hrel

end ReceiverThread

end RemotePlay.Host
