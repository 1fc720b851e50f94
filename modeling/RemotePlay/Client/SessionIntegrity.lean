import RemotePlay.Client.NetThread

/-!
# What a stray datagram can do to the session

Of all datagrams that do not pass `Decrypt`, only an approved handshake
response writes session state, and it does so at any time: nothing in its
branch looks at `handshakeApproved` or at where the response comes from.
-/

namespace RemotePlay.Client

open Lib Protocol Crypto Session

/-- The session, its keys, the host endpoint, the replay window and the frames are the same. -/
structure Undisturbed (c c' : ClientSession) : Prop where
  sessionId : c'.sessionId = c.sessionId
  rxKey : c'.rxKey = c.rxKey
  txKey : c'.txKey = c.txKey
  currentHostIp : c'.currentHostIp = c.currentHostIp
  currentHostPort : c'.currentHostPort = c.currentHostPort
  receiver : c'.receiver = c.receiver

theorem Undisturbed.refl (c : ClientSession) : Undisturbed c c := ⟨rfl, rfl, rfl, rfl, rfl, rfl⟩

/-- Adopting the response leaves what is installed as it is: it derives the installed keys, and if
that succeeds it names the session and comes from the host's endpoint. -/
def ClientSession.Reinstalls (c : ClientSession) (input : NetInput)
    (hrp : HandshakeSecureResponsePacket) : Prop :=
  (c.derive input.cm hrp.hostPublicKey.toList).2.1 = c.rxKey ∧
    (c.derive input.cm hrp.hostPublicKey.toList).2.2 = c.txKey ∧
    ((c.derive input.cm hrp.hostPublicKey.toList).1 = true → hrp.sessionId = c.sessionId ∧
      input.sender.ip = c.currentHostIp ∧ input.sender.port = c.currentHostPort)

theorem undisturbed_adopt_iff (c : ClientSession) (derived : Bool × Key × Key) (sessionId : UInt64)
    (sender : Endpoint) :
    Undisturbed c (c.adopt derived sessionId sender) ↔
      derived.2.1 = c.rxKey ∧ derived.2.2 = c.txKey ∧ (derived.1 = true →
        sessionId = c.sessionId ∧ sender.ip = c.currentHostIp ∧
          sender.port = c.currentHostPort) := by
  obtain ⟨ok, rx, tx⟩ := derived
  cases ok
  · constructor
    · intro h
      exact ⟨h.rxKey, h.txKey, fun h => (nomatch h)⟩
    · rintro ⟨h1, h2, -⟩
      exact ⟨rfl, h1, h2, rfl, rfl, rfl⟩
  · constructor
    · intro h
      exact ⟨h.rxKey, h.txKey, fun _ => ⟨h.sessionId, h.currentHostIp, h.currentHostPort⟩⟩
    · rintro ⟨h1, h2, h3⟩
      obtain ⟨h3, h4, h5⟩ := h3 rfl
      exact ⟨h3, h1, h2, h4, h5, rfl⟩

theorem undisturbed_handshakeResponse_iff (c : ClientSession) (input : NetInput)
    (hrp : HandshakeSecureResponsePacket) :
    Undisturbed c (c.handshakeResponse input.cm input.sender hrp) ↔
      (hrp.approved ≠ 0 → c.Reinstalls input hrp) := by
  unfold ClientSession.handshakeResponse
  by_cases happ : hrp.approved ≠ 0
  · rw [if_pos happ, undisturbed_adopt_iff]
    exact ⟨fun h _ => h, fun h => h happ⟩
  · rw [if_neg happ]
    exact iff_of_true ⟨rfl, rfl, rfl, rfl, rfl, rfl⟩ fun h => absurd h happ

namespace NetThread

/-- The datagram is an envelope of the session that passes `Decrypt`. -/
def Opens (input : NetInput) (t : NetThread) : Prop :=
  ∃ e, t.envelope = some e ∧ e ≤ decryptedSize ∧
    (decryptEnvelope input.cm t.session.rxKey t.buf).isSome = true

/-- So is the datagram itself or the content of the relay packet it is. -/
def Authentic (input : NetInput) (t : NetThread) : Prop :=
  Opens input t ∨ ∃ t', t.relayed = some t' ∧ Opens input t'

/-- Not a handshake response, or too short for one. -/
def NoResponse (t : NetThread) : Prop :=
  t.buf 0 ≠ PacketType.handshakeSecureResponse.code ∨ t.len < HandshakeSecureResponsePacket.size

variable {input : NetInput}

theorem session_openSecure {t : NetThread}
    (h : (decryptEnvelope input.cm t.session.rxKey t.buf).isSome = false) :
    (t.openSecure input).session = t.session := by
  rw [Option.isSome_eq_false_iff, Option.isNone_iff_eq_none] at h
  simp only [openSecure, h]

/-- The state of the loop over a datagram that does not pass `Decrypt`: the session is untouched
unless the datagram is a handshake response. -/
theorem session_pass {t : NetThread} (h : ¬ Opens input t) (hresp : t.NoResponse) :
    (t.pass input).state.session = t.session := by
  rcases henv : t.envelope with _ | e
  · rcases hrel : t.relayed with _ | t'
    · rw [pass_of_other henv hrel, if_neg]
      · rfl
      · rintro ⟨h1, h2⟩
        rcases hresp with h' | h'
        · exact h' h1
        · exact absurd h2 (Nat.not_le_of_lt h')
    · obtain ⟨-, -, -, heq, -⟩ := relayed_eq_some hrel
      rw [pass_of_relayed hrel, heq]
      rfl
  · rw [pass_of_envelope henv]
    split
    · rfl
    · next hsize =>
      apply session_openSecure
      rcases hd : (decryptEnvelope input.cm t.session.rxKey t.buf).isSome with _ | _
      · rfl
      · exact absurd ⟨e, henv, Nat.le_of_not_lt hsize, hd⟩ h

/-- The loop goes round at the datagram itself or inside the relay packet it is. -/
theorem again_at {t t₀ : NetThread} {n : Nat} (h : (loop input).passes n t = .again t₀) :
    t₀ = t ∨ t.relayed = some t₀ := by
  induction n generalizing t₀ with
  | zero =>
    cases h
    exact .inl rfl
  | succ n ih =>
    rw [DatagramLoop.passes_succ] at h
    split at h
    · cases h
    next t₁ hn =>
    split at h
    · change t₁.pass input = _ at h
      rcases henv : t₁.envelope with _ | e
      · rcases hrel : t₁.relayed with _ | t₂
        · rw [pass_of_other henv hrel] at h
          cases h
        · rw [pass_of_relayed hrel] at h
          cases h
          rcases ih hn with rfl | hrel'
          · exact .inr hrel
          · rw [relayed_of_secure (secure_of_relayed hrel')] at hrel
            cases hrel
      · rw [pass_of_envelope henv] at h
        split at h <;> cases h
        exact ih hn
    · cases h

/-- **The session stays** through the whole loop over a datagram that is neither authentic nor a
handshake response. -/
theorem session_passes {t : NetThread} (hauth : ¬ Authentic input t) (hresp : t.NoResponse)
    (n : Nat) : ((loop input).passes n t).state.session = t.session := by
  induction n with
  | zero => rfl
  | succ n ih =>
    rw [DatagramLoop.passes_succ]
    rcases hn : (loop input).passes n t with t₀ | t₀ <;> simp only [hn] at ih ⊢
    · split
      · rw [← ih]
        rcases again_at hn with rfl | hrel
        · exact session_pass (fun h => hauth (.inl h)) hresp
        · refine session_pass (fun h => hauth (.inr ⟨t₀, hrel, h⟩)) (.inl ?_)
          rw [secure_of_relayed hrel]
          decide
      · exact ih
    · exact ih

/-- A handshake response is neither an envelope nor a relay packet. -/
theorem not_envelope_of_response {t : NetThread}
    (htype : t.buf 0 = PacketType.handshakeSecureResponse.code) :
    t.envelope = none ∧ t.relayed = none :=
  ⟨if_neg (not_branch htype (by decide) _), if_neg (not_branch htype (by decide) _)⟩

theorem not_authentic_of_response {t : NetThread}
    (htype : t.buf 0 = PacketType.handshakeSecureResponse.code) : ¬ Authentic input t := by
  obtain ⟨henv, hrel⟩ := not_envelope_of_response htype
  rintro (⟨e, he, -⟩ | ⟨t', ht', -⟩)
  · rw [henv] at he
    cases he
  · rw [hrel] at ht'
    cases ht'

/-- A handshake response is handled in one pass. -/
theorem passes_response {t : NetThread}
    (htype : t.buf 0 = PacketType.handshakeSecureResponse.code)
    (hlen : t.len ≥ HandshakeSecureResponsePacket.size) (n : Nat) :
    (loop input).passes (n + 1) t = .leave (t.answerResponse input) := by
  obtain ⟨henv, hrel⟩ := not_envelope_of_response htype
  have hpos : 0 < t.len := Nat.lt_of_lt_of_le (by decide) hlen
  have hpass : (loop input).pass 0 t = .leave (t.answerResponse input) := by
    show t.pass input = _
    rw [pass_of_other henv hrel, if_pos ⟨htype, hlen⟩]
  induction n with
  | zero =>
    rw [DatagramLoop.passes_succ]
    show (if (loop input).guard t then (loop input).pass 0 t else .leave t) = _
    rw [DatagramLoop.guard_eq hpos, if_pos rfl, hpass]
  | succ n ih =>
    rw [DatagramLoop.passes_succ, ih]

/-- **Stray datagrams.** Processing a datagram that does not pass `Decrypt` leaves the session
undisturbed iff the datagram is not an approved handshake response, or only repeats what is
installed. -/
theorem unauthenticated_undisturbed_iff (input : NetInput) (c : ClientSession) (buf : Mem)
    (len : Nat) (hauth : ¬ Authentic input (receive c buf len)) :
    (∀ n, Undisturbed c ((loop input).passes n (receive c buf len)).state.session) ↔
      (buf 0 = PacketType.handshakeSecureResponse.code ∧
          len ≥ HandshakeSecureResponsePacket.size ∧
          (HandshakeSecureResponsePacket.read buf).approved ≠ 0 →
        c.Reinstalls input (HandshakeSecureResponsePacket.read buf)) := by
  by_cases hresp : buf 0 = PacketType.handshakeSecureResponse.code ∧
      len ≥ HandshakeSecureResponsePacket.size
  · obtain ⟨htype, hlen⟩ := hresp
    have hiff := undisturbed_handshakeResponse_iff c input (HandshakeSecureResponsePacket.read buf)
    constructor
    · rintro h ⟨-, -, happ⟩
      have h1 := h 1
      rw [passes_response htype hlen] at h1
      exact hiff.mp h1 happ
    · intro h n
      cases n with
      | zero => exact .refl c
      | succ n =>
        rw [passes_response htype hlen]
        exact hiff.mpr fun happ => h ⟨htype, hlen, happ⟩
  · refine iff_of_true (fun n => ?_) fun h => absurd ⟨h.1, h.2.1⟩ hresp
    rw [session_passes hauth ?_ n]
    · exact .refl c
    · by_cases htype : buf 0 = PacketType.handshakeSecureResponse.code
      · exact .inr (Nat.lt_of_not_le fun hlen => hresp ⟨htype, hlen⟩)
      · exact .inl htype

/-- An approved response for session `sessionId`. -/
def approvedResponse (sessionId : UInt64) : HandshakeSecureResponsePacket :=
  ⟨PacketType.handshakeSecureResponse.code, Vector.replicate 32 1, 1, sessionId⟩

def responseDatagram (sessionId : UInt64) : Mem :=
  Mem.load (fun _ => 0) (approvedResponse sessionId).bytes

/-- A datagram from `10.0.0.x`, as the build without libsodium processes it. -/
def fromHost (x : UInt8) : NetInput :=
  ⟨mock, ⟨[0x31, 0x30, 0x2E, 0x30, 0x2E, 0x30, 0x2E, 0x30 + x], 5005⟩, 0, fun _ => 0⟩

/-- A client that has processed an approved response for session 7 from `10.0.0.1`. -/
def established : ClientSession :=
  ((loop (fromHost 1)).passes 1
    (receive (.init ⟨[1], [2]⟩ (fromHost 1).sender.ip 30) (responseDatagram 7) 42)).state.session

/-- The response once more: nothing changes. -/
theorem unauthenticated_undisturbed_repeat :
    Undisturbed established
      ((loop (fromHost 1)).passes 1 (receive established (responseDatagram 7) 42)).state.session :=
  (unauthenticated_undisturbed_iff (fromHost 1) established (responseDatagram 7) 42
    (not_authentic_of_response (by decide))).mpr
    (fun _ => ⟨by decide, by decide, fun _ => ⟨by decide, by decide, by decide⟩⟩) 1

/-- A forged response for session 8 from `10.0.0.2` takes the approved session over. -/
theorem forged_response_disturbs :
    established.handshakeApproved = true ∧
    ¬ Authentic (fromHost 2) (receive established (responseDatagram 8) 42) ∧
    ¬ ∀ n, Undisturbed established ((loop (fromHost 2)).passes n
      (receive established (responseDatagram 8) 42)).state.session := by
  refine ⟨by decide, not_authentic_of_response (by decide), fun h => ?_⟩
  have hid := (h 1).sessionId
  revert hid
  decide

end NetThread

end RemotePlay.Client
