import RemotePlay.Host.ReceiverThread

/-!
# Serving one datagram

What the receiver thread has done once it is through with a datagram. An
envelope, bare or in a relay packet, is opened or not (`opened`); if it is, the
context and the calls are those of `receiveDecrypted`, otherwise nothing
happens. A datagram keeps the thread for two passes at most, or for ever.
-/

namespace RemotePlay.Host

open Lib Protocol Crypto Session

/-- An envelope that has passed `Decrypt`. -/
structure Opening where
  header : SecureHeader
  target : ClientState
  plaintext : List UInt8

namespace ReceiverThread

/-- The thread after a datagram, while no other thread runs. -/
def served (input : HostInput) (t : ReceiverThread) : ReceiverThread :=
  ((loop input fun _ => id).passes 2 t).state

/-- The envelope at the front of the datagram, when it belongs to a session and opens. -/
def opening (input : HostInput) (t : ReceiverThread) : Option Opening :=
  let sh := SecureHeader.read t.buf
  if t.buf 0 = PacketType.secure.code ∧ t.len ≥ SecureHeader.size ∧
      sh.encryptedSize.toNat ≤ decryptedSize then
    match t.ctx.findSession input.sender sh.sessionId with
    | some target =>
      (decryptEnvelope input.cm target.rxKey t.buf).map fun plaintext => ⟨sh, target, plaintext⟩
    | none => none
  else none

/-- The same of the datagram itself or of the one in the relay packet it is. -/
def opened (input : HostInput) (t : ReceiverThread) : Option Opening :=
  match t.relayed with
  | some t' => t'.opening input
  | none => t.opening input

/-- The thread once it has dispatched an opened envelope. -/
def receiveOpened (t : ReceiverThread) (input : HostInput) (o : Opening) : ReceiverThread :=
  let received := t.ctx.receiveDecrypted input o.target o.header (input.stack.load o.plaintext)
  { t with
    ctx := received.1
    decrypts := t.decrypts ++ [⟨o.header.encryptedSize.toNat, t.len⟩]
    effects := t.effects ++ received.2 }

variable {input : HostInput} {t t' : ReceiverThread} {o : Opening}

theorem opening_eq_some (h : t.opening input = some o) :
    t.buf 0 = PacketType.secure.code ∧ t.len ≥ SecureHeader.size ∧
      (SecureHeader.read t.buf).encryptedSize.toNat ≤ decryptedSize ∧
      o.header = SecureHeader.read t.buf ∧
      t.ctx.findSession input.sender o.header.sessionId = some o.target ∧
      decryptEnvelope input.cm o.target.rxKey t.buf = some o.plaintext := by
  unfold opening at h
  dsimp only at h
  split at h
  · next hc =>
    split at h
    · next target hfind =>
      obtain ⟨plaintext, hplain, rfl⟩ := Option.map_eq_some_iff.mp h
      exact ⟨hc.1, hc.2.1, hc.2.2, rfl, hfind, hplain⟩
    · cases h
  · cases h

theorem pass_of_opening (h : t.opening input = some o) :
    t.pass input = .leave (t.receiveOpened input o) := by
  obtain ⟨htype, hlen, hsize, hheader, hfind, hplain⟩ := opening_eq_some h
  rw [hheader] at hfind
  have henv : t.envelope input = some (SecureHeader.read t.buf).encryptedSize.toNat := by
    unfold envelope
    dsimp only
    rw [if_pos ⟨htype, hlen, by rw [hfind]; rfl⟩]
  obtain ⟨target, htarget, hpass⟩ := pass_of_envelope henv
  cases hfind.symm.trans htarget
  rw [hpass, if_neg (Nat.not_lt_of_le hsize)]
  unfold openSecure receiveOpened
  dsimp only
  rw [hplain, hheader]

/-- A pass over an envelope that is not opened does nothing, and goes round at the same state if
it goes round. -/
theorem pass_of_unopened (htype : t.buf 0 = PacketType.secure.code) (h : t.opening input = none) :
    (t.pass input).state.ctx = t.ctx ∧ (t.pass input).state.effects = t.effects ∧
      ∀ t', t.pass input = .again t' → t' = t := by
  rcases henv : t.envelope input with _ | e
  · unfold pass
    dsimp only
    rw [if_neg (not_branch htype (by decide) _), if_neg (not_branch htype (by decide) _),
      if_neg (not_branch htype (by decide) _)]
    split
    · next hc =>
      split
      · next target hfind =>
        unfold envelope at henv
        dsimp only at henv
        rw [if_pos ⟨hc.1, hc.2, by rw [hfind]; rfl⟩] at henv
        cases henv
      · exact ⟨rfl, rfl, fun _ h => (nomatch h)⟩
    · exact ⟨rfl, rfl, fun _ h => (nomatch h)⟩
  · obtain ⟨-, hlen, -, he⟩ := envelope_eq_some henv
    obtain ⟨target, htarget, hpass⟩ := pass_of_envelope henv
    rw [hpass]
    split
    · exact ⟨rfl, rfl, fun _ h => (Pass.again.inj h).symm⟩
    · next hsize =>
      have hplain : decryptEnvelope input.cm target.rxKey t.buf = none := by
        unfold opening at h
        dsimp only at h
        rw [if_pos ⟨htype, hlen, by rw [← he]; exact Nat.le_of_not_lt hsize⟩, htarget] at h
        exact Option.map_eq_none_iff.mp h
      unfold openSecure
      dsimp only
      rw [hplain]
      exact ⟨rfl, rfl, fun _ h => (nomatch h)⟩

/-- A pass over an envelope of no session. -/
theorem pass_of_unknown (htype : t.buf 0 = PacketType.secure.code)
    (h : t.ctx.findSession input.sender (SecureHeader.read t.buf).sessionId = none) :
    t.pass input = .leave t := by
  unfold pass
  dsimp only
  rw [if_neg (not_branch htype (by decide) _), if_neg (not_branch htype (by decide) _),
    if_neg (not_branch htype (by decide) _), h]
  split <;> rfl

/-- A datagram that is neither an envelope nor a relay packet is left at once; a hello reserves
its endpoint. -/
theorem pass_of_plain (hsecure : t.buf 0 ≠ PacketType.secure.code)
    (hrelay : t.buf 0 ≠ PacketType.relayData.code) (input : HostInput) :
    ∃ t', t.pass input = .leave t' ∧ ∃ initializingClients,
      t'.ctx = { t.ctx with initializingClients } := by
  unfold pass
  dsimp only
  split
  · exact ⟨_, rfl, t.ctx.initializingClients, rfl⟩
  · rw [if_neg fun h => hrelay h.1]
    split
    · exact ⟨_, rfl, HostContext.handleHandshake_frame t.ctx input _⟩
    · rw [if_neg fun h => hsecure h.1]
      exact ⟨_, rfl, t.ctx.initializingClients, rfl⟩

/-! ## Two passes -/

/-- A datagram that is left in its first pass. -/
theorem served_of_leave (hpos : 0 < t.len) (h : t.pass input = .leave t') :
    t.served input = t' := by
  unfold served
  rw [DatagramLoop.passes_two_of_leave (L := loop input fun _ => id) hpos h]
  rfl

theorem served_of_again (hpos : 0 < t.len) (h : t.pass input = .again t') (hpos' : 0 < t'.len) :
    t.served input = (t'.pass input).state := by
  unfold served
  rw [DatagramLoop.passes_two_of_again (L := loop input fun _ => id) hpos h hpos']
  rfl

theorem served_empty (hlen : t.len = 0) : t.served input = t := by
  unfold served
  rw [DatagramLoop.passes_two_of_empty (L := loop input fun _ => id) hlen]
  rfl

theorem len_of_relayed (h : t.relayed = some t') : 0 < t.len ∧ 0 < t'.len := by
  obtain ⟨-, hlen, -, rfl, -⟩ := relayed_eq_some h
  exact ⟨Nat.lt_of_le_of_lt (Nat.zero_le _) hlen, copyLen_pos hlen⟩

/-- The relay packet is unwrapped in the first pass, its content is what the second one sees. -/
theorem served_of_relayed (h : t.relayed = some t') : t.served input = (t'.pass input).state :=
  served_of_again (len_of_relayed h).1 (pass_of_relayed h) (len_of_relayed h).2

theorem relayed_frame (h : t.relayed = some t') :
    t'.ctx = t.ctx ∧ t'.effects = t.effects ∧ t'.decrypts = t.decrypts := by
  obtain ⟨-, -, -, rfl, -⟩ := relayed_eq_some h
  exact ⟨rfl, rfl, rfl⟩

/-- **An envelope that is opened** is dispatched. -/
theorem served_of_opened (h : t.opened input = some o) :
    (t.served input).ctx = (t.receiveOpened input o).ctx ∧
      (t.served input).effects = (t.receiveOpened input o).effects := by
  unfold opened at h
  split at h
  · next t' hrel =>
    obtain ⟨hctx, heffects, -⟩ := relayed_frame hrel
    rw [served_of_relayed hrel, pass_of_opening h]
    unfold receiveOpened Pass.state
    dsimp only
    rw [hctx, heffects]
    exact ⟨rfl, rfl⟩
  · have hpos : 0 < t.len := by
      obtain ⟨-, hlen, -⟩ := opening_eq_some h
      exact Nat.lt_of_lt_of_le (by decide) hlen
    rw [served_of_leave hpos (pass_of_opening h)]
    exact ⟨rfl, rfl⟩

/-- **An envelope that is not opened**, bare or relayed, changes nothing. -/
theorem served_of_unopened
    (htype : t.buf 0 = PacketType.secure.code ∨ t.buf 0 = PacketType.relayData.code)
    (h : t.opened input = none) :
    (t.served input).ctx = t.ctx ∧ (t.served input).effects = t.effects := by
  unfold opened at h
  split at h
  · next t' hrel =>
    obtain ⟨hctx, heffects, -⟩ := relayed_frame hrel
    obtain ⟨hpass, hpass', -⟩ := pass_of_unopened (secure_of_relayed hrel) h
    rw [served_of_relayed hrel, ← hctx, ← heffects]
    exact ⟨hpass, hpass'⟩
  · next hrel =>
    rcases Nat.eq_zero_or_pos t.len with hlen | hpos
    · rw [served_empty hlen]
      exact ⟨rfl, rfl⟩
    rcases htype with htype | htype
    · obtain ⟨hctx, heffects, hagain⟩ := pass_of_unopened htype h
      rcases hpass : t.pass input with t' | t'
      · cases hagain t' hpass
        rw [served_of_again hpos hpass hpos]
        exact ⟨hctx, heffects⟩
      · rw [hpass] at hctx heffects
        rw [served_of_leave hpos hpass]
        exact ⟨hctx, heffects⟩
    · have hpass : t.pass input = .leave t := by
        unfold relayed at hrel
        unfold pass
        dsimp only
        rw [if_neg (not_branch htype (by decide) _)]
        split
        · next hc =>
          rw [if_pos hc] at hrel
          rw [hrel]
        · rw [if_neg (not_branch htype (by decide) _), if_neg (not_branch htype (by decide) _)]
      rw [served_of_leave hpos hpass]
      exact ⟨rfl, rfl⟩

end ReceiverThread

end RemotePlay.Host
