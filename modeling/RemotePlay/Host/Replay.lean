import RemotePlay.Host.Roaming
import RemotePlay.Lib.Run

/-!
# Replayed datagrams

The receiver thread serves datagrams, the capture thread removes sessions that
have timed out, the other threads do the rest. A copy of an accepted envelope
decrypts like the original: the session becomes active again before the replay
check refuses the number, so replays keep a session whose client is gone.
-/

namespace RemotePlay.Host

open Lib Protocol Crypto Session

/-- The host, with the datagrams it has accepted. -/
structure ReplayHost where
  ctx : HostContext
  accepted : List (List UInt8)

inductive ReplayEvent where
  /-- A datagram arrives; the buffer holds `stale` behind it. -/
  | receive (input : HostInput) (stale : Mem) (bytes : List UInt8)
  | expire (now : Int)
  /-- The other threads. -/
  | meanwhile (world : HostContext → HostContext)

namespace ReplayHost

def start : ReplayHost := ⟨.init, []⟩

/-- The receiver thread with a datagram in its buffer. -/
def buffered (ctx : HostContext) (stale : Mem) (bytes : List UInt8) : ReceiverThread :=
  .receive ctx (stale.load bytes) bytes.length

/-- The datagram opens and the replay check lets it through. -/
def accepts (ctx : HostContext) (input : HostInput) (stale : Mem) (bytes : List UInt8) : Bool :=
  match (buffered ctx stale bytes).opened input with
  | some o => (ctx.replayCheck o.header).1
  | none => false

/-- Only the receiver thread has `lastSeqs`. -/
def step (s : ReplayHost) : ReplayEvent → ReplayHost
  | .receive input stale bytes =>
    { ctx := ((buffered s.ctx stale bytes).served input).ctx
      accepted := if accepts s.ctx input stale bytes then s.accepted ++ [bytes] else s.accepted }
  | .expire now => { s with ctx := s.ctx.expire now }
  | .meanwhile world => { s with ctx := { world s.ctx with lastSeqs := s.ctx.lastSeqs } }

/-- Serving the datagram dispatches nothing and leaves the whole context as it is. -/
def Inert (ctx : HostContext) (input : HostInput) (stale : Mem) (bytes : List UInt8) : Prop :=
  ((buffered ctx stale bytes).served input).ctx = ctx ∧
    ((buffered ctx stale bytes).served input).effects = []

/-- If the datagram opens, it comes at the clock reading of its session's last activity. -/
def AtLastActivity (ctx : HostContext) (input : HostInput) (stale : Mem) (bytes : List UInt8) :
    Prop :=
  ∀ o, (buffered ctx stale bytes).opened input = some o →
    o.target.lastActivity = input.steadyNow

/-- The number after an accepted one exists. -/
def NumbersLeft (s : ReplayHost) : ReplayEvent → Prop
  | .receive input stale bytes => ∀ o, (buffered s.ctx stale bytes).opened input = some o →
    (s.ctx.replayCheck o.header).1 = true → o.header.sequenceNumber.toNat + 1 < 2 ^ 64
  | _ => True

/-- The client of session `sid` is silent: what opens for the session is a copy, at the clock
reading of its last activity, and no other thread makes the session active. -/
def Silent (sid : UInt64) (s : ReplayHost) : ReplayEvent → Prop
  | .receive input stale bytes => ∀ o, (buffered s.ctx stale bytes).opened input = some o →
    o.header.sessionId = sid → bytes ∈ s.accepted ∧ o.target.lastActivity = input.steadyNow
  | .expire _ => True
  | .meanwhile world => ∀ c ∈ (world s.ctx).clients, c.sessionId = sid →
    ∃ d ∈ s.ctx.clients, d.sessionId = sid ∧ d.lastActivity = c.lastActivity

/-- No activity of session `sid` after `since`. -/
def IdleSince (sid : UInt64) (since : Int) (ctx : HostContext) : Prop :=
  ∀ c ∈ ctx.clients, c.sessionId = sid → c.lastActivity ≤ since

/-! ## What a datagram carries -/

/-- Two buffers with the same datagram. -/
theorem load_agree (stale stale' : Mem) (bytes : List UInt8) {i : Nat} (hi : i < bytes.length) :
    stale.load bytes i = stale'.load bytes i := by
  unfold Mem.load
  rw [List.getD_eq_getElem?_getD, List.getD_eq_getElem?_getD, List.getElem?_eq_getElem hi]
  rfl

section
variable {ctx ctx' : HostContext} {input input' : HostInput} {stale stale' : Mem}
  {bytes : List UInt8} {o o' : Opening}

theorem relayed_buffered {t : ReceiverThread}
    (h : (buffered ctx stale bytes).relayed = some t) :
    stale.load bytes 0 = PacketType.relayData.code ∧ RelayHeader.size < bytes.length ∧
      t.len = min (bytes.length - RelayHeader.size) ReceiverThread.bufSize ∧
      ∀ i, i < t.len → t.buf i = stale.load bytes (RelayHeader.size + i) := by
  obtain ⟨htype, hlen, -, rfl, -⟩ := ReceiverThread.relayed_eq_some h
  exact ⟨htype, hlen, rfl, fun i hi => if_pos hi⟩

/-- What opens is an envelope or a relay packet with one. -/
theorem type_of_opened (h : (buffered ctx stale bytes).opened input = some o) :
    0 < bytes.length ∧ (stale.load bytes 0 = PacketType.secure.code ∨
      stale.load bytes 0 = PacketType.relayData.code) := by
  unfold ReceiverThread.opened at h
  split at h
  · next t hrel =>
    obtain ⟨htype, hlen, -, -⟩ := relayed_buffered hrel
    exact ⟨Nat.lt_of_le_of_lt (Nat.zero_le _) hlen, .inr htype⟩
  · obtain ⟨htype, hlen, -⟩ := ReceiverThread.opening_eq_some h
    exact ⟨Nat.lt_of_lt_of_le (by decide) hlen, .inl htype⟩

/-- A datagram opens to one header, whatever the host and the rest of the buffer. -/
theorem header_of_opened (h : (buffered ctx stale bytes).opened input = some o)
    (h' : (buffered ctx' stale' bytes).opened input' = some o') : o'.header = o.header := by
  have hzero := load_agree stale stale' bytes (type_of_opened h).1
  unfold ReceiverThread.opened at h h'
  split at h
  · next t hrel =>
    obtain ⟨htype, hlen, htlen, hbuf⟩ := relayed_buffered hrel
    split at h'
    · next t' hrel' =>
      obtain ⟨-, -, htlen', hbuf'⟩ := relayed_buffered hrel'
      obtain ⟨-, hfits, -, hheader, -⟩ := ReceiverThread.opening_eq_some h
      obtain ⟨-, -, -, hheader', -⟩ := ReceiverThread.opening_eq_some h'
      rw [hheader, hheader']
      refine SecureHeader.read_congr fun i hi => ?_
      rw [hbuf i (by omega), hbuf' i (by omega)]
      exact (load_agree stale stale' bytes (by omega)).symm
    · obtain ⟨htype', -⟩ := ReceiverThread.opening_eq_some h'
      change stale'.load bytes 0 = _ at htype'
      rw [hzero, htype'] at htype
      exact absurd htype (by decide)
  · obtain ⟨htype, hfits, -, hheader, -⟩ := ReceiverThread.opening_eq_some h
    split at h'
    · next t' hrel' =>
      obtain ⟨htype', -⟩ := relayed_buffered hrel'
      change stale.load bytes 0 = _ at htype
      rw [hzero, htype'] at htype
      exact absurd htype (by decide)
    · obtain ⟨-, -, -, hheader', -⟩ := ReceiverThread.opening_eq_some h'
      rw [hheader, hheader']
      refine SecureHeader.read_congr fun i hi => ?_
      exact (load_agree stale stale' bytes (Nat.lt_of_lt_of_le hi hfits)).symm

end

/-! ## What serving does to the context -/

section
variable {ctx : HostContext} {input : HostInput} {stale : Mem} {bytes : List UInt8} {o : Opening}

/-- A datagram that does not open reserves an endpoint at most. -/
theorem ctx_served_of_unopened (h : (buffered ctx stale bytes).opened input = none) :
    ∃ initializingClients,
      ((buffered ctx stale bytes).served input).ctx = { ctx with initializingClients } := by
  by_cases htype : stale.load bytes 0 = PacketType.secure.code ∨
      stale.load bytes 0 = PacketType.relayData.code
  · obtain ⟨hctx, -⟩ := ReceiverThread.served_of_unopened htype h
    exact ⟨ctx.initializingClients, hctx⟩
  · obtain ⟨hsecure, hrelay⟩ := not_or.mp htype
    rcases Nat.eq_zero_or_pos bytes.length with hlen | hpos
    · rw [ReceiverThread.served_empty (t := buffered ctx stale bytes) hlen]
      exact ⟨ctx.initializingClients, rfl⟩
    · obtain ⟨t', hpass, initializingClients, hctx⟩ :=
        ReceiverThread.pass_of_plain (t := buffered ctx stale bytes) hsecure hrelay input
      rw [ReceiverThread.served_of_leave (t := buffered ctx stale bytes) hpos hpass]
      exact ⟨initializingClients, hctx⟩

theorem ctx_served_of_opened (h : (buffered ctx stale bytes).opened input = some o) :
    ((buffered ctx stale bytes).served input).ctx =
        (ctx.receiveDecrypted input o.target o.header (input.stack.load o.plaintext)).1 ∧
      ((buffered ctx stale bytes).served input).effects =
        (ctx.receiveDecrypted input o.target o.header (input.stack.load o.plaintext)).2 := by
  obtain ⟨hctx, heffects⟩ := ReceiverThread.served_of_opened h
  exact ⟨hctx, heffects⟩

/-- The look-up behind an opened envelope. -/
theorem find_of_opened (h : (buffered ctx stale bytes).opened input = some o) :
    ctx.findSession input.sender o.header.sessionId = some o.target := by
  unfold ReceiverThread.opened at h
  split at h
  · next t hrel =>
    obtain ⟨-, -, -, -, hfind, -⟩ := ReceiverThread.opening_eq_some h
    rwa [(ReceiverThread.relayed_frame hrel).1] at hfind
  · obtain ⟨-, -, -, -, hfind, -⟩ := ReceiverThread.opening_eq_some h
    exact hfind

/-- A copy is refused by the replay check; before that its session has become active. -/
theorem inert_iff_of_refused (h : (buffered ctx stale bytes).opened input = some o)
    (hrefused : o.header.sequenceNumber < ctx.lastSeqs o.header.sessionId) :
    Inert ctx input stale bytes ↔ o.target.lastActivity = input.steadyNow := by
  obtain ⟨hctx, heffects⟩ := ctx_served_of_opened h
  have hfind := find_of_opened h
  have hreceived : ctx.receiveDecrypted input o.target o.header (input.stack.load o.plaintext) =
      (ctx.updateSession input.sender o.header.sessionId (·.touch input), []) := by
    have hnot : ¬ o.header.sequenceNumber ≥ ctx.lastSeqs o.header.sessionId :=
      UInt64.not_le.mpr hrefused
    have hcheck : (ctx.updateSession input.sender o.header.sessionId (·.touch input)).replayCheck
          o.header =
        (false, ctx.updateSession input.sender o.header.sessionId (·.touch input)) := if_neg hnot
    unfold HostContext.receiveDecrypted
    dsimp only
    rw [hcheck]
    rfl
  unfold Inert
  rw [hctx, heffects, hreceived]
  constructor
  · rintro ⟨hsame, -⟩
    have htarget := eq_of_updateFirst_eq_self (congrArg HostContext.clients hsame) hfind
    rw [← htarget]
    rfl
  · intro hlast
    obtain ⟨hendpoint, -⟩ := ReceiverThread.isSession_iff.mp (List.find?_some hfind)
    have htouch : o.target.touch input = o.target := by
      unfold ClientState.touch
      rw [← hlast, ← hendpoint]
    exact ⟨congrArg (fun clients => { ctx with clients })
      (updateFirst_eq_self_of_find hfind htouch), rfl⟩

end

/-! ## Runs -/

/-- What is accepted is below the number the host expects next of its session. -/
structure Invariant (s : ReplayHost) : Prop where
  past : ∀ bytes ∈ s.accepted, 0 < bytes.length ∧
    ((∀ stale : Mem, stale.load bytes 0 = PacketType.secure.code) ∨
      ∀ stale : Mem, stale.load bytes 0 = PacketType.relayData.code) ∧
    ∀ ctx input stale o, (buffered ctx stale bytes).opened input = some o →
      o.header.sequenceNumber < s.ctx.lastSeqs o.header.sessionId

theorem invariant_start : Invariant start where
  past _ h := nomatch h

section
variable {s : ReplayHost}

/-- The numbers expected next only grow. -/
theorem Invariant.mono (h : Invariant s) {ctx : HostContext}
    (hle : ∀ sid, s.ctx.lastSeqs sid ≤ ctx.lastSeqs sid) :
    Invariant { s with ctx } where
  past bytes hbytes := by
    obtain ⟨hpos, htype, hpast⟩ := h.past bytes hbytes
    exact ⟨hpos, htype, fun ctx' input stale o ho =>
      UInt64.lt_of_lt_of_le (hpast ctx' input stale o ho) (hle _)⟩

theorem lastSeqs_replayCheck_congr {ctx ctx' : HostContext} {sh : SecureHeader}
    (h : ctx'.lastSeqs = ctx.lastSeqs) :
    (ctx'.replayCheck sh).2.lastSeqs = (ctx.replayCheck sh).2.lastSeqs := by
  unfold HostContext.replayCheck
  rw [h]
  split
  · rfl
  · exact h

theorem lastSeqs_receiveDecrypted (ctx : HostContext) (input : HostInput) (target : ClientState)
    (sh : SecureHeader) (decrypted : Mem) :
    (ctx.receiveDecrypted input target sh decrypted).1.lastSeqs =
      (ctx.replayCheck sh).2.lastSeqs := by
  have htouch : ((ctx.updateSession input.sender sh.sessionId (·.touch input)).replayCheck
      sh).2.lastSeqs = (ctx.replayCheck sh).2.lastSeqs := lastSeqs_replayCheck_congr rfl
  unfold HostContext.receiveDecrypted
  dsimp only
  split
  · obtain ⟨clients, sendQueue, udpPool, heq, -⟩ := HostContext.dispatch_frame
      ((ctx.updateSession input.sender sh.sessionId (·.touch input)).replayCheck sh).2 input
      (target.touch input) sh.encryptedSize.toNat decrypted
    rw [heq]
    exact htouch
  · exact htouch

theorem lastSeqs_mono {ctx : HostContext} {sh : SecureHeader}
    (hleft : (ctx.replayCheck sh).1 = true → sh.sequenceNumber.toNat + 1 < 2 ^ 64)
    (sid : UInt64) : ctx.lastSeqs sid ≤ (ctx.replayCheck sh).2.lastSeqs sid := by
  by_cases hfresh : (ctx.replayCheck sh).1 = true
  · have hle := HostContext.replayCheck_fresh_iff.mp hfresh
    have hnext := toNat_add_one (hleft hfresh)
    rw [HostContext.replayCheck, if_pos hle]
    show _ ≤ if sid = sh.sessionId then sh.sequenceNumber + 1 else ctx.lastSeqs sid
    split
    · next h =>
      rw [h, UInt64.le_iff_toNat_le, hnext]
      exact Nat.le_succ_of_le (UInt64.le_iff_toNat_le.mp hle)
    · exact UInt64.le_refl _
  · have hnot := fun h => hfresh (HostContext.replayCheck_fresh_iff.mpr h)
    rw [HostContext.replayCheck, if_neg hnot]
    exact UInt64.le_refl _

/-- A datagram that opened is accepted, its session expects a later number. -/
theorem Invariant.snoc (h : Invariant s) {ctx : HostContext} {input : HostInput} {stale : Mem}
    {bytes : List UInt8} {o : Opening} (ho : (buffered ctx stale bytes).opened input = some o)
    (hnext : o.header.sequenceNumber < s.ctx.lastSeqs o.header.sessionId) :
    Invariant { s with accepted := s.accepted ++ [bytes] } := by
  refine ⟨fun copy hcopy => ?_⟩
  rcases List.mem_append.mp hcopy with hcopy | hcopy
  · exact h.past copy hcopy
  · cases List.mem_singleton.mp hcopy
    obtain ⟨hpos, htype⟩ := type_of_opened ho
    have hfirst : ∀ {b : UInt8}, stale.load bytes 0 = b → ∀ stale' : Mem, stale'.load bytes 0 = b :=
      fun hb stale' => (load_agree stale' stale bytes hpos).trans hb
    refine ⟨hpos, htype.imp hfirst hfirst, fun ctx' input' stale' o' ho' => ?_⟩
    rw [header_of_opened ho ho']
    exact hnext

theorem invariant_step {e : ReplayEvent} (h : Invariant s) (hleft : NumbersLeft s e) :
    Invariant (step s e) := by
  cases e with
  | expire now => exact h.mono fun _ => UInt64.le_refl _
  | meanwhile world => exact h.mono fun _ => UInt64.le_refl _
  | receive input stale bytes =>
    simp only [step]
    rcases ho : (buffered s.ctx stale bytes).opened input with _ | o
    · obtain ⟨initializingClients, hctx⟩ := ctx_served_of_unopened ho
      have hnot : accepts s.ctx input stale bytes = false := by
        unfold accepts
        rw [ho]
      rw [hctx, hnot]
      exact h.mono fun _ => UInt64.le_refl _
    · obtain ⟨hctx, -⟩ := ctx_served_of_opened ho
      have haccepts : accepts s.ctx input stale bytes = (s.ctx.replayCheck o.header).1 := by
        unfold accepts
        rw [ho]
      have hseqs : ((buffered s.ctx stale bytes).served input).ctx.lastSeqs =
          (s.ctx.replayCheck o.header).2.lastSeqs := by
        rw [hctx, lastSeqs_receiveDecrypted]
      have hmono : Invariant { s with ctx := ((buffered s.ctx stale bytes).served input).ctx } :=
        h.mono fun sid => by
          rw [hseqs]
          exact lastSeqs_mono (hleft o ho) sid
      rw [haccepts]
      split
      · next hfresh =>
        have hnext : o.header.sequenceNumber <
            ((buffered s.ctx stale bytes).served input).ctx.lastSeqs o.header.sessionId := by
          rw [hseqs, HostContext.lastSeqs_replayCheck
            (HostContext.replayCheck_fresh_iff.mp hfresh), UInt64.lt_iff_toNat_lt,
            toNat_add_one (hleft o ho hfresh)]
          exact Nat.lt_succ_self _
        exact hmono.snoc ho hnext
      · exact hmono

/-- A copy of an accepted datagram is inert iff it does not open or changes nothing when its
session becomes active. -/
theorem inert_iff_of_accepted (h : Invariant s) {bytes : List UInt8} (hbytes : bytes ∈ s.accepted)
    (input : HostInput) (stale : Mem) :
    Inert s.ctx input stale bytes ↔ AtLastActivity s.ctx input stale bytes := by
  obtain ⟨-, htype, hpast⟩ := h.past bytes hbytes
  rcases ho : (buffered s.ctx stale bytes).opened input with _ | o
  · have hinert : Inert s.ctx input stale bytes :=
      ReceiverThread.served_of_unopened (htype.imp (fun h => h stale) fun h => h stale) ho
    refine iff_of_true hinert fun o' ho' => ?_
    rw [ho] at ho'
    cases ho'
  · rw [inert_iff_of_refused ho (hpast _ _ _ _ ho)]
    constructor
    · intro hlast o' ho'
      rw [ho] at ho'
      cases ho'
      exact hlast
    · intro hlast
      exact hlast o ho

end

/-! ## A silent client -/

section
variable {s : ReplayHost} {sid : UInt64} {since : Int}

/-- The activity of session `sid`, which serving the other sessions leaves alone. -/
def activity (sid : UInt64) (c : ClientState) : Option Int :=
  if c.sessionId = sid then some c.lastActivity else none

theorem IdleSince.of_activity {ctx ctx' : HostContext} (h : IdleSince sid since ctx)
    (heq : ctx'.clients.map (activity sid) = ctx.clients.map (activity sid)) :
    IdleSince sid since ctx' := by
  intro c hc hsid
  have hmem : some c.lastActivity ∈ ctx'.clients.map (activity sid) :=
    List.mem_map.mpr ⟨c, hc, if_pos hsid⟩
  rw [heq] at hmem
  obtain ⟨d, hd, hactivity⟩ := List.mem_map.mp hmem
  unfold activity at hactivity
  split at hactivity
  · next hid =>
    rw [← Option.some.inj hactivity]
    exact h d hd hid
  · cases hactivity

/-- An envelope of another session. -/
theorem activity_receiveDecrypted {ctx : HostContext} {input : HostInput} {target : ClientState}
    {sh : SecureHeader} (decrypted : Mem) (hsid : sh.sessionId ≠ sid) :
    (ctx.receiveDecrypted input target sh decrypted).1.clients.map (activity sid) =
      ctx.clients.map (activity sid) := by
  have htouch : (ctx.updateSession input.sender sh.sessionId (·.touch input)).clients.map
      (activity sid) = ctx.clients.map (activity sid) := by
    refine map_updateFirst (activity sid) ctx.clients fun c _ hc => ?_
    obtain ⟨-, hid⟩ := ReceiverThread.isSession_iff.mp hc
    have hne : c.sessionId ≠ sid := fun h => hsid (hid.symm.trans h)
    exact (if_neg hne).trans (if_neg hne).symm
  exact (HostContext.map_receiveDecrypted (activity sid) (fun _ _ => rfl) htouch target decrypted).1

theorem idle_step {e : ReplayEvent} (hinv : Invariant s) (h : IdleSince sid since s.ctx)
    (hsilent : Silent sid s e) : IdleSince sid since (step s e).ctx := by
  cases e with
  | expire now => exact fun c hc hsid => h c (List.mem_of_mem_filter hc) hsid
  | meanwhile world =>
    intro c hc hsid
    obtain ⟨d, hd, hid, hlast⟩ := hsilent c hc hsid
    rw [← hlast]
    exact h d hd hid
  | receive input stale bytes =>
    simp only [step]
    rcases ho : (buffered s.ctx stale bytes).opened input with _ | o
    · obtain ⟨initializingClients, hctx⟩ := ctx_served_of_unopened ho
      rw [hctx]
      exact h
    · by_cases hsid : o.header.sessionId = sid
      · obtain ⟨hcopy, hlast⟩ := hsilent o ho hsid
        have hinert : Inert s.ctx input stale bytes := by
          rw [inert_iff_of_accepted hinv hcopy]
          intro o' ho'
          rw [ho] at ho'
          cases ho'
          exact hlast
        rw [hinert.1]
        exact h
      · obtain ⟨hctx, -⟩ := ctx_served_of_opened ho
        rw [hctx]
        exact h.of_activity (activity_receiveDecrypted _ hsid)

/-- The scan removes a session that has been idle for more than 30 seconds. -/
theorem expire_of_idle {ctx : HostContext} (h : IdleSince sid since ctx) {now : Int}
    (hnow : 30 < (now - since).tdiv 1000000000) :
    ∀ c ∈ (ctx.expire now).clients, c.sessionId ≠ sid := by
  intro c hc hsid
  obtain ⟨hmem, hkept⟩ := List.mem_filter.mp hc
  have hle : (now - since).tdiv 1000000000 ≤ (now - c.lastActivity).tdiv 1000000000 :=
    Int.tdiv_le_tdiv (by decide) (by have := h c hmem hsid; omega)
  have htimed : c.timedOut now = true := decide_eq_true (by omega)
  rw [htimed] at hkept
  cases hkept

end

/-- **Replays** of accepted datagrams. While no accepted number is the last one, a copy is inert
iff it does not open or its session's last activity is now. A session whose client sends only such
copies goes at the first scan after 30 seconds. -/
theorem replays_inert_iff (es : List ReplayEvent) (hes : Along step NumbersLeft start es) :
    let s := run step start es
    (∀ bytes ∈ s.accepted, ∀ input stale,
      Inert s.ctx input stale bytes ↔ AtLastActivity s.ctx input stale bytes) ∧
    ∀ sid since es', Along step NumbersLeft s es' → Along step (Silent sid) s es' →
      IdleSince sid since s.ctx → ∀ now, 30 < (now - since).tdiv 1000000000 →
      ∀ c ∈ ((run step s es').ctx.expire now).clients, c.sessionId ≠ sid := by
  intro s
  have hinv : Invariant s :=
    run_invariant (fun s e h hleft => invariant_step h hleft) invariant_start hes
  refine ⟨fun bytes hbytes input stale => inert_iff_of_accepted hinv hbytes input stale, ?_⟩
  intro sid since es' hleft hsilent hidle now hnow
  have hboth : Invariant (run step s es') ∧ IdleSince sid since (run step s es').ctx :=
    run_invariant
      (fun s e (h : Invariant s ∧ IdleSince sid since s.ctx) hok =>
        ⟨invariant_step h.1 hok.1, idle_step h.1 h.2 hok.2⟩)
      ⟨hinv, hidle⟩ (along_and hleft hsilent)
  exact expire_of_idle hboth.2 hnow

/-- The datagram with the envelope of session 7. -/
def captured : List UInt8 := ReceiverThread.header7.bytes ++ [0xFF]

/-- Serving it at the given second. -/
def receiveAt (second : Int) : ReplayEvent :=
  .receive { ReceiverThread.atOneSecond with steadyNow := second * 1000000000 } (fun _ => 0)
    captured

/-- Session 7 is published, and its envelope arrives one second later. -/
def acceptance : List ReplayEvent :=
  [.meanwhile fun _ => ReceiverThread.oneSession, receiveAt 1]

theorem header_captured {ctx : HostContext} {input : HostInput} {stale : Mem} {o : Opening}
    (h : (buffered ctx stale captured).opened input = some o) :
    o.header = ReceiverThread.header7 := by
  unfold ReceiverThread.opened at h
  split at h
  · next t hrel =>
    obtain ⟨htype, -⟩ := relayed_buffered hrel
    cases htype
  · obtain ⟨-, -, -, hheader, -⟩ := ReceiverThread.opening_eq_some h
    rw [hheader]
    exact SecureHeader.read_of_holds (Mem.holds_append.mp (Mem.holds_load stale captured)).1

theorem numbersLeft_receiveAt (s : ReplayHost) (second : Int) :
    NumbersLeft s (receiveAt second) := by
  intro o ho _
  rw [header_captured ho]
  decide

theorem numbersLeft_acceptance : Along step NumbersLeft start acceptance :=
  ⟨trivial, numbersLeft_receiveAt _ _, trivial⟩

theorem replays_inert_iff_captured :
    Inert (run step start acceptance).ctx
      { ReceiverThread.atOneSecond with steadyNow := 1000000000 } (fun _ => 0) captured ∧
    ∀ c ∈ ((run step (run step start acceptance) [receiveAt 1]).ctx.expire 32000000000).clients,
      c.sessionId ≠ 7 := by
  obtain ⟨hinert, hsilent⟩ := replays_inert_iff acceptance numbersLeft_acceptance
  refine ⟨(hinert captured (by decide) _ _).mpr ?_, ?_⟩
  · intro o ho
    cases ho
    rfl
  · refine hsilent 7 1000000000 [receiveAt 1] ⟨numbersLeft_receiveAt _ _, trivial⟩
      ⟨fun o ho _ => ⟨by decide, ?_⟩, trivial⟩ ?_ 32000000000 (by decide)
    · cases ho
      rfl
    · intro c hc _
      cases List.mem_singleton.mp hc
      decide

theorem opened_captured :
    (buffered (run step start acceptance).ctx (fun _ => 0) captured).opened
      { ReceiverThread.atOneSecond with steadyNow := 20000000000 } =
    some ⟨ReceiverThread.header7,
      { ReceiverThread.session7 with lastActivity := 1000000000 }, [0xFF]⟩ := rfl

/-- A copy arrives after 20 seconds: at 40 seconds the session is still there, without the copy it
is not. -/
theorem replay_keeps_session :
    Along step NumbersLeft start acceptance ∧
    captured ∈ (run step start acceptance).accepted ∧
    ¬ Inert (run step start acceptance).ctx
      { ReceiverThread.atOneSecond with steadyNow := 20000000000 } (fun _ => 0) captured ∧
    ((run step start acceptance).ctx.expire 40000000000).clients.map ClientState.sessionId = [] ∧
    ((run step (run step start acceptance) [receiveAt 20]).ctx.expire 40000000000).clients.map
      ClientState.sessionId = [7] := by
  refine ⟨numbersLeft_acceptance, by decide, ?_, by decide, by decide⟩
  rw [inert_iff_of_refused opened_captured (by decide)]
  decide

end ReplayHost

end RemotePlay.Host
