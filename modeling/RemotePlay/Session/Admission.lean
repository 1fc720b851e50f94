import RemotePlay.Session.KeyAgreement

/-!
# Admission

What the host does with a hello: nothing when the endpoint has a session,
otherwise it rejects, ignores or admits it. An admitted endpoint is reserved in
`initializingClients` until its thread has pushed the session and erases the
reservation; `Transition` says what each step of the handshake does to
sessions, reservations and threads. The check for a session and the
reservation are two lock sections of the receiver thread, so a thread that
publishes and erases between them lets a second session in.
-/

namespace RemotePlay.Session

open Lib Protocol Crypto Host Client

namespace Handshake

variable {ι : Type}

/-! ## A session that is already there -/

section
variable (p : Participants ι) (sodium : Sodium) (Matching : X25519KeyPair → Prop)

/-- The receiver thread with datagram `n`, both lock sections without a pause. -/
def serve (s : Handshake ι) (n : Nat) (input : HostInput) : Handshake ι :=
  (s.hostReceive p n).hostAdmit p input

/-- The host has session `c` for client `i`, the client has not been approved, and datagram `n` is
a hello of the client that has reached the host's idle receiver thread. -/
structure Unanswered (s : Handshake ι) (c : ClientState) (i : ι) (n : Nat) : Prop where
  active : c ∈ s.ctx.clients
  endpoint : c.endpoint = p.endpoint i
  clientPublicKey : c.clientPublicKey = (p.clientKeyPair i).toKeyPair.publicKey
  waiting : (s.client i).session.handshakeApproved = false
  idle : s.receiving = none
  hello : ∃ target ∈ p.hostAddresses,
    s.network[n]? = some ⟨p.endpoint i, target, .hello (hello p i)⟩

/-- Among the datagrams sent from `s` to `s'` is an approved response to the endpoint of `c`, with
the id of `c` and the host key its keys come from. -/
def Resends (s s' : Handshake ι) (c : ClientState) : Prop :=
  ∃ m ∈ s'.network.drop s.network.length, m.target = c.endpoint ∧
    ∃ hrp, m.packet = .response hrp ∧ hrp.approved ≠ 0 ∧
      Answers p sodium Matching [c] c.endpoint hrp

variable {p} {s : Handshake ι} {c : ClientState} {i : ι} {n : Nat}

theorem Unanswered.hasClient (h : Unanswered p s c i n) :
    s.ctx.hasClient (p.endpoint i) = true := by
  unfold HostContext.hasClient
  rw [List.any_eq_true]
  exact ⟨c, h.active, decide_eq_true h.endpoint⟩

/-- The existing session ends the processing of the hello. -/
theorem Unanswered.serve_eq (h : Unanswered p s c i n) (input : HostInput) :
    s.serve p n input = s := by
  obtain ⟨target, -, hn⟩ := h.hello
  have hreceive : s.hostReceive p n = s := by
    unfold hostReceive
    rw [h.idle, hn]
    simp only [h.hasClient, Bool.true_eq_false, and_false, if_false]
  unfold serve hostAdmit
  rw [hreceive, h.idle]

theorem not_resends_self : ¬ Resends p sodium Matching s s c := by
  rintro ⟨m, hm, -⟩
  rw [List.drop_length] at hm
  cases hm

variable (p)

/-- **A lost response is never sent again.** In every reachable state in which the host has a
session for a client that has not been approved, the client's next hello puts no response into
flight. -/
theorem lost_response_not_resent [DecidableEq ι] (cm : CryptoManager) (ctx : HostContext)
    (es : List (HandshakeEvent ι)) (c : ClientState) (i : ι) (n : Nat)
    (h : Unanswered p (run (step p cm) (start p ctx) es) c i n) (input : HostInput) :
    ¬ Resends p sodium Matching (run (step p cm) (start p ctx) es)
      (serve p (run (step p cm) (start p ctx) es) n input) c := by
  rw [h.serve_eq]
  exact not_resends_self sodium Matching

end

/-- The handshake up to the host's response, which is lost; the client sends its hello again. -/
def lostResponse : List (HandshakeEvent Unit) :=
  [.attempt () [⟨[0x31], 5005⟩], .hostReceive 0, .hostAdmit anyInput,
    .init 0 (.derive (pairOf 2) 0), .init 0 (.identify 7), .init 0 (.encoder true),
    .init 0 (.respond anyInput), .init 0 .finish, .attempt () [⟨[0x31], 5005⟩]]

/-- The session of `lostResponse`. -/
def lostSession : ClientState :=
  { ClientState.new ⟨[0x32], 6000⟩ (List.replicate 32 1) 0 with
    rxKey := List.replicate 32 1
    txKey := List.replicate 32 2
    sessionId := 7 }

theorem unanswered_lostResponse :
    Unanswered oneClient (run (step oneClient plainKx.manager) (start oneClient .init)
      lostResponse) lostSession () 2 where
  active := List.mem_singleton.mpr rfl
  endpoint := rfl
  clientPublicKey := rfl
  waiting := rfl
  idle := rfl
  hello := ⟨⟨[0x31], 5005⟩, List.mem_singleton.mpr rfl, rfl⟩

theorem lost_response_not_resent_one :
    ¬ Resends oneClient plainKx (fun _ => True)
      (run (step oneClient plainKx.manager) (start oneClient .init) lostResponse)
      (serve oneClient (run (step oneClient plainKx.manager) (start oneClient .init) lostResponse)
        2 anyInput) lostSession :=
  lost_response_not_resent oneClient plainKx (fun _ => True) plainKx.manager .init lostResponse
    lostSession () 2 unanswered_lostResponse anyInput

/-- The host does not answer the hello that follows a lost response. -/
theorem lost_response_stays_lost :
    ¬ ∀ c i n, Unanswered oneClient (run (step oneClient plainKx.manager) (start oneClient .init)
        lostResponse) c i n → ∀ input, Resends oneClient plainKx (fun _ => True)
      (run (step oneClient plainKx.manager) (start oneClient .init) lostResponse)
      (serve oneClient (run (step oneClient plainKx.manager) (start oneClient .init) lostResponse)
        n input) c := by
  intro h
  have hresends := h _ _ _ unanswered_lostResponse anyInput
  rw [unanswered_lostResponse.serve_eq] at hresends
  exact not_resends_self plainKx _ hresends

/-! ## What a step does to sessions, reservations and threads -/

end Handshake

/-- The thread still has to erase its reservation. -/
def Initializing.live : Initializing → Bool
  | .finished => false
  | _ => true

/-- The thread may still push its session. -/
def Initializing.unpublished : Initializing → Bool
  | .started | .keyed _ _ | .identified _ _ => true
  | _ => false

/-- The session a thread is going to push. -/
def Initializing.pending : Initializing → Option ClientState
  | .keyed _ newState | .identified _ newState => some newState
  | _ => none

namespace Handshake

/-- The rest of the host moves no session and adds none, and leaves the reservations alone. -/
def Removes (world : HostContext → HostContext) : Prop :=
  ∀ ctx : HostContext, ((world ctx).endpoints).Sublist ctx.endpoints ∧
    (world ctx).initializingClients = ctx.initializingClients

theorem removes_expire (now : Int) : Removes (·.expire now) :=
  fun _ => ⟨List.filter_sublist.map _, rfl⟩

/-- Serving an envelope, which includes the time-sync reply and the retransmission. -/
theorem removes_receiveDecrypted (input : HostInput) (target : ClientState) (sh : SecureHeader)
    (decrypted : Mem) : Removes fun ctx => (ctx.receiveDecrypted input target sh decrypted).1 :=
  fun ctx => by
    obtain ⟨hendpoints, hreserved⟩ := ctx.receiveDecrypted_frame input target sh decrypted
    exact ⟨by rw [hendpoints], hreserved⟩

/-- What happens elsewhere on the host removes sessions at most. -/
def Elsewhere (_ : Handshake ι) : HandshakeEvent ι → Prop
  | .meanwhile world => Removes world
  | _ => True

/-- An endpoint that is admitted has got no session since the receiver thread looked. -/
def StillNew (s : Handshake ι) : HandshakeEvent ι → Prop
  | .hostAdmit _ => ∀ sender hp, s.receiving = some (sender, hp) →
    (s.ctx.admission sender).1 = .admitted → s.ctx.hasClient sender = false
  | _ => True

/-- The thread that pushes its session in the step. -/
def publisher (s : Handshake ι) : HandshakeEvent ι → Option Nat
  | .init k (.encoder true) =>
    match s.initThread k with
    | some ⟨_, _, .identified _ _⟩ => some k
    | _ => none
  | _ => none

/-- A step of the handshake, as far as sessions, reservations and threads go. -/
inductive Transition (s : Handshake ι) (e : HandshakeEvent ι) (s' : Handshake ι) : Prop where
  | other (sessions : s'.ctx.endpoints.Sublist s.ctx.endpoints)
      (reserved : s'.ctx.initializingClients = s.ctx.initializingClients)
      (threads : s'.initThread = s.initThread) (spawned : s'.spawned = s.spawned)
      (quiet : publisher s e = none)
  | reserve (sender : Endpoint) (key : Key)
      (room : s.ctx.clients.length + s.ctx.initializingClients.length < 32)
      (unreserved : sender ∉ s.ctx.initializingClients)
      (new : StillNew s e → s.ctx.hasClient sender = false)
      (sessions : s'.ctx.endpoints = s.ctx.endpoints)
      (reserved : s'.ctx.initializingClients = sender :: s.ctx.initializingClients)
      (threads : s'.initThread = (s.setThread s.spawned ⟨sender, key, .started⟩).initThread)
      (spawned : s'.spawned = s.spawned + 1) (quiet : publisher s e = none)
  | advance (k : Nat) (t : InitThread) (stage : Initializing) (thread : s.initThread k = some t)
      (live : t.stage.live = true) (later : stage.unpublished = true → t.stage.unpublished = true)
      (pending : ∀ c, stage.pending = some c → c.endpoint = t.sender ∨
        ∃ c', t.stage.pending = some c' ∧ c.endpoint = c'.endpoint)
      (sessions : s'.ctx.endpoints = s.ctx.endpoints)
      (reserved : s'.ctx.initializingClients = s.ctx.initializingClients)
      (threads : s'.initThread = (s.setStage k t stage).initThread)
      (spawned : s'.spawned = s.spawned) (quiet : publisher s e = none)
  | publish (k : Nat) (t : InitThread) (hostKeyPair : X25519KeyPair) (newState : ClientState)
      (thread : s.initThread k = some t) (stage : t.stage = .identified hostKeyPair newState)
      (sessions : s'.ctx.endpoints = s.ctx.endpoints ++ [newState.endpoint])
      (reserved : s'.ctx.initializingClients = s.ctx.initializingClients)
      (threads : s'.initThread = (s.setStage k t (.pushed hostKeyPair newState)).initThread)
      (spawned : s'.spawned = s.spawned) (publishes : publisher s e = some k)
  | release (k : Nat) (t : InitThread) (thread : s.initThread k = some t)
      (live : t.stage.live = true) (sessions : s'.ctx.endpoints = s.ctx.endpoints)
      (reserved : s'.ctx.initializingClients = s.ctx.initializingClients.erase t.sender)
      (threads : s'.initThread = (s.setStage k t .finished).initThread)
      (spawned : s'.spawned = s.spawned) (quiet : publisher s e = none)

section
variable {p : Participants ι} {cm : CryptoManager} {s : Handshake ι}

theorem attempt_frame (i : ι) (targets : List Endpoint) :
    (attempt p s i targets).ctx = s.ctx ∧ (attempt p s i targets).initThread = s.initThread ∧
      (attempt p s i targets).spawned = s.spawned := by
  induction targets generalizing s with
  | nil => exact ⟨rfl, rfl, rfl⟩
  | cons target targets ih => exact ih (s := s.send _)

/-- A step that leaves the three alone. -/
theorem Transition.same {e : HandshakeEvent ι} {s' : Handshake ι} (hctx : s'.ctx = s.ctx)
    (hthreads : s'.initThread = s.initThread) (hspawned : s'.spawned = s.spawned)
    (hquiet : publisher s e = none) : Transition s e s' :=
  .other (by rw [hctx]) (by rw [hctx]) hthreads hspawned hquiet

theorem clientReceive_transition [DecidableEq ι] (i : ι) (n : Nat) :
    Transition s (.clientReceive i n) (s.clientReceive p i n) := by
  unfold clientReceive
  split
  · split
    · exact .same rfl rfl rfl rfl
    · exact .same rfl rfl rfl rfl
  · exact .same rfl rfl rfl rfl

theorem hostReceive_transition (n : Nat) :
    Transition s (.hostReceive n) (s.hostReceive p n) := by
  unfold hostReceive
  split
  · split
    · exact .same rfl rfl rfl rfl
    · exact .same rfl rfl rfl rfl
  · exact .same rfl rfl rfl rfl

/-- The second lock section rejects, ignores, or reserves the endpoint. -/
theorem admission_cases (ctx : HostContext) (sender : Endpoint) :
    (∃ verdict, ctx.admission sender = (verdict, ctx) ∧ verdict ≠ .admitted) ∨
    (ctx.clients.length + ctx.initializingClients.length < 32 ∧
      sender ∉ ctx.initializingClients ∧ ctx.admission sender =
        (.admitted, { ctx with initializingClients := sender :: ctx.initializingClients })) := by
  unfold HostContext.admission
  split
  · exact .inl ⟨_, rfl, by decide⟩
  · next hroom =>
    split
    · exact .inl ⟨_, rfl, by decide⟩
    · next hnew => exact .inr ⟨Nat.lt_of_not_le hroom, hnew, rfl⟩

theorem hostAdmit_transition (input : HostInput) :
    Transition s (.hostAdmit input) (s.hostAdmit p input) := by
  unfold hostAdmit
  split
  · exact .same rfl rfl rfl rfl
  · next sender hp hreceiving =>
    dsimp only
    rcases admission_cases s.ctx sender with ⟨verdict, heq, hne⟩ | ⟨hroom, hfresh, heq⟩
    · rw [heq]
      cases verdict with
      | tooManyClients => exact .same rfl rfl rfl rfl
      | isInitializing => exact .same rfl rfl rfl rfl
      | admitted => exact absurd rfl hne
    · rw [heq]
      exact .reserve sender _ hroom hfresh
        (fun hnew => hnew sender hp hreceiving (by rw [heq])) rfl rfl rfl rfl rfl

theorem initDerive_transition {k : Nat} {t : InitThread} (ht : s.initThread k = some t)
    (hstage : t.stage = .started) (hostKeyPair : X25519KeyPair) (steadyNow : Int) :
    Transition s (.init k (.derive hostKeyPair steadyNow))
      (s.initDerive cm k t hostKeyPair steadyNow) := by
  unfold initDerive
  dsimp only
  split
  · next rxKey txKey hderive =>
    refine .advance k t (.keyed hostKeyPair _) ht (by rw [hstage]; rfl)
      (fun _ => by rw [hstage]; rfl) ?_ rfl rfl rfl rfl rfl
    intro c hc
    cases hc
    exact .inl rfl
  · exact .release k t ht (by rw [hstage]; rfl) rfl rfl rfl rfl rfl

theorem initStep_transition {k : Nat} {t : InitThread} (ht : s.initThread k = some t)
    (e : InitEvent) : Transition s (.init k e) (s.initStep p cm k t e) := by
  obtain ⟨sender, clientPubKey, stage⟩ := t
  unfold initStep
  split
  · next hstage =>
    subst hstage
    exact .advance k _ .finished ht rfl (fun h => nomatch h) (fun c hc => nomatch hc) rfl rfl rfl
      rfl rfl
  · next hstage => exact initDerive_transition ht hstage _ _
  · next hostKeyPair newState sessionId hstage =>
    subst hstage
    refine .advance k _ (.identified hostKeyPair _) ht rfl (fun _ => rfl) ?_ rfl rfl rfl rfl rfl
    intro c hc
    cases hc
    exact .inr ⟨newState, rfl, rfl⟩
  · next hostKeyPair newState initialized hstage =>
    subst hstage
    cases initialized with
    | true =>
      refine .publish k _ hostKeyPair newState ht rfl ?_ rfl rfl rfl ?_
      · exact List.map_append
      · simp only [publisher, ht]
    | false =>
      exact .advance k _ .rejecting ht rfl (fun h => nomatch h) (fun c hc => nomatch hc) rfl rfl
        rfl rfl rfl
  · next hostKeyPair newState input hstage =>
    subst hstage
    exact .advance k _ .finishing ht rfl (fun h => nomatch h) (fun c hc => nomatch hc) rfl rfl rfl
      rfl rfl
  · next input hstage =>
    subst hstage
    exact .advance k _ .finishing ht rfl (fun h => nomatch h) (fun c hc => nomatch hc) rfl rfl rfl
      rfl rfl
  · next hstage =>
    subst hstage
    exact .release k _ ht rfl rfl rfl rfl rfl rfl
  · next hencoder _ _ _ =>
    refine .same rfl rfl rfl ?_
    unfold publisher
    split
    · next heq =>
      cases heq
      split
      · next hthread =>
        rw [ht] at hthread
        cases hthread
        exact (hencoder _ _ _ rfl rfl).elim
      · rfl
    · rfl

/-- **What a step can do.** -/
theorem step_transition [DecidableEq ι] {e : HandshakeEvent ι} (he : Elsewhere s e) :
    Transition s e (step p cm s e) := by
  cases e with
  | attempt i targets =>
    obtain ⟨hctx, hthreads, hspawned⟩ := attempt_frame (p := p) (s := s) i targets
    exact .same hctx hthreads hspawned rfl
  | clientReceive i n => exact clientReceive_transition i n
  | clientAssign i => exact .same rfl rfl rfl rfl
  | hostReceive n => exact hostReceive_transition n
  | hostAdmit input => exact hostAdmit_transition input
  | init k e =>
    simp only [step]
    split
    · next t ht => exact initStep_transition ht e
    · next ht =>
      refine .same rfl rfl rfl ?_
      cases e with
      | encoder initialized =>
        cases initialized
        · rfl
        · simp only [publisher, ht]
      | _ => rfl
  | meanwhile world => exact .other (he s.ctx).1 (he s.ctx).2 rfl rfl rfl

end

/-! ## Reservations -/

/-- The host before the first handshake, with what others will ever send already in flight. -/
def startAmid (p : Participants ι) (others : List Message) : Handshake ι :=
  { start p .init with network := others }

/-- Every thread that has not ended holds the reservation of its endpoint, alone, and is making a
session for it. -/
structure Reserved (s : Handshake ι) : Prop where
  nodup : s.ctx.initializingClients.Nodup
  spawned : ∀ k t, s.initThread k = some t → k < s.spawned
  held : ∀ k t, s.initThread k = some t → t.stage.live = true →
    t.sender ∈ s.ctx.initializingClients
  alone : ∀ k k' t t', s.initThread k = some t → s.initThread k' = some t' →
    t.stage.live = true → t'.stage.live = true → t.sender = t'.sender → k = k'
  pending : ∀ k t, s.initThread k = some t → ∀ c, t.stage.pending = some c → c.endpoint = t.sender

theorem Initializing.live_of_unpublished {stage : Initializing} (h : stage.unpublished = true) :
    stage.live = true := by
  cases stage with
  | finished => cases h
  | _ => rfl

section
variable {s s' : Handshake ι} {e : HandshakeEvent ι}

theorem reserved_start (p : Participants ι) (others : List Message) :
    Reserved (startAmid p others) where
  nodup := .nil
  spawned _ _ ht := nomatch ht
  held _ _ ht := nomatch ht
  alone _ _ _ _ ht := nomatch ht
  pending _ _ ht := nomatch ht

theorem Reserved.spawned_setThread (h : Reserved s) {k : Nat} {t t₀ : InitThread}
    (ht : s.initThread k = some t₀) (hthreads : s'.initThread = (s.setThread k t).initThread)
    (hspawned : s'.spawned = s.spawned) (j : Nat) (t' : InitThread)
    (hj : s'.initThread j = some t') : j < s'.spawned := by
  rw [hthreads] at hj
  rw [hspawned]
  rcases setThread_cases hj with ⟨rfl, -⟩ | ⟨-, hj⟩
  · exact h.spawned j t₀ ht
  · exact h.spawned j t' hj

theorem Reserved.pending_setThread (h : Reserved s) {k : Nat} {t : InitThread}
    (hpending : ∀ c, t.stage.pending = some c → c.endpoint = t.sender)
    (hthreads : s'.initThread = (s.setThread k t).initThread) (j : Nat) (t' : InitThread)
    (hj : s'.initThread j = some t') (c : ClientState) (hc : t'.stage.pending = some c) :
    c.endpoint = t'.sender := by
  rw [hthreads] at hj
  rcases setThread_cases hj with ⟨-, rfl⟩ | ⟨-, hj⟩
  · exact hpending c hc
  · exact h.pending j t' hj c hc

/-- A thread that has not ended goes on to another stage. -/
theorem Reserved.setStage (h : Reserved s) {k : Nat} {t : InitThread} {stage : Initializing}
    (ht : s.initThread k = some t) (hlive : t.stage.live = true)
    (hpending : ∀ c, stage.pending = some c → c.endpoint = t.sender)
    (hreserved : s'.ctx.initializingClients = s.ctx.initializingClients)
    (hthreads : s'.initThread = (s.setStage k t stage).initThread)
    (hspawned : s'.spawned = s.spawned) : Reserved s' where
  nodup := by
    rw [hreserved]
    exact h.nodup
  spawned := h.spawned_setThread ht hthreads hspawned
  held j t' hj hlive' := by
    rw [hthreads] at hj
    rw [hreserved]
    rcases setThread_cases hj with ⟨-, rfl⟩ | ⟨-, hj⟩
    · exact h.held k t ht hlive
    · exact h.held j t' hj hlive'
  alone j j' t₁ t₂ hj hj' hlive₁ hlive₂ hsame := by
    rw [hthreads] at hj hj'
    rcases setThread_cases hj with ⟨hk, rfl⟩ | ⟨-, hj⟩
    · rcases setThread_cases hj' with ⟨hk', -⟩ | ⟨-, hj'⟩
      · rw [hk, hk']
      · rw [hk]
        exact h.alone k j' t t₂ ht hj' hlive hlive₂ hsame
    · rcases setThread_cases hj' with ⟨hk', rfl⟩ | ⟨-, hj'⟩
      · rw [hk']
        exact h.alone j k t₁ t hj ht hlive₁ hlive hsame
      · exact h.alone j j' t₁ t₂ hj hj' hlive₁ hlive₂ hsame
  pending := h.pending_setThread hpending hthreads

/-- A new thread takes an endpoint that is free. -/
theorem Reserved.reserve (h : Reserved s) {sender : Endpoint} {key : Key}
    (hfree : sender ∉ s.ctx.initializingClients)
    (hreserved : s'.ctx.initializingClients = sender :: s.ctx.initializingClients)
    (hthreads : s'.initThread = (s.setThread s.spawned ⟨sender, key, .started⟩).initThread)
    (hspawned : s'.spawned = s.spawned + 1) : Reserved s' where
  nodup := by
    rw [hreserved]
    exact List.nodup_cons.mpr ⟨hfree, h.nodup⟩
  spawned j t' hj := by
    rw [hthreads] at hj
    rw [hspawned]
    rcases setThread_cases hj with ⟨rfl, -⟩ | ⟨-, hj⟩
    · exact Nat.lt_succ_self _
    · exact Nat.lt_succ_of_lt (h.spawned j t' hj)
  held j t' hj hlive := by
    rw [hthreads] at hj
    rw [hreserved]
    rcases setThread_cases hj with ⟨-, rfl⟩ | ⟨-, hj⟩
    · exact List.mem_cons_self
    · exact List.mem_cons_of_mem _ (h.held j t' hj hlive)
  alone j j' t₁ t₂ hj hj' hlive₁ hlive₂ hsame := by
    rw [hthreads] at hj hj'
    rcases setThread_cases hj with ⟨hk, rfl⟩ | ⟨-, hj⟩
    · rcases setThread_cases hj' with ⟨hk', -⟩ | ⟨-, hj'⟩
      · rw [hk, hk']
      · have hsender : sender = t₂.sender := hsame
        rw [hsender] at hfree
        exact absurd (h.held j' t₂ hj' hlive₂) hfree
    · rcases setThread_cases hj' with ⟨-, rfl⟩ | ⟨-, hj'⟩
      · have hsender : t₁.sender = sender := hsame
        rw [← hsender] at hfree
        exact absurd (h.held j t₁ hj hlive₁) hfree
      · exact h.alone j j' t₁ t₂ hj hj' hlive₁ hlive₂ hsame
  pending := h.pending_setThread (fun _ hc => by cases hc) hthreads

/-- A thread ends and gives its reservation back. -/
theorem Reserved.release (h : Reserved s) {k : Nat} {t : InitThread}
    (ht : s.initThread k = some t) (hlive : t.stage.live = true)
    (hreserved : s'.ctx.initializingClients = s.ctx.initializingClients.erase t.sender)
    (hthreads : s'.initThread = (s.setStage k t .finished).initThread)
    (hspawned : s'.spawned = s.spawned) : Reserved s' where
  nodup := by
    rw [hreserved]
    exact h.nodup.erase _
  spawned := h.spawned_setThread ht hthreads hspawned
  held j t' hj hlive' := by
    rw [hthreads] at hj
    rw [hreserved]
    rcases setThread_cases hj with ⟨-, rfl⟩ | ⟨hne, hj⟩
    · cases hlive'
    · refine (List.mem_erase_of_ne fun hsame => hne ?_).mpr (h.held j t' hj hlive')
      exact h.alone j k t' t hj ht hlive' hlive hsame
  alone j j' t₁ t₂ hj hj' hlive₁ hlive₂ hsame := by
    rw [hthreads] at hj hj'
    rcases setThread_cases hj with ⟨-, rfl⟩ | ⟨-, hj⟩
    · cases hlive₁
    rcases setThread_cases hj' with ⟨-, rfl⟩ | ⟨-, hj'⟩
    · cases hlive₂
    · exact h.alone j j' t₁ t₂ hj hj' hlive₁ hlive₂ hsame
  pending := h.pending_setThread (fun _ hc => by cases hc) hthreads

theorem Reserved.step (h : Reserved s) (ht : Transition s e s') : Reserved s' := by
  cases ht with
  | other sessions reserved threads spawned quiet =>
    exact ⟨by rw [reserved]; exact h.nodup, by rw [threads, spawned]; exact h.spawned,
      by rw [threads, reserved]; exact h.held, by rw [threads]; exact h.alone,
      by rw [threads]; exact h.pending⟩
  | reserve sender key room unreserved new sessions reserved threads spawned quiet =>
    exact h.reserve unreserved reserved threads spawned
  | advance k t stage thread live later pending sessions reserved threads spawned quiet =>
    refine h.setStage thread live (fun c hc => ?_) reserved threads spawned
    rcases pending c hc with hsender | ⟨c', hc', hsame⟩
    · exact hsender
    · rw [hsame]
      exact h.pending k t thread c' hc'
  | publish k t hostKeyPair newState thread stage sessions reserved threads spawned publishes =>
    refine h.setStage thread (by rw [stage]; rfl) ?_ reserved threads spawned
    intro c hc
    cases hc
  | release k t thread live sessions reserved threads spawned quiet =>
    exact h.release thread live reserved threads spawned

end

/-! ## One session for an endpoint -/

theorem hasClient_eq_false {ctx : HostContext} {sender : Endpoint} :
    ctx.hasClient sender = false ↔ sender ∉ ctx.endpoints := by
  unfold HostContext.hasClient HostContext.endpoints
  rw [List.any_eq_false]
  simp only [decide_eq_true_eq, List.mem_map, not_exists, not_and]

/-- The endpoints of the sessions differ, and no thread is going to push a session for one of
them. -/
structure Single (s : Handshake ι) : Prop where
  reserved : Reserved s
  sessions : s.ctx.endpoints.Nodup
  absent : ∀ k t, s.initThread k = some t → t.stage.unpublished = true →
    t.sender ∉ s.ctx.endpoints

section
variable {s s' : Handshake ι} {e : HandshakeEvent ι}

theorem single_start (p : Participants ι) (others : List Message) :
    Single (startAmid p others) where
  reserved := reserved_start p others
  sessions := .nil
  absent _ _ ht := nomatch ht

theorem Single.publish (h : Single s) {k : Nat} {t : InitThread} {hostKeyPair : X25519KeyPair}
    {newState : ClientState} (ht : s.initThread k = some t)
    (hstage : t.stage = .identified hostKeyPair newState) (hnext : Reserved s')
    (hsessions : s'.ctx.endpoints = s.ctx.endpoints ++ [newState.endpoint])
    (hthreads : s'.initThread = (s.setStage k t (.pushed hostKeyPair newState)).initThread) :
    Single s' := by
  have hunpublished : t.stage.unpublished = true := by
    rw [hstage]
    rfl
  have hsender : newState.endpoint = t.sender :=
    h.reserved.pending k t ht newState (by rw [hstage]; rfl)
  have habsent := h.absent k t ht hunpublished
  refine ⟨hnext, ?_, fun j t' hj hlive => ?_⟩
  · rw [hsessions, hsender, List.nodup_append]
    refine ⟨h.sessions, List.pairwise_singleton _ _, fun a ha b hb hab => habsent ?_⟩
    rw [List.mem_singleton.mp hb] at hab
    rw [← hab]
    exact ha
  · rw [hthreads] at hj
    rcases setThread_cases hj with ⟨-, rfl⟩ | ⟨hne, hj⟩
    · cases hlive
    · rw [hsessions, hsender, List.mem_append, List.mem_singleton]
      rintro (hmem | hsame)
      · exact h.absent j t' hj hlive hmem
      · exact hne (h.reserved.alone j k t' t hj ht (Initializing.live_of_unpublished hlive)
          (Initializing.live_of_unpublished hunpublished) hsame)

theorem Single.step (h : Single s) (he : StillNew s e) (ht : Transition s e s') : Single s' := by
  have hnext := h.reserved.step ht
  cases ht with
  | other sessions reserved threads spawned quiet =>
    refine ⟨hnext, h.sessions.sublist sessions, fun j t' hj hlive hmem => ?_⟩
    rw [threads] at hj
    exact h.absent j t' hj hlive (sessions.subset hmem)
  | reserve sender key room unreserved new sessions reserved threads spawned quiet =>
    refine ⟨hnext, by rw [sessions]; exact h.sessions, fun j t' hj hlive => ?_⟩
    rw [sessions]
    rw [threads] at hj
    rcases setThread_cases hj with ⟨-, rfl⟩ | ⟨-, hj⟩
    · exact hasClient_eq_false.mp (new he)
    · exact h.absent j t' hj hlive
  | advance k t stage thread live later pending sessions reserved threads spawned quiet =>
    refine ⟨hnext, by rw [sessions]; exact h.sessions, fun j t' hj hlive => ?_⟩
    rw [sessions]
    rw [threads] at hj
    rcases setThread_cases hj with ⟨-, rfl⟩ | ⟨-, hj⟩
    · exact h.absent k t thread (later hlive)
    · exact h.absent j t' hj hlive
  | publish k t hostKeyPair newState thread stage sessions reserved threads spawned publishes =>
    exact h.publish thread stage hnext sessions threads
  | release k t thread live sessions reserved threads spawned quiet =>
    refine ⟨hnext, by rw [sessions]; exact h.sessions, fun j t' hj hlive => ?_⟩
    rw [sessions]
    rw [threads] at hj
    rcases setThread_cases hj with ⟨-, rfl⟩ | ⟨-, hj⟩
    · cases hlive
    · exact h.absent j t' hj hlive

end

/-- **One session for an endpoint**, in every run in which an endpoint that is admitted has no
session at that moment. -/
theorem one_session_of_stillNew [DecidableEq ι] (p : Participants ι) (cm : CryptoManager)
    (others : List Message) {es : List (HandshakeEvent ι)}
    (helsewhere : Along (step p cm) Elsewhere (startAmid p others) es)
    (hnew : Along (step p cm) StillNew (startAmid p others) es) :
    (run (step p cm) (startAmid p others) es).ctx.endpoints.Nodup := by
  have h : Single (run (step p cm) (startAmid p others) es) :=
    run_invariant (fun s e (hs : Single s) (he : Elsewhere s e ∧ StillNew s e) =>
      hs.step he.2 (step_transition he.1)) (single_start p others) (along_and helsewhere hnew)
  exact h.sessions

/-- Two hellos of the client; the second passes the check while the first is being initialised,
and is admitted before or after the first session is pushed and its reservation erased. -/
def twoHellos (admitLast : Bool) : List (HandshakeEvent Unit) :=
  [.attempt () [⟨[0x31], 5005⟩, ⟨[0x31], 5005⟩], .hostReceive 0, .hostAdmit anyInput,
    .init 0 (.derive (pairOf 2) 0), .init 0 (.identify 7), .hostReceive 1] ++
  (if admitLast then [.init 0 (.encoder true), .init 0 (.respond anyInput), .init 0 .finish,
      .hostAdmit anyInput]
    else [.hostAdmit anyInput, .init 0 (.encoder true), .init 0 (.respond anyInput),
      .init 0 .finish]) ++
  [.init 1 (.derive (pairOf 3) 0), .init 1 (.identify 8), .init 1 (.encoder true)]

/-- No other handler changes the list of sessions meanwhile. -/
theorem elsewhere_twoHellos (admitLast : Bool) :
    Along (step oneClient plainKx.manager) Elsewhere (startAmid oneClient [])
      (twoHellos admitLast) := by
  cases admitLast <;> exact ⟨trivial, trivial, trivial, trivial, trivial, trivial, trivial, trivial,
    trivial, trivial, trivial, trivial, trivial, trivial⟩

theorem one_session_of_stillNew_twoHellos :
    (run (step oneClient plainKx.manager) (startAmid oneClient [])
      (twoHellos false)).ctx.endpoints.Nodup := by
  refine one_session_of_stillNew oneClient plainKx.manager [] (elsewhere_twoHellos false) ?_
  refine ⟨trivial, trivial, ?_, trivial, trivial, trivial, ?_, trivial, trivial, trivial, trivial,
    trivial, trivial, trivial⟩
  · intro sender hp _ _
    rfl
  · intro sender hp _ _
    rfl

/-- The host ends up with two sessions for the client's endpoint. -/
theorem two_sessions_for_endpoint :
    Along (step oneClient plainKx.manager) Elsewhere (startAmid oneClient []) (twoHellos true) ∧
      ¬ (run (step oneClient plainKx.manager) (startAmid oneClient [])
        (twoHellos true)).ctx.endpoints.Nodup :=
  ⟨elsewhere_twoHellos true, by decide⟩

end Handshake

end RemotePlay.Session
