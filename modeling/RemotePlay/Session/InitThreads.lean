import RemotePlay.Session.ConnectionLimit

/-!
# The initialisation threads

The host keeps its initialisation threads in `initThreads`, each with a flag
that the thread sets as the last thing it does. An admission joins and erases
those whose flag is set. A thread has four ways out, and one of them, a failed
key derivation, gives the reservation back but leaves the flag as it is, so
that nobody ever joins the thread. The erase and the store at the end of the
others are two steps.
-/

namespace RemotePlay.Session

open Lib Protocol Crypto Host Client

/-- The handshake with the host's table of initialisation threads, each known by its number. -/
structure InitTable (ι : Type) where
  handshake : Handshake ι
  /-- `m_running`. -/
  running : Bool
  initThreads : List Nat
  /-- The threads that have erased their reservation and still have to set their flag. -/
  storing : Finset Nat
  finishedFlag : Nat → Bool

inductive TableEvent (ι : Type) where
  /-- `m_running` is cleared. -/
  | stop
  | handshake (e : HandshakeEvent ι)
  /-- `finishedFlag->store(true)`. -/
  | store (k : Nat)

namespace InitTable

variable {ι : Type}

/-- `DeriveSessionKeys` succeeds for the host's new key pair and the client's key. -/
def derives (cm : CryptoManager) (hostKeyPair : X25519KeyPair) (clientPubKey : Key) : Bool :=
  (cm.deriveSessionKeys hostKeyPair.toKeyPair.publicKey hostKeyPair.toKeyPair.privateKey
    clientPubKey [] [] true).1

def start (p : Participants ι) (others : List Message) : InitTable ι :=
  ⟨Handshake.startAmid p others, true, [], ∅, fun _ => false⟩

/-- The hello between the two lock sections is going to be admitted. -/
def admits (s : InitTable ι) : HandshakeEvent ι → Bool
  | .hostAdmit _ =>
    match s.handshake.receiving with
    | some (sender, _) => (s.handshake.ctx.admission sender).1 = .admitted
    | none => false
  | _ => false

/-- The thread that erases its reservation at the end of its body. -/
def erasing (s : InitTable ι) : HandshakeEvent ι → Option Nat
  | .init k .finish =>
    match s.handshake.initThread k with
    | some ⟨_, _, .finishing⟩ => some k
    | _ => none
  | _ => none

/-- `initThreads` without the threads whose flag is set, which are joined. -/
def reap (s : InitTable ι) : List Nat := s.initThreads.filter fun k => !s.finishedFlag k

def step [DecidableEq ι] (p : Participants ι) (cm : CryptoManager) (s : InitTable ι) :
    TableEvent ι → InitTable ι
  | .stop => { s with running := false }
  | .store k =>
    if k ∈ s.storing then
      { s with
        storing := s.storing.erase k
        finishedFlag := fun j => if j = k then true else s.finishedFlag j }
    else s
  | .handshake (.init k .stop) =>
    -- `if (!m_running) return;`
    if s.running then s
    else { s with handshake := s.handshake.step p cm (.init k .stop) }
  | .handshake e =>
    { s with
      handshake := s.handshake.step p cm e
      initThreads := if s.admits e then s.reap ++ [s.handshake.spawned] else s.initThreads
      storing := match s.erasing e with
        | some k => insert k s.storing
        | none => s.storing }

/-! ## What a step does -/

/-- No key derivation fails in the step. -/
def Derives (cm : CryptoManager) (s : InitTable ι) : TableEvent ι → Prop
  | .handshake (.init k (.derive hostKeyPair _)) =>
    ∀ t, s.handshake.initThread k = some t → t.stage = .started →
      derives cm hostKeyPair t.clientPubKey = true
  | _ => True

/-- What happens elsewhere on the host removes sessions at most. -/
def Elsewhere (s : InitTable ι) : TableEvent ι → Prop
  | .handshake e => s.handshake.Elsewhere e
  | _ => True

/-- The table is as it was. -/
structure SameTable (s s' : InitTable ι) : Prop where
  running : s'.running = s.running
  initThreads : s'.initThreads = s.initThreads
  storing : s'.storing = s.storing
  finishedFlag : s'.finishedFlag = s.finishedFlag

/-- Thread `k` goes on to `stage`, and no other thread moves. -/
structure Moves (s s' : InitTable ι) (k : Nat) (t : InitThread) (stage : Initializing) : Prop where
  thread : s.handshake.initThread k = some t
  live : t.stage.live = true
  threads : s'.handshake.initThread = (s.handshake.setStage k t stage).initThread
  spawned : s'.handshake.spawned = s.handshake.spawned

inductive Turn (cm : CryptoManager) (s : InitTable ι) (e : TableEvent ι) (s' : InitTable ι) :
    Prop where
  | quiet (table : SameTable s s') (threads : s'.handshake.initThread = s.handshake.initThread)
      (spawned : s'.handshake.spawned = s.handshake.spawned)
      (reserved : s'.handshake.ctx.initializingClients = s.handshake.ctx.initializingClients)
      (ok : Derives cm s e)
  | halt (event : e = .stop) (handshake : s'.handshake = s.handshake)
      (stopped : s'.running = false)
  | accept (sender : Endpoint) (key : Key)
      (admits : ∃ e', e = .handshake e' ∧ s.admits e' = true)
      (room : s.handshake.ctx.initializingClients.length < 32)
      (threads : s'.handshake.initThread =
        (s.handshake.setThread s.handshake.spawned ⟨sender, key, .started⟩).initThread)
      (spawned : s'.handshake.spawned = s.handshake.spawned + 1)
      (reserved : s'.handshake.ctx.initializingClients =
        sender :: s.handshake.ctx.initializingClients)
      (running : s'.running = s.running)
      (table : s'.initThreads = s.reap ++ [s.handshake.spawned])
      (storing : s'.storing = s.storing) (flags : s'.finishedFlag = s.finishedFlag)
      (ok : Derives cm s e)
  | advance (k : Nat) (t : InitThread) (stage : Initializing) (moves : Moves s s' k t stage)
      (live : stage.live = true) (table : SameTable s s')
      (reserved : s'.handshake.ctx.initializingClients = s.handshake.ctx.initializingClients)
      (ok : Derives cm s e)
  /-- A thread finds the host stopped. -/
  | leave (stopped : s.running = false) (running : s'.running = s.running)
  /-- The key derivation fails. -/
  | fail (k : Nat) (t : InitThread) (moves : Moves s s' k t .finished) (table : SameTable s s')
      (reserved : s'.handshake.ctx.initializingClients =
        s.handshake.ctx.initializingClients.erase t.sender)
      (failed : ¬ Derives cm s e)
  | erase (k : Nat) (t : InitThread) (moves : Moves s s' k t .finished)
      (running : s'.running = s.running) (table : s'.initThreads = s.initThreads)
      (storing : s'.storing = insert k s.storing) (flags : s'.finishedFlag = s.finishedFlag)
      (reserved : s'.handshake.ctx.initializingClients =
        s.handshake.ctx.initializingClients.erase t.sender)
      (ok : Derives cm s e)
  | store (k : Nat) (member : k ∈ s.storing) (handshake : s'.handshake = s.handshake)
      (running : s'.running = s.running) (table : s'.initThreads = s.initThreads)
      (storing : s'.storing = s.storing.erase k)
      (flags : s'.finishedFlag = fun j => if j = k then true else s.finishedFlag j)
      (ok : Derives cm s e)

theorem not_stop {k : Nat} {e : InitEvent} (he : e ≠ .stop) :
    ∀ j, (HandshakeEvent.init k e : HandshakeEvent ι) ≠ .init j .stop := by
  rintro j h
  cases h
  exact he rfl

section
variable [DecidableEq ι] {p : Participants ι} {cm : CryptoManager} {s : InitTable ι}

theorem step_handshake {e : HandshakeEvent ι} (he : ∀ k, e ≠ .init k .stop) :
    s.step p cm (.handshake e) = { s with
      handshake := s.handshake.step p cm e
      initThreads := if s.admits e then s.reap ++ [s.handshake.spawned] else s.initThreads
      storing := match s.erasing e with
        | some k => insert k s.storing
        | none => s.storing } := by
  cases e with
  | init k e =>
    cases e with
    | stop => exact absurd rfl (he k)
    | _ => rfl
  | _ => rfl

/-- A handshake step that leaves threads and reservations alone. -/
theorem turn_quiet {e : HandshakeEvent ι} (he : ∀ k, e ≠ .init k .stop)
    (hctx : (s.handshake.step p cm e).ctx.initializingClients = s.handshake.ctx.initializingClients)
    (hthreads : (s.handshake.step p cm e).initThread = s.handshake.initThread)
    (hspawned : (s.handshake.step p cm e).spawned = s.handshake.spawned)
    (hadmits : s.admits e = false) (herasing : s.erasing e = none)
    (hok : Derives cm s (.handshake e)) :
    Turn cm s (.handshake e) (s.step p cm (.handshake e)) := by
  rw [step_handshake he]
  refine .quiet ⟨rfl, ?_, ?_, rfl⟩ hthreads hspawned hctx hok
  · rw [hadmits]
    rfl
  · rw [herasing]

theorem turn_hostAdmit (input : HostInput) :
    Turn cm s (.handshake (.hostAdmit input)) (s.step p cm (.handshake (.hostAdmit input))) := by
  cases hreceiving : s.handshake.receiving with
  | none =>
    refine turn_quiet (by rintro _ ⟨⟩) ?_ ?_ ?_ ?_ rfl trivial
    all_goals simp only [Handshake.step, Handshake.hostAdmit, admits, hreceiving]
  | some hello =>
    obtain ⟨sender, hp⟩ := hello
    rcases Handshake.admission_cases s.handshake.ctx sender with
      ⟨verdict, heq, hne⟩ | ⟨hroom, -, heq⟩
    · have hadmits : s.admits (.hostAdmit input) = false := by
        simp only [admits, hreceiving, heq]
        exact decide_eq_false hne
      refine turn_quiet (by rintro _ ⟨⟩) ?_ ?_ ?_ hadmits rfl trivial <;>
        simp only [Handshake.step, Handshake.hostAdmit, hreceiving, heq] <;>
        cases verdict <;> first | rfl | exact absurd rfl hne
    · have hadmits : s.admits (.hostAdmit input) = true := by
        simp only [admits, hreceiving, heq, decide_true]
      have hstep : s.handshake.step p cm (.hostAdmit input) =
          Handshake.setThread { s.handshake with
            receiving := none
            ctx := { s.handshake.ctx with
              initializingClients := sender :: s.handshake.ctx.initializingClients }
            spawned := s.handshake.spawned + 1 } s.handshake.spawned
            ⟨sender, hp.clientPublicKey.toList, .started⟩ := by
        simp only [Handshake.step, Handshake.hostAdmit, hreceiving, heq]
      rw [step_handshake (by rintro _ ⟨⟩), hstep, if_pos hadmits]
      exact .accept sender _ ⟨_, rfl, hadmits⟩ (by omega) rfl rfl rfl rfl rfl rfl rfl trivial

/-- A thread goes on, and neither ends nor comes near its end. -/
theorem turn_advance {k : Nat} {t : InitThread} {e : InitEvent} (he : e ≠ .stop)
    (stage : Initializing) (ht : s.handshake.initThread k = some t)
    (hlive : t.stage.live = true) (hstage : stage.live = true)
    (hthreads : (s.handshake.step p cm (.init k e)).initThread =
      (s.handshake.setStage k t stage).initThread)
    (hspawned : (s.handshake.step p cm (.init k e)).spawned = s.handshake.spawned)
    (hctx : (s.handshake.step p cm (.init k e)).ctx.initializingClients =
      s.handshake.ctx.initializingClients)
    (herasing : s.erasing (.init k e) = none) (hok : Derives cm s (.handshake (.init k e))) :
    Turn cm s (.handshake (.init k e)) (s.step p cm (.handshake (.init k e))) := by
  rw [step_handshake (not_stop he)]
  refine .advance k t stage ⟨ht, hlive, hthreads, hspawned⟩ hstage ⟨rfl, rfl, ?_, rfl⟩ hctx hok
  rw [herasing]

/-- A thread that has nothing to do with the event. -/
theorem turn_idle {k : Nat} {e : InitEvent} (he : e ≠ .stop)
    (hsame : s.handshake.step p cm (.init k e) = s.handshake)
    (herasing : s.erasing (.init k e) = none) (hok : Derives cm s (.handshake (.init k e))) :
    Turn cm s (.handshake (.init k e)) (s.step p cm (.handshake (.init k e))) :=
  turn_quiet (not_stop he) (by rw [hsame]) (by rw [hsame]) (by rw [hsame]) rfl herasing hok

theorem turn_derive {k : Nat} {t : InitThread} (ht : s.handshake.initThread k = some t)
    (hostKeyPair : X25519KeyPair) (steadyNow : Int) :
    Turn cm s (.handshake (.init k (.derive hostKeyPair steadyNow)))
      (s.step p cm (.handshake (.init k (.derive hostKeyPair steadyNow)))) := by
  obtain ⟨sender, clientPubKey, stage⟩ := t
  have hother : stage ≠ .started →
      Derives cm s (.handshake (.init k (.derive hostKeyPair steadyNow))) := by
    intro hne t' ht' hstage
    cases ht.symm.trans ht'
    exact absurd hstage hne
  cases stage with
  | started =>
    have hderives : Derives cm s (.handshake (.init k (.derive hostKeyPair steadyNow))) ↔
        derives cm hostKeyPair clientPubKey = true := by
      refine ⟨fun h => h _ ht rfl, fun h t' ht' _ => ?_⟩
      cases ht.symm.trans ht'
      exact h
    have hstep : s.handshake.step p cm (.init k (.derive hostKeyPair steadyNow)) =
        s.handshake.initDerive cm k ⟨sender, clientPubKey, .started⟩ hostKeyPair steadyNow := by
      simp only [Handshake.step, ht, Handshake.initStep]
    unfold Handshake.initDerive at hstep
    dsimp only at hstep
    split at hstep
    · next rxKey txKey hkeys =>
      refine turn_advance (by rintro ⟨⟩) (.keyed hostKeyPair _) ht rfl rfl (by rw [hstep]) ?_ ?_ rfl
        (hderives.mpr (congrArg Prod.fst hkeys))
      · rw [hstep]
        rfl
      · rw [hstep]
        rfl
    · next hkeys =>
      refine .fail k _ ⟨ht, rfl, ?_, ?_⟩ ⟨rfl, rfl, rfl, rfl⟩ ?_ fun hok => ?_
      · simp only [step, hstep]
        rfl
      · simp only [step, hstep]
        rfl
      · simp only [step, hstep]
        rfl
      · have hfirst : false = true := (congrArg Prod.fst hkeys).symm.trans (hderives.mp hok)
        cases hfirst
  | _ =>
    refine turn_idle (by rintro ⟨⟩) ?_ rfl (hother (by rintro ⟨⟩))
    simp only [Handshake.step, ht, Handshake.initStep]

theorem turn_init {k : Nat} {t : InitThread} (ht : s.handshake.initThread k = some t)
    {e : InitEvent} (he : e ≠ .stop) :
    Turn cm s (.handshake (.init k e)) (s.step p cm (.handshake (.init k e))) := by
  cases e with
  | stop => exact absurd rfl he
  | derive hostKeyPair steadyNow => exact turn_derive ht hostKeyPair steadyNow
  | identify sessionId =>
    obtain ⟨sender, clientPubKey, stage⟩ := t
    cases stage with
    | keyed hostKeyPair newState =>
      refine turn_advance he (.identified hostKeyPair { newState with sessionId }) ht rfl rfl
        ?_ ?_ ?_ rfl trivial
      all_goals simp only [Handshake.step, ht, Handshake.initStep, Handshake.initIdentify]; rfl
    | _ => exact turn_idle he (by simp only [Handshake.step, ht, Handshake.initStep]) rfl trivial
  | encoder initialized =>
    obtain ⟨sender, clientPubKey, stage⟩ := t
    cases stage with
    | identified hostKeyPair newState =>
      cases initialized with
      | true =>
        refine turn_advance he (.pushed hostKeyPair newState) ht rfl rfl ?_ ?_ ?_ rfl trivial
        all_goals simp only [Handshake.step, ht, Handshake.initStep, Handshake.initPush]; rfl
      | false =>
        refine turn_advance he .rejecting ht rfl rfl ?_ ?_ ?_ rfl trivial
        all_goals simp only [Handshake.step, ht, Handshake.initStep]; rfl
    | _ => exact turn_idle he (by simp only [Handshake.step, ht, Handshake.initStep]) rfl trivial
  | respond input =>
    obtain ⟨sender, clientPubKey, stage⟩ := t
    cases stage with
    | pushed hostKeyPair newState =>
      refine turn_advance he .finishing ht rfl rfl ?_ ?_ ?_ rfl trivial
      all_goals simp only [Handshake.step, ht, Handshake.initStep]; rfl
    | rejecting =>
      refine turn_advance he .finishing ht rfl rfl ?_ ?_ ?_ rfl trivial
      all_goals simp only [Handshake.step, ht, Handshake.initStep]; rfl
    | _ => exact turn_idle he (by simp only [Handshake.step, ht, Handshake.initStep]) rfl trivial
  | finish =>
    obtain ⟨sender, clientPubKey, stage⟩ := t
    cases stage with
    | finishing =>
      have hstep : s.handshake.step p cm (.init k .finish) =
          (s.handshake.setStage k ⟨sender, clientPubKey, .finishing⟩ .finished).eraseInitializing
            sender := by simp only [Handshake.step, ht, Handshake.initStep]
      have herasing : s.erasing (.init k .finish) = some k := by simp only [erasing, ht]
      refine .erase k _ ⟨ht, rfl, ?_, ?_⟩ rfl rfl ?_ rfl ?_ trivial
      · simp only [step, hstep]
        rfl
      · simp only [step, hstep]
        rfl
      · simp only [step, herasing]
      · simp only [step, hstep]
        rfl
    | _ =>
      exact turn_idle he (by simp only [Handshake.step, ht, Handshake.initStep])
        (by simp only [erasing, ht]) trivial

/-- **What a step can do.** -/
theorem step_turn {e : TableEvent ι} (he : Elsewhere s e) : Turn cm s e (s.step p cm e) := by
  cases e with
  | stop => exact .halt rfl rfl rfl
  | store k =>
    by_cases hk : k ∈ s.storing
    · have hstep : s.step p cm (.store k) = { s with
          storing := s.storing.erase k
          finishedFlag := fun j => if j = k then true else s.finishedFlag j } := if_pos hk
      rw [hstep]
      exact .store k hk rfl rfl rfl rfl rfl trivial
    · have hstep : s.step p cm (.store k) = s := if_neg hk
      rw [hstep]
      exact .quiet ⟨rfl, rfl, rfl, rfl⟩ rfl rfl rfl trivial
  | handshake e =>
    cases e with
    | attempt i targets =>
      obtain ⟨hctx, hthreads, hspawned⟩ :=
        Handshake.attempt_frame (p := p) (s := s.handshake) i targets
      exact turn_quiet (by rintro _ ⟨⟩) (by rw [Handshake.step, hctx]) hthreads hspawned rfl rfl
        trivial
    | clientReceive i n =>
      have hframe : s.handshake.clientReceive p i n =
          { s.handshake with client := (s.handshake.clientReceive p i n).client } := by
        unfold Handshake.clientReceive
        split
        · split <;> rfl
        · rfl
      refine turn_quiet (by rintro _ ⟨⟩) ?_ ?_ ?_ rfl rfl trivial <;> rw [Handshake.step, hframe]
    | clientAssign i => exact turn_quiet (by rintro _ ⟨⟩) rfl rfl rfl rfl rfl trivial
    | hostReceive n =>
      have hframe : s.handshake.hostReceive p n =
          { s.handshake with receiving := (s.handshake.hostReceive p n).receiving } := by
        unfold Handshake.hostReceive
        split
        · split <;> rfl
        · rfl
      refine turn_quiet (by rintro _ ⟨⟩) ?_ ?_ ?_ rfl rfl trivial <;> rw [Handshake.step, hframe]
    | hostAdmit input => exact turn_hostAdmit input
    | meanwhile world =>
      exact turn_quiet (by rintro _ ⟨⟩) (he s.handshake.ctx).2 rfl rfl rfl rfl trivial
    | init k e =>
      cases ht : s.handshake.initThread k with
      | none =>
        have hsame : s.handshake.step p cm (.init k e) = s.handshake := by
          simp only [Handshake.step, ht]
        cases e with
        | stop =>
          have hstep : s.step p cm (.handshake (.init k .stop)) = s := by
            simp only [step, hsame, ite_self]
          rw [hstep]
          exact .quiet ⟨rfl, rfl, rfl, rfl⟩ rfl rfl rfl trivial
        | derive hostKeyPair steadyNow =>
          refine turn_idle (by rintro ⟨⟩) hsame rfl fun t ht' _ => ?_
          rw [ht] at ht'
          cases ht'
        | finish => exact turn_idle (by rintro ⟨⟩) hsame (by simp only [erasing, ht]) trivial
        | _ => exact turn_idle (by rintro ⟨⟩) hsame rfl trivial
      | some t =>
        by_cases hstop : e = .stop
        · subst hstop
          cases hrunning : s.running with
          | true =>
            have hstep : s.step p cm (.handshake (.init k .stop)) = s := if_pos hrunning
            rw [hstep]
            exact .quiet ⟨rfl, rfl, rfl, rfl⟩ rfl rfl rfl trivial
          | false =>
            refine .leave hrunning ?_
            simp only [step, hrunning, Bool.false_eq_true, if_false]
        · exact turn_init ht hstop

theorem reserved_step {e : TableEvent ι} (he : Elsewhere s e) (h : s.handshake.Reserved) :
    (s.step p cm e).handshake.Reserved := by
  cases e with
  | stop => exact h
  | store k =>
    simp only [step]
    split <;> exact h
  | handshake e =>
    have hnext : (s.handshake.step p cm e).Reserved := h.step (Handshake.step_transition he)
    cases e with
    | init k e =>
      cases e with
      | stop =>
        simp only [step]
        split
        · exact h
        · exact hnext
      | _ => exact hnext
    | _ => exact hnext

end

/-- `m_running` is not set again. -/
theorem Turn.running {cm : CryptoManager} {s s' : InitTable ι} {e : TableEvent ι}
    (h : Turn cm s e s') (hrunning : s'.running = true) : s.running = true := by
  cases h with
  | halt event handshake stopped =>
    rw [stopped] at hrunning
    cases hrunning
  | quiet table threads spawned reserved ok => rwa [← table.running]
  | advance k t stage moves live table reserved ok => rwa [← table.running]
  | fail k t moves table reserved failed => rwa [← table.running]
  | accept sender key admits room threads spawned reserved running table storing flags ok =>
    rwa [← running]
  | leave stopped running => rwa [← running]
  | erase k t moves running table storing flags reserved ok => rwa [← running]
  | store k member handshake running table storing flags ok => rwa [← running]

/-- A step in which the host is stopped is nothing else. -/
theorem Turn.derives_of_stopped {cm : CryptoManager} {s s' : InitTable ι} {e : TableEvent ι}
    (h : Turn cm s e s') (hup : s.running = true) (hstopped : ¬ s'.running = true) :
    Derives cm s e := by
  cases h with
  | halt event handshake stopped =>
    rw [event]
    trivial
  | fail k t moves table reserved failed => exact absurd (table.running.trans hup) hstopped
  | leave stopped running => exact absurd (running.trans hup) hstopped
  | quiet table threads spawned reserved ok => exact ok
  | accept sender key admits room threads spawned reserved running table storing flags ok =>
    exact ok
  | advance k t stage moves live table reserved ok => exact ok
  | erase k t moves running table storing flags reserved ok => exact ok
  | store k member handshake running table storing flags ok => exact ok

/-! ## Threads, flags and reservations -/

/-- Thread `k` has left its body. -/
structure Ended (s : InitTable ι) (k : Nat) (t : InitThread) : Prop where
  thread : s.handshake.initThread k = some t
  gone : t.stage.live = false
  stored : k ∉ s.storing

/-- A reservation belongs to a thread that has not erased it. -/
def Owned (s : InitTable ι) (sender : Endpoint) : Prop :=
  ∃ k t, s.handshake.initThread k = some t ∧ t.stage.live = true ∧ t.sender = sender

/-- Each thread that has ended has given its reservation back, so that what is reserved for its
endpoint is another thread's, and has set its flag. -/
def CleanedUp (s : InitTable ι) : Prop :=
  ∀ k t, s.Ended k t → s.finishedFlag k = true ∧
    (t.sender ∈ s.handshake.ctx.initializingClients → s.Owned t.sender)

/-- The threads that have ended and are still in the table. -/
def unreaped (s : InitTable ι) : List Nat :=
  s.initThreads.filter fun k =>
    (s.handshake.initThread k).any (fun t => !t.stage.live) && decide (k ∉ s.storing)

/-- What holds of the table while the host runs. -/
structure Sound (s : InitTable ι) : Prop where
  reserved : s.handshake.Reserved
  room : s.handshake.ctx.initializingClients.length ≤ 32
  owned : ∀ sender ∈ s.handshake.ctx.initializingClients, s.Owned sender
  threads : ∀ k, k < s.handshake.spawned → ∃ t, s.handshake.initThread k = some t
  nodup : s.initThreads.Nodup
  known : ∀ k ∈ s.initThreads, k < s.handshake.spawned
  storing : ∀ k ∈ s.storing, s.finishedFlag k = false ∧
    ∃ t, s.handshake.initThread k = some t ∧ t.stage.live = false
  flagged : ∀ k, s.finishedFlag k = true →
    ∃ t, s.handshake.initThread k = some t ∧ t.stage.live = false

theorem sound_start (p : Participants ι) (others : List Message) : (start p others).Sound where
  reserved := Handshake.reserved_start p others
  room := Nat.zero_le _
  owned _ h := nomatch h
  threads _ h := nomatch h
  nodup := .nil
  known _ h := nomatch h
  storing _ h := by simp [start] at h
  flagged _ h := nomatch h

theorem cleanedUp_start (p : Participants ι) (others : List Message) :
    (start p others).CleanedUp := fun _ _ h => nomatch h.thread

section
variable {cm : CryptoManager} {s s' : InitTable ι} {k : Nat} {t : InitThread}
  {stage : Initializing}

theorem Moves.thread_self (h : Moves s s' k t stage) :
    s'.handshake.initThread k = some { t with stage } := by
  rw [h.threads]
  exact if_pos rfl

theorem Moves.thread_other (h : Moves s s' k t stage) {j : Nat} (hj : j ≠ k) :
    s'.handshake.initThread j = s.handshake.initThread j := by
  rw [h.threads]
  exact if_neg hj

theorem Moves.cases (h : Moves s s' k t stage) {j : Nat} {t' : InitThread}
    (hj : s'.handshake.initThread j = some t') :
    j = k ∧ t' = { t with stage } ∨ j ≠ k ∧ s.handshake.initThread j = some t' := by
  rw [h.threads] at hj
  exact Handshake.setThread_cases hj

/-- Threads that are over stay over. -/
theorem Moves.gone (h : Moves s s' k t stage) {j : Nat}
    (hj : ∃ t, s.handshake.initThread j = some t ∧ t.stage.live = false) :
    ∃ t, s'.handshake.initThread j = some t ∧ t.stage.live = false := by
  obtain ⟨t', ht', hover⟩ := hj
  have hne : j ≠ k := by
    rintro rfl
    cases h.thread.symm.trans ht'
    rw [h.live] at hover
    cases hover
  exact ⟨t', (h.thread_other hne).trans ht', hover⟩

theorem Moves.known (h : Moves s s' k t stage)
    (hthreads : ∀ j, j < s.handshake.spawned → ∃ t, s.handshake.initThread j = some t) {j : Nat}
    (hj : j < s'.handshake.spawned) : ∃ t, s'.handshake.initThread j = some t := by
  by_cases hjk : j = k
  · subst hjk
    exact ⟨_, h.thread_self⟩
  · rw [h.thread_other hjk]
    exact hthreads j (h.spawned ▸ hj)

/-- A thread that goes on keeps what it owns. -/
theorem Moves.owned (h : Moves s s' k t stage) (hlive : stage.live = true) {sender : Endpoint}
    (hs : s.Owned sender) : s'.Owned sender := by
  obtain ⟨j, t', ht', hlive', hsender⟩ := hs
  by_cases hjk : j = k
  · subst hjk
    cases h.thread.symm.trans ht'
    exact ⟨j, _, h.thread_self, hlive, hsender⟩
  · exact ⟨j, t', (h.thread_other hjk).trans ht', hlive', hsender⟩

/-- A thread that erases its reservation leaves the others to their threads. -/
theorem Moves.owned_erase (h : Moves s s' k t .finished) (hreserved : s.handshake.Reserved)
    (howned : ∀ sender ∈ s.handshake.ctx.initializingClients, s.Owned sender)
    {sender : Endpoint} (hs : sender ∈ s.handshake.ctx.initializingClients.erase t.sender) :
    s'.Owned sender := by
  obtain ⟨hne, hmem⟩ := (hreserved.nodup.mem_erase_iff).mp hs
  obtain ⟨j, t', ht', hlive', hsender⟩ := howned sender hmem
  have hjk : j ≠ k := by
    rintro rfl
    cases h.thread.symm.trans ht'
    exact hne hsender.symm
  exact ⟨j, t', (h.thread_other hjk).trans ht', hlive', hsender⟩

end

section
variable {cm : CryptoManager} {s s' : InitTable ι} {e : TableEvent ι}

/-- The table takes in the new thread without those it joins. -/
theorem Sound.accept (h : s.Sound) (hnext : s'.handshake.Reserved) {sender : Endpoint} {key : Key}
    (hroom : s.handshake.ctx.initializingClients.length < 32)
    (hthreads : s'.handshake.initThread =
      (s.handshake.setThread s.handshake.spawned ⟨sender, key, .started⟩).initThread)
    (hspawned : s'.handshake.spawned = s.handshake.spawned + 1)
    (hreserved : s'.handshake.ctx.initializingClients =
      sender :: s.handshake.ctx.initializingClients)
    (htable : s'.initThreads = s.reap ++ [s.handshake.spawned])
    (hstoring : s'.storing = s.storing) (hflags : s'.finishedFlag = s.finishedFlag) :
    s'.Sound := by
  have hself : s'.handshake.initThread s.handshake.spawned = some ⟨sender, key, .started⟩ := by
    rw [hthreads]
    exact if_pos rfl
  have hother : ∀ k t, s.handshake.initThread k = some t → s'.handshake.initThread k = some t := by
    intro k t ht
    rw [hthreads]
    exact (if_neg (Nat.ne_of_lt (h.reserved.spawned k t ht))).trans ht
  refine ⟨hnext, ?_, fun from' hmem => ?_, fun k hk => ?_, ?_, fun k hk => ?_, fun k hk => ?_,
    fun k hk => ?_⟩
  · rw [hreserved]
    exact hroom
  · rw [hreserved] at hmem
    rcases List.mem_cons.mp hmem with rfl | hmem
    · exact ⟨_, _, hself, rfl, rfl⟩
    · obtain ⟨k, t, ht, hlive, hsender⟩ := h.owned from' hmem
      exact ⟨k, t, hother k t ht, hlive, hsender⟩
  · rw [hspawned] at hk
    rcases Nat.lt_succ_iff_lt_or_eq.mp hk with hlt | rfl
    · obtain ⟨t, ht⟩ := h.threads k hlt
      exact ⟨t, hother k t ht⟩
    · exact ⟨_, hself⟩
  · rw [htable, List.nodup_append]
    refine ⟨h.nodup.filter _, List.nodup_singleton _, fun a ha b hb hab => ?_⟩
    have hlt := h.known a (List.mem_of_mem_filter ha)
    rw [hab, List.mem_singleton.mp hb] at hlt
    exact Nat.lt_irrefl _ hlt
  · rw [htable, List.mem_append, List.mem_singleton] at hk
    rw [hspawned]
    rcases hk with hk | rfl
    · exact Nat.lt_succ_of_lt (h.known k (List.mem_of_mem_filter hk))
    · exact Nat.lt_succ_self _
  · rw [hstoring] at hk
    obtain ⟨hflag, t, ht, hover⟩ := h.storing k hk
    exact ⟨by rw [hflags, hflag], t, hother k t ht, hover⟩
  · rw [hflags] at hk
    obtain ⟨t, ht, hover⟩ := h.flagged k hk
    exact ⟨t, hother k t ht, hover⟩

/-- A thread moves, and the flags are as they were. -/
theorem Sound.moves (h : s.Sound) (hnext : s'.handshake.Reserved) {k : Nat} {t : InitThread}
    {stage : Initializing} (hmoves : Moves s s' k t stage)
    (hreserved : s'.handshake.ctx.initializingClients.Sublist s.handshake.ctx.initializingClients)
    (howned : ∀ sender ∈ s'.handshake.ctx.initializingClients, s'.Owned sender)
    (htable : s'.initThreads = s.initThreads)
    (hstoring : s'.storing = s.storing ∨ stage.live = false ∧ s'.storing = insert k s.storing)
    (hflags : s'.finishedFlag = s.finishedFlag) : s'.Sound := by
  refine ⟨hnext, hreserved.length_le.trans h.room, howned, fun j hj => hmoves.known h.threads hj,
    by rw [htable]; exact h.nodup, fun j hj => ?_, fun j hj => ?_, fun j hj => ?_⟩
  · rw [htable] at hj
    rw [hmoves.spawned]
    exact h.known j hj
  · have hold : j ∈ s.storing → s'.finishedFlag j = false ∧
        ∃ t, s'.handshake.initThread j = some t ∧ t.stage.live = false := fun hj => by
      obtain ⟨hflag, hover⟩ := h.storing j hj
      exact ⟨by rw [hflags, hflag], hmoves.gone hover⟩
    rcases hstoring with heq | ⟨hover, heq⟩
    · exact hold (heq ▸ hj)
    · rw [heq, Finset.mem_insert] at hj
      rcases hj with rfl | hj
      · refine ⟨?_, _, hmoves.thread_self, hover⟩
        rw [hflags, ← Bool.not_eq_true]
        intro hflag
        obtain ⟨t', ht', hdead⟩ := h.flagged j hflag
        cases hmoves.thread.symm.trans ht'
        rw [hmoves.live] at hdead
        cases hdead
      · exact hold hj
  · rw [hflags] at hj
    exact hmoves.gone (h.flagged j hj)

theorem Sound.turn (h : s.Sound) (ht : Turn cm s e s') (hnext : s'.handshake.Reserved)
    (hrunning : s'.running = true) : s'.Sound := by
  have hup := ht.running hrunning
  cases ht with
  | quiet table threads spawned reserved ok =>
    have howned : ∀ sender, s.Owned sender → s'.Owned sender := fun sender => by
      unfold Owned
      rw [threads]
      exact id
    refine ⟨hnext, by rw [reserved]; exact h.room, fun sender hs => ?_, ?_, ?_, ?_, ?_, ?_⟩
    · rw [reserved] at hs
      exact howned sender (h.owned sender hs)
    · rw [threads, spawned]
      exact h.threads
    · rw [table.initThreads]
      exact h.nodup
    · rw [table.initThreads, spawned]
      exact h.known
    · rw [table.storing, table.finishedFlag, threads]
      exact h.storing
    · rw [table.finishedFlag, threads]
      exact h.flagged
  | halt event handshake stopped =>
    rw [stopped] at hrunning
    cases hrunning
  | leave stopped running =>
    rw [stopped] at hup
    cases hup
  | accept sender key admits room threads spawned reserved running table storing flags ok =>
    exact h.accept hnext room threads spawned reserved table storing flags
  | advance k t stage moves live table reserved ok =>
    refine h.moves hnext moves (by rw [reserved]) (fun sender hs => ?_) table.initThreads
      (.inl table.storing) table.finishedFlag
    rw [reserved] at hs
    exact moves.owned live (h.owned sender hs)
  | fail k t moves table reserved failed =>
    refine h.moves hnext moves (by rw [reserved]; exact List.erase_sublist) (fun sender hs => ?_)
      table.initThreads (.inl table.storing) table.finishedFlag
    rw [reserved] at hs
    exact moves.owned_erase h.reserved h.owned hs
  | erase k t moves running table storing flags reserved ok =>
    refine h.moves hnext moves (by rw [reserved]; exact List.erase_sublist) (fun sender hs => ?_)
      table (.inr ⟨rfl, storing⟩) flags
    rw [reserved] at hs
    exact moves.owned_erase h.reserved h.owned hs
  | store k member handshake running table storing flags ok =>
    have howned : ∀ sender, s.Owned sender → s'.Owned sender := fun sender => by
      unfold Owned
      rw [handshake]
      exact id
    refine ⟨hnext, by rw [handshake]; exact h.room, fun sender hs => ?_, ?_, ?_, ?_,
      fun j hj => ?_, fun j hj => ?_⟩
    · rw [handshake] at hs
      exact howned sender (h.owned sender hs)
    · rw [handshake]
      exact h.threads
    · rw [table]
      exact h.nodup
    · rw [table, handshake]
      exact h.known
    · rw [storing, Finset.mem_erase] at hj
      rw [flags, handshake]
      obtain ⟨hflag, hover⟩ := h.storing j hj.2
      exact ⟨by simp only [hj.1, if_false, hflag], hover⟩
    · rw [handshake]
      rw [flags] at hj
      by_cases hjk : j = k
      · rw [hjk]
        exact (h.storing k member).2
      · simp only [hjk, if_false] at hj
        exact h.flagged j hj

theorem Sound.cleanedUp (h : s.Sound)
    (hflags : ∀ k t, s.Ended k t → s.finishedFlag k = true) : s.CleanedUp :=
  fun k t hended => ⟨hflags k t hended, h.owned t.sender⟩

/-- While the host runs, the step keeps every thread that has ended cleaned up just when no key
derivation fails in it. -/
theorem cleanedUp_turn_iff (h : s.Sound) (hclean : s.CleanedUp) (ht : Turn cm s e s')
    (hnext : s'.handshake.Reserved) (hrunning : s'.running = true) :
    s'.CleanedUp ↔ Derives cm s e := by
  have hup := ht.running hrunning
  have hsound := h.turn ht hnext hrunning
  cases ht with
  | quiet table threads spawned reserved ok =>
    refine iff_of_true (hsound.cleanedUp fun k t hended => ?_) ok
    rw [table.finishedFlag]
    exact (hclean k t ⟨threads ▸ hended.thread, hended.gone, table.storing ▸ hended.stored⟩).1
  | halt event handshake stopped =>
    rw [stopped] at hrunning
    cases hrunning
  | leave stopped running =>
    rw [stopped] at hup
    cases hup
  | accept sender key admits room threads spawned reserved running table storing flags ok =>
    refine iff_of_true (hsound.cleanedUp fun k t hended => ?_) ok
    have hthread := hended.thread
    rw [threads] at hthread
    rcases Handshake.setThread_cases hthread with ⟨-, rfl⟩ | ⟨-, hthread⟩
    · cases hended.gone
    · rw [flags]
      exact (hclean k t ⟨hthread, hended.gone, storing ▸ hended.stored⟩).1
  | advance k t stage moves live table reserved ok =>
    refine iff_of_true (hsound.cleanedUp fun j t' hended => ?_) ok
    rcases moves.cases hended.thread with ⟨-, rfl⟩ | ⟨-, hthread⟩
    · have hover := hended.gone
      rw [live] at hover
      cases hover
    · rw [table.finishedFlag]
      exact (hclean j t' ⟨hthread, hended.gone, table.storing ▸ hended.stored⟩).1
  | fail k t moves table reserved failed =>
    refine iff_of_false (fun hclean' => ?_) failed
    have hdead : ¬ ∃ t', s.handshake.initThread k = some t' ∧ t'.stage.live = false := by
      rintro ⟨t', ht', hover⟩
      cases moves.thread.symm.trans ht'
      rw [moves.live] at hover
      cases hover
    have hstored : k ∉ s'.storing := by
      rw [table.storing]
      exact fun hk => hdead (h.storing k hk).2
    have hflag := (hclean' k _ ⟨moves.thread_self, rfl, hstored⟩).1
    rw [table.finishedFlag] at hflag
    exact hdead (h.flagged k hflag)
  | erase k t moves running table storing flags reserved ok =>
    refine iff_of_true (hsound.cleanedUp fun j t' hended => ?_) ok
    have hstored := hended.stored
    rw [storing, Finset.mem_insert, not_or] at hstored
    rcases moves.cases hended.thread with ⟨hjk, -⟩ | ⟨-, hthread⟩
    · exact absurd hjk hstored.1
    · rw [flags]
      exact (hclean j t' ⟨hthread, hended.gone, hstored.2⟩).1
  | store k member handshake running table storing flags ok =>
    refine iff_of_true (hsound.cleanedUp fun j t' hended => ?_) ok
    rw [flags]
    by_cases hjk : j = k
    · exact if_pos hjk
    · have hstored := hended.stored
      rw [storing, Finset.mem_erase, not_and] at hstored
      simp only [hjk, if_false]
      exact (hclean j t' ⟨handshake ▸ hended.thread, hended.gone, hstored hjk⟩).1

/-! ## The size of the table -/

/-- An admission finds at most `g` threads between their last two steps. -/
def Storing (g : Nat) (s : InitTable ι) : TableEvent ι → Prop
  | .handshake e => s.admits e = true → s.storing.card ≤ g
  | _ => True

/-- The threads that an admission leaves in the table run, or are between their last two steps. -/
theorem length_reap_le (h : s.Sound) (hclean : s.CleanedUp) :
    s.reap.length ≤ s.handshake.ctx.initializingClients.length + s.storing.card := by
  have hsub : s.reap.toFinset ⊆ s.handshake.initializing ∅ ∪ s.storing := by
    intro k hk
    obtain ⟨hmem, hflag⟩ := List.mem_filter.mp (List.mem_toFinset.mp hk)
    obtain ⟨t, ht⟩ := h.threads k (h.known k hmem)
    rw [Finset.mem_union]
    cases hlive : t.stage.live with
    | true =>
      exact .inl ((Handshake.mem_initializing h.reserved).mpr
        ⟨⟨t, ht, hlive⟩, Finset.notMem_empty k⟩)
    | false =>
      refine .inr (by_contra fun hstored => ?_)
      rw [(hclean k t ⟨ht, hlive, hstored⟩).1] at hflag
      cases hflag
  have hnodup : s.reap.Nodup := h.nodup.filter _
  rw [← List.toFinset_card_of_nodup hnodup]
  exact (Finset.card_le_card hsub).trans ((Finset.card_union_le _ _).trans
    (Nat.add_le_add_right (Handshake.card_initializing_le h.reserved) _))

/-- What the table is while no derivation fails: everything that has ended is cleaned up, and there
are no more threads than reservations and stores. -/
structure Swept (g : Nat) (s : InitTable ι) : Prop where
  sound : s.Sound
  cleanedUp : s.CleanedUp
  length : s.initThreads.length ≤ 32 + g

theorem Swept.turn {g : Nat} (h : s.Swept g) (ht : Turn cm s e s')
    (hnext : s'.handshake.Reserved) (hderives : Derives cm s e) (hstoring : Storing g s e)
    (hrunning : s'.running = true) : s'.Swept g := by
  refine ⟨h.sound.turn ht hnext hrunning,
    (cleanedUp_turn_iff h.sound h.cleanedUp ht hnext hrunning).mpr hderives, ?_⟩
  cases ht with
  | quiet table threads spawned reserved ok => exact table.initThreads ▸ h.length
  | halt event handshake stopped =>
    rw [stopped] at hrunning
    cases hrunning
  | leave stopped running =>
    rw [running, stopped] at hrunning
    cases hrunning
  | accept sender key admits room threads spawned reserved running table storing flags ok =>
    obtain ⟨e', rfl, hadmits⟩ := admits
    have hreap := length_reap_le h.sound h.cleanedUp
    have hcard : s.storing.card ≤ g := hstoring hadmits
    rw [table, List.length_append, List.length_singleton]
    omega
  | advance k t stage moves live table reserved ok => exact table.initThreads ▸ h.length
  | fail k t moves table reserved failed => exact table.initThreads ▸ h.length
  | erase k t moves running table storing flags reserved ok => exact table ▸ h.length
  | store k member handshake running table storing flags ok => exact table ▸ h.length

/-- The admission that starts another thread joins every thread that has ended. -/
theorem unreaped_turn (hclean : s.CleanedUp) (ht : Turn cm s e s')
    (hup : s.running = true) (hstarts : s'.handshake.spawned ≠ s.handshake.spawned) :
    s'.unreaped = [] := by
  cases ht with
  | quiet table threads spawned reserved ok => exact absurd spawned hstarts
  | halt event handshake stopped => exact absurd (by rw [handshake]) hstarts
  | leave stopped running =>
    rw [stopped] at hup
    cases hup
  | advance k t stage moves live table reserved ok => exact absurd moves.spawned hstarts
  | fail k t moves table reserved failed => exact absurd moves.spawned hstarts
  | erase k t moves running table storing flags reserved ok => exact absurd moves.spawned hstarts
  | store k member handshake running table storing flags ok =>
    exact absurd (by rw [handshake]) hstarts
  | accept sender key admits room threads spawned reserved running table storing flags ok =>
    refine List.filter_eq_nil_iff.mpr fun k hk hended => ?_
    obtain ⟨hthread, hstored⟩ := Bool.and_eq_true_iff.mp hended
    obtain ⟨t, ht, hover⟩ := (Option.any_eq_true _ _).mp hthread
    rw [threads] at ht
    rcases Handshake.setThread_cases ht with ⟨-, rfl⟩ | ⟨hne, ht⟩
    · cases hover
    · rw [table, List.mem_append, List.mem_singleton] at hk
      have hk := hk.resolve_right hne
      have hflag := (hclean k t ⟨ht, (Bool.not_eq_true' _).mp hover,
        storing ▸ of_decide_eq_true hstored⟩).1
      have hkept := (List.mem_filter.mp hk).2
      rw [hflag] at hkept
      cases hkept

end

section
variable [DecidableEq ι] (p : Participants ι) (cm : CryptoManager) (others : List Message)

/-- While the host runs, no key derivation fails. -/
def DerivesUp (cm : CryptoManager) (s : InitTable ι) (e : TableEvent ι) : Prop :=
  s.running = true → Derives cm s e

variable {p cm others}

theorem swept_step {g : Nat} {s : InitTable ι} {e : TableEvent ι}
    (h : s.running = true → s.Swept g) (he : Elsewhere s e) (hderives : DerivesUp cm s e)
    (hstoring : Storing g s e) :
    (s.step p cm e).running = true → (s.step p cm e).Swept g := by
  intro hrunning
  have hturn : Turn cm s e (s.step p cm e) := step_turn he
  have hup := hturn.running hrunning
  exact (h hup).turn hturn (reserved_step he (h hup).sound.reserved) (hderives hup) hstoring
    hrunning

theorem sound_step {s : InitTable ι} {e : TableEvent ι} (h : s.running = true → s.Sound)
    (he : Elsewhere s e) : (s.step p cm e).running = true → (s.step p cm e).Sound := by
  intro hrunning
  have hturn : Turn cm s e (s.step p cm e) := step_turn he
  have hup := hturn.running hrunning
  exact (h hup).turn hturn (reserved_step he (h hup).reserved) hrunning

theorem cleanedUp_step_iff {s : InitTable ι} {e : TableEvent ι} (h : s.running = true → s.Sound)
    (he : Elsewhere s e) (hclean : s.running = true → s.CleanedUp) :
    ((s.step p cm e).running = true → (s.step p cm e).CleanedUp) ↔ DerivesUp cm s e := by
  have hturn : Turn cm s e (s.step p cm e) := step_turn he
  by_cases hup : s.running = true
  swap
  · exact iff_of_true (fun hrunning => absurd (hturn.running hrunning) hup) fun h => absurd h hup
  unfold DerivesUp
  rw [imp_iff_right hup]
  by_cases hrunning : (s.step p cm e).running = true
  · rw [imp_iff_right hrunning]
    exact cleanedUp_turn_iff (h hup) (hclean hup) hturn
      (reserved_step he (h hup).reserved) hrunning
  · exact iff_of_true (fun h => absurd h hrunning) (hturn.derives_of_stopped hup hrunning)

variable (p cm others)

/-- **Every way out cleans up** just when no key derivation fails while the host runs. Then the next
admission joins every thread that has ended, and if an admission never finds more than `g` threads
between erasing their reservation and setting their flag, at most `32 + g` have ended and are not
joined yet. -/
theorem cleans_up_iff {es : List (TableEvent ι)}
    (hes : Along (step p cm) Elsewhere (start p others) es) :
    ((∀ es', es' <+: es → (run (step p cm) (start p others) es').running = true →
        (run (step p cm) (start p others) es').CleanedUp) ↔
      Along (step p cm) (DerivesUp cm) (start p others) es) ∧
    (Along (step p cm) (DerivesUp cm) (start p others) es →
      let s := run (step p cm) (start p others) es
      s.running = true →
        (∀ e, Elsewhere s e → (s.step p cm e).handshake.spawned ≠ s.handshake.spawned →
          (s.step p cm e).unreaped = []) ∧
        ∀ g, Along (step p cm) (Storing g) (start p others) es → s.unreaped.length ≤ 32 + g) := by
  have hsound := sound_start p others
  have hclean := cleanedUp_start p others
  have hstep : ∀ (s : InitTable ι) (e : TableEvent ι), (s.running = true → s.Sound) →
      Elsewhere s e → (s.step p cm e).running = true → (s.step p cm e).Sound :=
    fun _ _ => sound_step
  have hexact := forall_prefix_iff_along_of
    (P := fun s : InitTable ι => s.running = true → s.CleanedUp) hstep
    (fun _ _ => cleanedUp_step_iff) (fun _ => hsound) (fun _ => hclean) hes
  refine ⟨hexact, fun hderives => ?_⟩
  intro s hup
  have hcleaned : s.CleanedUp := hexact.mpr hderives es List.prefix_rfl hup
  refine ⟨fun e he hstarts => unreaped_turn hcleaned (step_turn he) hup hstarts, fun g hg => ?_⟩
  have hstart : (start p others).running = true → (start p others).Swept g :=
    fun _ => ⟨hsound, hclean, Nat.zero_le _⟩
  have hsweep : ∀ (s : InitTable ι) (e : TableEvent ι), (s.running = true → s.Swept g) →
      (Elsewhere s e ∧ DerivesUp cm s e ∧ Storing g s e) →
      (s.step p cm e).running = true → (s.step p cm e).Swept g :=
    fun _ _ h he => swept_step h he.1 he.2.1 he.2.2
  have hswept : s.Swept g :=
    run_invariant hsweep hstart (along_and hes (along_and hderives hg)) hup
  exact (List.length_filter_le _ _).trans hswept.length

end

/-! ## A flood of degenerate keys -/

/-- A key exchange that refuses the zero key, as it does every point of small order. -/
def strictKx : Sodium :=
  { Handshake.plainKx with
    serverSessionKeys := fun pub _ peer =>
      if peer = List.replicate 32 0 then none else some (peer, pub) }

/-- A hello with the zero key. -/
def zeroHello : HandshakeSecurePacket :=
  ⟨PacketType.handshakeSecure.code, Vector.replicate 32 0, Vector.replicate 32 0⟩

def attacker : Endpoint := ⟨[0x33], 7000⟩

def zeroMessage : Message := ⟨attacker, ⟨[0x31], 5005⟩, .hello zeroHello⟩

/-- The hello is received and admitted, and its thread fails. -/
def failing (k : Nat) : List (TableEvent Unit) :=
  [.handshake (.hostReceive 0), .handshake (.hostAdmit Handshake.anyInput),
    .handshake (.init k (.derive (Handshake.pairOf 2) 0))]

def flood (n : Nat) : List (TableEvent Unit) := (List.range n).flatMap failing

/-- `n` threads have failed, and all are in the table. -/
structure Flooded (n : Nat) (s : InitTable Unit) : Prop where
  running : s.running = true
  network : s.handshake.network = [zeroMessage]
  receiving : s.handshake.receiving = none
  clients : s.handshake.ctx.clients = []
  reserved : s.handshake.ctx.initializingClients = []
  spawned : s.handshake.spawned = n
  initThreads : s.initThreads = List.range n
  storing : s.storing = ∅
  flags : s.finishedFlag = fun _ => false
  threads : ∀ k, k < n → ∃ t, s.handshake.initThread k = some t ∧ t.stage = .finished

theorem derive_zero (pub priv rxKey txKey : Key) :
    strictKx.manager.deriveSessionKeys pub priv zeroHello.clientPublicKey.toList rxKey txKey true =
      (false, Sodium.resize rxKey, Sodium.resize txKey) := by
  have hzero : zeroHello.clientPublicKey.toList = List.replicate 32 0 := by decide
  rw [hzero]
  rfl

/-- One round: the reservation is back, the thread is over, and the table has one thread more. -/
theorem flooded_round {n : Nat} {s : InitTable Unit} (h : Flooded n s) :
    Flooded (n + 1) (run (step Handshake.oneClient strictKx.manager) s (failing n)) := by
  obtain ⟨⟨client, ⟨clients, initializing, q, pool, gps, seqs⟩, receiving, threads, spawned,
    network, created, ids⟩, running, table, storing, flags⟩ := s
  obtain ⟨h1, h2, h3, h4, h5, h6, h7, h8, h9, h10⟩ := h
  simp only at h1 h2 h3 h4 h5 h6 h7 h8 h9 h10
  subst h1 h2 h3 h4 h5 h6 h7 h8 h9
  have hrun : run (step Handshake.oneClient strictKx.manager)
      ⟨⟨client, ⟨[], [], q, pool, gps, seqs⟩, none, threads, spawned, [zeroMessage], created, ids⟩,
        true, List.range spawned, ∅, fun _ => false⟩ (failing spawned) =
      ⟨⟨client, ⟨[], [], q, pool, gps, seqs⟩, none,
        fun j => if j = spawned then some ⟨attacker, zeroHello.clientPublicKey.toList, .finished⟩
          else threads j, spawned + 1, [zeroMessage], created, ids⟩,
        true, List.range (spawned + 1), ∅, fun _ => false⟩ := by
    simp [run, failing, step, Handshake.step, Handshake.hostReceive, zeroMessage,
      Handshake.hostAdmit, HostContext.admission, HostContext.hasClient, admits, erasing, reap,
      Handshake.setThread, Handshake.setStage, Handshake.eraseInitializing, Handshake.initStep,
      Handshake.initDerive, Handshake.oneClient, derive_zero, List.range_succ]
    funext j
    split <;> rfl
  rw [hrun]
  refine ⟨rfl, rfl, rfl, rfl, rfl, rfl, rfl, rfl, rfl, fun k hk => ?_⟩
  rcases Nat.lt_succ_iff_lt_or_eq.mp hk with hlt | rfl
  · obtain ⟨t, ht, hfinished⟩ := h10 k hlt
    exact ⟨t, (if_neg (Nat.ne_of_lt hlt)).trans ht, hfinished⟩
  · exact ⟨_, if_pos rfl, rfl⟩

theorem flooded_run (n : Nat) :
    Flooded n (run (step Handshake.oneClient strictKx.manager)
      (start Handshake.oneClient [zeroMessage]) (flood n)) := by
  induction n with
  | zero => exact ⟨rfl, rfl, rfl, rfl, rfl, rfl, rfl, rfl, rfl, fun _ h => nomatch h⟩
  | succ n ih =>
    have hflood : flood (n + 1) = flood n ++ failing n := by
      simp [flood, List.range_succ]
    rw [hflood, run_append]
    exact flooded_round ih

theorem Flooded.unreaped_eq {n : Nat} {s : InitTable Unit} (h : Flooded n s) :
    s.unreaped = List.range n := by
  unfold unreaped
  rw [h.initThreads, h.storing]
  refine List.filter_eq_self.mpr fun k hk => ?_
  obtain ⟨t, ht, hfinished⟩ := h.threads k (List.mem_range.mp hk)
  rw [ht]
  simp [hfinished, Initializing.live]

/-- After one hello with the zero key its thread has ended with its flag unset, and any number of
such hellos leaves as many threads in the table that nobody joins. -/
theorem degenerate_key_leaks :
    (∃ t, Ended (run (step Handshake.oneClient strictKx.manager)
        (start Handshake.oneClient [zeroMessage]) (flood 1)) 0 t ∧
      (run (step Handshake.oneClient strictKx.manager)
        (start Handshake.oneClient [zeroMessage]) (flood 1)).running = true ∧
      (run (step Handshake.oneClient strictKx.manager)
        (start Handshake.oneClient [zeroMessage]) (flood 1)).finishedFlag 0 = false) ∧
    ∀ n, (run (step Handshake.oneClient strictKx.manager)
      (start Handshake.oneClient [zeroMessage]) (flood n)).unreaped.length = n := by
  refine ⟨?_, fun n => ?_⟩
  · have h := flooded_run 1
    obtain ⟨t, ht, hfinished⟩ := h.threads 0 Nat.zero_lt_one
    refine ⟨t, ⟨ht, by rw [hfinished]; rfl, ?_⟩, h.running, by rw [h.flags]⟩
    rw [h.storing]
    exact Finset.notMem_empty 0
  · rw [(flooded_run n).unreaped_eq, List.length_range]

/-- The theorem at the run of one such hello. -/
theorem cleans_up_flood :
    (∀ es', es' <+: flood 1 →
        (run (step Handshake.oneClient strictKx.manager)
          (start Handshake.oneClient [zeroMessage]) es').running = true →
        (run (step Handshake.oneClient strictKx.manager)
          (start Handshake.oneClient [zeroMessage]) es').CleanedUp) ↔
      Along (step Handshake.oneClient strictKx.manager) (DerivesUp strictKx.manager)
        (start Handshake.oneClient [zeroMessage]) (flood 1) :=
  (cleans_up_iff Handshake.oneClient strictKx.manager [zeroMessage]
    (by simp only [flood, List.range_one, List.flatMap_singleton, failing]
        exact ⟨trivial, trivial, trivial, trivial⟩)).1

end InitTable

end RemotePlay.Session
