import RemotePlay.Session.SessionManager

/-!
# Restarting a session

`startSession` and `stopSession` are called one after the other while the
session threads end when they like; with an error callback a thread that
reports an error runs `stopSession` too. The record keeps when a thread object
was launched, when `stopSession` had joined it and when `stopSession` returned;
a thread object is joinable exactly when it was launched and neither has
happened since, whatever `m_running` says. A thread that joins itself stays in
that join; where `join` throws instead, the process and with it the run end there.
-/

namespace RemotePlay.Session

open Lib

inductive Role where
  | host
  | client
  deriving DecidableEq

inductive SessionRecord where
  /-- A new thread was stored in the thread object of the role. -/
  | launched (role : Role)
  /-- `stopSession` has joined the thread object of the role. -/
  | joined (role : Role)
  /-- `stopSession` has returned; what `joinable()` says then. -/
  | stopped (host client : Bool)

/-- A thread of the role was launched, and `stopSession` has neither joined it nor returned since. The
record has the latest entry first. -/
def unstopped (role : Role) : List SessionRecord → Bool
  | [] => false
  | .launched r :: log => r = role || unstopped role log
  | .joined r :: log => r ≠ role && unstopped role log
  | .stopped _ _ :: _ => false

namespace SessionManager

/-- What a join of `stopSession` adds to the record. -/
def joinNote (s : SessionManager) (log : List SessionRecord) : StopPc → List SessionRecord
  | .joinHost x => if s.Ended x then .joined .host :: log else log
  | .joinClient x => if s.Ended x then .joined .client :: log else log
  | _ => log

/-- What a statement of `stopSession` adds to the record, on whatever thread it runs. -/
def stopNote (s : SessionManager) (pc : StopPc) (log : List SessionRecord) : List SessionRecord :=
  if (s.stopStep pc).2 = .done then
    .stopped (s.stopStep pc).1.hostThread.isSome (s.stopStep pc).1.clientThread.isSome ::
      s.joinNote log pc
  else s.joinNote log pc

/-- What the caller's next statement adds to the record. -/
def callerNote (s : SessionManager) (log : List SessionRecord) : List SessionRecord :=
  match s.caller with
  | .stop pc _ => s.stopNote pc log
  | .storeHost _ _ => if s.hostThread.isSome then log else .launched .host :: log
  | .storeClient _ => if s.clientThread.isSome then log else .launched .client :: log
  | _ => log

/-- And the next statement of thread `t`. -/
def threadNote (s : SessionManager) (t : Nat) (log : List SessionRecord) : List SessionRecord :=
  match (s.threads t).pc with
  | .reporting pc => s.stopNote pc log
  | _ => log

def note (s : SessionManager) (e : SessionEvent) (log : List SessionRecord) :
    List SessionRecord :=
  match e with
  | .caller _ => if s.terminated then log else s.callerNote log
  | .next t => if s.terminated then log else s.threadNote t log
  | _ => log

/-- What a caller may expect: the process is not terminated, and nothing is joinable when
`stopSession` returns. -/
structure Safe (x : SessionManager × List SessionRecord) : Prop where
  alive : x.1.terminated = false
  stopped : ∀ host client, .stopped host client ∈ x.2 → host = false ∧ client = false

/-- Where `startSession` stores a thread, `stopSession` has returned or joined since the last one of
its role was launched; and where the error callback's `stopSession` returns, that goes for the host
thread, which `startSession` may have launched behind its back. -/
def StopsFirst (x : SessionManager × List SessionRecord) : SessionEvent → Prop
  | .caller _ =>
    match x.1.caller with
    | .storeHost _ _ => unstopped .host x.2 = false
    | .storeClient _ => unstopped .client x.2 = false
    | _ => True
  | .next t =>
    match (x.1.threads t).pc with
    | .reporting pc => (x.1.stopStep pc).2 = .done → unstopped .host x.2 = false
    | _ => True
  | _ => True

/-! ## stopSession -/

/-- The thread objects agree with the record. -/
structure Recorded (s : SessionManager) (log : List SessionRecord) : Prop where
  host : s.hostThread.isSome = unstopped .host log
  client : s.clientThread.isSome = unstopped .client log
  stopped : ∀ host client, .stopped host client ∈ log → host = false ∧ client = false

variable {s s' : SessionManager} {log : List SessionRecord}

theorem Recorded.congr (h : Recorded s log) (hhost : s'.hostThread = s.hostThread)
    (hclient : s'.clientThread = s.clientThread) : Recorded s' log where
  host := by rw [hhost, h.host]
  client := by rw [hclient, h.client]
  stopped := h.stopped

/-- `stopSession` returns with both thread objects empty. -/
theorem Recorded.returns (h : Recorded s log) (hhost : s.hostThread = none)
    (hclient : s.clientThread = none) :
    Recorded s (.stopped s.hostThread.isSome s.clientThread.isSome :: log) where
  host := by rw [hhost]; rfl
  client := by rw [hclient]; rfl
  stopped host client hmem := by
    rcases List.mem_cons.mp hmem with heq | hmem
    · rw [hhost, hclient] at heq
      cases heq
      exact ⟨rfl, rfl⟩
    · exact h.stopped host client hmem

theorem Recorded.joinHost (h : Recorded s log) :
    Recorded { s with hostThread := none } (.joined .host :: log) where
  host := rfl
  client := h.client
  stopped host client hmem := h.stopped host client (List.mem_of_ne_of_mem (by simp) hmem)

theorem Recorded.joinClient (h : Recorded s log) :
    Recorded { s with clientThread := none } (.joined .client :: log) where
  host := h.host
  client := rfl
  stopped host client hmem := h.stopped host client (List.mem_of_ne_of_mem (by simp) hmem)

/-- **One statement of `stopSession`**, on any thread: if it returns, the host object must be empty
already, and the client object is. -/
theorem Recorded.stop (h : Recorded s log) {pc : StopPc} (hpc : pc ≠ .done)
    (hgone : (s.stopStep pc).2 = .done → s.hostThread = none) :
    Recorded (s.stopStep pc).1 (s.stopNote pc log) := by
  unfold stopNote joinNote
  cases pc with
  | clear => exact h.congr rfl rfl
  | testHost =>
    unfold stopStep
    cases s.hostThread <;> exact h.congr rfl rfl
  | joinHost x =>
    unfold stopStep
    dsimp only
    split
    · exact h.joinHost
    · exact h
  | testClient =>
    unfold stopStep at hgone ⊢
    dsimp only at hgone ⊢
    cases hclient : s.clientThread with
    | none =>
      rw [hclient] at hgone
      simp only [if_true]
      exact h.returns (hgone rfl) hclient
    | some x => exact h
  | joinClient x =>
    unfold stopStep at hgone ⊢
    dsimp only at hgone ⊢
    split
    · next hended =>
      rw [if_pos hended] at hgone
      rw [if_pos rfl]
      exact h.joinClient.returns (hgone rfl) rfl
    · exact h
  | done => exact absurd rfl hpc

/-! ## The threads -/

/-- The caller and the thread objects are the same. -/
structure SameObjects (s s' : SessionManager) : Prop where
  caller : s'.caller = s.caller
  hostThread : s'.hostThread = s.hostThread
  clientThread : s'.clientThread = s.clientThread
  terminated : s'.terminated = s.terminated

theorem SameObjects.refl (s : SessionManager) : SameObjects s s := ⟨rfl, rfl, rfl, rfl⟩

/-- No thread stays behind the last statement of `stopSession`. -/
def Reported (s : SessionManager) : Prop := ∀ t, (s.threads t).pc ≠ .reporting .done

theorem Reported.setPc (h : Reported s) (t : Nat) {pc : ThreadPc} (hpc : pc ≠ .reporting .done) :
    Reported (s.setPc t pc) := by
  intro u
  rw [setPc_pc]
  split
  · exact hpc
  · exact h u

theorem Reported.spawn (h : Reported s) (kind : ThreadKind) : Reported (s.spawn kind) := by
  intro u
  rw [spawn_pc]
  split
  · exact fun hno => nomatch hno
  · exact h u

theorem Reported.congr (h : Reported s) (hthreads : s'.threads = s.threads) : Reported s' := by
  unfold Reported
  rw [hthreads]
  exact h

theorem sameObjects_setPc (s : SessionManager) (t : Nat) (pc : ThreadPc) :
    SameObjects s (s.setPc t pc) := ⟨rfl, rfl, rfl, rfl⟩

/-- A thread outside the error callback. -/
theorem same_threadStep (h : Reported s) {t : Nat} (ht : ¬ (s.threads t).pc.InCallback) :
    SameObjects s (s.threadStep t) ∧ Reported (s.threadStep t) := by
  unfold threadStep
  split
  · next pc hpc =>
    rw [hpc] at ht
    exact absurd trivial ht
  · split
    · exact ⟨sameObjects_setPc s t _, h.setPc t fun hno => nomatch hno⟩
    · exact ⟨⟨rfl, rfl, rfl, rfl⟩, Reported.setPc (s := { s with running := false })
        (h.congr rfl) t fun hno => nomatch hno⟩
  · exact ⟨sameObjects_setPc s t _, h.setPc t fun hno => nomatch hno⟩
  · split
    · exact ⟨sameObjects_setPc s t _, h.setPc t fun hno => nomatch hno⟩
    · exact ⟨.refl s, h⟩
  · exact ⟨.refl s, h⟩

/-- `stopSession` is behind its join of the host thread. -/
def hostJoined : CallerPc → Bool
  | .stop .testClient _ => true
  | .stop (.joinClient _) _ => true
  | _ => false

/-- The thread objects agree with the record, and `stopSession` keeps the host object empty behind
its join. -/
structure Tracked (s : SessionManager) (log : List SessionRecord) : Prop where
  alive : s.terminated = false
  recorded : Recorded s log
  hostGone : hostJoined s.caller = true → s.hostThread = none
  returned : ∀ next, s.caller ≠ .stop .done next
  reported : Reported s

/-- A step that changes neither thread object, inside or outside `stopSession`. -/
theorem Tracked.frame_rule (h : Tracked s log) (halive : s'.terminated = s.terminated)
    (hreported : Reported s') (hhost : s'.hostThread = s.hostThread)
    (hclient : s'.clientThread = s.clientThread)
    (hjoined : hostJoined s'.caller = hostJoined s.caller)
    (hreturned : ∀ next, s'.caller ≠ .stop .done next) : Tracked s' log where
  alive := halive.trans h.alive
  recorded := h.recorded.congr hhost hclient
  hostGone := by
    rw [hhost, hjoined]
    exact h.hostGone
  returned := hreturned
  reported := hreported

theorem afterStop_outside (next : Option Mode) :
    hostJoined (afterStop next) = false ∧ ∀ next', afterStop next ≠ .stop .done next' := by
  cases next <;> exact ⟨rfl, fun _ h => nomatch h⟩

/-- No statement of `stopSession` fills a thread object, or ends the process. -/
theorem stopStep_frame (s : SessionManager) (pc : StopPc) :
    (s.stopStep pc).1.terminated = s.terminated ∧ (s.stopStep pc).1.caller = s.caller ∧
      (s.hostThread = none → (s.stopStep pc).1.hostThread = none) := by
  cases pc with
  | clear => exact ⟨rfl, rfl, id⟩
  | done => exact ⟨rfl, rfl, id⟩
  | testHost =>
    unfold stopStep
    dsimp only
    split <;> exact ⟨rfl, rfl, id⟩
  | testClient =>
    unfold stopStep
    dsimp only
    split <;> exact ⟨rfl, rfl, id⟩
  | joinHost x =>
    unfold stopStep
    dsimp only
    split
    · exact ⟨rfl, rfl, fun _ => rfl⟩
    · exact ⟨rfl, rfl, id⟩
  | joinClient x =>
    unfold stopStep
    dsimp only
    split <;> exact ⟨rfl, rfl, id⟩

/-- Behind the join of the host thread the host object is empty. -/
theorem hostThread_stopStep {pc : StopPc} {next : Option Mode}
    (hgone : hostJoined (.stop pc next) = true → s.hostThread = none)
    (hjoined : hostJoined (.stop (s.stopStep pc).2 next) = true) :
    (s.stopStep pc).1.hostThread = none := by
  cases pc with
  | clear => cases hjoined
  | testHost =>
    unfold stopStep at hjoined ⊢
    dsimp only at hjoined ⊢
    cases hhost : s.hostThread with
    | none => exact hhost
    | some x =>
      rw [hhost] at hjoined
      cases hjoined
  | joinHost x =>
    unfold stopStep at hjoined ⊢
    dsimp only at hjoined ⊢
    split
    · rfl
    · next hrun =>
      rw [if_neg hrun] at hjoined
      cases hjoined
  | testClient => exact (stopStep_frame s _).2.2 (hgone rfl)
  | joinClient x => exact (stopStep_frame s _).2.2 (hgone rfl)
  | done => cases hjoined

/-- `stopSession` returns from behind its join of the host thread. -/
theorem hostJoined_of_returns {pc : StopPc} (hpc : pc ≠ .done) (h : (s.stopStep pc).2 = .done)
    (next : Option Mode) : hostJoined (.stop pc next) = true := by
  cases pc with
  | clear => cases h
  | testHost =>
    unfold stopStep at h
    dsimp only at h
    split at h <;> cases h
  | joinHost x =>
    unfold stopStep at h
    dsimp only at h
    split at h <;> cases h
  | testClient => rfl
  | joinClient x => rfl
  | done => exact absurd rfl hpc

/-- One statement of the caller's `stopSession`. -/
theorem Tracked.stop (h : Tracked s log) {pc : StopPc} {next : Option Mode}
    (hcaller : s.caller = .stop pc next) (cryptoOk : Bool) :
    Tracked (s.callerStep cryptoOk) (s.callerNote log) := by
  have hpc : pc ≠ .done := by
    rintro rfl
    exact h.returned next hcaller
  have hgone : hostJoined (.stop pc next) = true → s.hostThread = none := by
    rw [← hcaller]
    exact h.hostGone
  have hstop := h.recorded.stop hpc fun hdone => hgone (hostJoined_of_returns hpc hdone next)
  have hreported : Reported (s.stopStep pc).1 := h.reported.congr (stopStep_threads s pc)
  unfold callerStep callerNote
  rw [hcaller]
  dsimp only
  refine ⟨(stopStep_frame s pc).1.trans h.alive, hstop.congr rfl rfl, fun hjoined => ?_, ?_,
    hreported.congr rfl⟩
  · dsimp only at hjoined ⊢
    split at hjoined
    · rw [(afterStop_outside next).1] at hjoined
      cases hjoined
    · exact hostThread_stopStep hgone hjoined
  · dsimp only
    split
    · exact (afterStop_outside next).2
    · next hmore =>
      exact fun next' heq => hmore (CallerPc.stop.inj heq).1

/-- The host thread is stored in an object that is not joinable. -/
theorem Tracked.storeHost (h : Tracked s log) {mode : Mode} {x : Nat}
    (hcaller : s.caller = .storeHost mode x) (cryptoOk : Bool)
    (hrecord : unstopped .host log = false) :
    Tracked (s.callerStep cryptoOk) (s.callerNote log) := by
  have hfree : ¬ s.hostThread.isSome = true := by
    rw [h.recorded.host, hrecord]
    decide
  unfold callerStep callerNote
  rw [hcaller]
  dsimp only
  rw [if_neg hfree, if_neg hfree]
  refine ⟨h.alive, ⟨rfl, h.recorded.client, fun c d hmem => ?_⟩, fun hyes => ?_, ?_,
    h.reported.congr rfl⟩
  · exact h.recorded.stopped c d (List.mem_of_ne_of_mem (by simp) hmem)
  · dsimp only at hyes
    split at hyes <;> cases hyes
  · dsimp only
    split <;> exact fun _ hno => nomatch hno

/-- And so is the client thread. -/
theorem Tracked.storeClient (h : Tracked s log) {x : Nat} (hcaller : s.caller = .storeClient x)
    (cryptoOk : Bool) (hrecord : unstopped .client log = false) :
    Tracked (s.callerStep cryptoOk) (s.callerNote log) := by
  have hfree : ¬ s.clientThread.isSome = true := by
    rw [h.recorded.client, hrecord]
    decide
  unfold callerStep callerNote
  rw [hcaller]
  dsimp only
  rw [if_neg hfree, if_neg hfree]
  refine ⟨h.alive, ⟨h.recorded.host, rfl, fun c d hmem => ?_⟩, (fun hyes => nomatch hyes),
    (fun _ hno => nomatch hno), h.reported.congr rfl⟩
  exact h.recorded.stopped c d (List.mem_of_ne_of_mem (by simp) hmem)

/-- **One statement of the caller.** A thread is stored in an object that is not joinable. -/
theorem Tracked.caller (h : Tracked s log) (cryptoOk : Bool)
    (hok : StopsFirst (s, log) (.caller cryptoOk)) :
    Tracked (s.callerStep cryptoOk) (s.callerNote log) := by
  have hreported : ∀ s' : SessionManager, s'.threads = s.threads → Reported s' :=
    fun s' => h.reported.congr
  cases hcaller : s.caller with
  | idle =>
    unfold callerStep callerNote
    rw [hcaller]
    exact h
  | test mode =>
    unfold callerStep callerNote
    rw [hcaller]
    refine h.frame_rule rfl (hreported _ rfl) rfl rfl ?_ ?_
    · rw [hcaller]
      dsimp only
      split <;> rfl
    · dsimp only
      split <;> exact fun _ hno => nomatch hno
  | stop pc next => exact h.stop hcaller cryptoOk
  | crypto mode =>
    unfold callerStep callerNote
    rw [hcaller]
    dsimp only
    refine h.frame_rule rfl (hreported _ rfl) rfl rfl ?_ ?_
    · rw [hcaller]
      cases cryptoOk <;> cases s.errorCallback <;> rfl
    · cases cryptoOk <;> cases s.errorCallback <;> exact fun _ hno => nomatch hno
  | setRunning mode =>
    unfold callerStep callerNote
    rw [hcaller]
    refine h.frame_rule rfl (hreported _ rfl) rfl rfl ?_ ?_
    · rw [hcaller]
      dsimp only
      split <;> rfl
    · dsimp only
      split <;> exact fun _ hno => nomatch hno
  | newHost mode =>
    unfold callerStep callerNote
    rw [hcaller]
    exact h.frame_rule rfl ((h.reported.spawn .runHost).congr rfl) rfl rfl (by rw [hcaller]; rfl)
      (fun _ hno => nomatch hno)
  | storeHost mode x =>
    simp only [StopsFirst, hcaller] at hok
    exact h.storeHost hcaller cryptoOk hok
  | newClient =>
    unfold callerStep callerNote
    rw [hcaller]
    exact h.frame_rule rfl ((h.reported.spawn .runClient).congr rfl) rfl rfl
      (by rw [hcaller]; rfl) (fun _ hno => nomatch hno)
  | storeClient x =>
    simp only [StopsFirst, hcaller] at hok
    exact h.storeClient hcaller cryptoOk hok

/-- **One statement of a thread.** In the error callback it may join a session thread, and return
once the host object is empty. -/
theorem Tracked.thread (h : Tracked s log) (t : Nat) (hok : StopsFirst (s, log) (.next t)) :
    Tracked (s.threadStep t) (s.threadNote t log) := by
  by_cases ht : (s.threads t).pc.InCallback
  swap
  · obtain ⟨hsame, hreported⟩ := same_threadStep h.reported ht
    have hnote : s.threadNote t log = log := by
      unfold threadNote
      split
      · next pc hpc =>
        rw [hpc] at ht
        exact absurd trivial ht
      · rfl
    rw [hnote]
    refine h.frame_rule hsame.terminated hreported hsame.hostThread hsame.clientThread ?_ ?_
    · rw [hsame.caller]
    · rw [hsame.caller]
      exact h.returned
  cases hpc : (s.threads t).pc with
  | reporting pc =>
    have hne : pc ≠ .done := by
      rintro rfl
      exact h.reported t hpc
    simp only [StopsFirst, hpc] at hok
    have hstop := h.recorded.stop hne fun hdone => by
      have hfree := h.recorded.host.trans (hok hdone)
      exact Option.not_isSome_iff_eq_none.mp (by rw [hfree]; decide)
    obtain ⟨halive, hcaller, hnone⟩ := stopStep_frame s pc
    have hreported : Reported (s.stopStep pc).1 := h.reported.congr (stopStep_threads s pc)
    unfold threadStep threadNote
    rw [hpc]
    dsimp only
    refine ⟨halive.trans h.alive, hstop.congr rfl rfl, fun hjoined => ?_, ?_,
      hreported.setPc t ?_⟩
    · exact hnone (h.hostGone (hcaller ▸ hjoined))
    · show ∀ next, (s.stopStep pc).1.caller ≠ _
      rw [hcaller]
      exact h.returned
    · split
      · exact fun hno => nomatch hno
      · next hmore => exact fun heq => hmore (ThreadPc.reporting.inj heq)
  | _ =>
    rw [hpc] at ht
    cases ht

/-- A call of `startSession` or `stopSession`, while no other is running. -/
theorem Tracked.call (h : Tracked s log) (hidle : s.caller = .idle) {pc : CallerPc}
    (hpc : hostJoined pc = false) (hdone : ∀ next, pc ≠ .stop .done next) :
    Tracked { s with caller := pc } log :=
  h.frame_rule rfl (h.reported.congr rfl) rfl rfl (by rw [hidle]; exact hpc) hdone

theorem Tracked.safe (h : Tracked s log) : Safe (s, log) := ⟨h.alive, h.recorded.stopped⟩

theorem mem_joinNote {r : SessionRecord} (h : r ∈ log) (pc : StopPc) : r ∈ s.joinNote log pc := by
  unfold joinNote
  split
  · split
    · exact List.mem_cons_of_mem _ h
    · exact h
  · split
    · exact List.mem_cons_of_mem _ h
    · exact h
  · exact h

theorem mem_stopNote {r : SessionRecord} (h : r ∈ log) (pc : StopPc) : r ∈ s.stopNote pc log := by
  unfold stopNote
  split
  · exact List.mem_cons_of_mem _ (mem_joinNote h pc)
  · exact mem_joinNote h pc

theorem mem_note {s : SessionManager} {e : SessionEvent} {log : List SessionRecord}
    {r : SessionRecord} (h : r ∈ log) : r ∈ s.note e log := by
  unfold note
  split
  · split
    · exact h
    · unfold callerNote
      split
      · exact mem_stopNote h _
      · split
        · exact h
        · exact List.mem_cons_of_mem _ h
      · split
        · exact h
        · exact List.mem_cons_of_mem _ h
      · exact h
  · split
    · exact h
    · unfold threadNote
      split
      · exact mem_stopNote h _
      · exact h
  · exact h

theorem safe_of_step (x : SessionManager × List SessionRecord) (e : SessionEvent)
    (h : Safe (augment step note x e)) : Safe x := by
  refine ⟨?_, fun c d hmem => h.stopped c d (mem_note hmem)⟩
  have halive := h.alive
  change (x.1.step e).terminated = false at halive
  unfold step at halive
  split at halive
  · exact halive
  · next hno => exact Bool.not_eq_true _ ▸ hno

end SessionManager

end RemotePlay.Session
