import RemotePlay.Session.SessionManager

/-!
# Errors that stop the session

With the error callback of the dashboard installed, a thread that reports an
error runs `stopSession` itself and comes to the joins of `m_hostThread` and
`m_clientThread`. `JoinsSafe` says that no such thread joins itself or a thread
that is joining it. The invariant of a run is that a host which one of its init
threads waits for has no join of an init thread ahead.
-/

namespace RemotePlay.Session

open Lib

def StopPc.target : StopPc → Option Nat
  | joinHost x => some x
  | joinClient x => some x
  | _ => none

/-- The thread that a thread joins. -/
def ThreadPc.joined : ThreadPc → Option Nat
  | reporting pc => pc.target
  | joining x => some x
  | _ => none

/-- A host that goes over its init threads, or will. -/
def ThreadPc.WillJoin : ThreadPc → Prop
  | serving => True
  | joinInits => True
  | joining _ => True
  | _ => False

namespace SessionManager

def awaits (s : SessionManager) (t : Nat) : Option Nat := (s.threads t).pc.joined

/-- A thread that reports an error joins neither itself nor a thread that is joining it. -/
def JoinsSafe (s : SessionManager) : Prop :=
  ∀ t x, (s.threads t).pc.InCallback → s.awaits t = some x → x ≠ t ∧ s.awaits x ≠ some t

/-- Thread `t` may go on to join `x`. -/
structure MayJoin (s : SessionManager) (t x : Nat) : Prop where
  self : x ≠ t
  back : s.awaits x ≠ some t
  init : (s.threads t).kind = .init x → ¬ (s.threads x).pc.WillJoin

/-- Where `stopSession` tests `joinable()` in the callback, the thread object is empty or of a thread
that the reporting thread may join; and a host does not go on to serve while one of its init threads
waits for it. -/
def BranchSafe (s : SessionManager) : SessionEvent → Prop
  | .next t =>
    match (s.threads t).pc with
    | .reporting .testHost => ∀ x, s.hostThread = some x → s.MayJoin t x
    | .reporting .testClient => ∀ x, s.clientThread = some x → s.MayJoin t x
    | _ => True
  | .check t => s.running = true → ∀ u, (s.threads u).kind = .init t → s.awaits u ≠ some t
  | _ => True

/-! ## The invariant -/

structure Waits (s : SessionManager) : Prop where
  safe : s.JoinsSafe
  host : ∀ t x, (s.threads t).pc.InCallback → s.awaits t = some x →
    (s.threads t).kind = .init x → ¬ (s.threads x).pc.WillJoin
  inits : ∀ x y, (s.threads x).pc = .joining y → (s.threads y).kind = .init x
  fresh : ∀ t, s.count ≤ t → s.threads t = ⟨.runHost, .ended⟩

variable {s s' : SessionManager}

theorem Waits.congr (h : Waits s) (hthreads : s'.threads = s.threads)
    (hcount : s'.count = s.count) : Waits s' := by
  obtain ⟨hsafe, hhost, hinits, hfresh⟩ := h
  refine ⟨?_, ?_, ?_, ?_⟩
  · unfold JoinsSafe awaits
    rw [hthreads]
    exact hsafe
  · unfold awaits
    rw [hthreads]
    exact hhost
  · rw [hthreads]
    exact hinits
  · rw [hthreads, hcount]
    exact hfresh

theorem Waits.lt_count (h : Waits s) {t : Nat} (ht : (s.threads t).pc ≠ .ended) : t < s.count := by
  by_contra hge
  rw [h.fresh t (by omega)] at ht
  exact ht rfl

theorem not_ended_of_pc {t : Nat} {pc : ThreadPc} (hpc : (s.threads t).pc = pc)
    (hne : pc ≠ .ended) : (s.threads t).pc ≠ .ended := by
  rwa [hpc]

/-- Thread `t` goes to `pc`. -/
theorem Waits.setPc (h : Waits s) {t : Nat} {pc : ThreadPc} (ht : (s.threads t).pc ≠ .ended)
    (hjoin : ∀ x, pc.InCallback → pc.joined = some x → s.MayJoin t x)
    (hback : ∀ u, (s.threads u).pc.InCallback → s.awaits u = some t → pc.joined ≠ some u)
    (hwill : pc.WillJoin → ∀ u, (s.threads u).pc.InCallback → s.awaits u = some t →
      (s.threads u).kind ≠ .init t)
    (hinit : ∀ y, pc = .joining y → (s.threads y).kind = .init t) : Waits (s.setPc t pc) := by
  have hawaits : ∀ u, u ≠ t → (s.setPc t pc).awaits u = s.awaits u := by
    intro u hu
    unfold awaits
    rw [setPc_pc, if_neg hu]
  refine ⟨fun u x hu hx => ?_, fun u x hu hx hkind => ?_, fun x y hxy => ?_, fun u hu => ?_⟩
  · rw [setPc_pc] at hu
    by_cases hut : u = t
    · subst hut
      rw [if_pos rfl] at hu
      unfold awaits at hx
      rw [setPc_pc, if_pos rfl] at hx
      obtain ⟨hself, hback', -⟩ := hjoin x hu hx
      rw [hawaits x hself]
      exact ⟨hself, hback'⟩
    · rw [if_neg hut] at hu
      rw [hawaits u hut] at hx
      refine ⟨(h.safe u x hu hx).1, ?_⟩
      by_cases hxt : x = t
      · subst hxt
        unfold awaits
        rw [setPc_pc, if_pos rfl]
        exact hback u hu hx
      · rw [hawaits x hxt]
        exact (h.safe u x hu hx).2
  · rw [setPc_pc] at hu ⊢
    rw [setPc_kind] at hkind
    by_cases hut : u = t
    · subst hut
      rw [if_pos rfl] at hu
      unfold awaits at hx
      rw [setPc_pc, if_pos rfl] at hx
      obtain ⟨hself, -, hhost⟩ := hjoin x hu hx
      rw [if_neg hself]
      exact hhost hkind
    · rw [if_neg hut] at hu
      rw [hawaits u hut] at hx
      by_cases hxt : x = t
      · subst hxt
        rw [if_pos rfl]
        exact fun hpc => hwill hpc u hu hx hkind
      · rw [if_neg hxt]
        exact h.host u x hu hx hkind
  · rw [setPc_pc] at hxy
    rw [setPc_kind]
    split at hxy
    · next hxt =>
      rw [hxt]
      exact hinit y hxy
    · exact h.inits x y hxy
  · have hlt := h.lt_count ht
    change s.count ≤ u at hu
    unfold SessionManager.setPc
    dsimp only
    rw [if_neg (by omega)]
    exact h.fresh u hu

/-- Thread `t` goes to a place where it joins nobody and will not. -/
theorem Waits.setPc_idle (h : Waits s) {t : Nat} {pc : ThreadPc}
    (ht : (s.threads t).pc ≠ .ended) (hjoined : pc.joined = none) (hwill : ¬ pc.WillJoin) :
    Waits (s.setPc t pc) := by
  refine h.setPc ht (fun x _ hx => ?_) (fun u _ _ hu => ?_) (fun hw => absurd hw hwill)
    fun y hy => ?_
  · rw [hjoined] at hx
    cases hx
  · rw [hjoined] at hu
    cases hu
  · rw [hy] at hjoined
    cases hjoined

theorem Waits.spawn (h : Waits s) (kind : ThreadKind) : Waits (s.spawn kind) := by
  have hold : ∀ u, u ≠ s.count → (s.spawn kind).threads u = s.threads u := by
    intro u hu
    unfold SessionManager.spawn
    exact if_neg hu
  have hnew : (s.spawn kind).threads s.count = ⟨kind, .opening⟩ := by
    unfold SessionManager.spawn
    exact if_pos rfl
  refine ⟨fun u x hu hx => ?_, fun u x hu hx hkind => ?_, fun x y hxy => ?_, fun u hu => ?_⟩
  · by_cases huc : u = s.count
    · subst huc
      rw [hnew] at hu
      cases hu
    · unfold awaits at hx ⊢
      rw [hold u huc] at hu hx
      refine ⟨(h.safe u x hu hx).1, ?_⟩
      by_cases hxc : x = s.count
      · subst hxc
        rw [hnew]
        exact fun hno => nomatch hno
      · rw [hold x hxc]
        exact (h.safe u x hu hx).2
  · by_cases huc : u = s.count
    · subst huc
      rw [hnew] at hu
      cases hu
    · unfold awaits at hx
      rw [hold u huc] at hu hx hkind
      by_cases hxc : x = s.count
      · subst hxc
        rw [hnew]
        exact id
      · rw [hold x hxc]
        exact h.host u x hu hx hkind
  · by_cases hxc : x = s.count
    · subst hxc
      rw [hnew] at hxy
      cases hxy
    · rw [hold x hxc] at hxy
      have hkind := h.inits x y hxy
      have hyc : y ≠ s.count := by
        rintro rfl
        rw [h.fresh s.count (Nat.le_refl _)] at hkind
        cases hkind
      rw [hold y hyc]
      exact hkind
  · change s.count + 1 ≤ u at hu
    rw [hold u (by omega)]
    exact h.fresh u (by omega)

/-! ## One event -/

theorem Waits.stopStep (h : Waits s) (pc : StopPc) : Waits (s.stopStep pc).1 :=
  h.congr (stopStep_threads s pc) (stopStep_count s pc)

theorem Waits.callerStep (h : Waits s) (cryptoOk : Bool) : Waits (s.callerStep cryptoOk) := by
  unfold SessionManager.callerStep
  split
  · exact h
  · exact h.congr rfl rfl
  · next pc _ _ => exact (h.stopStep pc).congr rfl rfl
  · exact h.congr rfl rfl
  · exact h.congr rfl rfl
  · exact (h.spawn .runHost).congr rfl rfl
  · split <;> exact h.congr rfl rfl
  · exact (h.spawn .runClient).congr rfl rfl
  · split <;> exact h.congr rfl rfl

/-- A join that a thread is at was allowed. -/
theorem Waits.mayJoin (h : Waits s) {t x : Nat} (ht : (s.threads t).pc.InCallback)
    (hx : s.awaits t = some x) : s.MayJoin t x :=
  ⟨(h.safe t x ht hx).1, (h.safe t x ht hx).2, h.host t x ht hx⟩

/-- One statement of `stopSession` in the callback. -/
theorem Waits.report (h : Waits s) {t : Nat} {pc : StopPc}
    (hpc : (s.threads t).pc = .reporting pc) (hok : s.BranchSafe (.next t)) :
    Waits ((s.stopStep pc).1.setPc t
      (if (s.stopStep pc).2 = .done then .failed else .reporting (s.stopStep pc).2)) := by
  have hlive := not_ended_of_pc hpc ThreadPc.noConfusion
  have hlive' : ((s.stopStep pc).1.threads t).pc ≠ .ended := by
    rw [stopStep_threads]
    exact hlive
  have hstop := h.stopStep pc
  simp only [BranchSafe, hpc] at hok
  -- goes to a join of `x`, as the test before it allows
  have hgoes : ∀ (q : StopPc) (x : Nat), q.target = some x → s.MayJoin t x →
      Waits (s.setPc t (.reporting q)) := by
    intro q x hq hmay
    have hx : ∀ y, (ThreadPc.reporting q).joined = some y → y = x := by
      intro y hy
      exact (Option.some.inj (hq.symm.trans hy)).symm
    refine h.setPc hlive (fun y _ hy => ?_) (fun u _ hu hy => ?_) (fun hw => nomatch hw)
      fun y hy => nomatch hy
    · rw [hx y hy]
      exact hmay
    · rw [hx u hy] at hu
      exact hmay.back hu
  cases pc with
  | clear => exact hstop.setPc_idle hlive' rfl id
  | testHost =>
    cases hhost : s.hostThread with
    | none =>
      simp only [SessionManager.stopStep, hhost]
      exact h.setPc_idle hlive rfl id
    | some x =>
      simp only [SessionManager.stopStep, hhost]
      exact hgoes (.joinHost x) x rfl (hok x hhost)
  | joinHost x =>
    have hmay : s.MayJoin t x := h.mayJoin (by rw [hpc]; trivial) (by unfold awaits; rw [hpc]; rfl)
    unfold SessionManager.stopStep
    dsimp only
    split
    · exact Waits.setPc_idle (s := { s with hostThread := none }) (h.congr rfl rfl) hlive rfl id
    · exact hgoes (.joinHost x) x rfl hmay
  | testClient =>
    cases hclient : s.clientThread with
    | none =>
      simp only [SessionManager.stopStep, hclient]
      exact h.setPc_idle hlive rfl id
    | some x =>
      simp only [SessionManager.stopStep, hclient]
      exact hgoes (.joinClient x) x rfl (hok x hclient)
  | joinClient x =>
    have hmay : s.MayJoin t x := h.mayJoin (by rw [hpc]; trivial) (by unfold awaits; rw [hpc]; rfl)
    unfold SessionManager.stopStep
    dsimp only
    split
    · exact Waits.setPc_idle (s := { s with clientThread := none }) (h.congr rfl rfl) hlive rfl id
    · exact hgoes (.joinClient x) x rfl hmay
  | done => exact hstop.setPc_idle hlive' rfl id

theorem Waits.threadStep (h : Waits s) {t : Nat} (hok : s.BranchSafe (.next t)) :
    Waits (s.threadStep t) := by
  unfold SessionManager.threadStep
  split
  · next pc hpc => exact h.report hpc hok
  · next hpc =>
    have hlive := not_ended_of_pc hpc ThreadPc.noConfusion
    split
    · exact h.setPc_idle hlive rfl id
    · exact Waits.setPc_idle (s := { s with running := false }) (h.congr rfl rfl) hlive rfl id
  · next hpc =>
    exact h.setPc_idle (not_ended_of_pc hpc ThreadPc.noConfusion) rfl id
  · next x hpc =>
    have hlive := not_ended_of_pc hpc ThreadPc.noConfusion
    split
    · -- the join of `x` is over; `t` had this loop ahead before
      refine h.setPc hlive (fun y hin => nomatch hin) (fun u _ _ hno => nomatch hno)
        (fun _ u hu hut hkind => h.host u t hu hut hkind ?_) fun y hno => nomatch hno
      rw [hpc]
      trivial
    · exact h
  · exact h

theorem Waits.finish (h : Waits s) (t : Nat) : Waits (s.finish t) := by
  unfold SessionManager.finish
  split
  · next hpc =>
    split
    · exact h
    · refine h.setPc (not_ended_of_pc hpc ThreadPc.noConfusion) (fun y hin => nomatch hin)
        (fun u _ _ hno => nomatch hno)
        (fun _ u hu hut hkind => h.host u t hu hut hkind ?_) fun y hno => nomatch hno
      rw [hpc]
      trivial
  · next hpc =>
    split
    · exact h.setPc_idle (not_ended_of_pc hpc ThreadPc.noConfusion) rfl id
    · exact h
  · exact h
  · next hpc _ =>
    exact h.setPc_idle (not_ended_of_pc hpc ThreadPc.noConfusion) rfl id
  · exact h

theorem Waits.checkRunning (h : Waits s) {t : Nat} (hok : s.BranchSafe (.check t)) :
    Waits (s.checkRunning t) := by
  unfold SessionManager.checkRunning
  split
  · next hpc =>
    have hlive := not_ended_of_pc hpc.2 ThreadPc.noConfusion
    split
    · next hrunning =>
      exact h.setPc hlive (fun y hin => nomatch hin) (fun u _ _ hno => nomatch hno)
        (fun _ u _ hut hkind => hok hrunning u hkind hut) fun y hno => nomatch hno
    · exact h.setPc_idle hlive rfl id
  · exact h

theorem Waits.joinInit (h : Waits s) (t x : Nat) : Waits (s.joinInit t x) := by
  unfold SessionManager.joinInit
  split
  · next hpc =>
    have hlive := not_ended_of_pc hpc.1 ThreadPc.noConfusion
    have hwill : (s.threads t).pc.WillJoin := by
      rw [hpc.1]
      trivial
    refine h.setPc hlive (fun y hin => nomatch hin) (fun u hu hut hux => ?_)
      (fun _ u hu hut hkind => h.host u t hu hut hkind hwill) fun y hy => ?_
    · -- an init thread that waits for `t` would have had no host with joins ahead
      obtain rfl : x = u := Option.some.inj hux
      exact h.host x t hu hut hpc.2 hwill
    · cases hy
      exact hpc.2
  · exact h

theorem Waits.fail (h : Waits s) (t : Nat) : Waits (s.fail t) := by
  unfold SessionManager.fail
  split
  · next hpc =>
    have hlive := not_ended_of_pc hpc ThreadPc.noConfusion
    split <;> exact h.setPc_idle hlive rfl id
  · exact h

theorem waits_step (s : SessionManager) (e : SessionEvent) (h : Waits s) (hok : s.BranchSafe e) :
    Waits (s.step e) := by
  unfold step
  split
  · exact h
  cases e with
  | startSession mode =>
    dsimp only
    split
    · exact h.congr rfl rfl
    · exact h
  | stopSession =>
    dsimp only
    split
    · exact h.congr rfl rfl
    · exact h
  | caller cryptoOk => exact h.callerStep cryptoOk
  | fails t => exact h.fail t
  | next t => exact h.threadStep hok
  | check t => exact h.checkRunning hok
  | initThread t =>
    show Waits (s.startInit t)
    unfold startInit
    split
    · exact h.spawn _
    · exact h
  | finishes t => exact h.finish t
  | joins t x => exact h.joinInit t x

/-! ## Runs -/

theorem waits_init (errorCallback : Bool) : Waits (init errorCallback) where
  safe _ _ ht := nomatch ht
  host _ _ ht := nomatch ht
  inits _ _ h := nomatch h
  fresh _ _ := rfl

/-- **Error reports.** With the callback installed, in a run in which the callback tests `joinable()`
only of thread objects that the reporting thread may join, and no host goes on to serve while an
init thread of it waits for it, no reporting thread joins itself or a thread that is joining it. -/
theorem joins_safe (events : List SessionEvent) (h : Along step BranchSafe (init true) events) :
    JoinsSafe (run step (init true) events) :=
  (run_invariant (fun s e (hs : Waits s) he => waits_step s e hs he) (waits_init true) h).safe

/-- An encoder cannot be initialised while the host still waits for its capture. -/
def encoderFailure : List SessionEvent :=
  [.startSession .host, .caller true, .caller true, .caller true, .caller true, .caller true,
    .initThread 0, .fails 1, .next 1, .next 1]

/-- The init thread joins the host, which is going to leave without joining it. -/
theorem joins_safe_encoderFailure :
    JoinsSafe (run step (init true) encoderFailure) ∧
      (run step (init true) encoderFailure).awaits 1 = some 0 := by
  refine ⟨joins_safe encoderFailure ⟨trivial, trivial, trivial, trivial, trivial, trivial, trivial,
    trivial, trivial, fun x hx => ?_, trivial⟩, by decide⟩
  obtain rfl : 0 = x := Option.some.inj hx
  exact ⟨by decide, by decide, fun _ => id⟩

/-- The host cannot bind and reports it. -/
def bindFailure : List SessionEvent :=
  [.startSession .host, .caller true, .caller true, .caller true, .caller true, .caller true,
    .fails 0, .next 0, .next 0]

/-- It comes to the join of itself. -/
theorem host_joins_itself : ¬ ∀ events : List SessionEvent,
    JoinsSafe (run step (init true) events) := by
  intro h
  exact (h bindFailure 0 0 trivial (by decide)).1 rfl

end SessionManager

end RemotePlay.Session
