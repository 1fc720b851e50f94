import RemotePlay.Session.Admission
import Mathlib.Data.Finset.Card

/-!
# The connection limit

The host admits an endpoint while sessions and reservations together are below
32. A session that has just been pushed counts twice, once as a session and
once by the reservation its thread has not erased yet, so the sum that is
checked is never below the number of sessions and threads still to push one.
-/

namespace RemotePlay.Session

open Lib Protocol Crypto Host Client

namespace Handshake

variable {ι : Type}

/-- The threads that have pushed their session, kept along a run. -/
def notePublisher (s : Handshake ι) (e : HandshakeEvent ι) (published : Finset Nat) : Finset Nat :=
  match publisher s e with
  | some k => insert k published
  | none => published

/-- The threads that are admitted, have not ended and have not pushed their session. -/
def initializing (s : Handshake ι) (published : Finset Nat) : Finset Nat :=
  (Finset.range s.spawned).filter fun k =>
    (s.initThread k).any (·.stage.live) = true ∧ k ∉ published

/-- The limit with what carries it: a thread that has pushed its session will not push another. -/
structure Limited (x : Handshake ι × Finset Nat) : Prop where
  reserved : Reserved x.1
  published : ∀ k ∈ x.2, ∃ t, x.1.initThread k = some t ∧ t.stage.unpublished = false
  limit : x.1.ctx.clients.length + (initializing x.1 x.2).card ≤ 32

section
variable {s s' : Handshake ι} {published : Finset Nat}

theorem mem_initializing (h : Reserved s) {k : Nat} :
    k ∈ initializing s published ↔
      (∃ t, s.initThread k = some t ∧ t.stage.live = true) ∧ k ∉ published := by
  unfold initializing
  rw [Finset.mem_filter, Finset.mem_range, Option.any_eq_true]
  constructor
  · rintro ⟨-, hlive, hk⟩
    exact ⟨hlive, hk⟩
  · rintro ⟨⟨t, ht, hlive⟩, hk⟩
    exact ⟨h.spawned k t ht, ⟨t, ht, hlive⟩, hk⟩

/-- Each of these threads holds a reservation of its own. -/
theorem card_initializing_le (h : Reserved s) :
    (initializing s published).card ≤ s.ctx.initializingClients.length := by
  refine Nat.le_trans ?_ (List.toFinset_card_le s.ctx.initializingClients)
  refine Finset.card_le_card_of_injOn
    (fun k => ((s.initThread k).map InitThread.sender).getD ⟨[], 0⟩) (fun k hk => ?_)
    (fun k hk k' hk' hsame => ?_)
  · obtain ⟨⟨t, ht, hlive⟩, -⟩ := (mem_initializing h).mp hk
    simp only [ht, Option.map_some, Option.getD_some]
    exact List.mem_toFinset.mpr (h.held k t ht hlive)
  · obtain ⟨⟨t, ht, hlive⟩, -⟩ := (mem_initializing h).mp hk
    obtain ⟨⟨t', ht', hlive'⟩, -⟩ := (mem_initializing h).mp hk'
    simp only [ht, ht', Option.map_some, Option.getD_some] at hsame
    exact h.alone k k' t t' ht ht' hlive hlive' hsame

theorem length_clients (s : Handshake ι) : s.ctx.clients.length = s.ctx.endpoints.length :=
  (List.length_map ClientState.endpoint).symm

/-- A step that starts no thread and pushes nothing. -/
theorem Limited.mono (h : Limited (s, published)) (hnext : Reserved s')
    (hsessions : s'.ctx.endpoints.Sublist s.ctx.endpoints)
    (hthreads : ∀ k t', s'.initThread k = some t' → ∃ t, s.initThread k = some t ∧
      (t'.stage.live = true → t.stage.live = true))
    (hpublished : ∀ k ∈ published, ∃ t, s'.initThread k = some t ∧ t.stage.unpublished = false) :
    Limited (s', published) where
  reserved := hnext
  published := hpublished
  limit := by
    have hsub : initializing s' published ⊆ initializing s published := by
      intro k hk
      obtain ⟨⟨t', ht', hlive'⟩, hk⟩ := (mem_initializing hnext).mp hk
      obtain ⟨t, ht, hlive⟩ := hthreads k t' ht'
      exact (mem_initializing h.reserved).mpr ⟨⟨t, ht, hlive hlive'⟩, hk⟩
    have hcard := Finset.card_le_card hsub
    have hlength := hsessions.length_le
    have hlimit := h.limit
    simp only [length_clients] at hlimit ⊢
    omega

/-- A thread that has not ended goes on without pushing a session. -/
theorem Limited.setStage (h : Limited (s, published)) (hnext : Reserved s') {k : Nat}
    {t : InitThread} {stage : Initializing} (ht : s.initThread k = some t)
    (hlive : t.stage.live = true)
    (hlater : stage.unpublished = true → t.stage.unpublished = true)
    (hsessions : s'.ctx.endpoints = s.ctx.endpoints)
    (hthreads : s'.initThread = (s.setStage k t stage).initThread) : Limited (s', published) := by
  refine h.mono hnext (by rw [hsessions]) (fun j t' hj => ?_) (fun j hj => ?_)
  · rw [hthreads] at hj
    rcases setThread_cases hj with ⟨rfl, -⟩ | ⟨-, hj⟩
    · exact ⟨t, ht, fun _ => hlive⟩
    · exact ⟨t', hj, id⟩
  · obtain ⟨t', ht', hpast⟩ := h.published j hj
    rw [hthreads]
    by_cases hjk : j = k
    · subst hjk
      cases ht.symm.trans ht'
      refine ⟨{ t with stage }, if_pos rfl, Bool.eq_false_iff.mpr fun hun => ?_⟩
      rw [hlater hun] at hpast
      cases hpast
    · exact ⟨t', (if_neg hjk).trans ht', hpast⟩

/-- A new thread: the sum that was checked counts every thread without a session. -/
theorem Limited.reserve (h : Limited (s, published)) (hnext : Reserved s') {sender : Endpoint}
    {key : Key} (hroom : s.ctx.clients.length + s.ctx.initializingClients.length < 32)
    (hsessions : s'.ctx.endpoints = s.ctx.endpoints)
    (hthreads : s'.initThread = (s.setThread s.spawned ⟨sender, key, .started⟩).initThread) :
    Limited (s', published) where
  reserved := hnext
  published k hk := by
    obtain ⟨t, ht, hpast⟩ := h.published k hk
    have hne : k ≠ s.spawned := Nat.ne_of_lt (h.reserved.spawned k t ht)
    rw [hthreads]
    exact ⟨t, (if_neg hne).trans ht, hpast⟩
  limit := by
    have hsub : initializing s' published ⊆ insert s.spawned (initializing s published) := by
      intro k hk
      obtain ⟨⟨t', ht', hlive⟩, hk⟩ := (mem_initializing hnext).mp hk
      rw [hthreads] at ht'
      rcases setThread_cases ht' with ⟨rfl, -⟩ | ⟨-, ht'⟩
      · exact Finset.mem_insert_self _ _
      · exact Finset.mem_insert_of_mem ((mem_initializing h.reserved).mpr ⟨⟨t', ht', hlive⟩, hk⟩)
    have hcard := (Finset.card_le_card hsub).trans (Finset.card_insert_le _ _)
    have hreserved : (initializing s published).card ≤ _ := card_initializing_le h.reserved
    simp only [length_clients] at hroom ⊢
    rw [hsessions]
    omega

/-- A thread pushes its session: one session more, one thread less. -/
theorem Limited.publish (h : Limited (s, published)) (hnext : Reserved s') {k : Nat}
    {t : InitThread} {hostKeyPair : X25519KeyPair} {newState : ClientState}
    (ht : s.initThread k = some t) (hstage : t.stage = .identified hostKeyPair newState)
    (hsessions : s'.ctx.endpoints = s.ctx.endpoints ++ [newState.endpoint])
    (hthreads : s'.initThread = (s.setStage k t (.pushed hostKeyPair newState)).initThread) :
    Limited (s', insert k published) := by
  have hnot : k ∉ published := fun hk => by
    obtain ⟨t', ht', hpast⟩ := h.published k hk
    cases ht.symm.trans ht'
    rw [hstage] at hpast
    cases hpast
  have hmem : k ∈ initializing s published :=
    (mem_initializing h.reserved).mpr ⟨⟨t, ht, by rw [hstage]; rfl⟩, hnot⟩
  refine ⟨hnext, fun j hj => ?_, ?_⟩
  · rw [hthreads]
    by_cases hjk : j = k
    · exact ⟨{ t with stage := .pushed hostKeyPair newState }, if_pos hjk, rfl⟩
    · obtain ⟨t', ht', hpast⟩ := h.published j ((Finset.mem_insert.mp hj).resolve_left hjk)
      exact ⟨t', (if_neg hjk).trans ht', hpast⟩
  · have hsub : initializing s' (insert k published) ⊆ (initializing s published).erase k := by
      intro j hj
      obtain ⟨⟨t', ht', hlive⟩, hj⟩ := (mem_initializing hnext).mp hj
      obtain ⟨hjk, hj⟩ := not_or.mp (mt Finset.mem_insert.mpr hj)
      rw [hthreads] at ht'
      rcases setThread_cases ht' with ⟨hk, -⟩ | ⟨-, ht'⟩
      · exact absurd hk hjk
      · exact Finset.mem_erase.mpr ⟨hjk, (mem_initializing h.reserved).mpr ⟨⟨t', ht', hlive⟩, hj⟩⟩
    have hcard := Finset.card_le_card hsub
    have hpos := Finset.card_pos.mpr ⟨k, hmem⟩
    have hlimit := h.limit
    rw [Finset.card_erase_of_mem hmem] at hcard
    simp only [length_clients] at hlimit ⊢
    rw [hsessions, List.length_append, List.length_singleton]
    omega

theorem Limited.step {e : HandshakeEvent ι} (h : Limited (s, published))
    (ht : Transition s e s') : Limited (s', notePublisher s e published) := by
  have hnext := h.reserved.step ht
  unfold notePublisher
  cases ht with
  | other sessions reserved threads spawned quiet =>
    rw [quiet]
    refine h.mono hnext sessions (fun k t hk => ?_) (fun k hk => ?_)
    · rw [threads] at hk
      exact ⟨t, hk, id⟩
    · rw [threads]
      exact h.published k hk
  | reserve sender key room unreserved new sessions reserved threads spawned quiet =>
    rw [quiet]
    exact h.reserve hnext room sessions threads
  | advance k t stage thread live later pending sessions reserved threads spawned quiet =>
    rw [quiet]
    exact h.setStage hnext thread live later sessions threads
  | publish k t hostKeyPair newState thread stage sessions reserved threads spawned publishes =>
    rw [publishes]
    exact h.publish hnext thread stage sessions threads
  | release k t thread live sessions reserved threads spawned quiet =>
    rw [quiet]
    refine h.setStage hnext thread live ?_ sessions threads
    intro hun
    cases hun

end

/-- **Connection limit.** In every run the active sessions and the threads that have been admitted
and have neither ended nor pushed their session are at most 32 together. -/
theorem connection_limit [DecidableEq ι] (p : Participants ι) (cm : CryptoManager)
    (others : List Message) {es : List (HandshakeEvent ι)}
    (hes : Along (step p cm) Elsewhere (startAmid p others) es) :
    let x := run (augment (step p cm) notePublisher) (startAmid p others, ∅) es
    x.1 = run (step p cm) (startAmid p others) es ∧
      x.1.ctx.clients.length + (initializing x.1 x.2).card ≤ 32 := by
  intro x
  have hstart : Limited (startAmid p others, ∅) := by
    refine ⟨reserved_start p others, fun k hk => (nomatch hk), ?_⟩
    simp [initializing, startAmid, start, HostContext.init]
  have h : Limited x := run_invariant (fun x e hx he => hx.step (step_transition he)) hstart
    ((along_augment _ _).mpr hes)
  exact ⟨run_augment _ _ _ es, h.limit⟩

theorem connection_limit_twoHellos :
    (run (augment (step oneClient plainKx.manager) notePublisher) (startAmid oneClient [], ∅)
        (twoHellos true)).1 =
      run (step oneClient plainKx.manager) (startAmid oneClient []) (twoHellos true) ∧
    (run (augment (step oneClient plainKx.manager) notePublisher) (startAmid oneClient [], ∅)
        (twoHellos true)).1.ctx.clients.length +
      (initializing (run (augment (step oneClient plainKx.manager) notePublisher)
          (startAmid oneClient [], ∅) (twoHellos true)).1
        (run (augment (step oneClient plainKx.manager) notePublisher) (startAmid oneClient [], ∅)
          (twoHellos true)).2).card ≤ 32 :=
  connection_limit oneClient plainKx.manager [] (elsewhere_twoHellos true)

end Handshake

end RemotePlay.Session
