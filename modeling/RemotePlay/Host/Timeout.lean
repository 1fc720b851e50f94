import RemotePlay.Host.Streaming

/-!
# After the timeout

What is still pushed or sent for a client once the timeout scan has erased it
and the packetizer pass and the receiver step of that moment have ended. Nothing
in the host refers to it any more but its own audio callback, which nobody stops:
it goes on pushing for as long as the sound does. What was in the send queue by
then the sender thread still sends.
-/

namespace RemotePlay.Host

open Lib Protocol Crypto

namespace Streaming

/-- The client has been erased, and the pass and the step in progress then have ended. -/
def Gone (s : Streaming) (c : Nat) : Prop := s.phase c = .erased false false

instance (s : Streaming) (c : Nat) : Decidable (s.Gone c) :=
  inferInstanceAs (Decidable (s.phase c = .erased false false))

/-- What was pushed to the send queue so far, and for which client. -/
def pushes (s : Streaming) : List (Nat × OutgoingPacket) :=
  s.outputs.filterMap fun o => o.2.pushed.map (o.1, ·)

/-- What the sender thread has not popped yet. -/
def waiting (s : Streaming) : List (Nat × OutgoingPacket) := s.pushes.drop s.popped

/-- The client whose work an event is. -/
def worker (s : Streaming) : StreamEvent → Option Nat
  | .packetize _ =>
    match s.packetizing with
    | .fragments c .. => some c
    | _ => none
  | .receive .. =>
    match s.receiving with
    | .serving c .. => some c
    | _ => none
  | .audio c _ => some c
  | _ => none

/-- The callback has a datagram for the send queue, and the queue has room: the host runs, `Encode`
gave data, `udpPool` had a packet at both calls of `acquire`, and `Encrypt` succeeded. -/
structure AudioPushes (s : Streaming) (c : Nat) (input : AudioInput) : Prop where
  alive : s.crashed = false
  running : c < s.made ∧ s.running = true
  sealed : ∃ opus udpPkt securePkt datagram, input.opus = some opus ∧
    input.udpPkt = some udpPkt ∧ input.securePkt = some securePkt ∧
    s.audioDatagram c input udpPkt opus = some datagram
  room : s.sendQueue.length < sendQueueCapacity

variable {s : Streaming} {c : Nat}

/-! ## Who hands out -/

theorem outputs_push (s : Streaming) (c : Nat) (out : OutgoingPacket) :
    (s.push c out).outputs =
      s.outputs ++ if s.sendQueue.length < sendQueueCapacity then [(c, .push out)] else [] := by
  unfold push
  split
  · next h => rw [if_neg (Nat.not_lt_of_le h), List.append_nil]
  · next h => rw [if_pos (Nat.lt_of_not_le h)]

/-- A call of the callback hands out one datagram, or none. -/
theorem outputs_audio (s : Streaming) (c : Nat) (input : AudioInput) :
    (∃ out, (s.audio c input).outputs = s.outputs ++ [(c, .push out)] ∧
      (s.crashed = false → s.AudioPushes c input)) ∨
    (s.audio c input).outputs = s.outputs ∧ ¬ s.AudioPushes c input := by
  unfold audio
  split
  · next hrunning =>
    split
    · next opus udpPkt hopus hudp =>
      dsimp only
      split
      · next hsec =>
        refine .inr ⟨rfl, fun h => ?_⟩
        obtain ⟨_, _, _, _, -, -, hsec', -⟩ := h.sealed
        rw [hsec] at hsec'
        cases hsec'
      · next securePkt hsec =>
        split
        · next hseal =>
          refine .inr ⟨rfl, fun h => ?_⟩
          obtain ⟨_, _, _, _, hopus', hudp', -, hseal'⟩ := h.sealed
          rw [hopus] at hopus'
          rw [hudp] at hudp'
          cases hopus'
          cases hudp'
          rw [hseal] at hseal'
          cases hseal'
        · next datagram hseal =>
          rw [outputs_push]
          by_cases hroom : s.sendQueue.length < sendQueueCapacity
          · exact .inl ⟨_, congrArg (s.outputs ++ ·) (if_pos hroom), fun halive =>
              ⟨halive, hrunning, ⟨opus, udpPkt, securePkt, datagram, hopus, hudp, hsec, hseal⟩,
                hroom⟩⟩
          · exact .inr ⟨(congrArg (s.outputs ++ ·) (if_neg hroom)).trans (List.append_nil _),
              fun h => hroom h.room⟩
    · next hnone =>
      refine .inr ⟨rfl, fun h => ?_⟩
      obtain ⟨opus, udpPkt, _, _, hopus, hudp, -⟩ := h.sealed
      exact hnone opus udpPkt hopus hudp
  · next hstopped => exact .inr ⟨rfl, fun h => hstopped h.running⟩

/-- A step adds outputs only, all of them for `worker`. -/
def Adds (s s' : Streaming) (worker : Option Nat) : Prop :=
  ∃ more, s'.outputs = s.outputs ++ more ∧ ∀ o ∈ more, worker = some o.1

theorem adds_of_eq {s s' : Streaming} {worker : Option Nat} (h : s'.outputs = s.outputs) :
    s.Adds s' worker :=
  ⟨[], h.trans (List.append_nil _).symm, fun _ ho => nomatch ho⟩

theorem fst_of_mem_map {α : Type} {c : Nat} {f : α → Output} {l : List α} {o : Nat × Output}
    (h : o ∈ l.map fun a => (c, f a)) : o.1 = c := by
  obtain ⟨a, -, rfl⟩ := List.mem_map.mp h
  rfl

theorem adds_fragment (s : Streaming) (input : FragmentInput) (c : Nat) (currentFid : UInt32)
    (frame : EncodedPacket) (i : UInt16) (n : Nat) (frames : List EncodedPacket)
    (rest : List Nat) : s.Adds (s.fragment input c currentFid frame i n frames rest) (some c) := by
  unfold fragment
  split
  · exact ⟨_, rfl, fun o ho => by rw [fst_of_mem_map (f := .push) ho]⟩
  · split
    · exact adds_of_eq rfl
    · refine ⟨_, rfl, fun o ho => ?_⟩
      rw [List.mem_singleton.mp ho]

theorem adds_packetize (s : Streaming) (input : FragmentInput) :
    s.Adds (s.packetize input) (s.worker (.packetize input)) := by
  unfold packetize
  split
  · apply adds_of_eq
    split <;> rfl
  · exact adds_of_eq rfl
  · apply adds_of_eq
    unfold pop
    split <;> rfl
  · exact adds_of_eq rfl
  · exact adds_of_eq rfl
  · next c currentFid frame i n frames rest hpc =>
    have hworker : s.worker (.packetize input) = some c := by
      unfold worker
      dsimp only
      rw [hpc]
    rw [hworker]
    exact s.adds_fragment input c currentFid frame i n frames rest
  · exact adds_of_eq rfl

theorem adds_receive (s : Streaming) (input : HostInput) (udpPkt : Option Packet) :
    s.Adds (s.receive input udpPkt) (s.worker (.receive input udpPkt)) := by
  unfold receive
  split
  · next c sender buf hpc =>
    have hworker : s.worker (.receive input udpPkt) = some c := by
      unfold worker
      dsimp only
      rw [hpc]
    dsimp only
    split
    · refine ⟨_, List.append_assoc .., fun o ho => ?_⟩
      rcases List.mem_append.mp ho with ho | ho
      · rw [hworker, fst_of_mem_map (f := .push) ho]
      · rw [hworker, fst_of_mem_map (f := id) ho]
    · exact adds_of_eq rfl
  · exact adds_of_eq rfl

/-- **Every output** is for the client the event works for. -/
theorem outputs_act (s : Streaming) (e : StreamEvent) : s.Adds (s.act e) (s.worker e) := by
  cases e with
  | start | send | stop => exact adds_of_eq rfl
  | publish c =>
    apply adds_of_eq
    change (s.publish c).outputs = _
    unfold publish
    split <;> rfl
  | scan steadyNow =>
    apply adds_of_eq
    change (s.scan steadyNow).outputs = _
    unfold scan
    split
    · split <;> rfl
    · rfl
  | acquireFrame succeeded =>
    apply adds_of_eq
    change (s.acquireFrame succeeded).outputs = _
    unfold acquireFrame
    split <;> rfl
  | encode input =>
    apply adds_of_eq
    change (s.encode input).outputs = _
    unfold encode
    split <;> rfl
  | enqueue =>
    apply adds_of_eq
    change s.enqueue.outputs = _
    unfold enqueue
    split
    · split <;> rfl
    · rfl
  | packetize input => exact s.adds_packetize input
  | lookup sender buf len =>
    apply adds_of_eq
    change (s.lookup sender buf len).outputs = _
    unfold lookup
    split
    · split
      · split <;> rfl
      · rfl
    · rfl
  | receive input udpPkt => exact s.adds_receive input udpPkt
  | audio c input =>
    rcases s.outputs_audio c input with ⟨out, h, -⟩ | ⟨h, -⟩
    · refine ⟨_, h, fun o ho => ?_⟩
      rw [List.mem_singleton.mp ho]
      rfl
    · exact adds_of_eq h

/-! ## Who still refers to a client -/

/-- The clients a packetizer pass has still to do with. -/
def inWork : Packetizing → List Nat
  | .idle => []
  | .pass rest => rest
  | .entry c _ _ rest => c :: rest
  | .fragments c _ _ _ _ _ rest => c :: rest

/-- The references to a client besides its own threads: the list is for clients that are served, and
a pass or a step keeps an erased client only until it ends. -/
structure References (s : Streaming) : Prop where
  made : ∀ c, s.made ≤ c → s.phase c = .starting
  served : ∀ c ∈ s.clients, s.phase c = .served
  pass : ∀ c ∈ inWork s.packetizing,
    s.phase c = .served ∨ ∃ step, s.phase c = .erased true step
  step : ∀ c sender buf, s.receiving = .serving c sender buf →
    s.phase c = .served ∨ ∃ pass, s.phase c = .erased pass true

theorem references_init : init.References where
  made _ _ := rfl
  served _ hc := nomatch hc
  pass _ hc := nomatch hc
  step _ _ _ h := nomatch h

theorem References.of_stays {s' : Streaming} (h : s.References) (hstays : s.Stays s') :
    s'.References where
  made c hc := by
    rw [hstays.phase]
    exact h.made c (by rwa [hstays.made] at hc)
  served c hc := by
    rw [hstays.phase]
    exact h.served c (by rwa [hstays.clients] at hc)
  pass c hc := by
    rw [hstays.phase]
    exact h.pass c (by rwa [hstays.packetizing] at hc)
  step c sender buf hrec := by
    rw [hstays.phase]
    exact h.step c sender buf (by rwa [hstays.receiving] at hrec)

/-- The pass goes on with clients it had, or begins with those of the list. -/
theorem References.of_pass {s' : Streaming} (h : s.References) (hmade : s'.made = s.made)
    (hclients : s'.clients = s.clients) (hphase : s'.phase = s.phase)
    (hreceiving : s'.receiving = s.receiving)
    (hpass : ∀ c ∈ inWork s'.packetizing, c ∈ inWork s.packetizing ∨ c ∈ s.clients) :
    s'.References where
  made c hc := by
    rw [hphase]
    exact h.made c (by rwa [hmade] at hc)
  served c hc := by
    rw [hphase]
    exact h.served c (by rwa [hclients] at hc)
  pass c hc := by
    rw [hphase]
    rcases hpass c hc with hc | hc
    · exact h.pass c hc
    · exact .inl (h.served c hc)
  step c sender buf hrec := by
    rw [hphase]
    exact h.step c sender buf (by rwa [hreceiving] at hrec)

theorem References.endPass (h : s.References) : s.endPass.References where
  made c hc := congrArg Phase.afterPass (h.made c hc)
  served c hc := congrArg Phase.afterPass (h.served c hc)
  pass c hc := nomatch hc
  step c sender buf hrec := by
    rcases h.step c sender buf hrec with h | ⟨pass, h⟩
    · exact .inl (congrArg Phase.afterPass h)
    · exact .inr ⟨false, congrArg Phase.afterPass h⟩

/-- The references at the end of a receiver step that leaves the pass alone. -/
theorem References.endStep {s' : Streaming} (h : s.References) (hmade : s'.made = s.made)
    (hclients : s'.clients = s.clients) (hpacketizing : s'.packetizing = s.packetizing)
    (hphase : s'.phase = s.endStep.phase) (hreceiving : s'.receiving = .idle) :
    s'.References where
  made c hc := by
    rw [hphase]
    exact congrArg Phase.afterStep (h.made c (by rwa [hmade] at hc))
  served c hc := by
    rw [hphase]
    exact congrArg Phase.afterStep (h.served c (by rwa [hclients] at hc))
  pass c hc := by
    rw [hphase]
    rcases h.pass c (by rwa [hpacketizing] at hc) with h | ⟨step, h⟩
    · exact .inl (congrArg Phase.afterStep h)
    · exact .inr ⟨false, congrArg Phase.afterStep h⟩
  step c sender buf hrec := by
    rw [hreceiving] at hrec
    cases hrec

theorem inWork_of_inPass {p : Packetizing} (h : inPass p = false) : inWork p = [] := by
  cases p with
  | idle => rfl
  | _ => cases h

/-- The scan leaves a client alone that is not in the list. -/
theorem References.scanPhase_of_ne (h : s.References) {steadyNow : Int} {p : Phase}
    (hc : s.phase c = p) (hp : p ≠ .served) : s.scanPhase steadyNow c = p := by
  rw [← hc] at hp ⊢
  exact if_neg fun hin => hp (h.served c hin.1)

/-- A client that was served is served after the scan, or erased. -/
theorem scanPhase_served (steadyNow : Int) (hc : s.phase c = .served) :
    s.scanPhase steadyNow c = .served ∨
      s.scanPhase steadyNow c = .erased (inPass s.packetizing) (inStep s.receiving) := by
  unfold scanPhase
  split
  · exact .inr rfl
  · exact .inl hc

theorem References.scan (h : s.References) (steadyNow : Int) : (s.scan steadyNow).References := by
  unfold Streaming.scan
  split
  · split
    · constructor
      · exact fun c hc => h.scanPhase_of_ne (h.made c hc) Phase.noConfusion
      · intro c hc
        obtain ⟨hc, hin⟩ := List.mem_filter.mp hc
        refine (if_neg fun hout => ?_).trans (h.served c hc)
        rw [hout.2] at hin
        cases hin
      · intro c hc
        rcases h.pass c hc with hp | ⟨step, hp⟩
        · rcases scanPhase_served steadyNow hp with hs | hs
          · exact .inl hs
          · have hin : inPass s.packetizing = true := by
              rcases hpass : inPass s.packetizing with _ | _
              · change c ∈ inWork s.packetizing at hc
                rw [inWork_of_inPass hpass] at hc
                cases hc
              · rfl
            rw [hin] at hs
            exact .inr ⟨_, hs⟩
        · exact .inr ⟨step, h.scanPhase_of_ne hp Phase.noConfusion⟩
      · intro c sender buf hrec
        change s.receiving = _ at hrec
        rcases h.step c sender buf hrec with hp | ⟨pass, hp⟩
        · rcases scanPhase_served steadyNow hp with hs | hs
          · exact .inl hs
          · rw [hrec] at hs
            exact .inr ⟨_, hs⟩
        · exact .inr ⟨pass, h.scanPhase_of_ne hp Phase.noConfusion⟩
    · exact h
  · exact h

theorem References.packetize (h : s.References) (input : FragmentInput) :
    (s.packetize input).References := by
  unfold Streaming.packetize
  split
  · split
    · exact h.of_pass rfl rfl rfl rfl fun c hc => .inr hc
    · exact h
  · exact h.endPass
  · next c rest hpc =>
    unfold pop
    split
    · refine h.of_pass rfl rfl rfl rfl fun c' hc => .inl ?_
      rw [hpc]
      exact List.mem_cons_of_mem _ hc
    · refine h.of_pass rfl rfl rfl rfl fun c' hc => .inl ?_
      rw [hpc]
      exact hc
  · next hpc =>
    refine h.of_pass rfl rfl rfl rfl fun c' hc => .inl ?_
    rw [hpc]
    exact hc
  · next hpc =>
    refine h.of_pass rfl rfl rfl rfl fun c' hc => .inl ?_
    rw [hpc]
    exact List.mem_cons_of_mem _ hc
  · next c currentFid frame i n frames rest hpc =>
    obtain ⟨hkeeps, hphase, hreceiving, hpc'⟩ :=
      s.fragment_frame input c currentFid frame i n frames rest
    refine h.of_pass hkeeps.made hkeeps.clients hphase hreceiving fun c' hc => .inl ?_
    rcases hpc' with hpc' | ⟨i', n', hpc'⟩
    · rwa [hpc'] at hc
    · rw [hpc'] at hc
      rw [hpc]
      exact hc
  · next hpc =>
    refine h.of_pass rfl rfl rfl rfl fun c' hc => .inl ?_
    rw [hpc]
    exact hc

theorem References.lookup (h : s.References) (sender : Endpoint) (buf : Mem) (len : Nat) :
    (s.lookup sender buf len).References := by
  unfold Streaming.lookup
  split
  · split
    · split
      · next c hfind =>
        refine ⟨h.made, h.served, h.pass, fun c' _ _ hrec => ?_⟩
        cases hrec
        exact .inl (h.served c (List.mem_of_find?_eq_some hfind))
      · exact h
    · exact h
  · exact h

/-- **References** stay what they are. -/
theorem References.act (h : s.References) (e : StreamEvent) : (s.act e).References := by
  cases e with
  | start endpoint clientPubKey rxKey txKey sessionId steadyNow =>
    have hphase : Function.update s.phase s.made .starting = s.phase := by
      rw [Function.update_eq_self_iff]
      exact (h.made s.made (Nat.le_refl _)).symm
    change (s.start _).References
    unfold Streaming.start
    rw [hphase]
    exact ⟨fun c hc => h.made c (Nat.le_of_succ_le hc), h.served, h.pass, h.step⟩
  | publish c =>
    change (s.publish c).References
    unfold Streaming.publish
    split
    · next hc =>
      have hother : ∀ {c'} {p : Phase}, s.phase c' = p → p ≠ .starting →
          Function.update s.phase c .served c' = p := by
        rintro c' _ rfl hp
        refine Function.update_of_ne (fun heq => hp ?_) _ _
        rw [heq]
        exact hc.2.1
      constructor
      · intro c' hc'
        refine (Function.update_of_ne ?_ _ _).trans (h.made c' hc')
        exact Nat.ne_of_gt (Nat.lt_of_lt_of_le hc.1 hc')
      · intro c' hc'
        rcases List.mem_append.mp hc' with hc' | hc'
        · exact hother (h.served c' hc') Phase.noConfusion
        · rw [List.mem_singleton.mp hc']
          exact Function.update_self ..
      · intro c' hc'
        rcases h.pass c' hc' with hp | ⟨step, hp⟩
        · exact .inl (hother hp Phase.noConfusion)
        · exact .inr ⟨step, hother hp Phase.noConfusion⟩
      · intro c' sender buf hrec
        rcases h.step c' sender buf hrec with hp | ⟨pass, hp⟩
        · exact .inl (hother hp Phase.noConfusion)
        · exact .inr ⟨pass, hother hp Phase.noConfusion⟩
    · exact h
  | scan steadyNow => exact h.scan steadyNow
  | acquireFrame succeeded =>
    change (s.acquireFrame succeeded).References
    unfold Streaming.acquireFrame
    split
    · exact h.of_stays ⟨rfl, rfl, rfl, rfl, rfl⟩
    · exact h
  | encode input =>
    change (s.encode input).References
    unfold Streaming.encode
    split
    · exact h.of_stays ⟨rfl, rfl, rfl, rfl, rfl⟩
    · exact h.of_stays ⟨rfl, rfl, rfl, rfl, rfl⟩
    · exact h
  | enqueue =>
    change s.enqueue.References
    unfold Streaming.enqueue
    split
    · split <;> exact h.of_stays ⟨rfl, rfl, rfl, rfl, rfl⟩
    · exact h
  | packetize input => exact h.packetize input
  | lookup sender buf len => exact h.lookup sender buf len
  | receive input udpPkt =>
    obtain ⟨hkeeps, hpacketizing, hsame | ⟨hreceiving, hphase⟩⟩ := s.receive_frame input udpPkt
    · change (s.receive input udpPkt).References
      rw [hsame]
      exact h
    · exact h.endStep hkeeps.made hkeeps.clients hpacketizing hphase hreceiving
  | audio c input => exact h.of_stays (s.audio_frame c input).1
  | send count => exact h.of_stays ⟨rfl, rfl, rfl, rfl, rfl⟩
  | stop => exact h.of_stays ⟨rfl, rfl, rfl, rfl, rfl⟩

/-! ## The client that is gone -/

/-- A client stays gone. -/
theorem Gone.act (h : s.Gone c) (hrefs : s.References) (e : StreamEvent) : (s.act e).Gone c := by
  have hne : s.phase c ≠ .starting ∧ s.phase c ≠ .served := by
    rw [h]
    exact ⟨Phase.noConfusion, Phase.noConfusion⟩
  have hupdate : ∀ {c' : Nat} (phase : Phase), s.phase c' = .starting →
      Function.update s.phase c' phase c = .erased false false := by
    intro c' phase hstart
    refine (Function.update_of_ne (fun heq => hne.1 ?_) _ _).trans h
    rw [heq]
    exact hstart
  cases e with
  | start => exact hupdate _ (hrefs.made s.made (Nat.le_refl _))
  | publish c' =>
    change (s.publish c').Gone c
    unfold publish
    split
    · next hc => exact hupdate _ hc.2.1
    · exact h
  | scan steadyNow =>
    change (s.scan steadyNow).Gone c
    unfold Streaming.scan
    split
    · split
      · exact (hrefs.scanPhase_of_ne rfl hne.2).trans h
      · exact h
    · exact h
  | acquireFrame succeeded =>
    change (s.acquireFrame succeeded).Gone c
    unfold acquireFrame
    split <;> exact h
  | encode input =>
    change (s.encode input).Gone c
    unfold encode
    split <;> exact h
  | enqueue =>
    change s.enqueue.Gone c
    unfold enqueue
    split
    · split <;> exact h
    · exact h
  | packetize input =>
    change (s.packetize input).Gone c
    unfold packetize
    split
    · split <;> exact h
    · exact congrArg Phase.afterPass h
    · unfold pop
      split <;> exact h
    · exact h
    · exact h
    · next c' currentFid frame i n frames rest _ =>
      exact (congrFun (s.fragment_frame input c' currentFid frame i n frames rest).2.1 c).trans h
    · exact h
  | lookup sender buf len =>
    change (s.lookup sender buf len).Gone c
    unfold lookup
    split
    · split
      · split <;> exact h
      · exact h
    · exact h
  | receive input udpPkt =>
    change (s.receive input udpPkt).phase c = _
    obtain ⟨-, -, hsame | ⟨-, hphase⟩⟩ := s.receive_frame input udpPkt
    · rw [hsame]
      exact h
    · rw [hphase]
      exact congrArg Phase.afterStep h
  | audio c' input => exact (congrFun (s.audio_frame c' input).1.phase c).trans h
  | send count => exact h
  | stop => exact h

theorem Gone.step (h : s.Gone c) (hrefs : s.References) (e : StreamEvent) :
    (s.step e).Gone c := by
  unfold Streaming.step
  split
  · exact h
  · exact h.act hrefs e

/-- Neither a pass nor a receiver step works for a client that is gone. -/
theorem Gone.worker (h : s.Gone c) (hrefs : s.References) {e : StreamEvent}
    (hworker : s.worker e = some c) : ∃ input, e = .audio c input := by
  have hpass : c ∉ inWork s.packetizing := by
    intro hc
    rcases hrefs.pass c hc with hp | ⟨step, hp⟩ <;> rw [h] at hp <;> cases hp
  cases e with
  | packetize input =>
    unfold Streaming.worker at hworker
    dsimp only at hworker
    split at hworker
    · next c' _ _ _ _ _ rest hpc =>
      cases hworker
      refine absurd ?_ hpass
      rw [hpc]
      exact List.mem_cons_self
    · cases hworker
  | receive input udpPkt =>
    unfold Streaming.worker at hworker
    dsimp only at hworker
    split at hworker
    · next c' sender buf hrec =>
      cases hworker
      rcases hrefs.step c sender buf hrec with hp | ⟨pass, hp⟩ <;> rw [h] at hp <;> cases hp
    · cases hworker
  | audio c' input =>
    cases hworker
    exact ⟨input, rfl⟩
  | _ => cases hworker

theorem references_step (h : s.References) (e : StreamEvent) : (s.step e).References := by
  unfold step
  split
  · exact h
  · exact h.act e

/-! ## The sender thread -/

theorem snd_pushes (s : Streaming) : s.pushes.map Prod.snd = s.outputs.filterMap (·.2.pushed) := by
  unfold pushes
  rw [List.map_filterMap]
  refine List.filterMap_congr fun o _ => ?_
  rw [Option.map_map]
  exact Option.map_id'

/-- The send queue is what is waiting. -/
theorem sendQueue_eq (s : Streaming) : s.sendQueue = s.waiting.map Prod.snd := by
  unfold sendQueue waiting
  rw [← snd_pushes, List.map_drop]

theorem length_sendQueue (s : Streaming) : s.sendQueue.length = s.waiting.length := by
  rw [sendQueue_eq, List.length_map]

/-- The sender thread alone pops. -/
theorem popped_act {e : StreamEvent} (h : ∀ count, e ≠ .send count) :
    (s.act e).popped = s.popped := by
  cases e with
  | start | stop => rfl
  | send count => exact absurd rfl (h count)
  | publish c =>
    change (s.publish c).popped = _
    unfold publish
    split <;> rfl
  | scan steadyNow =>
    change (s.scan steadyNow).popped = _
    unfold scan
    split
    · split <;> rfl
    · rfl
  | acquireFrame succeeded =>
    change (s.acquireFrame succeeded).popped = _
    unfold acquireFrame
    split <;> rfl
  | encode input =>
    change (s.encode input).popped = _
    unfold encode
    split <;> rfl
  | enqueue =>
    change s.enqueue.popped = _
    unfold enqueue
    split
    · split <;> rfl
    · rfl
  | packetize input =>
    change (s.packetize input).popped = _
    unfold packetize
    split
    · split <;> rfl
    · rfl
    · unfold pop
      split <;> rfl
    · rfl
    · rfl
    · unfold fragment
      split
      · rfl
      · split <;> rfl
    · rfl
  | lookup sender buf len =>
    change (s.lookup sender buf len).popped = _
    unfold lookup
    split
    · split
      · split <;> rfl
      · rfl
    · rfl
  | receive input udpPkt =>
    change (s.receive input udpPkt).popped = _
    unfold receive
    split
    · dsimp only
      split <;> rfl
    · rfl
  | audio c input =>
    change (s.audio c input).popped = _
    unfold audio push
    split
    · split
      · dsimp only
        split
        · rfl
        · split
          · rfl
          · split <;> rfl
      · rfl
    · rfl

/-- A step pushes more, or pops from what is waiting. -/
theorem step_pushes (s : Streaming) (e : StreamEvent) :
    (∃ count, e = .send count ∧ s.crashed = false ∧ (s.step e).pushes = s.pushes ∧
        (s.step e).popped = s.popped + min (min count 64) s.waiting.length) ∨
      (∀ count, e = .send count → s.crashed = true) ∧ (s.step e).popped = s.popped ∧
        ∃ more, (s.step e).pushes = s.pushes ++ more := by
  unfold step
  split
  · next hcrashed => exact .inr ⟨fun _ _ => hcrashed, rfl, [], (List.append_nil _).symm⟩
  next halive =>
  by_cases hsend : ∃ count, e = .send count
  · obtain ⟨count, rfl⟩ := hsend
    refine .inl ⟨count, rfl, Bool.eq_false_iff.mpr halive, rfl, ?_⟩
    rw [← length_sendQueue]
    rfl
  · have hne : ∀ count, e ≠ .send count := fun count h => hsend ⟨count, h⟩
    obtain ⟨more, h, -⟩ := s.outputs_act e
    refine .inr ⟨fun count heq => absurd heq (hne count), popped_act hne,
      more.filterMap fun o => o.2.pushed.map (o.1, ·), ?_⟩
    unfold pushes
    rw [h, List.filterMap_append]

/-- No more is popped than was pushed. -/
def Counted (s : Streaming) : Prop := s.popped ≤ s.pushes.length

theorem Counted.step (h : s.Counted) (e : StreamEvent) : (s.step e).Counted := by
  unfold Counted at h ⊢
  rcases s.step_pushes e with ⟨count, -, -, hpushes, hpopped⟩ | ⟨-, hpopped, more, hpushes⟩
  · have hwaiting : s.waiting.length = s.pushes.length - s.popped := List.length_drop
    rw [hpushes, hpopped]
    omega
  · rw [hpushes, hpopped, List.length_append]
    omega

/-- Ten milliseconds of sound, on a host with free packets. -/
def sound : AudioInput :=
  ⟨mock, some [1], 0, some (.new 1500), some (.new 1500), ⟨0, 0, 0, 0, Vector.replicate 16 0⟩⟩

end Streaming

end RemotePlay.Host
