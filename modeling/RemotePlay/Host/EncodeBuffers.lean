import RemotePlay.Host.Streaming
import Mathlib.Algebra.BigOperators.Group.Finset.Basic
import Mathlib.Algebra.GroupWithZero.Nat
import Mathlib.Algebra.Order.BigOperators.Group.Finset

/-!
# The encode buffers

The 200 buffers of `packetPool` travel through `EncodeFrame`, the encode queue
of a client and the fragment loop, and back to the pool. No step loses one: in
the pool, in the queues of all the clients there have been, and in the hands of
the two threads there are always 200. What gets lost to the host are the queues
of the clients nobody comes to any more.
-/

namespace RemotePlay.Host

open Lib Protocol Crypto Finset

namespace Streaming

/-! ## Where the buffers are -/

def packetsIn (queue : List (List EncodedPacket)) : Nat := (queue.map List.length).sum

/-- The buffers in the encode queue of a client. -/
def queued (s : Streaming) (c : Nat) : Nat := packetsIn (s.client c).encodeQueue

def inCapture : Capturing → Nat
  | .encoded _ packets _ => packets.length
  | _ => 0

def inPacketizer : Packetizing → Nat
  | .entry _ _ frames _ => frames.length
  | .fragments _ _ _ _ _ frames _ => frames.length + 1
  | _ => 0

/-- The clients the packetizer pass has not come to yet. -/
def toCome : Packetizing → List Nat
  | .idle => []
  | .pass rest => rest
  | .entry _ _ _ rest => rest
  | .fragments _ _ _ _ _ _ rest => rest

/-- The packetizer will come to the client, in this pass or in the next. -/
def Served (s : Streaming) (c : Nat) : Prop := c ∈ s.clients ∨ c ∈ toCome s.packetizing

instance (s : Streaming) : DecidablePred s.Served :=
  fun _ => inferInstanceAs (Decidable (_ ∨ _))

/-- The buffers the host has: in the pool, queued for clients that are served, and in the hands of a
running capture or packetizer step. -/
def buffers (s : Streaming) : Nat :=
  s.packetPool.pool.length + ∑ c ∈ range s.made with s.Served c, s.queued c +
    inCapture s.capturing + inPacketizer s.packetizing

/-- The buffers that are in no queue. -/
def unqueued (s : Streaming) : Nat :=
  s.packetPool.pool.length + inCapture s.capturing + inPacketizer s.packetizing

/-- The buffers with the queues of all the clients there have been. -/
def allBuffers (s : Streaming) : Nat := s.unqueued + ∑ c ∈ range s.made, s.queued c

/-- No buffer is queued for a client that nobody comes to any more. -/
def NoneLeft (s : Streaming) : Prop := ∀ c < s.made, ¬ s.Served c → s.queued c = 0

variable {s s' : Streaming} {c : Nat}

theorem buffers_eq_iff (s : Streaming) : s.buffers = s.allBuffers ↔ s.NoneLeft := by
  have hsplit := sum_filter_add_sum_filter_not (range s.made) s.Served s.queued
  have hzero : ∑ c ∈ range s.made with ¬ s.Served c, s.queued c = 0 ↔ s.NoneLeft := by
    rw [sum_eq_zero_iff]
    simp only [mem_filter, mem_range, NoneLeft, and_imp]
  rw [← hzero]
  unfold buffers allBuffers unqueued
  omega

theorem length_releaseAll (pool : PacketPool) (packets : List EncodedPacket) :
    (releaseAll pool packets).pool.length = pool.pool.length + packets.length := by
  induction packets generalizing pool with
  | nil => rfl
  | cons p packets ih =>
    refine (ih (pool.release (some p.packet))).trans ?_
    simp only [PacketPool.release, List.length_cons]
    omega

theorem packetsIn_append (queue : List (List EncodedPacket)) (packets : List EncodedPacket) :
    packetsIn (queue ++ [packets]) = packetsIn queue + packets.length := by
  simp [packetsIn]

theorem packetsIn_cons (frames : List EncodedPacket) (queue : List (List EncodedPacket)) :
    packetsIn (frames :: queue) = frames.length + packetsIn queue := by
  simp [packetsIn]

/-! ## No step loses a buffer -/

/-- The clients a capture step has still to do with. -/
def toEncode : Capturing → List Nat
  | .encoding rest => rest
  | .encoded c _ rest => c :: rest
  | _ => []

structure Accounted (s : Streaming) : Prop where
  total : s.allBuffers = 200
  clients : ∀ c ∈ s.clients, c < s.made
  /-- `clientsMutex` is held: the clients that are encoded for are in the list. -/
  capture : ∀ c ∈ toEncode s.capturing, c ∈ s.clients
  pass : ∀ c ∈ toCome s.packetizing, c < s.made

theorem accounted_init : init.Accounted where
  total := by
    have hpool : init.packetPool.pool.length = 200 := List.length_replicate
    unfold allBuffers unqueued
    rw [hpool]
    rfl
  clients _ hc := nomatch hc
  capture _ hc := nomatch hc
  pass _ hc := nomatch hc

/-- A step that keeps the queues. -/
theorem Accounted.total_congr (h : s.Accounted) (hmade : s'.made = s.made)
    (hqueued : ∀ c, s'.queued c = s.queued c) (hunqueued : s'.unqueued = s.unqueued) :
    s'.allBuffers = 200 := by
  rw [← h.total]
  unfold allBuffers
  rw [hmade, hunqueued, sum_congr rfl fun c _ => hqueued c]

/-- A step that changes the queue of one client. -/
theorem Accounted.total_updateClient (h : s.Accounted) {f : Client → Client} (hc : c < s.made)
    (hmade : s'.made = s.made) (hclient : s'.client = (s.updateClient c f).client)
    (hunqueued : s'.unqueued + packetsIn (f (s.client c)).encodeQueue = s.unqueued + s.queued c) :
    s'.allBuffers = 200 := by
  have hother : ∑ c' ∈ (range s.made).erase c, s'.queued c' =
      ∑ c' ∈ (range s.made).erase c, s.queued c' := by
    refine sum_congr rfl fun c' hc' => ?_
    unfold queued
    rw [hclient, client_updateClient_ne s f (ne_of_mem_erase hc')]
  have hself : s'.queued c = packetsIn (f (s.client c)).encodeQueue := by
    unfold queued
    rw [hclient, client_updateClient]
  have hold := add_sum_erase (range s.made) s.queued (mem_range.mpr hc)
  have hnew := add_sum_erase (range s.made) s'.queued (mem_range.mpr hc)
  have htotal := h.total
  unfold allBuffers at htotal ⊢
  rw [hself, hother] at hnew
  rw [hmade, ← hnew]
  omega

theorem Keeps.queued (h : s.Keeps s') (c : Nat) : s'.queued c = s.queued c :=
  congrArg packetsIn (h.encodeQueue c)

/-- A step of the receiver, the sender or the audio, or of the packetizer within a frame. -/
theorem Accounted.of_keeps (h : s.Accounted) (hkeeps : s.Keeps s')
    (hhands : inPacketizer s'.packetizing = inPacketizer s.packetizing)
    (hpass : toCome s'.packetizing = toCome s.packetizing) : s'.Accounted where
  total := h.total_congr hkeeps.made hkeeps.queued (by
    unfold unqueued
    rw [hkeeps.packetPool, hkeeps.capturing, hhands])
  clients c hc := by
    rw [hkeeps.made]
    exact h.clients c (by rwa [hkeeps.clients] at hc)
  capture c hc := by
    rw [hkeeps.clients]
    exact h.capture c (by rwa [hkeeps.capturing] at hc)
  pass c hc := by
    rw [hkeeps.made]
    exact h.pass c (by rwa [hpass] at hc)

/-- Where the fragment loop stands does not show in the hands or in the clients to come. -/
theorem fragment_place (s : Streaming) (input : FragmentInput) {currentFid : UInt32}
    {frame : EncodedPacket} {i : UInt16} {n : Nat} {frames : List EncodedPacket} {rest : List Nat}
    (hpc : s.packetizing = .fragments c currentFid frame i (n + 1) frames rest) :
    let s' := s.fragment input c currentFid frame i n frames rest
    s.Keeps s' ∧ inPacketizer s'.packetizing = inPacketizer s.packetizing ∧
      toCome s'.packetizing = toCome s.packetizing := by
  obtain ⟨hkeeps, -, -, hpc' | ⟨i', n', hpc'⟩⟩ :=
    s.fragment_frame input c currentFid frame i n frames rest
  · exact ⟨hkeeps, by rw [hpc'], by rw [hpc']⟩
  · exact ⟨hkeeps, by rw [hpc', hpc]; rfl, by rw [hpc', hpc]; rfl⟩

theorem queued_start_self (s : Streaming) (state : ClientState) :
    (s.start state).queued s.made = 0 := by
  unfold queued
  rw [client_start_self]
  rfl

theorem queued_start_of_lt (s : Streaming) (state : ClientState) (hc : c < s.made) :
    (s.start state).queued c = s.queued c := by
  unfold queued
  rw [client_start_of_lt s state hc]

theorem Accounted.start (h : s.Accounted) (state : ClientState) : (s.start state).Accounted where
  total := by
    rw [← h.total]
    unfold allBuffers
    change _ + ∑ c ∈ range (s.made + 1), _ = _
    rw [sum_range_succ, queued_start_self,
      sum_congr rfl fun c hc => queued_start_of_lt s state (mem_range.mp hc)]
    rfl
  clients c hc := Nat.lt_succ_of_lt (h.clients c hc)
  capture c hc := h.capture c hc
  pass c hc := Nat.lt_succ_of_lt (h.pass c hc)

theorem Accounted.encode (h : s.Accounted) (input : EncodeInput) :
    (s.encode input).Accounted := by
  have hcapture := h.capture
  unfold Streaming.encode
  split
  · next hpc =>
    refine ⟨h.total_congr rfl (fun _ => rfl) ?_, h.clients, fun c hc => (nomatch hc), h.pass⟩
    unfold unqueued
    rw [hpc]
    rfl
  · next c rest hpc =>
    have hsound := input.reply.sound_encodeFrame s.packetPool
    rw [hpc] at hcapture
    dsimp only
    generalize input.reply.encodeFrame s.packetPool = encoding at hsound
    refine ⟨h.total_congr rfl (fun _ => rfl) ?_, h.clients, fun c' hc' => ?_, h.pass⟩
    · have hcount := hsound.count
      unfold unqueued
      rw [hpc]
      dsimp only
      split
      · simp only [inCapture, List.length_map]
        omega
      · next hfailed =>
        rw [hsound.failed (Bool.eq_false_iff.mpr hfailed), List.length_nil] at hcount
        simp only [inCapture]
        omega
    · dsimp only at hc'
      split at hc'
      · exact hcapture c' hc'
      · exact hcapture c' (List.mem_cons_of_mem _ hc')
  · exact h

theorem Accounted.enqueue (h : s.Accounted) : s.enqueue.Accounted := by
  have hcapture := h.capture
  unfold Streaming.enqueue
  split
  · next c packets rest hpc =>
    rw [hpc] at hcapture
    have hrest : ∀ c' ∈ rest, c' ∈ s.clients := fun c' hc' =>
      hcapture c' (List.mem_cons_of_mem _ hc')
    split
    · refine ⟨h.total_congr rfl (fun _ => rfl) ?_, h.clients, hrest, h.pass⟩
      unfold unqueued
      rw [hpc]
      simp only [length_releaseAll, inCapture]
      omega
    · have hc : c < s.made := h.clients c (hcapture c List.mem_cons_self)
      refine ⟨h.total_updateClient (f := .enqueue packets) hc rfl rfl ?_, h.clients, hrest,
        h.pass⟩
      unfold unqueued queued
      rw [hpc]
      simp only [Client.enqueue, packetsIn_append, inCapture, updateClient]
      omega
  · exact h

theorem Accounted.pop (h : s.Accounted) {rest : List Nat}
    (hpc : s.packetizing = .pass (c :: rest)) : (s.pop c rest).Accounted := by
  have hpass := h.pass
  rw [hpc] at hpass
  have hrest : ∀ c' ∈ rest, c' < s.made := fun c' hc' => hpass c' (List.mem_cons_of_mem _ hc')
  unfold Streaming.pop
  split
  · refine ⟨h.total_congr rfl (fun _ => rfl) ?_, h.clients, h.capture, hrest⟩
    unfold unqueued
    rw [hpc]
    rfl
  · next frames queue hqueue =>
    refine ⟨h.total_updateClient (f := .take frames queue) (hpass c List.mem_cons_self) rfl rfl ?_,
      h.clients, h.capture, hrest⟩
    unfold unqueued queued
    rw [hpc, hqueue]
    simp only [Client.take, packetsIn_cons, inPacketizer, updateClient]
    omega

theorem Accounted.packetize (h : s.Accounted) (input : FragmentInput) :
    (s.packetize input).Accounted := by
  have hpass := h.pass
  unfold Streaming.packetize
  split
  · next hpc =>
    split
    · refine ⟨h.total_congr rfl (fun _ => rfl) ?_, h.clients, h.capture, h.clients⟩
      unfold unqueued
      rw [hpc]
      rfl
    · exact h
  · next hpc =>
    refine ⟨h.total_congr rfl (fun _ => rfl) ?_, h.clients, h.capture,
      fun c hc => (nomatch hc)⟩
    unfold unqueued
    rw [hpc]
    rfl
  · next hpc => exact h.pop hpc
  · next hpc =>
    rw [hpc] at hpass
    refine ⟨h.total_congr rfl (fun _ => rfl) ?_, h.clients, h.capture, hpass⟩
    unfold unqueued
    rw [hpc]
    rfl
  · next c _ rest hpc =>
    rw [hpc] at hpass
    refine ⟨h.total_congr rfl (map_updateClient (f := .nextFrame) (packetsIn ·.encodeQueue) s rfl)
      ?_, h.clients, h.capture, hpass⟩
    unfold unqueued
    rw [hpc]
    rfl
  · next hpc =>
    obtain ⟨hkeeps, hhands, hcome⟩ := s.fragment_place input hpc
    exact h.of_keeps hkeeps hhands hcome
  · next hpc =>
    rw [hpc] at hpass
    refine ⟨h.total_congr rfl (fun _ => rfl) ?_, h.clients, h.capture, hpass⟩
    unfold unqueued
    rw [hpc]
    simp only [PacketPool.release, List.length_cons, inPacketizer]
    omega

/-- **No step** loses a buffer. -/
theorem Accounted.act (h : s.Accounted) (e : StreamEvent) : (s.act e).Accounted := by
  have hsame : ∀ s' : Streaming, s.Keeps s' → s'.packetizing = s.packetizing → s'.Accounted :=
    fun s' hkeeps hpc => h.of_keeps hkeeps (by rw [hpc]) (by rw [hpc])
  cases e with
  | start => exact h.start _
  | publish c =>
    change (s.publish c).Accounted
    unfold publish
    split
    · next hc =>
      refine ⟨h.total, fun c' hc' => ?_, fun c' hc' => List.mem_append_left _ (h.capture c' hc'),
        h.pass⟩
      rcases List.mem_append.mp hc' with hc' | hc'
      · exact h.clients c' hc'
      · rw [List.mem_singleton.mp hc']
        exact hc.1
    · exact h
  | scan steadyNow =>
    change (s.scan steadyNow).Accounted
    unfold scan
    split
    · next hpc =>
      split
      · refine ⟨h.total_congr rfl (fun _ => rfl) ?_,
          fun c hc => h.clients c (List.mem_of_mem_filter hc), fun c hc => (nomatch hc), h.pass⟩
        unfold unqueued
        rw [hpc]
        rfl
      · exact h
    · exact h
  | acquireFrame succeeded =>
    change (s.acquireFrame succeeded).Accounted
    unfold acquireFrame
    split
    · next hpc =>
      refine ⟨h.total_congr rfl (fun _ => rfl) ?_, h.clients, fun c hc => ?_, h.pass⟩
      · unfold unqueued
        rw [hpc]
        cases succeeded <;> rfl
      · cases succeeded with
        | true => exact hc
        | false => cases hc
    · exact h
  | encode input => exact h.encode input
  | enqueue => exact h.enqueue
  | packetize input => exact h.packetize input
  | lookup sender buf len =>
    obtain ⟨hkeeps, hpc⟩ := s.lookup_frame sender buf len
    exact hsame _ hkeeps hpc
  | receive input udpPkt =>
    obtain ⟨hkeeps, hpc, -⟩ := s.receive_frame input udpPkt
    exact hsame _ hkeeps hpc
  | audio c input =>
    obtain ⟨hstays, hkeeps⟩ := s.audio_frame c input
    exact hsame _ hkeeps hstays.packetizing
  | send count =>
    exact hsame _ ⟨rfl, rfl, rfl, rfl, fun _ => rfl, fun _ => rfl, fun _ => rfl⟩ rfl
  | stop => exact hsame _ ⟨rfl, rfl, rfl, rfl, fun _ => rfl, fun _ => rfl, fun _ => rfl⟩ rfl

theorem accounted_step (h : s.Accounted) (e : StreamEvent) : (s.step e).Accounted := by
  unfold step
  split
  · exact h
  · exact h.act e

/-! ## Who leaves with buffers -/

/-- Nobody stops being served with packets in its queue: the clients the scan erases that the pass
in progress does not come to have none, and an erased client the pass comes to has none behind its
first entry. -/
def Drained (s : Streaming) : StreamEvent → Prop
  | .scan steadyNow =>
    s.capturing = .idle → s.running = true →
      ∀ c ∈ s.clients, s.timedOut steadyNow c = true → c ∉ toCome s.packetizing → s.queued c = 0
  | .packetize _ =>
    ∀ c rest, s.packetizing = .pass (c :: rest) → c ∉ s.clients → c ∉ rest →
      packetsIn (s.client c).encodeQueue.tail = 0
  | _ => True

/-- A step that keeps the queues, and leaves nobody. -/
theorem noneLeft_of_served (h : s.NoneLeft) (hmade : s'.made = s.made)
    (hqueued : ∀ c, s'.queued c = s.queued c) (hserved : ∀ c, s.Served c → s'.Served c) :
    s'.NoneLeft := by
  intro c hc hout
  rw [hqueued]
  exact h c (by rwa [hmade] at hc) fun hin => hout (hserved c hin)

theorem noneLeft_start (h : s.NoneLeft) (state : ClientState) : (s.start state).NoneLeft := by
  intro c hc hout
  rcases Nat.lt_succ_iff_lt_or_eq.mp hc with hc | rfl
  · rw [queued_start_of_lt s state hc]
    exact h c hc hout
  · exact queued_start_self s state

theorem noneLeft_enqueue (h : s.NoneLeft) (hacc : s.Accounted) : s.enqueue.NoneLeft := by
  have hcapture := hacc.capture
  unfold enqueue
  split
  · next c packets rest hpc =>
    rw [hpc] at hcapture
    split
    · exact noneLeft_of_served h rfl (fun _ => rfl) fun _ hin => hin
    · intro c' hc' hout
      have hne : c' ≠ c := by
        rintro rfl
        exact hout (.inl (hcapture c' List.mem_cons_self))
      have hqueue := h c' hc' hout
      unfold queued at hqueue ⊢
      dsimp only
      rw [client_updateClient_ne s _ hne]
      exact hqueue
  · exact h

theorem noneLeft_scan_iff (h : s.NoneLeft) (hacc : s.Accounted) (steadyNow : Int) :
    (s.scan steadyNow).NoneLeft ↔ s.Drained (.scan steadyNow) := by
  unfold scan Drained
  split
  · next hpc =>
    split
    · next hrunning =>
      constructor
      · intro hnone _ _ c hc htimed hcome
        refine hnone c (hacc.clients c hc) ?_
        rintro (hin | hin)
        · have hkept := (List.mem_filter.mp hin).2
          rw [htimed] at hkept
          cases hkept
        · exact hcome hin
      · intro hdrained c hc hout
        by_cases hin : c ∈ s.clients
        · refine hdrained hpc hrunning c hin ?_ fun hcome => hout (.inr hcome)
          by_contra htimed
          refine hout (.inl (List.mem_filter.mpr ⟨hin, ?_⟩))
          rw [Bool.eq_false_iff.mpr htimed]
          rfl
        · refine h c hc ?_
          rintro (hin' | hcome)
          · exact hin hin'
          · exact hout (.inr hcome)
    · next hstopped => exact iff_of_true h fun _ hrunning => absurd hrunning hstopped
  · next hpc => exact iff_of_true h fun hidle => absurd hidle hpc

theorem noneLeft_pop_iff (h : s.NoneLeft) (hacc : s.Accounted) {rest : List Nat}
    (hpc : s.packetizing = .pass (c :: rest)) : (s.pop c rest).NoneLeft ↔
      (c ∉ s.clients → c ∉ rest → packetsIn (s.client c).encodeQueue.tail = 0) := by
  have hc : c < s.made := by
    refine hacc.pass c ?_
    rw [hpc]
    exact List.mem_cons_self
  have hplace : (s.pop c rest).made = s.made ∧ (∀ c', c' ≠ c → (s.pop c rest).queued c' =
      s.queued c') ∧ (s.pop c rest).queued c = packetsIn (s.client c).encodeQueue.tail ∧
      ∀ c', (s.pop c rest).Served c' ↔ c' ∈ s.clients ∨ c' ∈ rest := by
    unfold pop
    split
    · next hqueue =>
      refine ⟨rfl, fun _ _ => rfl, ?_, fun _ => Iff.rfl⟩
      unfold queued
      dsimp only
      rw [hqueue, List.tail_nil]
    · next frames queue hqueue =>
      refine ⟨rfl, fun c' hne => ?_, ?_, fun _ => Iff.rfl⟩
      · unfold queued
        dsimp only
        rw [client_updateClient_ne s _ hne]
      · unfold queued
        dsimp only
        rw [client_updateClient, hqueue, List.tail_cons]
        rfl
  obtain ⟨hmade, hother, hself, hserved⟩ := hplace
  constructor
  · intro hnone hclients hrest
    rw [← hself]
    refine hnone c (by rwa [hmade]) ?_
    rw [hserved]
    exact fun hin => hin.elim hclients hrest
  · intro hdrained c' hc' hout
    rw [hserved, not_or] at hout
    by_cases heq : c' = c
    · rw [heq] at hout ⊢
      rw [hself]
      exact hdrained hout.1 hout.2
    · rw [hother c' heq]
      refine h c' (by rwa [hmade] at hc') ?_
      rintro (hin | hin)
      · exact hout.1 hin
      · rw [hpc] at hin
        exact hout.2 ((List.mem_cons.mp hin).resolve_left heq)

/-- Only a pass that comes to a client may leave it. -/
theorem noneLeft_packetize (h : s.NoneLeft)
    (hne : ∀ c rest, s.packetizing ≠ .pass (c :: rest)) (input : FragmentInput) :
    (s.packetize input).NoneLeft := by
  have hstay : ∀ s' : Streaming, s'.made = s.made → (∀ c, s'.queued c = s.queued c) →
      s'.clients = s.clients → toCome s'.packetizing = toCome s.packetizing → s'.NoneLeft := by
    intro s' hmade hqueued hclients hcome
    refine noneLeft_of_served h hmade hqueued fun c hin => ?_
    unfold Served
    rwa [hclients, hcome]
  unfold packetize
  split
  · next hpc =>
    split
    · refine noneLeft_of_served h rfl (fun _ => rfl) fun c hin => ?_
      unfold Served at hin
      rw [hpc] at hin
      exact .inl (hin.resolve_right List.not_mem_nil)
    · exact h
  · next hpc => exact hstay _ rfl (fun _ => rfl) rfl (by rw [hpc]; rfl)
  · next c rest hpc => exact absurd hpc (hne c rest)
  · next hpc => exact hstay _ rfl (fun _ => rfl) rfl (by rw [hpc]; rfl)
  · next c _ rest hpc =>
    exact hstay _ rfl (map_updateClient (f := .nextFrame) (packetsIn ·.encodeQueue) s rfl) rfl
      (by rw [hpc]; rfl)
  · next hpc =>
    obtain ⟨hkeeps, -, hcome⟩ := s.fragment_place input hpc
    exact hstay _ hkeeps.made hkeeps.queued hkeeps.clients hcome
  · next hpc => exact hstay _ rfl (fun _ => rfl) rfl (by rw [hpc]; rfl)

theorem noneLeft_packetize_iff (h : s.NoneLeft) (hacc : s.Accounted) (input : FragmentInput) :
    (s.packetize input).NoneLeft ↔ s.Drained (.packetize input) := by
  by_cases hpass : ∃ c rest, s.packetizing = .pass (c :: rest)
  · obtain ⟨c, rest, hpc⟩ := hpass
    rw [packetize_pass hpc, noneLeft_pop_iff h hacc hpc]
    constructor
    · intro hdrained c' rest' hpass
      rw [hpc] at hpass
      cases hpass
      exact hdrained
    · exact fun hdrained => hdrained c rest hpc
  · have hne : ∀ c rest, s.packetizing ≠ .pass (c :: rest) := fun c rest hpc => hpass ⟨c, rest, hpc⟩
    exact iff_of_true (noneLeft_packetize h hne input) fun c rest hpc => absurd hpc (hne c rest)

/-- **One step** leaves no buffer behind iff nobody leaves with one. -/
theorem noneLeft_act_iff (h : s.NoneLeft) (hacc : s.Accounted) (e : StreamEvent) :
    (s.act e).NoneLeft ↔ s.Drained e := by
  have hkeep : ∀ s' : Streaming, s.Keeps s' → s'.packetizing = s.packetizing → s'.NoneLeft := by
    intro s' hkeeps hpc
    refine noneLeft_of_served h hkeeps.made hkeeps.queued fun c hin => ?_
    unfold Served
    rwa [hkeeps.clients, hpc]
  cases e with
  | start => exact iff_of_true (noneLeft_start h _) trivial
  | publish c =>
    refine iff_of_true ?_ trivial
    change (s.publish c).NoneLeft
    unfold publish
    split
    · exact noneLeft_of_served h rfl (fun _ => rfl) fun c hin =>
        hin.imp (List.mem_append_left _) id
    · exact h
  | scan steadyNow => exact noneLeft_scan_iff h hacc steadyNow
  | acquireFrame succeeded =>
    refine iff_of_true ?_ trivial
    change (s.acquireFrame succeeded).NoneLeft
    unfold acquireFrame
    split
    · exact noneLeft_of_served h rfl (fun _ => rfl) fun _ hin => hin
    · exact h
  | encode input =>
    refine iff_of_true ?_ trivial
    change (s.encode input).NoneLeft
    unfold encode
    split
    · exact noneLeft_of_served h rfl (fun _ => rfl) fun _ hin => hin
    · exact noneLeft_of_served h rfl (fun _ => rfl) fun _ hin => hin
    · exact h
  | enqueue => exact iff_of_true (noneLeft_enqueue h hacc) trivial
  | packetize input => exact noneLeft_packetize_iff h hacc input
  | lookup sender buf len =>
    obtain ⟨hkeeps, hpc⟩ := s.lookup_frame sender buf len
    exact iff_of_true (hkeep _ hkeeps hpc) trivial
  | receive input udpPkt =>
    obtain ⟨hkeeps, hpc, -⟩ := s.receive_frame input udpPkt
    exact iff_of_true (hkeep _ hkeeps hpc) trivial
  | audio c input =>
    obtain ⟨hstays, hkeeps⟩ := s.audio_frame c input
    exact iff_of_true (hkeep _ hkeeps hstays.packetizing) trivial
  | send count => exact iff_of_true (noneLeft_of_served h rfl (fun _ => rfl) fun _ hin => hin) trivial
  | stop => exact iff_of_true (noneLeft_of_served h rfl (fun _ => rfl) fun _ hin => hin) trivial

/-- **The encode buffers are conserved** in every state of a run iff no client stops being served
with buffers in its queue, while the process lives. -/
theorem buffers_conserved_iff (es : List StreamEvent) :
    (∀ es', es' <+: es → (run step init es').buffers = 200) ↔
      Along step (fun s e => s.crashed = false → s.Drained e) init es := by
  refine forall_prefix_iff_along (P := fun s => s.buffers = 200)
    (fun s e (h : s.Accounted) => accounted_step h e) (fun s e hacc hbuffers => ?_)
    accounted_init ?_ es
  · have hnone : ∀ t : Streaming, t.Accounted → (t.buffers = 200 ↔ t.NoneLeft) := by
      intro t ht
      rw [← buffers_eq_iff, ht.total]
    rw [hnone _ (accounted_step hacc e)]
    have hleft := (hnone s hacc).mp hbuffers
    exact step_iff_of_act hleft (noneLeft_act_iff hleft hacc e)
  · rw [← accounted_init.total, buffers_eq_iff]
    exact fun c hc => absurd hc (Nat.not_lt_zero c)

/-- The encoder makes a one-byte keyframe. -/
def oneByte : EncodeInput :=
  ⟨⟨true, true, true, true, ⟨true, [⟨[0], true⟩], false⟩, true⟩, false, 0, 0, 0⟩

/-- A client joins, a frame is encoded and queued for it, and 40 seconds later it is erased before
the packetizer's first pass. -/
def erasedWithFrame : List StreamEvent :=
  [.start ⟨[0x31], 6000⟩ [3] [] [] 7 0, .publish 0, .scan 0, .acquireFrame true, .encode oneByte,
    .enqueue, .encode oneByte, .scan 40000000000]

/-- The buffer of the frame is in no queue that is served, and not in the pool. -/
theorem erased_client_keeps_buffer :
    ¬ ∀ es : List StreamEvent, (run step init es).buffers = 200 := by
  intro h
  have hbuffers : (run step init erasedWithFrame).buffers = 199 := by decide +kernel
  rw [h erasedWithFrame] at hbuffers
  cases hbuffers

end Streaming

end RemotePlay.Host
