import RemotePlay.Host.Timeout
import RemotePlay.Host.EncodeBuffers

/-!
# Frame ids

The packetizer numbers the entries of a client's encode queue, and an entry is
what one call of `EncodeFrame` has made: one frame, or none. The ids of the
frames are consecutive for as long as no entry without a frame is taken.
-/

namespace RemotePlay.Host

open Lib Protocol Crypto

namespace Streaming

/-- The client whose entry the packetizer is at. -/
def inEntry : Packetizing → Option Nat
  | .entry c _ _ _ => some c
  | .fragments c _ _ _ _ _ _ => some c
  | _ => none

/-- The id that the client's next entry will get. -/
def nextId (s : Streaming) (c : Nat) : UInt32 :=
  if inEntry s.packetizing = some c then (s.client c).state.frameId + 1
  else (s.client c).state.frameId

/-- The ids the client's frames were given, in order. -/
def ids (s : Streaming) (c : Nat) : List UInt32 := (s.client c).given.map Prod.fst

/-- The `n`-th frame of the client got id `n`, every id that was given belongs to a frame with
fragments, and none was used up besides. -/
structure NoHoles (s : Streaming) (c : Nat) : Prop where
  consecutive : s.ids c = (List.range (s.ids c).length).map UInt32.ofNat
  fragments : ∀ g ∈ (s.client c).given, 0 < g.2.totalFrags.toNat
  next : s.nextId c = UInt32.ofNat (s.ids c).length

/-- The packetizer does not take an entry without packets. -/
def TakesFrame (s : Streaming) : StreamEvent → Prop
  | .packetize _ =>
    ∀ c rest queue, s.packetizing = .pass (c :: rest) → (s.client c).encodeQueue ≠ [] :: queue
  | _ => True

/-- What one call of `EncodeFrame` makes. -/
def IsEntry (packets : List EncodedPacket) : Prop :=
  packets.length ≤ 1 ∧ ∀ frame ∈ packets, frame.Encoded

/-- The frames the packetizer has in its hands. -/
def framesLeft : Packetizing → List EncodedPacket
  | .entry _ _ frames _ => frames
  | .fragments _ _ frame _ _ frames _ => frame :: frames
  | _ => []

def packetsLeft : Capturing → List EncodedPacket
  | .encoded _ packets _ => packets
  | _ => []

/-- The buffers are buffers wherever they are, and an entry is at most one frame. -/
structure Entries (s : Streaming) : Prop where
  pool : ∀ p ∈ s.packetPool.pool, IsBuffer p
  capture : IsEntry (packetsLeft s.capturing)
  queue : ∀ c, ∀ packets ∈ (s.client c).encodeQueue, IsEntry packets
  packetizer : ∀ frame ∈ framesLeft s.packetizing, frame.Encoded
  given : ∀ c, ∀ g ∈ (s.client c).given, g.2.Encoded

variable {s s' : Streaming} {c : Nat}

/-! ## Entries -/

theorem isEntry_nil : IsEntry [] := ⟨Nat.zero_le 1, fun _ h => nomatch h⟩

theorem entries_init : init.Entries where
  pool p hp := by
    rw [List.eq_of_mem_replicate hp]
    rfl
  capture := isEntry_nil
  queue _ _ h := nomatch h
  packetizer _ h := nomatch h
  given _ _ h := nomatch h

theorem Entries.of_keeps (h : s.Entries) (hkeeps : s.Keeps s')
    (hframes : ∀ frame ∈ framesLeft s'.packetizing, frame ∈ framesLeft s.packetizing) :
    s'.Entries where
  pool := by
    rw [hkeeps.packetPool]
    exact h.pool
  capture := by
    rw [hkeeps.capturing]
    exact h.capture
  queue c := by
    rw [hkeeps.encodeQueue c]
    exact h.queue c
  packetizer frame hframe := h.packetizer frame (hframes frame hframe)
  given c := by
    rw [hkeeps.given c]
    exact h.given c

theorem isEntry_stamp {encoding : Encoding} {pool : PacketPool} (hsound : encoding.Sound pool)
    (hpool : ∀ p ∈ pool.pool, IsBuffer p) (input : EncodeInput) :
    IsEntry (encoding.packets.map (·.stamp input)) := by
  constructor
  · rw [List.length_map]
    exact hsound.single
  · intro frame hframe
    obtain ⟨p, hp, rfl⟩ := List.mem_map.mp hframe
    exact hsound.encoded hpool p hp

theorem mem_releaseAll {pool : PacketPool} {packets : List EncodedPacket} {p : Packet}
    (h : p ∈ (releaseAll pool packets).pool) :
    p ∈ pool.pool ∨ ∃ frame ∈ packets, frame.packet = p := by
  induction packets generalizing pool with
  | nil => exact .inl h
  | cons frame packets ih =>
    rcases ih h with hp | ⟨frame', hmem, hp⟩
    · rcases List.mem_cons.mp hp with rfl | hp
      · exact .inr ⟨frame, List.mem_cons_self, rfl⟩
      · exact .inl hp
    · exact .inr ⟨frame', List.mem_cons_of_mem _ hmem, hp⟩

/-- The queue and the frames of one client change. -/
theorem forall_updateClient {P : Client → Prop} (h : ∀ c, P (s.client c)) {f : Client → Client}
    (hf : P (f (s.client c))) (c' : Nat) : P ((s.updateClient c f).client c') := by
  rcases eq_or_ne c' c with rfl | hne
  · rw [client_updateClient]
    exact hf
  · rw [client_updateClient_ne s f hne]
    exact h c'

theorem Entries.encode (h : s.Entries) (input : EncodeInput) : (s.encode input).Entries := by
  unfold Streaming.encode
  split
  · exact ⟨h.pool, isEntry_nil, h.queue, h.packetizer, h.given⟩
  · next c rest hpc =>
    have hsound := input.reply.sound_encodeFrame s.packetPool
    refine ⟨hsound.buffers h.pool, ?_, h.queue, h.packetizer, h.given⟩
    dsimp only
    split
    · exact isEntry_stamp hsound h.pool input
    · exact isEntry_nil
  · exact h

theorem Entries.enqueue (h : s.Entries) : s.enqueue.Entries := by
  have hcapture := h.capture
  unfold Streaming.enqueue
  split
  · next c packets rest hpc =>
    rw [hpc] at hcapture
    split
    · refine ⟨fun p hp => ?_, isEntry_nil, h.queue, h.packetizer, h.given⟩
      rcases mem_releaseAll hp with hp | ⟨frame, hmem, rfl⟩
      · exact h.pool p hp
      · exact (hcapture.2 frame hmem).2
    · refine ⟨h.pool, isEntry_nil, ?_, h.packetizer, ?_⟩
      · refine forall_updateClient (f := .enqueue packets)
          (P := fun x => ∀ packets ∈ x.encodeQueue, IsEntry packets) h.queue fun packets' hmem => ?_
        rcases List.mem_append.mp hmem with hmem | hmem
        · exact h.queue c packets' hmem
        · rw [List.mem_singleton.mp hmem]
          exact hcapture
      · exact forall_updateClient (f := .enqueue packets)
          (P := fun x => ∀ g ∈ x.given, g.2.Encoded) h.given (h.given c)
  · exact h

theorem Entries.packetize (h : s.Entries) (input : FragmentInput) :
    (s.packetize input).Entries := by
  have hframes := h.packetizer
  unfold Streaming.packetize
  split
  · split
    · exact ⟨h.pool, h.capture, h.queue, fun _ hf => (nomatch hf), h.given⟩
    · exact h
  · exact ⟨h.pool, h.capture, h.queue, fun _ hf => (nomatch hf), h.given⟩
  · next c rest hpc =>
    unfold pop
    split
    · exact ⟨h.pool, h.capture, h.queue, fun _ hf => (nomatch hf), h.given⟩
    · next frames queue hqueue =>
      have hentries := h.queue c
      rw [hqueue] at hentries
      have hentry := hentries frames List.mem_cons_self
      refine ⟨h.pool, h.capture, ?_, hentry.2, ?_⟩
      · exact forall_updateClient (f := .take frames queue)
          (P := fun x => ∀ packets ∈ x.encodeQueue, IsEntry packets) h.queue
          fun packets hmem => hentries packets (List.mem_cons_of_mem _ hmem)
      · refine forall_updateClient (f := .take frames queue)
          (P := fun x => ∀ g ∈ x.given, g.2.Encoded) h.given fun g hg => ?_
        rcases List.mem_append.mp hg with hg | hg
        · exact h.given c g hg
        · obtain ⟨frame, hframe, rfl⟩ := List.mem_map.mp hg
          exact hentry.2 frame hframe
  · next hpc =>
    rw [hpc] at hframes
    exact ⟨h.pool, h.capture, h.queue, hframes, h.given⟩
  · next c _ rest hpc =>
    exact ⟨h.pool, h.capture,
      forall_updateClient (f := .nextFrame) (P := fun x => ∀ packets ∈ x.encodeQueue, IsEntry packets)
        h.queue (h.queue c),
      fun _ hf => (nomatch hf),
      forall_updateClient (f := .nextFrame) (P := fun x => ∀ g ∈ x.given, g.2.Encoded) h.given
        (h.given c)⟩
  · next c currentFid frame i n frames rest hpc =>
    obtain ⟨hkeeps, -, -, hpc'⟩ := s.fragment_frame input c currentFid frame i n frames rest
    refine h.of_keeps hkeeps fun frame' hmem => ?_
    rcases hpc' with hpc' | ⟨i', n', hpc'⟩
    · rwa [hpc'] at hmem
    · rw [hpc'] at hmem
      rw [hpc]
      exact hmem
  · next frame _ frames rest hpc =>
    rw [hpc] at hframes
    refine ⟨fun p hp => ?_, h.capture, h.queue,
      fun frame' hmem => hframes frame' (List.mem_cons_of_mem _ hmem), h.given⟩
    rcases List.mem_cons.mp hp with rfl | hp
    · exact (hframes frame List.mem_cons_self).2
    · exact h.pool p hp

/-- **Entries** stay what they are. -/
theorem Entries.act (h : s.Entries) (e : StreamEvent) : (s.act e).Entries := by
  cases e with
  | start endpoint clientPubKey rxKey txKey sessionId steadyNow =>
    change (s.start _).Entries
    generalize { ClientState.new endpoint clientPubKey steadyNow with rxKey, txKey, sessionId } =
      state
    refine ⟨h.pool, h.capture, fun c => ?_, h.packetizer, fun c => ?_⟩ <;>
      rcases s.client_start_cases state c with ⟨-, hnew⟩ | hold
    · rw [hnew]
      exact fun _ hmem => nomatch hmem
    · rw [hold]
      exact h.queue c
    · rw [hnew]
      exact fun _ hmem => nomatch hmem
    · rw [hold]
      exact h.given c
  | publish c =>
    change (s.publish c).Entries
    unfold publish
    split
    · exact ⟨h.pool, h.capture, h.queue, h.packetizer, h.given⟩
    · exact h
  | scan steadyNow =>
    change (s.scan steadyNow).Entries
    unfold scan
    split
    · split
      · exact ⟨h.pool, isEntry_nil, h.queue, h.packetizer, h.given⟩
      · exact h
    · exact h
  | acquireFrame succeeded =>
    change (s.acquireFrame succeeded).Entries
    unfold acquireFrame
    split
    · refine ⟨h.pool, ?_, h.queue, h.packetizer, h.given⟩
      cases succeeded <;> exact isEntry_nil
    · exact h
  | encode input => exact h.encode input
  | enqueue => exact h.enqueue
  | packetize input => exact h.packetize input
  | lookup sender buf len =>
    obtain ⟨hkeeps, hpc⟩ := s.lookup_frame sender buf len
    exact h.of_keeps hkeeps fun frame hmem => hpc ▸ hmem
  | receive input udpPkt =>
    obtain ⟨hkeeps, hpc, -⟩ := s.receive_frame input udpPkt
    exact h.of_keeps hkeeps fun frame hmem => hpc ▸ hmem
  | audio c input =>
    obtain ⟨hstays, hkeeps⟩ := s.audio_frame c input
    exact h.of_keeps hkeeps fun frame hmem => hstays.packetizing ▸ hmem
  | send count => exact ⟨h.pool, h.capture, h.queue, h.packetizer, h.given⟩
  | stop => exact ⟨h.pool, h.capture, h.queue, h.packetizer, h.given⟩

/-! ## Ids -/

theorem NoHoles.congr (h : s.NoHoles c) (hgiven : (s'.client c).given = (s.client c).given)
    (hnext : s'.nextId c = s.nextId c) : s'.NoHoles c := by
  have hids : s'.ids c = s.ids c := congrArg (List.map Prod.fst) hgiven
  constructor
  · rw [hids]
    exact h.consecutive
  · rw [hgiven]
    exact h.fragments
  · rw [hnext, hids]
    exact h.next

theorem nextId_congr (hentry : inEntry s'.packetizing = inEntry s.packetizing)
    (hid : (s'.client c).state.frameId = (s.client c).state.frameId) :
    s'.nextId c = s.nextId c := by
  unfold nextId
  rw [hentry, hid]

theorem NoHoles.of_keeps (h : s.NoHoles c) (hkeeps : s.Keeps s')
    (hentry : inEntry s'.packetizing = inEntry s.packetizing) : s'.NoHoles c :=
  h.congr (hkeeps.given c) (nextId_congr hentry (hkeeps.frameId c))

theorem add_one_ne (a : UInt32) : a + 1 ≠ a := by
  intro h
  have htoNat := congrArg UInt32.toNat h
  have hlt := a.toNat_lt
  rw [UInt32.toNat_add] at htoNat
  change (a.toNat + 1) % 2 ^ 32 = a.toNat at htoNat
  omega

/-- A client that takes a frame gives it the next id. -/
theorem NoHoles.take (h : s.NoHoles c) (hentry : inEntry s.packetizing ≠ some c)
    {frame : EncodedPacket} (hframe : frame.Encoded)
    (hgiven : (s'.client c).given =
      (s.client c).given ++ [((s.client c).state.frameId, frame)])
    (hnext : s'.nextId c = (s.client c).state.frameId + 1) : s'.NoHoles c := by
  have hid : (s.client c).state.frameId = UInt32.ofNat (s.ids c).length := by
    rw [← h.next]
    exact (if_neg hentry).symm
  have hids : s'.ids c = s.ids c ++ [UInt32.ofNat (s.ids c).length] := by
    unfold ids at hid ⊢
    rw [hgiven, List.map_append, ← hid]
    rfl
  have hlength : (s'.ids c).length = (s.ids c).length + 1 := by
    rw [hids, List.length_append]
    rfl
  constructor
  · rw [hlength, List.range_succ, List.map_append, ← h.consecutive, hids]
    rfl
  · rw [hgiven]
    intro g hg
    rcases List.mem_append.mp hg with hg | hg
    · exact h.fragments g hg
    · rw [List.mem_singleton.mp hg]
      exact hframe.hasFragment
  · rw [hnext, hlength, hid]
    exact (UInt32.ofNat_add _ 1).symm

/-- An entry without packets uses up an id. -/
theorem not_noHoles_of_empty (h : s.NoHoles c) (hentry : inEntry s.packetizing ≠ some c)
    (hgiven : (s'.client c).given = (s.client c).given)
    (hnext : s'.nextId c = (s.client c).state.frameId + 1) : ¬ s'.NoHoles c := by
  intro h'
  have hids : s'.ids c = s.ids c := congrArg (List.map Prod.fst) hgiven
  have hid : (s.client c).state.frameId = UInt32.ofNat (s.ids c).length := by
    rw [← h.next]
    exact (if_neg hentry).symm
  have hnext' := h'.next
  rw [hnext, hids, ← hid] at hnext'
  exact add_one_ne _ hnext'

theorem noHoles_pop_iff (h : ∀ c, s.NoHoles c) (hentries : s.Entries) {rest : List Nat}
    (hpc : s.packetizing = .pass (c :: rest)) : (∀ c', (s.pop c rest).NoHoles c') ↔
      ∀ queue, (s.client c).encodeQueue ≠ [] :: queue := by
  have hentry : ∀ c', inEntry s.packetizing ≠ some c' := by
    intro c'
    rw [hpc]
    exact fun h => nomatch h
  unfold pop
  split
  · next hqueue =>
    refine iff_of_true (fun c' => ?_) fun queue hcons => by rw [hqueue] at hcons; cases hcons
    refine (h c').congr rfl (nextId_congr ?_ rfl)
    rw [hpc]
    rfl
  · next frames queue hqueue =>
    generalize hs' : ({ s.updateClient c (.take frames queue) with
      packetizing := .entry c (s.client c).state.frameId frames rest } : Streaming) = s'
    have hself : s'.client c = (s.client c).take frames queue := by
      rw [← hs']
      exact client_updateClient s c _
    have hnext : s'.nextId c = (s.client c).state.frameId + 1 := by
      unfold nextId
      rw [hself, ← hs']
      exact if_pos rfl
    have hother : ∀ c', c' ≠ c → s'.NoHoles c' := by
      intro c' hne
      have hclient : s'.client c' = s.client c' := by
        rw [← hs']
        exact client_updateClient_ne s _ hne
      refine (h c').congr (by rw [hclient]) ?_
      unfold nextId
      rw [hclient, if_neg (hentry c'), ← hs']
      exact if_neg fun heq => hne (Option.some.inj heq).symm
    have hin := hentries.queue c
    rw [hqueue] at hin
    obtain ⟨hlength, hframes⟩ := hin frames List.mem_cons_self
    cases frames with
    | nil =>
      refine iff_of_false (fun hall => ?_) fun hne => hne queue hqueue
      refine not_noHoles_of_empty (h c) (hentry c) ?_ hnext (hall c)
      rw [hself]
      exact List.append_nil _
    | cons frame frames =>
      have hnil : frames = [] := List.eq_nil_of_length_eq_zero (by
        rw [List.length_cons] at hlength
        omega)
      refine iff_of_true (fun c' => ?_) fun queue' hcons => by rw [hqueue] at hcons; cases hcons
      rcases eq_or_ne c' c with rfl | hne
      · refine (h c').take (hentry c') (hframes frame List.mem_cons_self) ?_ hnext
        rw [hself, hnil]
        rfl
      · exact hother c' hne

/-- Only taking an entry gives out an id. -/
theorem noHoles_packetize (h : ∀ c, s.NoHoles c)
    (hne : ∀ c rest, s.packetizing ≠ .pass (c :: rest)) (input : FragmentInput) (c : Nat) :
    (s.packetize input).NoHoles c := by
  unfold packetize
  split
  · next hpc =>
    split
    · refine (h c).congr rfl (nextId_congr ?_ rfl)
      rw [hpc]
      rfl
    · exact h c
  · next hpc =>
    refine (h c).congr rfl (nextId_congr ?_ rfl)
    rw [hpc]
    rfl
  · next c' rest hpc => exact absurd hpc (hne c' rest)
  · next hpc =>
    refine (h c).congr rfl (nextId_congr ?_ rfl)
    rw [hpc]
    rfl
  · next c' fid rest hpc =>
    refine (h c).congr (map_updateClient (f := .nextFrame) (·.given) s rfl c) ?_
    -- the id taken by the entry becomes the client's own
    unfold nextId
    rw [hpc]
    change (s.updateClient c' .nextFrame |>.client c).state.frameId = _
    rcases eq_or_ne c c' with rfl | hne
    · rw [client_updateClient]
      exact (if_pos rfl).symm
    · rw [client_updateClient_ne s _ hne]
      exact (if_neg fun heq => hne (Option.some.inj heq).symm).symm
  · next c' currentFid frame i n frames rest hpc =>
    obtain ⟨hkeeps, -, -, hpc'⟩ := s.fragment_frame input c' currentFid frame i n frames rest
    refine (h c).of_keeps hkeeps ?_
    rcases hpc' with hpc' | ⟨i', n', hpc'⟩
    · rw [hpc']
    · rw [hpc', hpc]
      rfl
  · next hpc =>
    refine (h c).congr rfl (nextId_congr ?_ rfl)
    rw [hpc]
    rfl

theorem noHoles_packetize_iff (h : ∀ c, s.NoHoles c) (hentries : s.Entries)
    (input : FragmentInput) :
    (∀ c, (s.packetize input).NoHoles c) ↔ s.TakesFrame (.packetize input) := by
  by_cases hpass : ∃ c rest, s.packetizing = .pass (c :: rest)
  · obtain ⟨c, rest, hpc⟩ := hpass
    rw [packetize_pass hpc, noHoles_pop_iff h hentries hpc]
    constructor
    · intro htakes c' rest' queue hpass
      rw [hpc] at hpass
      cases hpass
      exact htakes queue
    · exact fun htakes queue => htakes c rest queue hpc
  · have hne : ∀ c rest, s.packetizing ≠ .pass (c :: rest) := fun c rest hpc => hpass ⟨c, rest, hpc⟩
    exact iff_of_true (noHoles_packetize h hne input) fun c rest _ hpc => absurd hpc (hne c rest)

/-- A new client's ids begin at 0: no entry of it is in work. -/
theorem noHoles_start (h : ∀ c, s.NoHoles c) (hrefs : s.References) {state : ClientState}
    (hstate : state.frameId = 0) (c : Nat) : (s.start state).NoHoles c := by
  rcases s.client_start_cases state c with ⟨rfl, hnew⟩ | hold
  · have hentry : inEntry s.packetizing ≠ some s.made := by
      intro hentry
      have hin : s.made ∈ inWork s.packetizing := by
        unfold inEntry at hentry
        split at hentry
        · next hpc =>
          cases hentry
          rw [hpc]
          exact List.mem_cons_self
        · next hpc =>
          cases hentry
          rw [hpc]
          exact List.mem_cons_self
        · cases hentry
      have hphase := hrefs.made s.made (Nat.le_refl _)
      rcases hrefs.pass s.made hin with hp | ⟨step, hp⟩ <;> rw [hphase] at hp <;> cases hp
    have hids : (s.start state).ids s.made = [] := by
      unfold ids
      rw [hnew]
      rfl
    constructor
    · rw [hids]
      rfl
    · rw [hnew]
      exact fun _ hg => nomatch hg
    · rw [hids]
      refine (if_neg hentry).trans ?_
      rw [hnew]
      exact hstate
  · refine (h c).congr (by rw [hold]) (nextId_congr rfl (by rw [hold]))

/-- **One step** makes no hole iff it takes no entry without packets. -/
theorem noHoles_act_iff (h : ∀ c, s.NoHoles c) (hrefs : s.References) (hentries : s.Entries)
    (e : StreamEvent) : (∀ c, (s.act e).NoHoles c) ↔ s.TakesFrame e := by
  have hsame : ∀ s' : Streaming, s'.client = s.client → s'.packetizing = s.packetizing →
      ∀ c, s'.NoHoles c := by
    intro s' hclient hpc c
    exact (h c).congr (by rw [hclient]) (nextId_congr (by rw [hpc]) (by rw [hclient]))
  have hkeep : ∀ s' : Streaming, s.Keeps s' → s'.packetizing = s.packetizing →
      ∀ c, s'.NoHoles c :=
    fun s' hkeeps hpc c => (h c).of_keeps hkeeps (by rw [hpc])
  cases e with
  | start => exact iff_of_true (noHoles_start h hrefs rfl) trivial
  | publish c => exact iff_of_true (hsame _ (s.publish_frame c).1 (s.publish_frame c).2) trivial
  | scan steadyNow =>
    exact iff_of_true (hsame _ (s.scan_frame steadyNow).1 (s.scan_frame steadyNow).2) trivial
  | acquireFrame succeeded =>
    obtain ⟨hclient, hpc⟩ := s.acquireFrame_frame succeeded
    exact iff_of_true (hsame _ hclient hpc) trivial
  | encode input =>
    exact iff_of_true (hsame _ (s.encode_frame input).1 (s.encode_frame input).2) trivial
  | enqueue =>
    refine iff_of_true (fun c => ?_) trivial
    obtain ⟨hgiven, hstate, hpc⟩ := s.enqueue_frame c
    exact (h c).congr hgiven (nextId_congr (congrArg inEntry hpc) (congrArg _ hstate))
  | packetize input => exact noHoles_packetize_iff h hentries input
  | lookup sender buf len =>
    obtain ⟨hkeeps, hpc⟩ := s.lookup_frame sender buf len
    exact iff_of_true (hkeep _ hkeeps hpc) trivial
  | receive input udpPkt =>
    obtain ⟨hkeeps, hpc, -⟩ := s.receive_frame input udpPkt
    exact iff_of_true (hkeep _ hkeeps hpc) trivial
  | audio c input =>
    obtain ⟨hstays, hkeeps⟩ := s.audio_frame c input
    exact iff_of_true (hkeep _ hkeeps hstays.packetizing) trivial
  | send count => exact iff_of_true (hsame _ rfl rfl) trivial
  | stop => exact iff_of_true (hsame _ rfl rfl) trivial

theorem noHoles_init (c : Nat) : init.NoHoles c := ⟨rfl, fun _ hg => (nomatch hg), rfl⟩

/-- **Frame ids have no holes** in any state of a run iff the packetizer takes no entry without
packets, while the process lives. -/
theorem frame_ids_iff (es : List StreamEvent) :
    (∀ es', es' <+: es → ∀ c, (run step init es').NoHoles c) ↔
      Along step (fun s e => s.crashed = false → s.TakesFrame e) init es := by
  refine forall_prefix_iff_along (fun s e (hinv : References s ∧ Entries s) => ?_)
    (fun s e hinv (hholes : ∀ c, NoHoles s c) => ?_) ⟨references_init, entries_init⟩ noHoles_init es
  · refine ⟨references_step hinv.1 e, ?_⟩
    unfold step
    split
    · exact hinv.2
    · exact hinv.2.act e
  · exact @step_iff_of_act (fun s => ∀ c, s.NoHoles c) _ s e hholes
      (noHoles_act_iff hholes hinv.1 hinv.2 e)

/-- While fewer than `2 ^ 32` frames have been numbered, an id is that of one frame. -/
theorem NoHoles.nodup_ids (h : s.NoHoles c) (hlength : (s.ids c).length ≤ 2 ^ 32) :
    (s.ids c).Nodup := by
  rw [h.consecutive, List.nodup_map_iff_inj_on List.nodup_range]
  intro i hi j hj hij
  rw [List.mem_range] at hi hj
  have htoNat := congrArg UInt32.toNat hij
  rw [UInt32.toNat_ofNat', UInt32.toNat_ofNat'] at htoNat
  omega

/-- The encoder needs more input. -/
def noOutput : EncodeInput :=
  { oneByte with reply := { oneByte.reply with encoder := ⟨true, [], false⟩ } }

/-- The packetizer without a packet in `udpPool`. -/
def noPacket : StreamEvent := .packetize ⟨mock, ⟨0, 0, 0, 0, Vector.replicate 16 0⟩, none, none, none⟩

/-- The encoder takes the first frame without output, and makes a packet of the second. -/
def delayedEncoder : List StreamEvent :=
  [.start ⟨[0x31], 6000⟩ [3] [] [] 7 0, .publish 0, .scan 0, .acquireFrame true,
    .encode noOutput, .enqueue, .encode noOutput, .scan 0, .acquireFrame true, .encode oneByte,
    .enqueue, .encode oneByte, noPacket, noPacket, noPacket, noPacket, noPacket, noPacket]

/-- The client's first frame gets id 1. -/
theorem empty_entry_uses_id :
    ¬ ∀ (es : List StreamEvent) (c : Nat), (run step init es).NoHoles c := by
  intro h
  have hids : (run step init delayedEncoder).ids 0 = [1] := by decide +kernel
  have hconsecutive := (h delayedEncoder 0).consecutive
  rw [hids] at hconsecutive
  exact absurd hconsecutive (by decide)

end Streaming

end RemotePlay.Host
