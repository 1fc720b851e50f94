import RemotePlay.Host.SendQueue

/-!
# The datagram buffers

The 1000 buffers of `udpPool` go from the pool into the hands of a producer, with
a call of `push` into the send queue, with `pop` into a batch of the sender
thread, and back to the pool once the batch is sent. A push that is refused
destroys its buffer. While no two pushes overlap none is: the queue has room for
4096, and there are only 1000 buffers.
-/

namespace RemotePlay.Host

open Lib Common

def udpPoolSize : Nat := 1000

/-- `MAX_BATCH` of the sender thread. -/
def maxBatch : Nat := 64

structure UdpTraffic where
  /-- How many buffers the pool has. -/
  pool : Nat
  /-- The producers that have acquired a buffer, once for each buffer. -/
  hands : List SendThread
  /-- The producers in a call of `push`. -/
  calls : List SendThread
  sends : SendRun
  /-- The buffers in `ops`. -/
  batch : Nat
  /-- The batch is complete: it is sent, and its buffers are released. -/
  sending : Bool

inductive UdpEvent where
  | acquire (t : SendThread)
  /-- A producer has no use for its buffer: it was copied, or `Encrypt` failed. -/
  | giveBack (t : SendThread)
  /-- A producer moves its buffer into a call of `push`. -/
  | call (t : SendThread) (out : OutgoingPacket)
  /-- The next step of the call. -/
  | push (t : SendThread)
  /-- The next step of `pop` in the sender thread. -/
  | pop
  /-- The next buffer of the batch is released. -/
  | release

namespace UdpTraffic

def start : UdpTraffic := ⟨udpPoolSize, [], [], sendStart, 0, false⟩

section
variable (s : UdpTraffic) (t : SendThread)

def acquire : UdpTraffic :=
  match s.pool with
  | 0 => s
  | n + 1 => { s with pool := n, hands := t :: s.hands }

def giveBack : UdpTraffic :=
  if t ∈ s.hands then { s with pool := s.pool + 1, hands := s.hands.erase t } else s

def call (out : OutgoingPacket) : UdpTraffic :=
  if t ∈ s.hands ∧ t ∉ s.calls then
    { s with
      hands := s.hands.erase t
      calls := t :: s.calls
      sends := sendStep s.sends (.call t (some out)) }
  else s

/-- A call that has returned leaves nothing of its argument: the buffer is in the queue or gone. -/
def push : UdpTraffic :=
  if t ∈ s.calls then
    let sends := sendStep s.sends (.push t)
    match sends.pushing t with
    | .idle => { s with sends, calls := s.calls.erase t }
    | _ => { s with sends }
  else s

/-- A batch is complete when it is full, or when there is nothing more to pop. -/
def pop : UdpTraffic :=
  if s.sending then s
  else
    let sends := sendStep s.sends .pop
    match s.sends.popping with
    | .taken _ _ => { s with sends, batch := s.batch + 1, sending := s.batch + 1 = maxBatch }
    | _ => { s with sends, sending := sends.failed ≠ s.sends.failed && 0 < s.batch }

def release : UdpTraffic :=
  if s.sending then { s with pool := s.pool + 1, batch := s.batch - 1, sending := 1 < s.batch }
  else s

end

def step (s : UdpTraffic) : UdpEvent → UdpTraffic
  | .acquire t => s.acquire t
  | .giveBack t => s.giveBack t
  | .call t out => s.call t out
  | .push t => s.push t
  | .pop => s.pop
  | .release => s.release

/-- Producers push one after the other. -/
def Apart (s : UdpTraffic) : UdpEvent → Prop
  | .call _ _ => s.calls = []
  | _ => True

/-- Where the buffers are. -/
def buffers (s : UdpTraffic) : Nat :=
  s.pool + s.hands.length + s.calls.length + (s.sends.contents sendCapacity).length + s.batch

/-! ## The invariant -/

/-- A call under way has a packet, and a tail that is not out of date when it is compared. -/
def Live (sends : SendRun) : Pushing SendSlot → Prop
  | .idle => False
  | .tailLoaded item tail => item ≠ none ∧ tail = sends.queue.tail
  | .checked item _ | .written item _ => item ≠ none

/-- Nobody pushes, or one thread. -/
def OneCaller (s : UdpTraffic) : Prop :=
  (s.calls = [] ∧ ∀ t, s.sends.pushing t = .idle) ∨
    ∃ t, s.calls = [t] ∧ Live s.sends (s.sends.pushing t) ∧
      ∀ t', t' ≠ t → s.sends.pushing t' = .idle

structure Conserved (s : UdpTraffic) : Prop where
  queue : s.sends.Invariant sendCapacity
  callers : s.OneCaller
  refused : s.sends.refused = []
  accepted : none ∉ s.sends.accepted
  total : s.pool + s.hands.length + s.calls.length + s.sends.accepted.length + s.batch =
    udpPoolSize + s.sends.popped.length
  batch : s.batch ≤ maxBatch ∧ (s.batch = maxBatch → s.sending = true)
  sending : s.sending = true → 0 < s.batch

theorem conserved_start : start.Conserved where
  queue := QueueRun.invariant_start _ _
  callers := Or.inl ⟨rfl, fun _ => rfl⟩
  refused := rfl
  accepted := List.not_mem_nil
  total := rfl
  batch := ⟨by decide, nofun⟩
  sending h := nomatch h

section
variable {s : UdpTraffic} {t t' : SendThread}

/-- The buffers add up, and the queue holds no more of them than there are. -/
theorem Conserved.buffers_eq (h : s.Conserved) : s.buffers = udpPoolSize := by
  have hfifo := congrArg List.length h.queue.popped_append_contents
  have htotal := h.total
  rw [List.length_append] at hfifo
  unfold buffers
  omega

theorem Conserved.acquire (h : s.Conserved) (t : SendThread) : (s.acquire t).Conserved := by
  unfold UdpTraffic.acquire
  split
  · exact h
  · next n hn =>
    have htotal := h.total
    refine ⟨h.queue, h.callers, h.refused, h.accepted, ?_, h.batch, h.sending⟩
    simp only [List.length_cons]
    omega

theorem Conserved.giveBack (h : s.Conserved) (t : SendThread) : (s.giveBack t).Conserved := by
  unfold UdpTraffic.giveBack
  split
  · next ht =>
    have htotal := h.total
    have hlen := List.length_erase_of_mem ht
    have hpos := List.length_pos_of_mem ht
    refine ⟨h.queue, h.callers, h.refused, h.accepted, ?_, h.batch, h.sending⟩
    dsimp only
    omega
  · exact h

theorem Conserved.release (h : s.Conserved) : s.release.Conserved := by
  unfold UdpTraffic.release
  split
  · next hs =>
    have hpos := h.sending hs
    have htotal := h.total
    have hbatch := h.batch
    refine ⟨h.queue, h.callers, h.refused, h.accepted, ?_, ?_, ?_⟩
    · dsimp only
      omega
    · dsimp only
      omega
    · dsimp only
      rw [decide_eq_true_iff]
      omega
  · exact h

/-! ## A call of push -/

theorem Conserved.caller (h : s.Conserved) (ht : t ∈ s.calls) :
    s.calls = [t] ∧ Live s.sends (s.sends.pushing t) ∧
      ∀ t', t' ≠ t → s.sends.pushing t' = .idle := by
  rcases h.callers with ⟨hnil, -⟩ | ⟨t', hcalls, hlive, hothers⟩
  · rw [hnil] at ht
    cases ht
  · rw [hcalls, List.mem_singleton] at ht
    subst ht
    exact ⟨hcalls, hlive, hothers⟩

/-- After a change of one producer the others are as they were. -/
theorem setPushing_others {sends : SendRun} {p : Pushing SendSlot}
    (h : ∀ t', t' ≠ t → sends.pushing t' = .idle) :
    ∀ t', t' ≠ t → (sends.setPushing t p).pushing t' = .idle :=
  fun t' hne => (if_neg hne).trans (h t' hne)

theorem setPushing_self (sends : SendRun) (t : SendThread) (p : Pushing SendSlot) :
    (sends.setPushing t p).pushing t = p := if_pos rfl

theorem Conserved.call (h : s.Conserved) (t : SendThread) (out : OutgoingPacket)
    (hcalls : s.calls = []) : (s.call t out).Conserved := by
  unfold UdpTraffic.call
  split
  · next ht =>
    have hidle : ∀ t, s.sends.pushing t = .idle := by
      rcases h.callers with ⟨-, hidle⟩ | ⟨t', hone, -⟩
      · exact hidle
      · rw [hcalls] at hone
        cases hone
    have hstep : sendStep s.sends (.call t (some out)) =
        s.sends.setPushing t (.tailLoaded (some out) s.sends.queue.tail) := by
      simp only [sendStep, QueueRun.step, hidle]
    have hqueue : (sendStep s.sends (.call t (some out))).Invariant sendCapacity :=
      QueueRun.invariant_step h.queue trivial
    have htotal := h.total
    have hlen := List.length_erase_of_mem ht.1
    have hpos := List.length_pos_of_mem ht.1
    rw [hstep] at hqueue ⊢
    refine ⟨hqueue, Or.inr ⟨t, ?_, ?_, setPushing_others fun t' _ => hidle t'⟩, h.refused,
      h.accepted, ?_, h.batch, h.sending⟩
    · rw [hcalls]
    · rw [setPushing_self]
      exact ⟨Option.some_ne_none out, rfl⟩
    · simp only [List.length_cons, QueueRun.setPushing]
      omega
  · exact h

/-- The queue has room for every buffer there is. -/
theorem Conserved.room (h : s.Conserved) :
    s.sends.queue.tail - s.sends.queue.head < sendCapacity.value := by
  have hsub := h.queue.toNat_sub
  have htotal := h.total
  have hsize : udpPoolSize < sendCapacity.value.toNat := by decide
  rw [UInt64.lt_iff_toNat_lt, hsub]
  omega

/-- A push that is alone may take its steps. -/
theorem Conserved.tidy (h : s.Conserved) (ht : t ∈ s.calls) :
    QueueRun.Tidy sendCapacity s.sends (.push t) := by
  obtain ⟨-, hlive, hothers⟩ := h.caller ht
  intro item tail htail _
  rw [htail] at hlive
  refine ⟨hlive.2, fun t' hfilling => ?_⟩
  by_cases hne : t' = t
  · rw [hne, htail] at hfilling
    exact hfilling
  · rw [hothers t' hne] at hfilling
    exact hfilling

theorem Conserved.push (h : s.Conserved) (t : SendThread) : (s.push t).Conserved := by
  unfold UdpTraffic.push
  split
  · next ht =>
    obtain ⟨hcalls, hlive, hothers⟩ := h.caller ht
    have hqueue : (sendStep s.sends (.push t)).Invariant sendCapacity :=
      QueueRun.invariant_step h.queue (h.tidy ht)
    have htotal := h.total
    have hroom := UInt64.not_le.mpr h.room
    cases hpush : s.sends.pushing t with
    | idle =>
      rw [hpush] at hlive
      exact hlive.elim
    | tailLoaded item tail =>
      rw [hpush] at hlive
      obtain ⟨hitem, rfl⟩ := hlive
      have hstep : sendStep s.sends (.push t) =
          s.sends.setPushing t (.checked item s.sends.queue.tail) := by
        simp only [sendStep, QueueRun.step, hpush]
        exact if_neg hroom
      rw [hstep] at hqueue ⊢
      dsimp only
      rw [setPushing_self]
      refine ⟨hqueue, Or.inr ⟨t, hcalls, ?_, setPushing_others hothers⟩, h.refused, h.accepted,
        htotal, h.batch, h.sending⟩
      rw [setPushing_self]
      exact hitem
    | checked item tail =>
      rw [hpush] at hlive
      have hstep : sendStep s.sends (.push t) =
          (s.sends.write sendCapacity tail item).setPushing t (.written item tail) := by
        simp only [sendStep, QueueRun.step, hpush]
      rw [hstep] at hqueue ⊢
      dsimp only
      rw [setPushing_self]
      refine ⟨hqueue, Or.inr ⟨t, hcalls, ?_, setPushing_others hothers⟩, h.refused, h.accepted,
        htotal, h.batch, h.sending⟩
      rw [setPushing_self]
      exact hlive
    | written item tail =>
      rw [hpush] at hlive
      have hstep : sendStep s.sends (.push t) =
          { s.sends.setPushing t .idle with
            queue := { s.sends.queue with tail := tail + 1 }
            accepted := s.sends.accepted ++ [item] } := by
        simp only [sendStep, QueueRun.step, hpush]
      have hidle : ∀ t', (s.sends.setPushing t .idle).pushing t' = .idle := by
        intro t'
        by_cases hne : t' = t
        · rw [hne, setPushing_self]
        · exact setPushing_others hothers t' hne
      have hnone : s.calls.erase t = [] := by
        rw [hcalls]
        simp
      rw [hstep] at hqueue ⊢
      dsimp only
      rw [hidle t]
      refine ⟨hqueue, Or.inl ⟨hnone, hidle⟩, h.refused, ?_, ?_, h.batch, h.sending⟩
      · rw [List.mem_append, not_or, List.mem_singleton]
        exact ⟨h.accepted, hlive.symm⟩
      · rw [hcalls] at htotal
        change s.pool + s.hands.length + (s.calls.erase t).length +
          (s.sends.accepted ++ [item]).length + s.batch = udpPoolSize + s.sends.popped.length
        rw [hnone, List.length_append]
        simp only [List.length_nil, List.length_singleton] at htotal ⊢
        omega
  · exact h

/-! ## The sender -/

/-- One step of `pop` takes nothing out, unless it is the last one. -/
theorem pop_counts (sends : SendRun) :
    (sendStep sends .pop).accepted = sends.accepted ∧
      match sends.popping with
      | .taken _ _ => (sendStep sends .pop).popped.length = sends.popped.length + 1
      | _ => (sendStep sends .pop).popped = sends.popped := by
  unfold sendStep QueueRun.step
  cases hpop : sends.popping with
  | idle => exact ⟨rfl, rfl⟩
  | headLoaded head =>
    dsimp only
    split <;> exact ⟨rfl, rfl⟩
  | available head => exact ⟨rfl, rfl⟩
  | taken head item => exact ⟨rfl, List.length_append⟩

theorem OneCaller.pop (h : s.OneCaller) {s' : UdpTraffic} (hcalls : s'.calls = s.calls)
    (hsends : s'.sends = sendStep s.sends .pop) : s'.OneCaller := by
  obtain ⟨-, hpushing, htail⟩ :
      (sendStep s.sends .pop).refused = s.sends.refused ∧
        (sendStep s.sends .pop).pushing = s.sends.pushing ∧
        (sendStep s.sends .pop).queue.tail = s.sends.queue.tail := QueueRun.pop_frame s.sends
  unfold OneCaller Live
  rw [hcalls, hsends, hpushing, htail]
  exact h

theorem Conserved.pop (h : s.Conserved) : s.pop.Conserved := by
  have hqueue : (sendStep s.sends .pop).Invariant sendCapacity :=
    QueueRun.invariant_step h.queue trivial
  have hrefused : (sendStep s.sends .pop).refused = s.sends.refused :=
    (QueueRun.pop_frame s.sends).1
  obtain ⟨haccepted, hpopped⟩ := pop_counts s.sends
  have htotal := h.total
  have hbatch := h.batch
  unfold UdpTraffic.pop
  split
  · exact h
  · next hsending =>
    dsimp only
    split
    · next hpopping =>
      rw [hpopping] at hpopped
      have hroom : s.batch ≠ maxBatch := fun heq => hsending (hbatch.2 heq)
      refine ⟨hqueue, h.callers.pop rfl rfl, hrefused.trans h.refused, ?_, ?_, ?_, ?_⟩
      · rw [haccepted]
        exact h.accepted
      · dsimp only at hpopped ⊢
        rw [haccepted]
        omega
      · exact ⟨by dsimp only; omega, fun heq => decide_eq_true heq⟩
      · intro _
        exact Nat.succ_pos _
    · next hpopping =>
      have hkept : (sendStep s.sends .pop).popped = s.sends.popped := by
        cases hp : s.sends.popping with
        | taken head item => exact absurd hp (hpopping head item)
        | idle | headLoaded head | available head =>
          rw [hp] at hpopped
          exact hpopped
      refine ⟨hqueue, h.callers.pop rfl rfl, hrefused.trans h.refused, ?_, ?_, ?_, ?_⟩
      · rw [haccepted]
        exact h.accepted
      · dsimp only
        rw [haccepted, hkept]
        exact htotal
      · exact ⟨hbatch.1, fun heq => absurd (hbatch.2 heq) hsending⟩
      · intro hs
        exact of_decide_eq_true (Bool.and_eq_true_iff.mp hs).2

theorem Conserved.step (h : s.Conserved) {e : UdpEvent} (he : s.Apart e) :
    (s.step e).Conserved := by
  cases e with
  | acquire t => exact h.acquire t
  | giveBack t => exact h.giveBack t
  | call t out => exact h.call t out he
  | push t => exact h.push t
  | pop => exact h.pop
  | release => exact h.release

end

/-- **The datagram buffers are conserved** while no two pushes overlap: in the pool, with the
producers, in the queue and in the batch there are always 1000, so the queue is never full, and
every datagram is popped once, in the order in which they were pushed. -/
theorem udp_buffers_conserved {es : List UdpEvent} (hes : Along step Apart start es) :
    let s := run step start es
    s.buffers = udpPoolSize ∧ s.sends.refused = [] ∧ Lossless s.sends ∧
      none ∉ s.sends.popped ∧ s.batch ≤ maxBatch := by
  intro s
  have h : s.Conserved :=
    run_invariant (fun s _ (h : s.Conserved) he => h.step he) conserved_start hes
  have hfifo := h.queue.popped_append_contents
  refine ⟨h.buffers_eq, h.refused, hfifo, fun hnone => h.accepted ?_, h.batch.1⟩
  rw [← hfifo]
  exact List.mem_append_left _ hnone

/-- Two audio callbacks and a retransmission: the first datagram gets to the batch, the second one is
queued, and the buffer for the third is given back. -/
def threeProducers : List UdpEvent :=
  [.acquire (.audio 0), .acquire (.audio 1), .call (.audio 0) audioDatagram, .acquire .receiver,
    .push (.audio 0), .push (.audio 0), .push (.audio 0), .call (.audio 1) audioDatagram, .pop,
    .push (.audio 1), .pop, .giveBack .receiver, .pop, .push (.audio 1), .push (.audio 1), .pop]

theorem udp_buffers_conserved_three :
    let s := run step start threeProducers
    (s.pool = udpPoolSize - 2 ∧ s.batch = 1) ∧
      s.buffers = udpPoolSize ∧ s.sends.refused = [] ∧ Lossless s.sends ∧
      none ∉ s.sends.popped ∧ s.batch ≤ maxBatch :=
  ⟨by decide, udp_buffers_conserved ⟨trivial, trivial, rfl, trivial, trivial, trivial, trivial, rfl,
    trivial, trivial, trivial, trivial, trivial, trivial, trivial, trivial, trivial⟩⟩

end UdpTraffic

end RemotePlay.Host
