import RemotePlay.Client.Nacks
import RemotePlay.Host.Dispatch
import RemotePlay.Lib.Pacing
import RemotePlay.Lib.Run

/-!
# The control part of the session loop

What an iteration of `runClient`'s loop does before it plays: it looks for a
gap, sends feedback, asks for lost fragments and synchronises the clock. All of
it goes by one reading `now` of the steady clock, in nanoseconds. The same
`lastTimeSync` paces the requests and the synchronisation but only the latter
writes it (`paced_iff`).
-/

namespace RemotePlay.Client

open Lib Protocol Crypto Session Host

/-- What the handshake has left: the build of the crypto library, the session and its key. -/
structure SessionKeys where
  cm : CryptoManager
  sessionId : UInt64
  txKey : Key

/-- The loop's variables. -/
structure Control where
  lastFeedbackTime : Int
  requestKeyframe : Bool
  lastReportedMissingFrameId : UInt32
  lastTimeSync : Int
  sendSequenceNumber : UInt64

/-- A `SendTo` of the loop: the packet and its sealed datagram. -/
structure LoopSend where
  packet : ClientPacket
  datagram : List UInt8

/-- What an iteration reads. The feedback is built from `lastFrameId`, read once more, and the
profiler, in a header that the stack holds. -/
structure ControlInput where
  now : Int
  lastFrameId : UInt32
  lastReceivedFrameId : UInt32
  lossRate : UInt32
  rttMs : UInt32
  avgDecodeTimeMs : UInt32
  stackFeedback : FeedbackHeader
  stackHeader : Nat → SecureHeader
  clockUs : UInt64

/-- `duration_cast<milliseconds>` and `duration_cast<seconds>`. -/
def milliseconds (d : Int) : Int := d.tdiv 1000000
def seconds (d : Int) : Int := d.tdiv 1000000000

theorem two_le_seconds {d : Int} : seconds d ≥ 2 ↔ 2000000000 ≤ d := by
  unfold seconds
  rcases Int.le_total 0 d with hd | hd
  · rw [Int.tdiv_eq_ediv_of_nonneg hd]
    omega
  · have hneg := Int.tdiv_le_tdiv (c := 1000000000) (by decide) hd
    rw [Int.zero_tdiv] at hneg
    omega

theorem twenty_le_milliseconds {d : Int} : milliseconds d ≥ 20 ↔ 20000000 ≤ d := by
  unfold milliseconds
  rcases Int.le_total 0 d with hd | hd
  · rw [Int.tdiv_eq_ediv_of_nonneg hd]
    omega
  · have hneg := Int.tdiv_le_tdiv (c := 1000000) (by decide) hd
    rw [Int.zero_tdiv] at hneg
    omega

namespace Control

/-- The loop starts, with the two readings that its timers start from. -/
def start (feedbackTime syncTime : Int) (sendSequenceNumber : UInt64) : Control where
  lastFeedbackTime := feedbackTime
  requestKeyframe := false
  lastReportedMissingFrameId := 0
  lastTimeSync := syncTime
  sendSequenceNumber := sendSequenceNumber

/-- Number, seal and send a packet. -/
def send (keys : SessionKeys) (c : Control) (stack : SecureHeader) (packet : ClientPacket) :
    Control × List LoopSend :=
  ({ c with sendSequenceNumber := c.sendSequenceNumber + 1 },
    ((sealEnvelope keys.cm stack keys.sessionId c.sendSequenceNumber keys.txKey packet.bytes).map
      fun datagram => ⟨packet, datagram⟩).toList)

/-- A gap is reported once for each expected id. -/
def detectGap (c : Control) (lastFrameId nextExpected : UInt32) : Control :=
  if lastFrameId > nextExpected + 10 ∧ nextExpected ≠ c.lastReportedMissingFrameId then
    { c with requestKeyframe := true, lastReportedMissingFrameId := nextExpected }
  else c

/-- The feedback header as it is filled over the stack: two fields stay what they were. -/
def feedbackHeader (i : ControlInput) (requestKeyframe : Bool) : FeedbackHeader :=
  { i.stackFeedback with
    type := PacketType.feedback.code
    lastReceivedFrameId := i.lastReceivedFrameId
    lossRate := i.lossRate
    rttMs := i.rttMs
    avgDecodeTimeMs := i.avgDecodeTimeMs
    requestKeyframe := if requestKeyframe then 1 else 0 }

/-- Feedback goes out every second and with a keyframe request. -/
def sendFeedback (keys : SessionKeys) (c : Control) (i : ControlInput) :
    Control × List LoopSend :=
  if milliseconds (i.now - c.lastFeedbackTime) ≥ 1000 ∨ c.requestKeyframe then
    if keys.sessionId ≠ 0 then
      let (c', sent) := c.send keys (i.stackHeader 0) (.feedback (feedbackHeader i c.requestKeyframe))
      ({ c' with lastFeedbackTime := i.now, requestKeyframe := false }, sent)
    else (c, [])
  else (c, [])

/-- One request a missing fragment, the `n`-th header of the iteration for the first. -/
def sendRequests (keys : SessionKeys) (i : ControlInput) (c : Control) :
    List NACK → Nat → Control × List LoopSend
  | [], _ => (c, [])
  | nack :: nacks, n =>
    let (c, sent) := c.send keys (i.stackHeader n)
      (.retransmitRequest nack.frameId nack.fragmentIndex)
    let (c, rest) := sendRequests keys i c nacks (n + 1)
    (c, sent ++ rest)

/-- The time for requests has come. -/
def RequestsDue (c : Control) (now : Int) : Prop := milliseconds (now - c.lastTimeSync) ≥ 20

instance (c : Control) (now : Int) : Decidable (c.RequestsDue now) := by
  unfold RequestsDue
  infer_instance

def requestLosses (keys : SessionKeys) (c : Control) (i : ControlInput) (r : Receiver) :
    Control × List LoopSend :=
  if c.RequestsDue i.now then sendRequests keys i c r.getPendingNACKs 1 else (c, [])

/-- The clock is synchronised in this iteration. -/
def SyncDue (keys : SessionKeys) (c : Control) (now : Int) : Prop :=
  seconds (now - c.lastTimeSync) ≥ 2 ∧ keys.sessionId ≠ 0

instance (keys : SessionKeys) (c : Control) (now : Int) : Decidable (SyncDue keys c now) := by
  unfold SyncDue
  infer_instance

def syncTime (keys : SessionKeys) (c : Control) (i : ControlInput) : Control × List LoopSend :=
  if SyncDue keys c i.now then
    let (c, sent) := c.send keys (i.stackHeader 11) (.timeSync i.clockUs)
    ({ c with lastTimeSync := i.now }, sent)
  else (c, [])

/-- Gap detection and feedback, with the receiver's read pointer at `nextExpected`. -/
def report (keys : SessionKeys) (c : Control) (i : ControlInput) (nextExpected : UInt32) :
    Control × List LoopSend :=
  (c.detectGap i.lastFrameId nextExpected).sendFeedback keys i

/-- Requests and time synchronisation. -/
def requestAndSync (keys : SessionKeys) (c : Control) (i : ControlInput) (r : Receiver) :
    Control × List LoopSend :=
  let (c, requests) := c.requestLosses keys i r
  let (c, sync) := c.syncTime keys i
  (c, requests ++ sync)

/-- The end of an iteration: a frame that did not decode asks for a keyframe. -/
def decoded (c : Control) (failed : Bool) : Control :=
  if failed then { c with requestKeyframe := true } else c

end Control

/-- One iteration: what it reads, the receiver when the gap is looked for and when the requests are
collected, and whether a frame failed to decode. -/
structure Iteration where
  input : ControlInput
  gapReceiver : Receiver
  nackReceiver : Receiver
  decodeFailed : Bool

namespace Control

def iterate (keys : SessionKeys) (c : Control) (it : Iteration) : Control × List LoopSend :=
  let (c, feedback) := c.report keys it.input it.gapReceiver.nextFrameIdToRead
  let (c, rest) := c.requestAndSync keys it.input it.nackReceiver
  (c.decoded it.decodeFailed, feedback ++ rest)

def step (keys : SessionKeys) (c : Control) (it : Iteration) : Control := (iterate keys c it).1

end Control

/-- A retransmission request. -/
def LoopSend.isRequest (s : LoopSend) : Bool :=
  match s.packet with
  | .retransmitRequest _ _ => true
  | _ => false

/-- `Encrypt` does not fail. -/
def SessionKeys.Encrypts (keys : SessionKeys) : Prop :=
  ∀ packet ad nonce, (keys.cm.encrypt packet ad nonce keys.txKey).isSome = true

namespace Control

variable {keys : SessionKeys} {c : Control}

/-! ## What an iteration sends and keeps -/

theorem sent_send (stack : SecureHeader) (packet : ClientPacket) :
    ∀ s ∈ (c.send keys stack packet).2, s.packet = packet := by
  intro s hs
  obtain ⟨datagram, -, rfl⟩ := Option.map_eq_some_iff.mp (Option.mem_toList.mp hs)
  rfl

/-- A packet is sent once when `Encrypt` does not fail. -/
theorem length_send (hkeys : keys.Encrypts) (stack : SecureHeader) (packet : ClientPacket) :
    ((c.send keys stack packet).2).length = 1 := by
  have henc := hkeys packet.bytes (associatedData
    (fillHeader stack keys.sessionId c.sendSequenceNumber packet.bytes.length))
    c.sendSequenceNumber
  obtain ⟨⟨ciphertext, tag⟩, henc⟩ := Option.isSome_iff_exists.mp henc
  have hseal : (sealEnvelope keys.cm stack keys.sessionId c.sendSequenceNumber keys.txKey
      packet.bytes).isSome = true := by
    simp only [sealEnvelope]
    rw [show (fillHeader stack keys.sessionId c.sendSequenceNumber
      packet.bytes.length).sequenceNumber = c.sendSequenceNumber from rfl, henc]
    rfl
  obtain ⟨datagram, hdatagram⟩ := Option.isSome_iff_exists.mp hseal
  simp only [send, hdatagram, Option.map_some, Option.toList_some, List.length_singleton]

theorem lastTimeSync_detectGap (lastFrameId nextExpected : UInt32) :
    (c.detectGap lastFrameId nextExpected).lastTimeSync = c.lastTimeSync := by
  unfold detectGap
  split <;> rfl

/-- Feedback is no request, and leaves the time of the last synchronisation. -/
theorem sendFeedback_quiet (i : ControlInput) :
    (c.sendFeedback keys i).1.lastTimeSync = c.lastTimeSync ∧
      ∀ s ∈ (c.sendFeedback keys i).2, s.isRequest = false := by
  unfold sendFeedback
  split
  · split
    · refine ⟨rfl, fun s hs => ?_⟩
      have hpacket := sent_send _ _ s hs
      unfold LoopSend.isRequest
      rw [hpacket]
    · exact ⟨rfl, fun s hs => nomatch hs⟩
  · exact ⟨rfl, fun s hs => nomatch hs⟩

theorem report_quiet (i : ControlInput) (nextExpected : UInt32) :
    (c.report keys i nextExpected).1.lastTimeSync = c.lastTimeSync ∧
      ∀ s ∈ (c.report keys i nextExpected).2, s.isRequest = false := by
  obtain ⟨htime, hsent⟩ := @sendFeedback_quiet keys (c.detectGap i.lastFrameId nextExpected) i
  exact ⟨htime.trans (lastTimeSync_detectGap _ _), hsent⟩

/-- One request for each missing fragment. -/
theorem sendRequests_spec (hkeys : keys.Encrypts) (i : ControlInput) (nacks : List NACK) (n : Nat) :
    (sendRequests keys i c nacks n).1.lastTimeSync = c.lastTimeSync ∧
      (sendRequests keys i c nacks n).2.length = nacks.length ∧
      ∀ s ∈ (sendRequests keys i c nacks n).2, s.isRequest = true := by
  induction nacks generalizing c n with
  | nil => exact ⟨rfl, rfl, fun s hs => nomatch hs⟩
  | cons nack nacks ih =>
    obtain ⟨htime, hlength, hrest⟩ := ih
      (c := (c.send keys (i.stackHeader n) (.retransmitRequest nack.frameId nack.fragmentIndex)).1)
      (n + 1)
    simp only [sendRequests]
    refine ⟨htime, ?_, fun s hs => ?_⟩
    · rw [List.length_append, length_send hkeys, hlength, List.length_cons, Nat.add_comm]
    · rcases List.mem_append.mp hs with h | h
      · unfold LoopSend.isRequest
        rw [sent_send _ _ s h]
      · exact hrest s h

theorem length_pending_le (r : Receiver) : r.getPendingNACKs.length ≤ 10 := by
  rw [r.pending_eq, List.length_take]
  exact Nat.min_le_left _ _

/-- The requests of an iteration, and when the clock was synchronised after it. -/
theorem requestAndSync_spec (hkeys : keys.Encrypts) (i : ControlInput) (r : Receiver) :
    (c.requestAndSync keys i r).1.lastTimeSync =
        (if SyncDue keys c i.now then i.now else c.lastTimeSync) ∧
      ((c.requestAndSync keys i r).2.filter (·.isRequest)).length =
        if c.RequestsDue i.now then r.getPendingNACKs.length else 0 := by
  have hrequests : (c.requestLosses keys i r).1.lastTimeSync = c.lastTimeSync ∧
      (c.requestLosses keys i r).2.length =
        (if c.RequestsDue i.now then r.getPendingNACKs.length else 0) ∧
      ∀ s ∈ (c.requestLosses keys i r).2, s.isRequest = true := by
    unfold requestLosses
    split
    · exact sendRequests_spec hkeys i _ 1
    · exact ⟨rfl, rfl, fun s hs => nomatch hs⟩
  obtain ⟨htime, hlength, hall⟩ := hrequests
  have hsync : ((c.requestLosses keys i r).1.syncTime keys i).1.lastTimeSync =
        (if SyncDue keys c i.now then i.now else c.lastTimeSync) ∧
      ∀ s ∈ ((c.requestLosses keys i r).1.syncTime keys i).2, s.isRequest = false := by
    have hdue : SyncDue keys (c.requestLosses keys i r).1 i.now ↔ SyncDue keys c i.now := by
      unfold SyncDue
      rw [htime]
    unfold syncTime
    by_cases h : SyncDue keys c i.now
    · rw [if_pos (hdue.mpr h), if_pos h]
      refine ⟨rfl, fun s hs => ?_⟩
      unfold LoopSend.isRequest
      rw [sent_send _ _ s hs]
    · rw [if_neg (mt hdue.mp h), if_neg h]
      exact ⟨htime, fun s hs => nomatch hs⟩
  refine ⟨hsync.1, ?_⟩
  show (((c.requestLosses keys i r).2 ++ ((c.requestLosses keys i r).1.syncTime keys i).2).filter
    (·.isRequest)).length = _
  rw [List.filter_append, List.filter_eq_self.mpr hall,
    List.filter_eq_nil_iff.mpr fun s hs => by rw [hsync.2 s hs]; decide, List.append_nil, hlength]

/-- The requests that an iteration sends. -/
def requests (keys : SessionKeys) (c : Control) (it : Iteration) : List LoopSend :=
  (iterate keys c it).2.filter (·.isRequest)

theorem iterate_spec (hkeys : keys.Encrypts) (it : Iteration) :
    (c.step keys it).lastTimeSync =
        (if SyncDue keys c it.input.now then it.input.now else c.lastTimeSync) ∧
      (c.requests keys it).length =
        if c.RequestsDue it.input.now then it.nackReceiver.getPendingNACKs.length else 0 := by
  obtain ⟨hreport, hquiet⟩ :=
    @report_quiet keys c it.input it.gapReceiver.nextFrameIdToRead
  obtain ⟨htime, hcount⟩ := @requestAndSync_spec keys (c.report keys it.input
    it.gapReceiver.nextFrameIdToRead).1 hkeys it.input it.nackReceiver
  have hdecoded : ∀ c' : Control, (c'.decoded it.decodeFailed).lastTimeSync = c'.lastTimeSync := by
    intro c'
    unfold decoded
    split <;> rfl
  have hnone : (c.report keys it.input it.gapReceiver.nextFrameIdToRead).2.filter (·.isRequest) =
      [] := List.filter_eq_nil_iff.mpr fun s hs => by
    rw [hquiet s hs]
    decide
  simp only [SyncDue, RequestsDue, hreport] at htime hcount ⊢
  constructor
  · exact (hdecoded _).trans htime
  · unfold requests
    show (List.filter _ ((c.report keys it.input it.gapReceiver.nextFrameIdToRead).2 ++ _)).length = _
    rw [List.filter_append, hnone, List.nil_append]
    exact hcount

/-! ## Pacing -/

/-- The record of a run: the rounds of requests, the last round since the last synchronisation, and
the last reading of the clock. -/
structure Pace where
  rounds : List (Round LoopSend)
  since : Option Int
  latest : Int

def notePace (keys : SessionKeys) (c : Control) (it : Iteration) (p : Pace) : Pace where
  rounds :=
    if c.requests keys it = [] then p.rounds
    else p.rounds ++ [⟨it.input.now, c.requests keys it⟩]
  since :=
    if SyncDue keys c it.input.now then none
    else if c.requests keys it = [] then p.since
    else some it.input.now
  latest := it.input.now

/-- Rounds of requests are 20 ms apart, and in no 20 ms are there more than ten requests. -/
structure Paced (rounds : List (Round LoopSend)) : Prop where
  apart : Apart 20000000 rounds
  tenAtMost : ∀ start, (inWindow 20000000 start rounds).length ≤ 10

/-- An iteration that is due and finds fragments missing comes 20 ms after the last such one,
unless the clock was synchronised since. -/
def Spaced (x : Control × Pace) (it : Iteration) : Prop :=
  x.1.RequestsDue it.input.now → it.nackReceiver.getPendingNACKs ≠ [] →
    ∀ t, x.2.since = some t → t + 20000000 ≤ it.input.now

/-- The steady clock does not go back. -/
def ClockAdvances (x : Control × Pace) (it : Iteration) : Prop := x.2.latest ≤ it.input.now

/-- What the record says of the loop's variables. -/
structure PaceOk (x : Control × Pace) : Prop where
  ten : ∀ r ∈ x.2.rounds, r.items.length ≤ 10
  last : ∀ r, x.2.rounds.getLast? = some r →
    r.time ≤ x.2.latest ∧ (x.2.since = none → r.time ≤ x.1.lastTimeSync)
  since : ∀ t, x.2.since = some t → ∃ r, x.2.rounds.getLast? = some r ∧ r.time = t

theorem requests_eq_nil (hkeys : keys.Encrypts) (it : Iteration) : c.requests keys it = [] ↔
    ¬ (c.RequestsDue it.input.now ∧ it.nackReceiver.getPendingNACKs ≠ []) := by
  rw [← List.length_eq_zero_iff, (iterate_spec hkeys it).2]
  split
  · next hdue => simp [hdue]
  · next hdue => simp [hdue]

/-- **One iteration** keeps what the record says, and keeps the rounds apart iff it is spaced. -/
theorem pace_step (hkeys : keys.Encrypts) (x : Control × Pace) (it : Iteration) (h : PaceOk x)
    (hmono : ClockAdvances x it) :
    PaceOk (augment (step keys) (notePace keys) x it) ∧
      (Apart 20000000 (augment (step keys) (notePace keys) x it).2.rounds ↔
        Apart 20000000 x.2.rounds ∧ Spaced x it) := by
  obtain ⟨c, p⟩ := x
  obtain ⟨htime, hcount⟩ := @iterate_spec keys c hkeys it
  change p.latest ≤ it.input.now at hmono
  by_cases hnil : c.requests keys it = []
  · -- no requests: the rounds stay
    have hquiet := (requests_eq_nil hkeys it).mp hnil
    refine ⟨⟨?_, ?_, ?_⟩, ?_⟩ <;> simp only [augment, notePace, if_pos hnil]
    · exact h.ten
    · intro r hr
      obtain ⟨hlatest, hsync⟩ := h.last r hr
      change r.time ≤ p.latest at hlatest
      refine ⟨by omega, ?_⟩
      rw [htime]
      split
      · omega
      · exact hsync
    · intro t ht
      split at ht
      · cases ht
      · exact h.since t ht
    · refine (and_iff_left ?_).symm
      intro hdue hpending
      exact absurd ⟨hdue, hpending⟩ hquiet
  · have hasks : c.RequestsDue it.input.now ∧ it.nackReceiver.getPendingNACKs ≠ [] := by
      by_contra hnot
      exact hnil ((requests_eq_nil hkeys it).mpr hnot)
    refine ⟨⟨?_, ?_, ?_⟩, ?_⟩ <;> simp only [augment, notePace, if_neg hnil]
    · intro r hr
      rcases List.mem_append.mp hr with hr | hr
      · exact h.ten r hr
      · cases List.mem_singleton.mp hr
        show (c.requests keys it).length ≤ 10
        rw [hcount, if_pos hasks.1]
        exact length_pending_le _
    · intro r hr
      rw [List.getLast?_concat] at hr
      cases hr
      refine ⟨Int.le_refl _, ?_⟩
      rw [htime]
      split
      · exact fun _ => Int.le_refl _
      · exact fun hs => nomatch hs
    · intro t ht
      split at ht
      · cases ht
      · cases ht
        exact ⟨_, List.getLast?_concat, rfl⟩
    · rw [apart_snoc]
      refine and_congr_right fun _ => ?_
      constructor
      · intro hlast _ _ t ht
        obtain ⟨r, hr, rfl⟩ := h.since t ht
        exact hlast r hr
      · intro hspaced r hr
        show r.time + 20000000 ≤ it.input.now
        cases hsince : p.since with
        | some t =>
          obtain ⟨r', hr', rfl⟩ := h.since t hsince
          rw [hr] at hr'
          cases hr'
          exact hspaced hasks.1 hasks.2 _ hsince
        | none =>
          -- the clock was synchronised since the last round
          have hsync := (h.last r hr).2 hsince
          have hdue := twenty_le_milliseconds.mp hasks.1
          change r.time ≤ c.lastTimeSync at hsync
          omega

/-- The readings of the clock, in order from `t` on. -/
theorem along_clockAdvances {x : Control × Pace} {its : List Iteration}
    (h : List.IsChain (· ≤ ·) (x.2.latest :: its.map (·.input.now))) :
    Along (augment (step keys) (notePace keys)) ClockAdvances x its := by
  induction its generalizing x with
  | nil => trivial
  | cons it its ih =>
    rw [List.map_cons, List.isChain_cons_cons] at h
    exact ⟨h.1, ih h.2⟩

/-! ## What the readings say -/

/-- The last time synchronisation after these iterations, from the readings alone: in a session the
clock is synchronised at each reading 2 s after the last time. -/
def lastSync (keys : SessionKeys) : Int → List Iteration → Int
  | last, [] => last
  | last, it :: its =>
    lastSync keys
      (if last + 2000000000 ≤ it.input.now ∧ keys.sessionId ≠ 0 then it.input.now else last) its

/-- After the iterations `past`, one that reads the clock 20 ms after the last synchronisation and
finds fragments missing. -/
def Asks (keys : SessionKeys) (syncTime : Int) (past : List Iteration) (it : Iteration) : Prop :=
  lastSync keys syncTime past + 20000000 ≤ it.input.now ∧ it.nackReceiver.getPendingNACKs ≠ []

/-- Any two iterations that ask, with no synchronisation at the first or between, are 20 ms apart. -/
def Unhurried (keys : SessionKeys) (syncTime : Int) (its : List Iteration) : Prop :=
  ∀ past b rest, its = past ++ b :: rest → Asks keys syncTime past b →
    ∀ before a mid, past = before ++ a :: mid → Asks keys syncTime before a →
      lastSync keys syncTime before = lastSync keys syncTime past →
        a.input.now + 20000000 ≤ b.input.now

variable {syncTime : Int}

theorem lastSync_append (past its : List Iteration) :
    lastSync keys syncTime (past ++ its) = lastSync keys (lastSync keys syncTime past) its := by
  induction past generalizing syncTime with
  | nil => rfl
  | cons it past ih => exact ih

theorem lastSync_le (its : List Iteration) : syncTime ≤ lastSync keys syncTime its := by
  induction its generalizing syncTime with
  | nil => exact Int.le_refl _
  | cons it its ih =>
    refine Int.le_trans ?_ ih
    split <;> omega

/-- What the record says of the iterations so far: `since` is the reading of the last one that asked,
if the clock was not synchronised since. -/
structure Recounts (keys : SessionKeys) (syncTime : Int) (past : List Iteration)
    (x : Control × Pace) : Prop where
  ok : PaceOk x
  sync : x.1.lastTimeSync = lastSync keys syncTime past
  asked : ∀ t, x.2.since = some t → t ≤ x.2.latest ∧ ∃ before a mid, past = before ++ a :: mid ∧
    Asks keys syncTime before a ∧ lastSync keys syncTime before = lastSync keys syncTime past ∧
    t = a.input.now
  last : ∀ before a mid, past = before ++ a :: mid → Asks keys syncTime before a →
    lastSync keys syncTime before = lastSync keys syncTime past →
      ∃ t, x.2.since = some t ∧ a.input.now ≤ t

theorem Recounts.asks_iff {past : List Iteration} {x : Control × Pace}
    (h : Recounts keys syncTime past x) (it : Iteration) : Asks keys syncTime past it ↔
      x.1.RequestsDue it.input.now ∧ it.nackReceiver.getPendingNACKs ≠ [] := by
  unfold Asks RequestsDue
  rw [twenty_le_milliseconds, h.sync]
  exact and_congr_left fun _ => by omega

theorem eq_or_split {α : Type} {past before mid : List α} {it a : α}
    (h : past ++ [it] = before ++ a :: mid) :
    (past = before ∧ it = a ∧ mid = []) ∨
      ∃ mid', mid = mid' ++ [it] ∧ past = before ++ a :: mid' := by
  rcases List.eq_nil_or_concat mid with rfl | ⟨mid', last, rfl⟩
  · obtain ⟨hpast, hit⟩ := List.append_inj' h rfl
    exact .inl ⟨hpast, (List.cons.inj hit).1, rfl⟩
  · rw [List.concat_eq_append, ← List.cons_append, ← List.append_assoc] at h
    obtain ⟨hpast, hit⟩ := List.append_inj' h rfl
    rw [List.concat_eq_append, (List.cons.inj hit).1]
    exact .inr ⟨mid', rfl, hpast⟩

theorem Recounts.syncDue_iff {past : List Iteration} {x : Control × Pace}
    (h : Recounts keys syncTime past x) (it : Iteration) : SyncDue keys x.1 it.input.now ↔
      lastSync keys syncTime past + 2000000000 ≤ it.input.now ∧ keys.sessionId ≠ 0 := by
  unfold SyncDue
  rw [two_le_seconds, h.sync]
  exact and_congr_left fun _ => by omega

theorem Recounts.lastSync_snoc {past : List Iteration} {x : Control × Pace}
    (h : Recounts keys syncTime past x) (it : Iteration) :
    lastSync keys syncTime (past ++ [it]) =
      if SyncDue keys x.1 it.input.now then it.input.now else lastSync keys syncTime past := by
  rw [lastSync_append]
  exact if_congr (h.syncDue_iff it).symm rfl rfl

theorem lastSync_before_le {past before mid : List Iteration} {it a : Iteration}
    (h : past ++ [it] = before ++ a :: mid) :
    lastSync keys syncTime before ≤ lastSync keys syncTime past := by
  rcases eq_or_split h with ⟨rfl, -, -⟩ | ⟨mid', -, rfl⟩
  · exact Int.le_refl _
  · rw [lastSync_append]
    exact lastSync_le _

theorem recounts_step (hkeys : keys.Encrypts) (past : List Iteration) (x : Control × Pace)
    (it : Iteration) (h : Recounts keys syncTime past x) (hmono : ClockAdvances x it) :
    Recounts keys syncTime (past ++ [it]) (augment (step keys) (notePace keys) x it) := by
  have hasks := h.asks_iff it
  have hnil := requests_eq_nil (c := x.1) hkeys it
  have hok := (pace_step hkeys x it h.ok hmono).1
  obtain ⟨htime, -⟩ := @iterate_spec keys x.1 hkeys it
  have hdue := h.syncDue_iff it
  have hsync := h.lastSync_snoc it
  obtain ⟨c, p⟩ := x
  change p.latest ≤ it.input.now at hmono
  refine ⟨hok, ?_, ?_, ?_⟩
  · rw [hsync, ← h.sync]
    exact htime
  · intro t ht
    change (if _ then _ else _) = some t at ht
    split at ht
    · cases ht
    next hno =>
    rw [if_neg hno] at hsync
    split at ht
    · obtain ⟨hle, before, a, mid, hpast, ha, heq, hta⟩ := h.asked t ht
      refine ⟨Int.le_trans hle hmono, before, a, mid ++ [it], ?_, ha, heq.trans hsync.symm, hta⟩
      rw [hpast, List.append_assoc, List.cons_append]
    · next hsome =>
      cases ht
      exact ⟨Int.le_refl _, past, it, [], rfl,
        hasks.mpr (by_contra fun hnot => hsome (hnil.mpr hnot)), hsync.symm, rfl⟩
  · intro before a mid hsplit ha heq
    by_cases hnow : SyncDue keys c it.input.now
    · -- a synchronisation at `it` is later than any before
      rw [if_pos hnow] at hsync
      have hlate := (hdue.mp hnow).1
      have hle : lastSync keys syncTime before ≤ lastSync keys syncTime past :=
        lastSync_before_le hsplit
      rw [hsync] at heq
      omega
    · rw [if_neg hnow] at hsync
      change ∃ t, (notePace keys c it p).since = some t ∧ _
      simp only [notePace, if_neg hnow]
      rcases eq_or_split hsplit with ⟨rfl, rfl, -⟩ | ⟨mid', -, hpast⟩
      · have hsome : c.requests keys it ≠ [] := fun hno => hnil.mp hno (hasks.mp ha)
        rw [if_neg hsome]
        exact ⟨_, rfl, Int.le_refl _⟩
      · obtain ⟨t, ht, hle⟩ := h.last before a mid' hpast ha (heq.trans hsync)
        split
        · exact ⟨t, ht, hle⟩
        · exact ⟨_, rfl, Int.le_trans hle (Int.le_trans (h.asked t ht).1 hmono)⟩

/-- An iteration is spaced iff it is apart from every earlier one that asks after the same
synchronisation. -/
theorem Recounts.spaced_iff {past : List Iteration} {x : Control × Pace}
    (h : Recounts keys syncTime past x) (b : Iteration) : Spaced x b ↔
      (Asks keys syncTime past b → ∀ before a mid, past = before ++ a :: mid →
        Asks keys syncTime before a → lastSync keys syncTime before = lastSync keys syncTime past →
          a.input.now + 20000000 ≤ b.input.now) := by
  rw [h.asks_iff b]
  unfold Spaced
  constructor
  · rintro hspaced ⟨hdue, hpending⟩ before a mid hsplit ha heq
    obtain ⟨t, ht, hle⟩ := h.last before a mid hsplit ha heq
    have hgap := hspaced hdue hpending t ht
    omega
  · intro hall hdue hpending t ht
    obtain ⟨-, before, a, mid, hsplit, ha, heq, rfl⟩ := h.asked t ht
    exact hall ⟨hdue, hpending⟩ before a mid hsplit ha heq

/-- A loop that starts at two readings of the clock, with an empty record. -/
def paceStart (feedbackTime syncTime : Int) (sendSequenceNumber : UInt64) : Control × Pace :=
  (start feedbackTime syncTime sendSequenceNumber, ⟨[], none, syncTime⟩)

/-- **Request pacing.** In a run of the loop the rounds of requests are paced iff any two iterations
that read the clock 20 ms after the same time synchronisation and find fragments missing are 20 ms
apart. -/
theorem paced_iff (keys : SessionKeys) (hkeys : keys.Encrypts) (feedbackTime syncTime : Int)
    (sendSequenceNumber : UInt64) (its : List Iteration)
    (hclock : List.IsChain (· ≤ ·) (syncTime :: its.map (·.input.now))) :
    Paced (run (augment (step keys) (notePace keys))
      (paceStart feedbackTime syncTime sendSequenceNumber) its).2.rounds ↔
    Unhurried keys syncTime its := by
  have h0 : PaceOk (paceStart feedbackTime syncTime sendSequenceNumber) :=
    ⟨fun r hr => (nomatch hr), fun r hr => (nomatch hr), fun t ht => (nomatch ht)⟩
  have hrecounts : Recounts keys syncTime []
      (paceStart feedbackTime syncTime sendSequenceNumber) :=
    ⟨h0, rfl, fun t ht => (nomatch ht), fun before a mid hsplit => by simp at hsplit⟩
  obtain ⟨hok, hexact⟩ := run_and_along
    (P := fun x : Control × Pace => Apart 20000000 x.2.rounds) (pace_step hkeys) h0
    (along_clockAdvances hclock)
  have hempty : Apart 20000000 (paceStart feedbackTime syncTime sendSequenceNumber).2.rounds :=
    apart_nil 20000000
  have hpaced : Paced (run (augment (step keys) (notePace keys))
      (paceStart feedbackTime syncTime sendSequenceNumber) its).2.rounds ↔ Apart 20000000
        (run (augment (step keys) (notePace keys))
          (paceStart feedbackTime syncTime sendSequenceNumber) its).2.rounds :=
    ⟨Paced.apart, fun h => ⟨h, fun start => h.length_inWindow_le (by decide) hok.ten start⟩⟩
  rw [hpaced, hexact, and_iff_right hempty]
  exact along_iff_history (recounts_step hkeys) (fun past x b h _ => h.spaced_iff b) hrecounts
    (along_clockAdvances hclock)

/-- The keys of a session over the build without libsodium. -/
def mockKeys : SessionKeys := ⟨mock, 7, [1]⟩

theorem mockKeys_encrypts : mockKeys.Encrypts := fun _ _ _ => rfl

/-- An iteration at `now` with frame 5 half received. -/
def halfReceived (now : Int) : Iteration where
  input := ⟨now, 5, 5, 0, 0, 0, ⟨0, 0, 0, 0, 0, 0, 0, 0⟩, fun _ => staleHeader 0, 0⟩
  gapReceiver := (Receiver.init 30).processPacket ⟨1, 5, 0, 2, 0, 0, 0, 0, 1, 1⟩ (fun _ => 0) 0
  nackReceiver := (Receiver.init 30).processPacket ⟨1, 5, 0, 2, 0, 0, 0, 0, 1, 1⟩ (fun _ => 0) 0
  decodeFailed := false

theorem unhurried_apart :
    Unhurried mockKeys 0 [halfReceived 30000000, halfReceived 50000000] := by
  rintro past b rest heq - before a mid rfl - -
  rcases before with _ | ⟨_, before⟩
  · rcases mid with _ | ⟨_, mid⟩
    · obtain ⟨rfl, rfl, -⟩ : halfReceived 30000000 = a ∧ halfReceived 50000000 = b ∧ rest = [] := by
        simpa using heq
      decide
    · simp at heq
  · have hlength := congrArg List.length heq
    simp only [List.length_append, List.length_cons, List.length_nil] at hlength
    omega

/-- Two iterations 20 ms apart. -/
theorem paced_iff_spaced :
    Paced (run (augment (step mockKeys) (notePace mockKeys)) (paceStart 0 0 0)
      [halfReceived 30000000, halfReceived 50000000]).2.rounds :=
  (paced_iff mockKeys mockKeys_encrypts 0 0 0 [halfReceived 30000000, halfReceived 50000000]
    (by decide)).mpr unhurried_apart

/-- Two iterations 1 ms apart ask for the same fragment twice. -/
theorem unspaced_not_paced :
    ¬ Paced (run (augment (step mockKeys) (notePace mockKeys)) (paceStart 0 0 0)
      [halfReceived 30000000, halfReceived 31000000]).2.rounds := by
  have htimes : (run (augment (step mockKeys) (notePace mockKeys)) (paceStart 0 0 0)
      [halfReceived 30000000, halfReceived 31000000]).2.rounds.map (·.time) =
        [30000000, 31000000] := by decide +kernel
  intro h
  have hchain : List.IsChain (fun a b : Int => a + 20000000 ≤ b) [30000000, 31000000] := by
    rw [← htimes, List.isChain_map]
    exact h.apart
  revert hchain
  decide

end Control

end RemotePlay.Client
