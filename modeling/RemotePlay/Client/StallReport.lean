import RemotePlay.Client.ControlLoop
import RemotePlay.Client.JitterRange

/-!
# Reporting a stalled stream

The session loop as a whole: an iteration reports, requests and plays, while
the network thread feeds the receiver. A stall is reported once for each
expected id, which `lastReportedMissingFrameId` remembers; it starts at 0, the
id that the receiver expects before its first keyframe. `answered_iff` says
that a stall goes unreported just when that memory is older than the stall, and
`freshGaps_iff` that with frame ids below the limit this is the stall at frame
0 and no other: elsewhere the read pointer never comes back to an id it has
left.
-/

namespace RemotePlay.Client

open Lib Protocol Host
open Control (mockKeys mockKeys_encrypts)

/-- Where the loop is in an iteration; the later parts go by what its start has read. -/
inductive LoopStage where
  | report
  | request (i : ControlInput)
  | play

structure SessionLoop where
  playback : Playback
  control : Control
  lastFrameId : UInt32
  /-- The frame id the network thread is about to store in `lastFrameId`. -/
  storing : Option UInt32
  stage : LoopStage

inductive SessionLoopEvent where
  /-- The network thread passes a video packet to the receiver. -/
  | packet (header : VideoHeader) (payload : Mem) (nowUs : UInt64)
  /-- `lastFrameId = max(lastFrameId, vh->frameId)`. -/
  | storeFrameId
  /-- The next part of the iteration, with what it reads and whether a frame fails to decode. -/
  | loop (i : ControlInput) (syncTimeUs : UInt64) (pushTime : Int) (decodeFailed : Bool)

/-- The iteration is over. -/
def LoopPc.isStart : LoopPc → Bool
  | .findKeyframe => true
  | _ => false

namespace SessionLoop

def init (poolSize : Nat) (control : Control) : SessionLoop :=
  ⟨.init poolSize, control, 0, none, .report⟩

/-- `receiver.GetNextExpectedFrameId()`. -/
def nextExpected (s : SessionLoop) : UInt32 := s.playback.receiver.nextFrameIdToRead

/-- What the start of an iteration reads. -/
def reads (s : SessionLoop) (i : ControlInput) : ControlInput :=
  { i with lastFrameId := s.lastFrameId }

/-- A popped frame is decoded, and fails. -/
def decodeFails (s : SessionLoop) (decodeFailed : Bool) : Bool :=
  match s.playback.pc, s.playback.dropped with
  | .giveBack _, [] => decodeFailed
  | _, _ => false

def step (keys : SessionKeys) (s : SessionLoop) : SessionLoopEvent → SessionLoop
  | .packet header payload nowUs =>
    match s.storing with
    | some _ => s
    | none =>
      { s with
        playback := s.playback.step (.packet header payload nowUs)
        storing := some header.frameId }
  | .storeFrameId =>
    match s.storing with
    | some frameId => { s with lastFrameId := max s.lastFrameId frameId, storing := none }
    | none => s
  | .loop i syncTimeUs pushTime decodeFailed =>
    match s.stage with
    | .report =>
      { s with
        control := (s.control.report keys (s.reads i) s.nextExpected).1
        stage := .request (s.reads i) }
    | .request i =>
      { s with
        control := (s.control.requestAndSync keys i s.playback.receiver).1
        stage := .play }
    | .play =>
      let playback := s.playback.step (.loop syncTimeUs pushTime)
      { s with
        playback
        control := s.control.decoded (s.decodeFails decodeFailed)
        stage := if playback.pc.isStart then .report else .play }

/-! ## The record -/

/-- A feedback packet with `requestKeyframe = 1`. -/
def asksKeyframe (sent : LoopSend) : Bool :=
  match sent.packet with
  | .feedback fh => fh.requestKeyframe == 1
  | _ => false

/-- The event sends such a packet. -/
def sendsRequest (keys : SessionKeys) (s : SessionLoop) (e : SessionLoopEvent) : Bool :=
  match s.stage, e with
  | .report, .loop i _ _ _ => (s.control.report keys (s.reads i) s.nextExpected).2.any asksKeyframe
  | _, _ => false

/-- An iteration begins with `lastFrameId` more than 10 ahead of the expected id. -/
def BeginsStalled (s : SessionLoop) (e : SessionLoopEvent) : Prop :=
  match s.stage, e with
  | .report, .loop _ _ _ _ => s.nextExpected.toNat + 10 < s.lastFrameId.toNat
  | _, _ => False

instance (s : SessionLoop) (e : SessionLoopEvent) : Decidable (s.BeginsStalled e) := by
  unfold BeginsStalled
  split <;> infer_instance

/-- The loop's flag once the event has looked for a gap, or has decoded a frame. -/
def flagRaised (keys : SessionKeys) (s : SessionLoop) (e : SessionLoopEvent) : Bool :=
  match s.stage, e with
  | .report, .loop _ _ _ _ => (s.control.detectGap s.lastFrameId s.nextExpected).requestKeyframe
  | _, _ => (s.step keys e).control.requestKeyframe

/-- Whether a keyframe request has been sent, and whether the loop's flag has been up, since the
expected id took its present value; and the ids of the stalls for which no request had been. -/
structure StallRecord where
  asked : Bool
  raised : Bool
  unanswered : List UInt32

def noteStall (keys : SessionKeys) (s : SessionLoop) (e : SessionLoopEvent) (g : StallRecord) :
    StallRecord where
  asked :=
    if (s.step keys e).nextExpected = s.nextExpected then g.asked || s.sendsRequest keys e else false
  raised :=
    if (s.step keys e).nextExpected = s.nextExpected then g.raised || s.flagRaised keys e
    else (s.step keys e).control.requestKeyframe
  unanswered :=
    if s.BeginsStalled e ∧ (g.asked || s.sendsRequest keys e) = false then
      g.unanswered ++ [s.nextExpected]
    else g.unanswered

/-- The loop of an established session, and the empty record. -/
def begin (poolSize : Nat) (feedbackTime syncTime : Int) (seq : UInt64) :
    SessionLoop × StallRecord :=
  (init poolSize (.start feedbackTime syncTime seq), ⟨false, false, []⟩)

/-- An iteration that begins stalled at the id remembered as reported has had the flag up at it. -/
def FreshGaps (x : SessionLoop × StallRecord) (e : SessionLoopEvent) : Prop :=
  x.1.BeginsStalled e → x.1.control.lastReportedMissingFrameId = x.1.nextExpected →
    x.2.raised = true

end SessionLoop

namespace SessionLoop

variable {keys : SessionKeys} {s : SessionLoop} {g : StallRecord}

/-! ## What a report does -/

/-- What keeps the loop's flag and the id it has reported last. -/
theorem requestAndSync_keeps (c : Control) (i : ControlInput) (r : Receiver) :
    (c.requestAndSync keys i r).1.requestKeyframe = c.requestKeyframe ∧
      (c.requestAndSync keys i r).1.lastReportedMissingFrameId =
        c.lastReportedMissingFrameId := by
  have hrequests : ∀ (nacks : List NACK) (n : Nat) (c : Control),
      (Control.sendRequests keys i c nacks n).1.requestKeyframe = c.requestKeyframe ∧
      (Control.sendRequests keys i c nacks n).1.lastReportedMissingFrameId =
        c.lastReportedMissingFrameId := by
    intro nacks
    induction nacks with
    | nil => exact fun _ _ => ⟨rfl, rfl⟩
    | cons nack nacks ih => exact fun n c => ih (n + 1) _
  have hlosses : (c.requestLosses keys i r).1.requestKeyframe = c.requestKeyframe ∧
      (c.requestLosses keys i r).1.lastReportedMissingFrameId = c.lastReportedMissingFrameId := by
    unfold Control.requestLosses
    split
    · exact hrequests _ 1 c
    · exact ⟨rfl, rfl⟩
  have hsync : ∀ c : Control, (c.syncTime keys i).1.requestKeyframe = c.requestKeyframe ∧
      (c.syncTime keys i).1.lastReportedMissingFrameId = c.lastReportedMissingFrameId := by
    intro c
    unfold Control.syncTime
    split <;> exact ⟨rfl, rfl⟩
  exact ⟨(hsync _).1.trans hlosses.1, (hsync _).2.trans hlosses.2⟩

/-- A report that the flag is set for sends the request. -/
theorem sendFeedback_asks (hkeys : keys.Encrypts) (hid : keys.sessionId ≠ 0) {c : Control}
    (hflag : c.requestKeyframe = true) (i : ControlInput) :
    (c.sendFeedback keys i).2.any asksKeyframe = true ∧
      (c.sendFeedback keys i).1.requestKeyframe = false := by
  have hsend := Control.length_send (c := c) hkeys (i.stackHeader 0)
    (.feedback (Control.feedbackHeader i c.requestKeyframe))
  obtain ⟨sent, hsent⟩ := List.length_eq_one_iff.mp hsend
  have hpacket := @Control.sent_send keys c (i.stackHeader 0)
    (.feedback (Control.feedbackHeader i c.requestKeyframe)) sent (by rw [hsent]; exact List.mem_cons_self)
  unfold Control.sendFeedback
  rw [if_pos (.inr hflag), if_pos hid]
  refine ⟨?_, rfl⟩
  show (c.send keys (i.stackHeader 0)
    (.feedback (Control.feedbackHeader i c.requestKeyframe))).2.any asksKeyframe = true
  rw [hsent, List.any_cons, asksKeyframe, hpacket, Control.feedbackHeader, hflag]
  rfl

/-- A report that the flag is not set for does not. -/
theorem sendFeedback_silent {c : Control} (hflag : c.requestKeyframe = false) (i : ControlInput) :
    (c.sendFeedback keys i).2.any asksKeyframe = false ∧
      (c.sendFeedback keys i).1.requestKeyframe = false := by
  unfold Control.sendFeedback
  split
  · split
    · refine ⟨?_, rfl⟩
      rw [List.any_eq_false]
      intro sent hsent
      rw [asksKeyframe, Control.sent_send _ _ sent hsent, Control.feedbackHeader, hflag]
      show ¬ ((0 : UInt8) == 1) = true
      decide
    · exact ⟨rfl, hflag⟩
  · exact ⟨rfl, hflag⟩

theorem sendFeedback_reported (c : Control) (i : ControlInput) :
    (c.sendFeedback keys i).1.lastReportedMissingFrameId = c.lastReportedMissingFrameId := by
  unfold Control.sendFeedback
  split
  · split <;> rfl
  · rfl

/-- A report leaves the receiver, and asks or stays silent with the gap detection. -/
theorem step_report (hstage : s.stage = .report) (i : ControlInput) (syncTimeUs : UInt64)
    (pushTime : Int) (failed : Bool) :
    s.step keys (.loop i syncTimeUs pushTime failed) =
        { s with
          control := ((s.control.detectGap s.lastFrameId s.nextExpected).sendFeedback keys
            (s.reads i)).1
          stage := .request (s.reads i) } ∧
      s.sendsRequest keys (.loop i syncTimeUs pushTime failed) =
        ((s.control.detectGap s.lastFrameId s.nextExpected).sendFeedback keys
          (s.reads i)).2.any asksKeyframe ∧
      (s.BeginsStalled (.loop i syncTimeUs pushTime failed) ↔
        s.nextExpected.toNat + 10 < s.lastFrameId.toNat) := by
  refine ⟨?_, ?_, ?_⟩
  · simp only [step, hstage]
    rfl
  · simp only [sendsRequest, hstage]
    rfl
  · simp only [BeginsStalled, hstage]

/-- What gap detection leaves: the flag for a gap not reported yet, or else no stall but at the id
reported last. -/
theorem detectGap_cases (c : Control) (lastFrameId nextExpected : UInt32) :
    (c.lastReportedMissingFrameId ≠ nextExpected ∧
        (c.detectGap lastFrameId nextExpected).requestKeyframe = true ∧
        (c.detectGap lastFrameId nextExpected).lastReportedMissingFrameId = nextExpected) ∨
      (c.detectGap lastFrameId nextExpected = c ∧
        (nextExpected.toNat + 10 < lastFrameId.toNat →
          c.lastReportedMissingFrameId = nextExpected)) := by
  unfold Control.detectGap
  split
  · next hgap => exact .inl ⟨hgap.2.symm, rfl, rfl⟩
  · next hnot =>
    refine .inr ⟨rfl, fun hstalled => ?_⟩
    by_contra hne
    refine hnot ⟨?_, Ne.symm hne⟩
    have hlimit := lastFrameId.toNat_lt
    show nextExpected + 10 < lastFrameId
    rw [UInt32.lt_iff_toNat_lt, UInt32.toNat_add]
    show (nextExpected.toNat + 10) % 2 ^ 32 < _
    omega

/-! ## What is asked for -/

/-- An event that is no report sends no feedback and begins no iteration. -/
def IsReport (s : SessionLoop) (e : SessionLoopEvent) : Prop :=
  s.stage = .report ∧ ∃ i syncTimeUs pushTime failed, e = .loop i syncTimeUs pushTime failed

theorem quiet_of_not_report {e : SessionLoopEvent} (h : ¬ s.IsReport e) :
    ¬ s.BeginsStalled e ∧ s.sendsRequest keys e = false ∧
      s.flagRaised keys e = (s.step keys e).control.requestKeyframe := by
  refine ⟨?_, ?_, ?_⟩
  · unfold BeginsStalled
    split
    · next hstage => exact absurd ⟨hstage, _, _, _, _, rfl⟩ h
    · exact id
  · unfold sendsRequest
    split
    · next hstage => exact absurd ⟨hstage, _, _, _, _, rfl⟩ h
    · rfl
  · unfold flagRaised
    split
    · next hstage => exact absurd ⟨hstage, _, _, _, _, rfl⟩ h
    · rfl

/-- Only a report takes the flag down, and only a report writes the id reported last. -/
theorem flag_of_not_report {e : SessionLoopEvent} (h : ¬ s.IsReport e) :
    (s.control.requestKeyframe = true → (s.step keys e).control.requestKeyframe = true) ∧
      (s.step keys e).control.lastReportedMissingFrameId =
        s.control.lastReportedMissingFrameId := by
  cases e with
  | packet header payload nowUs =>
    simp only [step]
    split <;> exact ⟨id, rfl⟩
  | storeFrameId =>
    simp only [step]
    split <;> exact ⟨id, rfl⟩
  | loop i syncTimeUs pushTime failed =>
    cases hstage : s.stage with
    | report => exact absurd ⟨hstage, _, _, _, _, rfl⟩ h
    | request i =>
      obtain ⟨hflag, hlast⟩ := @requestAndSync_keeps keys s.control i s.playback.receiver
      simp only [step, hstage, hflag, hlast]
      exact ⟨id, trivial⟩
    | play =>
      simp only [step, hstage, Control.decoded]
      split
      · exact ⟨fun _ => rfl, rfl⟩
      · exact ⟨id, rfl⟩

/-- A report's flag after gap detection is what it sends, and the flag is down after it. -/
theorem report_spec (hkeys : keys.Encrypts) (hsession : keys.sessionId ≠ 0)
    (hstage : s.stage = .report) (i : ControlInput) (syncTimeUs : UInt64) (pushTime : Int)
    (failed : Bool) :
    s.sendsRequest keys (.loop i syncTimeUs pushTime failed) =
        s.flagRaised keys (.loop i syncTimeUs pushTime failed) ∧
      (s.step keys (.loop i syncTimeUs pushTime failed)).control.requestKeyframe = false := by
  obtain ⟨hstep, hsends, -⟩ := @step_report keys s hstage i syncTimeUs pushTime failed
  have hraised : s.flagRaised keys (.loop i syncTimeUs pushTime failed) =
      (s.control.detectGap s.lastFrameId s.nextExpected).requestKeyframe := by
    simp only [flagRaised, hstage]
  rw [hstep, hsends, hraised]
  cases hflag : (s.control.detectGap s.lastFrameId s.nextExpected).requestKeyframe with
  | true => exact sendFeedback_asks hkeys hsession hflag (s.reads i)
  | false => exact sendFeedback_silent hflag (s.reads i)

/-- The flag has been up just when a request has been sent or is still to be. -/
def Pending (x : SessionLoop × StallRecord) : Prop :=
  x.2.raised = (x.2.asked || x.1.control.requestKeyframe)

/-- What a report leaves of the flag, and when it answers the stall it is made at. -/
theorem Pending.report (hkeys : keys.Encrypts) (hsession : keys.sessionId ≠ 0)
    (h : Pending (s, g)) (hstage : s.stage = .report) (i : ControlInput) (syncTimeUs : UInt64)
    (pushTime : Int) (failed : Bool) :
    Pending (augment (step keys) (noteStall keys) (s, g) (.loop i syncTimeUs pushTime failed)) ∧
      (s.BeginsStalled (.loop i syncTimeUs pushTime failed) →
        ((g.asked || s.sendsRequest keys (.loop i syncTimeUs pushTime failed)) = true ↔
          (s.control.lastReportedMissingFrameId = s.nextExpected → g.raised = true))) := by
  obtain ⟨hstep, -, hbegins⟩ := @step_report keys s hstage i syncTimeUs pushTime failed
  obtain ⟨hsends, hdown⟩ := report_spec hkeys hsession hstage i syncTimeUs pushTime failed
  have hnext : (s.step keys (.loop i syncTimeUs pushTime failed)).nextExpected =
      s.nextExpected := by rw [hstep]; rfl
  have hraised : s.flagRaised keys (.loop i syncTimeUs pushTime failed) =
      (s.control.detectGap s.lastFrameId s.nextExpected).requestKeyframe := by
    simp only [flagRaised, hstage]
  have hkept : s.control.requestKeyframe = true →
      (s.control.detectGap s.lastFrameId s.nextExpected).requestKeyframe = true := by
    intro hflag
    unfold Control.detectGap
    split
    · rfl
    · exact hflag
  change g.raised = (g.asked || s.control.requestKeyframe) at h
  constructor
  · show (noteStall keys s _ g).raised = ((noteStall keys s _ g).asked ||
      (s.step keys (.loop i syncTimeUs pushTime failed)).control.requestKeyframe)
    unfold noteStall
    rw [if_pos hnext, if_pos hnext, hdown, hsends, hraised, h]
    revert hkept
    cases g.asked <;> cases s.control.requestKeyframe <;>
      cases (s.control.detectGap s.lastFrameId s.nextExpected).requestKeyframe <;> simp
  · rw [hbegins, hsends, hraised, h]
    intro hstalled
    rcases detectGap_cases s.control s.lastFrameId s.nextExpected with
      ⟨hne, hflag, -⟩ | ⟨hsame, hold⟩
    · rw [hflag, Bool.or_true]
      exact iff_of_true rfl fun heq => absurd heq hne
    · rw [hsame]
      exact ⟨fun hyes _ => hyes, fun hyes => hyes (hold hstalled)⟩

/-- **One step** keeps the flag's record, and leaves the stalls answered iff the gap is fresh. -/
theorem pending_step (hkeys : keys.Encrypts) (hsession : keys.sessionId ≠ 0)
    (x : SessionLoop × StallRecord) (e : SessionLoopEvent) (h : Pending x) :
    Pending (augment (step keys) (noteStall keys) x e) ∧
      ((augment (step keys) (noteStall keys) x e).2.unanswered = [] ↔
        x.2.unanswered = [] ∧ FreshGaps x e) := by
  obtain ⟨s, g⟩ := x
  by_cases hreport : s.IsReport e
  · obtain ⟨hstage, i, syncTimeUs, pushTime, failed, rfl⟩ := hreport
    obtain ⟨hnext, hanswer⟩ := h.report hkeys hsession hstage i syncTimeUs pushTime failed
    refine ⟨hnext, ?_⟩
    show (noteStall keys s _ g).unanswered = [] ↔ _
    unfold noteStall FreshGaps
    simp only
    split
    · next hand =>
      simp only [List.append_eq_nil_iff, List.cons_ne_nil, and_false, false_iff]
      rintro ⟨-, hfresh⟩
      have hyes := (hanswer hand.1).mpr (hfresh hand.1)
      rw [hand.2] at hyes
      cases hyes
    · next hnot =>
      refine (and_iff_left fun hstalled => (hanswer hstalled).mp ?_).symm
      rw [← Bool.not_eq_false]
      exact fun hf => hnot ⟨hstalled, hf⟩
  · obtain ⟨hbegins, hsends, hraised⟩ := @quiet_of_not_report keys s e hreport
    have hkept := (@flag_of_not_report keys s e hreport).1
    change g.raised = (g.asked || s.control.requestKeyframe) at h
    constructor
    · show (noteStall keys s e g).raised = ((noteStall keys s e g).asked ||
        (s.step keys e).control.requestKeyframe)
      unfold noteStall
      rw [hsends, hraised, h]
      revert hkept
      cases g.asked <;> cases s.control.requestKeyframe <;>
        cases (s.step keys e).control.requestKeyframe <;> simp
    · have hsame : (noteStall keys s e g).unanswered = g.unanswered :=
        if_neg fun hand => hbegins hand.1
      show (noteStall keys s e g).unanswered = [] ↔ _
      rw [hsame]
      exact (and_iff_left fun hb => absurd hb hbegins).symm

/-- **Stalls.** In a run of the loop every iteration that begins stalled has asked for a keyframe
since the expected id took its value iff none takes an old memory of that id for a report. -/
theorem answered_iff (keys : SessionKeys) (hkeys : keys.Encrypts) (hsession : keys.sessionId ≠ 0)
    (poolSize : Nat) (feedbackTime syncTime : Int) (seq : UInt64) (es : List SessionLoopEvent) :
    (run (augment (step keys) (noteStall keys)) (begin poolSize feedbackTime syncTime seq)
        es).2.unanswered = [] ↔
      Along (augment (step keys) (noteStall keys)) FreshGaps
        (begin poolSize feedbackTime syncTime seq) es := by
  have h0 : Pending (begin poolSize feedbackTime syncTime seq) := rfl
  have hall : Along (augment (step keys) (noteStall keys)) (fun _ _ => True)
      (begin poolSize feedbackTime syncTime seq) es := along_of_forall fun _ _ => trivial
  have hexact := (run_and_along (P := fun x : SessionLoop × StallRecord => x.2.unanswered = [])
    (fun x e h _ => pending_step hkeys hsession x e h) h0 hall).2
  rw [hexact]
  exact and_iff_right rfl

/-- An iteration 30 ms after the loop's start. -/
def firstIteration : SessionLoopEvent := .loop (Control.halfReceived 30000000).input 0 0 false

/-- The keyframe 1 half received, then a fragment of frame 20. -/
def stalledAtOne : List SessionLoopEvent :=
  [.packet ⟨1, 1, 0, 2, 0, 0, 0, 0, 1, 1⟩ (fun _ => 0) 0, .storeFrameId,
    .packet ⟨1, 20, 0, 1, 0, 0, 0, 0, 0, 1⟩ (fun _ => 0) 0, .storeFrameId, firstIteration]

/-- A stall past frame 0 is reported. -/
theorem answered_iff_one : (run (augment (step mockKeys) (noteStall mockKeys)) (begin 30 0 0 0)
    stalledAtOne).2.unanswered = [] := by
  refine (answered_iff mockKeys mockKeys_encrypts (by decide) 30 0 0 0 stalledAtOne).mpr
    ⟨fun h => False.elim h, fun h => False.elim h, fun h => False.elim h, fun h => False.elim h,
      fun _ heq => absurd heq ?_, trivial⟩
  decide +kernel

/-- A fragment of frame 11 and no keyframe: no request is sent. -/
theorem stalledAtZero_unanswered : (run (augment (step mockKeys) (noteStall mockKeys))
    (begin 30 0 0 0) [.packet ⟨1, 11, 0, 1, 0, 0, 0, 0, 0, 1⟩ (fun _ => 0) 0, .storeFrameId,
      firstIteration]).2.unanswered ≠ [] := by
  decide +kernel

end SessionLoop

/-! ## The read pointer -/

/-- The read pointer does not go back, and stays at 0 before the first keyframe. -/
structure Receiver.Rises (r r' : Receiver) : Prop where
  pointer : r.nextFrameIdToRead ≤ r'.nextFrameIdToRead
  idle : (r.firstFrameReceived = false → r.nextFrameIdToRead = 0) →
    r'.firstFrameReceived = false → r'.nextFrameIdToRead = 0

namespace Receiver

variable {r r' : Receiver}

theorem Rises.refl (r : Receiver) : Rises r r := ⟨UInt32.le_refl _, fun h => h⟩

theorem rises_of_same (h : SameReader r r') : Rises r r' := by
  refine ⟨?_, ?_⟩
  · rw [h.nextFrameIdToRead]
    exact UInt32.le_refl _
  · rw [h.nextFrameIdToRead, h.firstFrameReceived]
    exact id

theorem rises_processPacket (hidle : r.firstFrameReceived = false → r.nextFrameIdToRead = 0)
    (header : VideoHeader) (payload : Mem) (nowUs : UInt64) :
    Rises r (r.processPacket header payload nowUs) := by
  cases hfirst : r.firstFrameReceived with
  | true =>
    obtain ⟨h1, h2⟩ := processPacket_pointer hfirst header payload nowUs
    refine ⟨?_, fun _ h => ?_⟩
    · rw [h2]
      exact UInt32.le_refl _
    · rw [h1] at h
      cases h
  | false =>
    rcases processPacket_cases r header payload nowUs with ⟨-, heq⟩ | ⟨r', hgate, hcases⟩
    · rw [heq]
      exact .refl r
    · have hstarted : (r.processPacket header payload nowUs).firstFrameReceived = true := by
        rcases hcases with ⟨-, heq⟩ | ⟨-, ht⟩
        · rw [heq]
          exact (gate_some hgate).1
        · exact ht.firstFrameReceived.trans
            ((framesOnly_ensureFrame r' header nowUs).firstFrameReceived.trans (gate_some hgate).1)
      refine ⟨?_, fun _ h => ?_⟩
      · rw [hidle hfirst, UInt32.le_iff_toNat_le]
        exact Nat.zero_le _
      · rw [hstarted] at h
        cases h

theorem rises_getNextFrame (h : r.Ahead) : Rises r r.getNextFrame.2 := by
  rcases getNextFrame_cases r with heq | ⟨f, hf, -, heq⟩
  · rw [heq]
    exact .refl r
  · obtain ⟨hget, hid⟩ := frameAt_eq_some.mp hf
    have hlimit := UInt32.lt_iff_toNat_lt.mp (h.frames _ f hget).2
    have hconst : frameIdLimit.toNat = 4294967232 := rfl
    rw [hid] at hlimit
    rw [heq]
    refine ⟨?_, fun _ hfirst => ?_⟩
    · rw [UInt32.le_iff_toNat_le]
      show _ ≤ (r.nextFrameIdToRead + 1).toNat
      rw [UInt32.toNat_add]
      show _ ≤ (r.nextFrameIdToRead.toNat + 1) % 2 ^ 32
      omega
    · rw [h.idle hfirst] at hget
      cases hget

theorem rises_forceAdvanceTo (frameId : UInt32) (hstarted : r.firstFrameReceived = true) :
    Rises r (r.forceAdvanceTo frameId) := by
  rcases r.forceAdvanceTo_cases frameId with ⟨-, heq⟩ | ⟨hlt, r', hd, heq⟩ <;> rw [heq]
  · exact .refl r
  · refine ⟨UInt32.le_of_lt hlt, fun _ hfirst => ?_⟩
    rw [show _ = r'.firstFrameReceived from rfl, hd.same.firstFrameReceived, hstarted] at hfirst
    cases hfirst

end Receiver

namespace Playback

variable {s : Playback}

theorem rises_step (h : InStep s)
    (hidle : s.receiver.firstFrameReceived = false → s.receiver.nextFrameIdToRead = 0)
    (e : PlaybackEvent) : s.receiver.Rises (s.step e).receiver := by
  have hreturn : ∀ f, s.receiver.Rises (s.receiver.returnToPool f) := fun f =>
    Receiver.rises_of_same (s.receiver.framesOnly_returnToPool f).toSameReader
  cases e with
  | packet header payload nowUs => exact Receiver.rises_processPacket hidle header payload nowUs
  | loop syncTimeUs now =>
    simp only [step]
    split
    · exact hreturn _
    have hat := h.atPc
    cases hpc : s.pc with
    | findKeyframe =>
      simp only [loopStep, hpc]
      exact .refl _
    | checkKeyframe latest =>
      simp only [loopStep, hpc]
      split <;> exact .refl _
    | advance latest =>
      rw [hpc] at hat
      simp only [loopStep, hpc]
      exact Receiver.rises_forceAdvanceTo latest hat.1
    | resetJitter latest =>
      simp only [loopStep, hpc]
      exact .refl _
    | drain =>
      simp only [loopStep, hpc]
      exact Receiver.rises_getNextFrame h.ahead
    | push frame =>
      simp only [loopStep, hpc]
      exact .refl _
    | pop =>
      simp only [loopStep, hpc]
      split <;> exact .refl _
    | giveBack frame =>
      simp only [loopStep, hpc]
      exact hreturn frame

/-- A frame has been popped only after the pointer has stepped over one. -/
def PopsBehind (s : Playback) : Prop :=
  ∀ frame, s.pc = .giveBack frame → s.receiver.nextFrameIdToRead ≠ 0

theorem ne_zero_of_le {a b : UInt32} (ha : a ≠ 0) (hab : a ≤ b) : b ≠ 0 := by
  rintro rfl
  rw [UInt32.le_iff_toNat_le] at hab
  exact ha (UInt32.toNat_inj.mp (Nat.le_zero.mp hab))

theorem popsBehind_step (h : InStep s)
    (hidle : s.receiver.firstFrameReceived = false → s.receiver.nextFrameIdToRead = 0)
    (hpops : PopsBehind s) (e : PlaybackEvent) : PopsBehind (s.step e) := by
  have hrises := rises_step h hidle e
  intro frame hframe
  by_cases hold : ∃ frame', s.pc = .giveBack frame'
  · obtain ⟨frame', hpc⟩ := hold
    exact ne_zero_of_le (hpops frame' hpc) hrises.pointer
  cases e with
  | packet header payload nowUs => exact absurd ⟨frame, hframe⟩ hold
  | loop syncTimeUs now =>
    cases hdropped : s.dropped with
    | cons f rest =>
      simp only [step, hdropped] at hframe
      exact absurd ⟨frame, hframe⟩ hold
    | nil =>
      simp only [step, hdropped] at hframe ⊢
      cases hpc : s.pc with
      | pop =>
        simp only [loopStep, hpc] at hframe ⊢
        cases hinit : s.jitterBuffer.initialized with
        | false =>
          have hempty := ((h.fresh hinit).slots s.jitterBuffer.nextPopFrameId).2
          simp [JitterBuffer.popFrame, hempty] at hframe
        | true =>
          have hfill := (h.filled hinit).2
          rw [hpc] at hfill
          rcases hfill.1.popFrame syncTimeUs now with ⟨-, heq⟩ | ⟨hlt, f, -, -, heq⟩
          · rw [heq] at hframe
            cases hframe
          · have hpos : s.receiver.nextFrameIdToRead ≠ 0 := by
              intro hzero
              rw [hzero] at hlt
              exact absurd hlt (Nat.not_lt_zero _)
            split <;> exact hpos
      | checkKeyframe latest =>
        simp only [loopStep, hpc] at hframe
        split at hframe <;> cases hframe
      | drain =>
        simp only [loopStep, hpc] at hframe
        split at hframe <;> cases hframe
      | giveBack frame' => exact absurd ⟨frame', hpc⟩ hold
      | _ =>
        simp only [loopStep, hpc] at hframe
        cases hframe

end Playback

namespace SessionLoop

variable {keys : SessionKeys} {s : SessionLoop} {g : StallRecord}

/-! ## Frame 0 -/

/-- What the loop's variables and the record say of the read pointer. -/
structure Remembers (x : SessionLoop × StallRecord) : Prop where
  inStep : x.1.playback.InStep
  idle : x.1.playback.receiver.firstFrameReceived = false → x.1.nextExpected = 0
  pops : x.1.playback.PopsBehind
  behind : x.1.control.lastReportedMissingFrameId ≤ x.1.nextExpected
  /-- A gap past frame 0 that has been reported has been so at the present id. -/
  reported : x.1.control.lastReportedMissingFrameId = x.1.nextExpected → x.1.nextExpected ≠ 0 →
    x.2.raised = true
  pending : Pending x
  zero : x.1.nextExpected = 0 → x.2.raised = false

theorem remembers_begin (poolSize : Nat) (feedbackTime syncTime : Int) (seq : UInt64) :
    Remembers (begin poolSize feedbackTime syncTime seq) where
  inStep := Playback.inStep_init poolSize
  idle _ := rfl
  pops _ h := nomatch h
  behind := UInt32.le_refl _
  reported _ h := absurd rfl h
  pending := rfl
  zero _ := rfl

/-- The frame ids on the wire are below the limit. -/
def IdsBelow (_ : SessionLoop × StallRecord) : SessionLoopEvent → Prop
  | .packet header _ _ => header.frameId < frameIdLimit
  | _ => True

/-- A stalled iteration does not expect frame 0. -/
def StallsPastZero (x : SessionLoop × StallRecord) (e : SessionLoopEvent) : Prop :=
  x.1.BeginsStalled e → x.1.nextExpected ≠ 0

/-- The playback takes a step of its own, or none. -/
theorem step_playback (e : SessionLoopEvent) (hid : IdsBelow (s, g) e) :
    (s.step keys e).playback = s.playback ∨
      ∃ e' : PlaybackEvent, e'.IdsBelow ∧ (s.step keys e).playback = s.playback.step e' := by
  cases e with
  | packet header payload nowUs =>
    simp only [step]
    split
    · exact .inl rfl
    · exact .inr ⟨.packet header payload nowUs, hid, rfl⟩
  | storeFrameId =>
    simp only [step]
    split <;> exact .inl rfl
  | loop i syncTimeUs pushTime failed =>
    simp only [step]
    split
    · exact .inl rfl
    · exact .inl rfl
    · exact .inr ⟨.loop syncTimeUs pushTime, trivial, rfl⟩

/-- The flag goes up outside a report only when a frame has been popped. -/
theorem raised_past_zero (hpops : s.playback.PopsBehind) {e : SessionLoopEvent}
    (hreport : ¬ s.IsReport e) (hup : (s.step keys e).control.requestKeyframe = true) :
    s.control.requestKeyframe = true ∨ s.nextExpected ≠ 0 := by
  cases e with
  | packet header payload nowUs =>
    simp only [step] at hup
    split at hup <;> exact .inl hup
  | storeFrameId =>
    simp only [step] at hup
    split at hup <;> exact .inl hup
  | loop i syncTimeUs pushTime failed =>
    cases hstage : s.stage with
    | report => exact absurd ⟨hstage, _, _, _, _, rfl⟩ hreport
    | request i =>
      simp only [step, hstage, (@requestAndSync_keeps keys s.control i _).1] at hup
      exact .inl hup
    | play =>
      simp only [step, hstage, Control.decoded] at hup
      split at hup
      · next hfailed =>
        unfold decodeFails at hfailed
        split at hfailed
        · next hpc _ => exact .inr (hpops _ hpc)
        · cases hfailed
      · exact .inl hup

/-- While frame 0 is expected, the flag is down. -/
theorem Remembers.flag_zero (h : Remembers (s, g)) (hz : s.nextExpected = 0) :
    s.control.requestKeyframe = false := by
  have hpending := h.pending
  have hzero := h.zero hz
  change g.raised = (g.asked || s.control.requestKeyframe) at hpending
  change g.raised = false at hzero
  rw [hzero] at hpending
  exact (Bool.or_eq_false_iff.mp hpending.symm).2

/-- The id of the last gap reported, the read pointer and the flag, as `Remembers` has them. -/
structure Recalls (last next : UInt32) (raised : Bool) : Prop where
  behind : last ≤ next
  reported : last = next → next ≠ 0 → raised = true
  zero : next = 0 → raised = false

/-- A report takes the read pointer over, or finds it reported. -/
theorem recalls_report (h : Remembers (s, g)) {e : SessionLoopEvent} (hreport : s.IsReport e) :
    Recalls (s.step keys e).control.lastReportedMissingFrameId (s.step keys e).nextExpected
      (noteStall keys s e g).raised := by
  have hbehind := h.behind
  have hreported := h.reported
  have hzero := h.zero
  simp only at hbehind hreported hzero
  obtain ⟨hstage, i, syncTimeUs, pushTime, failed, rfl⟩ := hreport
  obtain ⟨heq, -, -⟩ := @step_report keys s hstage i syncTimeUs pushTime failed
  have hnext : (s.step keys (.loop i syncTimeUs pushTime failed)).nextExpected =
      s.nextExpected := by rw [heq]; rfl
  have hlast : (s.step keys
      (.loop i syncTimeUs pushTime failed)).control.lastReportedMissingFrameId =
      (s.control.detectGap s.lastFrameId s.nextExpected).lastReportedMissingFrameId := by
    rw [heq]
    exact sendFeedback_reported _ _
  have hraised : s.flagRaised keys (.loop i syncTimeUs pushTime failed) =
      (s.control.detectGap s.lastFrameId s.nextExpected).requestKeyframe := by
    simp only [flagRaised, hstage]
  unfold noteStall
  simp only
  rw [if_pos hnext, hnext, hlast, hraised]
  rcases detectGap_cases s.control s.lastFrameId s.nextExpected with
    ⟨hne, hflag, hnew⟩ | ⟨hsame, -⟩
  · rw [hflag, hnew, Bool.or_true]
    refine ⟨UInt32.le_refl _, fun _ _ => rfl, fun hz => absurd ?_ hne⟩
    rw [hz, UInt32.le_iff_toNat_le] at hbehind
    rw [hz]
    exact UInt32.toNat_inj.mp (Nat.le_zero.mp hbehind)
  · rw [hsame]
    refine ⟨hbehind, fun hid hne => ?_, fun hz => ?_⟩
    · rw [hreported hid hne, Bool.true_or]
    · rw [hzero hz, h.flag_zero hz]
      rfl

/-- Outside a report the read pointer may go on, and the flag may go up behind frame 0. -/
theorem recalls_quiet (h : Remembers (s, g)) {e : SessionLoopEvent} (hreport : ¬ s.IsReport e)
    (hle : s.nextExpected ≤ (s.step keys e).nextExpected) :
    Recalls (s.step keys e).control.lastReportedMissingFrameId (s.step keys e).nextExpected
      (noteStall keys s e g).raised := by
  have hbehind := h.behind
  have hreported := h.reported
  have hzero := h.zero
  simp only at hbehind hreported hzero
  obtain ⟨-, -, hraised⟩ := @quiet_of_not_report keys s e hreport
  have hlast := (@flag_of_not_report keys s e hreport).2
  unfold noteStall
  simp only
  rw [hlast, hraised]
  refine ⟨UInt32.le_trans hbehind hle, fun heq hne => ?_, fun hz => ?_⟩
  · have hsame : (s.step keys e).nextExpected = s.nextExpected := by
      apply UInt32.le_antisymm _ hle
      rw [← heq]
      exact hbehind
    rw [if_pos hsame]
    rw [hsame] at heq hne
    rw [hreported heq hne, Bool.true_or]
  · have hold : s.nextExpected = 0 := by
      rw [hz, UInt32.le_iff_toNat_le] at hle
      exact UInt32.toNat_inj.mp (Nat.le_zero.mp hle)
    have hdown : (s.step keys e).control.requestKeyframe = false := by
      rw [← Bool.not_eq_true]
      intro hup
      rcases raised_past_zero h.pops hreport hup with hflag | hne
      · rw [h.flag_zero hold] at hflag
        cases hflag
      · exact hne hold
    rw [if_pos (hz.trans hold.symm), hzero hold, hdown]
    rfl

/-- **One step** keeps what the loop remembers. -/
theorem remembers_step (hkeys : keys.Encrypts) (hsession : keys.sessionId ≠ 0)
    (x : SessionLoop × StallRecord) (e : SessionLoopEvent) (h : Remembers x) (hid : IdsBelow x e) :
    Remembers (augment (step keys) (noteStall keys) x e) := by
  obtain ⟨s, g⟩ := x
  have hreader : (s.step keys e).playback.InStep ∧
      s.playback.receiver.Rises (s.step keys e).playback.receiver ∧
      (s.step keys e).playback.PopsBehind := by
    rcases @step_playback keys s g e hid with heq | ⟨e', hid', heq⟩ <;> rw [heq]
    · exact ⟨h.inStep, .refl _, h.pops⟩
    · exact ⟨Playback.inStep_step s.playback e' h.inStep hid',
        Playback.rises_step h.inStep h.idle e', Playback.popsBehind_step h.inStep h.idle h.pops e'⟩
  obtain ⟨hstep, hrises, hpops⟩ := hreader
  have hpending := (pending_step hkeys hsession (s, g) e h.pending).1
  have hrecalls : Recalls (s.step keys e).control.lastReportedMissingFrameId
      (s.step keys e).nextExpected (noteStall keys s e g).raised := by
    by_cases hreport : s.IsReport e
    · exact recalls_report h hreport
    · exact recalls_quiet h hreport hrises.pointer
  exact ⟨hstep, hrises.idle h.idle, hpops, hrecalls.behind, hrecalls.reported, hpending,
    hrecalls.zero⟩

/-- With frame ids below the limit **the gaps are fresh** iff no stalled iteration expects frame 0. -/
theorem freshGaps_iff (keys : SessionKeys) (hkeys : keys.Encrypts) (hsession : keys.sessionId ≠ 0)
    (poolSize : Nat) (feedbackTime syncTime : Int) (seq : UInt64) (es : List SessionLoopEvent)
    (hids : Along (augment (step keys) (noteStall keys)) IdsBelow
      (begin poolSize feedbackTime syncTime seq) es) :
    Along (augment (step keys) (noteStall keys)) FreshGaps
        (begin poolSize feedbackTime syncTime seq) es ↔
      Along (augment (step keys) (noteStall keys)) StallsPastZero
        (begin poolSize feedbackTime syncTime seq) es := by
  refine along_congr_of (remembers_step hkeys hsession) (fun x e h _ => ?_)
    (remembers_begin poolSize feedbackTime syncTime seq) hids
  refine forall_congr' fun _ => ⟨fun hfresh hzero => ?_, fun hne heq => h.reported heq hne⟩
  have hbehind := h.behind
  rw [hzero, UInt32.le_iff_toNat_le] at hbehind
  have hraised := hfresh ((UInt32.toNat_inj.mp (Nat.le_zero.mp hbehind)).trans hzero.symm)
  rw [h.zero hzero] at hraised
  cases hraised

end SessionLoop

end RemotePlay.Client
