import RemotePlay.AI.IntelligentRouter
import RemotePlay.Client.ControlLoop
import RemotePlay.Lib.Pacing
import RemotePlay.Lib.Run
import Mathlib.Algebra.Order.BigOperators.Group.Finset
import Mathlib.Tactic.Ring

/-!
# The handshake loop

The client sends its hello to the host and to all its candidates, and repeats it
after one, two, four and then every five seconds until it is answered or thirty
seconds are over. An event is an iteration of the loop, with its reading of the
steady clock in nanoseconds, or the answer. The fallback to the relay, after three
seconds without a retry, comes too late to change anything (`relay_fallback_iff`).
-/

namespace RemotePlay.Client

open Lib AI IntelligentRouter Finset

/-! ## An attempt -/

/-- A candidate with its priority: 0 for the LAN, 1 for one that STUN found, 2 for a relay. -/
structure RankedCandidate extends ConnectivityCandidate where
  priority : UInt8

inductive HandshakePacket where
  | hello
  | holePunch
  deriving DecidableEq

/-- A `SendTo` of the handshake. -/
structure HandshakeSend where
  packet : HandshakePacket
  ip : String
  port : UInt16
  deriving DecidableEq

section
variable (sort : List (RouteScore ℚ) → List (RouteScore ℚ)) (hostIp : String)
  (clientCandidates : List RankedCandidate)

def RankedCandidate.route (cand : RankedCandidate) : RouteCandidate ℚ :=
  let baseLat := if cand.priority = 0 then 50 else if cand.priority = 1 then 100 else 200
  ⟨cand.ip, cand.ip, cand.port, baseLat, 0, 0, 0⟩

/-- A hello and a hole punch. -/
def RankedCandidate.probes (cand : RankedCandidate) : List HandshakeSend :=
  [⟨.hello, cand.ip, cand.port⟩, ⟨.holePunch, cand.ip, cand.port⟩]

/-- The candidates under the id of a score; all that share an address come for each of them. -/
def probesFor (score : RouteScore ℚ) : List HandshakeSend :=
  (clientCandidates.filter (·.ip = score.id)).flatMap (·.probes)

def attemptHandshake : List HandshakeSend :=
  ⟨.hello, hostIp, 5005⟩ ::
    (rankRoutes calculateScore sort (clientCandidates.map (·.route))).flatMap
      (probesFor clientCandidates)

end

/-! ## The loop -/

structure HandshakeLoop where
  startHandshake : Int
  lastHandshakeSend : Int
  retryCount : Nat
  relayFallbackTriggered : Bool
  /-- Approved, rejected or stopped. -/
  answered : Bool
  timedOut : Bool
  sent : List HandshakeSend
  /-- The readings of the clock that the retries were sent at. -/
  retries : List Int
  /-- The last reading. -/
  now : Int

inductive HandshakeEvent where
  | iteration (now : Int)
  | answer

/-- `std::min(5, (1 << retryCount))`, in seconds. -/
def interval (retryCount : Nat) : Int := min 5 ((1 : BitVec 32) <<< retryCount).toInt

namespace HandshakeLoop

section
variable (attempt : List HandshakeSend)

/-- After the first attempt. -/
def start (startHandshake lastHandshakeSend : Int) : HandshakeLoop :=
  ⟨startHandshake, lastHandshakeSend, 0, false, false, false, attempt, [], lastHandshakeSend⟩

def triggerFallback (s : HandshakeLoop) (now : Int) : HandshakeLoop :=
  if seconds (now - s.startHandshake) ≥ 3 ∧ s.relayFallbackTriggered = false then
    { s with relayFallbackTriggered := true }
  else s

def RetryDue (s : HandshakeLoop) (now : Int) : Prop :=
  seconds (now - s.lastHandshakeSend) ≥ interval s.retryCount ∨
    s.relayFallbackTriggered = true ∧ s.retryCount = 0

instance (s : HandshakeLoop) (now : Int) : Decidable (s.RetryDue now) := by
  unfold RetryDue
  infer_instance

/-- `attemptHandshake()` once more. -/
def retry (s : HandshakeLoop) (now : Int) : HandshakeLoop :=
  { s with
    lastHandshakeSend := now
    retryCount := s.retryCount + 1
    sent := s.sent ++ attempt
    retries := s.retries ++ [now] }

def checkTimeout (s : HandshakeLoop) (now : Int) : HandshakeLoop :=
  if seconds (now - s.startHandshake) > 30 then { s with timedOut := true } else s

def iterate (s : HandshakeLoop) (now : Int) : HandshakeLoop :=
  let s := { s with now := now }.triggerFallback now
  (if s.RetryDue now then s.retry attempt now else s).checkTimeout now

def step (s : HandshakeLoop) : HandshakeEvent → HandshakeLoop
  | .iteration now => if s.answered || s.timedOut then s else s.iterate attempt now
  | .answer => { s with answered := true }

end

/-! ## When a retry is due -/

/-- Nanoseconds after the attempt before: one, two, four, then five seconds. -/
def backoff (retryCount : Nat) : Int := min 5 (2 ^ retryCount) * 1000000000

/-- The shift stays far from the sign. -/
theorem interval_eq {n : Nat} (h : n ≤ 7) : interval n = min 5 (2 ^ n) := by
  have hall : ∀ n < 8, interval n = min 5 (2 ^ n) := by decide
  exact hall n (Nat.lt_succ_of_le h)

theorem backoff_bounds (n : Nat) : 1000000000 ≤ backoff n ∧ backoff n ≤ 5000000000 := by
  have hpow : (1 : Int) ≤ 2 ^ n := one_le_pow₀ (by decide)
  unfold backoff
  omega

theorem le_seconds {d k : Int} (hk : 0 < k) : seconds d ≥ k ↔ k * 1000000000 ≤ d := by
  unfold seconds
  rcases Int.le_total 0 d with hd | hd
  · rw [Int.tdiv_eq_ediv_of_nonneg hd]
    omega
  · have hneg := Int.tdiv_le_tdiv (c := 1000000000) (by decide) hd
    rw [Int.zero_tdiv] at hneg
    omega

section
variable {attempt : List HandshakeSend} {s : HandshakeLoop} {startHandshake first now : Int}

/-- The loop started at `startHandshake` and made its first attempt at `first`. -/
structure Paced (startHandshake first : Int) (s : HandshakeLoop) : Prop where
  start : s.startHandshake = startHandshake
  count : s.retries.length = s.retryCount
  last : s.lastHandshakeSend = s.retries.getLastD first
  spaced : Spaced backoff startHandshake s.retries
  fallback : s.relayFallbackTriggered = true → s.retryCount ≠ 0
  /-- The loop goes on in the first 31 seconds only. -/
  early : s.timedOut = false → s.retries.getLastD startHandshake < startHandshake + 31000000000
  few : s.retryCount ≤ 8

theorem retryCount_le (h : s.Paced startHandshake first) (hopen : s.timedOut = false) :
    s.retryCount ≤ 7 := by
  by_contra hmany
  have hsum := h.spaced.sum_le
  have hearly := h.early hopen
  have hmono : ∑ n ∈ range 8, backoff n ≤ ∑ n ∈ range s.retries.length, backoff n := by
    refine sum_le_sum_of_subset_of_nonneg (range_subset_range.mpr ?_) fun n _ _ => ?_
    · rw [h.count]
      omega
    · have := backoff_bounds n
      omega
  have height : ∑ n ∈ range 8, backoff n = 32000000000 := by decide
  omega

theorem interval_over_iff (h : s.Paced startHandshake first) (hopen : s.timedOut = false)
    (now : Int) :
    seconds (now - s.lastHandshakeSend) ≥ interval s.retryCount ↔
      s.lastHandshakeSend + backoff s.retryCount ≤ now := by
  have hinterval := interval_eq (retryCount_le h hopen)
  have hpow : (1 : Int) ≤ 2 ^ s.retryCount := one_le_pow₀ (by decide)
  have hpos : 0 < interval s.retryCount := by
    rw [hinterval]
    omega
  rw [le_seconds hpos, hinterval, backoff]
  omega

/-- The flag of the fallback says no more than that it is late for a first retry. -/
theorem retryDue_iff (h : s.Paced startHandshake first) (hopen : s.timedOut = false)
    (now : Int) :
    (({ s with now := now }).triggerFallback now).RetryDue now ↔
      s.lastHandshakeSend + backoff s.retryCount ≤ now ∨
        s.retryCount = 0 ∧ startHandshake + 3000000000 ≤ now := by
  have hdue := interval_over_iff h hopen now
  have hlate : seconds (now - s.startHandshake) ≥ 3 ↔ startHandshake + 3000000000 ≤ now := by
    rw [le_seconds (by decide), h.start]
    omega
  unfold triggerFallback RetryDue
  split
  · next htrigger =>
    simp only [hdue, true_and]
    exact or_congr_right ⟨fun hzero => ⟨hzero, hlate.mp htrigger.1⟩, fun hzero => hzero.1⟩
  · next htrigger =>
    simp only [hdue]
    refine or_congr_right ⟨fun hrelay => absurd hrelay.2 (h.fallback hrelay.1), fun hzero => ?_⟩
    have hflag : s.relayFallbackTriggered ≠ false :=
      fun hflag => htrigger ⟨hlate.mpr hzero.2, hflag⟩
    exact ⟨Bool.eq_true_of_not_eq_false hflag, hzero.1⟩

/-- The time for the next attempt, by the loop's own clock. -/
def Due (s : HandshakeLoop) (now : Int) : Prop :=
  s.lastHandshakeSend + backoff s.retryCount ≤ now ∨
    s.retryCount = 0 ∧ s.startHandshake + 3000000000 ≤ now

/-- What an iteration does. -/
theorem iterate_cases (attempt : List HandshakeSend) (now : Int) (h : s.Paced startHandshake first)
    (hopen : s.timedOut = false) :
    ∃ flag out,
      (flag = true → s.relayFallbackTriggered = true ∨ startHandshake + 3000000000 ≤ now) ∧
      (out = false ↔ now < startHandshake + 31000000000) ∧
      (s.Due now ∧ s.iterate attempt now =
          { s.retry attempt now with relayFallbackTriggered := flag, timedOut := out, now := now } ∨
        ¬ s.Due now ∧ s.iterate attempt now =
          { s with relayFallbackTriggered := flag, timedOut := out, now := now }) := by
  have hdue := retryDue_iff h hopen now
  have hflag : ∃ flag, (flag = true → s.relayFallbackTriggered = true ∨
      startHandshake + 3000000000 ≤ now) ∧ ({ s with now := now }).triggerFallback now =
        { s with relayFallbackTriggered := flag, now := now } := by
    unfold triggerFallback
    split
    · next htrigger =>
      rw [h.start, le_seconds (by decide)] at htrigger
      exact ⟨true, fun _ => Or.inr (by omega), rfl⟩
    · exact ⟨s.relayFallbackTriggered, Or.inl, rfl⟩
  obtain ⟨flag, hflag, htrigger⟩ := hflag
  have hout : ∀ r : HandshakeLoop, r.startHandshake = startHandshake → r.timedOut = false →
      ∃ out, (out = false ↔ now < startHandshake + 31000000000) ∧
        r.checkTimeout now = { r with timedOut := out } := by
    intro r hstart hrunning
    have hover : seconds (now - r.startHandshake) > 30 ↔ startHandshake + 31000000000 ≤ now := by
      have hle := le_seconds (d := now - r.startHandshake) (k := 31) (by decide)
      omega
    unfold checkTimeout
    split
    · next hlate => exact ⟨true, by simpa using hover.mp hlate, rfl⟩
    · next hlate =>
      exact ⟨false, by simpa using fun hge => hlate (hover.mpr hge), by rw [← hrunning]⟩
  unfold iterate
  rw [htrigger] at hdue ⊢
  simp only
  split
  · next hretry =>
    obtain ⟨out, hout, heq⟩ := hout (({ s with
      relayFallbackTriggered := flag, now := now } : HandshakeLoop).retry attempt now) h.start hopen
    refine ⟨flag, out, hflag, hout, Or.inl ⟨?_, heq⟩⟩
    rw [Due, h.start]
    exact hdue.mp hretry
  · next hretry =>
    obtain ⟨out, hout, heq⟩ := hout
      { s with relayFallbackTriggered := flag, now := now } h.start hopen
    refine ⟨flag, out, hflag, hout, Or.inr ⟨?_, heq⟩⟩
    rw [Due, h.start]
    exact fun hdue' => hretry (hdue.mpr hdue')

theorem paced_start :
    (start attempt startHandshake first).Paced startHandshake first :=
  ⟨rfl, rfl, rfl, trivial, fun hflag => (by cases hflag), fun _ => (by simp [start]),
    by simp [start]⟩

/-- The first attempt comes after the start, so what is late for the one is late for the other. -/
theorem getLastD_mono (h : startHandshake ≤ first) (ts : List Int) :
    ts.getLastD startHandshake ≤ ts.getLastD first := by
  cases ts with
  | nil => exact h
  | cons t ts => rw [List.getLastD_cons, List.getLastD_cons]

theorem paced_iterate (attempt : List HandshakeSend) (hfirst : startHandshake ≤ first) (now : Int)
    (h : s.Paced startHandshake first) (hopen : s.timedOut = false) :
    (s.iterate attempt now).Paced startHandshake first := by
  have hfew := retryCount_le h hopen
  obtain ⟨flag, out, hflag, hout, ⟨hdue, heq⟩ | ⟨hdue, heq⟩⟩ := iterate_cases attempt now h hopen
  · rw [heq]
    have hgap : s.retries.getLastD startHandshake + backoff s.retries.length ≤ now := by
      rw [h.count]
      rcases hdue with hdue | ⟨hzero, hlate⟩
      · have := getLastD_mono hfirst s.retries
        have := h.last
        omega
      · have hnil : s.retries = [] := List.length_eq_zero_iff.mp (h.count.trans hzero)
        have hzeroth : backoff 0 = 1000000000 := by decide
        have hstart := h.start
        rw [hnil, hzero, hzeroth]
        simp only [List.getLastD_nil]
        omega
    refine ⟨h.start, ?_, ?_, stepwise_snoc.mpr ⟨h.spaced, hgap⟩, fun _ => Nat.succ_ne_zero _,
      fun hgo => ?_, Nat.succ_le_succ hfew⟩
    · simp [retry, h.count]
    · simp [retry]
    · simpa [retry] using hout.mp hgo
  · rw [heq]
    refine ⟨h.start, h.count, h.last, h.spaced, fun hset => ?_, fun _ => h.early hopen, h.few⟩
    rcases hflag hset with hset | hlate
    · exact h.fallback hset
    · exact fun hzero => hdue (Or.inr ⟨hzero, h.start.symm ▸ hlate⟩)

theorem paced_step (hfirst : startHandshake ≤ first) (h : s.Paced startHandshake first)
    (e : HandshakeEvent) : (s.step attempt e).Paced startHandshake first := by
  cases e with
  | answer => exact ⟨h.start, h.count, h.last, h.spaced, h.fallback, h.early, h.few⟩
  | iteration now =>
    show (if s.answered || s.timedOut then s else s.iterate attempt now).Paced startHandshake first
    split
    · exact h
    · next hover =>
      rw [Bool.or_eq_true, not_or, Bool.not_eq_true, Bool.not_eq_true] at hover
      exact paced_iterate attempt hfirst now h hover.2

/-! ## What is sent -/

end

section
variable {sort : List (RouteScore ℚ) → List (RouteScore ℚ)}

/-- The client as it is, with a local candidate and one that STUN found. -/
def twoCandidates : List RankedCandidate := [⟨⟨"192.0.2.1", 0⟩, 0⟩, ⟨⟨"203.0.113.5", 6000⟩, 1⟩]

end

/-! ## The fallback to the relay -/

section
variable (attempt : List HandshakeSend)

/-- An iteration less the fallback. -/
def iteratePlain (s : HandshakeLoop) (now : Int) : HandshakeLoop :=
  let s := { s with now := now }
  (if seconds (now - s.lastHandshakeSend) ≥ interval s.retryCount then s.retry attempt now
    else s).checkTimeout now

def stepPlain (s : HandshakeLoop) : HandshakeEvent → HandshakeLoop
  | .iteration now => if s.answered || s.timedOut then s else s.iteratePlain attempt now
  | .answer => { s with answered := true }

def forgetFallback (s : HandshakeLoop) : HandshakeLoop := { s with relayFallbackTriggered := false }

variable {attempt} {s : HandshakeLoop} {startHandshake first now : Int}

theorem forgetFallback_triggerFallback (s : HandshakeLoop) (now : Int) :
    (s.triggerFallback now).forgetFallback = s.forgetFallback := by
  unfold triggerFallback
  split <;> rfl

theorem forgetFallback_checkTimeout :
    (s.checkTimeout now).forgetFallback = s.forgetFallback.checkTimeout now := by
  unfold checkTimeout forgetFallback
  split <;> rfl

theorem retries_checkTimeout : (s.checkTimeout now).retries = s.retries := by
  unfold checkTimeout
  split <;> rfl

/-- By the time of the fallback a first retry is due anyway. -/
theorem iterate_plain (hfirst : first ≤ startHandshake + 2000000000)
    (h : s.Paced startHandshake first) (hopen : s.timedOut = false) (now : Int) :
    (s.iterate attempt now).forgetFallback = s.forgetFallback.iteratePlain attempt now := by
  have hdue := retryDue_iff h hopen now
  have hplain : (({ s with now := now }).triggerFallback now).RetryDue now ↔
      seconds (now - s.forgetFallback.lastHandshakeSend) ≥
        interval s.forgetFallback.retryCount := by
    rw [hdue]
    refine Iff.trans ?_ (interval_over_iff h hopen now).symm
    refine ⟨fun hor => hor.elim id fun hlate => ?_, Or.inl⟩
    have hnil : s.retries = [] := List.length_eq_zero_iff.mp (h.count.trans hlate.1)
    have hlast := h.last
    have hzeroth : backoff 0 = 1000000000 := by decide
    rw [hnil, List.getLastD_nil] at hlast
    rw [hlate.1, hzeroth]
    omega
  unfold iterate iteratePlain
  rw [forgetFallback_checkTimeout]
  congr 1
  simp only
  split
  · next hretry =>
    rw [if_pos (hplain.mp hretry)]
    have htrigger := congrArg (fun r => r.retry attempt now)
      (forgetFallback_triggerFallback { s with now := now } now)
    exact htrigger
  · next hretry =>
    rw [if_neg fun hge => hretry (hplain.mpr hge)]
    exact forgetFallback_triggerFallback _ now

theorem step_plain (hfirst : first ≤ startHandshake + 2000000000)
    (h : s.Paced startHandshake first) (e : HandshakeEvent) :
    (s.step attempt e).forgetFallback = s.forgetFallback.stepPlain attempt e := by
  cases e with
  | answer => rfl
  | iteration now =>
    show (if s.answered || s.timedOut then s else s.iterate attempt now).forgetFallback =
      if s.answered || s.timedOut then s.forgetFallback
      else s.forgetFallback.iteratePlain attempt now
    split
    · rfl
    · next hover =>
      rw [Bool.or_eq_true, not_or, Bool.not_eq_true, Bool.not_eq_true] at hover
      exact iterate_plain hfirst h hover.2 now

/-- **The fallback to the relay** changes nothing, in any run, iff the first attempt comes within
two seconds of the start. -/
theorem relay_fallback_iff (hfirst : startHandshake ≤ first) :
    (∀ es, (run (step attempt) (start attempt startHandshake first) es).retries =
      (run (stepPlain attempt) (start attempt startHandshake first) es).retries) ↔
      first ≤ startHandshake + 2000000000 := by
  constructor
  · intro hsame
    by_contra hlong
    -- the first iteration comes when the fallback is due and the interval is not over
    have hpaced : (start attempt startHandshake first).Paced startHandshake first := paced_start
    let now := max first (startHandshake + 3000000000)
    have hsame : ((start attempt startHandshake first).iterate attempt now).retries =
        ((start attempt startHandshake first).iteratePlain attempt now).retries :=
      hsame [.iteration now]
    have hnotOver : ¬ seconds (now - first) ≥ interval 0 := by
      have hzeroth : backoff 0 = 1000000000 := by decide
      refine fun hover => ?_
      have hle : first + backoff 0 ≤ now := (interval_over_iff hpaced rfl now).mp hover
      omega
    have hplain : ((start attempt startHandshake first).iteratePlain attempt now).retries = [] := by
      simp only [iteratePlain, retries_checkTimeout]
      split
      · next hover => exact absurd hover hnotOver
      · rfl
    obtain ⟨flag, out, -, -, ⟨-, heq⟩ | ⟨hdue, -⟩⟩ := iterate_cases attempt now hpaced rfl
    · rw [hplain, heq] at hsame
      cases hsame
    · exact hdue (Or.inr ⟨rfl, le_max_right _ _⟩)
  · intro hsoon es
    have hstep : ∀ s e, Paced startHandshake first s →
        Paced startHandshake first (step attempt s e) := fun _ e h => paced_step hfirst h e
    have hview : ∀ s e, Paced startHandshake first s →
        forgetFallback (step attempt s e) = stepPlain attempt (forgetFallback s) e :=
      fun _ e h => step_plain hsoon h e
    have hrun := run_map forgetFallback hstep hview
      (s := start attempt startHandshake first) paced_start es
    show (run (step attempt) (start attempt startHandshake first) es).forgetFallback.retries = _
    rw [hrun]
    rfl

/-- Retries after one and after two more seconds, the second in the iteration of the fallback. -/
theorem relay_fallback_three_seconds :
    let attempt := attemptHandshake (sortDown (·.score)) "192.0.2.7" twoCandidates
    let es := [.iteration 500000000, .iteration 1000000005, .iteration 1100000000,
      .iteration 3000000005, .iteration 3100000000, .iteration 7000000005, .answer]
    (run (step attempt) (start attempt 0 5) es).retries =
      (run (stepPlain attempt) (start attempt 0 5) es).retries := by
  intro attempt es
  exact (relay_fallback_iff (by decide : (0 : Int) ≤ 5)).mpr (by decide) es

end

end HandshakeLoop

end RemotePlay.Client
