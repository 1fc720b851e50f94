import Mathlib.Algebra.Order.Group.Abs
import Mathlib.Algebra.Order.Group.Int

/-!
# Clock synchronisation

`ClockSync` takes the four timestamps of a request and its response, computed in
64-bit words of which the differences are read as signed, and keeps the round
trip time and the offset of the host's clock. Signed arithmetic wraps here. The
offset is the mean of two differences, cut off toward zero, so that it misses
the true offset by at most half of what the two ways differ, and half a unit
for the cut.
-/

namespace RemotePlay.Common

structure ClockSync where
  clockOffset : Int64 := 0
  rtt : UInt64 := 0
  synchronized : Bool := false

namespace ClockSync

/-- `(t3 - t0) - (t2 - t1)`, with both differences read as signed. -/
def roundTrip (t0 t1 t2 t3 : UInt64) : Int64 := (t3 - t0).toInt64 - (t2 - t1).toInt64

/-- `((t1 - t0) + (t2 - t3)) / 2`; the division cuts off toward zero. -/
def offset (t0 t1 t2 t3 : UInt64) : Int64 := ((t1 - t0).toInt64 + (t2 - t3).toInt64) / 2

/-- `std::max` of 64-bit integers. -/
def larger (a b : Int64) : Int64 := if a < b then b else a

def processResponse (s : ClockSync) (t0 t1 t2 t3 : UInt64) : ClockSync :=
  { s with
    rtt := (larger 0 (roundTrip t0 t1 t2 t3)).toUInt64
    clockOffset := offset t0 t1 t2 t3
    synchronized := true }

def getHostTime (s : ClockSync) (clientTime : UInt64) : UInt64 :=
  (clientTime.toInt64 + s.clockOffset).toUInt64

def getClientTime (s : ClockSync) (hostTime : UInt64) : UInt64 :=
  (hostTime.toInt64 - s.clockOffset).toUInt64

def isSynchronized (s : ClockSync) : Bool := s.synchronized

def getRTT (s : ClockSync) : UInt64 := s.rtt

/-! ## One exchange -/

/-- A request and its response as they happened: sent at `sent` on the client's clock, `there` under
way, `processing` at the host, `back` under way. The host's clock is `ahead` of the client's. -/
structure Exchange where
  sent : Int
  ahead : Int
  there : Int
  processing : Int
  back : Int
  there_nonneg : 0 ≤ there
  processing_nonneg : 0 ≤ processing
  back_nonneg : 0 ≤ back
  ahead_lt : |ahead| < 2 ^ 61
  there_lt : there < 2 ^ 61
  processing_lt : processing < 2 ^ 61
  back_lt : back < 2 ^ 61

namespace Exchange

variable (x : Exchange)

/-- Client send. -/
def t0 : UInt64 := .ofInt x.sent

/-- Host receive. -/
def t1 : UInt64 := .ofInt (x.sent + x.there + x.ahead)

/-- Host send. -/
def t2 : UInt64 := .ofInt (x.sent + x.there + x.processing + x.ahead)

/-- Client receive. -/
def t3 : UInt64 := .ofInt (x.sent + x.there + x.processing + x.back)

end Exchange

/-! ## Differences of words -/

theorem toInt64_ofInt (a : Int) : (UInt64.ofInt a).toInt64 = Int64.ofInt a := by
  refine Int64.toBitVec.inj (BitVec.eq_of_toNat_eq ?_)
  have hlt : (a % 2 ^ 64).toNat < 2 ^ 64 := by omega
  rw [Int64.toBitVec_ofInt, BitVec.toNat_ofInt]
  exact Nat.mod_eq_of_lt hlt

/-- A difference of words, read as signed, is the difference of what the words stand for. -/
theorem toInt64_ofInt_sub (a b : Int) :
    (UInt64.ofInt a - UInt64.ofInt b).toInt64 = Int64.ofInt (a - b) := by
  have hsub : UInt64.ofInt a - UInt64.ofInt b = UInt64.ofInt (a - b) := by
    rw [sub_eq_add_neg a b, UInt64.ofInt_add, UInt64.ofInt_neg, UInt64.sub_eq_add_neg]
  rw [hsub, toInt64_ofInt]

theorem roundTrip_exchange (x : Exchange) :
    roundTrip x.t0 x.t1 x.t2 x.t3 = Int64.ofInt (x.there + x.back) := by
  simp only [roundTrip, Exchange.t0, Exchange.t1, Exchange.t2, Exchange.t3, toInt64_ofInt_sub]
  rw [← Int64.ofInt_sub]
  congr 1
  omega

theorem offset_exchange (x : Exchange) :
    offset x.t0 x.t1 x.t2 x.t3 = Int64.ofInt (2 * x.ahead + (x.there - x.back)) / 2 := by
  simp only [offset, Exchange.t0, Exchange.t1, Exchange.t2, Exchange.t3, toInt64_ofInt_sub]
  rw [← Int64.ofInt_add]
  congr 2
  omega

/-! ## Round trip time, offset and the two clocks -/

section
variable (s : ClockSync) (x : Exchange)

theorem toNat_larger_zero {r : Int} (hr : 0 ≤ r) (hlt : r < 2 ^ 63) :
    ((larger 0 (Int64.ofInt r)).toUInt64.toNat : Int) = r := by
  have hint : (Int64.ofInt r).toInt = r := Int64.toInt_ofInt_of_le (by omega) hlt
  have hlarger : larger 0 (Int64.ofInt r) = Int64.ofInt r := by
    refine ite_eq_left_iff.mpr fun hle => ?_
    rw [Int64.lt_iff_toInt_lt, hint] at hle
    have hzero : r = 0 := le_antisymm (not_lt.mp hle) hr
    rw [hzero]
    rfl
  have hnonneg : 0 ≤ Int64.ofInt r := Int64.le_iff_toInt_le.mpr (hint.symm ▸ hr)
  rw [hlarger, Int64.toNat_toUInt64_of_le hnonneg,
    Int64.toNatClampNeg_ofInt_of_le (by omega) hlt, Int.toNat_of_nonneg hr]

theorem getRTT_processResponse :
    ((s.processResponse x.t0 x.t1 x.t2 x.t3).getRTT.toNat : Int) = x.there + x.back := by
  have hthere := x.there_lt
  have hback := x.back_lt
  simp only [processResponse, getRTT, roundTrip_exchange]
  exact toNat_larger_zero (Int.add_nonneg x.there_nonneg x.back_nonneg) (by omega)

theorem toInt_offset :
    (offset x.t0 x.t1 x.t2 x.t3).toInt = (2 * x.ahead + (x.there - x.back)).tdiv 2 := by
  have hahead := abs_lt.mp x.ahead_lt
  have hthere := x.there_nonneg
  have hback := x.back_nonneg
  have hthere' := x.there_lt
  have hback' := x.back_lt
  have hint : (Int64.ofInt (2 * x.ahead + (x.there - x.back))).toInt =
      2 * x.ahead + (x.there - x.back) := Int64.toInt_ofInt_of_le (by omega) (by omega)
  have hmin : Int64.ofInt (2 * x.ahead + (x.there - x.back)) ≠ Int64.minValue := by
    intro h
    rw [h, Int64.toInt_minValue] at hint
    omega
  rw [offset_exchange, Int64.toInt_div_of_ne_left _ _ hmin, hint]
  rfl

/-- Halving cuts off at most half a unit. -/
theorem halving_error (ahead skew : Int) :
    2 * |(2 * ahead + skew).tdiv 2 - ahead| ≤ |skew| + 1 := by
  have hdiv := Int.mul_tdiv_add_tmod (2 * ahead + skew) 2
  have hlt := Int.tmod_lt_of_pos (2 * ahead + skew) (b := 2) (by decide)
  have hgt := Int.lt_tmod_of_pos (2 * ahead + skew) (b := 2) (by decide)
  rw [abs_eq_max_neg, abs_eq_max_neg]
  omega

theorem clockOffset_error :
    2 * |(s.processResponse x.t0 x.t1 x.t2 x.t3).clockOffset.toInt - x.ahead| ≤
      x.there + x.back + 1 := by
  have hoffset : (s.processResponse x.t0 x.t1 x.t2 x.t3).clockOffset.toInt =
      (2 * x.ahead + (x.there - x.back)).tdiv 2 := toInt_offset x
  have hskew : |x.there - x.back| ≤ x.there + x.back := by
    have hthere := x.there_nonneg
    have hback := x.back_nonneg
    exact abs_le.mpr ⟨by omega, by omega⟩
  rw [hoffset]
  exact (halving_error x.ahead (x.there - x.back)).trans (Int.add_le_add_right hskew 1)

/-- Whatever the offset, going over to the host's clock and back is the identity. -/
theorem getClientTime_getHostTime (t : UInt64) : s.getClientTime (s.getHostTime t) = t := by
  simp only [getClientTime, getHostTime, Int64.toInt64_toUInt64, Int64.add_sub_cancel,
    UInt64.toUInt64_toInt64]

/-- **One response settles the clock**, whatever was processed before: the round trip time is the
sum of the two ways, and the offset misses the true one by at most half of it, rounded up. -/
theorem processResponse_exchange :
    ((s.processResponse x.t0 x.t1 x.t2 x.t3).getRTT.toNat : Int) = x.there + x.back ∧
    2 * |(s.processResponse x.t0 x.t1 x.t2 x.t3).clockOffset.toInt - x.ahead| ≤
      x.there + x.back + 1 ∧
    ∀ t, (s.processResponse x.t0 x.t1 x.t2 x.t3).getClientTime
      ((s.processResponse x.t0 x.t1 x.t2 x.t3).getHostTime t) = t :=
  ⟨getRTT_processResponse s x, clockOffset_error s x,
    fun t => getClientTime_getHostTime _ t⟩

end

/-- A host that is behind, and ways that differ by an odd number. -/
def behind : Exchange :=
  ⟨3, -1000, 5, 2, 8, by decide, by decide, by decide, by decide, by decide, by decide, by decide⟩

def onceSettled : ClockSync := ClockSync.processResponse {} behind.t0 behind.t1 behind.t2 behind.t3

/-- The words of `t1` and `t2` have wrapped, and the offset is cut off. -/
theorem processResponse_behind :
    behind.t1 = 18446744073709550624 ∧ onceSettled.clockOffset = -1001 ∧
    (onceSettled.getRTT.toNat : Int) = 5 + 8 ∧
    2 * |onceSettled.clockOffset.toInt - (-1000)| ≤ 5 + 8 + 1 ∧
    ∀ t, onceSettled.getClientTime (onceSettled.getHostTime t) = t :=
  ⟨by decide, by decide, processResponse_exchange {} behind⟩

example : (ClockSync.processResponse {} 1000 2000 2100 1200).getRTT = 100 ∧
    (ClockSync.processResponse {} 1000 2000 2100 1200).getHostTime 1000 = 1950 := by decide

end ClockSync

end RemotePlay.Common
