import RemotePlay.Lib.Vec
import Mathlib.Tactic.Common

/-!
# Little-endian numbers in memory

A memory is the byte at each offset from a pointer. `Holds m off bs` says the
bytes `bs` stand at `off`; it splits over `++`, so a packed structure written
as an append of its fields is read back field by field (`le_of_holds`,
`read_of_holds`).
-/

namespace Lib

/-- The `w` low bytes of `n`, least significant first. -/
def leBytes : Nat → Nat → List UInt8
  | 0, _ => []
  | w + 1, n => UInt8.ofNat (n % 256) :: leBytes w (n / 256)

/-- The number with the given bytes. -/
def leNat : List UInt8 → Nat
  | [] => 0
  | b :: bs => b.toNat + 256 * leNat bs

@[simp] theorem length_leBytes (w n : Nat) : (leBytes w n).length = w := by
  induction w generalizing n with
  | zero => rfl
  | succ w ih => simp [leBytes, ih]

theorem leNat_leBytes {w n : Nat} (h : n < 256 ^ w) : leNat (leBytes w n) = n := by
  induction w generalizing n with
  | zero => simp only [Nat.pow_zero] at h; simp only [leBytes, leNat]; omega
  | succ w ih =>
    have h' : n / 256 < 256 ^ w := by
      rw [Nat.pow_succ] at h; exact Nat.div_lt_of_lt_mul (by omega)
    simp only [leBytes, leNat, ih h', UInt8.toNat_ofNat']
    omega

theorem toNat_add_one {n : UInt64} (h : n.toNat + 1 < 2 ^ 64) : (n + 1).toNat = n.toNat + 1 := by
  rw [UInt64.toNat_add]
  exact Nat.mod_eq_of_lt h

/-- The byte at each offset from a pointer. -/
abbrev Mem := Nat → UInt8

namespace Mem

/-- The `n` bytes at `off`. -/
def read (m : Mem) (off n : Nat) : List UInt8 := readN (fun i => m (off + i)) n

/-- The little-endian number of `w` bytes at `off`. -/
def le (m : Mem) (off w : Nat) : Nat := leNat (m.read off w)

/-- The memory seen from `off` on. -/
def shift (m : Mem) (off : Nat) : Mem := fun i => m (off + i)

/-- `memcpy` of `bs` to the front; what lies behind keeps its old bytes. -/
def load (m : Mem) (bs : List UInt8) : Mem := fun i => bs.getD i (m i)

/-- `memmove` of the `n` bytes at `off` to the front. -/
def moveDown (m : Mem) (off n : Nat) : Mem := fun i => if i < n then m (off + i) else m i

/-- The bytes `bs` stand at `off`. -/
def Holds (m : Mem) (off : Nat) (bs : List UInt8) : Prop := m.read off bs.length = bs

@[simp] theorem length_read (m : Mem) (off n : Nat) : (m.read off n).length = n := length_readN _ _

theorem read_congr {m m' : Mem} {off n : Nat} (h : ∀ k, off ≤ k → k < off + n → m k = m' k) :
    m.read off n = m'.read off n :=
  readN_congr fun k hk => h (off + k) (by omega) (by omega)

theorem read_add (m : Mem) (off j k : Nat) :
    m.read off (j + k) = m.read off j ++ m.read (off + j) k := by
  simp [read, readN, List.range_add, Nat.add_assoc, Function.comp_def]

theorem holds_append {m : Mem} {off : Nat} {a b : List UInt8} :
    m.Holds off (a ++ b) ↔ m.Holds off a ∧ m.Holds (off + a.length) b := by
  simp only [Holds, List.length_append, read_add]
  constructor
  · intro h
    exact List.append_inj h (by simp)
  · rintro ⟨h1, h2⟩
    rw [h1, h2]

theorem holds_cons {m : Mem} {off : Nat} {b : UInt8} {bs : List UInt8} :
    m.Holds off (b :: bs) ↔ m off = b ∧ m.Holds (off + 1) bs := by
  rw [← List.singleton_append, holds_append]
  simp [Holds, read, readN]

theorem holds_shift {m : Mem} {off k : Nat} {bs : List UInt8} :
    (m.shift off).Holds k bs ↔ m.Holds (off + k) bs := by
  simp only [Holds, read, shift, Nat.add_assoc]

theorem read_of_holds {m : Mem} {off n : Nat} {bs : List UInt8} (h : m.Holds off bs)
    (hn : bs.length = n) : m.read off n = bs := hn ▸ h

theorem le_of_holds {m : Mem} {off w n : Nat} (h : m.Holds off (leBytes w n))
    (hn : n < 256 ^ w) : m.le off w = n := by
  rw [le, read_of_holds h (length_leBytes w n), leNat_leBytes hn]

/-- Bytes that lie in the range moved stand at the front afterwards. -/
theorem holds_moveDown {m : Mem} {off n : Nat} {bs : List UInt8} (h : m.Holds off bs)
    (hn : bs.length ≤ n) : (m.moveDown off n).Holds 0 bs := by
  unfold Holds at h ⊢
  rw [← h, length_read]
  refine readN_congr fun k hk => ?_
  unfold moveDown
  rw [Nat.zero_add, if_pos (Nat.lt_of_lt_of_le hk hn)]

theorem holds_load (m : Mem) (bs : List UInt8) : (m.load bs).Holds 0 bs := by
  apply List.ext_getElem
  · simp
  · intro i h1 h2
    simp [read, getElem_readN, load, h2]

end Mem

end Lib
