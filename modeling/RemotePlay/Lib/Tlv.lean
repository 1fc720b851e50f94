import Mathlib.Algebra.Group.Nat.Defs
import Mathlib.Data.List.Basic
import Mathlib.Tactic.Common

/-!
# Type, length, value

A sequence of items, each a 16-bit type, a 16-bit length, both big-endian, the
value, and padding that depends on the length. `items` reads a byte string as
far as whole items go; it gives back what `encode` wrote (`items_encode`), and
each item it finds stands in the string (`mem_items`).
-/

namespace Lib.Tlv

/-- The number of two bytes, most significant first. -/
def be16 (hi lo : UInt8) : UInt16 := UInt16.ofNat (hi.toNat * 256 + lo.toNat)

def bytes16 (n : UInt16) : List UInt8 :=
  [UInt8.ofNat (n.toNat / 256), UInt8.ofNat (n.toNat % 256)]

theorem toNat_be16 (hi lo : UInt8) : (be16 hi lo).toNat = hi.toNat * 256 + lo.toNat := by
  have hhi := hi.toNat_lt
  have hlo := lo.toNat_lt
  rw [be16, UInt16.toNat_ofNat']
  omega

theorem be16_bytes16 (n : UInt16) :
    be16 (UInt8.ofNat (n.toNat / 256)) (UInt8.ofNat (n.toNat % 256)) = n := by
  have hn := n.toNat_lt
  refine UInt16.toNat_inj.mp ?_
  rw [toNat_be16, UInt8.toNat_ofNat', UInt8.toNat_ofNat']
  omega

theorem bytes16_be16 (hi lo : UInt8) : bytes16 (be16 hi lo) = [hi, lo] := by
  have hhi := hi.toNat_lt
  have hlo := lo.toNat_lt
  have hdiv : (hi.toNat * 256 + lo.toNat) / 256 = hi.toNat := by omega
  have hmod : (hi.toNat * 256 + lo.toNat) % 256 = lo.toNat := by omega
  rw [bytes16, toNat_be16, hdiv, hmod, UInt8.ofNat_toNat, UInt8.ofNat_toNat]

structure Item where
  type : UInt16
  value : List UInt8
  deriving DecidableEq, Repr

section
variable (pad : Nat → Nat)

/-- The first item, and what is left behind its padding. -/
def next : List UInt8 → Option (Item × List UInt8)
  | t1 :: t0 :: l1 :: l0 :: rest =>
    let n := (be16 l1 l0).toNat
    if n ≤ rest.length then some (⟨be16 t1 t0, rest.take n⟩, rest.drop (n + pad n)) else none
  | _ => none

variable {pad}

variable (pad) in
theorem next_cons (t1 t0 l1 l0 : UInt8) (rest : List UInt8) :
    next pad (t1 :: t0 :: l1 :: l0 :: rest) =
      if (be16 l1 l0).toNat ≤ rest.length then
        some (⟨be16 t1 t0, rest.take (be16 l1 l0).toNat⟩,
          rest.drop ((be16 l1 l0).toNat + pad (be16 l1 l0).toNat))
      else none := rfl

theorem next_short {bs : List UInt8} (h : bs.length < 4) : next pad bs = none := by
  match bs with
  | [] | [_] | [_, _] | [_, _, _] => rfl
  | _ :: _ :: _ :: _ :: _ =>
    simp only [List.length_cons] at h
    omega

/-- What `next` took off. -/
theorem next_cases {bs rest : List UInt8} {item : Item} (h : next pad bs = some (item, rest)) :
    ∃ l, l.toNat = item.value.length ∧
      bs.drop (4 + item.value.length + pad item.value.length) = rest ∧
      ∃ behind, bs = bytes16 item.type ++ bytes16 l ++ item.value ++ behind := by
  match bs with
  | [] | [_] | [_, _] | [_, _, _] => cases h
  | t1 :: t0 :: l1 :: l0 :: tail =>
    rw [next_cons] at h
    split at h
    · next hle =>
      cases h
      have hlen : (tail.take (be16 l1 l0).toNat).length = (be16 l1 l0).toNat :=
        List.length_take_of_le hle
      refine ⟨be16 l1 l0, hlen.symm, ?_, tail.drop (be16 l1 l0).toNat, ?_⟩
      · rw [hlen, Nat.add_assoc, Nat.add_comm 4]
        rfl
      · simp [bytes16_be16]
    · cases h

theorem length_next {bs rest : List UInt8} {item : Item} (h : next pad bs = some (item, rest)) :
    rest.length < bs.length := by
  obtain ⟨l, -, hdrop, behind, hbs⟩ := next_cases h
  have hlen : 4 ≤ bs.length := by
    rw [hbs]
    simp [bytes16]
  rw [← hdrop, List.length_drop]
  omega

variable (pad) in
/-- The items of a byte string, up to the first that is not whole. -/
def items (bs : List UInt8) : List Item :=
  match _h : next pad bs with
  | some (item, rest) => item :: items rest
  | none => []
termination_by bs.length
decreasing_by exact length_next _h

theorem items_of_next {bs rest : List UInt8} {item : Item} (h : next pad bs = some (item, rest)) :
    items pad bs = item :: items pad rest := by
  rw [items]
  split
  · next heq =>
    cases h.symm.trans heq
    rfl
  · next heq => cases h.symm.trans heq

theorem items_of_none {bs : List UInt8} (h : next pad bs = none) : items pad bs = [] := by
  rw [items]
  split
  · next heq => cases h.symm.trans heq
  · rfl

/-- Every item stands in the string, with its header before its value. -/
theorem mem_items {bs : List UInt8} {item : Item} (h : item ∈ items pad bs) :
    ∃ before l behind, l.toNat = item.value.length ∧
      bs = before ++ (bytes16 item.type ++ bytes16 l ++ item.value) ++ behind := by
  induction hn : bs.length using Nat.strongRecOn generalizing bs with
  | _ n ih =>
    cases hnext : next pad bs with
    | none =>
      rw [items_of_none hnext] at h
      cases h
    | some p =>
      obtain ⟨first, rest⟩ := p
      obtain ⟨l, hl, hdrop, behind, hbs⟩ := next_cases hnext
      rw [items_of_next hnext] at h
      rcases List.mem_cons.mp h with rfl | h
      · exact ⟨[], l, behind, hl, hbs⟩
      · obtain ⟨before, l', behind', hl', hrest⟩ :=
          ih rest.length (hn ▸ length_next hnext) h rfl
        refine ⟨bs.take (4 + first.value.length + pad first.value.length) ++ before, l', behind',
          hl', ?_⟩
        conv_lhs => rw [← List.take_append_drop
          (4 + first.value.length + pad first.value.length) bs, hdrop, hrest]
        simp only [List.append_assoc]

end

/-- An item as it is written: its length fits the field, and the padding has the length it must. -/
structure Padded (pad : Nat → Nat) extends Item where
  length_lt : value.length < 2 ^ 16
  padding : List UInt8
  length_padding : padding.length = pad value.length

namespace Padded

variable {pad : Nat → Nat}

def encode (a : Padded pad) : List UInt8 :=
  bytes16 a.type ++ bytes16 (UInt16.ofNat a.value.length) ++ a.value ++ a.padding

theorem next_encode (a : Padded pad) (rest : List UInt8) :
    next pad (a.encode ++ rest) = some (a.toItem, rest) := by
  have hlen : (UInt16.ofNat a.value.length).toNat = a.value.length := by
    rw [UInt16.toNat_ofNat', Nat.mod_eq_of_lt a.length_lt]
  simp only [encode, bytes16, List.cons_append, List.nil_append, List.append_assoc]
  rw [next_cons, be16_bytes16, be16_bytes16, hlen, if_pos (by simp)]
  congr 2
  · rw [List.take_left]
  · rw [← List.append_assoc, ← a.length_padding, ← List.length_append, List.drop_left]

end Padded

/-- Reading gives back what was written. -/
theorem items_encode {pad : Nat → Nat} (as : List (Padded pad)) :
    items pad (as.flatMap Padded.encode) = as.map Padded.toItem := by
  induction as with
  | nil => exact items_of_none rfl
  | cons a as ih => rw [List.flatMap_cons, items_of_next (a.next_encode _), ih, List.map_cons]

end Lib.Tlv
