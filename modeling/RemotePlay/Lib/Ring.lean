import RemotePlay.Lib.Bytes

/-!
# Ring buffers

Items are numbered as they are put, item `i` goes to slot `i % n`. `Holds`
says that the slots have the items from a number on; putting the next item in a
free slot and clearing the first one keep it. The numbers themselves may be
kept modulo `2 ^ 64`.
-/

namespace Lib.Ring

/-- Numbers less than `n` apart have different slots. -/
theorem slot_ne {n i k : Nat} (hik : i < k) (hk : k < i + n) : i % n ≠ k % n := by
  intro h
  have hmod : (k - i) % n = 0 := Nat.sub_mod_eq_zero_of_mod_eq h.symm
  rw [Nat.mod_eq_of_lt (by omega)] at hmod
  omega

variable {α : Type}

def put (slots : Nat → α) (i : Nat) (a : α) : Nat → α := fun j => if j = i then a else slots j

/-- The items of `xs` from number `p` on are in their slots. -/
def Holds (slots : Nat → α) (n : Nat) (xs : List α) (p : Nat) : Prop :=
  ∀ i a, p ≤ i → xs[i]? = some a → slots (i % n) = a

section
variable {slots : Nat → α} {n p : Nat} {xs : List α}

theorem holds_nil (slots : Nat → α) (n p : Nat) : Holds slots n [] p := by
  intro i a _ h
  cases h

/-- The slot of the next item is free. -/
theorem Holds.put_next (h : Holds slots n xs p) (hfree : xs.length < p + n) (a : α) :
    Holds (put slots (xs.length % n) a) n xs p := by
  intro i b hi hb
  have hlt : i < xs.length := (List.getElem?_eq_some_iff.mp hb).1
  unfold put
  rw [if_neg (slot_ne hlt (by omega))]
  exact h i b hi hb

/-- The next item is there. -/
theorem Holds.snoc (h : Holds slots n xs p) {a : α} (ha : slots (xs.length % n) = a) :
    Holds slots n (xs ++ [a]) p := by
  intro i b hi hb
  rcases Nat.lt_or_ge i xs.length with hlt | hge
  · rw [List.getElem?_append_left hlt] at hb
    exact h i b hi hb
  · rw [List.getElem?_append_right hge] at hb
    obtain ⟨hzero, hab⟩ := List.getElem?_eq_some_iff.mp hb
    have hi : i = xs.length := by
      simp only [List.length_singleton] at hzero
      omega
    subst hi
    simp only [Nat.sub_self, List.getElem_cons_zero] at hab
    rw [ha, hab]

/-- The slot of the first item is given up. -/
theorem Holds.put_first (h : Holds slots n xs p) (hfull : xs.length ≤ p + n) (a : α) :
    Holds (put slots (p % n) a) n xs (p + 1) := by
  intro i b hi hb
  have hlt : i < xs.length := (List.getElem?_eq_some_iff.mp hb).1
  unfold put
  rw [if_neg (slot_ne hi (by omega)).symm]
  exact h i b (by omega) hb

end

/-! ## Numbers modulo 2 ^ 64 -/

theorem ofNat_add_one (a : Nat) : UInt64.ofNat a + 1 = UInt64.ofNat (a + 1) := by
  rw [UInt64.ofNat_add]
  rfl

/-- The distance of two numbers survives the wrap. -/
theorem toNat_sub_ofNat {p a : Nat} (hle : p ≤ a) (hlt : a - p < 2 ^ 64) :
    (UInt64.ofNat a - UInt64.ofNat p).toNat = a - p := by
  obtain ⟨d, rfl⟩ := Nat.exists_eq_add_of_le hle
  rw [Nat.add_sub_cancel_left] at hlt ⊢
  have hsub : UInt64.ofNat (p + d) - UInt64.ofNat p = UInt64.ofNat d := by
    rw [UInt64.ofNat_add, UInt64.add_comm, UInt64.add_sub_cancel]
  rw [hsub, UInt64.toNat_ofNat', Nat.mod_eq_of_lt hlt]

/-! ## Occupied slots -/

/-- What the first `n` slots hold. -/
def occupants (slots : Nat → Option α) (n : Nat) : List α := (List.range n).filterMap slots

theorem occupants_succ (slots : Nat → Option α) (n : Nat) :
    occupants slots (n + 1) = occupants slots n ++ (slots n).toList := by
  unfold occupants
  rw [List.range_succ, List.filterMap_append]
  cases h : slots n <;> simp [h]

theorem occupants_congr {slots slots' : Nat → Option α} {n : Nat}
    (h : ∀ k, k < n → slots k = slots' k) : occupants slots n = occupants slots' n :=
  List.filterMap_congr fun k hk => h k (List.mem_range.mp hk)

/-- **A write to a slot** takes out what the slot holds and puts in `v`. -/
theorem countP_occupants_put (p : α → Bool) (slots : Nat → Option α) {i n : Nat} (hi : i < n)
    (v : Option α) :
    (occupants (put slots i v) n).countP p + (slots i).toList.countP p =
      (occupants slots n).countP p + v.toList.countP p := by
  induction n with
  | zero => omega
  | succ n ih =>
    rw [occupants_succ, occupants_succ, List.countP_append, List.countP_append]
    rcases Nat.lt_succ_iff_lt_or_eq.mp hi with hlt | rfl
    · have hlast : put slots i v n = slots n := if_neg (by omega)
      have hrest := ih hlt
      rw [hlast]
      omega
    · have hbelow : occupants (put slots i v) i = occupants slots i :=
        occupants_congr fun k hk => if_neg (by omega)
      have hself : put slots i v i = v := if_pos rfl
      rw [hbelow, hself]
      omega

end Lib.Ring
