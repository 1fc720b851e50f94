import RemotePlay.Lib.Ring
import RemotePlay.Lib.Run

/-!
# LockFreeQueue

The ring with its two indices, and `push` and `pop` one atomic step at a time:
load the own index, load the other one and compare, access the slot, store the
own index. The consumer is one thread, the producers `ρ` may be several; `Tidy`
is what the queue needs of them, and what one producer cannot fail to do. Then
the queue is a bounded FIFO: what was popped, followed by what is between the
indices, is what was accepted.
-/

namespace RemotePlay.Common

open Lib

/-- A power of two; the `static_assert` alone lets 0 through. -/
structure Capacity where
  value : UInt64
  pos : value ≠ 0
  pow2 : value &&& (value - 1) = 0

/-- The slot of an index: `index & (Capacity - 1)`. -/
def Capacity.slot (c : Capacity) (index : UInt64) : Nat := (index &&& (c.value - 1)).toNat

structure LockFreeQueue (α : Type) where
  buffer : Nat → α
  head : UInt64
  tail : UInt64

/-- Where a producer stands in `push`. -/
inductive Pushing (α : Type) where
  | idle
  | tailLoaded (item : α) (tail : UInt64)
  /-- `m_head` is loaded and there is room. -/
  | checked (item : α) (tail : UInt64)
  /-- The slot is written. -/
  | written (item : α) (tail : UInt64)

/-- Where the consumer stands in `pop`. -/
inductive Popping (α : Type) where
  | idle
  | headLoaded (head : UInt64)
  /-- `m_tail` is loaded and there is an item. -/
  | available (head : UInt64)
  /-- The item is moved out of its slot. -/
  | taken (head : UInt64) (item : α)

structure QueueRun (ρ α : Type) where
  queue : LockFreeQueue α
  pushing : ρ → Pushing α
  popping : Popping α
  /-- The items whose `push` returned true, in the order of the stores to `m_tail`. -/
  accepted : List α
  /-- The items whose `push` returned false. -/
  refused : List α
  popped : List α
  /-- The calls of `pop` that returned false. -/
  failed : Nat

inductive QueueEvent (ρ α : Type) where
  /-- A producer calls `push` and loads `m_tail`. -/
  | call (r : ρ) (item : α)
  /-- The next step of its `push`. -/
  | push (r : ρ)
  /-- The next step of the consumer. -/
  | pop

/-- Between the check for room and the store to `m_tail`. -/
def Pushing.Filling {α : Type} : Pushing α → Prop
  | .checked _ _ | .written _ _ => True
  | _ => False

namespace QueueRun

variable {ρ α : Type} [DecidableEq ρ] (c : Capacity) (moved : α → α)

/-- An empty queue of `blank` items. -/
def start (blank : α) : QueueRun ρ α :=
  ⟨⟨fun _ => blank, 0, 0⟩, fun _ => .idle, .idle, [], [], [], 0⟩

def setPushing (s : QueueRun ρ α) (r : ρ) (p : Pushing α) : QueueRun ρ α :=
  { s with pushing := fun r' => if r' = r then p else s.pushing r' }

/-- `m_buffer[index & (Capacity - 1)] = item`. -/
def write (s : QueueRun ρ α) (index : UInt64) (item : α) : QueueRun ρ α :=
  { s with queue := { s.queue with buffer := Ring.put s.queue.buffer (c.slot index) item } }

/-- `moved` is what a move leaves of an item. -/
def step (s : QueueRun ρ α) : QueueEvent ρ α → QueueRun ρ α
  | .call r item =>
    match s.pushing r with
    | .idle => s.setPushing r (.tailLoaded item s.queue.tail)
    | _ => s
  | .push r =>
    match s.pushing r with
    | .idle => s
    | .tailLoaded item tail =>
      if tail - s.queue.head ≥ c.value then
        { s.setPushing r .idle with refused := s.refused ++ [item] }
      else s.setPushing r (.checked item tail)
    | .checked item tail => (s.write c tail item).setPushing r (.written item tail)
    | .written item tail =>
      { s.setPushing r .idle with
        queue := { s.queue with tail := tail + 1 }
        accepted := s.accepted ++ [item] }
  | .pop =>
    match s.popping with
    | .idle => { s with popping := .headLoaded s.queue.head }
    | .headLoaded head =>
      if head = s.queue.tail then { s with popping := .idle, failed := s.failed + 1 }
      else { s with popping := .available head }
    | .available head =>
      let item := s.queue.buffer (c.slot head)
      { s.write c head (moved item) with popping := .taken head item }
    | .taken head item =>
      { s with
        queue := { s.queue with head := head + 1 }
        popping := .idle
        popped := s.popped ++ [item] }

/-- A push passes the check for room with the current `m_tail`, and while no other push is filling
its slot. -/
def Tidy (s : QueueRun ρ α) : QueueEvent ρ α → Prop
  | .push r => ∀ item tail, s.pushing r = .tailLoaded item tail →
    tail - s.queue.head < c.value → tail = s.queue.tail ∧ ∀ r', ¬ (s.pushing r').Filling
  | _ => True

/-- The item `k` places behind `m_head`; the first one may be out of its slot already. -/
def itemAt (s : QueueRun ρ α) (k : Nat) : α :=
  match s.popping with
  | .taken _ item => if k = 0 then item else s.queue.buffer (c.slot (s.queue.head + .ofNat k))
  | _ => s.queue.buffer (c.slot (s.queue.head + .ofNat k))

/-- What is between the indices. -/
def contents (s : QueueRun ρ α) : List α :=
  (List.range (s.queue.tail - s.queue.head).toNat).map (s.itemAt c)

end QueueRun

/-! ## Slots -/

namespace Capacity

variable (c : Capacity)

theorem value_eq : ∃ j, j < 64 ∧ c.value.toNat = 2 ^ j := by
  have hone : 1 ≤ c.value := by
    rw [UInt64.le_iff_toNat_le]
    have hne : c.value.toNat ≠ 0 := fun h => c.pos (UInt64.toNat_inj.mp h)
    exact Nat.one_le_iff_ne_zero.mpr hne
  have hand : c.value.toNat &&& (c.value.toNat - 1) = 0 := by
    have h := congrArg UInt64.toNat c.pow2
    rw [UInt64.toNat_and, UInt64.toNat_sub_of_le _ _ hone] at h
    exact h
  obtain ⟨j, hj⟩ := Nat.ne_zero_and_sub_one_eq_zero_iff_isPowerOfTwo.mp
    ⟨fun h => c.pos (UInt64.toNat_inj.mp h), hand⟩
  refine ⟨j, ?_, hj⟩
  have hlt := c.value.toNat_lt
  rw [hj] at hlt
  exact (Nat.pow_lt_pow_iff_right (by decide)).mp hlt

theorem pos' : 0 < c.value.toNat := by
  obtain ⟨j, -, hj⟩ := c.value_eq
  rw [hj]
  exact Nat.two_pow_pos j

theorem lt : c.value.toNat < 2 ^ 64 := c.value.toNat_lt

/-- The slot of a running number, whatever the wraps. -/
theorem slot_ofNat (n : Nat) : c.slot (.ofNat n) = n % c.value.toNat := by
  obtain ⟨j, hj, hvalue⟩ := c.value_eq
  have hone : 1 ≤ c.value := UInt64.le_iff_toNat_le.mpr c.pos'
  unfold slot
  rw [UInt64.toNat_and, UInt64.toNat_sub_of_le _ _ hone, hvalue, UInt64.toNat_ofNat']
  show n % 2 ^ 64 &&& (2 ^ j - 1) = n % 2 ^ j
  rw [Nat.and_two_pow_sub_one_eq_mod, Nat.mod_mod_of_dvd n (Nat.pow_dvd_pow 2 (Nat.le_of_lt hj))]

end Capacity

/-! ## The invariant -/

namespace QueueRun

variable {ρ α : Type}

/-- How many items have left their slots. -/
def removed (s : QueueRun ρ α) : Nat :=
  match s.popping with
  | .taken _ _ => s.popped.length + 1
  | _ => s.popped.length

def PoppingOk (s : QueueRun ρ α) : Popping α → Prop
  | .idle => True
  | .headLoaded head => head = .ofNat s.popped.length
  | .available head => head = .ofNat s.popped.length ∧ s.popped.length < s.accepted.length
  | .taken head item =>
    head = .ofNat s.popped.length ∧ s.accepted[s.popped.length]? = some item

def PushingOk (c : Capacity) (s : QueueRun ρ α) : Pushing α → Prop
  | .checked _ tail =>
    tail = .ofNat s.accepted.length ∧ s.accepted.length < s.popped.length + c.value.toNat
  | .written item tail =>
    tail = .ofNat s.accepted.length ∧ s.accepted.length < s.popped.length + c.value.toNat ∧
      s.queue.buffer (s.accepted.length % c.value.toNat) = item
  | _ => True

structure Invariant (c : Capacity) (s : QueueRun ρ α) : Prop where
  tail : s.queue.tail = .ofNat s.accepted.length
  head : s.queue.head = .ofNat s.popped.length
  le : s.popped.length ≤ s.accepted.length
  bounded : s.accepted.length ≤ s.popped.length + c.value.toNat
  popped : s.popped = s.accepted.take s.popped.length
  slots : Ring.Holds s.queue.buffer c.value.toNat s.accepted s.removed
  popping : s.PoppingOk s.popping
  pushing : ∀ r, s.PushingOk c (s.pushing r)
  alone : ∀ r r', (s.pushing r).Filling → (s.pushing r').Filling → r = r'

theorem invariant_start (c : Capacity) (blank : α) : Invariant c (start blank : QueueRun ρ α) where
  tail := rfl
  head := rfl
  le := Nat.le_refl 0
  bounded := Nat.zero_le _
  popped := rfl
  slots := Ring.holds_nil _ _ _
  popping := trivial
  pushing _ := trivial
  alone _ _ h := h.elim

section
variable {c : Capacity} {moved : α → α} {s : QueueRun ρ α}

theorem popped_le_removed (s : QueueRun ρ α) : s.popped.length ≤ s.removed := by
  unfold removed
  split
  · exact Nat.le_succ _
  · exact Nat.le_refl _

/-- The distance between the indices. -/
theorem Invariant.toNat_sub (h : Invariant c s) :
    (s.queue.tail - s.queue.head).toNat = s.accepted.length - s.popped.length := by
  have hle := h.le
  have hbounded := h.bounded
  have hlt := c.lt
  rw [h.tail, h.head]
  exact Ring.toNat_sub_ofNat hle (by omega)

/-- Only an empty queue has equal indices. -/
theorem Invariant.lt_of_ne (h : Invariant c s) (hne : s.queue.head ≠ s.queue.tail) :
    s.popped.length < s.accepted.length := by
  refine Nat.lt_of_le_of_ne h.le fun heq => hne ?_
  rw [h.head, h.tail, heq]

theorem Invariant.eq_of_eq (h : Invariant c s) (heq : s.queue.head = s.queue.tail) :
    s.accepted.length = s.popped.length := by
  have hle := h.le
  have hsub := h.toNat_sub
  rw [heq, UInt64.sub_self] at hsub
  have hzero : (0 : UInt64).toNat = 0 := rfl
  omega

theorem Invariant.room (h : Invariant c s) (hroom : s.queue.tail - s.queue.head < c.value) :
    s.accepted.length < s.popped.length + c.value.toNat := by
  rw [UInt64.lt_iff_toNat_lt, h.toNat_sub] at hroom
  omega

theorem getElem?_popped (h : Invariant c s) {item : α}
    (hitem : s.accepted[s.popped.length]? = some item) :
    s.popped ++ [item] = s.accepted.take (s.popped.length + 1) := by
  rw [List.take_add_one, ← h.popped, hitem]
  rfl

/-- A producer that fills its slot is the only one. -/
theorem Invariant.not_filling (h : Invariant c s) {r r' : ρ} (hr : (s.pushing r).Filling)
    (hne : r' ≠ r) : ¬ (s.pushing r').Filling := fun hr' => hne (h.alone r' r hr' hr)

theorem pushingOk_of_not_filling {p : Pushing α} (h : ¬ p.Filling) : s.PushingOk c p := by
  cases p with
  | idle => trivial
  | tailLoaded _ _ => trivial
  | checked _ _ => exact absurd trivial h
  | written _ _ => exact absurd trivial h

/-- The consumer moves on at one of the indices. -/
theorem Invariant.setPopping (h : Invariant c s) {p : Popping α} (failed : Nat)
    (hp : s.PoppingOk p) (hremoved : { s with popping := p }.removed = s.removed) :
    Invariant c { s with popping := p, failed } where
  tail := h.tail
  head := h.head
  le := h.le
  bounded := h.bounded
  popped := h.popped
  slots := by
    show Ring.Holds s.queue.buffer c.value.toNat s.accepted { s with popping := p }.removed
    rw [hremoved]
    exact h.slots
  popping := hp
  pushing := h.pushing
  alone := h.alone

/-- The first item is moved out of its slot. -/
theorem Invariant.moveOut (h : Invariant c s) {head : UInt64}
    (hs : s.popping = .available head) :
    Invariant c { s.write c head (moved (s.queue.buffer (c.slot head))) with
      popping := .taken head (s.queue.buffer (c.slot head)) } := by
  have hok := h.popping
  rw [hs] at hok
  obtain ⟨hhead, hlt⟩ := hok
  have hbounded := h.bounded
  have hslot : c.slot head = s.popped.length % c.value.toNat := by rw [hhead, c.slot_ofNat]
  have hremoved : s.removed = s.popped.length := by
    unfold removed
    rw [hs]
  have hslots := h.slots
  rw [hremoved] at hslots
  have hitem := hslots s.popped.length _ (Nat.le_refl _) (List.getElem?_eq_getElem hlt)
  refine ⟨h.tail, h.head, h.le, hbounded, h.popped, ?_, ⟨hhead, ?_⟩, fun r => ?_, h.alone⟩
  · show Ring.Holds (Ring.put s.queue.buffer (c.slot head) _) _ _ (s.popped.length + 1)
    rw [hslot]
    exact hslots.put_first hbounded _
  · show s.accepted[s.popped.length]? = _
    rw [List.getElem?_eq_getElem hlt, ← hitem, hslot]
  · have hpushing := h.pushing r
    show PushingOk c _ (s.pushing r)
    cases hr : s.pushing r with
    | idle => trivial
    | tailLoaded _ _ => trivial
    | checked _ _ =>
      rw [hr] at hpushing
      exact hpushing
    | written item tail =>
      rw [hr] at hpushing
      obtain ⟨htail, hroom, hbuffer⟩ := hpushing
      refine ⟨htail, hroom, ?_⟩
      show Ring.put s.queue.buffer (c.slot head) _ (s.accepted.length % c.value.toNat) = item
      unfold Ring.put
      rw [hslot, if_neg (Ring.slot_ne hlt hroom).symm]
      exact hbuffer

/-- The slot of the first item is given up. -/
theorem Invariant.release (h : Invariant c s) {head : UInt64} {item : α}
    (hs : s.popping = .taken head item) :
    Invariant c { s with
      queue := { s.queue with head := head + 1 }
      popping := .idle
      popped := s.popped ++ [item] } := by
  have hok := h.popping
  rw [hs] at hok
  obtain ⟨hhead, hitem⟩ := hok
  have hlt := (List.getElem?_eq_some_iff.mp hitem).1
  have hbounded := h.bounded
  have hlen : (s.popped ++ [item]).length = s.popped.length + 1 := List.length_append
  have hremoved : s.removed = s.popped.length + 1 := by
    unfold removed
    rw [hs]
  have hslots := h.slots
  rw [hremoved] at hslots
  refine ⟨h.tail, ?_, ?_, ?_, ?_, ?_, trivial, fun r => ?_, h.alone⟩
  · show head + 1 = .ofNat (s.popped ++ [item]).length
    rw [hhead, hlen, Ring.ofNat_add_one]
  · show (s.popped ++ [item]).length ≤ s.accepted.length
    omega
  · show s.accepted.length ≤ (s.popped ++ [item]).length + c.value.toNat
    omega
  · show s.popped ++ [item] = s.accepted.take (s.popped ++ [item]).length
    rw [hlen]
    exact getElem?_popped h hitem
  · show Ring.Holds s.queue.buffer _ _ (s.popped ++ [item]).length
    rw [hlen]
    exact hslots
  · have hpushing := h.pushing r
    show PushingOk c _ (s.pushing r)
    cases hr : s.pushing r with
    | idle => trivial
    | tailLoaded _ _ => trivial
    | checked _ _ =>
      rw [hr] at hpushing
      refine ⟨hpushing.1, ?_⟩
      show s.accepted.length < (s.popped ++ [item]).length + c.value.toNat
      have hroom := hpushing.2
      omega
    | written _ _ =>
      rw [hr] at hpushing
      obtain ⟨htail, hroom, hbuffer⟩ := hpushing
      refine ⟨htail, ?_, hbuffer⟩
      show s.accepted.length < (s.popped ++ [item]).length + c.value.toNat
      omega

variable [DecidableEq ρ]

/-- What the other producers are doing after a change of one. -/
theorem setPushing_cases (s : QueueRun ρ α) (r r' : ρ) (p : Pushing α) :
    r' = r ∧ (s.setPushing r p).pushing r' = p ∨
      r' ≠ r ∧ (s.setPushing r p).pushing r' = s.pushing r' := by
  simp only [setPushing]
  split
  · next h => exact .inl ⟨h, rfl⟩
  · next h => exact .inr ⟨h, rfl⟩

/-- A producer moves on without filling a slot, or while no other one does. -/
theorem Invariant.setPushing (h : Invariant c s) {r : ρ} {p : Pushing α} (hp : s.PushingOk c p)
    (halone : p.Filling → ∀ r', (s.pushing r').Filling → r' = r) :
    Invariant c (s.setPushing r p) where
  tail := h.tail
  head := h.head
  le := h.le
  bounded := h.bounded
  popped := h.popped
  slots := h.slots
  popping := h.popping
  pushing r' := by
    rcases setPushing_cases s r r' p with ⟨-, heq⟩ | ⟨-, heq⟩
    · rw [heq]
      exact hp
    · rw [heq]
      exact h.pushing r'
  alone r₁ r₂ h₁ h₂ := by
    rcases setPushing_cases s r r₁ p with ⟨hr₁, heq₁⟩ | ⟨hr₁, heq₁⟩
    · rcases setPushing_cases s r r₂ p with ⟨hr₂, -⟩ | ⟨-, heq₂⟩
      · rw [hr₁, hr₂]
      · rw [heq₁] at h₁
        rw [heq₂] at h₂
        rw [hr₁, halone h₁ r₂ h₂]
    · rcases setPushing_cases s r r₂ p with ⟨hr₂, heq₂⟩ | ⟨-, heq₂⟩
      · rw [heq₁] at h₁
        rw [heq₂] at h₂
        rw [hr₂, halone h₂ r₁ h₁]
      · rw [heq₁] at h₁
        rw [heq₂] at h₂
        exact h.alone r₁ r₂ h₁ h₂

/-- The slot is written. -/
theorem Invariant.fill (h : Invariant c s) {r : ρ} {item : α} {tail : UInt64}
    (hr : s.pushing r = .checked item tail) :
    Invariant c ((s.write c tail item).setPushing r (.written item tail)) := by
  have hok := h.pushing r
  rw [hr] at hok
  obtain ⟨htail, hroom⟩ := hok
  have hfilling : (s.pushing r).Filling := by
    rw [hr]
    trivial
  have hbuffer : (s.write c tail item).queue.buffer =
      Ring.put s.queue.buffer (s.accepted.length % c.value.toNat) item := by
    rw [htail, ← c.slot_ofNat]
    rfl
  have hle := popped_le_removed s
  have hwrite : Invariant c (s.write c tail item) := by
    refine ⟨h.tail, h.head, h.le, h.bounded, h.popped, ?_, h.popping, fun r' => ?_, h.alone⟩
    · rw [hbuffer]
      exact h.slots.put_next (by omega) item
    · by_cases hr' : r' = r
      · subst hr'
        show PushingOk c _ (s.pushing r')
        rw [hr]
        exact ⟨htail, hroom⟩
      · exact pushingOk_of_not_filling (h.not_filling hfilling hr')
  refine hwrite.setPushing ⟨htail, hroom, ?_⟩ fun _ r' hr' => h.alone r' r hr' hfilling
  rw [hbuffer]
  exact if_pos rfl

/-- The push is published. -/
theorem Invariant.publish (h : Invariant c s) {r : ρ} {item : α} {tail : UInt64}
    (hr : s.pushing r = .written item tail) :
    Invariant c { s.setPushing r .idle with
      queue := { s.queue with tail := tail + 1 }
      accepted := s.accepted ++ [item] } := by
  have hok := h.pushing r
  rw [hr] at hok
  obtain ⟨htail, hroom, hitem⟩ := hok
  have hfilling : (s.pushing r).Filling := by
    rw [hr]
    trivial
  have hle := h.le
  have hlen : (s.accepted ++ [item]).length = s.accepted.length + 1 := List.length_append
  refine ⟨?_, h.head, ?_, ?_, ?_, h.slots.snoc hitem, ?_, fun r' => ?_, ?_⟩
  · show tail + 1 = .ofNat (s.accepted ++ [item]).length
    rw [htail, hlen, Ring.ofNat_add_one]
  · show s.popped.length ≤ (s.accepted ++ [item]).length
    omega
  · show (s.accepted ++ [item]).length ≤ s.popped.length + c.value.toNat
    omega
  · show s.popped = (s.accepted ++ [item]).take s.popped.length
    rw [List.take_append_of_le_length hle]
    exact h.popped
  · have hpopping := h.popping
    show PoppingOk _ s.popping
    cases hp : s.popping with
    | idle => trivial
    | headLoaded head =>
      rw [hp] at hpopping
      exact hpopping
    | available head =>
      rw [hp] at hpopping
      refine ⟨hpopping.1, ?_⟩
      show s.popped.length < (s.accepted ++ [item]).length
      omega
    | taken head item' =>
      rw [hp] at hpopping
      obtain ⟨hhead, hget⟩ := hpopping
      have hlt := (List.getElem?_eq_some_iff.mp hget).1
      exact ⟨hhead, (List.getElem?_append_left hlt).trans hget⟩
  · rcases setPushing_cases s r r' .idle with ⟨-, heq⟩ | ⟨hr', heq⟩
    · show PushingOk c _ ((s.setPushing r .idle).pushing r')
      rw [heq]
      trivial
    · show PushingOk c _ ((s.setPushing r .idle).pushing r')
      rw [heq]
      exact pushingOk_of_not_filling (h.not_filling hfilling hr')
  · have hidle : PushingOk c s .idle := trivial
    exact (h.setPushing (r := r) hidle fun hf => hf.elim).alone

theorem invariant_step (h : Invariant c s) {e : QueueEvent ρ α} (he : Tidy c s e) :
    Invariant c (step c moved s e) := by
  cases e with
  | call r item =>
    simp only [step]
    split
    · have hok : PushingOk c s (.tailLoaded item s.queue.tail) := trivial
      exact h.setPushing hok fun hf => hf.elim
    · exact h
  | push r =>
    simp only [step]
    split
    · exact h
    · next item tail hr =>
      have hidle : PushingOk c s .idle := trivial
      split
      · have hset := h.setPushing (r := r) hidle fun hf => hf.elim
        exact ⟨hset.tail, hset.head, hset.le, hset.bounded, hset.popped, hset.slots, hset.popping,
          hset.pushing, hset.alone⟩
      · next hroom =>
        have hroom := UInt64.not_le.mp hroom
        obtain ⟨rfl, hnone⟩ := he item tail hr hroom
        exact h.setPushing ⟨h.tail, h.room hroom⟩ fun _ r' hr' => absurd hr' (hnone r')
    · next item tail hr => exact h.fill hr
    · next item tail hr => exact h.publish hr
  | pop =>
    simp only [step]
    split
    · next hs =>
      refine h.setPopping _ h.head ?_
      unfold removed
      rw [hs]
    · next head hs =>
      have hok := h.popping
      rw [hs] at hok
      have hhead : head = s.queue.head := hok.trans h.head.symm
      split
      · refine h.setPopping _ trivial ?_
        unfold removed
        rw [hs]
      · next hne =>
        rw [hhead] at hne
        refine h.setPopping _ ⟨hok, h.lt_of_ne hne⟩ ?_
        unfold removed
        rw [hs]
    · next head hs => exact h.moveOut hs
    · next head item hs => exact h.release hs

end

/-! ## First in, first out -/

section
variable {c : Capacity} {s : QueueRun ρ α}

theorem Invariant.buffer_eq (h : Invariant c s) {k : Nat} (hk : s.removed ≤ s.popped.length + k)
    (hlt : s.popped.length + k < s.accepted.length) :
    s.accepted[s.popped.length + k]? = some (s.queue.buffer (c.slot (s.queue.head + .ofNat k))) := by
  have hget := List.getElem?_eq_getElem hlt
  rw [hget, h.head, ← UInt64.ofNat_add, c.slot_ofNat, h.slots _ _ hk hget]

theorem Invariant.itemAt_eq (h : Invariant c s) {k : Nat}
    (hlt : s.popped.length + k < s.accepted.length) :
    s.accepted[s.popped.length + k]? = some (s.itemAt c k) := by
  have hpopping := h.popping
  have hbuffer := h.buffer_eq (k := k)
  unfold itemAt
  unfold removed at hbuffer
  cases hs : s.popping with
  | taken head item =>
    rw [hs] at hpopping hbuffer
    by_cases hk : k = 0
    · subst hk
      exact hpopping.2
    · dsimp only
      rw [if_neg hk]
      exact hbuffer (Nat.add_le_add_left (Nat.one_le_iff_ne_zero.mpr hk) _) hlt
  | idle =>
    rw [hs] at hbuffer
    exact hbuffer (Nat.le_add_right _ _) hlt
  | headLoaded head =>
    rw [hs] at hbuffer
    exact hbuffer (Nat.le_add_right _ _) hlt
  | available head =>
    rw [hs] at hbuffer
    exact hbuffer (Nat.le_add_right _ _) hlt

/-- What was popped and what is between the indices is what was accepted. -/
theorem Invariant.popped_append_contents (h : Invariant c s) :
    s.popped ++ s.contents c = s.accepted := by
  have hcontents : s.contents c = s.accepted.drop s.popped.length := by
    unfold contents
    rw [h.toNat_sub]
    refine List.ext_getElem? fun k => ?_
    rw [List.getElem?_map, List.getElem?_drop]
    rcases Nat.lt_or_ge k (s.accepted.length - s.popped.length) with hk | hk
    · rw [List.getElem?_range hk, h.itemAt_eq (by omega)]
      rfl
    · rw [List.getElem?_eq_none (by rw [List.length_range]; exact hk),
        List.getElem?_eq_none (by omega)]
      rfl
  rw [hcontents]
  conv => lhs; lhs; rw [h.popped]
  exact List.take_append_drop _ _

end

section
variable {c : Capacity} {moved : α → α} {s : QueueRun ρ α} [DecidableEq ρ]

theorem call_frame (s : QueueRun ρ α) (r : ρ) (item : α) :
    (step c moved s (.call r item)).refused = s.refused ∧
      (step c moved s (.call r item)).failed = s.failed := by
  simp only [step]
  split
  · exact ⟨rfl, rfl⟩
  · exact ⟨rfl, rfl⟩

theorem push_frame (s : QueueRun ρ α) (r : ρ) : (step c moved s (.push r)).failed = s.failed := by
  simp only [step]
  split
  · rfl
  · split
    · rfl
    · rfl
  · rfl
  · rfl

theorem pop_frame (s : QueueRun ρ α) :
    (step c moved s .pop).refused = s.refused ∧ (step c moved s .pop).pushing = s.pushing ∧
      (step c moved s .pop).queue.tail = s.queue.tail := by
  simp only [step]
  split
  · exact ⟨rfl, rfl, rfl⟩
  · split
    · exact ⟨rfl, rfl, rfl⟩
    · exact ⟨rfl, rfl, rfl⟩
  · exact ⟨rfl, rfl, rfl⟩
  · exact ⟨rfl, rfl, rfl⟩

theorem tailLoaded_of_refused {e : QueueEvent ρ α} (he : (step c moved s e).refused ≠ s.refused) :
    ∃ r item tail, s.pushing r = .tailLoaded item tail ∧ c.value ≤ tail - s.queue.head := by
  cases e with
  | call r item => exact absurd (call_frame s r item).1 he
  | push r =>
    simp only [step] at he
    split at he
    · exact absurd rfl he
    · next item tail hr =>
      split at he
      · next hfull => exact ⟨r, item, tail, hr, hfull⟩
      · exact absurd rfl he
    · exact absurd rfl he
    · exact absurd rfl he
  | pop => exact absurd (pop_frame s).1 he

theorem headLoaded_of_failed {e : QueueEvent ρ α} (he : (step c moved s e).failed ≠ s.failed) :
    s.popping = .headLoaded s.queue.tail := by
  cases e with
  | call r item => exact absurd (call_frame s r item).2 he
  | push r => exact absurd (push_frame s r) he
  | pop =>
    simp only [step] at he
    split at he
    · exact absurd rfl he
    · next head hs =>
      split at he
      · next hempty => rw [hs, hempty]
      · exact absurd rfl he
    · exact absurd rfl he
    · exact absurd rfl he

/-- A pop that returns false has found the queue empty. -/
theorem Invariant.empty_of_failed (h : Invariant c s) {e : QueueEvent ρ α}
    (he : (step c moved s e).failed ≠ s.failed) : s.accepted.length = s.popped.length := by
  have hpopping := h.popping
  rw [headLoaded_of_failed he] at hpopping
  exact h.eq_of_eq (h.head.trans hpopping.symm)

/-- Calls of `pop` while no producer runs. -/
def drain (n : Nat) : List (QueueEvent ρ α) := List.replicate (4 * n) .pop

theorem along_tidy_drain (s : QueueRun ρ α) (n : Nat) :
    Along (step c moved) (Tidy c) s (drain n) := by
  unfold drain
  induction 4 * n generalizing s with
  | zero => trivial
  | succ n ih => exact ⟨trivial, ih _⟩

variable (c moved) in
/-- One whole call of `pop` on a queue that is not empty. -/
theorem pop_call (hidle : s.popping = .idle) (hne : s.queue.head ≠ s.queue.tail) :
    let s' := run (step c moved) s (drain 1)
    s'.popping = .idle ∧ s'.accepted = s.accepted ∧ s'.popped.length = s.popped.length + 1 := by
  simp only [drain, run, List.replicate, List.foldl_cons, List.foldl_nil, step, hidle, if_neg hne,
    write]
  exact ⟨trivial, trivial, List.length_append⟩

/-- The consumer empties the queue. -/
theorem Invariant.popped_drain {n : Nat} (h : Invariant c s) (hidle : s.popping = .idle)
    (hn : s.accepted.length = s.popped.length + n) :
    (run (step c moved) s (drain n)).popped = s.accepted := by
  induction n generalizing s with
  | zero =>
    show s.popped = s.accepted
    rw [h.popped, ← Nat.add_zero s.popped.length, ← hn, List.take_length]
  | succ n ih =>
    have hne : s.queue.head ≠ s.queue.tail := by
      intro heq
      have hlen := h.eq_of_eq heq
      omega
    obtain ⟨hidle', haccepted, hlen⟩ := pop_call c moved hidle hne
    have hinv : Invariant c (run (step c moved) s (drain 1)) :=
      run_invariant (fun s _ (h : Invariant c s) he => invariant_step h he) h
        (along_tidy_drain s 1)
    have hdrain : (drain (n + 1) : List (QueueEvent ρ α)) = drain 1 ++ drain n := by
      unfold drain
      rw [Nat.mul_add, Nat.add_comm, List.replicate_add]
    rw [hdrain, run_append, ih hinv hidle' (by rw [haccepted, hlen, hn]; omega), haccepted]

end

/-! ## One producer -/

section
variable {c : Capacity} {moved : α → α} {s : QueueRun Unit α}

/-- `m_tail` is the producer's own. -/
def Current (s : QueueRun Unit α) : Prop :=
  ∀ item tail, s.pushing () = .tailLoaded item tail → tail = s.queue.tail

theorem current_step (h : Current s) (e : QueueEvent Unit α) : Current (step c moved s e) := by
  cases e with
  | call r item =>
    simp only [step]
    split
    · intro item' tail htail
      cases htail
      rfl
    · exact h
  | push r =>
    simp only [step]
    split
    · exact h
    · split
      · intro _ _ htail
        cases htail
      · intro _ _ htail
        cases htail
    · intro _ _ htail
      cases htail
    · intro _ _ htail
      cases htail
  | pop =>
    obtain ⟨-, hpushing, htail⟩ := pop_frame s
    intro item tail hr
    rw [hpushing] at hr
    rw [htail]
    exact h item tail hr

theorem tidy_of_current (h : Current s) (e : QueueEvent Unit α) : Tidy c s e := by
  cases e with
  | call r item => trivial
  | pop => trivial
  | push r =>
    intro item tail hr _
    refine ⟨h item tail hr, fun r' hr' => ?_⟩
    rw [show s.pushing r' = _ from hr] at hr'
    exact hr'

theorem along_tidy (h : Current s) (es : List (QueueEvent Unit α)) :
    Along (step c moved) (Tidy c) s es := by
  induction es generalizing s with
  | nil => trivial
  | cons e es ih => exact ⟨tidy_of_current h e, ih (current_step h e)⟩

theorem current_start (blank : α) : Current (start blank : QueueRun Unit α) := by
  intro item tail h
  cases h

/-- A push that returns false has found the queue full. -/
theorem Invariant.full_of_refused (h : Invariant c s) (hcurrent : Current s)
    {e : QueueEvent Unit α} (he : (step c moved s e).refused ≠ s.refused) :
    s.accepted.length = s.popped.length + c.value.toNat := by
  obtain ⟨_, item, tail, hr, hfull⟩ := tailLoaded_of_refused he
  cases hcurrent item tail hr
  have hbounded := h.bounded
  have hle := h.le
  rw [UInt64.le_iff_toNat_le, h.toNat_sub] at hfull
  omega

/-- The slot a producer is about to write is none of those between the indices. -/
theorem Invariant.slot_free (h : Invariant c s) {item : α} {tail : UInt64}
    (hr : s.pushing () = .checked item tail) {k : Nat}
    (hk : k < (s.queue.tail - s.queue.head).toNat) :
    c.slot tail ≠ c.slot (s.queue.head + .ofNat k) := by
  have hok := h.pushing ()
  rw [hr] at hok
  obtain ⟨htail, hroom⟩ := hok
  rw [h.toNat_sub] at hk
  rw [htail, h.head, ← UInt64.ofNat_add, c.slot_ofNat, c.slot_ofNat]
  exact (Ring.slot_ne (by omega) (by omega)).symm

end

/-- **The queue is a bounded FIFO** for one producer and one consumer, at every step of both. -/
theorem refines_fifo (c : Capacity) (moved : α → α) (blank : α) (es : List (QueueEvent Unit α)) :
    let s := run (step c moved) (start blank) es
    s.popped ++ s.contents c = s.accepted ∧ s.popped <+: s.accepted ∧
    s.accepted.length ≤ s.popped.length + c.value.toNat ∧
    (∀ item tail, s.pushing () = .checked item tail → ∀ k < (s.queue.tail - s.queue.head).toNat,
      c.slot tail ≠ c.slot (s.queue.head + .ofNat k)) ∧
    (∀ e, (step c moved s e).refused ≠ s.refused →
      s.accepted.length = s.popped.length + c.value.toNat) ∧
    ∀ e, (step c moved s e).failed ≠ s.failed → s.accepted.length = s.popped.length := by
  intro s
  have hinv : Invariant c s :=
    run_invariant (fun s _ (h : Invariant c s) he => invariant_step h he) (invariant_start c blank)
      (along_tidy (current_start blank) es)
  have hcurrent : Current s :=
    run_invariant' (fun s e (h : Current s) => current_step h e) (current_start blank) es
  have hfifo := hinv.popped_append_contents
  exact ⟨hfifo, ⟨_, hfifo⟩, hinv.bounded, fun _ _ hr _ hk => hinv.slot_free hr hk,
    fun _ he => hinv.full_of_refused hcurrent he, fun _ he => hinv.empty_of_failed he⟩

end QueueRun

end RemotePlay.Common
