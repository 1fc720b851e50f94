import RemotePlay.Lib.Ring
import RemotePlay.Lib.Vec

/-!
# PacketPool and FixedRingBuffer

`PacketPool` hands out its packets last in, first out: the list is the pool's
vector from its back. `FixedRingBuffer` is an array addressed by an index
modulo its size.
-/

namespace RemotePlay

open Lib

structure Packet where
  data : Vec UInt8
  size : Nat
  isKeyframe : Bool
  timestamp : UInt64
  frameId : UInt32

/-- A packet as the pool's constructor makes it. -/
def Packet.new (capacity : Nat) : Packet := ⟨.replicate capacity 0, 0, false, 0, 0⟩

structure PacketPool where
  pool : List Packet

namespace PacketPool

def init (poolSize packetCapacity : Nat) : PacketPool :=
  ⟨List.replicate poolSize (.new packetCapacity)⟩

def acquire (p : PacketPool) : Option Packet × PacketPool :=
  match p.pool with
  | [] => (none, p)
  | pkt :: rest => (some pkt, ⟨rest⟩)

/-- Releasing an empty handle does nothing. -/
def release (p : PacketPool) : Option Packet → PacketPool
  | none => p
  | some pkt => ⟨pkt :: p.pool⟩

theorem acquire_release (p : PacketPool) (pkt : Packet) :
    (p.release (some pkt)).acquire = (some pkt, p) := rfl

theorem acquire_none {p p' : PacketPool} (h : p.acquire = (none, p')) : p.pool = [] := by
  unfold acquire at h
  cases hp : p.pool with
  | nil => rfl
  | cons pkt rest =>
    rw [hp] at h
    cases h

theorem acquire_some {p p' : PacketPool} {pkt : Packet} (h : p.acquire = (some pkt, p')) :
    p.pool = pkt :: p'.pool := by
  unfold acquire at h
  cases hp : p.pool with
  | nil =>
    rw [hp] at h
    cases h
  | cons pkt' rest =>
    rw [hp] at h
    cases h
    rfl

end PacketPool

/-- `FixedRingBuffer<α, size>`. -/
structure FixedRingBuffer (size : Nat) (α : Type) where
  buffer : Nat → α

namespace FixedRingBuffer

variable {size : Nat} {α : Type}

def get (r : FixedRingBuffer size α) (index : UInt32) : α := r.buffer (index.toNat % size)

def insert (r : FixedRingBuffer size α) (index : UInt32) (value : α) : FixedRingBuffer size α :=
  ⟨fun k => if k = index.toNat % size then value else r.buffer k⟩

theorem get_insert (r : FixedRingBuffer size α) (i j : UInt32) (value : α) :
    (r.insert i value).get j = if j.toNat % size = i.toNat % size then value else r.get j := rfl

@[simp] theorem get_insert_self (r : FixedRingBuffer size α) (i : UInt32) (value : α) :
    (r.insert i value).get i = value := by simp [get_insert]

theorem get_insert_ne (r : FixedRingBuffer size α) {i j : UInt32} (value : α)
    (h : j.toNat % size ≠ i.toNat % size) : (r.insert i value).get j = r.get j := by
  simp [get_insert, h]

/-- What a slot holds after a write is the value written or what it held. -/
theorem get_insert_cases {r : FixedRingBuffer size α} {i j : UInt32} {value a : α}
    (h : (r.insert i value).get j = a) : value = a ∨ r.get j = a := by
  rw [get_insert] at h
  split at h
  · exact .inl h
  · exact .inr h

@[simp] theorem insert_insert (r : FixedRingBuffer size α) (i : UInt32) (value value' : α) :
    (r.insert i value).insert i value' = r.insert i value' := by
  simp only [insert, mk.injEq]
  funext k
  split <;> rfl

/-- Writing back what the slot holds. -/
theorem insert_get (r : FixedRingBuffer size α) (i : UInt32) : r.insert i (r.get i) = r := by
  cases r
  simp only [insert, get, mk.injEq]
  funext k
  split
  · next h => rw [h]
  · rfl

theorem get_congr (r : FixedRingBuffer size α) {i j : UInt32}
    (h : i.toNat % size = j.toNat % size) : r.get i = r.get j := by
  simp [get, h]

/-! ### Rings of optional values -/

/-- The values in the slots, in the order of the slots. -/
def occupants (r : FixedRingBuffer size (Option α)) : List α := Ring.occupants r.buffer size

theorem countP_insert (p : α → Bool) (r : FixedRingBuffer size (Option α)) (hsize : 0 < size)
    (i : UInt32) (v : Option α) :
    (r.insert i v).occupants.countP p + (r.get i).toList.countP p =
      r.occupants.countP p + v.toList.countP p :=
  Ring.countP_occupants_put p r.buffer (Nat.mod_lt _ hsize) v

theorem occupants_empty : (⟨fun _ => none⟩ : FixedRingBuffer size (Option α)).occupants = [] := by
  unfold occupants Ring.occupants
  rw [List.filterMap_eq_nil_iff]
  exact fun _ _ => rfl

end FixedRingBuffer

end RemotePlay
