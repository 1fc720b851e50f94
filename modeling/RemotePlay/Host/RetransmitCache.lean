import RemotePlay.Host.Packetizer
import RemotePlay.Lib.Run

/-!
# The retransmission cache

The packetizer means to cache each datagram under `(frameId << 6) ^
fragmentIndex`, where the handler of a retransmit request looks for it. With
fragment indices below 64 the two parts of the index have no bit in common, so
modulo 512 it is the frame id modulo 8 followed by the fragment index: eight
consecutive frames have disjoint blocks of 64 slots, also across the wrap of the
frame id. But the block that fills the slots reads its header out of a released
packet and its bytes through a moved-from handle, and no datagram gets there.
-/

namespace RemotePlay.Host

open Lib Protocol

namespace ClientState

/-- The slot of a fragment. -/
def cacheSlot (frameId : UInt32) (fragmentIndex : UInt16) : Nat :=
  (cacheIdx frameId fragmentIndex).toNat % 512

/-! ## The index -/

/-- A shift by six and an index below 64 do not overlap. -/
theorem cacheIdx_toNat (frameId : UInt32) {fragmentIndex : UInt16} (h : fragmentIndex < 64) :
    (cacheIdx frameId fragmentIndex).toNat =
      frameId.toNat % 2 ^ 26 * 64 + fragmentIndex.toNat := by
  have hlt : fragmentIndex.toNat < 64 := UInt16.lt_iff_toNat_lt.mp h
  have hidx : (cacheIdx frameId fragmentIndex).toNat =
      (frameId.toNat <<< 6 % 2 ^ 32) ^^^ fragmentIndex.toNat := by
    simp only [cacheIdx, UInt32.toNat_xor, UInt32.toNat_shiftLeft, UInt16.toNat_toUInt32]
    rfl
  have hshift : frameId.toNat <<< 6 % 2 ^ 32 = frameId.toNat % 2 ^ 26 * 2 ^ 6 := by
    rw [Nat.shiftLeft_eq]
    omega
  rw [hidx, hshift]
  generalize frameId.toNat % 2 ^ 26 = block
  -- the parts above and below bit 6
  have hdiv : (block * 2 ^ 6 ^^^ fragmentIndex.toNat) / 2 ^ 6 = block := by
    rw [Nat.xor_div_two_pow, Nat.mul_div_cancel _ (by decide), Nat.div_eq_of_lt hlt,
      Nat.xor_zero]
  have hmod : (block * 2 ^ 6 ^^^ fragmentIndex.toNat) % 2 ^ 6 = fragmentIndex.toNat := by
    rw [Nat.xor_mod_two_pow, Nat.mul_mod_left, Nat.zero_xor, Nat.mod_eq_of_lt hlt]
  omega

theorem cacheSlot_eq (frameId : UInt32) {fragmentIndex : UInt16} (h : fragmentIndex < 64) :
    cacheSlot frameId fragmentIndex = frameId.toNat % 8 * 64 + fragmentIndex.toNat := by
  have hlt : fragmentIndex.toNat < 64 := UInt16.lt_iff_toNat_lt.mp h
  rw [cacheSlot, cacheIdx_toNat frameId h]
  omega

/-- Frame ids less than eight apart differ modulo 8, unless they are equal. -/
theorem eq_of_mod_eight {f g : UInt32} (hnear : g - f < 8) (h : f.toNat % 8 = g.toNat % 8) :
    f = g := by
  have hlt : (g - f).toNat < 8 := UInt32.lt_iff_toNat_lt.mp hnear
  have hf := f.toNat_lt
  have hg := g.toNat_lt
  rw [UInt32.toNat_sub] at hlt
  exact UInt32.toNat_inj.mp (by omega)

theorem cacheSlot_ne {f g : UInt32} {i j : UInt16} (hnear : g - f < 8) (hi : i < 64)
    (hj : j < 64) (hne : (f, i) ≠ (g, j)) : cacheSlot f i ≠ cacheSlot g j := by
  have hilt : i.toNat < 64 := UInt16.lt_iff_toNat_lt.mp hi
  have hjlt : j.toNat < 64 := UInt16.lt_iff_toNat_lt.mp hj
  rw [cacheSlot_eq f hi, cacheSlot_eq g hj]
  intro h
  have hf : f = g := eq_of_mod_eight hnear (by omega)
  have hij : i = j := UInt16.toNat_inj.mp (by omega)
  exact hne (by rw [hf, hij])

end ClientState

namespace Packetizer

/-! ## What gets into the cache -/

/-- The packetizer goes through the next frame, with the next frame id. -/
def packetizeNext (x : UInt32 × Except Fault Packetizer) (f : PacketizerInput × EncodedPacket) :
    UInt32 × Except Fault Packetizer :=
  (x.1 + 1, x.2.bind (packetize f.1 f.2 x.1))

/-- The packetizer has got through the frames, and a retransmit request finds every packet that it
pushed. -/
def Present (x : UInt32 × Except Fault Packetizer) : Prop :=
  ∃ s, x.2 = .ok s ∧ ∀ p ∈ s.pushed,
    s.client.cachedFragment p.frameId p.fragmentIndex = some p.sent

/-- What the cache is for: fragments of frames less than eight apart have slots of their own, and
the packets of eight frames of at most 64 fragments, the first with the id `firstId`, are all there
after the frames. -/
structure CachesRecent (firstId : UInt32) (frames : List (PacketizerInput × EncodedPacket))
    (s : Packetizer) : Prop where
  slots : ∀ (f g : UInt32) (i j : UInt16), g - f < 8 → i < 64 → j < 64 → (f, i) ≠ (g, j) →
    (ClientState.cacheIdx f i).toNat % 512 ≠ (ClientState.cacheIdx g j).toNat % 512
  present : frames.length ≤ 8 → (∀ f ∈ frames, f.2.totalFrags ≤ 64) →
    Present (run packetizeNext (firstId, .ok s) frames)

/-- The frame has no fragment, or its first one is given up: the pool is empty at one of the two
`acquire` calls for it, or `Encrypt` fails on it. -/
def NothingSealed (x : UInt32 × Except Fault Packetizer) (f : PacketizerInput × EncodedPacket) :
    Prop :=
  ∀ s, x.2 = .ok s → f.2.totalFrags = 0 ∨ GivesUp f.1 f.2 x.1 0 s

/-- Nothing has been pushed so far. -/
def NonePushed (x : UInt32 × Except Fault Packetizer) : Prop := ∀ s, x.2 = .ok s → s.pushed = []

/-- With nothing pushed, only a fault can go wrong. -/
theorem NonePushed.present_iff {x : UInt32 × Except Fault Packetizer} (h : NonePushed x) :
    Present x ↔ ∃ s, x.2 = .ok s := by
  constructor
  · exact fun ⟨s, hs, _⟩ => ⟨s, hs⟩
  · rintro ⟨s, hs⟩
    refine ⟨s, hs, fun p hp => ?_⟩
    rw [h s hs] at hp
    cases hp

theorem packetizeNext_step (x : UInt32 × Except Fault Packetizer)
    (f : PacketizerInput × EncodedPacket) (h : NonePushed x) :
    NonePushed (packetizeNext x f) ∧ (Present (packetizeNext x f) ↔ Present x ∧ NothingSealed x f) := by
  obtain ⟨fid, r⟩ := x
  have hnext : NonePushed (packetizeNext (fid, r) f) ∧
      ((∃ s, (packetizeNext (fid, r) f).2 = .ok s) ↔ (∃ s, r = .ok s) ∧
        NothingSealed (fid, r) f) := by
    cases r with
    | error fault =>
      refine ⟨fun s hs => (nomatch hs), iff_of_false ?_ ?_⟩
      · exact fun ⟨s, hs⟩ => nomatch hs
      · exact fun ⟨⟨s, hs⟩, _⟩ => nomatch hs
    | ok s =>
      have hpackets : (packetizeNext (fid, .ok s) f).2 = packetize f.1 f.2 fid s := rfl
      unfold NonePushed
      rw [hpackets]
      rcases packetize_cases f.1 f.2 fid s with ⟨hnone, s', hok, hpushed⟩ | ⟨hsome, hfault⟩
      · rw [hok]
        refine ⟨fun t ht => ?_, iff_of_true ⟨s', rfl⟩ ⟨⟨s, rfl⟩, fun t ht => ?_⟩⟩
        · cases ht
          exact hpushed.trans (h s rfl)
        · cases ht
          exact hnone
      · rw [hfault]
        refine ⟨fun t ht => (nomatch ht), iff_of_false ?_ ?_⟩
        · exact fun ⟨t, ht⟩ => nomatch ht
        · exact fun ⟨_, hno⟩ => hsome (hno s rfl)
  refine ⟨hnext.1, ?_⟩
  rw [hnext.1.present_iff, h.present_iff]
  exact hnext.2

/-- **The retransmission cache.** The slots never collide; the packets of eight frames are all in
the cache iff no fragment of them reaches the block that is to cache it. -/
theorem retransmit_cache_iff (firstId : UInt32)
    (frames : List (PacketizerInput × EncodedPacket)) (ctx : HostContext) (client : ClientState) :
    CachesRecent firstId frames (start ctx client) ↔
      (frames.length ≤ 8 → (∀ f ∈ frames, f.2.totalFrags ≤ 64) →
        Along packetizeNext NothingSealed (firstId, .ok (start ctx client)) frames) := by
  have h0 : NonePushed (firstId, .ok (start ctx client)) := by
    intro s hs
    cases hs
    rfl
  have hstart : Present (firstId, .ok (start ctx client)) := h0.present_iff.mpr ⟨_, rfl⟩
  obtain ⟨-, hexact⟩ := run_and_along (fun x f h (_ : True) => packetizeNext_step x f h) h0
    (along_of_always (fun _ _ => trivial) _ frames)
  rw [and_iff_right hstart] at hexact
  constructor
  · exact fun h hlength hfrags => hexact.mp (h.present hlength hfrags)
  · exact fun h => ⟨fun _ _ _ _ hnear hi hj hne => ClientState.cacheSlot_ne hnear hi hj hne,
      fun hlength hfrags => hexact.mpr (h hlength hfrags)⟩

/-- A frame of one byte. -/
def oneByte : EncodedPacket := ⟨⟨⟨1, fun _ => 0⟩, 1, true, 0, 0⟩, true, false, 0, 0, 0⟩

/-- The packet of a one-byte frame is not cached: the block uses the one that was released. -/
theorem retransmit_cache_unfilled :
    ¬ ∀ (firstId : UInt32) (frames : List (PacketizerInput × EncodedPacket)) (ctx : HostContext)
      (client : ClientState), CachesRecent firstId frames (start ctx client) := by
  intro h
  have hpresent := (h 1 [(quiet, oneByte)] twoPackets session7).present (by decide) (by decide)
  have hfault : (run packetizeNext (1, .ok (start twoPackets session7)) [(quiet, oneByte)]).2 =
      .error .released := rfl
  obtain ⟨s, hs, -⟩ := hpresent
  rw [hfault] at hs
  cases hs

end Packetizer

end RemotePlay.Host
