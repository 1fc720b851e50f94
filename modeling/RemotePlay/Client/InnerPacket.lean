import RemotePlay.Client.Malformed
import RemotePlay.Client.NetThread

/-!
# What the dispatcher reads of a decrypted packet

The dispatcher reads the type byte, the header of the branch it selects, and
as many bytes behind the header as the handler uses. `uses` lists these ranges;
`handle_congr` says that nothing else of the buffer matters. The header sizes
are compared with `encryptedSize`, the `dataSize` of a header is not.

`AudioDecoder::Decode` returns at once while there is no codec context, and
`runClient` never calls `Initialize`: `codecCtx` says whether there is one.
-/

namespace RemotePlay.Client

open Lib Protocol

/-! ## The payload of ProcessPacket -/

namespace Receiver

/-- How many bytes of the payload `ProcessPacket` copies. -/
def payloadUse (r : Receiver) (header : VideoHeader) (nowUs : UInt64) : Nat :=
  match r.gate header with
  | none => 0
  | some r =>
    if header.frameId < r.nextFrameIdToRead then 0
    else if header.totalFragments > 1024 ∨ header.dataSize.toNat > maxUdpPayload then 0
    else
      let f := r.frameFor header nowUs
      if header.fragmentIndex < f.totalFragments ∧
          f.fragmentMap.get header.fragmentIndex.toNat = false ∧
          header.fragmentIndex.toNat * maxUdpPayload + header.dataSize.toNat ≤ f.buffer.size then
        header.dataSize.toNat
      else 0

theorem payloadUse_le (r : Receiver) (header : VideoHeader) (nowUs : UInt64) :
    r.payloadUse header nowUs ≤ header.dataSize.toNat := by
  unfold payloadUse
  dsimp only
  split
  · omega
  · split <;> [omega; split <;> [omega; split <;> omega]]

/-- A packet that finds nothing to do has none of its payload copied. -/
theorem payloadUse_of_harmless {r : Receiver} {header : VideoHeader} (h : r.Harmless header)
    (nowUs : UInt64) : r.payloadUse header nowUs = 0 := by
  unfold Harmless at h
  by_cases hstarted : r.firstFrameReceived = true
  swap
  · rw [if_neg hstarted] at h
    have hgate : r.gate header = none := by
      unfold gate
      rw [if_neg hstarted, if_neg (by rw [h]; decide)]
    rw [payloadUse, hgate]
  rw [if_pos hstarted] at h
  rw [payloadUse, gate, if_pos hstarted]
  dsimp only
  by_cases hlate : header.frameId < r.nextFrameIdToRead
  · exact if_pos hlate
  rw [if_neg hlate]
  by_cases hlimits : header.totalFragments > 1024 ∨ header.dataSize.toNat > maxUdpPayload
  · exact if_pos hlimits
  rw [if_neg hlimits]
  -- the packet is accepted, so its frame is there and has no use for the fragment
  obtain ⟨f, hf, hno⟩ := h.resolve_left (not_not.mpr ⟨hlate, hlimits⟩)
  obtain ⟨hget, hid⟩ := frameAt_eq_some.mp hf
  have hframe : r.frameFor header nowUs = f := by
    rw [frameFor, hget]
    exact if_neg (not_not.mpr hid)
  rw [hframe]
  refine if_neg ?_
  rintro ⟨hindex, hmissing, hfits⟩
  rcases hno with hbehind | hstored | hout
  · exact UInt16.not_lt.mpr hbehind hindex
  · rw [hmissing] at hstored
    cases hstored
  · omega

end Receiver

theorem FrameData.store_congr (f : FrameData) (header : VideoHeader) {payload payload' : Mem}
    (h : header.fragmentIndex.toNat * maxUdpPayload + header.dataSize.toNat ≤ f.buffer.size →
      ∀ k, k < header.dataSize.toNat → payload k = payload' k) :
    f.store header payload = f.store header payload' := by
  unfold store
  dsimp only
  split
  · next hfits =>
    have hcopy : f.buffer.copyIn (header.fragmentIndex.toNat * maxUdpPayload)
        header.dataSize.toNat payload = f.buffer.copyIn
        (header.fragmentIndex.toNat * maxUdpPayload) header.dataSize.toNat payload' := by
      unfold Vec.copyIn
      refine congrArg (Vec.mk f.buffer.size) (funext fun k => ?_)
      split
      · next hk => exact h hfits _ (by omega)
      · rfl
    rw [hcopy]
  · rfl

namespace Receiver

theorem processPacket_congr (r : Receiver) (header : VideoHeader) (payload payload' : Mem)
    (nowUs : UInt64) (h : ∀ k, k < r.payloadUse header nowUs → payload k = payload' k) :
    r.processPacket header payload nowUs = r.processPacket header payload' nowUs := by
  unfold payloadUse at h
  unfold processPacket
  cases hgate : r.gate header with
  | none => rfl
  | some r' =>
    rw [hgate] at h
    dsimp only at h ⊢
    split
    · rfl
    next hid =>
    rw [if_neg hid] at h
    split
    · rfl
    next hlimits =>
    rw [if_neg hlimits] at h
    have hget : (r'.ensureFrame header nowUs).frameRing.get header.frameId =
        some (r'.frameFor header nowUs) := by
      rw [frameRing_ensureFrame, FixedRingBuffer.get_insert_self]
    unfold storeFragment
    rw [hget]
    dsimp only
    by_cases hnew : header.fragmentIndex < (r'.frameFor header nowUs).totalFragments ∧
        (r'.frameFor header nowUs).fragmentMap.get header.fragmentIndex.toNat = false
    · have hstore : (r'.frameFor header nowUs).store header payload =
          (r'.frameFor header nowUs).store header payload' := by
        refine FrameData.store_congr _ header fun hfits => ?_
        rwa [if_pos ⟨hnew.1, hnew.2, hfits⟩] at h
      rw [hstore]
    · rw [if_neg hnew, if_neg hnew]

end Receiver

/-! ## The dispatcher -/

/-- The branch of the dispatcher that takes a packet. -/
inductive InnerPacket where
  | video (vh : VideoHeader)
  | audio (ah : AudioHeader)
  | timeSync (tsrp : TimeSyncResponsePacket)

namespace InnerPacket

def headerSize : InnerPacket → Nat
  | video _ => VideoHeader.size
  | audio _ => AudioHeader.size
  | timeSync _ => TimeSyncResponsePacket.size

/-- How long the packet says it is: the header and the bytes it announces. -/
def declaredSize : InnerPacket → Nat
  | video vh => VideoHeader.size + vh.dataSize.toNat
  | audio ah => AudioHeader.size + ah.dataSize.toNat
  | timeSync _ => TimeSyncResponsePacket.size

def select (encryptedSize : UInt16) (decrypted : Mem) : Option InnerPacket :=
  if decrypted 0 = PacketType.video.code ∧ encryptedSize.toNat ≥ VideoHeader.size then
    some (.video (.read decrypted))
  else if decrypted 0 = PacketType.audio.code ∧ encryptedSize.toNat ≥ AudioHeader.size then
    some (.audio (.read decrypted))
  else if decrypted 0 = PacketType.timeSync.code ∧
      encryptedSize.toNat ≥ TimeSyncResponsePacket.size then
    some (.timeSync (.read decrypted))
  else none

end InnerPacket

namespace ClientSession

/-- What the branches do. -/
def act (c : ClientSession) (inner : InnerPacket) (decrypted : Mem) (nowUs : UInt64) :
    ClientSession × List ClientEffect :=
  match inner with
  | .video vh =>
    ({ c with
      receiver := c.receiver.processPacket vh (decrypted.shift VideoHeader.size) nowUs
      lastFrameId := max c.lastFrameId vh.frameId }, [])
  | .audio ah => (c, [.decodeAudio (decrypted.read AudioHeader.size ah.dataSize.toNat)])
  | .timeSync tsrp => (c, [.processResponse tsrp nowUs])

/-- The dispatcher acts on the packet it selects, and on no other. -/
theorem dispatch_eq (c : ClientSession) (encryptedSize : UInt16) (decrypted : Mem)
    (nowUs : UInt64) :
    c.dispatch encryptedSize decrypted nowUs =
      match InnerPacket.select encryptedSize decrypted with
      | none => (c, [])
      | some inner => c.act inner decrypted nowUs := by
  unfold dispatch InnerPacket.select
  dsimp only
  split
  · rfl
  split
  · rfl
  split
  · rfl
  · rfl

/-- What comes of the calls: without a codec context `Decode` returns at once. -/
def effective (codecCtx : Bool) (effects : List ClientEffect) : List ClientEffect :=
  effects.filter fun
    | .decodeAudio _ => codecCtx
    | .processResponse _ _ => true

/-- The dispatch, with what comes of its calls. -/
def handle (c : ClientSession) (codecCtx : Bool) (encryptedSize : UInt16) (decrypted : Mem)
    (nowUs : UInt64) : ClientSession × List ClientEffect :=
  let r := c.dispatch encryptedSize decrypted nowUs
  (r.1, effective codecCtx r.2)

/-- With a codec context every call has its effect. -/
theorem handle_true (c : ClientSession) (encryptedSize : UInt16) (decrypted : Mem)
    (nowUs : UInt64) :
    c.handle true encryptedSize decrypted nowUs = c.dispatch encryptedSize decrypted nowUs := by
  have hall : ∀ effects, effective true effects = effects := fun effects =>
    List.filter_eq_self.mpr fun e _ => by cases e <;> rfl
  rw [handle, hall]

/-- The ranges (offset and length) that a branch uses. -/
def innerUses (c : ClientSession) (codecCtx : Bool) (nowUs : UInt64) :
    InnerPacket → List (Nat × Nat)
  | .video vh => [(0, VideoHeader.size), (VideoHeader.size, c.receiver.payloadUse vh nowUs)]
  | .audio ah =>
    [(0, AudioHeader.size), (AudioHeader.size, if codecCtx then ah.dataSize.toNat else 0)]
  | .timeSync _ => [(0, TimeSyncResponsePacket.size)]

/-- All ranges of the buffer that the dispatcher uses. -/
def uses (c : ClientSession) (codecCtx : Bool) (encryptedSize : UInt16) (decrypted : Mem)
    (nowUs : UInt64) : List (Nat × Nat) :=
  (0, 1) :: match InnerPacket.select encryptedSize decrypted with
    | none => []
    | some inner => c.innerUses codecCtx nowUs inner

/-! ### Nothing else matters -/

theorem videoHeader_congr {m m' : Mem} (h : ∀ k, k < VideoHeader.size → m k = m' k) :
    VideoHeader.read m = VideoHeader.read m' := by
  have hbyte : ∀ k, k < 40 → m k = m' k := h
  have hread : ∀ off n, off + n ≤ 40 → m.read off n = m'.read off n :=
    fun off n hle => Mem.read_congr fun k _ hk => hbyte k (by omega)
  simp only [VideoHeader.read, u16, u32, u64, Mem.le, hbyte 0 (by omega), hbyte 37 (by omega),
    hread 1 4 (by omega), hread 5 2 (by omega), hread 7 2 (by omega), hread 9 4 (by omega),
    hread 13 8 (by omega), hread 21 8 (by omega), hread 29 8 (by omega), hread 38 2 (by omega)]

theorem audioHeader_congr {m m' : Mem} (h : ∀ k, k < AudioHeader.size → m k = m' k) :
    AudioHeader.read m = AudioHeader.read m' := by
  have hbyte : ∀ k, k < 15 → m k = m' k := h
  have hread : ∀ off n, off + n ≤ 15 → m.read off n = m'.read off n :=
    fun off n hle => Mem.read_congr fun k _ hk => hbyte k (by omega)
  simp only [AudioHeader.read, u16, u32, u64, Mem.le, hbyte 0 (by omega), hread 1 4 (by omega),
    hread 5 8 (by omega), hread 13 2 (by omega)]

theorem timeSyncResponse_congr {m m' : Mem}
    (h : ∀ k, k < TimeSyncResponsePacket.size → m k = m' k) :
    TimeSyncResponsePacket.read m = TimeSyncResponsePacket.read m' := by
  have hbyte : ∀ k, k < 25 → m k = m' k := h
  have hread : ∀ off n, off + n ≤ 25 → m.read off n = m'.read off n :=
    fun off n hle => Mem.read_congr fun k _ hk => hbyte k (by omega)
  simp only [TimeSyncResponsePacket.read, u64, Mem.le, hbyte 0 (by omega), hread 1 8 (by omega),
    hread 9 8 (by omega), hread 17 8 (by omega)]

/-- **The ranges are all it reads.** Two buffers that agree on them are handled alike. -/
theorem handle_congr (c : ClientSession) (codecCtx : Bool) (encryptedSize : UInt16)
    {decrypted decrypted' : Mem} (nowUs : UInt64)
    (h : ∀ u ∈ c.uses codecCtx encryptedSize decrypted nowUs,
      ∀ k, u.1 ≤ k → k < u.1 + u.2 → decrypted k = decrypted' k) :
    c.handle codecCtx encryptedSize decrypted nowUs =
      c.handle codecCtx encryptedSize decrypted' nowUs := by
  have htype : decrypted 0 = decrypted' 0 :=
    h (0, 1) List.mem_cons_self 0 (Nat.le_refl _) (by omega)
  unfold uses InnerPacket.select at h
  unfold handle dispatch
  dsimp only
  rw [← htype]
  split
  · next hvideo =>
    rw [if_pos hvideo] at h
    have hhead : VideoHeader.read decrypted = VideoHeader.read decrypted' :=
      videoHeader_congr fun k hk => h (0, VideoHeader.size) (by simp [innerUses]) k
        (Nat.zero_le k) (by omega)
    have hpacket := c.receiver.processPacket_congr (VideoHeader.read decrypted)
      (decrypted.shift VideoHeader.size) (decrypted'.shift VideoHeader.size)
      nowUs fun k hk => h (VideoHeader.size, _) (List.mem_cons_of_mem _ (List.mem_cons_of_mem _
        List.mem_cons_self)) (VideoHeader.size + k) (by omega) (by omega)
    rw [← hhead, hpacket]
  · next hvideo =>
    rw [if_neg hvideo] at h
    split
    · next haudio =>
      rw [if_pos haudio] at h
      have hhead : AudioHeader.read decrypted = AudioHeader.read decrypted' :=
        audioHeader_congr fun k hk => h (0, AudioHeader.size) (by simp [innerUses]) k
          (Nat.zero_le k) (by omega)
      cases codecCtx with
      | false => rfl
      | true =>
        have hread : decrypted.read AudioHeader.size (AudioHeader.read decrypted).dataSize.toNat =
            decrypted'.read AudioHeader.size (AudioHeader.read decrypted).dataSize.toNat :=
          Mem.read_congr fun k hle hk => h (AudioHeader.size, _) (List.mem_cons_of_mem _
            (List.mem_cons_of_mem _ List.mem_cons_self)) k hle hk
        rw [← hhead, hread]
    · next haudio =>
      rw [if_neg haudio] at h
      split
      · next hsync =>
        rw [if_pos hsync] at h
        have hhead : TimeSyncResponsePacket.read decrypted =
            TimeSyncResponsePacket.read decrypted' :=
          timeSyncResponse_congr fun k hk => h (0, TimeSyncResponsePacket.size)
            (by simp [innerUses]) k (Nat.zero_le k) (by omega)
        rw [hhead]
      · rfl

/-! ## Within the packet -/

/-- What a dispatcher must keep to for a packet of `encryptedSize` bytes: it uses bytes of the packet
only, so what lies behind it does not matter, and a packet that says it is longer than it is leaves
the session as it was and has nothing passed on. -/
structure Within (c : ClientSession) (codecCtx : Bool) (encryptedSize : UInt16) (decrypted : Mem)
    (nowUs : UInt64) : Prop where
  used : ∀ u ∈ c.uses codecCtx encryptedSize decrypted nowUs, u.1 + u.2 ≤ encryptedSize.toNat
  behind : ∀ decrypted' : Mem, (∀ k, k < encryptedSize.toNat → decrypted k = decrypted' k) →
    c.handle codecCtx encryptedSize decrypted nowUs =
      c.handle codecCtx encryptedSize decrypted' nowUs
  acted : ∀ inner, InnerPacket.select encryptedSize decrypted = some inner →
    encryptedSize.toNat < inner.declaredSize →
    c.handle codecCtx encryptedSize decrypted nowUs = (c, [])

/-- Nothing comes of the packet, whatever follows its header: the receiver finds nothing to do and
the newest id seen is no older, or there is no codec context for the audio. -/
def Inert (c : ClientSession) (codecCtx : Bool) : InnerPacket → Prop
  | .video vh => c.receiver.Harmless vh ∧ vh.frameId ≤ c.lastFrameId
  | .audio _ => codecCtx = false
  | .timeSync _ => False

/-- The packet is not empty, and what a branch selects of it is there in full or is inert. -/
def PayloadInside (c : ClientSession) (codecCtx : Bool) (encryptedSize : UInt16)
    (decrypted : Mem) : Prop :=
  0 < encryptedSize.toNat ∧ ∀ inner, InnerPacket.select encryptedSize decrypted = some inner →
    inner.declaredSize ≤ encryptedSize.toNat ∨ c.Inert codecCtx inner

variable {c : ClientSession} {codecCtx : Bool} {encryptedSize : UInt16} {decrypted : Mem}
  {inner : InnerPacket}

/-- A branch is selected only with its header in full. -/
theorem headerSize_le (h : InnerPacket.select encryptedSize decrypted = some inner) :
    inner.headerSize ≤ encryptedSize.toNat := by
  unfold InnerPacket.select at h
  split at h
  · next hvideo =>
    cases h
    exact hvideo.2
  split at h
  · next haudio =>
    cases h
    exact haudio.2
  split at h
  · next hsync =>
    cases h
    exact hsync.2
  · cases h

/-- The ranges of a branch end with the packet. -/
theorem innerUses_le (hheader : inner.headerSize ≤ encryptedSize.toNat)
    (h : inner.declaredSize ≤ encryptedSize.toNat ∨ c.Inert codecCtx inner) (nowUs : UInt64) :
    ∀ u ∈ c.innerUses codecCtx nowUs inner, u.1 + u.2 ≤ encryptedSize.toNat := by
  intro u hu
  cases inner with
  | video vh =>
    simp only [innerUses, List.mem_cons, List.not_mem_nil, or_false] at hu
    simp only [InnerPacket.declaredSize, InnerPacket.headerSize] at hheader h
    have huse := c.receiver.payloadUse_le vh nowUs
    rcases h with hsize | hinert
    · rcases hu with rfl | rfl <;> dsimp only <;> omega
    · have hnone := Receiver.payloadUse_of_harmless hinert.1 nowUs
      rcases hu with rfl | rfl <;> dsimp only <;> omega
  | audio ah =>
    simp only [innerUses, List.mem_cons, List.not_mem_nil, or_false] at hu
    simp only [InnerPacket.declaredSize, InnerPacket.headerSize] at hheader h
    have hle : (if codecCtx = true then ah.dataSize.toNat else 0) ≤ ah.dataSize.toNat := by
      split <;> omega
    rcases h with hsize | rfl
    · rcases hu with rfl | rfl <;> dsimp only <;> omega
    · rcases hu with rfl | rfl <;> simp only [Bool.false_eq_true, if_false] <;> omega
  | timeSync tsrp =>
    simp only [innerUses, List.mem_cons, List.not_mem_nil, or_false] at hu
    subst hu
    rw [Nat.zero_add]
    exact hheader

theorem used_of_inside (h : c.PayloadInside codecCtx encryptedSize decrypted) (nowUs : UInt64) :
    ∀ u ∈ c.uses codecCtx encryptedSize decrypted nowUs, u.1 + u.2 ≤ encryptedSize.toNat := by
  intro u hu
  rcases List.mem_cons.mp hu with rfl | hu
  · exact h.1
  cases hselect : InnerPacket.select encryptedSize decrypted with
  | none =>
    rw [hselect] at hu
    cases hu
  | some inner =>
    rw [hselect] at hu
    exact innerUses_le (headerSize_le hselect) (h.2 inner hselect) nowUs u hu

theorem behind_of_inside (h : c.PayloadInside codecCtx encryptedSize decrypted) (nowUs : UInt64)
    {decrypted' : Mem} (hagree : ∀ k, k < encryptedSize.toNat → decrypted k = decrypted' k) :
    c.handle codecCtx encryptedSize decrypted nowUs =
      c.handle codecCtx encryptedSize decrypted' nowUs := by
  refine c.handle_congr codecCtx encryptedSize nowUs fun u hu k _ hk => hagree k ?_
  have := used_of_inside h nowUs u hu
  omega

theorem le_max_eq_left {a b : UInt32} : max a b = a ↔ b ≤ a := by
  show (if a ≤ b then b else a) = a ↔ b ≤ a
  split
  · next hle => exact ⟨fun h => h ▸ UInt32.le_refl b, fun h => UInt32.le_antisymm h hle⟩
  · next hle => exact iff_of_true rfl (UInt32.le_of_lt (UInt32.not_le.mp hle))

/-- With no more bytes than the header, nothing comes of a packet iff it is inert. -/
theorem handle_self_iff (hkept : Receiver.Kept Receiver.Noted c.receiver)
    (h : InnerPacket.select encryptedSize decrypted = some inner)
    (hlong : encryptedSize.toNat < inner.declaredSize) (nowUs : UInt64) :
    c.handle codecCtx encryptedSize decrypted nowUs = (c, []) ↔ c.Inert codecCtx inner := by
  rw [handle, dispatch_eq, h]
  cases inner with
  | video vh =>
    have hself := Receiver.processPacket_self_iff hkept vh
      (decrypted.shift VideoHeader.size) nowUs
    rw [Inert, ← hself, ← le_max_eq_left]
    constructor
    · intro heq
      have hsession : ClientSession.mk .. = c := congrArg Prod.fst heq
      exact ⟨congrArg receiver hsession, congrArg lastFrameId hsession⟩
    · rintro ⟨hreceiver, hlast⟩
      show (ClientSession.mk .., []) = _
      rw [hreceiver, hlast]
  | audio ah => cases codecCtx <;> simp [act, effective, Inert]
  | timeSync tsrp =>
    have hheader : TimeSyncResponsePacket.size ≤ encryptedSize.toNat := headerSize_le h
    exact absurd hlong (Nat.not_lt.mpr hheader)

/-- The session with a receiver that any calls have left behind. -/
def reached (c : ClientSession) (poolSize : Nat) (maxFrames : UInt64) (calls : List FrameCall) :
    ClientSession :=
  { c with receiver := (run FrameFlow.step (.init poolSize maxFrames) calls).receiver }

/-- **Reads and lengths.** For any session with a receiver that any calls have left behind and any
decrypted packet, the dispatcher keeps within the packet iff the payload is inside or inert. -/
theorem within_iff_payloadInside (c : ClientSession) (poolSize : Nat) (maxFrames : UInt64)
    (calls : List FrameCall) (codecCtx : Bool) (encryptedSize : UInt16) (decrypted : Mem)
    (nowUs : UInt64) :
    (c.reached poolSize maxFrames calls).Within codecCtx encryptedSize decrypted nowUs ↔
      (c.reached poolSize maxFrames calls).PayloadInside codecCtx encryptedSize decrypted := by
  have hkept : Receiver.Kept Receiver.Noted (c.reached poolSize maxFrames calls).receiver :=
    FrameFlow.kept_reachable Receiver.slotRule_noted poolSize maxFrames calls
  constructor
  · rintro ⟨hused, -, hacted⟩
    refine ⟨hused (0, 1) List.mem_cons_self, fun inner hselect => ?_⟩
    by_cases hsize : inner.declaredSize ≤ encryptedSize.toNat
    · exact .inl hsize
    · have hlong := Nat.not_le.mp hsize
      exact .inr ((handle_self_iff hkept hselect hlong nowUs).mp (hacted inner hselect hlong))
  · intro h
    refine ⟨used_of_inside h nowUs, fun decrypted' hagree => behind_of_inside h nowUs hagree,
      fun inner hselect hlong => ?_⟩
    have hinert := (h.2 inner hselect).resolve_left (Nat.not_le.mpr hlong)
    exact (handle_self_iff hkept hselect hlong nowUs).mpr hinert

/-- The header of keyframe 1, of one fragment of 1300 bytes; what lies behind it is not the
packet's. -/
def truncatedVideo : Mem := fun k =>
  ((⟨0x01, 1, 0, 1, 0, 0, 0, 0, 0x01, 1300⟩ : VideoHeader).bytes)[k]?.getD 0xff

/-- The packet is the bare header, and 1300 bytes behind it become the frame. -/
theorem truncated_video_stored :
    ¬ ∀ (c : ClientSession) (poolSize : Nat) (maxFrames : UInt64) (calls : List FrameCall)
      (codecCtx : Bool) (encryptedSize : UInt16) (decrypted : Mem) (nowUs : UInt64),
      (c.reached poolSize maxFrames calls).Within codecCtx encryptedSize decrypted nowUs := by
  intro h
  have hused := (h (.init ⟨[], []⟩ [] 30) 30 10 [] false 40 truncatedVideo 0).used
    (VideoHeader.size, 1300) (List.mem_cons_of_mem _ (List.mem_cons_of_mem _ List.mem_cons_self))
  exact absurd hused (by decide)

/-! ## Lengths that agree -/

/-- The packet is not empty, and the `dataSize` of a video or audio header that is read is at most
what follows the header. -/
def LengthsAgree (encryptedSize : UInt16) (decrypted : Mem) : Prop :=
  0 < encryptedSize.toNat ∧
  (decrypted 0 = PacketType.video.code ∧ encryptedSize.toNat ≥ VideoHeader.size →
    VideoHeader.size + (VideoHeader.read decrypted).dataSize.toNat ≤ encryptedSize.toNat) ∧
  (decrypted 0 = PacketType.audio.code ∧ encryptedSize.toNat ≥ AudioHeader.size →
    AudioHeader.size + (AudioHeader.read decrypted).dataSize.toNat ≤ encryptedSize.toNat)

theorem LengthsAgree.inside (h : LengthsAgree encryptedSize decrypted) (c : ClientSession)
    (codecCtx : Bool) : c.PayloadInside codecCtx encryptedSize decrypted := by
  obtain ⟨hpos, hvideo, haudio⟩ := h
  refine ⟨hpos, fun inner hselect => .inl ?_⟩
  unfold InnerPacket.select at hselect
  split at hselect
  · next h =>
    cases hselect
    exact hvideo h
  split at hselect
  · next h =>
    cases hselect
    exact haudio h
  split at hselect
  · next h =>
    cases hselect
    exact h.2
  · cases hselect

/-- A packet whose lengths agree is dispatched alike whatever lies behind it. -/
theorem LengthsAgree.behind (h : LengthsAgree encryptedSize decrypted) (c : ClientSession)
    (nowUs : UInt64) {decrypted' : Mem}
    (hagree : ∀ k, k < encryptedSize.toNat → decrypted k = decrypted' k) :
    c.dispatch encryptedSize decrypted nowUs = c.dispatch encryptedSize decrypted' nowUs := by
  rw [← handle_true, ← handle_true]
  exact behind_of_inside (h.inside c true) nowUs hagree

end ClientSession

end RemotePlay.Client
