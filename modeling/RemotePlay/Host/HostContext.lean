import RemotePlay.Common.NetworkManager
import RemotePlay.Common.PacketPool
import RemotePlay.Session.Envelope

/-!
# The host's sessions

`ClientState` and `HostContext` of `runHost`, and what the receiver thread
does with a packet of a session: the replay check, the dispatch on the inner
type, retransmission from the packet cache. `HostEffect` records the calls
that leave the session state.
-/

namespace RemotePlay.Host

open Lib Protocol Crypto Session

structure CachedPacket where
  data : List UInt8
  frameId : UInt32
  fragmentIndex : UInt16
  occupied : Bool

/-- A cache entry that has not been used. -/
def CachedPacket.empty : CachedPacket := ⟨[], 0, 0, false⟩

structure ClientState where
  endpoint : Endpoint
  frameId : UInt32
  txKey : Key
  rxKey : Key
  clientPublicKey : Key
  sessionId : UInt64
  sendSequenceNumber : UInt64
  lastActivity : Int
  packetCache : FixedRingBuffer 512 CachedPacket

structure OutgoingPacket where
  packet : Packet
  target : Endpoint

structure HostContext where
  clients : List ClientState
  initializingClients : List Endpoint
  sendQueue : List OutgoingPacket
  udpPool : PacketPool
  globalPacketSequence : UInt32
  /-- The receiver thread's `lastSeqs`; an absent entry reads as zero. -/
  lastSeqs : UInt64 → UInt64

inductive HostEffect where
  | sendTo (datagram : Datagram)
  /-- The injector's function for the kind of the event; those for gamepads go by the address. -/
  | inject (clientIp : List UInt8) (ev : InputEvent)
  | updatePerformanceMetrics (sessionId : UInt64) (fh : FeedbackHeader)
  | requestKeyframe (sessionId : UInt64)
  /-- An initialisation thread is started for a client. -/
  | startInit (client : Endpoint) (clientPubKey : Key) (username : List UInt8)

/-- What handling a packet depends on besides the state: the sender, the clocks and the bytes the
stack buffers hold beforehand. -/
structure HostInput where
  cm : CryptoManager
  sender : Endpoint
  nowUs : UInt64
  steadyNow : Int
  stack : Mem
  stackHeader : SecureHeader

/-- The capacity of `sendQueue`. -/
def sendQueueCapacity : Nat := 4096

/-- Change the first element that satisfies `p`. -/
def updateFirst {α : Type} (p : α → Bool) (f : α → α) : List α → List α
  | [] => []
  | a :: l => if p a then f a :: l else a :: updateFirst p f l

/-- What the change keeps of the element it is made to, the list keeps. -/
theorem map_updateFirst {α β : Type} {p : α → Bool} {f : α → α} (g : α → β) (l : List α)
    (h : ∀ a ∈ l, p a = true → g (f a) = g a) : (updateFirst p f l).map g = l.map g := by
  induction l with
  | nil => rfl
  | cons a l ih =>
    unfold updateFirst
    split
    · next hp => rw [List.map_cons, List.map_cons, h a List.mem_cons_self hp]
    · rw [List.map_cons, List.map_cons, ih fun b hb => h b (List.mem_cons_of_mem _ hb)]

/-- Of the first element that satisfies `p`, a list that comes out the same has been left alone. -/
theorem eq_of_updateFirst_eq_self {α : Type} {p : α → Bool} {f : α → α} {l : List α} {a : α}
    (h : updateFirst p f l = l) (ha : l.find? p = some a) : f a = a := by
  induction l with
  | nil => cases ha
  | cons b l ih =>
    unfold updateFirst at h
    rw [List.find?_cons] at ha
    split at h
    · next hp =>
      rw [hp] at ha
      cases ha
      exact (List.cons.inj h).1
    · next hp =>
      rw [Bool.not_eq_true] at hp
      rw [hp] at ha
      exact ih (List.cons.inj h).2 ha

theorem updateFirst_eq_self_of_find {α : Type} {p : α → Bool} {f : α → α} {l : List α} {a : α}
    (ha : l.find? p = some a) (h : f a = a) : updateFirst p f l = l := by
  induction l with
  | nil => rfl
  | cons b l ih =>
    unfold updateFirst
    rw [List.find?_cons] at ha
    split
    · next hp =>
      rw [hp] at ha
      cases ha
      rw [h]
    · next hp =>
      rw [Bool.not_eq_true] at hp
      rw [hp] at ha
      rw [ih ha]

theorem updateFirst_eq_self {α : Type} {p : α → Bool} {f : α → α} (l : List α)
    (h : ∀ a ∈ l, p a = true → f a = a) : updateFirst p f l = l := by
  have hmap := map_updateFirst id l h
  rwa [List.map_id, List.map_id] at hmap

namespace ClientState

/-- A client's state before the key exchange. -/
def new (sender : Endpoint) (clientPubKey : Key) (steadyNow : Int) : ClientState where
  endpoint := sender
  frameId := 0
  txKey := []
  rxKey := []
  clientPublicKey := clientPubKey
  sessionId := 0
  sendSequenceNumber := 0
  lastActivity := steadyNow
  packetCache := ⟨fun _ => .empty⟩

/-- `c->ip == senderIp && c->port == senderPort && c->sessionId == sh.sessionId`. -/
def isSession (sender : Endpoint) (sessionId : UInt64) (c : ClientState) : Bool :=
  c.endpoint = sender && c.sessionId = sessionId

/-- `(frameId << 6) ^ fragmentIndex`. -/
def cacheIdx (frameId : UInt32) (fragmentIndex : UInt16) : UInt32 :=
  (frameId <<< 6) ^^^ fragmentIndex.toUInt32

/-- The cached datagram of a fragment. -/
def cachedFragment (c : ClientState) (frameId : UInt32) (fragmentIndex : UInt16) :
    Option (List UInt8) :=
  let cached := c.packetCache.get (cacheIdx frameId fragmentIndex)
  if cached.occupied ∧ cached.frameId = frameId ∧ cached.fragmentIndex = fragmentIndex then
    some cached.data
  else none

/-- A verified packet: the session is active, at the endpoint the packet came from. -/
def touch (input : HostInput) (c : ClientState) : ClientState :=
  { c with lastActivity := input.steadyNow, endpoint := input.sender }

/-- More than 30 whole seconds since the last activity. The clock ticks in nanoseconds. -/
def timedOut (now : Int) (c : ClientState) : Bool :=
  (now - c.lastActivity).tdiv 1000000000 > 30

end ClientState

namespace HostContext

/-- The host before the first handshake. -/
def init : HostContext where
  clients := []
  initializingClients := []
  sendQueue := []
  udpPool := .init 1000 1500
  globalPacketSequence := 0
  lastSeqs _ := 0

/-- `targetClient` of an envelope. -/
def findSession (ctx : HostContext) (sender : Endpoint) (sessionId : UInt64) :
    Option ClientState :=
  ctx.clients.find? (ClientState.isSession sender sessionId)

def updateSession (ctx : HostContext) (sender : Endpoint) (sessionId : UInt64)
    (f : ClientState → ClientState) : HostContext :=
  { ctx with clients := updateFirst (ClientState.isSession sender sessionId) f ctx.clients }

/-- A full queue refuses the packet. -/
def push (ctx : HostContext) (out : OutgoingPacket) : Bool × HostContext :=
  if ctx.sendQueue.length ≥ sendQueueCapacity then (false, ctx)
  else (true, { ctx with sendQueue := ctx.sendQueue ++ [out] })

/-- `if (seq >= lastSeqs[sid]) lastSeqs[sid] = seq + 1`. -/
def replayCheck (ctx : HostContext) (sh : SecureHeader) : Bool × HostContext :=
  if sh.sequenceNumber ≥ ctx.lastSeqs sh.sessionId then
    (true, { ctx with lastSeqs := fun sid =>
      if sid = sh.sessionId then sh.sequenceNumber + 1 else ctx.lastSeqs sid })
  else (false, ctx)

theorem replayCheck_fresh_iff {ctx : HostContext} {sh : SecureHeader} :
    (ctx.replayCheck sh).1 = true ↔ ctx.lastSeqs sh.sessionId ≤ sh.sequenceNumber := by
  unfold replayCheck
  split
  · next h => exact iff_of_true rfl h
  · next h => exact iff_of_false Bool.false_ne_true h

/-- A packet that is let through moves its session's number past its own. -/
theorem lastSeqs_replayCheck {ctx : HostContext} {sh : SecureHeader}
    (h : ctx.lastSeqs sh.sessionId ≤ sh.sequenceNumber) :
    (ctx.replayCheck sh).2.lastSeqs sh.sessionId = sh.sequenceNumber + 1 := by
  unfold replayCheck
  split
  · exact if_pos rfl
  · next hn => exact absurd h hn

/-! ## Handlers -/

/-- The event types in the order the input branch tries them. -/
def inputTypes : List InputType :=
  [.keyboard, .mouseMove, .mouseButton, .mouseScroll, .gamepadStatus, .gamepad]

def handleInput (input : HostInput) (encryptedSize : Nat) (decrypted : Mem) : List HostEffect :=
  let ih := InputHeader.read decrypted
  let payloadLen := encryptedSize - InputHeader.size
  match inputTypes.find? fun ty => ih.inputType = ty.code && payloadLen ≥ InputEvent.size ty with
  | some ty => [.inject input.sender.ip (InputEvent.read (decrypted.shift InputHeader.size) ty)]
  | none => []

def handleFeedback (target : ClientState) (decrypted : Mem) : List HostEffect :=
  let fh := FeedbackHeader.read decrypted
  .updatePerformanceMetrics target.sessionId fh ::
    if fh.requestKeyframe ≠ 0 then [.requestKeyframe target.sessionId] else []

/-- A pooled packet filled with a cached datagram. -/
def fillCached (pkt : Packet) (data : List UInt8) : Packet :=
  { pkt with data := pkt.data.copyIn 0 data.length (data.getD · 0), size := data.length }

def handleRetransmitRequest (ctx : HostContext) (target : ClientState)
    (rrp : RetransmitRequestPacket) : HostContext :=
  match target.cachedFragment rrp.frameId rrp.fragmentIndex with
  | none => ctx
  | some data =>
    match ctx.udpPool.acquire with
    | (none, _) => ctx
    | (some pkt, udpPool) =>
      ({ ctx with udpPool }.push ⟨fillCached pkt data, target.endpoint⟩).2

/-- The response takes the session's next sequence number, also when it cannot be sealed. -/
def handleTimeSync (ctx : HostContext) (input : HostInput) (target : ClientState)
    (tsp : TimeSyncPacket) : HostContext × List HostEffect :=
  let tsrp : TimeSyncResponsePacket :=
    ⟨PacketType.timeSync.code, tsp.clientSendTimestamp, input.nowUs, input.nowUs⟩
  let sealed := sealEnvelope input.cm input.stackHeader target.sessionId target.sendSequenceNumber
    target.txKey tsrp.bytes
  (ctx.updateSession input.sender target.sessionId fun c =>
      { c with sendSequenceNumber := c.sendSequenceNumber + 1 },
    sealed.toList.map fun data => .sendTo ⟨data, input.sender⟩)

/-- Dispatch on the inner type of a decrypted packet of `encryptedSize` bytes. -/
def dispatch (ctx : HostContext) (input : HostInput) (target : ClientState) (encryptedSize : Nat)
    (decrypted : Mem) : HostContext × List HostEffect :=
  if decrypted 0 = PacketType.input.code ∧ encryptedSize ≥ InputHeader.size then
    (ctx, handleInput input encryptedSize decrypted)
  else if decrypted 0 = PacketType.feedback.code ∧ encryptedSize ≥ FeedbackHeader.size then
    (ctx, handleFeedback target decrypted)
  else if decrypted 0 = PacketType.retransmitRequest.code ∧
      encryptedSize ≥ RetransmitRequestPacket.size then
    (ctx.handleRetransmitRequest target (RetransmitRequestPacket.read decrypted), [])
  else if decrypted 0 = PacketType.timeSync.code ∧ encryptedSize ≥ TimeSyncPacket.size then
    ctx.handleTimeSync input target (TimeSyncPacket.read decrypted)
  else (ctx, [])

/-- A decrypted envelope: activity, the replay check, then the dispatch. -/
def receiveDecrypted (ctx : HostContext) (input : HostInput) (target : ClientState)
    (sh : SecureHeader) (decrypted : Mem) : HostContext × List HostEffect :=
  let ctx := ctx.updateSession input.sender sh.sessionId (·.touch input)
  let (fresh, ctx) := ctx.replayCheck sh
  if fresh then ctx.dispatch input (target.touch input) sh.encryptedSize.toNat decrypted
  else (ctx, [])

/-! ## What serving an envelope leaves alone -/

/-- The endpoints of the sessions. -/
def endpoints (ctx : HostContext) : List Endpoint := ctx.clients.map ClientState.endpoint

theorem push_frame (ctx : HostContext) (out : OutgoingPacket) :
    ∃ sendQueue, (ctx.push out).2 = { ctx with sendQueue } := by
  unfold push
  split
  · exact ⟨ctx.sendQueue, rfl⟩
  · exact ⟨_, rfl⟩

/-- A retransmission touches the queue and the pool. -/
theorem handleRetransmitRequest_frame (ctx : HostContext) (target : ClientState)
    (rrp : RetransmitRequestPacket) : ∃ sendQueue udpPool,
      ctx.handleRetransmitRequest target rrp = { ctx with sendQueue, udpPool } := by
  unfold handleRetransmitRequest
  split
  · exact ⟨ctx.sendQueue, ctx.udpPool, rfl⟩
  · split
    · exact ⟨ctx.sendQueue, ctx.udpPool, rfl⟩
    · next pkt udpPool _ =>
      obtain ⟨sendQueue, heq⟩ := push_frame { ctx with udpPool } ⟨fillCached pkt _, target.endpoint⟩
      exact ⟨sendQueue, udpPool, heq⟩

/-- Of a session the dispatch changes the sequence number at most. -/
theorem dispatch_frame (ctx : HostContext) (input : HostInput) (target : ClientState)
    (encryptedSize : Nat) (decrypted : Mem) : ∃ clients sendQueue udpPool,
      (ctx.dispatch input target encryptedSize decrypted).1 =
        { ctx with clients, sendQueue, udpPool } ∧
      ∀ {α : Type} (g : ClientState → α),
        (∀ c n, g { c with sendSequenceNumber := n } = g c) →
        clients.map g = ctx.clients.map g := by
  unfold dispatch
  split
  · exact ⟨_, _, _, rfl, fun _ _ => rfl⟩
  split
  · exact ⟨_, _, _, rfl, fun _ _ => rfl⟩
  split
  · obtain ⟨sendQueue, udpPool, heq⟩ := handleRetransmitRequest_frame ctx target
      (RetransmitRequestPacket.read decrypted)
    exact ⟨ctx.clients, sendQueue, udpPool, heq, fun _ _ => rfl⟩
  split
  · exact ⟨_, _, _, rfl, fun g hg => map_updateFirst g _ fun c _ _ => hg c _⟩
  · exact ⟨_, _, _, rfl, fun _ _ => rfl⟩

theorem replayCheck_frame (ctx : HostContext) (sh : SecureHeader) :
    ∃ lastSeqs, (ctx.replayCheck sh).2 = { ctx with lastSeqs } := by
  unfold replayCheck
  split
  · exact ⟨_, rfl⟩
  · exact ⟨ctx.lastSeqs, rfl⟩

/-- The session an envelope is looked up for is at the sender's endpoint already, so activity does
not move it. -/
theorem endpoints_touch (ctx : HostContext) (input : HostInput) (sessionId : UInt64) :
    (ctx.updateSession input.sender sessionId (·.touch input)).endpoints = ctx.endpoints := by
  refine map_updateFirst ClientState.endpoint ctx.clients fun c _ hc => ?_
  unfold ClientState.isSession at hc
  exact (of_decide_eq_true (Bool.and_eq_true_iff.mp hc).1).symm

/-- The packet of an envelope leaves what neither activity nor a sequence number changes. -/
theorem map_receiveDecrypted {α : Type} (g : ClientState → α)
    (hseq : ∀ c n, g { c with sendSequenceNumber := n } = g c) {ctx : HostContext}
    {input : HostInput} {sh : SecureHeader}
    (htouch : (ctx.updateSession input.sender sh.sessionId (·.touch input)).clients.map g =
      ctx.clients.map g) (target : ClientState) (decrypted : Mem) :
    (ctx.receiveDecrypted input target sh decrypted).1.clients.map g = ctx.clients.map g ∧
      (ctx.receiveDecrypted input target sh decrypted).1.initializingClients =
        ctx.initializingClients := by
  obtain ⟨lastSeqs, hcheck⟩ :=
    replayCheck_frame (ctx.updateSession input.sender sh.sessionId (·.touch input)) sh
  unfold receiveDecrypted
  dsimp only
  rw [hcheck]
  split
  · obtain ⟨clients, sendQueue, udpPool, heq, hmap⟩ := dispatch_frame
      { ctx.updateSession input.sender sh.sessionId (·.touch input) with lastSeqs } input
      (target.touch input) sh.encryptedSize.toNat decrypted
    rw [heq]
    exact ⟨(hmap g hseq).trans htouch, rfl⟩
  · exact ⟨htouch, rfl⟩

/-- An envelope moves no session, adds none and removes none. -/
theorem receiveDecrypted_frame (ctx : HostContext) (input : HostInput) (target : ClientState)
    (sh : SecureHeader) (decrypted : Mem) :
    (ctx.receiveDecrypted input target sh decrypted).1.endpoints = ctx.endpoints ∧
      (ctx.receiveDecrypted input target sh decrypted).1.initializingClients =
        ctx.initializingClients :=
  map_receiveDecrypted ClientState.endpoint (fun _ _ => rfl)
    (endpoints_touch ctx input sh.sessionId) target decrypted

/-! ## The timeout scan -/

/-- The scan of the capture thread removes the sessions that have timed out. -/
def expire (ctx : HostContext) (now : Int) : HostContext :=
  { ctx with clients := ctx.clients.filter (!·.timedOut now) }

/-! ## Admission -/

/-- A session at the sender's endpoint. -/
def hasClient (ctx : HostContext) (sender : Endpoint) : Bool :=
  ctx.clients.any (·.endpoint = sender)

/-- The verdict on a handshake from an endpoint without a session. -/
inductive Admission where
  | tooManyClients | isInitializing | admitted
  deriving DecidableEq, Repr

def admission (ctx : HostContext) (sender : Endpoint) : Admission × HostContext :=
  if ctx.clients.length + ctx.initializingClients.length ≥ 32 then (.tooManyClients, ctx)
  else if sender ∈ ctx.initializingClients then (.isInitializing, ctx)
  else (.admitted, { ctx with initializingClients := sender :: ctx.initializingClients })

/-- A rejection: the other fields are what the stack slot held. -/
def rejection (input : HostInput) : HandshakeSecureResponsePacket :=
  { HandshakeSecureResponsePacket.read input.stack with
    type := PacketType.handshakeSecureResponse.code
    approved := 0 }

theorem admission_frame (ctx : HostContext) (sender : Endpoint) :
    ∃ initializingClients, (ctx.admission sender).2 = { ctx with initializingClients } := by
  unfold admission
  split
  · exact ⟨_, rfl⟩
  · split
    · exact ⟨_, rfl⟩
    · exact ⟨_, rfl⟩

def handleHandshake (ctx : HostContext) (input : HostInput) (hp : HandshakeSecurePacket) :
    HostContext × List HostEffect :=
  if ctx.hasClient input.sender then (ctx, [])
  else
    match ctx.admission input.sender with
    | (.tooManyClients, ctx) => (ctx, [.sendTo ⟨(rejection input).bytes, input.sender⟩])
    | (.isInitializing, ctx) => (ctx, [])
    | (.admitted, ctx) =>
      (ctx, [.startInit input.sender hp.clientPublicKey.toList
        (hp.username.toList.takeWhile (· ≠ 0))])

/-- A hello reserves its endpoint at most. -/
theorem handleHandshake_frame (ctx : HostContext) (input : HostInput)
    (hp : HandshakeSecurePacket) : ∃ initializingClients,
      (ctx.handleHandshake input hp).1 = { ctx with initializingClients } := by
  obtain ⟨initializingClients, hadmission⟩ := admission_frame ctx input.sender
  unfold handleHandshake
  split
  · exact ⟨ctx.initializingClients, rfl⟩
  · refine ⟨initializingClients, ?_⟩
    rw [← hadmission]
    rcases ctx.admission input.sender with ⟨_ | _ | _, _⟩ <;> rfl

end HostContext

end RemotePlay.Host
