import RemotePlay.Host.Encoder
import RemotePlay.Host.Packetizer
import RemotePlay.Lib.Run
import Mathlib.Logic.Function.Basic

/-!
# The streaming threads

The capture thread, the packetizer, the receiver thread, the sender thread and
the audio callbacks of `runHost`, one step of one thread at a time. A client is
an object with an identity, which outlives its place in `ctx->clients`: the
snapshot of a packetizer pass, the target of a receiver step and the audio
callback hold on to it. `clientsMutex` keeps the others from the list while the
capture thread encodes. What `udpPool` has at an `acquire` is part of the event.
-/

namespace RemotePlay.Host

open Lib Protocol Crypto Session

/-- A `ClientState` object. -/
structure Client where
  state : ClientState
  encodeQueue : List (List EncodedPacket)
  audioFrameId : UInt32
  /-- The frames the packetizer has taken from the queue, each with the id it gave them. -/
  given : List (UInt32 × EncodedPacket)

namespace Client

def enqueue (packets : List EncodedPacket) (x : Client) : Client :=
  { x with encodeQueue := x.encodeQueue ++ [packets] }

/-- The packetizer pops an entry: its frames get the current id. -/
def take (frames : List EncodedPacket) (queue : List (List EncodedPacket)) (x : Client) : Client :=
  { x with encodeQueue := queue, given := x.given ++ frames.map (x.state.frameId, ·) }

/-- `client->frameId++`. -/
def nextFrame (x : Client) : Client :=
  { x with state := { x.state with frameId := x.state.frameId + 1 } }

def nextAudioFrame (x : Client) : Client := { x with audioFrameId := x.audioFrameId + 1 }

/-- `newState->sendSequenceNumber++`. -/
def nextSequenceNumber (x : Client) : Client :=
  { x with state := { x.state with sendSequenceNumber := x.state.sendSequenceNumber + 1 } }

end Client

/-- `encodeQueue` is a `LockFreeQueue` of one producer, the capture thread, and one consumer. -/
def encodeQueueCapacity : Nat := 4

inductive Phase where
  /-- Its init thread has made it and started its audio capture. -/
  | starting
  /-- In `ctx->clients`. -/
  | served
  /-- Erased by the timeout scan. The flags say that the packetizer pass and the receiver step in
  progress at that moment have not ended. -/
  | erased (pass step : Bool)
  deriving DecidableEq

/-- The packetizer pass in progress ends. -/
def Phase.afterPass : Phase → Phase
  | .erased _ step => .erased false step
  | phase => phase

/-- The receiver step in progress ends. -/
def Phase.afterStep : Phase → Phase
  | .erased pass _ => .erased pass false
  | phase => phase

inductive Capturing where
  /-- Before the timeout scan. -/
  | idle
  /-- Before `AcquireFrame`. -/
  | scanned
  /-- In the loop over `ctx->clients`: these clients are left. -/
  | encoding (rest : List Nat)
  /-- `EncodeFrame` has succeeded for `c`, and the packets are not queued yet. -/
  | encoded (c : Nat) (packets : List EncodedPacket) (rest : List Nat)

inductive Packetizing where
  /-- Between two passes. -/
  | idle
  /-- In the loop over `activeClients`: these are left. -/
  | pass (rest : List Nat)
  /-- In the loop over an entry of the queue of `c`: these frames are left. -/
  | entry (c : Nat) (currentFid : UInt32) (frames : List EncodedPacket) (rest : List Nat)
  /-- In the fragment loop of `frame`: fragment `i` is next, `n` are left. -/
  | fragments (c : Nat) (currentFid : UInt32) (frame : EncodedPacket) (i : UInt16) (n : Nat)
      (frames : List EncodedPacket) (rest : List Nat)

inductive Receiving where
  | idle
  /-- `targetClient` has been found for the envelope in `buf`. -/
  | serving (c : Nat) (sender : Endpoint) (buf : Mem)

/-- What a producer hands out for a client. -/
inductive Output where
  /-- Pushed to the send queue. -/
  | push (out : OutgoingPacket)
  /-- Sent by the receiver thread itself. -/
  | sendTo (datagram : Datagram)

def Output.pushed : Output → Option OutgoingPacket
  | push out => some out
  | sendTo _ => none

def HostEffect.output : HostEffect → Option Output
  | sendTo datagram => some (.sendTo datagram)
  | _ => none

structure Streaming where
  running : Bool
  /-- A use of a packet that has been released or moved from has ended the process. -/
  crashed : Bool
  /-- The objects made so far are `0, …, made - 1`. -/
  made : Nat
  client : Nat → Client
  phase : Nat → Phase
  /-- `ctx->clients`. -/
  clients : List Nat
  packetPool : PacketPool
  globalPacketSequence : UInt32
  lastSeqs : UInt64 → UInt64
  capturing : Capturing
  packetizing : Packetizing
  receiving : Receiving
  /-- What was handed out so far, and for which client. -/
  outputs : List (Nat × Output)
  /-- How many of the pushed datagrams the sender thread has popped. -/
  popped : Nat

/-- A fragment: FFmpeg aside, what `udpPool` gives and what the stack holds. -/
structure FragmentInput where
  cm : CryptoManager
  stackHeader : SecureHeader
  udpPkt : Option Packet
  securePkt : Option Packet
  /-- What a use of a released packet leads to, which C++ leaves undefined: the process ends, or the
  loop goes on and has pushed this. -/
  undefinedPush : Option OutgoingPacket

/-- One call of the audio callback. -/
structure AudioInput where
  cm : CryptoManager
  /-- What `Encode` makes of the samples. -/
  opus : Option (List UInt8)
  timestamp : UInt64
  udpPkt : Option Packet
  securePkt : Option Packet
  stackHeader : SecureHeader

/-- The clock around a call of `EncodeFrame`, and what its encoder says of itself. -/
structure EncodeInput where
  reply : ManagerReply
  isHEVC : Bool
  endCaptureTs : UInt64
  encodeStart : UInt64
  encodeEnd : UInt64

inductive StreamEvent where
  /-- An init thread makes a client and starts its audio capture. -/
  | start (endpoint : Endpoint) (clientPubKey rxKey txKey : Key) (sessionId : UInt64)
      (steadyNow : Int)
  /-- The thread pushes the client to `ctx->clients`. -/
  | publish (c : Nat)
  | scan (steadyNow : Int)
  | acquireFrame (succeeded : Bool)
  | encode (input : EncodeInput)
  | enqueue
  /-- The next step of the packetizer. -/
  | packetize (input : FragmentInput)
  /-- An envelope arrives and its session is looked up. -/
  | lookup (sender : Endpoint) (buf : Mem) (len : Nat)
  | receive (input : HostInput) (udpPkt : Option Packet)
  | audio (c : Nat) (input : AudioInput)
  /-- The sender thread pops and sends a batch. -/
  | send (count : Nat)
  | stop

namespace EncodedPacket

/-- What the capture thread writes into a packet before it queues it. -/
def stamp (input : EncodeInput) (p : EncodedPacket) : EncodedPacket :=
  { p with
    captureTimestamp := input.endCaptureTs
    encodeStartTimestamp := input.encodeStart
    encodeEndTimestamp := input.encodeEnd
    isHEVC := p.isHEVC || input.isHEVC }

end EncodedPacket

namespace Streaming

/-- The host before the first client. -/
def init : Streaming where
  running := true
  crashed := false
  made := 0
  client _ := ⟨.new ⟨[], 0⟩ [] 0, [], 0, []⟩
  phase _ := .starting
  clients := []
  packetPool := .init 200 (1024 * 1024)
  globalPacketSequence := 0
  lastSeqs _ := 0
  capturing := .idle
  packetizing := .idle
  receiving := .idle
  outputs := []
  popped := 0

def updateClient (s : Streaming) (c : Nat) (f : Client → Client) : Streaming :=
  { s with client := Function.update s.client c (f (s.client c)) }

def sendQueue (s : Streaming) : List OutgoingPacket :=
  (s.outputs.filterMap (·.2.pushed)).drop s.popped

/-- The host as a thread sees it that works for `c`, with `udpPkt` in the pool. -/
def context (s : Streaming) (c : Nat) (udpPkt : Option Packet) : HostContext where
  clients := [(s.client c).state]
  initializingClients := []
  sendQueue := s.sendQueue
  udpPool := ⟨udpPkt.toList⟩
  globalPacketSequence := s.globalPacketSequence
  lastSeqs := s.lastSeqs

/-- What such a thread has done to it. -/
def absorb (s : Streaming) (c : Nat) (ctx : HostContext) (state : ClientState) : Streaming :=
  { s.updateClient c ({ · with state }) with
    globalPacketSequence := ctx.globalPacketSequence
    lastSeqs := ctx.lastSeqs
    outputs := s.outputs ++ (ctx.sendQueue.drop s.sendQueue.length).map fun out => (c, .push out) }

def push (s : Streaming) (c : Nat) (out : OutgoingPacket) : Streaming :=
  if s.sendQueue.length ≥ sendQueueCapacity then s
  else { s with outputs := s.outputs ++ [(c, .push out)] }

/-- Nobody holds `clientsMutex`. -/
def unlocked (s : Streaming) : Bool :=
  match s.capturing with
  | .idle | .scanned => true
  | _ => false

/-! ## The clients -/

def start (s : Streaming) (state : ClientState) : Streaming :=
  { s with
    made := s.made + 1
    client := Function.update s.client s.made ⟨state, [], 0, []⟩
    phase := Function.update s.phase s.made .starting }

def publish (s : Streaming) (c : Nat) : Streaming :=
  if c < s.made ∧ s.phase c = .starting ∧ s.unlocked then
    { s with
      clients := s.clients ++ [c]
      phase := Function.update s.phase c .served }
  else s

/-! ## The capture thread -/

def timedOut (s : Streaming) (steadyNow : Int) (c : Nat) : Bool :=
  (s.client c).state.timedOut steadyNow

/-- A packetizer pass is in progress. -/
def inPass : Packetizing → Bool
  | .idle => false
  | _ => true

/-- A receiver step is in progress. -/
def inStep : Receiving → Bool
  | .idle => false
  | _ => true

/-- The phase of a client after the scan. -/
def scanPhase (s : Streaming) (steadyNow : Int) (c : Nat) : Phase :=
  if c ∈ s.clients ∧ s.timedOut steadyNow c then
    .erased (inPass s.packetizing) (inStep s.receiving)
  else s.phase c

def scan (s : Streaming) (steadyNow : Int) : Streaming :=
  match s.capturing with
  | .idle =>
    if s.running then
      { s with
        clients := s.clients.filter (!s.timedOut steadyNow ·)
        phase := s.scanPhase steadyNow
        capturing := .scanned }
    else s
  | _ => s

/-- The capture thread loops over the clients if it has a frame. -/
def acquireFrame (s : Streaming) (succeeded : Bool) : Streaming :=
  match s.capturing with
  | .scanned => { s with capturing := if succeeded then .encoding s.clients else .idle }
  | _ => s

def encode (s : Streaming) (input : EncodeInput) : Streaming :=
  match s.capturing with
  | .encoding [] => { s with capturing := .idle }
  | .encoding (c :: rest) =>
    let encoding := input.reply.encodeFrame s.packetPool
    { s with
      packetPool := encoding.pool
      capturing :=
        if encoding.success then .encoded c (encoding.packets.map (·.stamp input)) rest
        else .encoding rest }
  | _ => s

/-- `ctx->packetPool.release(std::move(p.packet))` for every packet. -/
def releaseAll (pool : PacketPool) (packets : List EncodedPacket) : PacketPool :=
  packets.foldl (fun pool p => pool.release (some p.packet)) pool

/-- A full queue refuses the packets, and they go back to the pool. -/
def enqueue (s : Streaming) : Streaming :=
  match s.capturing with
  | .encoded c packets rest =>
    if (s.client c).encodeQueue.length ≥ encodeQueueCapacity then
      { s with packetPool := releaseAll s.packetPool packets, capturing := .encoding rest }
    else
      { s.updateClient c (.enqueue packets) with capturing := .encoding rest }
  | _ => s

/-! ## The packetizer -/

/-- The end of a pass. -/
def endPass (s : Streaming) : Streaming :=
  { s with packetizing := .idle, phase := fun c => (s.phase c).afterPass }

/-- The next client of the pass. -/
def pop (s : Streaming) (c : Nat) (rest : List Nat) : Streaming :=
  match (s.client c).encodeQueue with
  | [] => { s with packetizing := .pass rest }
  | frames :: queue =>
    { s.updateClient c (.take frames queue) with
      packetizing := .entry c (s.client c).state.frameId frames rest }

/-- The fragment as `Packetizer.fragment` sees it. -/
def packetizerInput (input : FragmentInput) : PacketizerInput where
  cm := input.cm
  stackHeader _ := input.stackHeader
  world _ k x :=
    ({ x.1 with udpPool := ⟨(if k = 0 then input.udpPkt else input.securePkt).toList⟩ }, x.2)

def fragment (s : Streaming) (input : FragmentInput) (c : Nat) (currentFid : UInt32)
    (frame : EncodedPacket) (i : UInt16) (n : Nat) (frames : List EncodedPacket)
    (rest : List Nat) : Streaming :=
  match Packetizer.fragment (packetizerInput input) frame currentFid i
      (Packetizer.start (s.context c none) (s.client c).state) with
  | .ok (goesOn, p) =>
    { s.absorb c p.ctx p.client with
      packetizing := .fragments c currentFid frame (i + 1) (if goesOn then n else 0) frames rest }
  | .error _ =>
    match input.undefinedPush with
    | none => { s with crashed := true }
    | some out =>
      { s with
        outputs := s.outputs ++ [(c, .push out)]
        packetizing := .fragments c currentFid frame (i + 1) n frames rest }

/-- The packetizer's next step. -/
def packetize (s : Streaming) (input : FragmentInput) : Streaming :=
  match s.packetizing with
  | .idle => if s.running ∧ s.unlocked then { s with packetizing := .pass s.clients } else s
  | .pass [] => s.endPass
  | .pass (c :: rest) => s.pop c rest
  | .entry c currentFid (frame :: frames) rest =>
    { s with packetizing :=
        .fragments c currentFid frame 0 frame.totalFrags.toNat frames rest }
  | .entry c _ [] rest =>
    { s.updateClient c .nextFrame with packetizing := .pass rest }
  | .fragments c currentFid frame i (n + 1) frames rest =>
    s.fragment input c currentFid frame i n frames rest
  | .fragments c currentFid frame _ 0 frames rest =>
    { s with
      packetPool := s.packetPool.release (some frame.packet)
      packetizing := .entry c currentFid frames rest }

/-! ## The receiver thread -/

def lookup (s : Streaming) (sender : Endpoint) (buf : Mem) (len : Nat) : Streaming :=
  match s.receiving with
  | .idle =>
    if s.running ∧ s.unlocked ∧ buf 0 = PacketType.secure.code ∧ len ≥ SecureHeader.size then
      match s.clients.find? fun c =>
          ClientState.isSession sender (SecureHeader.read buf).sessionId (s.client c).state with
      | some c => { s with receiving := .serving c sender buf }
      | none => s
    else s
  | _ => s

/-- The end of a receiver step. -/
def endStep (s : Streaming) : Streaming :=
  { s with receiving := .idle, phase := fun c => (s.phase c).afterStep }

/-- The envelope of `targetClient`. One that is larger than the buffer is looked up again. -/
def receive (s : Streaming) (input : HostInput) (udpPkt : Option Packet) : Streaming :=
  match s.receiving with
  | .serving c sender buf =>
    let sh := SecureHeader.read buf
    let target := (s.client c).state
    match openEnvelope input.cm target.rxKey buf with
    | some plaintext =>
      let (ctx, effects) := (s.context c udpPkt).receiveDecrypted { input with sender } target sh
        (input.stack.load plaintext)
      let s := s.absorb c ctx (ctx.clients.headD target)
      endStep { s with outputs := s.outputs ++ (effects.filterMap (·.output)).map (c, ·) }
    | none => s.endStep
  | _ => s

/-! ## The audio callbacks and the sender thread -/

/-- A pooled packet with an audio header and its payload. -/
def fillAudio (pkt : Packet) (ah : AudioHeader) (opus : List UInt8) : Packet :=
  let data := pkt.data.copyIn 0 AudioHeader.size (ah.bytes.getD · 0)
  { pkt with data := data.copyIn AudioHeader.size opus.length (opus.getD · 0) }

/-- The callback of client `c` with samples that are encoded: from the second `acquire` on. -/
def audioDatagram (s : Streaming) (c : Nat) (input : AudioInput) (udpPkt : Packet)
    (opus : List UInt8) : Option (List UInt8) :=
  let x := s.client c
  let ah : AudioHeader :=
    ⟨PacketType.audio.code, x.audioFrameId, input.timestamp, UInt16.ofNat opus.length⟩
  let encryptedSize := UInt16.ofNat (AudioHeader.size + ah.dataSize.toNat)
  sealEnvelope input.cm input.stackHeader x.state.sessionId x.state.sendSequenceNumber
    x.state.txKey (readN (fillAudio udpPkt ah opus).data.get encryptedSize.toNat)

/-- The callback takes the next audio frame id with its first packet, and the next sequence number
with its second. A datagram that the full queue refuses is lost. -/
def audio (s : Streaming) (c : Nat) (input : AudioInput) : Streaming :=
  if c < s.made ∧ s.running then
    match input.opus, input.udpPkt with
    | some opus, some udpPkt =>
      let numbered := s.updateClient c .nextAudioFrame
      match input.securePkt with
      | none => numbered
      | some securePkt =>
        let sequenced := numbered.updateClient c .nextSequenceNumber
        match s.audioDatagram c input udpPkt opus with
        | none => sequenced
        | some datagram =>
          sequenced.push c ⟨HostContext.fillCached securePkt datagram, (s.client c).state.endpoint⟩
    | _, _ => s
  else s

/-- `MAX_BATCH` datagrams at most. -/
def send (s : Streaming) (count : Nat) : Streaming :=
  { s with popped := s.popped + min (min count 64) s.sendQueue.length }

/-! ## The step -/

def act (s : Streaming) : StreamEvent → Streaming
  | .start endpoint clientPubKey rxKey txKey sessionId steadyNow =>
    s.start { ClientState.new endpoint clientPubKey steadyNow with rxKey, txKey, sessionId }
  | .publish c => s.publish c
  | .scan steadyNow => s.scan steadyNow
  | .acquireFrame succeeded => s.acquireFrame succeeded
  | .encode input => s.encode input
  | .enqueue => s.enqueue
  | .packetize input => s.packetize input
  | .lookup sender buf len => s.lookup sender buf len
  | .receive input udpPkt => s.receive input udpPkt
  | .audio c input => s.audio c input
  | .send count => s.send count
  | .stop => { s with running := false }

/-- Nothing happens after a crash. -/
def step (s : Streaming) (e : StreamEvent) : Streaming := if s.crashed then s else s.act e

/-- What a condition makes an event keep is kept by a step if the process still lives. -/
theorem step_iff_of_act {P : Streaming → Prop} {ok : Prop} {s : Streaming} {e : StreamEvent}
    (h : P s) (hact : P (s.act e) ↔ ok) : P (s.step e) ↔ (s.crashed = false → ok) := by
  unfold step
  split
  · next hcrashed =>
    refine iff_of_true h fun halive => ?_
    rw [halive] at hcrashed
    cases hcrashed
  · next halive =>
    rw [hact]
    exact ⟨fun h _ => h, fun h => h (Bool.eq_false_iff.mpr halive)⟩

/-! ## What a step leaves alone -/

/-- The encode queues and frame ids of the clients, and the list and the pool, are as before. -/
structure Keeps (s s' : Streaming) : Prop where
  made : s'.made = s.made
  clients : s'.clients = s.clients
  packetPool : s'.packetPool = s.packetPool
  capturing : s'.capturing = s.capturing
  encodeQueue : ∀ c, (s'.client c).encodeQueue = (s.client c).encodeQueue
  given : ∀ c, (s'.client c).given = (s.client c).given
  frameId : ∀ c, (s'.client c).state.frameId = (s.client c).state.frameId

/-- Nobody enters or leaves the list, a pass or a receiver step. -/
structure Stays (s s' : Streaming) : Prop where
  made : s'.made = s.made
  clients : s'.clients = s.clients
  phase : s'.phase = s.phase
  packetizing : s'.packetizing = s.packetizing
  receiving : s'.receiving = s.receiving

variable {s s' s'' : Streaming} {c c' : Nat}

theorem Keeps.refl (s : Streaming) : s.Keeps s :=
  ⟨rfl, rfl, rfl, rfl, fun _ => rfl, fun _ => rfl, fun _ => rfl⟩

theorem Keeps.trans (h : s.Keeps s') (h' : s'.Keeps s'') : s.Keeps s'' where
  made := h'.made.trans h.made
  clients := h'.clients.trans h.clients
  packetPool := h'.packetPool.trans h.packetPool
  capturing := h'.capturing.trans h.capturing
  encodeQueue c := (h'.encodeQueue c).trans (h.encodeQueue c)
  given c := (h'.given c).trans (h.given c)
  frameId c := (h'.frameId c).trans (h.frameId c)

theorem Stays.refl (s : Streaming) : s.Stays s := ⟨rfl, rfl, rfl, rfl, rfl⟩

theorem Stays.trans (h : s.Stays s') (h' : s'.Stays s'') : s.Stays s'' where
  made := h'.made.trans h.made
  clients := h'.clients.trans h.clients
  phase := h'.phase.trans h.phase
  packetizing := h'.packetizing.trans h.packetizing
  receiving := h'.receiving.trans h.receiving

@[simp] theorem client_updateClient (s : Streaming) (c : Nat) (f : Client → Client) :
    (s.updateClient c f).client c = f (s.client c) := Function.update_self ..

theorem client_updateClient_ne (s : Streaming) (f : Client → Client) (h : c' ≠ c) :
    (s.updateClient c f).client c' = s.client c' := Function.update_of_ne h ..

theorem client_start_self (s : Streaming) (state : ClientState) :
    (s.start state).client s.made = ⟨state, [], 0, []⟩ := Function.update_self ..

theorem client_start_of_lt (s : Streaming) (state : ClientState) (h : c < s.made) :
    (s.start state).client c = s.client c := Function.update_of_ne (Nat.ne_of_lt h) ..

theorem client_start_cases (s : Streaming) (state : ClientState) (c : Nat) :
    c = s.made ∧ (s.start state).client c = ⟨state, [], 0, []⟩ ∨
      (s.start state).client c = s.client c := by
  rcases eq_or_ne c s.made with rfl | hne
  · exact .inl ⟨rfl, client_start_self s state⟩
  · exact .inr (Function.update_of_ne hne ..)

/-- What the change keeps of the client, the host keeps of every client. -/
theorem map_updateClient {α : Type} (g : Client → α) (s : Streaming) {f : Client → Client}
    (h : g (f (s.client c)) = g (s.client c)) (c' : Nat) :
    g ((s.updateClient c f).client c') = g (s.client c') := by
  rcases eq_or_ne c' c with rfl | hne
  · rw [client_updateClient, h]
  · rw [client_updateClient_ne s f hne]

theorem stays_updateClient (s : Streaming) (c : Nat) (f : Client → Client) :
    s.Stays (s.updateClient c f) := ⟨rfl, rfl, rfl, rfl, rfl⟩

theorem keeps_updateClient (s : Streaming) {f : Client → Client}
    (hqueue : (f (s.client c)).encodeQueue = (s.client c).encodeQueue)
    (hgiven : (f (s.client c)).given = (s.client c).given)
    (hid : (f (s.client c)).state.frameId = (s.client c).state.frameId) :
    s.Keeps (s.updateClient c f) where
  made := rfl
  clients := rfl
  packetPool := rfl
  capturing := rfl
  encodeQueue := map_updateClient (·.encodeQueue) s hqueue
  given := map_updateClient (·.given) s hgiven
  frameId := map_updateClient (·.state.frameId) s hid

theorem packetize_pass {s : Streaming} {c : Nat} {rest : List Nat}
    (hpc : s.packetizing = .pass (c :: rest)) (input : FragmentInput) :
    s.packetize input = s.pop c rest := by
  unfold packetize
  rw [hpc]

theorem keeps_absorb (s : Streaming) (ctx : HostContext) {state : ClientState}
    (h : state.frameId = (s.client c).state.frameId) : s.Keeps (s.absorb c ctx state) := by
  have hkeeps : s.Keeps (s.updateClient c ({ · with state })) := keeps_updateClient s rfl rfl h
  exact ⟨rfl, rfl, rfl, rfl, hkeeps.encodeQueue, hkeeps.given, hkeeps.frameId⟩

theorem push_cases (s : Streaming) (c : Nat) (out : OutgoingPacket) :
    s.push c out = s ∨ s.push c out = { s with outputs := s.outputs ++ [(c, .push out)] } := by
  unfold push
  split
  · exact .inl rfl
  · exact .inr rfl

theorem stays_push (s : Streaming) (c : Nat) (out : OutgoingPacket) : s.Stays (s.push c out) := by
  rcases s.push_cases c out with h | h
  · rw [h]
    exact .refl s
  · rw [h]
    exact ⟨rfl, rfl, rfl, rfl, rfl⟩

theorem keeps_push (s : Streaming) (c : Nat) (out : OutgoingPacket) : s.Keeps (s.push c out) := by
  rcases s.push_cases c out with h | h
  · rw [h]
    exact .refl s
  · rw [h]
    exact ⟨rfl, rfl, rfl, rfl, fun _ => rfl, fun _ => rfl, fun _ => rfl⟩

theorem publish_frame (s : Streaming) (c : Nat) :
    (s.publish c).client = s.client ∧ (s.publish c).packetizing = s.packetizing := by
  unfold publish
  split <;> exact ⟨rfl, rfl⟩

theorem scan_frame (s : Streaming) (steadyNow : Int) :
    (s.scan steadyNow).client = s.client ∧ (s.scan steadyNow).packetizing = s.packetizing := by
  unfold scan
  split
  · split <;> exact ⟨rfl, rfl⟩
  · exact ⟨rfl, rfl⟩

theorem acquireFrame_frame (s : Streaming) (succeeded : Bool) :
    (s.acquireFrame succeeded).client = s.client ∧
      (s.acquireFrame succeeded).packetizing = s.packetizing := by
  unfold acquireFrame
  split <;> exact ⟨rfl, rfl⟩

theorem encode_frame (s : Streaming) (input : EncodeInput) :
    (s.encode input).client = s.client ∧ (s.encode input).packetizing = s.packetizing := by
  unfold encode
  split <;> exact ⟨rfl, rfl⟩

/-- The capture thread adds to a queue. -/
theorem enqueue_frame (s : Streaming) (c : Nat) :
    (s.enqueue.client c).given = (s.client c).given ∧
      (s.enqueue.client c).state = (s.client c).state ∧ s.enqueue.packetizing = s.packetizing := by
  unfold enqueue
  split
  · next c' packets _ _ =>
    split
    · exact ⟨rfl, rfl, rfl⟩
    · exact ⟨map_updateClient (f := .enqueue packets) (·.given) s rfl c,
        map_updateClient (f := .enqueue packets) (·.state) s rfl c, rfl⟩
  · exact ⟨rfl, rfl, rfl⟩

theorem lookup_frame (s : Streaming) (sender : Endpoint) (buf : Mem) (len : Nat) :
    s.Keeps (s.lookup sender buf len) ∧ (s.lookup sender buf len).packetizing = s.packetizing := by
  unfold lookup
  split
  · split
    · split
      · exact ⟨⟨rfl, rfl, rfl, rfl, fun _ => rfl, fun _ => rfl, fun _ => rfl⟩, rfl⟩
      · exact ⟨.refl s, rfl⟩
    · exact ⟨.refl s, rfl⟩
  · exact ⟨.refl s, rfl⟩

/-- The callback works on its own client's counters, and pushes. -/
theorem audio_frame (s : Streaming) (c : Nat) (input : AudioInput) :
    s.Stays (s.audio c input) ∧ s.Keeps (s.audio c input) := by
  have hstays := s.stays_updateClient c .nextAudioFrame
  have hkeeps : s.Keeps (s.updateClient c .nextAudioFrame) := keeps_updateClient s rfl rfl rfl
  unfold audio
  split
  · split
    · dsimp only
      generalize s.updateClient c .nextAudioFrame = numbered at hstays hkeeps
      have hstays' := hstays.trans (numbered.stays_updateClient c .nextSequenceNumber)
      have hkeeps' : s.Keeps (numbered.updateClient c .nextSequenceNumber) :=
        hkeeps.trans (keeps_updateClient numbered rfl rfl rfl)
      split
      · exact ⟨hstays, hkeeps⟩
      · split
        · exact ⟨hstays', hkeeps'⟩
        · exact ⟨hstays'.trans (stays_push _ _ _), hkeeps'.trans (keeps_push _ _ _)⟩
    · exact ⟨.refl s, .refl s⟩
  · exact ⟨.refl s, .refl s⟩

/-- The fragment takes a sequence number of the client at most. -/
theorem frameId_fragment {input : PacketizerInput} {frame : EncodedPacket} {currentFid : UInt32}
    {i : UInt16} {p p' : Packetizer} {goesOn : Bool}
    (hworld : ∀ k x, (input.world i k x).2 = x.2)
    (h : Packetizer.fragment input frame currentFid i p = .ok (goesOn, p')) :
    p'.client.frameId = p.client.frameId := by
  unfold Packetizer.fragment at h
  dsimp only at h
  split at h
  · cases h
    exact congrArg ClientState.frameId (hworld 0 _)
  · split at h
    · cases h
      refine (congrArg ClientState.frameId (hworld 1 _)).trans ?_
      exact congrArg ClientState.frameId (hworld 0 _)
    · split at h
      · cases h
        refine (congrArg ClientState.frameId (hworld 1 _)).trans ?_
        exact congrArg ClientState.frameId (hworld 0 _)
      · cases h

/-- A fragment leaves the loop where it is, or ends the process. -/
theorem fragment_frame (s : Streaming) (input : FragmentInput) (c : Nat) (currentFid : UInt32)
    (frame : EncodedPacket) (i : UInt16) (n : Nat) (frames : List EncodedPacket)
    (rest : List Nat) :
    let s' := s.fragment input c currentFid frame i n frames rest
    s.Keeps s' ∧ s'.phase = s.phase ∧ s'.receiving = s.receiving ∧
      (s'.packetizing = s.packetizing ∨ ∃ i' n',
        s'.packetizing = .fragments c currentFid frame i' n' frames rest) := by
  unfold fragment
  dsimp only
  split
  · next goesOn p h =>
    have hid := frameId_fragment (fun _ _ => rfl) h
    have hkeeps := s.keeps_absorb p.ctx hid
    exact ⟨⟨rfl, rfl, rfl, rfl, hkeeps.encodeQueue, hkeeps.given, hkeeps.frameId⟩, rfl, rfl,
      .inr ⟨_, _, rfl⟩⟩
  · split
    · exact ⟨⟨rfl, rfl, rfl, rfl, fun _ => rfl, fun _ => rfl, fun _ => rfl⟩, rfl, rfl, .inl rfl⟩
    · exact ⟨⟨rfl, rfl, rfl, rfl, fun _ => rfl, fun _ => rfl, fun _ => rfl⟩, rfl, rfl,
        .inr ⟨_, _, rfl⟩⟩

/-- An envelope leaves the frame id of its client alone. -/
theorem frameId_receiveDecrypted (ctx : HostContext) (input : HostInput) (target : ClientState)
    (sh : SecureHeader) (decrypted : Mem) :
    (ctx.receiveDecrypted input target sh decrypted).1.clients.map (·.frameId) =
      ctx.clients.map (·.frameId) := by
  have htouch : (ctx.updateSession input.sender sh.sessionId (·.touch input)).clients.map
      (·.frameId) = ctx.clients.map (·.frameId) :=
    map_updateFirst (f := (·.touch input)) (·.frameId) ctx.clients fun _ _ _ => rfl
  exact (HostContext.map_receiveDecrypted (·.frameId) (fun _ _ => rfl) htouch target decrypted).1

/-- **A receiver step** goes back to no target, or there was none. -/
theorem receive_frame (s : Streaming) (input : HostInput) (udpPkt : Option Packet) :
    s.Keeps (s.receive input udpPkt) ∧ (s.receive input udpPkt).packetizing = s.packetizing ∧
      (s.receive input udpPkt = s ∨ (s.receive input udpPkt).receiving = .idle ∧
        (s.receive input udpPkt).phase = s.endStep.phase) := by
  unfold receive
  split
  · next c sender buf _ =>
    dsimp only
    split
    · next plaintext _ =>
      have hmap := frameId_receiveDecrypted (s.context c udpPkt) { input with sender }
        (s.client c).state (SecureHeader.read buf) (input.stack.load plaintext)
      generalize (s.context c udpPkt).receiveDecrypted _ _ _ _ = received at hmap
      obtain ⟨ctx, effects⟩ := received
      have hid : (ctx.clients.headD (s.client c).state).frameId = (s.client c).state.frameId := by
        cases hclients : ctx.clients with
        | nil => rfl
        | cons state rest =>
          rw [hclients] at hmap
          exact (List.cons.inj hmap).1
      have hkeeps := s.keeps_absorb ctx hid
      exact ⟨⟨rfl, rfl, rfl, rfl, hkeeps.encodeQueue, hkeeps.given, hkeeps.frameId⟩, rfl,
        .inr ⟨rfl, rfl⟩⟩
    · exact ⟨⟨rfl, rfl, rfl, rfl, fun _ => rfl, fun _ => rfl, fun _ => rfl⟩, rfl,
        .inr ⟨rfl, rfl⟩⟩
  · exact ⟨.refl s, rfl, .inl rfl⟩

end Streaming

end RemotePlay.Host
