import RemotePlay.Client.NetThread
import RemotePlay.Host.ReceiverThread
import RemotePlay.Lib.Run
import Mathlib.Logic.Function.Iterate

/-!
# The handshake as a protocol

Any number of clients, the host's receiver thread and its initialisation
threads. A step is what a party does between two points at which another may
run: the receiver thread has two lock sections for a hello, an initialisation
thread goes through key exchange, session id, encoder, response and cleanup,
and the client's network thread installs a response one assignment at a time.
The network keeps every datagram ever sent and delivers any of them at any
time, so it loses, duplicates, delays and reorders but does not forge.
-/

namespace RemotePlay.Session

open Lib Protocol Crypto Host Client

/-- What `GenerateX25519KeyPair` returns. -/
structure X25519KeyPair where
  publicKey : Bytes 32
  privateKey : Bytes 32
  deriving DecidableEq

def X25519KeyPair.toKeyPair (p : X25519KeyPair) : KeyPair :=
  ⟨p.publicKey.toList, p.privateKey.toList⟩

/-- What is fixed in a run: the clients' endpoints, distinct, their key pairs and configuration,
and the host's addresses. -/
structure Participants (ι : Type) where
  endpoint : ι → Endpoint
  distinct : Function.Injective endpoint
  clientKeyPair : ι → X25519KeyPair
  username : ι → Bytes 32
  hostIp : ι → List UInt8
  /-- The addresses that reach the host. -/
  hostAddresses : List Endpoint
  /-- The address the host's datagrams come from. -/
  hostEndpoint : Endpoint

inductive HandshakePacket where
  | hello (hp : HandshakeSecurePacket)
  | response (hrp : HandshakeSecureResponsePacket)

structure Message where
  source : Endpoint
  target : Endpoint
  packet : HandshakePacket

/-! ## A client -/

/-- How far the network thread is with an approved response from `sender`. -/
inductive Adopting where
  | idle
  | approved (hrp : HandshakeSecureResponsePacket) (sender : Endpoint)
  /-- `DeriveSessionKeys` has succeeded. -/
  | keyed (hrp : HandshakeSecureResponsePacket) (sender : Endpoint)
  /-- `sessionId` is assigned. -/
  | named (sender : Endpoint)
  /-- `currentHostIp` is assigned. -/
  | located (sender : Endpoint)
  /-- `currentHostPort` is assigned. -/
  | placed

/-- A session id with the keys it was adopted with. -/
structure Adoption where
  sessionId : UInt64
  rxKey : Key
  txKey : Key

structure ClientParty where
  session : ClientSession
  adopting : Adopting
  /-- The adoptions so far, each entered when `sessionId` is assigned. -/
  adopted : List Adoption

namespace ClientParty

/-- The network thread reads a response. -/
def receive (c : ClientParty) (sender : Endpoint) (hrp : HandshakeSecureResponsePacket) :
    ClientParty :=
  match c.adopting with
  | .idle =>
    if hrp.approved ≠ 0 then { c with adopting := .approved hrp sender }
    else { c with session := { c.session with handshakeRejected := true } }
  | _ => c

/-- The next assignment. -/
def assign (c : ClientParty) (cm : CryptoManager) : ClientParty :=
  match c.adopting with
  | .idle => c
  | .approved hrp sender =>
    let derived := c.session.derive cm hrp.hostPublicKey.toList
    { c with
      session := { c.session with rxKey := derived.2.1, txKey := derived.2.2 }
      adopting := if derived.1 then .keyed hrp sender else .idle }
  | .keyed hrp sender =>
    { session := { c.session with sessionId := hrp.sessionId }
      adopting := .named sender
      adopted := c.adopted ++ [⟨hrp.sessionId, c.session.rxKey, c.session.txKey⟩] }
  | .named sender =>
    { c with
      session := { c.session with currentHostIp := sender.ip }
      adopting := .located sender }
  | .located sender =>
    { c with
      session := { c.session with currentHostPort := sender.port }
      adopting := .placed }
  | .placed =>
    { c with
      session := { c.session with handshakeApproved := true }
      adopting := .idle }

end ClientParty

/-! ## The host -/

/-- How far an initialisation thread is. -/
inductive Initializing where
  | started
  /-- The keys are derived. -/
  | keyed (hostKeyPair : X25519KeyPair) (newState : ClientState)
  /-- The session id is generated. -/
  | identified (hostKeyPair : X25519KeyPair) (newState : ClientState)
  /-- The session is in `clients`. -/
  | pushed (hostKeyPair : X25519KeyPair) (newState : ClientState)
  /-- The encoder has failed. -/
  | rejecting
  | finishing
  | finished

structure InitThread where
  sender : Endpoint
  clientPubKey : Key
  stage : Initializing

/-- The response to an initialised session. -/
def approval (hostKeyPair : X25519KeyPair) (newState : ClientState) :
    HandshakeSecureResponsePacket :=
  ⟨PacketType.handshakeSecureResponse.code, hostKeyPair.publicKey, 1, newState.sessionId⟩

/-! ## The system -/

structure Handshake (ι : Type) where
  client : ι → ClientParty
  ctx : HostContext
  /-- A hello between the receiver thread's two lock sections. -/
  receiving : Option (Endpoint × HandshakeSecurePacket)
  initThread : Nat → Option InitThread
  /-- The number of initialisation threads started. -/
  spawned : Nat
  /-- Every datagram sent so far. -/
  network : List Message
  /-- The sessions pushed to `clients` so far. -/
  created : List ClientState
  /-- The session ids generated so far. -/
  sessionIds : List UInt64

/-- What an initialisation thread does next, with the outcome. -/
inductive InitEvent where
  /-- `m_running` is cleared. -/
  | stop
  | derive (hostKeyPair : X25519KeyPair) (steadyNow : Int)
  | identify (sessionId : UInt64)
  | encoder (initialized : Bool)
  | respond (input : HostInput)
  | finish

inductive HandshakeEvent (ι : Type) where
  /-- The client sends its hello to each of the addresses. -/
  | attempt (i : ι) (targets : List Endpoint)
  /-- Datagram `n` reaches the client. -/
  | clientReceive (i : ι) (n : Nat)
  | clientAssign (i : ι)
  /-- Datagram `n` reaches the host; the first lock section. -/
  | hostReceive (n : Nat)
  /-- The second lock section and what follows it. -/
  | hostAdmit (input : HostInput)
  | init (k : Nat) (e : InitEvent)
  /-- The rest of the host: expiring sessions, serving envelopes, the other threads. -/
  | meanwhile (world : HostContext → HostContext)

namespace Handshake

variable {ι : Type} [DecidableEq ι]

def start (p : Participants ι) (ctx : HostContext) : Handshake ι where
  client i := ⟨.init (p.clientKeyPair i).toKeyPair (p.hostIp i) 30, .idle, []⟩
  ctx := ctx
  receiving := none
  initThread _ := none
  spawned := 0
  network := []
  created := []
  sessionIds := []

def send (s : Handshake ι) (m : Message) : Handshake ι := { s with network := s.network ++ [m] }

def setClient (s : Handshake ι) (i : ι) (c : ClientParty) : Handshake ι :=
  { s with client := fun j => if j = i then c else s.client j }

def setThread (s : Handshake ι) (k : Nat) (t : InitThread) : Handshake ι :=
  { s with initThread := fun j => if j = k then some t else s.initThread j }

def setStage (s : Handshake ι) (k : Nat) (t : InitThread) (stage : Initializing) : Handshake ι :=
  s.setThread k { t with stage }

/-- The hello of client `i`. -/
def hello (p : Participants ι) (i : ι) : HandshakeSecurePacket :=
  ⟨PacketType.handshakeSecure.code, (p.clientKeyPair i).publicKey, p.username i⟩

/-- `for (…) net.SendTo(&hp, sizeof(hp), …)`. -/
def attempt (p : Participants ι) (s : Handshake ι) (i : ι) : List Endpoint → Handshake ι
  | [] => s
  | target :: targets => attempt p (s.send ⟨p.endpoint i, target, .hello (hello p i)⟩) i targets

def clientReceive (p : Participants ι) (s : Handshake ι) (i : ι) (n : Nat) : Handshake ι :=
  match s.network[n]? with
  | some ⟨source, target, .response hrp⟩ =>
    if target = p.endpoint i then s.setClient i ((s.client i).receive source hrp) else s
  | _ => s

/-- A sender without a session is looked at further. -/
def hostReceive (p : Participants ι) (s : Handshake ι) (n : Nat) : Handshake ι :=
  match s.receiving, s.network[n]? with
  | none, some ⟨source, target, .hello hp⟩ =>
    if target ∈ p.hostAddresses ∧ s.ctx.hasClient source = false then
      { s with receiving := some (source, hp) }
    else s
  | _, _ => s

def hostAdmit (p : Participants ι) (s : Handshake ι) (input : HostInput) : Handshake ι :=
  match s.receiving with
  | none => s
  | some (sender, hp) =>
    let s := { s with receiving := none }
    match s.ctx.admission sender with
    | (.tooManyClients, ctx) =>
      { s with ctx }.send ⟨p.hostEndpoint, sender, .response (HostContext.rejection input)⟩
    | (.isInitializing, ctx) => { s with ctx }
    | (.admitted, ctx) =>
      { s with ctx, spawned := s.spawned + 1 }.setThread s.spawned
        ⟨sender, hp.clientPublicKey.toList, .started⟩

/-- `initializingClients.erase({senderIp, senderPort})`. -/
def eraseInitializing (s : Handshake ι) (sender : Endpoint) : Handshake ι :=
  { s with ctx := { s.ctx with initializingClients := s.ctx.initializingClients.erase sender } }

/-- The key exchange. A failure ends the thread without a response. -/
def initDerive (cm : CryptoManager) (s : Handshake ι) (k : Nat) (t : InitThread)
    (hostKeyPair : X25519KeyPair) (steadyNow : Int) : Handshake ι :=
  let newState := ClientState.new t.sender t.clientPubKey steadyNow
  match cm.deriveSessionKeys hostKeyPair.toKeyPair.publicKey hostKeyPair.toKeyPair.privateKey
      t.clientPubKey newState.rxKey newState.txKey true with
  | (true, rxKey, txKey) =>
    s.setStage k t (.keyed hostKeyPair { newState with rxKey, txKey })
  | (false, _, _) => (s.setStage k t .finished).eraseInitializing t.sender

def initIdentify (s : Handshake ι) (k : Nat) (t : InitThread) (hostKeyPair : X25519KeyPair)
    (newState : ClientState) (sessionId : UInt64) : Handshake ι :=
  { s with sessionIds := s.sessionIds ++ [sessionId] }.setStage k t
    (.identified hostKeyPair { newState with sessionId })

/-- `ctx->clients.push_back(newState)`. -/
def initPush (s : Handshake ι) (k : Nat) (t : InitThread) (hostKeyPair : X25519KeyPair)
    (newState : ClientState) : Handshake ι :=
  { s with
    ctx := { s.ctx with clients := s.ctx.clients ++ [newState] }
    created := s.created ++ [newState] }.setStage k t (.pushed hostKeyPair newState)

/-- A step of initialisation thread `k`. -/
def initStep (p : Participants ι) (cm : CryptoManager) (s : Handshake ι) (k : Nat)
    (t : InitThread) (e : InitEvent) : Handshake ι :=
  match t.stage, e with
  | .started, .stop => s.setStage k t .finished
  | .started, .derive hostKeyPair steadyNow => s.initDerive cm k t hostKeyPair steadyNow
  | .keyed hostKeyPair newState, .identify sessionId =>
    s.initIdentify k t hostKeyPair newState sessionId
  | .identified hostKeyPair newState, .encoder initialized =>
    if initialized then s.initPush k t hostKeyPair newState else s.setStage k t .rejecting
  | .pushed hostKeyPair newState, .respond _ =>
    (s.setStage k t .finishing).send
      ⟨p.hostEndpoint, t.sender, .response (approval hostKeyPair newState)⟩
  | .rejecting, .respond input =>
    (s.setStage k t .finishing).send
      ⟨p.hostEndpoint, t.sender, .response (HostContext.rejection input)⟩
  | .finishing, .finish => (s.setStage k t .finished).eraseInitializing t.sender
  | _, _ => s

def step (p : Participants ι) (cm : CryptoManager) (s : Handshake ι) :
    HandshakeEvent ι → Handshake ι
  | .attempt i targets => attempt p s i targets
  | .clientReceive i n => s.clientReceive p i n
  | .clientAssign i => s.setClient i ((s.client i).assign cm)
  | .hostReceive n => s.hostReceive p n
  | .hostAdmit input => s.hostAdmit p input
  | .init k e =>
    match s.initThread k with
    | some t => s.initStep p cm k t e
    | none => s
  | .meanwhile world => { s with ctx := world s.ctx }

/-! ## The steps put together -/

/-- Reading a response and making its assignments without a pause is `handshakeResponse`. -/
theorem assign_response (cm : CryptoManager) {c : ClientParty} (h : c.adopting = .idle)
    (sender : Endpoint) (hrp : HandshakeSecureResponsePacket) :
    ((ClientParty.assign · cm)^[5] (c.receive sender hrp)).session =
      c.session.handshakeResponse cm sender hrp := by
  simp only [ClientParty.receive, h, ClientSession.handshakeResponse]
  by_cases happ : hrp.approved ≠ 0
  · simp only [if_pos happ, ClientSession.adopt]
    rcases hd : (c.session.derive cm hrp.hostPublicKey.toList).1 with _ | _
    · simp [ClientParty.assign, hd]
    · simp [ClientParty.assign, hd]
  · simp only [if_neg happ]
    simp [ClientParty.assign]

omit [DecidableEq ι] in
/-- The receiver thread's two lock sections without a pause are `handleHandshake`. -/
theorem ctx_hello (p : Participants ι) {s : Handshake ι} (hidle : s.receiving = none) {n : Nat}
    {source target : Endpoint} {hp : HandshakeSecurePacket}
    (hn : s.network[n]? = some ⟨source, target, .hello hp⟩) (htarget : target ∈ p.hostAddresses)
    {input : HostInput} (hsender : input.sender = source) :
    ((s.hostReceive p n).hostAdmit p input).ctx = (s.ctx.handleHandshake input hp).1 := by
  simp only [hostReceive, hidle, hn, htarget, true_and, HostContext.handleHandshake, hsender]
  rcases hclient : s.ctx.hasClient source with _ | _
  · simp only [if_true, hostAdmit, Bool.false_eq_true, if_false]
    rcases s.ctx.admission source with ⟨_ | _ | _, ctx⟩ <;> rfl
  · simp only [hostAdmit, hidle, Bool.true_eq_false, if_false, if_true]

end Handshake

end RemotePlay.Session
