import RemotePlay.Session.KeyAgreement
import RemotePlay.Session.SendOrder
import RemotePlay.Lib.Tickets

/-!
# Nonces

On the host the packetizer, the receiver thread and each session's audio
callback seal under the session's `txKey`; in a client the input callback and
the session loop seal under its own. A thread takes its number with one
`fetch_add` and calls `Encrypt` later, with the key there is by then. A
retransmission sends the cached envelope and calls `Encrypt` nowhere.
-/

namespace RemotePlay.Session

open Lib Protocol Crypto Host Client

/-- The keys and the counter behind an `Encrypt` call: those of initialisation thread `k`'s session
or those of a client. -/
inductive Owner (ι : Type) where
  | host (k : Nat)
  | client (i : ι)
  deriving DecidableEq

/-- The threads that seal. -/
inductive SealThread (ι : Type) where
  | packetizer
  | receiver
  | audio (k : Nat)
  | clientThread (i : ι) (t : Sender)
  deriving DecidableEq

/-- A header with its number, on the stack of the thread that is about to call `Encrypt`. -/
structure Numbered (ι : Type) where
  owner : Owner ι
  header : SecureHeader
  packet : List UInt8

structure EncryptCall (ι : Type) where
  owner : Owner ι
  key : Key
  nonce : UInt64
  associatedData : List UInt8
  plaintext : List UInt8

structure Sealing (ι : Type) where
  /-- The session of each initialisation thread, with the key pair it was made with. -/
  session : Nat → Option (X25519KeyPair × ClientState)
  client : ι → ClientParty
  /-- The clients' `sendSequenceNumber`. -/
  sendSequenceNumber : ι → UInt64
  stage : SealThread ι → Option (Numbered ι)
  calls : List (EncryptCall ι)
  /-- The host's queue and pools. -/
  ctx : HostContext

inductive SealEvent (ι : Type) where
  | derive (k : Nat) (hostKeyPair : X25519KeyPair) (sender : Endpoint) (clientPubKey : Key)
    (steadyNow : Int)
  | identify (k : Nat) (sessionId : UInt64)
  /-- A response reaches the client, genuine or not, new or repeated. -/
  | receive (i : ι) (sender : Endpoint) (hrp : HandshakeSecureResponsePacket)
  | assign (i : ι)
  | take (t : SealThread ι) (owner : Owner ι) (stack : SecureHeader) (packet : List UInt8)
  | encrypt (t : SealThread ι)
  | retransmit (k : Nat) (rrp : RetransmitRequestPacket)

/-- The event takes a number of `owner`. -/
def SealEvent.sendsFor {ι : Type} [DecidableEq ι] (owner : Owner ι) : SealEvent ι → Bool
  | .take _ owner' _ _ => owner' = owner
  | _ => false

namespace Sealing

variable {ι : Type}

def start (clientKeyPair : ι → X25519KeyPair) (hostIp : ι → List UInt8) (ctx : HostContext) :
    Sealing ι where
  session _ := none
  client i := ⟨.init (clientKeyPair i).toKeyPair (hostIp i) 30, .idle, []⟩
  sendSequenceNumber _ := 0
  stage _ := none
  calls := []
  ctx := ctx

def setSession (s : Sealing ι) (k : Nat) (x : Option (X25519KeyPair × ClientState)) : Sealing ι :=
  { s with session := fun k' => if k' = k then x else s.session k' }

def updateSession (s : Sealing ι) (k : Nat) (f : ClientState → ClientState) : Sealing ι :=
  s.setSession k ((s.session k).map fun x => (x.1, f x.2))

/-- The owner's `sendSequenceNumber`. -/
def number (s : Sealing ι) : Owner ι → UInt64
  | .host k =>
    match s.session k with
    | some (_, st) => st.sendSequenceNumber
    | none => 0
  | .client i => s.sendSequenceNumber i

/-- The owner's `sessionId` and `txKey`. -/
def credentials (s : Sealing ι) : Owner ι → UInt64 × Key
  | .host k =>
    match s.session k with
    | some (_, st) => (st.sessionId, st.txKey)
    | none => (0, [])
  | .client i => ((s.client i).session.sessionId, (s.client i).session.txKey)

/-- The key exchange of an initialisation thread; one that fails ends the thread. -/
def derive (cm : CryptoManager) (s : Sealing ι) (k : Nat) (hostKeyPair : X25519KeyPair)
    (sender : Endpoint) (clientPubKey : Key) (steadyNow : Int) : Sealing ι :=
  let newState := ClientState.new sender clientPubKey steadyNow
  match cm.deriveSessionKeys hostKeyPair.toKeyPair.publicKey hostKeyPair.toKeyPair.privateKey
      clientPubKey newState.rxKey newState.txKey true with
  | (true, rxKey, txKey) => s.setSession k (some (hostKeyPair, { newState with rxKey, txKey }))
  | (false, _, _) => s

/-- Counters, numbers on the stacks of the threads and numbers that went into a call. -/
def tickets (s : Sealing ι) : Tickets (Owner ι) (SealThread ι) where
  counter owner := (s.number owner).toNat
  taken t := (s.stage t).map fun n => (n.owner, n.header.sequenceNumber.toNat)
  used := s.calls.map fun c => (c.owner, c.nonce.toNat)

variable {s : Sealing ι} {cm : CryptoManager}

theorem number_setSession_of_ne {k k' : Nat} (x : Option (X25519KeyPair × ClientState))
    (h : k' ≠ k) : (s.setSession k x).number (.host k') = s.number (.host k') := by
  simp only [number, setSession, if_neg h]

/-- A session that keeps its number. -/
theorem tickets_setSession {k : Nat} {x : Option (X25519KeyPair × ClientState)}
    (h : (s.setSession k x).number (.host k) = s.number (.host k)) :
    (s.setSession k x).tickets = s.tickets := by
  refine Tickets.ext (funext fun owner => ?_) rfl rfl
  cases owner with
  | client i => rfl
  | host k' =>
    simp only [tickets]
    by_cases hk : k' = k
    · rw [hk, h]
    · rw [number_setSession_of_ne x hk]

theorem tickets_derive (k : Nat) (hostKeyPair : X25519KeyPair) (sender : Endpoint)
    (clientPubKey : Key) (steadyNow : Int) (h : s.session k = none) :
    (s.derive cm k hostKeyPair sender clientPubKey steadyNow).tickets = s.tickets := by
  unfold Sealing.derive
  dsimp only
  split
  · apply tickets_setSession
    simp only [number, setSession, if_true, h]
    rfl
  · rfl

variable [DecidableEq ι]

def setClient (s : Sealing ι) (i : ι) (c : ClientParty) : Sealing ι :=
  { s with client := fun j => if j = i then c else s.client j }

def setStage (s : Sealing ι) (t : SealThread ι) (n : Option (Numbered ι)) : Sealing ι :=
  { s with stage := fun t' => if t' = t then n else s.stage t' }

/-- The threads of the host need a session, the input callback a session id, the session loop runs
once the handshake is approved. -/
def maySeal (s : Sealing ι) : SealThread ι → Owner ι → Bool
  | .packetizer, .host k => (s.session k).isSome
  | .receiver, .host k => (s.session k).isSome
  | .audio k, .host k' => k = k' && (s.session k').isSome
  | .clientThread i .inputCallback, .client j => i = j && (s.client j).session.sessionId ≠ 0
  | .clientThread i .sessionLoop, .client j => i = j && (s.client j).session.handshakeApproved
  | _, _ => false

/-- `fetch_add(1)`. -/
def fetchAdd (s : Sealing ι) : Owner ι → Sealing ι
  | .host k =>
    s.updateSession k fun st => { st with sendSequenceNumber := st.sendSequenceNumber + 1 }
  | .client i =>
    { s with sendSequenceNumber := fun j =>
        if j = i then s.sendSequenceNumber i + 1 else s.sendSequenceNumber j }

def step (cm : CryptoManager) (s : Sealing ι) : SealEvent ι → Sealing ι
  | .derive k hostKeyPair sender clientPubKey steadyNow =>
    match s.session k with
    | none => s.derive cm k hostKeyPair sender clientPubKey steadyNow
    | some _ => s
  | .identify k sessionId => s.updateSession k fun st => { st with sessionId }
  | .receive i sender hrp => s.setClient i ((s.client i).receive sender hrp)
  | .assign i => s.setClient i ((s.client i).assign cm)
  | .take t owner stack packet =>
    match s.stage t with
    | none =>
      if s.maySeal t owner then
        (s.fetchAdd owner).setStage t (some
          ⟨owner, fillHeader stack (s.credentials owner).1 (s.number owner) packet.length, packet⟩)
      else s
    | some _ => s
  | .encrypt t =>
    match s.stage t with
    | some n =>
      { s.setStage t none with
        calls := s.calls ++ [⟨n.owner, (s.credentials n.owner).2, n.header.sequenceNumber,
          associatedData n.header, n.packet⟩] }
    | none => s
  | .retransmit k rrp =>
    match s.session k with
    | some (_, st) => { s with ctx := s.ctx.handleRetransmitRequest st rrp }
    | none => s

/-! ## Numbers -/

theorem tickets_identify (k : Nat) (sessionId : UInt64) :
    (step cm s (.identify k sessionId)).tickets = s.tickets := by
  apply tickets_setSession
  rcases h : s.session k with _ | x <;>
    simp only [number, setSession, if_true, h, Option.map_none, Option.map_some]

theorem session_of_maySeal {t : SealThread ι} {k : Nat} (h : s.maySeal t (.host k) = true) :
    ∃ x, s.session k = some x := by
  apply Option.isSome_iff_exists.mp
  cases t with
  | packetizer => exact h
  | receiver => exact h
  | audio k' => exact (Bool.and_eq_true_iff.mp h).2
  | clientThread i t => cases t <;> cases h

theorem number_fetchAdd_self {t : SealThread ι} {owner : Owner ι} (h : s.maySeal t owner = true) :
    (s.fetchAdd owner).number owner = s.number owner + 1 := by
  cases owner with
  | client i => simp only [number, fetchAdd, if_true]
  | host k =>
    obtain ⟨x, hx⟩ := session_of_maySeal h
    simp only [number, fetchAdd, updateSession, hx, setSession, if_true, Option.map_some]

theorem number_fetchAdd_of_ne {owner o : Owner ι} (h : o ≠ owner) :
    (s.fetchAdd owner).number o = s.number o := by
  cases owner with
  | client i =>
    cases o with
    | host k => rfl
    | client j =>
      have hj : j ≠ i := fun hj => h (congrArg Owner.client hj)
      simp only [number, fetchAdd, if_neg hj]
  | host k =>
    cases o with
    | client j => rfl
    | host k' => exact number_setSession_of_ne _ fun hk => h (congrArg Owner.host hk)

/-- `fetch_add` is `take`, as long as the counter does not wrap. -/
theorem tickets_take (cm : CryptoManager) {t : SealThread ι} {owner : Owner ι} (stack : SecureHeader)
    (packet : List UInt8) (hstage : s.stage t = none) (hmay : s.maySeal t owner = true)
    (hroom : (s.number owner).toNat + 1 < 2 ^ 64) :
    (step cm s (.take t owner stack packet)).tickets = s.tickets.take t owner := by
  simp only [step, hstage, hmay, if_true]
  refine Tickets.ext (funext fun o => ?_) (funext fun t' => ?_) ?_
  · show ((s.fetchAdd owner).number o).toNat = if o = owner then _ else _
    split
    · next ho =>
      rw [ho, number_fetchAdd_self hmay, toNat_add_one hroom]
      rfl
    · next ho =>
      rw [number_fetchAdd_of_ne ho]
      rfl
  · show Option.map _ (if t' = t then _ else (s.fetchAdd owner).stage t') = if t' = t then _ else _
    split
    · rfl
    · cases owner <;> rfl
  · cases owner <;> rfl

theorem tickets_encrypt (cm : CryptoManager) {t : SealThread ι} {n : Numbered ι}
    (hstage : s.stage t = some n) :
    (step cm s (.encrypt t)).tickets =
      s.tickets.use t (n.owner, n.header.sequenceNumber.toNat) := by
  simp only [step, hstage]
  refine Tickets.ext (funext fun o => ?_) (funext fun t' => ?_) ?_
  · cases o <;> rfl
  · show Option.map _ (if t' = t then none else s.stage t') = if t' = t then none else _
    split <;> rfl
  · exact List.map_append

/-! ## Keys -/

end Sealing

/-- A key for sending that `crypto_kx` makes from the key pair, as the server or as the client. -/
def SendsUnder (sodium : Sodium) (kp : X25519KeyPair) (key : Key) : Prop :=
  ∃ peer rx,
    sodium.serverSessionKeys kp.toKeyPair.publicKey kp.toKeyPair.privateKey peer = some (rx, key) ∨
    sodium.clientSessionKeys kp.toKeyPair.publicKey kp.toKeyPair.privateKey peer = some (rx, key)

/-- What is assumed of `crypto_kx`: keys have 32 bytes, and different key pairs send under different
keys, the two ends of one session included. -/
structure SeparateKeys (sodium : Sodium) (Generated : X25519KeyPair → Prop) : Prop where
  length : ∀ kp key, SendsUnder sodium kp key → key.length = 32
  injective : ∀ kp kp' key, Generated kp → Generated kp' → SendsUnder sodium kp key →
    SendsUnder sodium kp' key → kp = kp'

/-- `DeriveSessionKeys` has succeeded for this response. -/
def Adopting.derived : Adopting → Bool
  | .idle | .approved _ _ => false
  | _ => true

/-- Once the client's keys are derived, it sends under a key of its key pair. -/
structure PartyKeyed (sodium : Sodium) (kp : X25519KeyPair) (c : ClientParty) : Prop where
  keyPair : c.session.clientKeyPair = kp.toKeyPair
  txKey : c.adopting.derived = true ∨ c.session.sessionId ≠ 0 ∨
    c.session.handshakeApproved = true → SendsUnder sodium kp c.session.txKey

section
variable {sodium : Sodium} {Generated : X25519KeyPair → Prop} {kp : X25519KeyPair} {c : ClientParty}

theorem PartyKeyed.receive (h : PartyKeyed sodium kp c) (sender : Endpoint)
    (hrp : HandshakeSecureResponsePacket) :
    PartyKeyed sodium kp (c.receive sender hrp) ∧
      (c.receive sender hrp).session.txKey = c.session.txKey := by
  obtain ⟨session, adopting, adopted⟩ := c
  cases adopting with
  | idle =>
    unfold ClientParty.receive
    dsimp only
    split
    · exact ⟨⟨h.keyPair, h.txKey⟩, rfl⟩
    · exact ⟨⟨h.keyPair, h.txKey⟩, rfl⟩
  | approved _ _ => exact ⟨h, rfl⟩
  | keyed _ _ => exact ⟨h, rfl⟩
  | named _ => exact ⟨h, rfl⟩
  | located _ => exact ⟨h, rfl⟩
  | placed => exact ⟨h, rfl⟩

/-- A failed derivation resizes keys of the right size already. -/
theorem resize_of_sendsUnder (hkeys : SeparateKeys sodium Generated) {key : Key}
    (h : SendsUnder sodium kp key) : Sodium.resize key = key := by
  have hlen := hkeys.length kp key h
  unfold Sodium.resize
  rw [hlen, ← hlen, List.take_length, Nat.sub_self]
  exact List.append_nil key

/-- The keys a client derives are keys of its key pair, or those it has. -/
theorem sendsUnder_derive (hkeys : SeparateKeys sodium Generated)
    (hpair : c.session.clientKeyPair = kp.toKeyPair) (hostPubKey : Key)
    (h : (c.session.derive sodium.manager hostPubKey).1 = true ∨
      SendsUnder sodium kp c.session.txKey) :
    SendsUnder sodium kp (c.session.derive sodium.manager hostPubKey).2.2 := by
  unfold ClientSession.derive Sodium.manager at h ⊢
  rw [hpair] at h ⊢
  simp only [Bool.false_eq_true, if_false] at h ⊢
  split at h
  · next rx tx hsession => exact ⟨hostPubKey, rx, .inr hsession⟩
  · next hsession =>
    rcases h with h | h
    · cases h
    · show SendsUnder sodium kp (Sodium.resize c.session.txKey)
      rw [resize_of_sendsUnder hkeys h]
      exact h

theorem PartyKeyed.assign (hkeys : SeparateKeys sodium Generated) (h : PartyKeyed sodium kp c) :
    PartyKeyed sodium kp (c.assign sodium.manager) ∧
      (SendsUnder sodium kp c.session.txKey →
        SendsUnder sodium kp (c.assign sodium.manager).session.txKey) := by
  obtain ⟨session, adopting, adopted⟩ := c
  cases adopting with
  | idle => exact ⟨h, id⟩
  | approved hrp sender =>
    refine ⟨⟨h.keyPair, fun hready => ?_⟩, fun hold =>
      sendsUnder_derive hkeys h.keyPair _ (.inr hold)⟩
    simp only [ClientParty.assign] at hready
    refine sendsUnder_derive hkeys h.keyPair _ ?_
    rcases hderived : (session.derive sodium.manager hrp.hostPublicKey.toList).1 with _ | _
    · rw [hderived] at hready
      rcases hready with hready | hready
      · cases hready
      · exact .inr (h.txKey (.inr hready))
    · exact .inl rfl
  | keyed hrp sender => exact ⟨⟨h.keyPair, fun _ => h.txKey (.inl rfl)⟩, id⟩
  | named sender => exact ⟨⟨h.keyPair, fun _ => h.txKey (.inl rfl)⟩, id⟩
  | located sender => exact ⟨⟨h.keyPair, fun _ => h.txKey (.inl rfl)⟩, id⟩
  | placed => exact ⟨⟨h.keyPair, fun _ => h.txKey (.inl rfl)⟩, id⟩

end

namespace Sealing

variable {ι : Type} (sodium : Sodium) (Generated : X25519KeyPair → Prop)
  (clientKeyPair : ι → X25519KeyPair)

/-- A generated key pair is a new one. -/
def Fresh (s : Sealing ι) : SealEvent ι → Prop
  | .derive _ hostKeyPair _ _ _ => Generated hostKeyPair ∧ (∀ i, clientKeyPair i ≠ hostKeyPair) ∧
    ∀ k x, s.session k = some x → x.1 ≠ hostKeyPair
  | _ => True

/-- The owner's key pair and `txKey`. -/
def keys (s : Sealing ι) : Owner ι → Option (X25519KeyPair × Key)
  | .host k => (s.session k).map fun x => (x.1, x.2.txKey)
  | .client i => some (clientKeyPair i, (s.client i).session.txKey)

/-- The owner's key is one of its key pair. -/
def Ready (s : Sealing ι) (owner : Owner ι) : Prop :=
  ∃ x, s.keys clientKeyPair owner = some x ∧ SendsUnder sodium x.1 x.2

/-- The call was made under a key of its owner's key pair. -/
def MadeUnder (s : Sealing ι) (c : EncryptCall ι) : Prop :=
  ∃ x, s.keys clientKeyPair c.owner = some x ∧ SendsUnder sodium x.1 c.key

structure KeysOk (s : Sealing ι) : Prop where
  host : ∀ k x, s.keys clientKeyPair (.host k) = some x →
    Generated x.1 ∧ (∀ i, clientKeyPair i ≠ x.1) ∧ SendsUnder sodium x.1 x.2
  alone : ∀ k k' x x', s.keys clientKeyPair (.host k) = some x →
    s.keys clientKeyPair (.host k') = some x' → x.1 = x'.1 → k = k'
  client : ∀ i, PartyKeyed sodium (clientKeyPair i) (s.client i)
  pending : ∀ t n, s.stage t = some n → s.Ready sodium clientKeyPair n.owner
  called : ∀ c ∈ s.calls, s.MadeUnder sodium clientKeyPair c

/-- Owners keep their key pair, and a key of it stays one. -/
def Grows (s s' : Sealing ι) : Prop :=
  ∀ owner x, s.keys clientKeyPair owner = some x → ∃ key, s'.keys clientKeyPair owner =
    some (x.1, key) ∧ (SendsUnder sodium x.1 x.2 → SendsUnder sodium x.1 key)

theorem keysOk_start (hostIp : ι → List UInt8) (ctx : HostContext) :
    KeysOk sodium Generated clientKeyPair (start clientKeyPair hostIp ctx) where
  host _ _ h := nomatch h
  alone _ _ _ _ h := nomatch h
  client i := ⟨rfl, fun h => by rcases h with h | h | h <;> first | cases h | exact absurd rfl h⟩
  pending _ _ h := nomatch h
  called _ h := nomatch h

section
variable {sodium Generated clientKeyPair} {s s' : Sealing ι}

theorem Ready.grow (hgrow : Grows sodium clientKeyPair s s') {owner : Owner ι}
    (h : s.Ready sodium clientKeyPair owner) : s'.Ready sodium clientKeyPair owner := by
  obtain ⟨x, hx, hkey⟩ := h
  obtain ⟨key, hkey', himp⟩ := hgrow owner x hx
  exact ⟨_, hkey', himp hkey⟩

theorem MadeUnder.grow (hgrow : Grows sodium clientKeyPair s s') {c : EncryptCall ι}
    (h : s.MadeUnder sodium clientKeyPair c) : s'.MadeUnder sodium clientKeyPair c := by
  obtain ⟨x, hx, hkey⟩ := h
  obtain ⟨key, hkey', -⟩ := hgrow c.owner x hx
  exact ⟨_, hkey', hkey⟩

/-- A call an owner makes under its key. -/
theorem Ready.madeUnder {c : EncryptCall ι} (h : s.Ready sodium clientKeyPair c.owner)
    (hkey : c.key = (s.credentials c.owner).2) : s.MadeUnder sodium clientKeyPair c := by
  obtain ⟨x, hx, hsends⟩ := h
  have hx2 : x.2 = (s.credentials c.owner).2 := by
    cases howner : c.owner with
    | client i =>
      rw [howner] at hx
      cases hx
      rfl
    | host k =>
      rw [howner] at hx
      obtain ⟨y, hy, rfl⟩ := Option.map_eq_some_iff.mp hx
      simp only [credentials, hy]
  rw [hx2, ← hkey] at hsends
  exact ⟨x, hx, hsends⟩

theorem grows_of_eq (h : ∀ owner, s'.keys clientKeyPair owner = s.keys clientKeyPair owner) :
    Grows sodium clientKeyPair s s' := fun owner x hx => ⟨x.2, (h owner).trans hx, id⟩

/-- A step that changes no key. -/
theorem KeysOk.congr (h : KeysOk sodium Generated clientKeyPair s)
    (hkeys : ∀ owner, s'.keys clientKeyPair owner = s.keys clientKeyPair owner)
    (hclient : ∀ i, PartyKeyed sodium (clientKeyPair i) (s'.client i))
    (hstage : ∀ t n, s'.stage t = some n → s.stage t = some n ∨
      s.Ready sodium clientKeyPair n.owner)
    (hcalls : ∀ c ∈ s'.calls, c ∈ s.calls ∨ s.MadeUnder sodium clientKeyPair c) :
    KeysOk sodium Generated clientKeyPair s' where
  host k x hx := h.host k x ((hkeys _).symm.trans hx)
  alone k k' x x' hx hx' := h.alone k k' x x' ((hkeys _).symm.trans hx) ((hkeys _).symm.trans hx')
  client := hclient
  pending t n hn := ((hstage t n hn).elim (h.pending t n) id).grow (grows_of_eq hkeys)
  called c hc := ((hcalls c hc).elim (h.called c) id).grow (grows_of_eq hkeys)

/-- A session whose key stays. -/
theorem keys_updateSession {k : Nat} (f : ClientState → ClientState)
    (hf : ∀ st, (f st).txKey = st.txKey) (owner : Owner ι) :
    (s.updateSession k f).keys clientKeyPair owner = s.keys clientKeyPair owner := by
  cases owner with
  | client i => rfl
  | host k' =>
    simp only [keys, updateSession, setSession]
    split
    · next hk =>
      rw [hk, Option.map_map]
      refine congrArg (fun g => Option.map g (s.session k)) (funext fun x => ?_)
      simp only [Function.comp, hf]
    · rfl

theorem KeysOk.addSession (h : KeysOk sodium Generated clientKeyPair s) {k : Nat}
    (hnone : s.session k = none) {hostKeyPair : X25519KeyPair} {st : ClientState}
    (hgen : Generated hostKeyPair) (hclients : ∀ i, clientKeyPair i ≠ hostKeyPair)
    (hnew : ∀ k x, s.session k = some x → x.1 ≠ hostKeyPair)
    (hkey : SendsUnder sodium hostKeyPair st.txKey) :
    KeysOk sodium Generated clientKeyPair (s.setSession k (some (hostKeyPair, st))) := by
  have hcases : ∀ k' x, (s.setSession k (some (hostKeyPair, st))).keys clientKeyPair (.host k') =
      some x → k' = k ∧ x = (hostKeyPair, st.txKey) ∨
        k' ≠ k ∧ s.keys clientKeyPair (.host k') = some x := by
    intro k' x hx
    simp only [keys, setSession] at hx
    split at hx
    · next hk => exact .inl ⟨hk, (Option.some.inj hx).symm⟩
    · next hk => exact .inr ⟨hk, hx⟩
  have hold : ∀ k' x, s.keys clientKeyPair (.host k') = some x → x.1 ≠ hostKeyPair := by
    intro k' x hx
    obtain ⟨y, hy, rfl⟩ := Option.map_eq_some_iff.mp hx
    exact hnew k' y hy
  have hgrow : Grows sodium clientKeyPair s (s.setSession k (some (hostKeyPair, st))) := by
    intro owner x hx
    refine ⟨x.2, ?_, id⟩
    cases owner with
    | client i => exact hx
    | host k' =>
      have hne : k' ≠ k := by
        intro hk
        simp only [keys, hk, hnone] at hx
        cases hx
      simp only [keys, setSession, if_neg hne]
      exact hx
  exact {
    host := fun k' x hx => by
      rcases hcases k' x hx with ⟨-, rfl⟩ | ⟨-, hx⟩
      · exact ⟨hgen, hclients, hkey⟩
      · exact h.host k' x hx
    alone := fun k₁ k₂ x₁ x₂ h₁ h₂ heq => by
      rcases hcases k₁ x₁ h₁ with ⟨hk₁, rfl⟩ | ⟨-, h₁⟩
      · rcases hcases k₂ x₂ h₂ with ⟨hk₂, -⟩ | ⟨-, h₂⟩
        · rw [hk₁, hk₂]
        · exact absurd heq.symm (hold k₂ x₂ h₂)
      · rcases hcases k₂ x₂ h₂ with ⟨-, rfl⟩ | ⟨-, h₂⟩
        · exact absurd heq (hold k₁ x₁ h₁)
        · exact h.alone k₁ k₂ x₁ x₂ h₁ h₂ heq
    client := h.client
    pending := fun t n hn => (h.pending t n hn).grow hgrow
    called := fun c hc => (h.called c hc).grow hgrow }

/-- Owners with one key pair are one owner. -/
theorem KeysOk.owner_eq (h : KeysOk sodium Generated clientKeyPair s)
    (hinj : Function.Injective clientKeyPair) {o o' : Owner ι} {x x' : X25519KeyPair × Key}
    (hx : s.keys clientKeyPair o = some x) (hx' : s.keys clientKeyPair o' = some x')
    (heq : x.1 = x'.1) : o = o' := by
  cases o with
  | host k =>
    cases o' with
    | host k' => rw [h.alone k k' x x' hx hx' heq]
    | client j =>
      cases hx'
      exact absurd heq.symm ((h.host k x hx).2.1 j)
  | client i =>
    cases hx
    cases o' with
    | host k' => exact absurd heq ((h.host k' x' hx').2.1 i)
    | client j =>
      cases hx'
      rw [hinj heq]

theorem KeysOk.generated (h : KeysOk sodium Generated clientKeyPair s)
    (hclients : ∀ i, Generated (clientKeyPair i)) {o : Owner ι} {x : X25519KeyPair × Key}
    (hx : s.keys clientKeyPair o = some x) : Generated x.1 := by
  cases o with
  | host k => exact (h.host k x hx).1
  | client i =>
    cases hx
    exact hclients i

variable [DecidableEq ι]

theorem KeysOk.setClient (h : KeysOk sodium Generated clientKeyPair s) {i : ι} {c : ClientParty}
    (hc : PartyKeyed sodium (clientKeyPair i) c)
    (himp : SendsUnder sodium (clientKeyPair i) (s.client i).session.txKey →
      SendsUnder sodium (clientKeyPair i) c.session.txKey) :
    KeysOk sodium Generated clientKeyPair (s.setClient i c) := by
  have hgrow : Grows sodium clientKeyPair s (s.setClient i c) := by
    intro owner x hx
    cases owner with
    | host k => exact ⟨x.2, hx, id⟩
    | client j =>
      cases hx
      refine ⟨((s.setClient i c).client j).session.txKey, rfl, ?_⟩
      simp only [Sealing.setClient]
      split
      · next hj =>
        subst hj
        exact himp
      · exact id
  exact {
    host := h.host
    alone := h.alone
    client := fun j => by
      simp only [Sealing.setClient]
      split
      · next hj =>
        rw [hj]
        exact hc
      · exact h.client j
    pending := fun t n hn => (h.pending t n hn).grow hgrow
    called := fun c hc => (h.called c hc).grow hgrow }

theorem KeysOk.ready (h : KeysOk sodium Generated clientKeyPair s) {t : SealThread ι}
    {owner : Owner ι} (hmay : s.maySeal t owner = true) : s.Ready sodium clientKeyPair owner := by
  cases owner with
  | host k =>
    obtain ⟨x, hx⟩ := session_of_maySeal hmay
    have hkeys : s.keys clientKeyPair (.host k) = some (x.1, x.2.txKey) := by
      simp only [keys, hx, Option.map_some]
    exact ⟨_, hkeys, (h.host k _ hkeys).2.2⟩
  | client i =>
    refine ⟨_, rfl, (h.client i).txKey (.inr ?_)⟩
    cases t with
    | packetizer => cases hmay
    | receiver => cases hmay
    | audio k => cases hmay
    | clientThread j t =>
      cases t with
      | inputCallback => exact .inl (of_decide_eq_true (Bool.and_eq_true_iff.mp hmay).2)
      | sessionLoop => exact .inr (Bool.and_eq_true_iff.mp hmay).2

theorem keys_fetchAdd (owner o : Owner ι) :
    (s.fetchAdd owner).keys clientKeyPair o = s.keys clientKeyPair o := by
  cases owner with
  | client i => cases o <;> rfl
  | host k =>
    exact keys_updateSession
      (fun st => { st with sendSequenceNumber := st.sendSequenceNumber + 1 }) (fun _ => rfl) o

theorem stage_setStage_cases {t t' : SealThread ι} {x : Option (Numbered ι)} {n : Numbered ι}
    (h : (s.setStage t x).stage t' = some n) : x = some n ∨ s.stage t' = some n := by
  simp only [setStage] at h
  split at h
  · exact .inl h
  · exact .inr h

/-- The number for a packet is taken, the key is there. -/
theorem KeysOk.take (h : KeysOk sodium Generated clientKeyPair s) {t : SealThread ι}
    {owner : Owner ι} (hmay : s.maySeal t owner = true) (n : Numbered ι)
    (hn : n.owner = owner) :
    KeysOk sodium Generated clientKeyPair ((s.fetchAdd owner).setStage t (some n)) := by
  refine h.congr (keys_fetchAdd owner) ?_ (fun t' n' hn' => ?_) ?_
  · cases owner <;> exact h.client
  · rcases stage_setStage_cases hn' with hn' | hn'
    · cases hn'
      subst hn
      exact .inr (h.ready hmay)
    · cases owner <;> exact .inl hn'
  · cases owner <;> exact fun _ hc => .inl hc

theorem keysOk_step (hsep : SeparateKeys sodium Generated) {e : SealEvent ι}
    (h : KeysOk sodium Generated clientKeyPair s) (he : Fresh Generated clientKeyPair s e) :
    KeysOk sodium Generated clientKeyPair (step sodium.manager s e) := by
  cases e with
  | derive k hostKeyPair sender clientPubKey steadyNow =>
    simp only [step]
    split
    · next hnone =>
      obtain ⟨hgen, hclients, hnew⟩ := he
      unfold Sealing.derive
      dsimp only
      split
      · next rxKey txKey hderive =>
        exact h.addSession hnone hgen hclients hnew
          ⟨clientPubKey, rxKey, .inl (Sodium.server_of_derive hderive)⟩
      · exact h
    · exact h
  | identify k sessionId =>
    exact h.congr (keys_updateSession (fun st => { st with sessionId }) fun _ => rfl) h.client
      (fun _ _ hn => .inl hn) fun _ hc => .inl hc
  | receive i sender hrp =>
    obtain ⟨hparty, htx⟩ := (h.client i).receive sender hrp
    refine h.setClient hparty ?_
    rw [htx]
    exact id
  | assign i =>
    obtain ⟨hparty, htx⟩ := (h.client i).assign hsep
    exact h.setClient hparty htx
  | take t owner stack packet =>
    simp only [step]
    split
    · split
      · next hmay => exact h.take hmay _ rfl
      · exact h
    · exact h
  | encrypt t =>
    simp only [step]
    split
    · next n hn =>
      refine h.congr (fun o => by cases o <;> rfl) h.client (fun t' n' hn' => ?_) fun c hc => ?_
      · rcases stage_setStage_cases hn' with hn' | hn'
        · cases hn'
        · exact .inl hn'
      · rcases List.mem_append.mp hc with hc | hc
        · exact .inl hc
        · rw [List.mem_singleton.mp hc]
          exact .inr ((h.pending t n hn).madeUnder rfl)
    · exact h
  | retransmit k rrp =>
    simp only [step]
    split
    · exact h.congr (fun o => by cases o <;> rfl) h.client (fun _ _ hn => .inl hn) fun _ hc => .inl hc
    · exact h

/-! ## Runs -/

/-- Every owner has handed out its numbers once, and no more of them than were taken. -/
structure NumbersOk (past : List (SealEvent ι)) (s : Sealing ι) : Prop where
  counted : ∀ o, (s.number o).toNat ≤ past.countP (SealEvent.sendsFor o)
  distinct : s.tickets.Distinct

theorem NumbersOk.of_tickets {past : List (SealEvent ι)} (h : NumbersOk past s) (e : SealEvent ι)
    (htickets : s'.tickets = s.tickets) : NumbersOk (past ++ [e]) s' where
  counted o := by
    have hle := h.counted o
    have hcounter : (s'.number o).toNat = (s.number o).toNat :=
      congrArg (fun x => x.counter o) htickets
    rw [hcounter, List.countP_append]
    exact Nat.le_add_right_of_le hle
  distinct := by
    rw [htickets]
    exact h.distinct

theorem countP_take (t : SealThread ι) (owner : Owner ι) (stack : SecureHeader)
    (packet : List UInt8) :
    [SealEvent.take t owner stack packet].countP (SealEvent.sendsFor owner) = 1 :=
  List.countP_singleton.trans (if_pos (decide_eq_true rfl))

/-- A number is taken. -/
theorem NumbersOk.take {past : List (SealEvent ι)} (h : NumbersOk past s) {t : SealThread ι}
    {owner : Owner ι} (stack : SecureHeader) (packet : List UInt8)
    (htickets : s'.tickets = s.tickets.take t owner) :
    NumbersOk (past ++ [.take t owner stack packet]) s' where
  counted o := by
    have hle := h.counted o
    have hcounter : (s'.number o).toNat = (s.tickets.take t owner).counter o :=
      congrArg (fun x => x.counter o) htickets
    rw [hcounter, List.countP_append]
    simp only [Tickets.take]
    split
    · next ho =>
      subst ho
      rw [countP_take]
      exact Nat.succ_le_succ hle
    · exact Nat.le_add_right_of_le hle
  distinct := by
    rw [htickets]
    exact h.distinct.take t owner

/-- A number that was taken is used. -/
theorem NumbersOk.use {past : List (SealEvent ι)} (h : NumbersOk past s) {t : SealThread ι}
    {x : Owner ι × Nat} (htaken : s.tickets.taken t = some x) (e : SealEvent ι)
    (htickets : s'.tickets = s.tickets.use t x) : NumbersOk (past ++ [e]) s' where
  counted o := by
    have hcounter : (s'.number o).toNat = (s.number o).toNat :=
      congrArg (fun x => x.counter o) htickets
    rw [hcounter, List.countP_append]
    exact Nat.le_add_right_of_le (h.counted o)
  distinct := by
    rw [htickets]
    exact h.distinct.use htaken

theorem numbersOk_step {cm : CryptoManager} {past : List (SealEvent ι)} {e : SealEvent ι}
    (h : NumbersOk past s) (hcount : ∀ o, (past ++ [e]).countP (SealEvent.sendsFor o) < 2 ^ 64) :
    NumbersOk (past ++ [e]) (step cm s e) := by
  cases e with
  | derive k hostKeyPair sender clientPubKey steadyNow =>
    apply h.of_tickets
    simp only [step]
    split
    · next hnone => exact tickets_derive k hostKeyPair sender clientPubKey steadyNow hnone
    · rfl
  | identify k sessionId => exact h.of_tickets _ (tickets_identify k sessionId)
  | receive i sender hrp =>
    exact h.of_tickets _ (Tickets.ext (funext fun o => by cases o <;> rfl) rfl rfl)
  | assign i => exact h.of_tickets _ (Tickets.ext (funext fun o => by cases o <;> rfl) rfl rfl)
  | take t owner stack packet =>
    rcases hstage : s.stage t with _ | n
    · by_cases hmay : s.maySeal t owner = true
      · have hroom : (s.number owner).toNat + 1 < 2 ^ 64 := by
          have hbound := hcount owner
          have hle := h.counted owner
          rw [List.countP_append, countP_take] at hbound
          omega
        exact h.take stack packet (tickets_take cm stack packet hstage hmay hroom)
      · refine h.of_tickets _ (congrArg tickets ?_)
        simp only [step, hstage]
        exact if_neg hmay
    · refine h.of_tickets _ (congrArg tickets ?_)
      simp only [step, hstage]
  | encrypt t =>
    rcases hstage : s.stage t with _ | n
    · refine h.of_tickets _ (congrArg tickets ?_)
      simp only [step, hstage]
    · refine h.use ?_ _ (tickets_encrypt cm hstage)
      simp only [tickets, hstage, Option.map_some]
  | retransmit k rrp =>
    apply h.of_tickets
    simp only [step]
    split
    · exact Tickets.ext (funext fun o => by cases o <;> rfl) rfl rfl
    · rfl

theorem numbersOk_start (hostIp : ι → List UInt8) (ctx : HostContext) :
    NumbersOk [] (start clientKeyPair hostIp ctx) where
  counted o := by cases o <;> exact Nat.le_refl 0
  distinct :=
    { taken_lt := fun _ _ h => (nomatch h)
      used_lt := fun _ h => (nomatch h)
      taken_inj := fun _ _ _ h => (nomatch h)
      unused := fun _ _ h => (nomatch h)
      nodup := .nil }

/-- What holds as long as no counter has wrapped. -/
def Invariant (sodium : Sodium) (Generated : X25519KeyPair → Prop)
    (clientKeyPair : ι → X25519KeyPair) (past : List (SealEvent ι)) (s : Sealing ι) : Prop :=
  (∀ o, past.countP (SealEvent.sendsFor o) < 2 ^ 64) →
    KeysOk sodium Generated clientKeyPair s ∧ NumbersOk past s

theorem invariant_step (hsep : SeparateKeys sodium Generated) {past : List (SealEvent ι)}
    {e : SealEvent ι} (h : Invariant sodium Generated clientKeyPair past s)
    (he : Fresh Generated clientKeyPair s e) :
    Invariant sodium Generated clientKeyPair (past ++ [e]) (step sodium.manager s e) := by
  intro hcount
  have hpast : ∀ o, past.countP (SealEvent.sendsFor o) < 2 ^ 64 := by
    intro o
    have hlt := hcount o
    rw [List.countP_append] at hlt
    exact Nat.lt_of_le_of_lt (Nat.le_add_right _ _) hlt
  obtain ⟨hkeys, hnumbers⟩ := h hpast
  exact ⟨keysOk_step hsep hkeys he, numbersOk_step hnumbers hcount⟩

end

/-- **No nonce is used twice**: of all `Encrypt` calls of the host and the clients, no two have the
same key and the same number. -/
theorem nonces_not_reused [DecidableEq ι] (sodium : Sodium) (Generated : X25519KeyPair → Prop)
    (hsep : SeparateKeys sodium Generated) (clientKeyPair : ι → X25519KeyPair)
    (hclients : ∀ i, Generated (clientKeyPair i)) (hinj : Function.Injective clientKeyPair)
    (hostIp : ι → List UInt8) (ctx : HostContext) (es : List (SealEvent ι))
    (hes : Along (step sodium.manager) (Fresh Generated clientKeyPair)
      (start clientKeyPair hostIp ctx) es)
    (hcount : ∀ owner, es.countP (SealEvent.sendsFor owner) < 2 ^ 64) :
    (run (step sodium.manager) (start clientKeyPair hostIp ctx) es).calls.Pairwise
      fun c c' => ¬ (c.key = c'.key ∧ c.nonce = c'.nonce) := by
  have hstart : Invariant sodium Generated clientKeyPair [] (start clientKeyPair hostIp ctx) :=
    fun _ => ⟨keysOk_start sodium Generated clientKeyPair hostIp ctx, numbersOk_start hostIp ctx⟩
  have hinv : Invariant sodium Generated clientKeyPair ([] ++ es)
      (run (step sodium.manager) (start clientKeyPair hostIp ctx) es) :=
    run_history (fun past s _ (h : Invariant sodium Generated clientKeyPair past s) he =>
      invariant_step hsep h he) hstart hes
  obtain ⟨hkeys, hnumbers⟩ := hinv hcount
  have hnodup := List.pairwise_map.mp hnumbers.distinct.nodup
  refine hnodup.imp_of_mem fun {c c'} hc hc' hne => ?_
  rintro ⟨hkey, hnonce⟩
  -- the calls were made under one key, so by one owner, and an owner's numbers are distinct
  obtain ⟨x, hx, hsends⟩ := hkeys.called c hc
  obtain ⟨x', hx', hsends'⟩ := hkeys.called c' hc'
  rw [hkey] at hsends
  have hpair := hsep.injective x.1 x'.1 c'.key (hkeys.generated hclients hx)
    (hkeys.generated hclients hx') hsends hsends'
  rw [hkeys.owner_eq hinj hx hx' hpair, hnonce] at hne
  exact hne rfl

theorem separateKeys_plainKx :
    SeparateKeys Handshake.plainKx fun kp => ∃ b, kp = Handshake.pairOf b := by
  have hkey : ∀ kp key, SendsUnder Handshake.plainKx kp key → key = kp.publicKey.toList := by
    rintro kp key ⟨peer, rx, h | h⟩ <;> cases h <;> rfl
  refine ⟨fun kp key h => ?_, ?_⟩
  · rw [hkey kp key h]
    exact Vector.length_toList
  · rintro _ _ key ⟨b, rfl⟩ ⟨b', rfl⟩ h h'
    have heq := (hkey _ _ h).symm.trans (hkey _ _ h')
    have hhead : b = b' := congrArg (fun l => l.headD 0) heq
    rw [hhead]

/-- A session, its client, and one `Encrypt` call of each kind of thread that seals. -/
def oneSession : List (SealEvent Unit) :=
  [.derive 0 (Handshake.pairOf 2) ⟨[0x32], 6000⟩ (Handshake.pairOf 1).toKeyPair.publicKey 0,
    .identify 0 7,
    .receive () ⟨[0x31], 5005⟩ (approval (Handshake.pairOf 2)
      { ClientState.new ⟨[0x32], 6000⟩ [] 0 with sessionId := 7 }),
    .assign (), .assign (), .assign (), .assign (), .assign (),
    .take .packetizer (.host 0) (staleHeader 0) [1], .take (.audio 0) (.host 0) (staleHeader 0) [3],
    .take .receiver (.host 0) (staleHeader 0) [9],
    .take (.clientThread () .inputCallback) (.client ()) (staleHeader 0) [2],
    .take (.clientThread () .sessionLoop) (.client ()) (staleHeader 0) [8],
    .encrypt (.audio 0), .encrypt .packetizer, .encrypt (.clientThread () .sessionLoop),
    .encrypt .receiver, .encrypt (.clientThread () .inputCallback)]

theorem nonces_not_reused_oneSession :
    let s := run (step Handshake.plainKx.manager)
      (start (fun _ : Unit => Handshake.pairOf 1) (fun _ => [0x31]) .init) oneSession
    s.calls.map EncryptCall.nonce = [1, 0, 1, 2, 0] ∧
      s.calls.Pairwise fun c c' => ¬ (c.key = c'.key ∧ c.nonce = c'.nonce) := by
  refine ⟨by decide, nonces_not_reused Handshake.plainKx _ separateKeys_plainKx _ (fun _ => ⟨1, rfl⟩)
    (fun _ _ _ => rfl) _ _ oneSession ?_ ?_⟩
  · exact ⟨⟨⟨2, rfl⟩, fun _ => (by decide : Handshake.pairOf 1 ≠ Handshake.pairOf 2),
      fun _ _ h => (nomatch h)⟩, trivial, trivial, trivial, trivial, trivial, trivial, trivial,
      trivial, trivial, trivial, trivial, trivial, trivial, trivial, trivial, trivial, trivial, trivial⟩
  · intro owner
    exact Nat.lt_of_le_of_lt List.countP_le_length (by decide)

end Sealing

end RemotePlay.Session
