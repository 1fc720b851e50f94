import RemotePlay.Session.Handshake

/-!
# Key agreement

The invariant says of every hello that it carries its sender's key, of every
initialisation thread and every approved response which session it belongs to,
and of every client that what it adopts agrees with a session the host has
created. Session ids stay distinct because a thread takes a fresh one and is
the only one to push it.
-/

namespace RemotePlay.Session

open Lib Protocol Crypto Host Client

/-- What is assumed of `crypto_kx`: from matching key pairs the client derives the server's keys,
swapped. -/
def SwappedKeys (sodium : Sodium) (Matching : X25519KeyPair → Prop) : Prop :=
  ∀ (c h : X25519KeyPair), Matching c → Matching h → ∀ rx tx,
    sodium.serverSessionKeys h.toKeyPair.publicKey h.toKeyPair.privateKey c.toKeyPair.publicKey =
      some (rx, tx) →
    sodium.clientSessionKeys c.toKeyPair.publicKey c.toKeyPair.privateKey h.toKeyPair.publicKey =
      some (tx, rx)

/-- The key of the client at an endpoint. -/
def KeyAt {ι : Type} (p : Participants ι) (sender : Endpoint) (key : Key) : Prop :=
  ∃ i, p.endpoint i = sender ∧ key = (p.clientKeyPair i).toKeyPair.publicKey

/-- The host's session `c` is the one the client has adopted: same id, the client's endpoint and
public key, the keys swapped. -/
structure Agrees {ι : Type} (p : Participants ι) (i : ι) (a : Adoption) (c : ClientState) :
    Prop where
  sessionId : c.sessionId = a.sessionId
  endpoint : c.endpoint = p.endpoint i
  clientPublicKey : c.clientPublicKey = (p.clientKeyPair i).toKeyPair.publicKey
  rxKey : c.rxKey = a.txKey
  txKey : c.txKey = a.rxKey

/-- The id a thread has generated and not yet pushed. -/
def Initializing.pendingId : Initializing → Option UInt64
  | .identified _ newState => some newState.sessionId
  | _ => none

/-- The session id and the keys the client uses. -/
def ClientParty.inForce (c : ClientParty) : Adoption :=
  ⟨c.session.sessionId, c.session.rxKey, c.session.txKey⟩

/-- Keys and id are in step: the thread is not between `DeriveSessionKeys` and `sessionId`. -/
def Adopting.Settled : Adopting → Prop
  | .keyed _ _ => False
  | _ => True

namespace Handshake

variable {ι : Type} (p : Participants ι) (sodium : Sodium) (Matching : X25519KeyPair → Prop)

/-- Generated key pairs match, and a generated session id is a new one. -/
def Assumed (s : Handshake ι) : HandshakeEvent ι → Prop
  | .init _ (.derive hostKeyPair _) => Matching hostKeyPair
  | .init _ (.identify sessionId) => sessionId ∉ s.sessionIds
  | _ => True

/-! ## The invariant -/

/-- A session whose keys come from `hostKeyPair` and the key of the client at its endpoint. -/
structure Established (hostKeyPair : X25519KeyPair) (c : ClientState) : Prop where
  hostKey : Matching hostKeyPair
  keys : sodium.serverSessionKeys hostKeyPair.toKeyPair.publicKey
    hostKeyPair.toKeyPair.privateKey c.clientPublicKey = some (c.rxKey, c.txKey)
  clientKey : KeyAt p c.endpoint c.clientPublicKey

/-- The response names a session of `created` at the target, and the host key it was made with. -/
def Answers (created : List ClientState) (target : Endpoint)
    (hrp : HandshakeSecureResponsePacket) : Prop :=
  ∃ c ∈ created, ∃ hostKeyPair, Established p sodium Matching hostKeyPair c ∧
    c.endpoint = target ∧ hrp.hostPublicKey = hostKeyPair.publicKey ∧ hrp.sessionId = c.sessionId

def MessageOk (created : List ClientState) (m : Message) : Prop :=
  match m.packet with
  | .hello hp => KeyAt p m.source hp.clientPublicKey.toList
  | .response hrp => hrp.approved ≠ 0 → Answers p sodium Matching created m.target hrp

def StageOk (created : List ClientState) (sender : Endpoint) : Initializing → Prop
  | .keyed hostKeyPair c => Established p sodium Matching hostKeyPair c ∧ c.endpoint = sender
  | .identified hostKeyPair c => Established p sodium Matching hostKeyPair c ∧ c.endpoint = sender
  | .pushed hostKeyPair c =>
    Established p sodium Matching hostKeyPair c ∧ c.endpoint = sender ∧ c ∈ created
  | _ => True

structure ThreadOk (created : List ClientState) (t : InitThread) : Prop where
  clientKey : KeyAt p t.sender t.clientPubKey
  stage : StageOk p sodium Matching created t.sender t.stage

def AdoptingOk (created : List ClientState) (i : ι) (c : ClientParty) : Prop :=
  match c.adopting with
  | .approved hrp _ => Answers p sodium Matching created (p.endpoint i) hrp
  | .keyed hrp _ =>
    ∃ st ∈ created, Agrees p i ⟨hrp.sessionId, c.session.rxKey, c.session.txKey⟩ st
  | _ => True

structure PartyOk (created : List ClientState) (i : ι) (c : ClientParty) : Prop where
  keyPair : c.session.clientKeyPair = (p.clientKeyPair i).toKeyPair
  adopting : AdoptingOk p sodium Matching created i c
  adopted : ∀ a ∈ c.adopted, ∃ st ∈ created, Agrees p i a st
  inForce : c.adopted ≠ [] → c.adopting.Settled → c.inForce ∈ c.adopted

structure Invariant (s : Handshake ι) : Prop where
  network : ∀ m ∈ s.network, MessageOk p sodium Matching s.created m
  receiving : ∀ r, s.receiving = some r → KeyAt p r.1 r.2.clientPublicKey.toList
  threads : ∀ k t, s.initThread k = some t → ThreadOk p sodium Matching s.created t
  clients : ∀ i, PartyOk p sodium Matching s.created i (s.client i)
  generated : ∀ c ∈ s.created, c.sessionId ∈ s.sessionIds
  unique : (s.created.map ClientState.sessionId).Nodup
  pending : ∀ k t, s.initThread k = some t → ∀ sid, t.stage.pendingId = some sid →
    sid ∈ s.sessionIds ∧ ∀ c ∈ s.created, c.sessionId ≠ sid
  alone : ∀ k k' t t', s.initThread k = some t → s.initThread k' = some t' → ∀ sid,
    t.stage.pendingId = some sid → t'.stage.pendingId = some sid → k = k'

theorem invariant_start (ctx : HostContext) : Invariant p sodium Matching (start p ctx) where
  network _ hm := nomatch hm
  receiving _ hr := nomatch hr
  threads _ _ ht := nomatch ht
  clients _ := ⟨rfl, trivial, fun _ ha => (nomatch ha), fun h => absurd rfl h⟩
  generated _ hc := nomatch hc
  unique := .nil
  pending _ _ ht := nomatch ht
  alone _ _ _ _ ht := nomatch ht

/-! ### More sessions -/

section
variable {p sodium Matching} {created created' : List ClientState}

theorem Answers.mono (hsub : created ⊆ created') {target : Endpoint}
    {hrp : HandshakeSecureResponsePacket} (h : Answers p sodium Matching created target hrp) :
    Answers p sodium Matching created' target hrp := by
  obtain ⟨c, hc, h⟩ := h
  exact ⟨c, hsub hc, h⟩

theorem MessageOk.mono (hsub : created ⊆ created') {m : Message}
    (h : MessageOk p sodium Matching created m) : MessageOk p sodium Matching created' m := by
  unfold MessageOk at h ⊢
  split at h
  · exact h
  · exact fun happ => (h happ).mono hsub

theorem ThreadOk.mono (hsub : created ⊆ created') {t : InitThread}
    (h : ThreadOk p sodium Matching created t) : ThreadOk p sodium Matching created' t where
  clientKey := h.clientKey
  stage := by
    have hstage := h.stage
    revert hstage
    cases t.stage with
    | pushed hostKeyPair c => exact fun hstage => ⟨hstage.1, hstage.2.1, hsub hstage.2.2⟩
    | started => exact id
    | keyed hostKeyPair c => exact id
    | identified hostKeyPair c => exact id
    | rejecting => exact id
    | finishing => exact id
    | finished => exact id

theorem PartyOk.mono (hsub : created ⊆ created') {i : ι} {c : ClientParty}
    (h : PartyOk p sodium Matching created i c) : PartyOk p sodium Matching created' i c where
  keyPair := h.keyPair
  adopting := by
    have hadopting := h.adopting
    unfold AdoptingOk at hadopting ⊢
    split at hadopting
    · exact hadopting.mono hsub
    · obtain ⟨st, hst, hagrees⟩ := hadopting
      exact ⟨st, hsub hst, hagrees⟩
    · trivial
  adopted a ha := by
    obtain ⟨st, hst, hagrees⟩ := h.adopted a ha
    exact ⟨st, hsub hst, hagrees⟩
  inForce := h.inForce

end

/-! ### Changes of one part -/

section
variable {p sodium Matching} {s : Handshake ι}

theorem Invariant.send (h : Invariant p sodium Matching s) {m : Message}
    (hm : MessageOk p sodium Matching s.created m) : Invariant p sodium Matching (s.send m) where
  network m' hm' := by
    rcases List.mem_append.mp hm' with hm' | hm'
    · exact h.network m' hm'
    · rw [List.mem_singleton.mp hm']
      exact hm
  receiving := h.receiving
  threads := h.threads
  clients := h.clients
  generated := h.generated
  unique := h.unique
  pending := h.pending
  alone := h.alone

theorem Invariant.host (h : Invariant p sodium Matching s) (ctx : HostContext) (spawned : Nat)
    {receiving : Option (Endpoint × HandshakeSecurePacket)}
    (hr : ∀ r, receiving = some r → KeyAt p r.1 r.2.clientPublicKey.toList) :
    Invariant p sodium Matching { s with ctx, receiving, spawned } where
  network := h.network
  receiving := hr
  threads := h.threads
  clients := h.clients
  generated := h.generated
  unique := h.unique
  pending := h.pending
  alone := h.alone

theorem Invariant.setClient [DecidableEq ι] (h : Invariant p sodium Matching s) {i : ι}
    {c : ClientParty} (hc : PartyOk p sodium Matching s.created i c) :
    Invariant p sodium Matching (s.setClient i c) where
  network := h.network
  receiving := h.receiving
  threads := h.threads
  clients j := by
    show PartyOk p sodium Matching s.created j (if j = i then c else s.client j)
    split
    · next hj =>
      rw [hj]
      exact hc
    · exact h.clients j
  generated := h.generated
  unique := h.unique
  pending := h.pending
  alone := h.alone

/-- What the thread table holds after a change. -/
theorem setThread_cases {k j : Nat} {t t' : InitThread}
    (h : (s.setThread k t).initThread j = some t') :
    j = k ∧ t' = t ∨ j ≠ k ∧ s.initThread j = some t' := by
  simp only [setThread] at h
  split at h
  · next hj => exact .inl ⟨hj, (Option.some.inj h).symm⟩
  · next hj => exact .inr ⟨hj, h⟩

theorem Invariant.setThread (h : Invariant p sodium Matching s) (k : Nat) {t : InitThread}
    (ht : ThreadOk p sodium Matching s.created t) (hnone : t.stage.pendingId = none) :
    Invariant p sodium Matching (s.setThread k t) where
  network := h.network
  receiving := h.receiving
  threads j t' hj := by
    rcases setThread_cases hj with ⟨-, rfl⟩ | ⟨-, hj⟩
    · exact ht
    · exact h.threads j t' hj
  clients := h.clients
  generated := h.generated
  unique := h.unique
  pending j t' hj sid hsid := by
    rcases setThread_cases hj with ⟨-, rfl⟩ | ⟨-, hj⟩
    · rw [hnone] at hsid
      cases hsid
    · exact h.pending j t' hj sid hsid
  alone j j' t₁ t₂ hj hj' sid hsid hsid' := by
    rcases setThread_cases hj with ⟨-, rfl⟩ | ⟨-, hj⟩
    · rw [hnone] at hsid
      cases hsid
    rcases setThread_cases hj' with ⟨-, rfl⟩ | ⟨-, hj'⟩
    · rw [hnone] at hsid'
      cases hsid'
    · exact h.alone j j' t₁ t₂ hj hj' sid hsid hsid'

theorem Invariant.setStage (h : Invariant p sodium Matching s) {k : Nat} {t : InitThread}
    (ht : s.initThread k = some t) (stage : Initializing)
    (hstage : StageOk p sodium Matching s.created t.sender stage) (hnone : stage.pendingId = none) :
    Invariant p sodium Matching (s.setStage k t stage) :=
  h.setThread k ⟨(h.threads k t ht).clientKey, hstage⟩ hnone

theorem Invariant.erase (h : Invariant p sodium Matching s) (sender : Endpoint) :
    Invariant p sodium Matching (s.eraseInitializing sender) :=
  h.host _ s.spawned h.receiving

/-- A thread generates a session id. -/
theorem Invariant.identify (h : Invariant p sodium Matching s) {k : Nat} {t : InitThread}
    (ht : s.initThread k = some t) {hostKeyPair : X25519KeyPair} {newState : ClientState}
    (hstage : t.stage = .keyed hostKeyPair newState) {sessionId : UInt64}
    (hfresh : sessionId ∉ s.sessionIds) :
    Invariant p sodium Matching (s.initIdentify k t hostKeyPair newState sessionId) where
  network := h.network
  receiving := h.receiving
  threads j t' hj := by
    rcases setThread_cases hj with ⟨-, rfl⟩ | ⟨-, hj⟩
    · obtain ⟨hclient, hok⟩ := h.threads k t ht
      rw [hstage] at hok
      obtain ⟨hest, hsender⟩ := hok
      exact ⟨hclient, ⟨hest.hostKey, hest.keys, hest.clientKey⟩, hsender⟩
    · exact h.threads j t' hj
  clients := h.clients
  generated c hc := List.mem_append_left _ (h.generated c hc)
  unique := h.unique
  pending j t' hj sid hsid := by
    rcases setThread_cases hj with ⟨-, rfl⟩ | ⟨-, hj⟩
    · cases hsid
      refine ⟨List.mem_append_right _ (List.mem_singleton.mpr rfl), fun c hc heq => hfresh ?_⟩
      have hid : c.sessionId = sessionId := heq
      rw [← hid]
      exact h.generated c hc
    · obtain ⟨hin, hnew⟩ := h.pending j t' hj sid hsid
      exact ⟨List.mem_append_left _ hin, hnew⟩
  alone j j' t₁ t₂ hj hj' sid hsid hsid' := by
    rcases setThread_cases hj with ⟨hk, rfl⟩ | ⟨-, hj⟩
    · rcases setThread_cases hj' with ⟨hk', -⟩ | ⟨-, hj'⟩
      · rw [hk, hk']
      · cases hsid
        exact absurd (h.pending j' t₂ hj' _ hsid').1 hfresh
    · rcases setThread_cases hj' with ⟨-, rfl⟩ | ⟨-, hj'⟩
      · cases hsid'
        exact absurd (h.pending j t₁ hj _ hsid).1 hfresh
      · exact h.alone j j' t₁ t₂ hj hj' sid hsid hsid'

/-- A thread pushes its session. -/
theorem Invariant.push (h : Invariant p sodium Matching s) {k : Nat} {t : InitThread}
    (ht : s.initThread k = some t) {hostKeyPair : X25519KeyPair} {newState : ClientState}
    (hstage : t.stage = .identified hostKeyPair newState) :
    Invariant p sodium Matching (s.initPush k t hostKeyPair newState) := by
  have hpend : t.stage.pendingId = some newState.sessionId := by
    rw [hstage]
    rfl
  obtain ⟨hin, hnew⟩ := h.pending k t ht _ hpend
  have hsub : s.created ⊆ s.created ++ [newState] := List.subset_append_left _ _
  exact {
    network := fun m hm => (h.network m hm).mono hsub
    receiving := h.receiving
    threads := fun j t' hj => by
      rcases setThread_cases hj with ⟨-, rfl⟩ | ⟨-, hj⟩
      · obtain ⟨hclient, hok⟩ := h.threads k t ht
        rw [hstage] at hok
        exact ⟨hclient, hok.1, hok.2, List.mem_append_right _ (List.mem_singleton.mpr rfl)⟩
      · exact (h.threads j t' hj).mono hsub
    clients := fun i => (h.clients i).mono hsub
    generated := fun c hc => by
      rcases List.mem_append.mp hc with hc | hc
      · exact h.generated c hc
      · rw [List.mem_singleton.mp hc]
        exact hin
    unique := by
      show ((s.created ++ [newState]).map ClientState.sessionId).Nodup
      rw [List.map_append, List.nodup_append]
      refine ⟨h.unique, List.pairwise_singleton _ _, fun a ha b hb => ?_⟩
      obtain ⟨c, hc, rfl⟩ := List.mem_map.mp ha
      rw [List.mem_singleton.mp hb]
      exact hnew c hc
    pending := fun j t' hj sid hsid => by
      rcases setThread_cases hj with ⟨-, rfl⟩ | ⟨hjk, hj⟩
      · cases hsid
      · obtain ⟨hin', hnew'⟩ := h.pending j t' hj sid hsid
        refine ⟨hin', fun c hc heq => ?_⟩
        rcases List.mem_append.mp hc with hc | hc
        · exact hnew' c hc heq
        · rw [List.mem_singleton.mp hc] at heq
          rw [heq] at hpend
          exact hjk (h.alone j k t' t hj ht sid hsid hpend)
    alone := fun j j' t₁ t₂ hj hj' sid hsid hsid' => by
      rcases setThread_cases hj with ⟨-, rfl⟩ | ⟨-, hj⟩
      · cases hsid
      rcases setThread_cases hj' with ⟨-, rfl⟩ | ⟨-, hj'⟩
      · cases hsid'
      · exact h.alone j j' t₁ t₂ hj hj' sid hsid hsid' }

/-! ### The client -/

theorem PartyOk.receive {created : List ClientState} {i : ι} {c : ClientParty}
    (h : PartyOk p sodium Matching created i c) (sender : Endpoint)
    {hrp : HandshakeSecureResponsePacket}
    (hrp_ok : hrp.approved ≠ 0 → Answers p sodium Matching created (p.endpoint i) hrp) :
    PartyOk p sodium Matching created i (c.receive sender hrp) := by
  unfold ClientParty.receive
  split
  · next hidle =>
    have hforce : c.adopted ≠ [] → c.inForce ∈ c.adopted := fun hne =>
      h.inForce hne (by rw [hidle]; trivial)
    split
    · next happ => exact ⟨h.keyPair, hrp_ok happ, h.adopted, fun hne _ => hforce hne⟩
    · refine ⟨h.keyPair, ?_, h.adopted, fun hne _ => hforce hne⟩
      simp only [AdoptingOk, hidle]
  · exact h

/-- From a response that answers one of its sessions the client derives that session's keys. -/
theorem derive_of_answers (hkx : SwappedKeys sodium Matching)
    (hpairs : ∀ i, Matching (p.clientKeyPair i)) {created : List ClientState} {i : ι}
    {session : ClientSession} (hpair : session.clientKeyPair = (p.clientKeyPair i).toKeyPair)
    {hrp : HandshakeSecureResponsePacket}
    (h : Answers p sodium Matching created (p.endpoint i) hrp) :
    ∃ st ∈ created, Agrees p i ⟨hrp.sessionId, st.txKey, st.rxKey⟩ st ∧
      session.derive sodium.manager hrp.hostPublicKey.toList = (true, st.txKey, st.rxKey) := by
  obtain ⟨st, hst, hostKeyPair, ⟨hhost, hkeys, j, hj, hkey⟩, hendpoint, hhostKey, hsid⟩ := h
  have hji : j = i := p.distinct (hj.trans hendpoint)
  subst hji
  refine ⟨st, hst, ⟨hsid.symm, hendpoint, hkey, rfl, rfl⟩, ?_⟩
  rw [hkey] at hkeys
  rw [ClientSession.derive, hpair, hhostKey]
  exact Sodium.derive_of_client (hkx _ _ (hpairs j) hhost _ _ hkeys)

theorem PartyOk.assign (hkx : SwappedKeys sodium Matching)
    (hpairs : ∀ i, Matching (p.clientKeyPair i)) {created : List ClientState} {i : ι}
    {c : ClientParty} (h : PartyOk p sodium Matching created i c) :
    PartyOk p sodium Matching created i (c.assign sodium.manager) := by
  obtain ⟨session, adopting, adopted⟩ := c
  cases adopting with
  | idle => exact h
  | approved hrp sender =>
    obtain ⟨st, hst, hagrees, hderive⟩ := derive_of_answers hkx hpairs h.keyPair h.adopting
    simp only [ClientParty.assign, hderive, if_true]
    exact ⟨h.keyPair, ⟨st, hst, hagrees⟩, h.adopted, fun _ hsettled => hsettled.elim⟩
  | keyed hrp sender =>
    refine ⟨h.keyPair, trivial, fun a ha => ?_, fun _ _ =>
      List.mem_append_right _ (List.mem_singleton.mpr rfl)⟩
    rcases List.mem_append.mp ha with ha | ha
    · exact h.adopted a ha
    · rw [List.mem_singleton.mp ha]
      exact h.adopting
  | named sender => exact ⟨h.keyPair, trivial, h.adopted, fun hne _ => h.inForce hne trivial⟩
  | located sender => exact ⟨h.keyPair, trivial, h.adopted, fun hne _ => h.inForce hne trivial⟩
  | placed => exact ⟨h.keyPair, trivial, h.adopted, fun hne _ => h.inForce hne trivial⟩

/-! ### The steps -/

theorem Invariant.attempt (h : Invariant p sodium Matching s) (i : ι) (targets : List Endpoint) :
    Invariant p sodium Matching (attempt p s i targets) := by
  induction targets generalizing s with
  | nil => exact h
  | cons target targets ih => exact ih (h.send ⟨i, rfl, rfl⟩)

theorem Invariant.clientReceive [DecidableEq ι] (h : Invariant p sodium Matching s) (i : ι)
    (n : Nat) : Invariant p sodium Matching (s.clientReceive p i n) := by
  unfold Handshake.clientReceive
  split
  · next source target hrp hn =>
    split
    · next htarget =>
      have hm := h.network _ (List.mem_of_getElem? hn)
      rw [htarget] at hm
      exact h.setClient ((h.clients i).receive source hm)
    · exact h
  · exact h

theorem Invariant.hostReceive (h : Invariant p sodium Matching s) (n : Nat) :
    Invariant p sodium Matching (s.hostReceive p n) := by
  unfold Handshake.hostReceive
  split
  · next source target hp _ hn =>
    split
    · refine h.host s.ctx s.spawned fun r hr => ?_
      cases hr
      exact h.network _ (List.mem_of_getElem? hn)
    · exact h
  · exact h

/-- A rejection approves nothing. -/
theorem messageOk_rejection (created : List ClientState) (source target : Endpoint)
    (input : HostInput) :
    MessageOk p sodium Matching created
      ⟨source, target, .response (HostContext.rejection input)⟩ :=
  fun happ => absurd rfl happ

theorem Invariant.hostAdmit (h : Invariant p sodium Matching s) (input : HostInput) :
    Invariant p sodium Matching (s.hostAdmit p input) := by
  unfold Handshake.hostAdmit
  split
  · exact h
  · next sender hp hreceiving =>
    have hkey := h.receiving _ hreceiving
    have hfree (ctx : HostContext) (spawned : Nat) :
        Invariant p sodium Matching { s with ctx, receiving := none, spawned } :=
      h.host ctx spawned fun _ hr => (nomatch hr)
    dsimp only
    split
    · exact (hfree _ _).send (messageOk_rejection _ _ _ input)
    · exact hfree _ _
    · exact (hfree _ _).setThread _ ⟨hkey, trivial⟩ rfl

/-- The key exchange establishes a session for the key at the sender. -/
theorem Invariant.derive (h : Invariant p sodium Matching s) {k : Nat} {t : InitThread}
    (ht : s.initThread k = some t) {hostKeyPair : X25519KeyPair} (hhost : Matching hostKeyPair)
    (steadyNow : Int) :
    Invariant p sodium Matching (s.initDerive sodium.manager k t hostKeyPair steadyNow) := by
  unfold Handshake.initDerive
  dsimp only
  split
  · next rxKey txKey hderive =>
    have hclient := (h.threads k t ht).clientKey
    exact h.setStage ht (.keyed _ _) ⟨⟨hhost, Sodium.server_of_derive hderive, hclient⟩, rfl⟩ rfl
  · exact (h.setStage ht .finished trivial rfl).erase t.sender

theorem Invariant.initStep (h : Invariant p sodium Matching s) {k : Nat} {t : InitThread}
    (ht : s.initThread k = some t) {e : InitEvent} (he : Assumed Matching s (.init k e)) :
    Invariant p sodium Matching (s.initStep p sodium.manager k t e) := by
  have hok := (h.threads k t ht).stage
  unfold Handshake.initStep
  split
  · exact h.setStage ht .finished trivial rfl
  · exact h.derive ht he _
  · next hstage => exact h.identify ht hstage he
  · next hostKeyPair newState _ hstage =>
    split
    · exact h.push ht hstage
    · exact h.setStage ht .rejecting trivial rfl
  · next hostKeyPair newState _ hstage =>
    rw [hstage] at hok
    obtain ⟨hest, hsender, hcreated⟩ := hok
    exact (h.setStage ht .finishing trivial rfl).send fun _ =>
      ⟨newState, hcreated, hostKeyPair, hest, hsender, rfl, rfl⟩
  · exact (h.setStage ht .finishing trivial rfl).send (messageOk_rejection _ _ _ _)
  · exact (h.setStage ht .finished trivial rfl).erase t.sender
  · exact h

/-- One step. -/
theorem invariant_step [DecidableEq ι] (hkx : SwappedKeys sodium Matching)
    (hpairs : ∀ i, Matching (p.clientKeyPair i)) {e : HandshakeEvent ι}
    (h : Invariant p sodium Matching s) (he : Assumed Matching s e) :
    Invariant p sodium Matching (step p sodium.manager s e) := by
  cases e with
  | attempt i targets => exact h.attempt i targets
  | clientReceive i n => exact h.clientReceive i n
  | clientAssign i => exact h.setClient ((h.clients i).assign hkx hpairs)
  | hostReceive n => exact h.hostReceive n
  | hostAdmit input => exact h.hostAdmit input
  | init k e =>
    simp only [step]
    split
    · next t ht => exact h.initStep ht he
    · exact h
  | meanwhile world => exact h.host _ s.spawned h.receiving

end

/-! ## Agreement -/

/-- In a list with distinct ids, one element has a given id. -/
theorem filter_eq_of_nodup {cs : List ClientState} (h : (cs.map ClientState.sessionId).Nodup)
    {c : ClientState} (hc : c ∈ cs) : cs.filter (·.sessionId = c.sessionId) = [c] := by
  induction cs with
  | nil => cases hc
  | cons d cs ih =>
    rw [List.map_cons, List.nodup_cons] at h
    rcases List.mem_cons.mp hc with rfl | hc
    · rw [List.filter_cons_of_pos (by simp), List.filter_eq_nil_iff.mpr]
      intro d hd
      simp only [decide_eq_true_eq]
      exact fun heq => h.1 (heq ▸ List.mem_map_of_mem hd)
    · rw [List.filter_cons_of_neg]
      · exact ih h.2 hc
      · simp only [decide_eq_true_eq]
        exact fun heq => h.1 (heq ▸ List.mem_map_of_mem hc)

/-- **Key agreement.** In every reachable state, for every adoption of every client the host has
created exactly one session with its id, for the client's endpoint and public key and with the
client's keys swapped; and what a client uses, once it has adopted a session, is one of its
adoptions, except between `DeriveSessionKeys` and the assignment of `sessionId`. -/
theorem key_agreement [DecidableEq ι] (hkx : SwappedKeys sodium Matching)
    (hpairs : ∀ i, Matching (p.clientKeyPair i)) (ctx : HostContext)
    {es : List (HandshakeEvent ι)}
    (hes : Along (step p sodium.manager) (Assumed Matching) (start p ctx) es) (i : ι) :
    let s := run (step p sodium.manager) (start p ctx) es
    (∀ a ∈ (s.client i).adopted, ∃ c, s.created.filter (·.sessionId = a.sessionId) = [c] ∧
      Agrees p i a c) ∧
    ((s.client i).adopted ≠ [] → (s.client i).adopting.Settled →
      (s.client i).inForce ∈ (s.client i).adopted) := by
  intro s
  have h : Invariant p sodium Matching s :=
    run_invariant (fun _ _ hs he => invariant_step hkx hpairs hs he)
      (invariant_start p sodium Matching ctx) hes
  refine ⟨fun a ha => ?_, (h.clients i).inForce⟩
  obtain ⟨c, hc, hagrees⟩ := (h.clients i).adopted a ha
  refine ⟨c, ?_, hagrees⟩
  rw [← hagrees.sessionId]
  exact filter_eq_of_nodup h.unique hc

/-- A key exchange in which each side sends under its own public key. -/
def plainKx : Sodium where
  encryptDetached _ _ _ _ := none
  decryptDetached _ _ _ _ _ := none
  serverSessionKeys pub _ peer := some (peer, pub)
  clientSessionKeys pub _ peer := some (peer, pub)

def pairOf (b : UInt8) : X25519KeyPair := ⟨Vector.replicate 32 b, Vector.replicate 32 b⟩

/-- One client, with the host at one address. -/
def oneClient : Participants Unit where
  endpoint _ := ⟨[0x32], 6000⟩
  distinct _ _ _ := rfl
  clientKeyPair _ := pairOf 1
  username _ := Vector.replicate 32 0
  hostIp _ := [0x31]
  hostAddresses := [⟨[0x31], 5005⟩]
  hostEndpoint := ⟨[0x31], 5005⟩

def anyInput : HostInput := ⟨plainKx.manager, ⟨[], 0⟩, 0, 0, fun _ => 0, staleHeader 0⟩

/-- A handshake up to the assignment of `sessionId`. -/
def adoption : List (HandshakeEvent Unit) :=
  [.attempt () [⟨[0x31], 5005⟩], .hostReceive 0, .hostAdmit anyInput,
    .init 0 (.derive (pairOf 2) 0), .init 0 (.identify 7), .init 0 (.encoder true),
    .init 0 (.respond anyInput), .clientReceive () 1, .clientAssign (), .clientAssign ()]

theorem key_agreement_one :
    ∃ c, (run (step oneClient plainKx.manager) (start oneClient .init) adoption).created.filter
        (·.sessionId = 7) = [c] ∧
      Agrees oneClient () ⟨7, List.replicate 32 2, List.replicate 32 1⟩ c := by
  have hkx : SwappedKeys plainKx fun _ => True := fun c h _ _ rx tx heq => by
    cases heq
    rfl
  have hes : Along (step oneClient plainKx.manager) (Assumed fun _ => True)
      (start oneClient .init) adoption :=
    ⟨trivial, trivial, trivial, trivial, List.not_mem_nil, trivial, trivial, trivial, trivial,
      trivial, trivial⟩
  exact (key_agreement oneClient plainKx (fun _ => True) hkx (fun _ => trivial) .init hes ()).1
    ⟨7, List.replicate 32 2, List.replicate 32 1⟩ (List.mem_singleton.mpr rfl)

end Handshake

end RemotePlay.Session
