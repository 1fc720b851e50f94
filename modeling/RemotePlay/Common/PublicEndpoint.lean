import RemotePlay.Common.Stun

/-!
# Asking for the public endpoint

The two calls around the parsers. Nothing of a request is kept: an answer is
any datagram of the type Binding Success that reaches the socket in time, and
neither its cookie nor its transaction id is looked at. What a call reports
lies in a datagram it received, and is the same whatever these bytes and the
ids of the requests are (`reports_from_datagram`).
-/

namespace RemotePlay.Network.Stun

open Lib

structure StunServer where
  host : List UInt8
  port : UInt16
  deriving DecidableEq

abbrev TransactionId := Vector UInt8 12

/-- A Binding Request: no attributes. -/
def bindingRequest (transactionId : TransactionId) : List UInt8 :=
  Tlv.bytes16 0x0001 ++ [0, 0] ++ magicCookie ++ transactionId.toList

/-- What a call has done: the requests it handed to `SendTo`, and the endpoint, if it returned
true. -/
structure Discovery where
  requests : List (StunServer × TransactionId)
  publicEndpoint : Option Endpoint
  deriving DecidableEq

/-- What is read of what `ReceiveFrom` left in the buffer, if anything. -/
def received (parse : List UInt8 → Option (Option Endpoint)) :
    Option (List UInt8) → Option (Option Endpoint)
  | some buf => parse buf
  | none => some none

/-- What `GetPublicEndpoint` meets: whether there is a socket, what `SendTo` returns for the
request, and the datagram it receives. -/
structure SingleWorld where
  socket : Bool
  sendTo : List UInt8 → Int
  receiveFrom : Option (List UInt8)

def getPublicEndpoint (server : StunServer) (w : SingleWorld) : Option Discovery :=
  if w.socket then
    let transactionId : TransactionId := Vector.replicate 12 0xAC
    if w.sendTo (bindingRequest transactionId) ≤ 0 then
      some ⟨[(server, transactionId)], none⟩
    else do
      let publicEndpoint ← received parseResponse w.receiveFrom
      return ⟨[(server, transactionId)], publicEndpoint⟩
  else
    some ⟨[], none⟩

/-- What a pass of the waiting loop meets: the clock at the guard and behind it, in nanoseconds, the
random ids in case it sends again, and what it receives. -/
structure Pass where
  guardNow : Int
  now : Int
  rand : Nat → TransactionId
  receiveFrom : Option (List UInt8)

/-- `duration_cast<milliseconds>`. -/
def milliseconds (nanoseconds : Int) : Int := nanoseconds.tdiv 1000000

/-- A request to each server; what `SendTo` returns is not looked at. -/
def sendAll (servers : List StunServer) (rand : Nat → TransactionId) :
    List (StunServer × TransactionId) :=
  servers.zipIdx.map fun (server, i) => (server, rand i)

/-- The waiting loop. A call that has met no more passes has not returned yet. -/
def awaitResponse (servers : List StunServer) (start : Int) :
    Int → List Pass → Option Discovery
  | _, [] => some ⟨[], none⟩
  | lastSend, pass :: passes =>
    if milliseconds (pass.guardNow - start) < 3000 then do
      let again := decide (milliseconds (pass.now - lastSend) > 500)
      let requests := if again then sendAll servers pass.rand else []
      match ← received parseResponseParallel pass.receiveFrom with
      | some e => return ⟨requests, some e⟩
      | none => do
        let rest ← awaitResponse servers start (if again then pass.now else lastSend) passes
        return ⟨requests ++ rest.requests, rest.publicEndpoint⟩
    else
      some ⟨[], none⟩

def getPublicEndpointParallel (servers : List StunServer) (start : Int)
    (rand : Nat → TransactionId) (passes : List Pass) : Option Discovery :=
  if servers.isEmpty then some ⟨[], none⟩
  else do
    let rest ← awaitResponse servers start start passes
    return ⟨sendAll servers rand ++ rest.requests, rest.publicEndpoint⟩

/-! ## What is reported -/

/-- The datagram says in one of the attributes behind its header that the endpoint is `e`. -/
structure Answers (buf : List UInt8) (e : Endpoint) : Prop where
  header : ∃ rest, buf = Tlv.bytes16 0x0101 ++ rest ∧ 18 ≤ rest.length
  located : ∃ a ∈ Tlv.items padding (buf.drop 20), isAddress a = true ∧
    mappedEndpoint a = some e ∧ ∃ before l behind, l.toNat = a.value.length ∧
      buf.drop 20 = before ++ (Tlv.bytes16 a.type ++ Tlv.bytes16 l ++ a.value) ++ behind

theorem isAddress_of_mappedEndpoint {a : Tlv.Item} {e : Endpoint} (h : mappedEndpoint a = some e) :
    isAddress a = true := by
  by_contra hnot
  rw [mappedEndpoint_eq_none (Bool.not_eq_true _ ▸ hnot)] at h
  cases h

theorem reported_answers {buf : List UInt8} {e : Endpoint} (h : reported buf = some e) :
    Answers buf e := by
  unfold reported at h
  split at h
  · next hheader =>
    obtain ⟨h20, htype⟩ := hheader
    obtain ⟨a, ha, hmapped⟩ := List.exists_of_findSome?_eq_some h
    refine ⟨?_, a, ha, isAddress_of_mappedEndpoint hmapped, hmapped, Tlv.mem_items ha⟩
    obtain ⟨t1, t0, l1, l0, rest, rfl⟩ := exists_four buf (by omega)
    have hbe : Tlv.be16 t1 t0 = 0x0101 := Option.some.inj htype
    refine ⟨l1 :: l0 :: rest, ?_, by simpa using h20⟩
    rw [← hbe, Tlv.bytes16_be16]
    rfl
  · cases h

/-- The two datagrams differ in the cookie and the transaction id at most. -/
structure SameButIds (buf buf' : List UInt8) : Prop where
  length : buf'.length = buf.length
  front : buf'.take 4 = buf.take 4
  attributes : buf'.drop 20 = buf.drop 20

theorem reported_congr {buf buf' : List UInt8} (h : SameButIds buf buf') :
    reported buf' = reported buf := by
  have hword : ntohs buf' 0 = ntohs buf 0 := by
    have hget : ∀ i, i < 4 → buf'[i]? = buf[i]? := fun i hi => by
      rw [← List.getElem?_take_of_lt hi, h.front, List.getElem?_take_of_lt hi]
    simp only [ntohs, hget 0 (by decide), hget (0 + 1) (by decide)]
  simp only [reported, h.length, h.attributes, hword]

theorem received_parseResponse (buf : Option (List UInt8)) :
    received parseResponse buf = some (buf.bind reported) := by
  cases buf with
  | none => rfl
  | some buf => exact parseResponse_eq buf

theorem received_parseResponseParallel (buf : Option (List UInt8)) :
    received parseResponseParallel buf = some (buf.bind reported) := by
  cases buf with
  | none => rfl
  | some buf => exact parseResponseParallel_eq buf

/-- The one call reports what its datagram says, if the request went out. -/
theorem getPublicEndpoint_eq (server : StunServer) (w : SingleWorld) :
    ∃ requests, getPublicEndpoint server w = some ⟨requests,
      if w.socket = true ∧ 0 < w.sendTo (bindingRequest (Vector.replicate 12 0xAC)) then
        w.receiveFrom.bind reported
      else none⟩ := by
  unfold getPublicEndpoint
  cases w.socket with
  | false => exact ⟨_, rfl⟩
  | true =>
    by_cases hsent : w.sendTo (bindingRequest (Vector.replicate 12 0xAC)) ≤ 0
    · exact ⟨_, by simp [hsent, Int.not_lt.mpr hsent]; rfl⟩
    · exact ⟨_, by simp [hsent, Int.lt_of_not_ge hsent, received_parseResponse]; rfl⟩

/-- The passes before the three seconds are over. -/
def inTime (start : Int) (passes : List Pass) : List Pass :=
  passes.takeWhile fun pass => milliseconds (pass.guardNow - start) < 3000

/-- The loop reports what the first datagram in time says that says anything. -/
theorem awaitResponse_eq (servers : List StunServer) (start lastSend : Int) (passes : List Pass) :
    ∃ requests, awaitResponse servers start lastSend passes = some ⟨requests,
      (inTime start passes).findSome? fun pass => pass.receiveFrom.bind reported⟩ := by
  induction passes generalizing lastSend with
  | nil => exact ⟨[], rfl⟩
  | cons pass passes ih =>
    rw [awaitResponse, received_parseResponseParallel, inTime, List.takeWhile_cons]
    by_cases hguard : milliseconds (pass.guardNow - start) < 3000
    · simp only [hguard, if_true, decide_true, List.findSome?_cons]
      cases hreported : pass.receiveFrom.bind reported with
      | some e => exact ⟨_, rfl⟩
      | none =>
        obtain ⟨requests, hrest⟩ := ih (if decide (milliseconds (pass.now - lastSend) > 500) = true
          then pass.now else lastSend)
        simp only [Option.bind_eq_bind, Option.bind_some, hrest]
        exact ⟨_, rfl⟩
    · simp only [hguard, if_false, decide_false, Bool.false_eq_true]
      exact ⟨[], rfl⟩

theorem getPublicEndpointParallel_eq (servers : List StunServer) (start : Int)
    (rand : Nat → TransactionId) (passes : List Pass) :
    ∃ requests, getPublicEndpointParallel servers start rand passes = some ⟨requests,
      if servers.isEmpty then none
      else (inTime start passes).findSome? fun pass => pass.receiveFrom.bind reported⟩ := by
  unfold getPublicEndpointParallel
  cases servers.isEmpty with
  | true => exact ⟨[], rfl⟩
  | false =>
    obtain ⟨requests, hawait⟩ := awaitResponse_eq servers start start passes
    rw [hawait]
    exact ⟨_, rfl⟩

/-- The two calls meet the same but for cookies and ids. -/
def SameWorld (w w' : SingleWorld) : Prop :=
  w'.socket = w.socket ∧ w'.sendTo = w.sendTo ∧ Option.Rel SameButIds w.receiveFrom w'.receiveFrom

structure SamePass (pass pass' : Pass) : Prop where
  guardNow : pass'.guardNow = pass.guardNow
  receiveFrom : Option.Rel SameButIds pass.receiveFrom pass'.receiveFrom

theorem bind_reported_congr {buf buf' : Option (List UInt8)} (h : Option.Rel SameButIds buf buf') :
    buf'.bind reported = buf.bind reported := by
  cases h with
  | none => rfl
  | some h => exact reported_congr h

theorem findSome_congr {start : Int} {passes passes' : List Pass}
    (h : List.Forall₂ SamePass passes passes') :
    ((inTime start passes').findSome? fun pass => pass.receiveFrom.bind reported) =
      (inTime start passes).findSome? fun pass => pass.receiveFrom.bind reported := by
  induction h with
  | nil => rfl
  | cons hpass _ ih =>
    unfold inTime at ih ⊢
    rw [List.takeWhile_cons, List.takeWhile_cons, hpass.guardNow]
    split
    · rw [List.findSome?_cons, List.findSome?_cons, bind_reported_congr hpass.receiveFrom, ih]
    · rfl

/-- **What a call reports lies in a datagram it received**, as an address attribute of a Binding
Success response, and neither the cookie and the id of the datagram nor the ids that were sent have a say
in it. -/
theorem reports_from_datagram :
    (∀ server w d e, getPublicEndpoint server w = some d → d.publicEndpoint = some e →
      ∃ buf, w.receiveFrom = some buf ∧ Answers buf e) ∧
    (∀ servers start rand passes d e,
      getPublicEndpointParallel servers start rand passes = some d → d.publicEndpoint = some e →
      ∃ pass ∈ passes, ∃ buf, pass.receiveFrom = some buf ∧ Answers buf e) ∧
    (∀ server w w', SameWorld w w' →
      (getPublicEndpoint server w').map Discovery.publicEndpoint =
        (getPublicEndpoint server w).map Discovery.publicEndpoint) ∧
    ∀ servers start rand rand' passes passes', List.Forall₂ SamePass passes passes' →
      (getPublicEndpointParallel servers start rand' passes').map Discovery.publicEndpoint =
        (getPublicEndpointParallel servers start rand passes).map Discovery.publicEndpoint := by
  refine ⟨fun server w d e hd he => ?_, fun servers start rand passes d e hd he => ?_,
    fun server w w' hw => ?_, fun servers start rand rand' passes passes' hpasses => ?_⟩
  · obtain ⟨requests, heq⟩ := getPublicEndpoint_eq server w
    obtain rfl := Option.some.inj (hd.symm.trans heq)
    dsimp only at he
    split at he
    · obtain ⟨buf, hbuf, hreported⟩ := Option.bind_eq_some_iff.mp he
      exact ⟨buf, hbuf, reported_answers hreported⟩
    · cases he
  · obtain ⟨requests, heq⟩ := getPublicEndpointParallel_eq servers start rand passes
    obtain rfl := Option.some.inj (hd.symm.trans heq)
    dsimp only at he
    split at he
    · cases he
    · obtain ⟨pass, hpass, hfound⟩ := List.exists_of_findSome?_eq_some he
      obtain ⟨buf, hbuf, hreported⟩ := Option.bind_eq_some_iff.mp hfound
      exact ⟨pass, (List.takeWhile_sublist _).subset hpass, buf, hbuf, reported_answers hreported⟩
  · obtain ⟨requests, heq⟩ := getPublicEndpoint_eq server w
    obtain ⟨requests', heq'⟩ := getPublicEndpoint_eq server w'
    obtain ⟨hsocket, hsendTo, hreceived⟩ := hw
    rw [heq, heq', hsocket, hsendTo, bind_reported_congr hreceived]
    rfl
  · obtain ⟨requests, heq⟩ := getPublicEndpointParallel_eq servers start rand passes
    obtain ⟨requests', heq'⟩ := getPublicEndpointParallel_eq servers start rand' passes'
    rw [heq, heq', findSome_congr hpasses]
    rfl

def anyServer : StunServer := ⟨[0x73], 19302⟩

/-- A server answers with one address. -/
def answering : SingleWorld :=
  ⟨true, fun bs => bs.length, some (bindingSuccess (Vector.replicate 12 0xAC) [mapped])⟩

theorem reports_from_answer :
    ∃ buf, answering.receiveFrom = some buf ∧ Answers buf ⟨inetNtop [192, 0, 2, 1], 32853⟩ := by
  have hreported : reported (bindingSuccess (Vector.replicate 12 0xAC) [mapped]) =
      some ⟨inetNtop [192, 0, 2, 1], 32853⟩ :=
    reported_bindingSuccess (Vector.replicate 12 0xAC) rfl
      (show Encodes mapped.toItem #v[192, 0, 2, 1] 32853 from .xorMapped 0 [] rfl (by decide))
  obtain ⟨requests, heq⟩ := getPublicEndpoint_eq anyServer answering
  refine reports_from_datagram.1 anyServer answering _ _ heq ?_
  rw [← hreported]
  rfl

/-! ## A datagram that nobody asked for -/

/-- Binding Success with no cookie, no id and a declared length of nothing. -/
def forged : List UInt8 :=
  [0x01, 0x01, 0, 0] ++ List.replicate 16 0 ++ [0x00, 0x01, 0, 8, 0, 1, 0x02, 0x9A, 6, 6, 6, 6]

theorem parseResponse_forged :
    parseResponse forged = some (some ⟨inetNtop [6, 6, 6, 6], 666⟩) := by
  rw [parseResponse_eq]
  have hitems : Tlv.items padding (forged.drop 20) =
      [⟨0x0001, [0, 1, 0x02, 0x9A, 6, 6, 6, 6]⟩] := by
    have hnext : Tlv.next padding (forged.drop 20) =
        some (⟨0x0001, [0, 1, 0x02, 0x9A, 6, 6, 6, 6]⟩, []) := rfl
    rw [Tlv.items_of_next hnext, Tlv.items_of_none rfl]
  have hheader : 20 ≤ forged.length ∧ ntohs forged 0 = some 0x0101 := by decide
  rw [reported, if_pos hheader, hitems]
  rfl

/-- The datagram lacks the cookie, and has the id of none of the requests. -/
def Unasked (requests : List (StunServer × TransactionId)) (buf : List UInt8) : Prop :=
  (buf.drop 4).take 4 ≠ magicCookie ∧
    ∀ request ∈ requests, request.2.toList ≠ (buf.drop 8).take 12

/-- Both calls report the endpoint that the datagram names. -/
theorem forged_reported :
    (∃ d, getPublicEndpoint anyServer ⟨true, fun bs => bs.length, some forged⟩ = some d ∧
      d.publicEndpoint = some ⟨inetNtop [6, 6, 6, 6], 666⟩ ∧ Unasked d.requests forged) ∧
    ∃ d, getPublicEndpointParallel [anyServer] 0 (fun _ => Vector.replicate 12 7)
        [⟨0, 0, fun _ => Vector.replicate 12 8, some forged⟩] = some d ∧
      d.publicEndpoint = some ⟨inetNtop [6, 6, 6, 6], 666⟩ ∧ Unasked d.requests forged := by
  have hcookie : (forged.drop 4).take 4 ≠ magicCookie := by decide
  have hparallel : parseResponseParallel forged = some (some ⟨inetNtop [6, 6, 6, 6], 666⟩) := by
    rw [parseResponseParallel_eq, ← parseResponse_eq, parseResponse_forged]
  refine ⟨⟨⟨[(anyServer, Vector.replicate 12 0xAC)], some ⟨inetNtop [6, 6, 6, 6], 666⟩⟩, ?_, rfl,
    hcookie, ?_⟩, ⟨[(anyServer, Vector.replicate 12 7)],
      some ⟨inetNtop [6, 6, 6, 6], 666⟩⟩, ?_, rfl, hcookie, ?_⟩
  · simp only [getPublicEndpoint, received, parseResponse_forged]
    rfl
  · exact List.forall_mem_singleton.mpr (by decide)
  · simp only [getPublicEndpointParallel, awaitResponse, received, hparallel]
    rfl
  · exact List.forall_mem_singleton.mpr (by decide)

end RemotePlay.Network.Stun
