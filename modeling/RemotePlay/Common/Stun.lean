import RemotePlay.Common.NetworkManager
import RemotePlay.Lib.Tlv

/-!
# STUN

The public endpoint as a STUN server reports it. `GetPublicEndpoint` asks one
server and takes one datagram for its answer; `GetPublicEndpointParallel` asks
several and takes the first datagram of three seconds that reads as an answer.
Each has a loop of its own over the attributes. A read beyond what was received
makes a loop fail (`none`), and neither does: both find the first address
among the items of the datagram (`findEndpoint_eq`, `findEndpointParallel_eq`).
-/

namespace RemotePlay.Network.Stun

open Lib

/-! ## Words of the datagram -/

/-- `ntohs(*(uint16_t*)(buf + i))`, below the received length. -/
def ntohs (buf : List UInt8) (i : Nat) : Option UInt16 := do
  let hi ← buf[i]?
  let lo ← buf[i + 1]?
  return Tlv.be16 hi lo

/-- The four bytes of a `struct in_addr` at `i`. -/
def inAddr (buf : List UInt8) (i : Nat) : Option (List UInt8) := do
  let a ← buf[i]?
  let b ← buf[i + 1]?
  let c ← buf[i + 2]?
  let d ← buf[i + 3]?
  return [a, b, c, d]

/-- `htonl(0x2112A442)` in memory. -/
def magicCookie : List UInt8 := [0x21, 0x12, 0xA4, 0x42]

def xorCookie (addr : List UInt8) : List UInt8 := List.zipWith (· ^^^ ·) addr magicCookie

def decimal (b : UInt8) : List UInt8 := (Nat.toDigits 10 b.toNat).map fun c => UInt8.ofNat c.toNat

/-- `inet_ntop(AF_INET, ..)`: four decimal numbers with dots between. -/
def inetNtop (addr : List UInt8) : List UInt8 := List.intercalate [0x2E] (addr.map decimal)

/-! ## The two loops -/

/-- STUN attributes are padded to 4-byte boundaries. -/
def padding (attrLen : Nat) : Nat := if attrLen % 4 ≠ 0 then 4 - attrLen % 4 else 0

/-- The loop of `GetPublicEndpoint`. -/
def findEndpoint (buf : List UInt8) (offset : Nat) : Option (Option Endpoint) :=
  if hfits : offset + 4 ≤ buf.length then do
    let guardLen ← ntohs buf (offset + 2)
    if offset + 4 + guardLen.toNat ≤ buf.length then
      let attrType ← ntohs buf offset
      let attrLen ← ntohs buf (offset + 2)
      if attrType = 0x0001 ∧ 8 ≤ attrLen.toNat then
        let port ← ntohs buf (offset + 6)
        let addr ← inAddr buf (offset + 8)
        return some ⟨inetNtop addr, port⟩
      else if attrType = 0x0020 ∧ 8 ≤ attrLen.toNat then
        let word ← ntohs buf (offset + 6)
        let xPort := word ^^^ 0x2112
        let addr ← inAddr buf (offset + 8)
        let xIp := xorCookie addr
        return some ⟨inetNtop xIp, xPort⟩
      else
        findEndpoint buf (offset + 4 + attrLen.toNat + padding attrLen.toNat)
    else
      return none
  else
    return none
termination_by buf.length - offset

/-- The loop of `GetPublicEndpointParallel`. -/
def findEndpointParallel (buf : List UInt8) (offset : Nat) : Option (Option Endpoint) :=
  if hfits : offset + 4 ≤ buf.length then do
    let attrType ← ntohs buf offset
    let attrLen ← ntohs buf (offset + 2)
    if offset + 4 + attrLen.toNat > buf.length then
      return none
    if attrType = 0x0001 ∧ 8 ≤ attrLen.toNat then
      let publicPort ← ntohs buf (offset + 6)
      let addr ← inAddr buf (offset + 8)
      return some ⟨inetNtop addr, publicPort⟩
    else if attrType = 0x0020 ∧ 8 ≤ attrLen.toNat then
      let word ← ntohs buf (offset + 6)
      let publicPort := word ^^^ 0x2112
      let addr ← inAddr buf (offset + 8)
      let xIp := xorCookie addr
      return some ⟨inetNtop xIp, publicPort⟩
    else
      findEndpointParallel buf (offset + 4 + attrLen.toNat + padding attrLen.toNat)
  else
    return none
termination_by buf.length - offset

/-- A received datagram, up to the loop, in `GetPublicEndpoint`. -/
def parseResponse (buf : List UInt8) : Option (Option Endpoint) :=
  if 20 ≤ buf.length then do
    let type ← ntohs buf 0
    if type = 0x0101 then
      let length ← ntohs buf 2
      -- the clamped length of the payload is not used from here on
      let _payloadLen := if 20 + length.toNat > buf.length then buf.length - 20 else length.toNat
      findEndpoint buf 20
    else
      return none
  else
    return none

/-- The same in `GetPublicEndpointParallel`. -/
def parseResponseParallel (buf : List UInt8) : Option (Option Endpoint) :=
  if 20 ≤ buf.length then do
    let type ← ntohs buf 0
    if type = 0x0101 then
      let length ← ntohs buf 2
      let _payloadLen := if 20 + length.toNat > buf.length then buf.length - 20 else length.toNat
      findEndpointParallel buf 20
    else
      return none
  else
    return none

/-! ## Both loops read the items -/

theorem ntohs_drop (buf : List UInt8) (offset k : Nat) :
    ntohs buf (offset + k) = ntohs (buf.drop offset) k := by
  simp only [ntohs, List.getElem?_drop, Nat.add_assoc]

theorem inAddr_drop (buf : List UInt8) (offset k : Nat) :
    inAddr buf (offset + k) = inAddr (buf.drop offset) k := by
  simp only [inAddr, List.getElem?_drop, Nat.add_assoc]

/-- A word that was received can be read. -/
theorem ntohs_of_le (buf : List UInt8) (i : Nat) (h : i + 2 ≤ buf.length) :
    ∃ w, ntohs buf i = some w := by
  have hhi : i < buf.length := by omega
  have hlo : i + 1 < buf.length := by omega
  refine ⟨Tlv.be16 buf[i] buf[i + 1], ?_⟩
  rw [ntohs, List.getElem?_eq_getElem hhi, List.getElem?_eq_getElem hlo]
  rfl

/-- The loops differ in the order of reads and checks only. -/
theorem findEndpointParallel_eq (buf : List UInt8) (offset : Nat) :
    findEndpointParallel buf offset = findEndpoint buf offset := by
  induction hm : buf.length - offset using Nat.strongRecOn generalizing offset with
  | _ m ih =>
    rw [findEndpoint, findEndpointParallel]
    by_cases hfits : offset + 4 ≤ buf.length
    · obtain ⟨attrType, htype⟩ := ntohs_of_le buf offset (by omega)
      obtain ⟨attrLen, hlen⟩ := ntohs_of_le buf (offset + 2) (by omega)
      have hnext := ih _ (by omega) (offset + 4 + attrLen.toNat + padding attrLen.toNat) rfl
      by_cases hle : offset + 4 + attrLen.toNat ≤ buf.length
      · simp [hfits, htype, hlen, hle, hnext, Nat.not_lt.mpr hle]
      · simp [hfits, htype, hlen, hle, Nat.lt_of_not_le hle]
    · rw [dif_neg hfits, dif_neg hfits]

/-- What an address attribute says. -/
def mappedEndpoint (a : Tlv.Item) : Option Endpoint :=
  match a.value with
  | _ :: _ :: p1 :: p0 :: a0 :: a1 :: a2 :: a3 :: _ =>
    if a.type = 0x0001 then some ⟨inetNtop [a0, a1, a2, a3], Tlv.be16 p1 p0⟩
    else if a.type = 0x0020 then
      some ⟨inetNtop (xorCookie [a0, a1, a2, a3]), Tlv.be16 p1 p0 ^^^ 0x2112⟩
    else none
  | _ => none

theorem mappedEndpoint_short {a : Tlv.Item} (h : a.value.length < 8) : mappedEndpoint a = none := by
  unfold mappedEndpoint
  split
  · next hvalue =>
    rw [hvalue] at h
    simp only [List.length_cons] at h
    omega
  · rfl

theorem exists_four (bs : List UInt8) (h : 4 ≤ bs.length) :
    ∃ a b c d rest, bs = a :: b :: c :: d :: rest := by
  match bs with
  | [] | [_] | [_, _] | [_, _, _] => simp at h
  | a :: b :: c :: d :: rest => exact ⟨a, b, c, d, rest, rfl⟩

/-- An attribute of eight bytes or more, of which the loop reads six. -/
theorem mappedEndpoint_long {buf : List UInt8} {offset : Nat} {t1 t0 l1 l0 : UInt8}
    {tail : List UInt8} (hbs : buf.drop offset = t1 :: t0 :: l1 :: l0 :: tail) {n : Nat}
    (hn : 8 ≤ n) (hle : n ≤ tail.length) :
    ∃ port addr, ntohs buf (offset + 6) = some port ∧ inAddr buf (offset + 8) = some addr ∧
      ∀ type, mappedEndpoint ⟨type, tail.take n⟩ =
        if type = 0x0001 then some ⟨inetNtop addr, port⟩
        else if type = 0x0020 then some ⟨inetNtop (xorCookie addr), port ^^^ 0x2112⟩
        else none := by
  obtain ⟨r, f, p1, p0, rest, rfl⟩ := exists_four tail (by omega)
  obtain ⟨a0, a1, a2, a3, more, rfl⟩ :=
    exists_four rest (by simp only [List.length_cons] at hle; omega)
  obtain ⟨m, rfl⟩ := Nat.exists_eq_add_of_le' hn
  refine ⟨Tlv.be16 p1 p0, [a0, a1, a2, a3], ?_, ?_, fun type => ?_⟩
  · rw [ntohs_drop, hbs]
    rfl
  · rw [inAddr_drop, hbs]
    rfl
  · rfl

/-- The loop finds the first address among the items. -/
theorem findEndpoint_eq (buf : List UInt8) (offset : Nat) :
    findEndpoint buf offset =
      some ((Tlv.items padding (buf.drop offset)).findSome? mappedEndpoint) := by
  induction hm : buf.length - offset using Nat.strongRecOn generalizing offset with
  | _ m ih =>
    have hlength : (buf.drop offset).length = buf.length - offset := List.length_drop
    rw [findEndpoint]
    by_cases hfits : offset + 4 ≤ buf.length
    swap
    · rw [dif_neg hfits, Tlv.items_of_none (Tlv.next_short (by omega))]
      rfl
    obtain ⟨t1, t0, l1, l0, tail, hbs⟩ := exists_four (buf.drop offset) (by omega)
    have htype : ntohs buf offset = some (Tlv.be16 t1 t0) := by
      have h := ntohs_drop buf offset 0
      rw [hbs] at h
      exact h
    have hlen : ntohs buf (offset + 2) = some (Tlv.be16 l1 l0) := by
      rw [ntohs_drop, hbs]
      rfl
    rw [hbs, List.length_cons, List.length_cons, List.length_cons, List.length_cons] at hlength
    rw [dif_pos hfits, hbs, htype, hlen]
    simp only [Option.bind_eq_bind, Option.bind_some]
    generalize hn : (Tlv.be16 l1 l0).toNat = n
    have hitems := Tlv.next_cons padding t1 t0 l1 l0 tail
    rw [hn] at hitems
    by_cases hle : offset + 4 + n ≤ buf.length
    swap
    · rw [if_neg hle, Tlv.items_of_none (hitems.trans (if_neg (by omega)))]
      rfl
    have hdrop : tail.drop (n + padding n) = buf.drop (offset + 4 + n + padding n) := by
      have hfront : tail.drop (n + padding n) = (buf.drop offset).drop (n + padding n + 4) := by
        rw [hbs]
        rfl
      rw [hfront, List.drop_drop]
      congr 1
      omega
    have hnext := ih _ (by omega) (offset + 4 + n + padding n) rfl
    rw [if_pos hle, Tlv.items_of_next (hitems.trans (if_pos (by omega))), List.findSome?_cons,
      hdrop, hnext]
    by_cases h8 : 8 ≤ n
    · obtain ⟨port, addr, hport, haddr, hmapped⟩ := mappedEndpoint_long hbs h8 (by omega)
      rw [hmapped, hport, haddr]
      by_cases h1 : Tlv.be16 t1 t0 = 0x0001
      · simp [h1, h8]
      · by_cases h2 : Tlv.be16 t1 t0 = 0x0020
        · simp [h2, h8]
        · simp [h1, h2]
    · rw [mappedEndpoint_short (by simp; omega)]
      simp [h8]

/-! ## Answers of a server -/

/-- An attribute in which the loops look for an address. -/
def isAddress (a : Tlv.Item) : Bool :=
  (a.type = 0x0001 || a.type = 0x0020) && 8 ≤ a.value.length

/-- The attribute says that the endpoint is `addr` and `port`. -/
inductive Encodes (a : Tlv.Item) (addr : Vector UInt8 4) (port : UInt16) : Prop where
  | mapped (reserved : UInt8) (more : List UInt8) (type : a.type = 0x0001)
      (value : a.value = [reserved, 0x01] ++ Tlv.bytes16 port ++ addr.toList ++ more)
  | xorMapped (reserved : UInt8) (more : List UInt8) (type : a.type = 0x0020)
      (value : a.value =
        [reserved, 0x01] ++ Tlv.bytes16 (port ^^^ 0x2112) ++ xorCookie addr.toList ++ more)

def attributeBytes (attrs : List (Tlv.Padded padding)) : List UInt8 :=
  attrs.flatMap Tlv.Padded.encode

/-- A Binding Success response. -/
def bindingSuccess (transactionId : Vector UInt8 12) (attrs : List (Tlv.Padded padding)) :
    List UInt8 :=
  Tlv.bytes16 0x0101 ++ Tlv.bytes16 (UInt16.ofNat (attributeBytes attrs).length) ++ magicCookie ++
    transactionId.toList ++ attributeBytes attrs

theorem mappedEndpoint_eq_none {a : Tlv.Item} (h : isAddress a = false) :
    mappedEndpoint a = none := by
  by_cases h8 : a.value.length < 8
  · exact mappedEndpoint_short h8
  · have htypes : ¬ a.type = 0x0001 ∧ ¬ a.type = 0x0020 := by
      simpa [isAddress, Nat.not_lt.mp h8] using h
    unfold mappedEndpoint
    split
    · rw [if_neg htypes.1, if_neg htypes.2]
    · rfl

/-- Attributes of other kinds are skipped. -/
theorem findSome_mappedEndpoint {items : List Tlv.Item} {a : Tlv.Item} {e : Endpoint}
    (h : items.find? isAddress = some a) (ha : mappedEndpoint a = some e) :
    items.findSome? mappedEndpoint = some e := by
  induction items with
  | nil => cases h
  | cons b items ih =>
    rw [List.findSome?_cons]
    cases hb : isAddress b with
    | true =>
      rw [List.find?_cons_of_pos hb] at h
      cases h
      rw [ha]
    | false =>
      rw [List.find?_cons_of_neg (by rw [hb]; exact Bool.false_ne_true)] at h
      rw [mappedEndpoint_eq_none hb]
      exact ih h

theorem toList_four (addr : Vector UInt8 4) : ∃ a b c d, addr.toList = [a, b, c, d] := by
  obtain ⟨a, b, c, d, rest, hlist⟩ := exists_four addr.toList (by simp)
  have hlen : (a :: b :: c :: d :: rest).length = 4 := by rw [← hlist, Vector.length_toList]
  obtain rfl : rest = [] := List.length_eq_zero_iff.mp (by simpa using hlen)
  exact ⟨a, b, c, d, hlist⟩

theorem xorCookie_xorCookie (addr : Vector UInt8 4) :
    xorCookie (xorCookie addr.toList) = addr.toList := by
  obtain ⟨a, b, c, d, hlist⟩ := toList_four addr
  rw [hlist]
  simp only [xorCookie, magicCookie, List.zipWith_cons_cons, List.zipWith_nil_left,
    UInt8.xor_assoc, UInt8.xor_self, UInt8.xor_zero]

theorem mappedEndpoint_encodes {a : Tlv.Item} {addr : Vector UInt8 4} {port : UInt16}
    (h : Encodes a addr port) : mappedEndpoint a = some ⟨inetNtop addr.toList, port⟩ := by
  have hxor := xorCookie_xorCookie addr
  obtain ⟨a0, a1, a2, a3, hlist⟩ := toList_four addr
  cases h with
  | mapped reserved more type value =>
    rw [hlist] at value ⊢
    have hport := Tlv.be16_bytes16 port
    simp only [mappedEndpoint, value, type, Tlv.bytes16, List.cons_append, List.nil_append,
      if_true, hport]
  | xorMapped reserved more type value =>
    rw [hlist] at value hxor ⊢
    have hport := Tlv.be16_bytes16 (port ^^^ 0x2112)
    have hback : port ^^^ 0x2112 ^^^ 0x2112 = port := by
      rw [UInt16.xor_assoc, UInt16.xor_self, UInt16.xor_zero]
    have hne : ¬ a.type = 0x0001 := by
      rw [type]
      decide
    simp only [xorCookie, magicCookie, List.zipWith_cons_cons, List.zipWith_nil_left] at value hxor
    simp only [mappedEndpoint, value, Tlv.bytes16, List.cons_append, List.nil_append, hport, hback,
      xorCookie, magicCookie, List.zipWith_cons_cons, List.zipWith_nil_left, hxor]
    rw [if_neg hne, if_pos type]

/-! ## What a datagram says -/

/-- The endpoint a datagram is taken to report: the first address in a Binding Success response. -/
def reported (buf : List UInt8) : Option Endpoint :=
  if 20 ≤ buf.length ∧ ntohs buf 0 = some 0x0101 then
    (Tlv.items padding (buf.drop 20)).findSome? mappedEndpoint
  else none

theorem parseResponse_eq (buf : List UInt8) : parseResponse buf = some (reported buf) := by
  unfold parseResponse reported
  by_cases h20 : 20 ≤ buf.length
  · obtain ⟨type, htype⟩ := ntohs_of_le buf 0 (by omega)
    obtain ⟨length, hlength⟩ := ntohs_of_le buf 2 (by omega)
    rw [htype, hlength]
    simp only [Option.bind_eq_bind, Option.bind_some, Option.some.injEq, h20, true_and, if_true]
    split
    · exact findEndpoint_eq buf 20
    · rfl
  · simp only [h20, false_and, if_false]
    rfl

theorem parseResponseParallel_eq (buf : List UInt8) :
    parseResponseParallel buf = some (reported buf) := by
  rw [← parseResponse_eq]
  unfold parseResponse parseResponseParallel
  simp only [findEndpointParallel_eq]

theorem reported_bindingSuccess (transactionId : Vector UInt8 12)
    {attrs : List (Tlv.Padded padding)} {a : Tlv.Item} {addr : Vector UInt8 4} {port : UInt16}
    (hfirst : (attrs.map Tlv.Padded.toItem).find? isAddress = some a) (ha : Encodes a addr port) :
    reported (bindingSuccess transactionId attrs) = some ⟨inetNtop addr.toList, port⟩ := by
  have hdrop : (bindingSuccess transactionId attrs).drop 20 = attributeBytes attrs := by
    unfold bindingSuccess
    exact List.drop_left' (by simp [Tlv.bytes16, magicCookie])
  have hlength : 20 ≤ (bindingSuccess transactionId attrs).length := by
    simp [bindingSuccess, Tlv.bytes16, magicCookie]
  rw [reported, if_pos ⟨hlength, rfl⟩, hdrop, attributeBytes, Tlv.items_encode]
  exact findSome_mappedEndpoint hfirst (mappedEndpoint_encodes ha)

/-- **Both parsers end, stay inside the datagram and agree**, and of a Binding Success response they
give the endpoint that the first address attribute encodes. -/
theorem responses_parsed_alike :
    (∀ buf offset, ∃ result, findEndpoint buf offset = some result ∧
      findEndpointParallel buf offset = some result) ∧
    (∀ buf, ∃ result, parseResponse buf = some result ∧
      parseResponseParallel buf = some result) ∧
    ∀ (transactionId : Vector UInt8 12) (attrs : List (Tlv.Padded padding)) (a : Tlv.Item)
      (addr : Vector UInt8 4) (port : UInt16),
      (attrs.map Tlv.Padded.toItem).find? isAddress = some a → Encodes a addr port →
      parseResponse (bindingSuccess transactionId attrs) =
        some (some ⟨inetNtop addr.toList, port⟩) ∧
      parseResponseParallel (bindingSuccess transactionId attrs) =
        some (some ⟨inetNtop addr.toList, port⟩) := by
  refine ⟨fun buf offset => ?_, fun buf => ?_, fun transactionId attrs a addr port hfirst ha => ?_⟩
  · exact ⟨_, findEndpoint_eq buf offset,
      (findEndpointParallel_eq buf offset).trans (findEndpoint_eq buf offset)⟩
  · exact ⟨_, parseResponse_eq buf, parseResponseParallel_eq buf⟩
  · have h := reported_bindingSuccess transactionId hfirst ha
    rw [parseResponse_eq, parseResponseParallel_eq, h]
    exact ⟨rfl, rfl⟩

/-- A SOFTWARE attribute of five bytes, and the mapped address behind its padding. -/
def software : Tlv.Padded padding :=
  ⟨⟨0x8022, [0x61, 0x62, 0x63, 0x64, 0x65]⟩, by decide, [0, 0, 0], by decide⟩

def mapped : Tlv.Padded padding :=
  ⟨⟨0x0020, [0, 1, 0xA1, 0x47, 0xE1, 0x12, 0xA6, 0x43]⟩, by decide, [], by decide⟩

theorem responses_parsed_alike_software :
    parseResponse (bindingSuccess (Vector.replicate 12 0xAC) [software, mapped]) =
      some (some ⟨inetNtop [192, 0, 2, 1], 32853⟩) ∧
    parseResponseParallel (bindingSuccess (Vector.replicate 12 0xAC) [software, mapped]) =
      some (some ⟨inetNtop [192, 0, 2, 1], 32853⟩) :=
  responses_parsed_alike.2.2 _ [software, mapped] mapped.toItem #v[192, 0, 2, 1] 32853 (by decide)
    (.xorMapped 0 [] rfl (by decide))

example : inetNtop [192, 0, 2, 1] = "192.0.2.1".toList.map fun c => UInt8.ofNat c.toNat := by
  decide

end RemotePlay.Network.Stun
