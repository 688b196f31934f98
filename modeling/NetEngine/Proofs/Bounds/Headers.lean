import NetEngine.Interface
import NetEngine.Proofs.Bounds.Guarded
import NetEngine.Proofs.Link.Datagrams

/-! # Headers Are Read Inside

    Every header is checked for its length before a field of it is read, and what is
    told by a field is compared before it is used.  So the headers of a frame are
    read as they are without a guard, whatever octets they are made of.

    * **Ethernet**, **Address resolution**: headers of a fixed length.
    * **Internet datagrams**: the header tells its own length, and the length of the
      datagram.
    * **Control messages**: the message may be cut short. -/

namespace NetEngine

open Guarded

/-- What passes a check for a length has it. -/
theorem length_of_check {b : Bytes} {n : Nat}
    (checked : (if b.length < n then .error .truncated else .ok () : Except PacketError Unit) =
      .ok ()) : n ≤ b.length := by
  by_cases hshort : b.length < n
  · rw [if_pos hshort] at checked
    cases checked
  · exact Nat.not_lt.mp hshort

/-! ## Ethernet -/

namespace Ethernet.Header

/-- Read the header of a frame. -/
def parse? (f : View) : Guarded Header := do
  of f.check
  let src ← field? f 6 6 .readAt
  let dst ← field? f 0 6 .readAt
  let code ← field? f 12 2 wordAt
  return { src := src, dst := dst, etherType := .ofCode code }

theorem parse?_eq (f : View) : parse? f = of (parse f) := by
  unfold parse? parse
  apply of_bind_congr
  intro _ hcheck
  have hlong : 14 ≤ f.length := length_of_check hcheck
  simp (disch := omega) only [field?_of_le, pure_bind]
  rfl

end Ethernet.Header

/-! ## Address resolution -/

namespace Arp.Packet

/-- Read a packet. -/
def parse? (p : View) : Guarded Packet := do
  of p.check
  let hardware ← field? p 0 2 wordAt
  let protocol ← field? p 2 2 wordAt
  let hardwareLen ← field? p 4 1 byteAt
  let protocolLen ← field? p 5 1 byteAt
  let operation := Operation.ofCode (← field? p 6 2 wordAt)
  if Hardware.ofCode hardware = .ethernet ∧ EtherType.ofCode protocol = .ipv4 ∧ hardwareLen = 6 ∧
      protocolLen = 4 ∧ (operation = .request ∨ operation = .reply) then do
    let srcHardware ← field? p 8 6 .readAt
    let srcProtocol ← field? p 14 4 .readAt
    let dstHardware ← field? p 18 6 .readAt
    let dstProtocol ← field? p 24 4 .readAt
    return ⟨operation, srcHardware, srcProtocol, dstHardware, dstProtocol⟩
  else throw .unrecognized

theorem parse?_eq (p : View) : parse? p = of (parse p) := by
  unfold parse? parse
  apply of_bind_congr
  intro _ hcheck
  have hlong : 28 ≤ p.length := length_of_check hcheck
  simp (disch := omega) only [field?_of_le, pure_bind]
  rw [of_ite]
  rfl

end Arp.Packet

/-! ## Internet datagrams -/

namespace Ipv4.View

def headerLen? (p : View) : Guarded Nat := do
  let octet ← field? p 0 1 byteAt
  return octet.toNat % 16 * 4

def totalLen? (p : View) : Guarded Nat := do
  let word ← field? p 2 2 wordAt
  return word.toNat

def moreFragments? (p : View) : Guarded Bool := do
  let word ← field? p 6 2 wordAt
  return word.toNat / 8192 % 2 = 1

def fragmentOffset? (p : View) : Guarded UInt16 := do
  let word ← field? p 6 2 wordAt
  return UInt16.ofNat (word.toNat * 8)

/-- Is the header there as a whole, and are its lengths possible? -/
def check? (p : View) : Guarded Unit :=
  if p.length < Ipv4.headerLen then throw .truncated
  else do
    let headerLen ← p.headerLen?
    if headerLen < Ipv4.headerLen then throw .malformed
    else if p.length < headerLen then throw .truncated
    else do
      let totalLen ← p.totalLen?
      if totalLen < headerLen then throw .malformed else return ()

/-- Does the header checksum add up? -/
def verifyChecksum? (p : View) : Guarded Bool := do
  let headerLen ← p.headerLen?
  let header ← upTo? p headerLen
  return Checksum.isIntact header

variable {p : View}

theorem headerLen?_of_long (long : 1 ≤ p.length) : p.headerLen? = pure p.headerLen := by
  unfold headerLen?
  rw [field?_of_le long, pure_bind]
  rfl

theorem totalLen?_of_long (long : 4 ≤ p.length) : p.totalLen? = pure p.totalLen := by
  unfold totalLen?
  rw [field?_of_le long, pure_bind]
  rfl

theorem moreFragments?_of_long (long : 8 ≤ p.length) :
    p.moreFragments? = pure p.moreFragments := by
  unfold moreFragments?
  rw [field?_of_le long, pure_bind]
  rfl

theorem fragmentOffset?_of_long (long : 8 ≤ p.length) :
    p.fragmentOffset? = pure p.fragmentOffset := by
  unfold fragmentOffset?
  rw [field?_of_le long, pure_bind]
  rfl

theorem check?_eq (p : View) : p.check? = of p.check := by
  unfold check? check
  rw [of_ite]
  by_cases hshort : p.length < Ipv4.headerLen
  · rw [if_pos hshort, if_pos hshort]
    rfl
  · have hlong : 20 ≤ p.length := Nat.not_lt.mp hshort
    rw [if_neg hshort, if_neg hshort, headerLen?_of_long (by omega), totalLen?_of_long (by omega)]
    simp only [pure_bind, of_ite]
    rfl

theorem verifyChecksum?_of_checked (checked : p.check = .ok ()) :
    p.verifyChecksum? = pure p.verifyChecksum := by
  obtain ⟨hlong, hthere, -⟩ := check_eq_ok checked
  unfold Ipv4.headerLen at hlong
  unfold verifyChecksum?
  rw [headerLen?_of_long (by omega), pure_bind, upTo?_of_le hthere, pure_bind]
  rfl

end Ipv4.View

namespace Ipv4.Header

/-- Read the header of a datagram. -/
def parse? (p : View) (mode : Checksum.Mode) : Guarded Header := do
  p.check?
  let octet ← field? p 0 1 byteAt
  if octet.toNat / 16 ≠ 4 then throw .unrecognized
  else do
    let intact ← if mode = .manual then p.verifyChecksum? else pure true
    if ¬ intact then throw .wrongChecksum
    else do
      let moreFragments ← p.moreFragments?
      let fragmentOffset ← p.fragmentOffset?
      if moreFragments ∨ fragmentOffset ≠ 0 then throw .unsupported
      else do
        let totalLen ← p.totalLen?
        let headerLen ← p.headerLen?
        let payloadLen ← minus? totalLen headerLen
        let src ← field? p 12 4 .readAt
        let dst ← field? p 16 4 .readAt
        let protocol ← field? p 9 1 byteAt
        let hopLimit ← field? p 8 1 byteAt
        return ⟨src, dst, .ofCode protocol, payloadLen, hopLimit⟩

theorem parse?_eq (p : View) (mode : Checksum.Mode) : parse? p mode = of (parse p mode) := by
  unfold parse? parse
  rw [View.check?_eq]
  apply of_bind_congr
  intro _ hcheck
  -- The check bounds the header and the difference of the two lengths.
  obtain ⟨hlong, hthere, htotal⟩ := View.check_eq_ok hcheck
  unfold headerLen at hlong
  simp (disch := omega) only [field?_of_le, View.headerLen?_of_long, View.totalLen?_of_long,
    View.moreFragments?_of_long, View.fragmentOffset?_of_long, minus?_of_le,
    View.verifyChecksum?_of_checked hcheck, pure_bind, of_ite]
  cases mode with
  | manual =>
    simp only [if_true, true_and]
    rfl
  | ignored =>
    simp only [reduceCtorEq, if_false, false_and, not_true_eq_false]
    rfl

end Ipv4.Header

/-- Read the header of a datagram, and tell in what capacity it reaches us. -/
def Interface.classify? (i : Interface) (p : Ipv4.View) (c : ChecksumSet) :
    Guarded (Ipv4.Header × Destination) :=
  if !c.ipv4 then throw .wrongChecksum
  else do
    let h ← Ipv4.Header.parse? p .manual
    match h.protocol with
    | .unknown _ => throw .unrecognized
    | _ => return (h, i.addresses.classify h.dst)

theorem Interface.classify?_eq (i : Interface) (p : Ipv4.View) (c : ChecksumSet) :
    i.classify? p c = of (i.classify p c) := by
  unfold classify? classify
  rw [of_ite, Ipv4.Header.parse?_eq]
  congr 1
  apply of_bind_congr
  intro h _
  cases h.protocol <;> rfl

/-! ## Control messages -/

/-- Read a message. -/
def Icmp.Echo.parse? (m : Icmp.View) (mode : Checksum.Mode) : Guarded Icmp.Echo := do
  of m.check
  if mode = .manual ∧ ¬ m.verifyChecksum then throw .wrongChecksum
  else do
    let kind := Icmp.Kind.ofCode (← field? m 0 1 byteAt)
    let code ← field? m 1 1 byteAt
    if kind = .echoRequest ∧ code = 0 then do
      let ident ← field? m 4 2 wordAt
      let seqNo ← field? m 6 2 wordAt
      return .request ident seqNo
    else if kind = .echoReply ∧ code = 0 then do
      let ident ← field? m 4 2 wordAt
      let seqNo ← field? m 6 2 wordAt
      return .reply ident seqNo
    else throw .unrecognized

theorem Icmp.Echo.parse?_eq (m : Icmp.View) (mode : Checksum.Mode) :
    Icmp.Echo.parse? m mode = of (Icmp.Echo.parse m mode) := by
  unfold parse? parse
  apply of_bind_congr
  intro _ hcheck
  have hlong : 8 ≤ m.length := length_of_check hcheck
  simp (disch := omega) only [field?_of_le, pure_bind, of_ite]
  rfl

end NetEngine
