import NetEngine.Proofs.Checksum.Streaming
import NetEngine.Proofs.Link.Checking
import NetEngine.Proofs.Udp.Header

/-! # User Datagrams Are Read as They Were Written

    Three lengths meet in a user datagram: that of the octets at hand, that of its
    length field, and that of the datagram which carries it.  The length field is
    the one that counts, and the others must not be shorter where it matters.

    * **Covering**: the octets that the checksum is about, with those of the pseudo
      header in front.
    * **Reading**: what the octets of a header that is read have to be.  The field
      zero says that there is no checksum.
    * **Writing**: the checksum is written over header and payload.  It is never
      zero, and what follows the payload does not matter. -/

namespace NetEngine

open Checksum (OnesSum)

/-! ## Covering -/

/-- The octets of the pseudo header. -/
def Ipv4.pseudoOctets (src dst : Ipv4Address) (protocol : IpProtocol) (len : UInt16) : Bytes :=
  src.toBytes ++ dst.toBytes ++ ([0, protocol.code] ++ ofWord len)

theorem Ipv4.pseudoHeader_eq_ofBytes (src dst : Ipv4Address) (protocol : IpProtocol)
    (len : UInt16) :
    pseudoHeader src dst protocol len = Checksum.ofBytes (pseudoOctets src dst protocol len) := by
  let parts : List Bytes := [src.toBytes, dst.toBytes, [0, protocol.code] ++ ofWord len]
  have hflatten : parts.flatten = pseudoOctets src dst protocol len := by
    simp [parts, pseudoOctets]
  have hparts : Checksum.ofParts (parts.map Checksum.ofBytes) = Checksum.ofBytes parts.flatten :=
    Checksum.ofParts_eq_ofBytes (by simp [parts]) (by simp [parts, Ipv4Address.toBytes])
  rwa [hflatten] at hparts

namespace Udp

namespace View

variable {p : View} {src dst : Ipv4Address}

/-- **The sum is that of one string**, the pseudo header in front of the octets covered. -/
theorem sum_eq_ofBytes (p : View) (src dst : Ipv4Address) (covered : Bytes) :
    p.sum src dst covered =
      Checksum.ofBytes (Ipv4.pseudoOctets src dst .udp p.lenField ++ covered) := by
  let parts : List Bytes := [Ipv4.pseudoOctets src dst .udp p.lenField, covered]
  have hflatten : parts.flatten = Ipv4.pseudoOctets src dst .udp p.lenField ++ covered := by
    simp [parts]
  have hparts : Checksum.ofParts (parts.map Checksum.ofBytes) = Checksum.ofBytes parts.flatten :=
    Checksum.ofParts_eq_ofBytes (by simp [parts])
      (by simp [parts, Ipv4.pseudoOctets, Ipv4Address.toBytes])
  rw [hflatten] at hparts
  unfold sum
  rwa [Ipv4.pseudoHeader_eq_ofBytes]

/-- There is no checksum, or the user datagram is there as a whole and sums to all ones. -/
def Intact (p : View) (src dst : Ipv4Address) : Prop :=
  p.checksum = 0 ∨ p.lenField.toNat ≤ p.length ∧
    OnesSum (Ipv4.pseudoOctets src dst .udp p.lenField ++ p.take p.lenField.toNat) 0xffff

theorem verifyChecksum_eq_ok_true_iff :
    p.verifyChecksum src dst = .ok true ↔ p.Intact src dst := by
  unfold verifyChecksum Intact
  by_cases hnone : p.checksum = 0
  · rw [if_pos hnone]
    simp [hnone]
  · rw [if_neg hnone]
    unfold leading?
    by_cases hthere : p.lenField.toNat ≤ p.length
    · rw [if_pos hthere, ← Checksum.ofBytes_eq_iff, ← sum_eq_ofBytes]
      simp [hnone, hthere]
    · rw [if_neg hthere]
      simp [hnone, hthere]

/-- The octets tell a header that can be read, in a datagram that carries them. -/
structure Readable (p : View) (ip : Ipv4.Header) : Prop where
  long : 8 ≤ p.length
  header : 8 ≤ p.lenField.toNat
  carried : p.lenField.toNat ≤ ip.payloadLen
  port : p.dstPort ≠ 0
  intact : p.Intact ip.src ip.dst

end View

namespace Header

variable {p : View} {ip : Ipv4.Header} {h : Header}

/-! ## Reading -/

theorem parse_of_readable (readable : p.Readable ip) :
    parse p ip .manual = .ok ⟨p.srcPort, p.dstPort, p.lenField.toNat - 8⟩ := by
  apply parse_of_intact
  · exact View.check_of_lengths readable.long readable.header
  · exact readable.carried
  · exact readable.port
  · exact fun _ => View.verifyChecksum_eq_ok_true_iff.mpr readable.intact

/-- **What is read is told by the octets.** -/
theorem parse_eq_ok_iff : parse p ip .manual = .ok h ↔
    p.Readable ip ∧ h = ⟨p.srcPort, p.dstPort, p.lenField.toNat - 8⟩ := by
  constructor
  · intro parsed
    obtain ⟨hcheck, hcarried, hport, hverify, hh⟩ := parse_eq_ok parsed
    obtain ⟨hlong, hheader⟩ := View.check_eq_ok hcheck
    refine ⟨?_, hh⟩
    constructor
    case long => exact hlong
    case header => exact hheader
    case carried => exact hcarried
    case port => exact hport
    case intact => exact View.verifyChecksum_eq_ok_true_iff.mp (hverify rfl)
  · rintro ⟨readable, rfl⟩
    exact parse_of_readable readable

/-! ## Writing -/

/-- The header takes the place of what stood in front of the payload. -/
theorem emit_append (h : Header) {front : Bytes} (room : front.length = headerLen)
    (payload : Bytes) : h.emit (front ++ payload) = h.encode ++ payload := by
  unfold emit overwrite
  rw [length_encode, ← room, List.drop_left]

/-- Where the checksum is written, the header tells what it told before.  The field says that there
is one. -/
theorem exists_fillChecksum (src dst : Ipv4Address) (h : Header) (rest : Bytes) :
    ∃ sum, sum ≠ 0 ∧
      View.fillChecksum (h.encode ++ rest) src dst = h.encodeSummed sum ++ rest := by
  unfold View.fillChecksum
  dsimp only
  rw [putWord_putWord, putWord_encode]
  exact ⟨_, View.nonzero_ne_zero _, rfl⟩

/-- **A user datagram is read as it has been written**, whatever stood in the buffer before and
whatever follows. -/
theorem parse_written {front payload : Bytes} (port : h.dstPort ≠ 0)
    (room : front.length = headerLen)
    (length : h.payloadLen = payload.length) (fits : headerLen + payload.length < 65536)
    (carried : headerLen + payload.length ≤ ip.payloadLen) (back : Bytes) :
    let p := View.fillChecksum (h.emit (front ++ (payload ++ back))) ip.src ip.dst
    p.checksum ≠ 0 ∧ parse p ip .manual = .ok h ∧ p.payload = payload := by
  intro p
  unfold headerLen at fits carried
  obtain ⟨sum, hsum, hfill⟩ := exists_fillChecksum ip.src ip.dst h (payload ++ back)
  have hp : p = h.encodeSummed sum ++ (payload ++ back) := by
    rw [← hfill, ← emit_append h room]
  have hlen : p.lenField.toNat = 8 + payload.length := by
    rw [hp, lenField_encodeSummed, length, UInt16.toNat_ofNat']
    unfold headerLen
    omega
  have hthere : 8 + payload.length ≤ p.length := by
    rw [hp, List.length_append, List.length_append, length_encodeSummed]
    unfold headerLen
    omega
  -- The checksum has been written over as many octets as the length field tells.
  have hverify : p.verifyChecksum ip.src ip.dst = .ok true := by
    have hlen' := View.lenField_fillChecksum (h.emit (front ++ (payload ++ back))) ip.src ip.dst
    have hlength' := View.length_fillChecksum (h.emit (front ++ (payload ++ back))) ip.src ip.dst
    apply View.verifyChecksum_fillChecksum
    · rw [← hlen', hlen]
      exact Nat.le_add_right _ _
    · rw [← hlen', ← hlength', hlen]
      exact hthere
  have hreadable : p.Readable ip := by
    constructor
    case long => exact Nat.le_trans (Nat.le_add_right _ _) hthere
    case header =>
      rw [hlen]
      exact Nat.le_add_right _ _
    case carried => rwa [hlen]
    case port => rwa [hp, dstPort_encodeSummed]
    case intact => exact View.verifyChecksum_eq_ok_true_iff.mp hverify
  refine ⟨?_, ?_, ?_⟩
  · rwa [hp, checksum_encodeSummed]
  · rw [parse_of_readable hreadable, hlen, hp, srcPort_encodeSummed, dstPort_encodeSummed,
      Nat.add_sub_cancel_left, ← length]
  · have hlength : (h.encodeSummed sum ++ payload).length = 8 + payload.length := by
      rw [List.length_append, length_encodeSummed, headerLen]
    unfold View.payload
    rw [hlen, hp, ← List.append_assoc, List.take_left' hlength]
    exact List.drop_left' (length_encodeSummed h sum)

/-! ## Both ways -/

/-- What can be relied on between those who write user datagrams and those who read them. -/
structure ReadsAsWritten : Prop where
  /-- The octets that are read, and what is read. -/
  reads : ∀ (p : View) (ip : Ipv4.Header) (h : Header), parse p ip .manual = .ok h ↔
    p.Readable ip ∧ h = ⟨p.srcPort, p.dstPort, p.lenField.toNat - 8⟩
  /-- What has been written in front of a payload is read, and so is the payload.  The buffer may go
  on behind it, and so may the datagram that carries both. -/
  readsBack : ∀ (h : Header) (ip : Ipv4.Header) (front payload back : Bytes),
    h.dstPort ≠ 0 → front.length = 8 → h.payloadLen = payload.length →
      payload.length ≤ 65507 → 8 + payload.length ≤ ip.payloadLen →
        let p := View.fillChecksum (h.emit (front ++ (payload ++ back))) ip.src ip.dst
        p.checksum ≠ 0 ∧ parse p ip .manual = .ok h ∧ p.payload = payload

/-- **User datagrams are read exactly where they are told, and as they have been written.** -/
theorem reads_back : ReadsAsWritten := by
  constructor
  case reads => exact fun _ _ _ => parse_eq_ok_iff
  case readsBack =>
    intro h ip front payload back port room length short carried
    have hfits : headerLen + payload.length < 65536 := by
      unfold headerLen
      omega
    exact parse_written port room length hfits carried back

end Header

end Udp

end NetEngine
