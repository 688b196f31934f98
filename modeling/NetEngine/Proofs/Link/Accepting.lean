import NetEngine.Interface
import NetEngine.Proofs.Arp.RoundTrip
import NetEngine.Proofs.Link.Checking
import NetEngine.Proofs.Udp.Header

/-! # Frames That a Receiver Accepts

    A frame is **acceptable** if whoever takes it from the link finds nothing
    wrong with it: it is no longer than the network allows, and it carries a
    packet of address resolution, or a datagram whose length is that of the frame
    and whose checksums the link finds correct.

    Every way in which we build a frame makes an acceptable one: packets of
    address resolution, echo replies, which are made of the request, and the
    packets of both transports. -/

namespace NetEngine

open Ipv4 (View)

/-! ## Acceptance -/

/-- The checksum that belongs to a protocol has been found correct. -/
def ChecksumSet.covers (c : ChecksumSet) : IpProtocol → Bool
  | .icmp => c.icmp
  | .tcp => c.tcp
  | .udp => c.udp
  | .unknown _ => false

namespace Ethernet.View

/-- A frame of 42 octets carries a packet of address resolution. -/
def CarriesArp (frame : View) : Prop :=
  frame.length = 42 ∧ frame.etherType = .arp ∧ ∃ p, Arp.Packet.parse frame.payload = .ok p

/-- A frame carries a datagram of its own length, which is parsed, and whose checksums the link
finds correct. -/
def CarriesDatagram (frame : View) : Prop :=
  frame.etherType = .ipv4 ∧ Ipv4.View.totalLen frame.payload + 14 = frame.length ∧
    ∃ h, Ipv4.Header.parse frame.payload .manual = .ok h ∧ (Offload.verified frame).ipv4 ∧
      (Offload.verified frame).covers h.protocol

/-- A receiver accepts the frame, which comes from the station `hardware`. -/
structure Acceptable (hardware : MacAddress) (frame : View) : Prop where
  short : frame.length ≤ 1514
  sender : frame.src = hardware
  carries : frame.CarriesArp ∨ frame.CarriesDatagram

end Ethernet.View

open Ethernet.View (Acceptable)

/-! ## Packets of address resolution -/

namespace Arp.Packet

theorem acceptable_frame {p : Packet} (spoken : p.operation = .request ∨ p.operation = .reply)
    (dst : MacAddress) : Acceptable p.srcHardware (p.frame dst) where
  short := by simp [Arp.frameLen, Arp.packetLen, Ethernet.headerLen]
  sender := rfl
  carries := by
    refine .inl ⟨length_frame p dst, ?_, p, ?_⟩
    · exact Ethernet.Header.etherType_encode_append _ _
    · unfold frame
      rw [Ethernet.Header.payload_encode_append]
      exact parse_encode spoken

end Arp.Packet

/-! ## Datagrams -/

namespace Offload

variable {e : Ethernet.Header} {hd : View} {protocol : IpProtocol} {packet : Bytes}

/-- A frame is acceptable if its header is intact, and so is the packet behind it. -/
theorem acceptable_datagram (type : e.etherType = .ipv4)
    (leads : hd.Leads protocol packet.length) (intact : Checksum.isIntact hd)
    (short : (e.encode ++ (hd ++ packet)).length ≤ 1514)
    (covers : (verified (e.encode ++ (hd ++ packet))).covers protocol) :
    Acceptable e.src (e.encode ++ (hd ++ packet)) := by
  refine ⟨short, rfl, .inr ⟨?_, ?_, ?_⟩⟩
  · rw [Ethernet.Header.etherType_encode_append, type]
    rfl
  · rw [Ethernet.Header.payload_encode_append, leads.total_append]
    simp [Ethernet.headerLen, Nat.add_comm]
  · rw [Ethernet.Header.payload_encode_append]
    exact ⟨_, leads.parse_append (fun _ => intact) packet,
      (verified_encode_append type leads intact).1, covers⟩

section Transports

variable (type : e.etherType = .ipv4) (intact : Checksum.isIntact hd)
  (short : (e.encode ++ (hd ++ packet)).length ≤ 1514)

include type intact short

/-- **A frame with a segment is acceptable** once the link has sealed the segment. -/
theorem acceptable_segment (leads : hd.Leads .tcp packet.length) (long : 18 ≤ packet.length) :
    Acceptable e.src (fill (e.encode ++ (hd ++ packet)) { tcp := true }) := by
  let p : View := hd ++ packet
  let written := sealed p.src p.dst packet
  have hlength : written.length = packet.length := length_sealed _ _ _
  have hleads : hd.Leads .tcp written.length := by rwa [hlength]
  have hfill : fillTransport p { tcp := true } packet = written := by
    unfold fillTransport
    simp only [p, (leads.fields_append _).2.2.2.2.2, reduceCtorEq, if_false, and_self, if_true]
    exact fillSegment_eq _ _
  have haddresses : View.src (hd ++ written) = p.src ∧ View.dst (hd ++ written) = p.dst :=
    View.addresses_append leads.long packet written
  rw [fill_encode_append type leads rfl, hfill]
  apply acceptable_datagram type hleads intact
  · simpa [hlength] using short
  · -- The check counts the octets in other pieces.
    have hfield : (segmentSum (hd ++ written) written inboundPiece).field = 0 := by
      have h := field_segmentSum_sealed (hd ++ written) long inboundPiece
      rwa [haddresses.1, haddresses.2] at h
    show (verified _).tcp = true
    rw [(verified_encode_append type hleads intact).2.2.1, hfield]
    rfl

/-- **A frame with a user datagram is acceptable** once the link has filled in its checksum. -/
theorem acceptable_userDatagram (leads : hd.Leads .udp packet.length)
    (long : Udp.headerLen ≤ packet.length)
    (len : (Udp.View.lenField packet).toNat = packet.length) :
    Acceptable e.src (fill (e.encode ++ (hd ++ packet)) { udp := true }) := by
  let p : View := hd ++ packet
  let written := Udp.View.fillChecksum packet p.src p.dst
  have hlength : written.length = packet.length := Udp.View.length_fillChecksum _ _ _
  have hleads : hd.Leads .udp written.length := by rwa [hlength]
  have hfill : fillTransport p { udp := true } packet = written := by
    unfold fillTransport
    simp only [p, (leads.fields_append _).2.2.2.2.2, reduceCtorEq, if_false, and_self, if_true]
    rfl
  have haddresses : View.src (hd ++ written) = p.src ∧ View.dst (hd ++ written) = p.dst :=
    View.addresses_append leads.long packet written
  rw [fill_encode_append type leads rfl, hfill]
  apply acceptable_datagram type hleads intact
  · simpa [hlength] using short
  · have hcheck : Udp.View.check written = .ok () := by
      apply Udp.View.check_of_lengths
      · rwa [hlength]
      · rwa [Udp.View.lenField_fillChecksum, len]
    have hverify : Udp.View.verifyChecksum written p.src p.dst = .ok true :=
      Udp.View.verifyChecksum_fillChecksum packet p.src p.dst (by omega) (by omega)
    show (verified _).udp = true
    rw [(verified_encode_append type hleads intact).2.2.2]
    unfold udpIntact
    rw [hleads.payload_append, haddresses.1, haddresses.2, hcheck, hverify]
    rfl

omit short in
/-- A frame with a control message is acceptable if the message is intact. -/
theorem acceptable_message (leads : hd.Leads .icmp packet.length)
    (short : (e.encode ++ (hd ++ packet)).length ≤ 1514) (message : Checksum.isIntact packet) :
    Acceptable e.src (e.encode ++ (hd ++ packet)) := by
  apply acceptable_datagram type leads intact short
  show (verified _).icmp = true
  rw [(verified_encode_append type leads intact).2.1, message]
  rfl

end Transports

end Offload

/-! ## Echo replies -/

/-- A message of another type is as long as before. -/
theorem Icmp.View.length_retype {m : Icmp.View} (long : Icmp.headerLen ≤ m.length)
    (kind : Icmp.Kind) (code : UInt8) :
    (m.retype kind code).length = m.length := by
  unfold Icmp.headerLen at long
  unfold retype fillChecksum Checksum.fillAt
  rw [length_putWord, length_putWord, length_overwrite (by simp; omega)]

/-- A control message that is understood has a header. -/
theorem Icmp.Echo.long_of_parse {m : Icmp.View} {mode : Checksum.Mode} {echo : Icmp.Echo}
    (parsed : parse m mode = .ok echo) : Icmp.headerLen ≤ m.length := by
  obtain ⟨_, hcheck, _⟩ := exists_of_bind_eq_ok parsed
  unfold Icmp.View.check at hcheck
  split at hcheck
  · cases hcheck
  · omega

namespace Interface

variable {i : Interface} {frame : Ethernet.View} {h : Ipv4.Header} {reply : Bytes}

/-- The header of a reply is that of the request, but for the length, the hops and the addresses. -/
theorem leads_echoReply {p : View} {len : Nat} (parsed : Ipv4.Header.parse p .manual = .ok h)
    (fits : p.headerLen + len < 65536) (hops : UInt8) {addresses : Bytes}
    (eight : addresses.length = 8) :
    View.Leads
      (overwriteAt ((putWord p.header 2 (UInt16.ofNat (p.headerLen + len))).set 8 hops) 12
        addresses)
      h.protocol len := by
  obtain ⟨hcheck, hversion, -, hlast, hfirst, rfl⟩ := Ipv4.Header.parse_eq_ok parsed
  obtain ⟨hlong, hthere, -⟩ := View.check_eq_ok hcheck
  unfold Ipv4.headerLen at hlong
  have hheader : p.header.length = p.headerLen := List.length_take_of_le hthere
  let relengthed := putWord p.header 2 (UInt16.ofNat (p.headerLen + len))
  let hd : View := overwriteAt (relengthed.set 8 hops) 12 addresses
  have hlength : hd.length = p.headerLen := by
    simp only [hd]
    rw [length_overwriteAt (by simp [relengthed]; omega)]
    simp [relengthed, hheader]
  have hset : ∀ j < 12, j ≠ 8 → byteAt hd j = byteAt relengthed j := by
    intro j hj hne
    simp only [hd]
    rw [byteAt_overwriteAt_of_lt hj (by simp [relengthed]; omega), byteAt_set_of_ne _ hne]
  -- The length is the only field that is read and has been written.
  have hsame : ∀ j < 12, j ≠ 8 → j ≠ 2 → j ≠ 3 → byteAt hd j = byteAt p j := by
    intro j hj h8 h2 h3
    rw [hset j hj h8]
    simp only [relengthed]
    rw [byteAt_putWord_of_ne _ h2 h3]
    exact byteAt_take_of_lt p (by omega)
  have htotal : wordAt hd 2 = UInt16.ofNat (p.headerLen + len) := by
    unfold wordAt
    rw [hset 2 (by decide) (by decide), hset (2 + 1) (by decide) (by decide)]
    exact wordAt_putWord_self (by omega) _
  have hfragment : wordAt hd 6 = wordAt p 6 := by
    unfold wordAt
    rw [hsame 6 (by decide) (by decide) (by decide) (by decide),
      hsame (6 + 1) (by decide) (by decide) (by decide) (by decide)]
  have hfirstByte := hsame 0 (by decide) (by decide) (by decide) (by decide)
  show View.Leads hd p.protocol len
  constructor
  case long =>
    rw [hlength]
    exact hlong
  case whole =>
    rw [hlength]
    unfold View.headerLen
    rw [hfirstByte]
  case version =>
    unfold View.version at hversion ⊢
    rw [hfirstByte, hversion]
  case total =>
    unfold View.totalLen
    rw [htotal, hlength, UInt16.toNat_ofNat']
    omega
  case last =>
    unfold View.moreFragments at hlast ⊢
    rw [hfragment, hlast]
  case first =>
    unfold View.fragmentOffset at hfirst ⊢
    rw [hfragment, hfirst]
  case protocol =>
    unfold View.protocol
    rw [hsame 9 (by decide) (by decide) (by decide) (by decide)]

/-- **The answer to an echo request is acceptable**, whatever options the request has and however
much of it is at hand. -/
theorem acceptable_echoReply (parsed : Ipv4.Header.parse frame.payload .manual = .ok h)
    (protocol : h.protocol = .icmp) (answers : i.echoReply frame h = .ok (some reply))
    (short : reply.length ≤ 1514) : Acceptable i.addresses.hardware reply := by
  let p : View := frame.payload
  let message : Icmp.View := p.payload.take h.payloadLen
  have hrun : (Icmp.Echo.parse message .ignored >>= _) = _ := answers
  obtain ⟨echo, hecho, hanswer⟩ := exists_of_bind_eq_ok hrun
  cases echo with
  | reply => cases hanswer
  | request ident seqNo =>
    cases hanswer
    have hmessage : Icmp.headerLen ≤ message.length := Icmp.Echo.long_of_parse hecho
    unfold Icmp.headerLen at hmessage
    have hfits : p.headerLen + message.length < 65536 := by
      obtain ⟨hcheck, -, -, -, -, hh⟩ := Ipv4.Header.parse_eq_ok parsed
      have htotal := (View.check_eq_ok hcheck).2.2
      have hword : p.totalLen < 65536 := (wordAt p 2).toNat_lt
      have hlen : message.length ≤ p.totalLen - p.headerLen := by
        have : message.length ≤ h.payloadLen := List.length_take_le _ _
        rwa [hh] at this
      omega
    let len := UInt16.ofNat (p.headerLen + message.length)
    let hd : View := overwriteAt ((putWord p.header 2 len).set 8 i.hopLimit) 12
      (i.addresses.address.toBytes ++ h.src.toBytes)
    let packet : Icmp.View := message.retype .echoReply 0
    have hpacket : packet.length = message.length := Icmp.View.length_retype hmessage _ _
    have hleads : hd.Leads .icmp packet.length := by
      rw [hpacket, ← protocol]
      exact leads_echoReply parsed hfits i.hopLimit rfl
    have hintact : Checksum.isIntact packet :=
      Checksum.isIntact_fillAt (by decide) (by rw [length_overwrite (by simp; omega)]; omega)
    rw [List.append_assoc] at short ⊢
    exact Offload.acceptable_message rfl hleads.isIntact_fillChecksum hleads.fillChecksum short
      hintact

end Interface

end NetEngine
