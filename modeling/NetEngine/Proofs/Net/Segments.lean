import NetEngine.Net.Transport
import NetEngine.Proofs.Link.Assembling
import NetEngine.Proofs.Link.Frames

/-! # Segments on the Loopback Link

    * **Octets**: a segment that is to be sent has headers, a length, and a body
      that the link pulls.  Its octets are what the link makes of them, if the
      body is there.
    * **Resolved**: a destination whose hardware address is known needs nobody to
      be asked, so that sending does nothing but send.
    * **Frame**: the segment that has been given to the link is the one that is
      carried by the frame. -/

namespace NetEngine

/-! ## What a segment is made of -/

namespace Tcp.Outgoing

def dst : Outgoing → Ipv4Address
  | .fresh dst _ _ => dst
  | .copy dst _ => dst

/-- The octets that are given to the link. -/
def headers : Outgoing → Bytes
  | .fresh _ segment _ => segment.encode
  | .copy _ _ => []

/-- The length of the segment. -/
def len : Outgoing → Nat
  | .fresh _ segment _ => segment.len
  | .copy _ octets => octets.length

/-- What the link pulls. -/
def body : Outgoing → Option Body
  | .fresh _ _ body => body
  | .copy _ octets => some ⟨.ofBytes octets, 0⟩

/-- The octets of the segment, its checksum field being empty, if the body is there. -/
def octets? (o : Outgoing) : Option Bytes := Loopback.packet? o.headers o.len o.body

theorem length_headers_le (o : Outgoing) : o.headers.length ≤ o.len := by
  cases o with
  | fresh dst segment body =>
    show segment.encode.length ≤ segment.len
    rw [Segment.length_encode]
    exact Nat.le_add_right _ _
  | copy => exact Nat.zero_le _

theorem length_of_octets? {o : Outgoing} {octets : Bytes} (h : o.octets? = some octets) :
    octets.length = o.len := Loopback.length_of_packet? o.length_headers_le h

/-- A segment without payload is its header. -/
theorem octets?_bare {dst : Ipv4Address} {s : Segment} (bare : s.payloadLen = 0) :
    octets? (.fresh dst s none) = some s.encode := by
  have hlen : s.encode.length = s.len := by
    rw [Segment.length_encode, Segment.len, bare, Nat.add_zero]
  exact if_pos hlen

/-- A segment whose payload comes from a source with a fixed content has a slice of it. -/
theorem octets?_sourced {dst : Ipv4Address} {s : Segment} {source : Supplier} {offset : Nat}
    {content octets : Bytes} (holds : source.Holds content) :
    octets? (.fresh dst s (some ⟨source, offset⟩)) = some octets ↔
      (s.payloadLen = 0 ∨ offset + s.payloadLen ≤ content.length) ∧
        octets = s.encode ++ slice content offset s.payloadLen := by
  have hrest : s.len - s.encode.length = s.payloadLen := by
    rw [Segment.length_encode, Segment.len, Nat.add_sub_cancel_left]
  unfold octets? headers len body Loopback.packet?
  dsimp only
  rw [hrest, Option.map_eq_some_iff]
  simp only [Loopback.pull_eq_some_iff holds, and_assoc, eq_comm (a := octets)]
  simp

/-- A copy is sent as it is. -/
theorem octets?_copy (dst : Ipv4Address) (octets : Bytes) :
    octets? (.copy dst octets) = some octets := by
  have hpull : Loopback.pull (.ofBytes octets) 0 octets.length = some octets := by
    rw [Loopback.pull_of_holds (Supplier.holds_ofBytes octets) (by omega), slice_all]
  show (Loopback.pull (.ofBytes octets) 0 (octets.length - 0)).map ([] ++ ·) = some octets
  rw [Nat.sub_zero, hpull]
  rfl

end Tcp.Outgoing

/-! ## Known neighbours -/

namespace Interface

/-- The hardware address for datagrams to `target`, if nobody needs to be asked for it. -/
def hardwareOf? (i : Interface) (target : Ipv4Address) : Option MacAddress :=
  i.addresses.fixedHardware target <|> (i.addresses.nextHop target).bind i.cache.lookup

end Interface

namespace Net

theorem resolve_of_known {L : Type} [Link L] {net : Net L} {target : Ipv4Address}
    {hardware : MacAddress} (known : net.iface.hardwareOf? target = some hardware) :
    net.resolve target = (.ok hardware, net) := by
  unfold Interface.hardwareOf? at known
  unfold resolve lookup
  cases hfixed : net.iface.addresses.fixedHardware target with
  | some fixed =>
    rw [hfixed] at known
    cases known
    rfl
  | none =>
    rw [hfixed] at known
    dsimp only
    obtain ⟨hop, hhop, hlookup⟩ := Option.bind_eq_some_iff.mp known
    rw [hhop]
    dsimp only
    rw [hlookup]

/-! ## Frames -/

section Frames

variable {net net' : Net Loopback} {o : Tcp.Outgoing} {hardware : MacAddress}

/-- The interface has taken an identifier for another datagram. -/
def identified (net : Net Loopback) : Net Loopback := { net with iface := net.iface.nextIdent }

/-- The header of the datagram that carries a segment of `len` octets. -/
def segmentHeader (net : Net Loopback) (len : Nat) (dst : Ipv4Address) : Ipv4.Header :=
  net.identified.iface.header len dst .tcp

/-- The frame that carries the segment `octets`, from and to given hardware addresses. -/
def segmentFrame (net : Net Loopback) (sender receiver : MacAddress) (dst : Ipv4Address)
    (octets : Bytes) : Bytes :=
  Offload.frameOf ⟨sender, receiver, .ipv4⟩ (net.segmentHeader octets.length dst)
    net.identified.iface.ident (Offload.sealed net.iface.addresses.address dst octets)

/-- The link when it has sent a frame. -/
def sending (net : Net Loopback) (frame : Bytes) : Net Loopback :=
  { net with link := { net.link with sent := net.link.sent ++ [frame] } }

/-- What fits a frame fits the length field of a datagram. -/
theorem short_of_fits {len : Nat} (fits : Interface.headersLen + len ≤ Ethernet.maxFrame) :
    Ipv4.headerLen + len < 65536 := by
  unfold Interface.headersLen Ethernet.maxFrame at fits
  omega

section Packets

variable {dst : Ipv4Address} {protocol : IpProtocol} {len : Nat} {headers : Bytes}
  {checksums : ChecksumSet} {body : Option Body}

/-- Once its destination has been resolved, a packet goes out in a frame if its body is there and it
is not too long. -/
theorem sendPacket_of_resolved (short : headers.length ≤ len)
    (resolved : net.identified.resolve dst = (.ok hardware, net')) :
    net.sendPacket dst protocol len headers checksums body =
      match (if Interface.headersLen + len ≤ Ethernet.maxFrame then
          Loopback.packet? headers len body else none) with
      | none => (.error .badSize, net')
      | some packet => (.ok (), net'.sending (Offload.fill
          (Offload.frameOf ⟨net'.iface.addresses.hardware, hardware, .ipv4⟩
            (net.identified.iface.header len dst protocol) net.identified.iface.ident packet)
          checksums)) := by
  let e : Ethernet.Header := ⟨net'.iface.addresses.hardware, hardware, .ipv4⟩
  let h := net.identified.iface.header len dst protocol
  let ident := net.identified.iface.ident
  let front := e.encode ++ h.encodeSummed ident (h.checksum ident)
  let given := Loopback.transmit net'.link (front ++ headers) (front.length + len) checksums body
  have hdst : Ipv4.View.dst (h.encodeUnsummed ident ++ headers) = dst := rfl
  have hfront : e.encode ++ Ipv4.View.fillChecksum (h.encodeUnsummed ident ++ headers) =
      front ++ headers := by
    rw [Ipv4.Header.fillChecksum_encodeUnsummed, ← List.append_assoc]
  have hsend : net.sendPacket dst protocol len headers checksums body =
      (given.1, { net' with link := given.2 }) := by
    calc net.sendPacket dst protocol len headers checksums body
      _ = net.identified.deliver (h.encodeUnsummed ident ++ headers) (Interface.headersLen + len)
          checksums body := rfl
      _ = (given.1, { net' with link := given.2 }) := by
        unfold deliver
        rw [hdst, resolved]
        dsimp only
        rw [hfront]
        rfl
  have hgiven : given = match (if Interface.headersLen + len ≤ Ethernet.maxFrame then
      Loopback.packet? headers len body else none) with
      | none => (.error .badSize, net'.link)
      | some packet => (.ok (), { net'.link with
          sent := net'.link.sent ++ [Offload.fill (front ++ packet) checksums] }) :=
    Loopback.transmit_append net'.link front checksums body short
  rw [hsend, hgiven]
  cases (if Interface.headersLen + len ≤ Ethernet.maxFrame then Loopback.packet? headers len body
    else none) with
  | none => rfl
  | some packet =>
    have hframe : front ++ packet = Offload.frameOf e h ident packet := List.append_assoc _ _ _
    dsimp only
    rw [hframe]
    rfl

/-- A packet whose destination can not be resolved does not go out. -/
theorem sendPacket_of_unresolved {err : NetError}
    (unresolved : net.identified.resolve dst = (.error err, net')) :
    net.sendPacket dst protocol len headers checksums body = (.error err, net') := by
  let h := net.identified.iface.header len dst protocol
  have hdst : Ipv4.View.dst (h.encodeUnsummed net.identified.iface.ident ++ headers) = dst := rfl
  calc net.sendPacket dst protocol len headers checksums body
    _ = net.identified.deliver (h.encodeUnsummed net.identified.iface.ident ++ headers)
        (Interface.headersLen + len) checksums body := rfl
    _ = (.error err, net') := by
      unfold deliver
      rw [hdst, unresolved]

end Packets

/-- A segment goes out like any packet. -/
theorem sendSegment_eq (net : Net Loopback) (o : Tcp.Outgoing) :
    net.sendSegment o = net.sendPacket o.dst .tcp o.len o.headers { tcp := true } o.body := by
  cases o <;> rfl

/-- Once its destination has been resolved, a segment goes out in a frame if its body is there and
it is not too long. -/
theorem sendSegment_of_resolved
    (resolved : net.identified.resolve o.dst = (.ok hardware, net')) :
    net.sendSegment o =
      match (if Interface.headersLen + o.len ≤ Ethernet.maxFrame then o.octets? else none) with
      | none => (.error .badSize, net')
      | some octets => (.ok (), net'.sending
          (net.segmentFrame net'.iface.addresses.hardware hardware o.dst octets)) := by
  rw [sendSegment_eq, sendPacket_of_resolved o.length_headers_le resolved]
  unfold Tcp.Outgoing.octets?
  cases hpacket : (if Interface.headersLen + o.len ≤ Ethernet.maxFrame then
      Loopback.packet? o.headers o.len o.body else none) with
  | none => rfl
  | some octets =>
    obtain ⟨hfits, hoctets⟩ := Option.ite_none_right_eq_some.mp hpacket
    have hlength : o.len = octets.length := (Tcp.Outgoing.length_of_octets? hoctets).symm
    -- The link seals the segment in the frame that it has put together.
    have hframe : Offload.fill (Offload.frameOf ⟨net'.iface.addresses.hardware, hardware, .ipv4⟩
        (net.segmentHeader o.len o.dst) net.identified.iface.ident octets) { tcp := true } =
        net.segmentFrame net'.iface.addresses.hardware hardware o.dst octets := by
      unfold segmentFrame
      rw [← hlength]
      exact Offload.fill_frameOf rfl rfl hlength (hlength ▸ short_of_fits hfits) _
    dsimp only
    rw [← hframe]
    rfl

/-- A segment whose destination can not be resolved does not go out. -/
theorem sendSegment_of_unresolved {err : NetError}
    (unresolved : net.identified.resolve o.dst = (.error err, net')) :
    net.sendSegment o = (.error err, net') := by
  rw [sendSegment_eq, sendPacket_of_unresolved unresolved]

/-- A segment for a known neighbour goes out in one frame, and nothing else is sent. -/
theorem sendSegment_of_known {octets : Bytes}
    (known : net.iface.hardwareOf? o.dst = some hardware) (there : o.octets? = some octets)
    (fits : Interface.headersLen + octets.length ≤ Ethernet.maxFrame) :
    net.sendSegment o = (.ok (), net.identified.sending
      (net.segmentFrame net.iface.addresses.hardware hardware o.dst octets)) := by
  have hresolved : net.identified.resolve o.dst = (.ok hardware, net.identified) :=
    resolve_of_known known
  rw [sendSegment_of_resolved hresolved, ← Tcp.Outgoing.length_of_octets? there, if_pos fits, there]
  rfl

theorem length_segmentFrame (net : Net Loopback) (sender receiver : MacAddress)
    (dst : Ipv4Address) (octets : Bytes) :
    (net.segmentFrame sender receiver dst octets).length =
      Interface.headersLen + octets.length := by
  unfold segmentFrame
  rw [Offload.length_frameOf, Offload.length_sealed, ← Nat.add_assoc]
  rfl

/-- The frame of a segment carries it, from our address and sealed. -/
theorem carried?_segmentFrame (net : Net Loopback) (sender receiver : MacAddress)
    (dst : Ipv4Address) {octets : Bytes}
    (fits : Interface.headersLen + octets.length ≤ Ethernet.maxFrame) :
    Offload.carried? (net.segmentFrame sender receiver dst octets) =
      some ⟨net.iface.addresses.address, dst,
        Offload.sealed net.iface.addresses.address dst octets⟩ := by
  unfold segmentFrame
  exact Offload.carried?_frameOf rfl rfl (Offload.length_sealed _ _ _).symm
    (by rw [Offload.length_sealed]; exact short_of_fits fits) _

/-- The frame in which a segment goes out, if the link takes it. -/
def frameFor? (net : Net Loopback) (o : Tcp.Outgoing) : Option Bytes :=
  match net.sendSegment o with
  | (.ok (), net) => net.link.sent.getLast?
  | (.error _, _) => none

/-- **What goes out for a segment carries its octets**, from our address to its destination, whether
somebody had to be asked before or not. -/
theorem carried?_of_frameFor? {frame : Bytes} (sent : net.frameFor? o = some frame) :
    ∃ octets, o.octets? = some octets ∧
      Offload.carried? frame = some ⟨net.iface.addresses.address, o.dst,
        Offload.sealed net.iface.addresses.address o.dst octets⟩ := by
  unfold frameFor? at sent
  rcases hresolve : net.identified.resolve o.dst with ⟨err | hardware, net'⟩
  · rw [sendSegment_of_unresolved hresolve] at sent
    cases sent
  · rw [sendSegment_of_resolved hresolve] at sent
    cases hpacket : (if Interface.headersLen + o.len ≤ Ethernet.maxFrame then o.octets?
        else none) with
    | none =>
      rw [hpacket] at sent
      cases sent
    | some octets =>
      obtain ⟨hfits, hoctets⟩ := Option.ite_none_right_eq_some.mp hpacket
      rw [hpacket] at sent
      -- The frame is the last one that has been sent.
      have hframe :
          net.segmentFrame net'.iface.addresses.hardware hardware o.dst octets = frame := by
        simpa [sending] using sent
      refine ⟨octets, hoctets, ?_⟩
      rw [← hframe]
      apply carried?_segmentFrame
      rw [Tcp.Outgoing.length_of_octets? hoctets]
      exact hfits

end Frames

end Net

end NetEngine
