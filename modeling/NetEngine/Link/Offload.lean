import NetEngine.Ethernet
import NetEngine.Ipv4.Header
import NetEngine.Link
import NetEngine.Udp.Header

/-! # Checksums on the Link

    A link that looks into frames can check the checksums of those that arrive
    and fill in those of frames that leave.  It does so for unbroken internet
    datagrams only; any other frame it leaves alone.

    The sum over a segment is taken piece by piece, as the octets come. -/

namespace NetEngine.Offload

/-- The pieces of a string, of `n` octets each but the last. -/
def pieces (n : Nat) (b : Bytes) : List Bytes :=
  if b.length ≤ n ∨ n = 0 then [b] else b.take n :: pieces n (b.drop n)
  termination_by b.length
  decreasing_by simp only [List.length_drop]; omega

/-- The datagram in a frame, cut to its length. -/
def datagram? (frame : Ethernet.View) : Option Ipv4.View :=
  match frame.check, Ipv4.View.check frame.payload with
  | .ok (), .ok () =>
    if frame.etherType = .ipv4 then leading? frame.payload (Ipv4.View.totalLen frame.payload)
    else none
  | _, _ => none

/-- The length of the pieces in which octets arrive. -/
def inboundPiece : Nat := 63

/-- The length of the pieces in which octets leave. -/
def outboundPiece : Nat := 65

/-- The running sum over a segment and its pseudo header. -/
def segmentSum (p : Ipv4.View) (segment : Bytes) (piece : Nat) : Checksum.RunningSum :=
  (pieces piece segment).foldl Checksum.RunningSum.feed
    (Ipv4.startSum p.src p.dst .tcp (UInt16.ofNat segment.length))

/-! ### Frames that arrive -/

/-- Is the checksum of the user datagram in `p` correct, or absent? -/
def udpIntact (p : Ipv4.View) : Bool :=
  match Udp.View.check p.payload, Udp.View.verifyChecksum p.payload p.src p.dst with
  | .ok (), .ok intact => intact
  | _, _ => false

/-- Does the user datagram in `p` go from a server that hands out addresses to its client? -/
def isDhcp (p : Ipv4.View) : Bool :=
  Udp.View.srcPort p.payload = 67 && Udp.View.dstPort p.payload = 68

/-- The checksums of a frame that are correct. -/
def verified (frame : Bytes) : ChecksumSet :=
  match datagram? frame with
  | none => .none
  | some p => {
    ipv4 := p.verifyChecksum
    icmp := p.protocol = .icmp && Checksum.isIntact p.payload
    tcp := p.protocol = .tcp && (segmentSum p p.payload inboundPiece).field = 0
    udp := p.protocol = .udp && udpIntact p
    dhcp := p.protocol = .udp && udpIntact p && isDhcp p }

/-! ### Frames that leave -/

/-- Write the checksum of the segment that follows the header of `p`. -/
def fillSegment (p : Ipv4.View) (segment : Bytes) : Bytes :=
  let cleared := putWord segment 16 0
  putWord cleared 16 (segmentSum p cleared outboundPiece).field

/-- Write the checksum of the transport packet that follows the header of `p`, if it is asked
for. -/
def fillTransport (p : Ipv4.View) (c : ChecksumSet) (packet : Bytes) : Bytes :=
  if p.protocol = .icmp ∧ c.icmp then Checksum.fillAt packet 2
  else if p.protocol = .udp ∧ c.udp then Udp.View.fillChecksum packet p.src p.dst
  else if p.protocol = .tcp ∧ c.tcp then fillSegment p packet
  else packet

/-- Write the checksums of a frame that are asked for. -/
def fill (frame : Bytes) (c : ChecksumSet) : Bytes :=
  match datagram? frame with
  | none => frame
  | some p =>
    -- What lies behind the datagram is padding and stays as it is.
    let summed := if c.ipv4 then p.fillChecksum else p
    frame.take Ethernet.headerLen ++ summed.header ++ fillTransport p c p.payload ++
      frame.drop (Ethernet.headerLen + p.length)

end NetEngine.Offload
