import NetEngine.Net
import NetEngine.Tcp.Machine.Send
import NetEngine.Udp.Header

/-! # Transport Packets on the Link

    How user datagrams and segments go out.  The link fills in their checksums. -/

namespace NetEngine.Net

variable {L : Type} [Link L]

/-! ### User datagrams -/

/-- The longest payload of a user datagram. -/
def maxDatagram : Nat := Ethernet.maxFrame - Interface.headersLen - Udp.headerLen

/-- Send a user datagram whose payload is the first `len` octets of a source. -/
def sendDatagram (net : Net L) (srcPort dstPort : UInt16) (dst : Ipv4Address) (len : Nat)
    (source : Supplier) : Except NetError Unit × Net L :=
  if len > maxDatagram ∨ len > source.size then (.error .badSize, net)
  else
    let header : Udp.Header := ⟨srcPort, dstPort, len⟩
    net.sendPacket dst .udp (Udp.headerLen + len) header.encode { udp := true } (some ⟨source, 0⟩)

/-! ### Segments -/

/-- Send a segment. -/
def sendSegment (net : Net L) : Tcp.Outgoing → Except NetError Unit × Net L
  | .fresh dst segment body =>
    net.sendPacket dst .tcp segment.len segment.encode { tcp := true } body
  | .copy dst octets =>
    net.sendPacket dst .tcp octets.length [] { tcp := true } (some ⟨.ofBytes octets, 0⟩)

/-- Send the segment that a step asks for, if it asks for one. -/
def follow (net : Net L) : Option Tcp.Outgoing → Except NetError Unit × Net L
  | none => (.ok (), net)
  | some segment => net.sendSegment segment

/-- Send segments one after the other, whether they can be sent or not. -/
def sendSegments (net : Net L) (out : List Tcp.Outgoing) : Net L :=
  out.foldl (fun net s => (net.sendSegment s).2) net

/-- Send the pieces of a source one after the other, as far as they can be copied and sent. -/
def sendPieces (net : Net L) (tcp : Tcp.Machine) (role : Tcp.Role) (source : Source)
    (tracked : Bool) (heap : Tcp.Heap) :
    List Tcp.Piece → Except NetError Unit × Net L × Tcp.Machine
  | [] => (.ok (), net, tcp)
  | p :: rest =>
    -- A piece that can not be copied does not count as sent.
    if !heap.holds source tracked p then (.error .exhausted, net, tcp)
    else
      let step := tcp.sendPiece role source tracked p
      match net.follow step.out with
      | (.error err, net) => (.error err, net, step.machine)
      | (.ok (), net) => net.sendPieces step.machine role source tracked heap rest

end NetEngine.Net
