import NetEngine.Clock
import NetEngine.Interface
import NetEngine.Payload

/-! # The Interface on Its Link

    The network layer together with the link that it uses.

    - **Resolution**: the hardware address of a destination is fixed, or known
      from the cache, or asked for.  While an answer is awaited, frames are taken
      from the link; packets of address resolution among them are taken note of,
      all others are lost.
    - **Delivery**: a datagram gets its hardware address and its checksum, and goes
      to the link. -/

namespace NetEngine

/-- The network layer and its link. -/
structure Net (L : Type) where
  iface : Interface
  link : L

namespace Net

variable {L : Type} [Link L]

/-- The hardware address of a neighbour that is known. -/
def lookup (net : Net L) (a : Ipv4Address) : Option MacAddress := net.iface.cache.lookup a

/-- Send a frame as it is. -/
def sendFrame (net : Net L) (frame : Bytes) : Except NetError Unit × Net L :=
  let r := Link.transmit net.link frame frame.length .none none
  (r.1, { net with link := r.2 })

/-! ### Packets of address resolution -/

/-- Take note of a packet and send the answer that it asks for. -/
def receiveArp (net : Net L) (packet : Bytes) : Except NetError Unit × Net L :=
  match Arp.Packet.parse packet with
  | .error _ => (.error .illegal, net)
  | .ok p =>
    let r := net.iface.handleArp p
    let net := { net with iface := r.1 }
    match r.2 with
    | none => (.ok (), net)
    | some answer => net.sendFrame (answer.frame answer.dstHardware)

/-- Look at the link once while an answer is awaited. -/
def look (net : Net L) : Net L :=
  match Link.receive net.link Arp.frameLen with
  | (none, link) => { net with link := link }
  | (some arrival, link) =>
    let frame : Ethernet.View := arrival.resident
    let net := { net with link := link }
    let net :=
      match Ethernet.Header.parse frame with
      | .ok { etherType := .arp, .. } => (net.receiveArp frame.payload).2
      | _ => net
    { net with link := Link.done net.link }

/-! ### Waiting for an answer -/

/-- Look at the link up to `n` times, while the wait goes on and the neighbour is not known. -/
def awaitWhile (net : Net L) (hop : Ipv4Address) (going : L → Bool) :
    (n : Nat) → Option MacAddress × Net L
  | 0 => (none, net)
  | n + 1 =>
    if going net.link then
      let net := net.look
      match net.lookup hop with
      | some hardware => (some hardware, net)
      | none => net.awaitWhile hop going n
    else (none, net)

/-- Wait for a neighbour to answer.  A look takes a frame or lets the timer go on, so that no more
looks fit a number of ticks than there are ticks and frames. -/
def await (net : Net L) (hop : Ipv4Address) : Option MacAddress × Net L :=
  match net.iface.patience with
  | .looks n => net.awaitWhile hop (fun _ => true) n
  | .ticks n =>
    let start := Link.now net.link
    net.awaitWhile hop (fun link => ticksBetween start (Link.now link) < n)
      (n + Link.waiting net.link)

/-! ### Resolution -/

/-- Ask for a neighbour up to `n` times. -/
def ask (net : Net L) (hop : Ipv4Address) : (n : Nat) → Except NetError MacAddress × Net L
  | 0 => (.error .unreachable, net)
  | n + 1 =>
    -- A request that can not be sent ends the search, an unanswered one does not.
    let request := net.iface.request hop
    match net.sendFrame (request.frame .broadcast) with
    | (.error e, net) => (.error e, net)
    | (.ok (), net) =>
      match net.await hop with
      | (some hardware, net) => (.ok hardware, net)
      | (none, net) => net.ask hop n

/-- The hardware address for datagrams to `target`. -/
def resolve (net : Net L) (target : Ipv4Address) : Except NetError MacAddress × Net L :=
  match net.iface.addresses.fixedHardware target with
  | some hardware => (.ok hardware, net)
  | none =>
    match net.iface.addresses.nextHop target with
    | none => (.error .unreachable, net)
    | some hop =>
      match net.lookup hop with
      | some hardware => (.ok hardware, net)
      | none => net.ask hop net.iface.requests

/-! ### Datagrams -/

/-- Send a frame of `length` octets that carries a datagram, of which the headers are given. -/
def deliver (net : Net L) (datagram : Ipv4.View) (length : Nat) (checksums : ChecksumSet)
    (body : Option Body) : Except NetError Unit × Net L :=
  match net.resolve datagram.dst with
  | (.error e, net) => (.error e, net)
  | (.ok hardware, net) =>
    let header : Ethernet.Header := ⟨net.iface.addresses.hardware, hardware, .ipv4⟩
    let headers := header.encode ++ datagram.fillChecksum
    let r := Link.transmit net.link headers length checksums body
    (r.1, { net with link := r.2 })

/-- Send a transport packet of `len` octets, of which the first ones are given.  Each attempt takes
an identifier. -/
def sendPacket (net : Net L) (dst : Ipv4Address) (protocol : IpProtocol) (len : Nat)
    (headers : Bytes) (checksums : ChecksumSet) (body : Option Body) :
    Except NetError Unit × Net L :=
  let iface := net.iface.nextIdent
  let header := iface.encodeHeader (iface.header len dst protocol)
  let net := { net with iface := iface }
  net.deliver (header ++ headers) (Interface.headersLen + len) checksums body

end Net

end NetEngine
