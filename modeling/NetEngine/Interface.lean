import NetEngine.Arp.Cache
import NetEngine.Arp.Packet
import NetEngine.Interface.Addresses
import NetEngine.Icmp.Echo
import NetEngine.Ipv4.Header
import NetEngine.Link

/-! # The Interface

    The state of the network layer: our addresses, the neighbours that are
    known, and what goes into the headers of outbound datagrams.

    What is defined here does not touch the link.  An inbound packet is taken
    note of and, where it asks for an answer, the answer is returned. -/

namespace NetEngine

/-- How long to wait for the answer to an address resolution request. -/
inductive Patience where
  /-- For a number of looks at the link. -/
  | looks (n : Nat)
  /-- For a number of ticks of the timer, which is one second. -/
  | ticks (n : Nat)

/-- The state of the network layer. -/
structure Interface where
  addresses : Addresses
  cache : Arp.Cache
  /-- Requests sent for one address before it is given up. -/
  requests : Nat
  patience : Patience
  /-- Has another host claimed our address since it was set? -/
  conflict : Bool
  /-- The identifier of the last outbound datagram. -/
  ident : UInt16
  /-- The hops that an outbound datagram may take. -/
  hopLimit : UInt8

namespace Interface

/-- The length of the headers in front of a transport packet that we send. -/
def headersLen : Nat := Ethernet.headerLen + Ipv4.headerLen

/-- An interface that has heard of nobody yet. -/
def fresh (addresses : Addresses) (cache : Arp.Cache) (requests : Nat) (patience : Patience)
    (hopLimit : UInt8) : Interface where
  addresses := addresses
  cache := cache
  requests := requests
  patience := patience
  conflict := false
  ident := 0
  hopLimit := hopLimit

/-- Set our address and forget that it was claimed. -/
def setAddress (i : Interface) (address netmask gateway : Ipv4Address) : Interface :=
  { i with
    addresses := { i.addresses with address := address, netmask := netmask, gateway := gateway }
    conflict := false }

/-- Remember a neighbour. -/
def learn (i : Interface) (a : Ipv4Address) (hardware : MacAddress) : Interface :=
  { i with cache := i.cache.learn a hardware }

/-- Let a second pass. -/
def tick (i : Interface) : Interface := { i with cache := i.cache.tick }

/-! ### Address resolution -/

/-- Take note of an address resolution packet, and answer a request for our address.

Our own packets are ignored, and so is what another host tells under our address, the conflict
apart. -/
def handleArp (i : Interface) (p : Arp.Packet) : Interface × Option Arp.Packet :=
  let l := i.addresses
  if p.srcHardware = l.hardware then (i, none)
  else if l.isAssigned ∧ p.srcProtocol = l.address then ({ i with conflict := true }, none)
  else match p.operation with
    | .request =>
      if l.isAssigned ∧ p.dstProtocol = l.address then
        (i.learn p.srcProtocol p.srcHardware, some (p.answer l.hardware))
      else (i, none)
    | .reply => (i.learn p.srcProtocol p.srcHardware, none)
    | .unknown _ => (i, none)

/-- Our request for the hardware address of `target`. -/
def request (i : Interface) (target : Ipv4Address) : Arp.Packet :=
  .request i.addresses.hardware i.addresses.address target

/-! ### Inbound datagrams -/

/-- Read the header of a datagram whose header checksum the link has found correct, and tell in
what capacity it reaches us. -/
def classify (i : Interface) (p : Ipv4.View) (c : ChecksumSet) :
    Except PacketError (Ipv4.Header × Destination) :=
  if !c.ipv4 then .error .wrongChecksum
  else do
    let h ← Ipv4.Header.parse p .manual
    match h.protocol with
    | .unknown _ => .error .unrecognized
    | _ => .ok (h, i.addresses.classify h.dst)

/-- Remember the sender of a datagram as a neighbour, if it can be one. -/
def noteSender (i : Interface) (src : Ipv4Address) (hardware : MacAddress) : Interface :=
  if i.addresses.onSubnet src ∧ hardware.isUnicast then i.learn src hardware else i

/-- The frame that answers the echo request in `frame`, and whether it is to be sent: an echo reply
needs no answer.  As much of the data goes back as is at hand. -/
def echoReply (i : Interface) (frame : Ethernet.View) (h : Ipv4.Header) :
    Except PacketError (Option Bytes) := do
  let p : Ipv4.View := frame.payload
  let message : Icmp.View := p.payload.take h.payloadLen
  match ← Icmp.Echo.parse message .ignored with
  | .reply _ _ => .ok none
  | .request _ _ =>
    -- What is not at hand is not sent back, so the datagram gets the length of what is.
    let len := UInt16.ofNat (p.headerLen + message.length)
    let header := (putWord p.header 2 len).set 8 i.hopLimit
    let addressed := overwriteAt header 12 (i.addresses.address.toBytes ++ h.src.toBytes)
    let reply := message.retype .echoReply 0
    .ok (some (Ethernet.Header.encode ⟨i.addresses.hardware, frame.src, .ipv4⟩ ++
      Ipv4.View.fillChecksum addressed ++ reply))

/-! ### Outbound datagrams -/

/-- Take the identifier of another datagram. -/
def nextIdent (i : Interface) : Interface := { i with ident := i.ident + 1 }

/-- The header of a datagram that we send. -/
def header (i : Interface) (payloadLen : Nat) (dst : Ipv4Address) (protocol : IpProtocol) :
    Ipv4.Header where
  src := i.addresses.address
  dst := dst
  protocol := protocol
  payloadLen := payloadLen
  hopLimit := i.hopLimit

/-- The octets of a header that we send, whose checksum is filled in when the datagram leaves. -/
def encodeHeader (i : Interface) (h : Ipv4.Header) : Bytes := h.encode i.ident .ignored

end Interface

end NetEngine
