import NetEngine.Config
import NetEngine.Net.Transport
import NetEngine.Tcp.Machine.Receive
import NetEngine.Tcp.Machine.Upkeep
import NetEngine.Udp.PortTable

/-! # The Engine

    The engine holds the state of every layer and the link.  Frames are handled
    one at a time and to the end.

    - **Event**: what a frame brings for the application.  It carries the
      payload, to be read while the link still has the frame.
    - **Fate**: what becomes of a frame, for the statistics. -/

namespace NetEngine

/-- The room for the first octets of a frame: the headers of any frame, and a segment of 536
octets. -/
def receiveRoom : Nat := 590

/-! ### Events -/

/-- A user datagram for one of our bindings. -/
structure Datagram (L : Type) where
  /-- The slot of the binding. -/
  binding : Nat
  src : Ipv4Address
  dst : Ipv4Address
  srcPort : UInt16
  dstPort : UInt16
  destination : Destination
  /-- Does it come from a server that hands out addresses? -/
  dhcp : Bool
  payload : Payload L

/-- New octets on one of our connections. -/
structure NewData (L : Type) where
  role : Tcp.Role
  remoteAddr : Ipv4Address
  remotePort : UInt16
  /-- The number of the first octet of the payload. -/
  seq : Tcp.SeqNumber
  /-- How many octets are new. -/
  count : Nat
  /-- How many octets in front of them are known. -/
  skip : Nat
  /-- The payload of the whole segment. -/
  payload : Payload L

/-- Up to `n` of the new octets, from `start` on. -/
def NewData.readAt {L : Type} [Link L] (d : NewData L) (start n : Nat) : Bytes :=
  d.payload.readAt (d.skip + start) (min n (d.count - start))

/-- What a frame brings for the application. -/
inductive Event (L : Type) where
  | udp (d : Datagram L)
  | tcp (d : NewData L)

/-! ### Statistics -/

/-- What becomes of a frame. -/
inductive Fate where
  | arp
  | icmp
  | udp
  | tcp
  /-- It reached a protocol, and nobody wanted it. -/
  | unhandled
  /-- It was not for us, or not in our present state. -/
  | filtered
  /-- It was malformed, or a checksum was wrong. -/
  | dropped
deriving DecidableEq

/-- How many frames there were of each sort, up to whole rounds of 32 bits. -/
structure Statistics where
  received : UInt32 := 0
  dropped : UInt32 := 0
  filtered : UInt32 := 0
  unhandled : UInt32 := 0
  arp : UInt32 := 0
  icmp : UInt32 := 0
  udp : UInt32 := 0
  tcp : UInt32 := 0
deriving DecidableEq

/-- Count a frame. -/
def Statistics.count (s : Statistics) (v : Fate) : Statistics :=
  let s := { s with received := s.received + 1 }
  match v with
  | .arp => { s with arp := s.arp + 1 }
  | .icmp => { s with icmp := s.icmp + 1 }
  | .udp => { s with udp := s.udp + 1 }
  | .tcp => { s with tcp := s.tcp + 1 }
  | .unhandled => { s with unhandled := s.unhandled + 1 }
  | .filtered => { s with filtered := s.filtered + 1 }
  | .dropped => { s with dropped := s.dropped + 1 }

/-! ### State -/

/-- The state of all layers, and the link. -/
structure Engine (L : Type) where
  config : Config
  net : Net L
  ports : Udp.PortTable
  tcp : Tcp.Machine
  statistics : Statistics
  /-- The second up to which time has been counted. -/
  lastSecond : Option UInt32

namespace Engine

variable {L : Type}

/-- The engine at its start. -/
def start (c : Config) (link : L) : Engine L where
  config := c
  net := {
    iface := .fresh ⟨c.hardware, c.address, c.netmask, c.gateway⟩ (.empty c.arpLifetime)
      c.arpRequests.toNat (.looks c.arpPolls.toNat) c.hopLimit
    link := link }
  ports := .empty
  tcp := .fresh ⟨c.serverPort, c.retries, c.timeout, c.maxAge, c.filterFlags⟩ c.isnSeed
  statistics := {}
  lastSecond := none

/-- Set our address. -/
def setAddress (e : Engine L) (address netmask gateway : Ipv4Address) : Engine L :=
  { e with
    config := { e.config with address := address, netmask := netmask, gateway := gateway }
    net := { e.net with iface := e.net.iface.setAddress address netmask gateway } }

/-- Time the wait for a neighbour by a clock of a given rate. -/
def useClock (e : Engine L) (rate : Nat) : Engine L :=
  { e with net := { e.net with iface := { e.net.iface with patience := .ticks rate } } }

/-! ### Time -/

/-- Let a second pass. -/
def tick (e : Engine L) : Engine L :=
  { e with net := { e.net with iface := e.net.iface.tick }, tcp := e.tcp.tick }

/-- Let `n` seconds pass. -/
def ticks : Nat → Engine L → Engine L
  | 0, e => e
  | n + 1, e => ticks n e.tick

/-- Let the seconds pass that have gone by since the last update, as the count of seconds `now`
tells.  Every countdown is an octet, so that after 256 seconds nothing changes any more. -/
def catchUp (e : Engine L) (now : UInt32) : Engine L :=
  let passed := match e.lastSecond with
    | none => 0
    | some last => min (now - last).toNat 256
  { ticks passed e with lastSecond := some now }

/-! ### Ports -/

/-- Ask for the datagrams that arrive at a port. -/
def register (e : Engine L) (b : Udp.Binding) : Except NetError (Nat × Engine L) := do
  let (slot, ports) ← e.ports.register b
  return (slot, { e with ports := ports })

/-- Ask for them no longer. -/
def unregister (e : Engine L) (slot : Nat) : Except NetError (Engine L) := do
  return { e with ports := ← e.ports.unregister slot }

/-- A port that neither a binding nor a connection has taken. -/
def freshPort (e : Engine L) : Option (UInt16 × Engine L) :=
  (e.ports.freshPort e.tcp.portInUse).map fun r => (r.1, { e with ports := r.2 })

/-! ### Sending -/

variable [Link L]

/-- The hardware address for datagrams to `dst`. -/
def resolve (e : Engine L) (dst : Ipv4Address) : Except NetError MacAddress × Engine L :=
  let r := e.net.resolve dst
  (r.1, { e with net := r.2 })

/-- Send a user datagram. -/
def sendDatagram (e : Engine L) (srcPort dstPort : UInt16) (dst : Ipv4Address) (len : Nat)
    (source : Supplier) : Except NetError Unit × Engine L :=
  let r := e.net.sendDatagram srcPort dstPort dst len source
  (r.1, { e with net := r.2 })

/-- Send the segment that a step asks for, if it asks for one. -/
def follow (e : Engine L) (step : Tcp.Step) : Except NetError Unit × Engine L :=
  let r := e.net.follow step.out
  (r.1, { e with tcp := step.machine, net := r.2 })

/-- Open a connection.  It is dropped if the SYN can not be sent. -/
def connect (e : Engine L) (role : Tcp.Role) (localPort remotePort : UInt16)
    (remote : Ipv4Address) : Except NetError Unit × Engine L :=
  match e.tcp.connect role localPort remotePort remote with
  | .error err => (.error err, e)
  | .ok step =>
    match e.follow step with
    | (.ok (), e) => (.ok (), e)
    | (.error err, e) => (.error err, { e with tcp := e.tcp.reset role })

/-- Wait for somebody to connect to a port. -/
def listen (e : Engine L) (port : UInt16) : Except NetError Unit × Engine L :=
  match e.tcp.listen port with
  | .error err => (.error err, e)
  | .ok tcp => (.ok (), { e with tcp := tcp })

/-- Send the octets of a source on an open connection, and tell how many they are.  Copies are made on
`heap`. -/
def send (e : Engine L) (role : Tcp.Role) (source : Source) (tracked : Bool)
    (heap : Tcp.Heap) : Except NetError Nat × Engine L :=
  let c := e.tcp.conn role
  if c.state ≠ .established then (.error .illegal, e)
  else
    let total := source.size
    let r := e.net.sendPieces e.tcp role source tracked heap (Tcp.pieces c.segmentSize 0 total)
    (r.1.map fun _ => total, { e with net := r.2.1, tcp := r.2.2 })

/-- Close a connection. -/
def close (e : Engine L) (role : Tcp.Role) : Except NetError Unit × Engine L :=
  e.follow (e.tcp.close role)

/-- Drop a connection. -/
def abort (e : Engine L) (role : Tcp.Role) : Except NetError Unit × Engine L :=
  e.follow (e.tcp.abort role)

/-- Resend what is due and reap what is idle. -/
def upkeep (e : Engine L) : Engine L :=
  let r := e.tcp.upkeep
  { e with tcp := r.1, net := e.net.sendSegments r.2 }

end Engine

end NetEngine
