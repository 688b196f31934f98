import NetEngine.Engine

/-! # Polling

    One frame is taken from the link and led through the layers.  Each layer
    reads its header in place, in the octets that came with the frame.

    A frame that is refused on the way leaves no trace but in the statistics,
    except that the sender of a datagram for us has become a known neighbour.

    A frame can also stop the engine, by a **fault** in the arithmetic. -/

namespace NetEngine

/-- What becomes of a frame. -/
structure Outcome (L : Type) where
  engine : Engine L
  fate : Fate
  /-- What the frame brings for the application, unless the engine stops at it. -/
  event : Except Fault (Option (Event L)) := .ok none

namespace Engine

variable {L : Type} [Link L]

/-- Hand a user datagram that starts at `offset` to the binding that it is for. -/
def receiveUdp (e : Engine L) (frame : Bytes) (offset : Nat) (ip : Ipv4.Header)
    (destination : Destination) (c : ChecksumSet) : Except PacketError (Outcome L) :=
  if !c.udp then .error .wrongChecksum
  else do
    let p : Udp.View := frame.drop offset
    let h ← Udp.Header.parse p ip .ignored
    match e.ports.lookup h.dstPort h.srcPort with
    | none => .ok ⟨e, .unhandled, .ok none⟩
    | some slot => .ok ⟨e, .udp, .ok (some (.udp {
        binding := slot
        src := ip.src
        dst := ip.dst
        srcPort := h.srcPort
        dstPort := h.dstPort
        destination := destination
        dhcp := c.dhcp
        payload := .ofResident p.payload h.payloadLen (offset + Udp.headerLen) e.net.link }))⟩

/-- Answer the control message in a frame. -/
def receiveIcmp (e : Engine L) (frame : Bytes) (ip : Ipv4.Header) (destination : Destination)
    (c : ChecksumSet) : Except PacketError (Outcome L) :=
  if !c.icmp then .error .wrongChecksum
  else if destination ≠ .unicast then .ok ⟨e, .unhandled, .ok none⟩
  else do
    match ← e.net.iface.echoReply frame ip with
    | none => .ok ⟨e, .unhandled, .ok none⟩
    | some reply =>
      let r := e.net.sendFrame reply
      match r.1 with
      | .ok () => .ok ⟨{ e with net := r.2 }, .icmp, .ok none⟩
      | .error _ => .ok ⟨{ e with net := r.2 }, .dropped, .ok none⟩

/-- Take the segment that starts at `offset`.  What it brings for the application refers to the link
before the answer is sent, which may need the link for an address. -/
def receiveTcp (e : Engine L) (frame : Bytes) (offset : Nat) (ip : Ipv4.Header) (c : ChecksumSet) :
    Except PacketError (Outcome L) := do
  let p : Tcp.View := frame.drop offset
  let s ← e.tcp.decode p ip c
  let r := e.tcp.receive s ip.src
  let event := r.delivery.map <| Option.map fun d => Event.tcp {
    role := d.role
    remoteAddr := ip.src
    remotePort := s.srcPort
    seq := d.seq
    count := d.count
    skip := d.skip
    payload := .ofResident p.payload s.payloadLen (offset + p.headerLen) e.net.link }
  let e := { e with tcp := r.machine, net := (e.net.follow r.out).2 }
  .ok ⟨e, if r.concerned then .tcp else .unhandled, event⟩

/-- Lead a datagram that is for us to its protocol.  Without an address, only user datagrams are
taken. -/
def receiveTransport (e : Engine L) (frame : Ethernet.View) (ip : Ipv4.Header)
    (destination : Destination) (c : ChecksumSet) : Except PacketError (Outcome L) :=
  let assigned := e.net.iface.addresses.isAssigned
  let offset := Ethernet.headerLen + Ipv4.View.headerLen frame.payload
  match ip.protocol with
  | .udp => e.receiveUdp frame offset ip destination c
  | .icmp =>
    if !assigned then .ok ⟨e, .filtered, .ok none⟩ else e.receiveIcmp frame ip destination c
  | .tcp =>
    if !assigned then .ok ⟨e, .filtered, .ok none⟩
    else if destination = .unicast then e.receiveTcp frame offset ip c
    else .ok ⟨e, .unhandled, .ok none⟩
  | .unknown _ => .ok ⟨e, .unhandled, .ok none⟩

/-- Take the datagram in a frame, if it is for us.  Its sender becomes a known neighbour. -/
def receiveDatagram (e : Engine L) (frame : Ethernet.View) (c : ChecksumSet) : Outcome L :=
  match e.net.iface.classify frame.payload c with
  | .error _ => ⟨e, .dropped, .ok none⟩
  | .ok (ip, destination) =>
    if e.net.iface.addresses.isAssigned ∧ destination = .notOurs then ⟨e, .filtered, .ok none⟩
    else
      -- The sender stays known even if the transport refuses what it sent.
      let iface := e.net.iface.noteSender ip.src frame.src
      let e := { e with net := { e.net with iface := iface } }
      match e.receiveTransport frame ip destination c with
      | .ok o => o
      | .error _ => ⟨e, .dropped, .ok none⟩

/-- Lead a frame to its protocol. -/
def handle (e : Engine L) (frame : Ethernet.View) (c : ChecksumSet) : Outcome L :=
  match Ethernet.Header.parse frame with
  | .error _ => ⟨e, .dropped, .ok none⟩
  | .ok h =>
    if !e.net.iface.addresses.hears h.dst then ⟨e, .filtered, .ok none⟩
    else match h.etherType with
      | .arp =>
        let r := e.net.receiveArp frame.payload
        ⟨{ e with net := r.2 }, match r.1 with | .ok () => .arp | .error _ => .dropped, .ok none⟩
      | .ipv4 => e.receiveDatagram frame c
      | .unknown _ => ⟨e, .filtered, .ok none⟩

/-- What a poll brings. -/
structure Polled (L : Type) where
  engine : Engine L
  /-- Was there a frame? -/
  taken : Bool
  /-- What the frame brings for the application, unless the engine stops at it.  Where it does, there
  is no way on, and nobody sees the engine that is returned. -/
  event : Except Fault (Option (Event L)) := .ok none

/-- Take a frame from the link and handle it. -/
def poll (e : Engine L) : Polled L :=
  match Link.receive e.net.link receiveRoom with
  | (none, link) => { engine := { e with net := { e.net with link := link } }, taken := false }
  | (some arrival, link) =>
    let o := { e with net := { e.net with link := link } }.handle arrival.resident
      arrival.checksums
    -- The frame is given back to the link, whatever has become of it.
    let net := { o.engine.net with link := Link.done o.engine.net.link }
    { engine := { o.engine with net := net, statistics := o.engine.statistics.count o.fate }
      taken := true
      event := o.event }

/-- One round: the seconds that have passed, what is due, and one frame. -/
def round (e : Engine L) (now : UInt32) : Polled L := (e.catchUp now).upkeep.poll

end Engine

end NetEngine
