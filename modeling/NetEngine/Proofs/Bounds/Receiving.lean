import NetEngine.Engine.Poll
import NetEngine.Proofs.Bounds.Echo
import NetEngine.Proofs.Bounds.Transports
import NetEngine.Proofs.Engine.Handling
import NetEngine.Proofs.Engine.Sorting

/-! # Frames Are Received Inside

    A frame is led through the layers with every access guarded, and the outcome is
    the one without a guard: no octet outside of those at hand has any part in it.
    Each layer passes on what the next one relies on, which is the place of the
    transport packet for the most part.

    * **Address resolution**: the packets that are taken note of, also while an
      answer is awaited.
    * **Transports**: what each protocol reads of a frame.
    * **Frames**: a frame as a whole. -/

namespace NetEngine

open Guarded

variable {L : Type} [Link L]

/-! ## Address resolution -/

namespace Net

/-- Take note of a packet and send the answer that it asks for. -/
def receiveArp? (net : Net L) (packet : Bytes) : Guarded (Except NetError Unit × Net L) :=
  settle (Arp.Packet.parse? packet) (.error .illegal, net) fun p =>
    let r := net.iface.handleArp p
    let net := { net with iface := r.1 }
    match r.2 with
    | none => return (.ok (), net)
    | some answer => return net.sendFrame (answer.frame answer.dstHardware)

theorem receiveArp?_eq (net : Net L) (packet : Bytes) :
    net.receiveArp? packet = pure (net.receiveArp packet) := by
  unfold receiveArp? receiveArp
  rw [Arp.Packet.parse?_eq]
  cases Arp.Packet.parse packet with
  | error err => rw [settle_error]
  | ok p =>
    rw [settle_ok]
    dsimp only
    cases (net.iface.handleArp p).2 <;> rfl

/-- Look at the link once while an answer is awaited. -/
def look? (net : Net L) : Guarded (Net L) :=
  match Link.receive net.link Arp.frameLen with
  | (none, link) => return { net with link := link }
  | (some arrival, link) => do
    let frame : Ethernet.View := arrival.resident
    let net := { net with link := link }
    let net ← settle (Ethernet.Header.parse? frame) net fun h =>
      match h.etherType with
      | .arp => do
        let packet ← from? frame Ethernet.headerLen
        let r ← net.receiveArp? packet
        return r.2
      | _ => return net
    return { net with link := Link.done net.link }

theorem look?_eq (net : Net L) : net.look? = pure net.look := by
  unfold look? look
  cases Link.receive net.link Arp.frameLen with
  | mk found link =>
    cases found with
    | none => rfl
    | some arrival =>
      dsimp only
      rw [Ethernet.Header.parse?_eq]
      cases hparsed : Ethernet.Header.parse arrival.resident with
      | error err => rw [settle_error, pure_bind]
      | ok h =>
        have hlong := (Ethernet.Header.parse_eq_ok hparsed).1
        rw [settle_ok]
        obtain ⟨src, dst, type⟩ := h
        cases type with
        | arp =>
          dsimp only
          rw [from?_of_le hlong, pure_bind, receiveArp?_eq]
          rfl
        | ipv4 => rfl
        | unknown code => rfl

end Net

namespace Engine

variable (e : Engine L) (frame : Ethernet.View) (ip : Ipv4.Header) (destination : Destination)
  (c : ChecksumSet)

/-! ## Transports -/

/-- Hand a user datagram that starts at `offset` to the binding that it is for. -/
def receiveUdp? (offset : Nat) : Guarded (Outcome L) :=
  if !c.udp then throw .wrongChecksum
  else do
    let p : Udp.View ← from? frame offset
    let h ← Udp.Header.parse? p ip .ignored
    match e.ports.lookup h.dstPort h.srcPort with
    | none => return ⟨e, .unhandled, .ok none⟩
    | some slot => do
      let octets ← p.payload?
      let payload ← Payload.ofResident? octets h.payloadLen (offset + Udp.headerLen) e.net.link
      return ⟨e, .udp, .ok (some (.udp {
        binding := slot
        src := ip.src
        dst := ip.dst
        srcPort := h.srcPort
        dstPort := h.dstPort
        destination := destination
        dhcp := c.dhcp
        payload := payload }))⟩

/-- Answer the control message in a frame. -/
def receiveIcmp? : Guarded (Outcome L) :=
  if !c.icmp then throw .wrongChecksum
  else if destination ≠ .unicast then return ⟨e, .unhandled, .ok none⟩
  else do
    match ← e.net.iface.echoReply? frame ip with
    | none => return ⟨e, .unhandled, .ok none⟩
    | some reply =>
      let r := e.net.sendFrame reply
      match r.1 with
      | .ok () => return ⟨{ e with net := r.2 }, .icmp, .ok none⟩
      | .error _ => return ⟨{ e with net := r.2 }, .dropped, .ok none⟩

/-- Take the segment that starts at `offset`. -/
def receiveTcp? (offset : Nat) : Guarded (Outcome L) := do
  let p : Tcp.View ← from? frame offset
  let s ← e.tcp.decode? p ip c
  let r := e.tcp.receive s ip.src
  let headerLen ← p.headerLen?
  let octets ← p.payload?
  let payload ← Payload.ofResident? octets s.payloadLen (offset + headerLen) e.net.link
  let event := r.delivery.map <| Option.map fun d => Event.tcp {
    role := d.role
    remoteAddr := ip.src
    remotePort := s.srcPort
    seq := d.seq
    count := d.count
    skip := d.skip
    payload := payload }
  let e := { e with tcp := r.machine, net := (e.net.follow r.out).2 }
  return ⟨e, if r.concerned then .tcp else .unhandled, event⟩

/-- Lead a datagram that is for us to its protocol. -/
def receiveTransport? : Guarded (Outcome L) := do
  let assigned := e.net.iface.addresses.isAssigned
  let packet : Ipv4.View ← from? frame Ethernet.headerLen
  let headerLen ← packet.headerLen?
  let offset := Ethernet.headerLen + headerLen
  match ip.protocol with
  | .udp => e.receiveUdp? frame ip destination c offset
  | .icmp =>
    if !assigned then return ⟨e, .filtered, .ok none⟩ else e.receiveIcmp? frame ip destination c
  | .tcp =>
    if !assigned then return ⟨e, .filtered, .ok none⟩
    else if destination = .unicast then e.receiveTcp? frame ip c offset
    else return ⟨e, .unhandled, .ok none⟩
  | .unknown _ => return ⟨e, .unhandled, .ok none⟩

section

variable {frame} {offset : Nat}

omit [Link L] in
theorem receiveUdp?_eq (inside : offset ≤ frame.length) :
    e.receiveUdp? frame ip destination c offset =
      of (e.receiveUdp frame offset ip destination c) := by
  unfold receiveUdp? receiveUdp
  rw [of_ite, from?_of_le inside, pure_bind, Udp.Header.parse?_eq]
  congr 1
  apply of_bind_congr
  intro h hparsed
  cases e.ports.lookup h.dstPort h.srcPort with
  | none => rfl
  | some slot =>
    have hcheck : Udp.View.check (frame.drop offset) = .ok () := by
      obtain ⟨_, hcheck, -⟩ := exists_of_bind_eq_ok hparsed
      exact hcheck
    dsimp only
    rw [Udp.View.payload?_of_checked hcheck, pure_bind, Payload.ofResident?_eq]
    rfl

theorem receiveTcp?_eq (inside : offset ≤ frame.length) :
    e.receiveTcp? frame ip c offset = of (e.receiveTcp frame offset ip c) := by
  unfold receiveTcp? receiveTcp
  rw [from?_of_le inside, pure_bind, Tcp.Machine.decode?_eq]
  apply of_bind_congr
  intro s hdecoded
  have hcheck : Tcp.View.check (frame.drop offset) = .ok () := by
    obtain ⟨_, hcheck, -⟩ := exists_of_bind_eq_ok (parse_of_decode hdecoded)
    exact hcheck
  obtain ⟨hlong, hthere⟩ := Tcp.View.check_eq_ok hcheck
  rw [Tcp.View.headerLen?_of_long (Nat.le_trans hlong hthere), pure_bind,
    Tcp.View.payload?_of_checked hcheck, pure_bind, Payload.ofResident?_eq]
  rfl

variable {ip}

theorem receiveIcmp?_eq (parsed : Ipv4.Header.parse frame.payload .manual = .ok ip)
    (type : frame.etherType = .ipv4) :
    e.receiveIcmp? frame ip destination c = of (e.receiveIcmp frame ip destination c) := by
  unfold receiveIcmp? receiveIcmp
  rw [of_ite, of_ite, e.net.iface.echoReply?_eq parsed type]
  congr 2
  apply of_bind_congr
  intro answer _
  cases answer with
  | none => rfl
  | some reply =>
    dsimp only
    cases (e.net.sendFrame reply).1 <;> rfl

theorem receiveTransport?_eq (parsed : Ipv4.Header.parse frame.payload .manual = .ok ip)
    (type : frame.etherType = .ipv4) :
    e.receiveTransport? frame ip destination c =
      of (e.receiveTransport frame ip destination c) := by
  obtain ⟨hlong, hthere, -⟩ := Ipv4.View.check_eq_ok (Ipv4.Header.parse_eq_ok parsed).1
  have hpayload : frame.payload.length = frame.length - 14 := List.length_drop
  unfold Ipv4.headerLen at hlong
  -- The transport packet starts inside, and so each protocol reads what is at hand of it.
  have hinside : Ethernet.headerLen + Ipv4.View.headerLen frame.payload ≤ frame.length := by
    unfold Ethernet.headerLen
    omega
  unfold receiveTransport? receiveTransport
  rw [from?_of_le (by omega), pure_bind]
  show Ipv4.View.headerLen? frame.payload >>= _ = _
  rw [Ipv4.View.headerLen?_of_long (by omega), pure_bind]
  dsimp only
  cases ip.protocol with
  | udp => exact e.receiveUdp?_eq ip destination c hinside
  | icmp =>
    dsimp only
    rw [of_ite, e.receiveIcmp?_eq destination c parsed type]
    rfl
  | tcp =>
    dsimp only
    rw [of_ite, of_ite, e.receiveTcp?_eq ip c hinside]
    rfl
  | unknown code => rfl

end

/-! ## Frames -/

/-- Take the datagram in a frame, if it is for us.  Its sender becomes a known neighbour. -/
def receiveDatagram? : Guarded (Outcome L) := do
  let packet ← from? frame Ethernet.headerLen
  settle (e.net.iface.classify? packet c) ⟨e, .dropped, .ok none⟩ fun (ip, destination) =>
    if e.net.iface.addresses.isAssigned ∧ destination = .notOurs then
      return ⟨e, .filtered, .ok none⟩
    else
      let iface := e.net.iface.noteSender ip.src frame.src
      let e := { e with net := { e.net with iface := iface } }
      settle (e.receiveTransport? frame ip destination c) ⟨e, .dropped, .ok none⟩ pure

/-- Lead a frame to its protocol. -/
def handle? : Guarded (Outcome L) :=
  settle (Ethernet.Header.parse? frame) ⟨e, .dropped, .ok none⟩ fun h =>
    if !e.net.iface.addresses.hears h.dst then return ⟨e, .filtered, .ok none⟩
    else match h.etherType with
      | .arp => do
        let packet ← from? frame Ethernet.headerLen
        let r ← e.net.receiveArp? packet
        return ⟨{ e with net := r.2 }, match r.1 with | .ok () => .arp | .error _ => .dropped,
          .ok none⟩
      | .ipv4 => e.receiveDatagram? frame c
      | .unknown _ => return ⟨e, .filtered, .ok none⟩

theorem receiveDatagram?_eq (long : Ethernet.headerLen ≤ frame.length)
    (type : frame.etherType = .ipv4) :
    e.receiveDatagram? frame c = pure (e.receiveDatagram frame c) := by
  unfold receiveDatagram? receiveDatagram
  rw [from?_of_le long, pure_bind]
  show settle (e.net.iface.classify? frame.payload c) _ _ = _
  rw [Interface.classify?_eq]
  cases hclassified : e.net.iface.classify frame.payload c with
  | error err => rw [settle_error]
  | ok classified =>
    obtain ⟨ip, destination⟩ := classified
    have hparsed := (Interface.classify_eq_ok hclassified).2
    rw [settle_ok]
    dsimp only
    by_cases hours : e.net.iface.addresses.isAssigned ∧ destination = .notOurs
    · rw [if_pos hours, if_pos hours]
    · rw [if_neg hours, if_neg hours]
      show settle ((e.noting frame ip).receiveTransport? frame ip destination c) _ pure =
        pure ((e.noting frame ip).carry frame ip destination c)
      unfold carry
      rw [receiveTransport?_eq _ destination c hparsed type]
      cases (e.noting frame ip).receiveTransport frame ip destination c <;> rfl

theorem handle?_eq : e.handle? frame c = pure (e.handle frame c) := by
  unfold handle? handle
  rw [Ethernet.Header.parse?_eq]
  cases hparsed : Ethernet.Header.parse frame with
  | error err => rw [settle_error]
  | ok h =>
    obtain ⟨hlong, rfl⟩ := Ethernet.Header.parse_eq_ok hparsed
    rw [settle_ok]
    dsimp only
    by_cases hheard : !e.net.iface.addresses.hears frame.dst
    · rw [if_pos hheard, if_pos hheard]
    · rw [if_neg hheard, if_neg hheard]
      cases htype : frame.etherType with
      | arp =>
        dsimp only
        rw [from?_of_le hlong, pure_bind, Net.receiveArp?_eq]
        rfl
      | ipv4 => exact e.receiveDatagram?_eq frame c hlong htype
      | unknown code => rfl

/-- **No frame makes the engine reach outside** the octets that are at hand of it, and no length
that it tells is less than what is taken away from it.  Whatever the state of the engine, whatever
the octets, and whatever the link says of their checksums, a frame is handled with every access
guarded, and so is one that arrives while an answer is awaited, and what is read of a payload
afterwards. -/
theorem reads_inside :
    (∀ (e : Engine L) (frame : Bytes) (c : ChecksumSet),
      e.handle? frame c = pure (e.handle frame c)) ∧
    (∀ net : Net L, net.look? = pure net.look) ∧
    ∀ (p : Payload L) (start : Nat) (buffer : Bytes), p.readInto? start buffer =
      pure (overwrite buffer
        ((p.readAt start buffer.length).take (min buffer.length (p.len - start)))) :=
  ⟨fun e frame c => e.handle?_eq frame c, Net.look?_eq, Payload.readInto?_eq⟩

end Engine

end NetEngine
