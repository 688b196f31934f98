import NetEngine.Engine.Poll
import NetEngine.Proofs.Link.Datagrams
import NetEngine.Proofs.Tcp.Stopping

/-! # What Becomes of a Frame

    A frame is led through the layers, each of which may refuse it.  Whatever its
    way, it ends in one of a few ways, and these tell all that it has done.

    * **Transported**: a datagram for us has reached its transport.
    * **Handled**: a frame has come to its end.

    What a frame keeps, sends or brings is proved of each end, and then holds of
    every frame. -/

namespace NetEngine

section Classified

variable {i : Interface} {p : Ipv4.View} {c : ChecksumSet} {h : Ipv4.Header}
  {destination : Destination}

/-- What can be classified is a datagram whose header is intact and whose protocol is known. -/
theorem Interface.classify_eq_ok_iff : i.classify p c = .ok (h, destination) ↔
    c.ipv4 ∧ Ipv4.Header.parse p .manual = .ok h ∧ (∀ code, h.protocol ≠ .unknown code) ∧
      destination = i.addresses.classify h.dst := by
  constructor
  · intro classified
    unfold classify at classified
    split at classified
    · cases classified
    · rename_i hintact
      obtain ⟨header, hparse, hheader⟩ := exists_of_bind_eq_ok classified
      split at hheader
      · cases hheader
      · rename_i hknown
        cases hheader
        exact ⟨by simpa using hintact, hparse, hknown, rfl⟩
  · rintro ⟨hintact, hparsed, hknown, rfl⟩
    unfold classify
    simp only [hintact, hparsed, Bool.not_true, Bool.false_eq_true, if_false]
    cases hprotocol : h.protocol with
    | unknown code => exact absurd hprotocol (hknown code)
    | _ => simp [hprotocol, bind, Except.bind]

theorem Interface.classify_eq_ok (classified : i.classify p c = .ok (h, destination)) :
    c.ipv4 ∧ Ipv4.Header.parse p .manual = .ok h := by
  obtain ⟨hintact, hparsed, -⟩ := Interface.classify_eq_ok_iff.mp classified
  exact ⟨hintact, hparsed⟩

end Classified

namespace Engine

variable {L : Type}

/-- The sender of a datagram has become a known neighbour, if it can be one. -/
def noting (e : Engine L) (frame : Ethernet.View) (ip : Ipv4.Header) : Engine L :=
  { e with net := { e.net with iface := e.net.iface.noteSender ip.src frame.src } }

variable [Link L]

/-! ## Transports -/

/-- How a datagram ends that is for us. -/
inductive Transported (e : Engine L) (frame : Ethernet.View) (ip : Ipv4.Header) (c : ChecksumSet) :
    Outcome L → Prop
  /-- It is refused, or nobody wants it. -/
  | left (fate : Fate) : Transported e frame ip c ⟨e, fate, .ok none⟩
  /-- An echo request is answered, whether the reply can be sent or not. -/
  | echo (reply : Bytes) (fate : Fate) (protocol : ip.protocol = .icmp)
      (answers : e.net.iface.echoReply frame ip = .ok (some reply)) :
      Transported e frame ip c ⟨{ e with net := (e.net.sendFrame reply).2 }, fate, .ok none⟩
  /-- A user datagram goes to the application. -/
  | datagram (d : Datagram L) (header : Udp.Header)
      (parsed : Udp.Header.parse (frame.drop frame.packetStart) ip .ignored = .ok header)
      (payload : d.payload = .ofResident (Udp.View.payload (frame.drop frame.packetStart))
        header.payloadLen (frame.packetStart + Udp.headerLen) e.net.link) :
      Transported e frame ip c ⟨e, .udp, .ok (some (.udp d))⟩
  /-- A segment is received, and what it brings is handed over before it is answered. -/
  | segment (s : Tcp.Segment) (o : Outcome L)
      (parsed : Tcp.Segment.parse (frame.drop frame.packetStart) ip .ignored = .ok s)
      (tcp : o.engine.tcp = (e.tcp.receive s ip.src).machine)
      (net : o.engine.net = (e.net.follow (e.tcp.receive s ip.src).out).2)
      (event : ∀ event, o.event = .ok (some event) → ∃ d : NewData L, event = .tcp d ∧
        d.payload = .ofResident (Tcp.View.payload (frame.drop frame.packetStart)) s.payloadLen
          (frame.packetStart + Tcp.View.headerLen (frame.drop frame.packetStart)) e.net.link)
      (stops : ∀ fault, o.event = .error fault → (e.tcp.receive s ip.src).delivery = .error fault) :
      Transported e frame ip c o

section Transports

variable {e : Engine L} {frame : Ethernet.View} {ip : Ipv4.Header} {destination : Destination}
  {c : ChecksumSet} {o : Outcome L}

theorem transported_receiveUdp (h : e.receiveUdp frame frame.packetStart ip destination c = .ok o) :
    e.Transported frame ip c o := by
  unfold receiveUdp at h
  split at h
  · cases h
  · obtain ⟨header, hparsed, hheader⟩ := exists_of_bind_eq_ok h
    split at hheader
    · cases hheader
      exact .left .unhandled
    · cases hheader
      exact .datagram _ header hparsed rfl

theorem transported_receiveIcmp (protocol : ip.protocol = .icmp)
    (h : e.receiveIcmp frame ip destination c = .ok o) : e.Transported frame ip c o := by
  unfold receiveIcmp at h
  split at h
  · cases h
  · split at h
    · cases h
      exact .left .unhandled
    · obtain ⟨answer, hanswer, hrest⟩ := exists_of_bind_eq_ok h
      cases answer with
      | none =>
        cases hrest
        exact .left .unhandled
      | some reply =>
        dsimp only at hrest
        split at hrest <;> cases hrest <;> exact .echo reply _ protocol hanswer

theorem parse_of_decode {m : Tcp.Machine} {p : Tcp.View} {s : Tcp.Segment}
    (decoded : m.decode p ip c = .ok s) : Tcp.Segment.parse p ip .ignored = .ok s := by
  unfold Tcp.Machine.decode at decoded
  split at decoded
  · cases decoded
  · obtain ⟨s', hparsed, hpassed⟩ := exists_of_bind_eq_ok decoded
    split at hpassed
    · cases hpassed
    · cases hpassed
      exact hparsed

theorem transported_receiveTcp (h : e.receiveTcp frame frame.packetStart ip c = .ok o) :
    e.Transported frame ip c o := by
  obtain ⟨s, hdecoded, hs⟩ := exists_of_bind_eq_ok h
  cases hs
  refine .segment s _ (parse_of_decode hdecoded) rfl rfl ?_ ?_
  · intro event hevent
    obtain ⟨d, -, rfl⟩ := brought_of_map hevent
    exact ⟨_, rfl, rfl⟩
  · intro fault hfault
    exact map_eq_error_iff.mp hfault

theorem transported_receiveTransport (h : e.receiveTransport frame ip destination c = .ok o) :
    e.Transported frame ip c o := by
  unfold receiveTransport at h
  dsimp only at h
  split at h
  · exact transported_receiveUdp h
  · rename_i hprotocol
    split at h
    · cases h
      exact .left .filtered
    · exact transported_receiveIcmp hprotocol h
  · split at h
    · cases h
      exact .left .filtered
    · split at h
      · exact transported_receiveTcp h
      · cases h
        exact .left .unhandled
  · cases h
    exact .left .unhandled

end Transports

/-! ## Frames -/

/-- How a frame ends. -/
inductive Handled (e : Engine L) (frame : Ethernet.View) (c : ChecksumSet) : Outcome L → Prop
  /-- It is refused, or nobody wants it. -/
  | left (fate : Fate) : Handled e frame c ⟨e, fate, .ok none⟩
  /-- A packet of address resolution is taken note of. -/
  | arp (fate : Fate) :
      Handled e frame c ⟨{ e with net := (e.net.receiveArp frame.payload).2 }, fate, .ok none⟩
  /-- A datagram is for us.  Its sender is noted before it goes to its transport. -/
  | datagram (ip : Ipv4.Header) (o : Outcome L) (intact : c.ipv4 = true)
      (parsed : Ipv4.Header.parse frame.payload .manual = .ok ip)
      (transported : (e.noting frame ip).Transported frame ip c o) : Handled e frame c o

theorem handled_receiveDatagram (e : Engine L) (frame : Ethernet.View) (c : ChecksumSet) :
    e.Handled frame c (e.receiveDatagram frame c) := by
  unfold receiveDatagram
  split
  · exact .left .dropped
  · rename_i ip destination hclassified
    obtain ⟨hintact, hparsed⟩ := Interface.classify_eq_ok hclassified
    split
    · exact .left .filtered
    · dsimp only
      split
      · rename_i o h
        exact .datagram ip o hintact hparsed
          (transported_receiveTransport (e := e.noting frame ip) h)
      · exact .datagram ip _ hintact hparsed (.left .dropped)

/-- **Every frame ends in one of these ways.** -/
theorem handled_handle (e : Engine L) (frame : Ethernet.View) (c : ChecksumSet) :
    e.Handled frame c (e.handle frame c) := by
  unfold handle
  split
  · exact .left .dropped
  · split
    · exact .left .filtered
    · split
      · exact .arp _
      · exact handled_receiveDatagram e frame c
      · exact .left .filtered

/-! ## Where the engine stops -/

/-- **A frame stops the engine only by a segment half a round away**: it is empty, does not reset the
connection that it belongs to, and that connection receives. -/
theorem handle_stops {e : Engine L} {frame : Ethernet.View} {c : ChecksumSet} {fault : Fault}
    (stops : (e.handle frame c).event = .error fault) :
    ∃ ip s, Ipv4.Header.parse frame.payload .manual = .ok ip ∧
      Tcp.Segment.parse (frame.drop frame.packetStart) ip .ignored = .ok s ∧
      ∃ role, e.tcp.responder? s ip.src = some role ∧ s.flags.rst = false ∧
        (e.tcp.conn role).state.receives ∧ (e.tcp.conn role).IsHalfRoundAway s := by
  have hhandled := handled_handle e frame c
  generalize e.handle frame c = o at stops hhandled
  cases hhandled with
  | left | arp => cases stops
  | datagram ip o intact parsed transported =>
    cases transported with
    | left | echo | datagram => cases stops
    | segment s o parsed' tcp net event stops' =>
      refine ⟨ip, s, parsed, parsed', ?_⟩
      -- To note the sender does not change the transport layer.
      have hstops : e.tcp.stopsAt (.receive s [] ip.src) = true := by
        have hfault := stops' fault stops
        change (e.tcp.receive s ip.src).delivery = .error fault at hfault
        exact Tcp.Machine.stopsAt_receive_iff.mpr ⟨fault, hfault⟩
      obtain ⟨role, s', heard, hreset, receives, far⟩ := Tcp.Machine.stopsAt_iff.mp hstops
      obtain ⟨responder, rfl⟩ := Tcp.Machine.heardBy_receive_eq_some.mp heard
      exact ⟨role, responder, hreset, receives, far⟩

end Engine

end NetEngine
