import NetEngine.Proofs.Link.Accepting
import NetEngine.Proofs.Net.Segments
import NetEngine.Proofs.Tcp.Copies

/-! # What the Interface Sends Is Acceptable

    Whatever the interface does over a loopback link, it **emits** frames: they go
    behind those that have been sent before, and a receiver accepts each of them.

    * **Resolution**: requests, and the replies that are sent while an answer is
      awaited.
    * **Packets**: a packet goes out in a frame that the link completes.  Each
      transport has to show that its packets are complete then.
    * **Segments**: one after the other, until one of them can not be sent. -/

namespace NetEngine

open Ethernet.View (Acceptable)

/-! ## The link -/

namespace Loopback

theorem sent_receive (l : Loopback) (capacity : Nat) : (l.receive capacity).2.sent = l.sent := by
  unfold receive
  cases l.inbound <;> rfl

/-- A frame that is sent as it is has to be short enough. -/
theorem transmit_whole (l : Loopback) (frame : Bytes) :
    l.transmit frame frame.length .none none =
      if frame.length ≤ Ethernet.maxFrame then (.ok (), { l with sent := l.sent ++ [frame] })
      else (.error .badSize, l) := by
  unfold transmit assemble
  by_cases hshort : frame.length ≤ Ethernet.maxFrame
  · rw [if_neg (by omega), if_pos hshort]
    dsimp only
    rw [if_pos rfl]
    dsimp only
    rw [Offload.fill_none]
  · rw [if_pos (by omega), if_neg hshort]

end Loopback

/-! ## Packets of address resolution -/

namespace Interface

variable {i : Interface} {p answer : Arp.Packet}

/-- A packet of address resolution changes at most who is known, and whether our address is
claimed. -/
theorem handleArp_settings (i : Interface) (p : Arp.Packet) :
    (i.handleArp p).1 = { i with
      cache := (i.handleArp p).1.cache
      conflict := (i.handleArp p).1.conflict } := by
  unfold handleArp
  dsimp only
  split
  · rfl
  · split
    · rfl
    · cases p.operation with
      | request =>
        dsimp only
        split <;> rfl
      | reply | unknown => rfl

theorem addresses_handleArp (i : Interface) (p : Arp.Packet) :
    (i.handleArp p).1.addresses = i.addresses := by
  rw [handleArp_settings]

/-- What answers a packet is our reply to it. -/
theorem answer_of_handleArp (h : (i.handleArp p).2 = some answer) :
    answer = p.answer i.addresses.hardware := by
  unfold handleArp at h
  dsimp only at h
  split at h
  · cases h
  · split at h
    · cases h
    · cases hop : p.operation with
      | request =>
        rw [hop] at h
        dsimp only at h
        split at h
        · cases h
          rfl
        · cases h
      | reply | unknown =>
        rw [hop] at h
        cases h

end Interface

namespace Net

variable {net net' net'' : Net Loopback}

/-! ## Emission -/

/-- The frames that have been sent meanwhile are acceptable, and come from our station. -/
structure Emits (net net' : Net Loopback) : Prop where
  hardware : net'.iface.addresses.hardware = net.iface.addresses.hardware
  sent : ∃ new, net'.link.sent = net.link.sent ++ new ∧
    ∀ frame ∈ new, Acceptable net.iface.addresses.hardware frame

namespace Emits

theorem silent (hardware : net'.iface.addresses.hardware = net.iface.addresses.hardware)
    (sent : net'.link.sent = net.link.sent) : net.Emits net' :=
  ⟨hardware, [], by rw [sent, List.append_nil], fun _ h => absurd h List.not_mem_nil⟩

theorem refl (net : Net Loopback) : net.Emits net := .silent rfl rfl

theorem one {frame : Bytes}
    (hardware : net'.iface.addresses.hardware = net.iface.addresses.hardware)
    (sent : net'.link.sent = net.link.sent ++ [frame])
    (acceptable : Acceptable net.iface.addresses.hardware frame) : net.Emits net' := by
  refine ⟨hardware, [frame], sent, fun f hf => ?_⟩
  rw [List.mem_singleton.mp hf]
  exact acceptable

theorem trans (h : net.Emits net') (h' : net'.Emits net'') : net.Emits net'' := by
  obtain ⟨hhardware, new, hsent, hnew⟩ := h
  obtain ⟨hhardware', new', hsent', hnew'⟩ := h'
  refine ⟨hhardware'.trans hhardware, new ++ new', ?_, fun frame hframe => ?_⟩
  · rw [hsent', hsent, List.append_assoc]
  · rcases List.mem_append.mp hframe with hmem | hmem
    · exact hnew frame hmem
    · rw [← hhardware]
      exact hnew' frame hmem

end Emits

/-- A frame that is short enough goes behind those that have been sent. -/
theorem sendFrame_eq (net : Net Loopback) {frame : Bytes}
    (short : frame.length ≤ Ethernet.maxFrame) :
    net.sendFrame frame =
      (.ok (), { net with link := { net.link with sent := net.link.sent ++ [frame] } }) := by
  have hresult : net.sendFrame frame =
      ((net.link.transmit frame frame.length .none none).1,
        { net with link := (net.link.transmit frame frame.length .none none).2 }) := rfl
  rw [hresult, Loopback.transmit_whole, if_pos short]

/-- A frame that is sent as it is. -/
theorem emits_sendFrame {frame : Bytes}
    (acceptable : frame.length ≤ Ethernet.maxFrame →
      Acceptable net.iface.addresses.hardware frame) : net.Emits (net.sendFrame frame).2 := by
  have hlink : (net.sendFrame frame).2.link =
      (net.link.transmit frame frame.length .none none).2 := rfl
  rw [Loopback.transmit_whole] at hlink
  split at hlink
  · rename_i hshort
    refine .one rfl ?_ (acceptable hshort)
    rw [hlink]
  · refine .silent rfl ?_
    rw [hlink]

/-! ## Resolution -/

theorem emits_receiveArp (net : Net Loopback) (packet : Bytes) :
    net.Emits (net.receiveArp packet).2 := by
  unfold receiveArp
  split
  · exact .refl net
  · rename_i p _
    let noted : Net Loopback := { net with iface := (net.iface.handleArp p).1 }
    have haddresses : noted.iface.addresses = net.iface.addresses :=
      Interface.addresses_handleArp net.iface p
    have hnoted : net.Emits noted := .silent (by rw [haddresses]) rfl
    dsimp only
    split
    · exact hnoted
    · rename_i answer hanswer
      refine hnoted.trans (emits_sendFrame fun _ => ?_)
      rw [Interface.answer_of_handleArp hanswer, haddresses]
      let reply := p.answer net.iface.addresses.hardware
      exact Arp.Packet.acceptable_frame (p := reply) (.inr rfl) reply.dstHardware

/-- The link sends nothing when a frame is taken from it. -/
theorem emits_of_receive {capacity : Nat} {arrival : Option Arrival} {link : Loopback}
    (h : Link.receive net.link capacity = (arrival, link)) :
    net.Emits { net with link := link } := by
  have hreceive : net.link.receive capacity = (arrival, link) := h
  have hsent := Loopback.sent_receive net.link capacity
  rw [hreceive] at hsent
  exact .silent rfl hsent

theorem emits_look (net : Net Loopback) : net.Emits net.look := by
  unfold look
  split
  · rename_i link h
    exact emits_of_receive h
  · rename_i arrival link h
    let taken : Net Loopback := { net with link := link }
    have htaken : net.Emits taken := emits_of_receive h
    dsimp only
    split
    · -- Only packets of address resolution are looked at.
      have hnoted := emits_receiveArp taken (Ethernet.View.payload arrival.resident)
      exact (htaken.trans hnoted).trans (.silent rfl rfl)
    · exact htaken.trans (.silent rfl rfl)

theorem emits_awaitWhile (net : Net Loopback) (hop : Ipv4Address) (going : Loopback → Bool)
    (n : Nat) : net.Emits (net.awaitWhile hop going n).2 := by
  induction n generalizing net with
  | zero => exact .refl net
  | succ n ih =>
    unfold awaitWhile
    split
    · dsimp only
      split
      · exact emits_look net
      · exact (emits_look net).trans (ih net.look)
    · exact .refl net

theorem emits_await (net : Net Loopback) (hop : Ipv4Address) : net.Emits (net.await hop).2 := by
  unfold await
  split
  · exact emits_awaitWhile net hop _ _
  · exact emits_awaitWhile net hop _ _

/-- Requests are sent until one is answered. -/
theorem emits_ask (net : Net Loopback) (hop : Ipv4Address) (n : Nat) :
    net.Emits (net.ask hop n).2 := by
  induction n generalizing net with
  | zero => exact .refl net
  | succ n ih =>
    let request := net.iface.request hop
    have hrequest : net.Emits (net.sendFrame (request.frame .broadcast)).2 :=
      emits_sendFrame fun _ => Arp.Packet.acceptable_frame (p := request) (.inl rfl) .broadcast
    unfold ask
    dsimp only
    split
    · rename_i err asked h
      rwa [h] at hrequest
    · rename_i asked h
      rw [h] at hrequest
      have hawait := emits_await asked hop
      split
      · rename_i hardware answered hanswered
        rw [hanswered] at hawait
        exact hrequest.trans hawait
      · rename_i unanswered hunanswered
        rw [hunanswered] at hawait
        exact (hrequest.trans hawait).trans (ih unanswered)

theorem emits_resolve (net : Net Loopback) (target : Ipv4Address) :
    net.Emits (net.resolve target).2 := by
  unfold resolve
  split
  · exact .refl net
  · split
    · exact .refl net
    · split
      · exact .refl net
      · exact emits_ask net _ _

/-! ## Packets -/

/-- A packet goes out in one frame, if it does.  The frame has to be acceptable when the link has
written the checksum of the packet. -/
theorem emits_sendPacket {dst : Ipv4Address} {protocol : IpProtocol} {len : Nat} {headers : Bytes}
    {checksums : ChecksumSet} {body : Option Body} (short : headers.length ≤ len)
    (canonical : .ofCode protocol.code = protocol)
    (complete : ∀ (e : Ethernet.Header) (hd : Ipv4.View) (packet : Bytes), e.etherType = .ipv4 →
      Checksum.isIntact hd → (e.encode ++ (hd ++ packet)).length ≤ 1514 →
      hd.Leads protocol packet.length → Loopback.packet? headers len body = some packet →
      Acceptable e.src (Offload.fill (e.encode ++ (hd ++ packet)) checksums)) :
    net.Emits (net.sendPacket dst protocol len headers checksums body).2 := by
  have hidentified : net.Emits net.identified := .silent rfl rfl
  have hresolved := hidentified.trans (emits_resolve net.identified dst)
  cases hresolve : net.identified.resolve dst with
  | mk result net' =>
    rw [hresolve] at hresolved
    cases result with
    | error err =>
      rw [sendPacket_of_unresolved hresolve]
      exact hresolved
    | ok hardware =>
      rw [sendPacket_of_resolved short hresolve]
      cases hpacket : (if Interface.headersLen + len ≤ Ethernet.maxFrame then
          Loopback.packet? headers len body else none) with
      | none => exact hresolved
      | some packet =>
        obtain ⟨hfits, hthere⟩ := Option.ite_none_right_eq_some.mp hpacket
        have hlength : packet.length = len := Loopback.length_of_packet? short hthere
        have hshort : Ipv4.headerLen + packet.length < 65536 := hlength ▸ short_of_fits hfits
        let h := net.identified.iface.header len dst protocol
        let ident := net.identified.iface.ident
        let e : Ethernet.Header := ⟨net'.iface.addresses.hardware, hardware, .ipv4⟩
        refine hresolved.trans (.one rfl rfl ?_)
        apply complete e (h.encodeSummed ident (h.checksum ident)) packet rfl
        · rw [hlength] at hshort
          exact Ipv4.Header.isIntact_encodeSummed canonical hshort ident
        · show (Offload.frameOf e h ident packet).length ≤ 1514
          rw [Offload.length_frameOf, hlength, ← Nat.add_assoc]
          exact hfits
        · exact Offload.leads_frameOf (h := h) canonical hlength.symm hshort ident
        · exact hthere

theorem emits_sendDatagram (net : Net Loopback) (srcPort dstPort : UInt16) (dst : Ipv4Address)
    (len : Nat) (source : Supplier) :
    net.Emits (net.sendDatagram srcPort dstPort dst len source).2 := by
  unfold sendDatagram
  split
  · exact .refl net
  · rename_i hsize
    let header : Udp.Header := ⟨srcPort, dstPort, len⟩
    have hheader : header.encode.length = Udp.headerLen := rfl
    have hlen : Udp.headerLen + len < 65536 := by
      have hmax : len ≤ maxDatagram := by omega
      have : Udp.headerLen + maxDatagram = 1480 := rfl
      omega
    have hshort : header.encode.length ≤ Udp.headerLen + len := hheader ▸ Nat.le_add_right _ _
    apply emits_sendPacket hshort rfl
    intro e hd packet type intact short leads there
    have hlength : packet.length = Udp.headerLen + len := Loopback.length_of_packet? hshort there
    -- The packet starts with the header that tells its length.
    obtain ⟨payload, -, rfl⟩ := Option.map_eq_some_iff.mp there
    refine Offload.acceptable_userDatagram type intact short leads (by omega) ?_
    have hfield : Udp.View.lenField (header.encode ++ payload) =
        UInt16.ofNat (Udp.headerLen + len) := word_div_mod _
    rw [hlength, hfield, UInt16.toNat_ofNat']
    omega

/-! ## Segments -/

/-- A segment with a header is complete when the link has sealed it. -/
theorem emits_sendSegment {o : Tcp.Outgoing} (header : o.HasHeader) :
    net.Emits (net.sendSegment o).2 := by
  have hlen : Tcp.headerLen ≤ o.len := by
    cases o with
    | fresh dst segment body =>
      have hheader : Tcp.headerLen ≤ segment.headerLen := segment.headerLen_le
      show Tcp.headerLen ≤ segment.headerLen + segment.payloadLen
      omega
    | copy dst octets => exact header
  rw [sendSegment_eq]
  apply emits_sendPacket o.length_headers_le rfl
  intro e hd packet type intact short leads there
  have hlength : packet.length = o.len := Loopback.length_of_packet? o.length_headers_le there
  refine Offload.acceptable_segment type intact short leads ?_
  unfold Tcp.headerLen at hlen
  omega

theorem emits_follow {out : Option Tcp.Outgoing} (header : ∀ o ∈ out, o.HasHeader) :
    net.Emits (net.follow out).2 := by
  cases out with
  | none => exact .refl net
  | some o => exact emits_sendSegment (header o rfl)

/-- Segments one after the other, whether they can be sent or not. -/
theorem emits_sendSegments (out : List Tcp.Outgoing) (header : ∀ o ∈ out, o.HasHeader) :
    net.Emits (net.sendSegments out) := by
  induction out generalizing net with
  | nil => exact .refl net
  | cons o out ih =>
    have hfirst : net.Emits (net.sendSegment o).2 :=
      emits_sendSegment (header o List.mem_cons_self)
    exact hfirst.trans (ih fun o' ho => header o' (List.mem_cons_of_mem _ ho))

/-- The pieces of a source are sent in new segments. -/
theorem emits_sendPieces (net : Net Loopback) (tcp : Tcp.Machine) (role : Tcp.Role)
    (source : Source) (tracked : Bool) (heap : Tcp.Heap) (ps : List Tcp.Piece) :
    net.Emits (net.sendPieces tcp role source tracked heap ps).2.1 := by
  induction ps generalizing net tcp with
  | nil => exact .refl net
  | cons p ps ih =>
    let step := tcp.sendPiece role source tracked p
    have hpiece : net.Emits (net.follow step.out).2 := by
      apply emits_follow
      rintro o ⟨⟩
      trivial
    unfold sendPieces
    dsimp only
    split
    · exact .refl net
    · split
      · rename_i err refused h
        rwa [h] at hpiece
      · rename_i sent h
        rw [h] at hpiece
        exact hpiece.trans (ih sent step.machine)

end Net

end NetEngine
