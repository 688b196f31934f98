import NetEngine.Proofs.Link.Datagrams

/-! # Frames That Carry a Segment

    * **Layout**: a frame that we send is an Ethernet header, an internet header
      without options, and the segment.
    * **Carried**: who sends what to whom, as a reader of the frame finds it.
    * **Sealed**: the link finds the segment in the frame and writes its checksum,
      which covers the addresses of both hosts, and not what stood in its field
      before. -/

namespace NetEngine

namespace Offload

/-! ## Datagrams in frames -/

/-- A frame with an internet datagram. -/
def frameOf (e : Ethernet.Header) (h : Ipv4.Header) (ident : UInt16) (packet : Bytes) : Bytes :=
  e.encode ++ (h.encodeSummed ident (h.checksum ident) ++ packet)

section Frame

variable {e : Ethernet.Header} {h : Ipv4.Header} {packet : Bytes}

theorem length_frameOf (e : Ethernet.Header) (h : Ipv4.Header) (ident : UInt16) (packet : Bytes) :
    (frameOf e h ident packet).length = Ethernet.headerLen + (Ipv4.headerLen + packet.length) := by
  simp [frameOf]

/-- The header in a frame leads the packet. -/
theorem leads_frameOf (canonical : .ofCode h.protocol.code = h.protocol)
    (length : h.payloadLen = packet.length) (fits : Ipv4.headerLen + packet.length < 65536)
    (ident : UInt16) :
    Ipv4.View.Leads (h.encodeSummed ident (h.checksum ident)) h.protocol packet.length :=
  length ▸ Ipv4.Header.leads_encodeSummed canonical (length ▸ fits) ident _

/-- The datagram is found in the frame. -/
theorem datagram?_frameOf (type : e.etherType = .ipv4)
    (canonical : .ofCode h.protocol.code = h.protocol) (length : h.payloadLen = packet.length)
    (fits : Ipv4.headerLen + packet.length < 65536) (ident : UInt16) :
    datagram? (frameOf e h ident packet) =
      some (h.encodeSummed ident (h.checksum ident) ++ packet) :=
  datagram?_encode_append type (leads_frameOf canonical length fits ident)

end Frame

/-! ## Segments in frames -/

/-- A segment on its way. -/
structure Carried where
  src : Ipv4Address
  dst : Ipv4Address
  /-- The octets of the whole segment. -/
  octets : Tcp.View

/-- The segment in a frame, if there is one. -/
def carried? (frame : Bytes) : Option Carried :=
  match datagram? frame with
  | none => none
  | some p => if p.protocol = .tcp then some ⟨p.src, p.dst, p.payload⟩ else none

theorem carried?_frameOf {e : Ethernet.Header} {h : Ipv4.Header} {segment : Bytes}
    (type : e.etherType = .ipv4) (protocol : h.protocol = .tcp)
    (length : h.payloadLen = segment.length) (fits : Ipv4.headerLen + segment.length < 65536)
    (ident : UInt16) : carried? (frameOf e h ident segment) = some ⟨h.src, h.dst, segment⟩ := by
  have canonical : .ofCode h.protocol.code = h.protocol := by
    rw [protocol]
    rfl
  have hleads := leads_frameOf canonical length fits ident
  unfold carried?
  rw [datagram?_frameOf type canonical length fits]
  dsimp only
  rw [if_pos ((hleads.fields_append _).2.2.2.2.2.trans protocol), hleads.payload_append,
    Ipv4.Header.src_encodeSummed, Ipv4.Header.dst_encodeSummed]

/-! ## Sums of segments -/

/-- The octets of a segment between two hosts whose checksum has been written. -/
def sealed (src dst : Ipv4Address) (segment : Bytes) : Bytes :=
  let cleared := putWord segment 16 0
  putWord cleared 16 ((pieces outboundPiece cleared).foldl Checksum.RunningSum.feed
    (Ipv4.startSum src dst .tcp (UInt16.ofNat cleared.length))).field

theorem fillSegment_eq (p : Ipv4.View) (segment : Bytes) :
    fillSegment p segment = sealed p.src p.dst segment := rfl

@[simp] theorem length_sealed (src dst : Ipv4Address) (segment : Bytes) :
    (sealed src dst segment).length = segment.length := by
  simp [sealed]

/-- What a segment is but for its checksum does not change. -/
theorem exists_sealed (src dst : Ipv4Address) (s : Tcp.Segment) (payload : Bytes) :
    ∃ sum, sealed src dst (s.encode ++ payload) = s.encodeSummed sum ++ payload := by
  unfold sealed
  rw [Tcp.Segment.encode_eq_encodeSummed]
  dsimp only
  rw [Tcp.Segment.putWord_encodeSummed, Tcp.Segment.putWord_encodeSummed]
  exact ⟨_, rfl⟩

/-- A frame with a segment leaves with the segment sealed. -/
theorem fill_frameOf {e : Ethernet.Header} {h : Ipv4.Header} {segment : Bytes}
    (type : e.etherType = .ipv4) (protocol : h.protocol = .tcp)
    (length : h.payloadLen = segment.length) (fits : Ipv4.headerLen + segment.length < 65536)
    (ident : UInt16) :
    fill (frameOf e h ident segment) { tcp := true } =
      frameOf e h ident (sealed h.src h.dst segment) := by
  let p : Ipv4.View := h.encodeSummed ident (h.checksum ident) ++ segment
  have hleads := leads_frameOf (by rw [protocol]; rfl) length fits ident
  have hprotocol : p.protocol = .tcp := (hleads.fields_append _).2.2.2.2.2.trans protocol
  have htransport : fillTransport p { tcp := true } segment = sealed h.src h.dst segment := by
    unfold fillTransport
    simp only [hprotocol, reduceCtorEq, if_false, and_self, if_true]
    exact fillSegment_eq p segment
  unfold frameOf
  rw [fill_encode_append type hleads rfl, htransport]

end Offload

end NetEngine
