import NetEngine.Proofs.Engine.Handling
import NetEngine.Proofs.Link.Frames
import NetEngine.Proofs.Link.Residency

/-! # Reading What a Frame Brings

    A poll takes a frame from the loopback link and brings the application its
    payload, of which some octets are resident and the others are read from the
    link.  The application reads the payload of the frame, as if all of it were at
    hand.

    * **Brought**: the payload of an event starts behind the headers that have been
      read in the first octets.
    * **Reads as**: what reading gives, at every place and in every order. -/

namespace NetEngine

/-! ## Reading -/

/-- New octets are read behind those that are known. -/
def NewData.reader (d : NewData Loopback) : Reader := fun start n link =>
  d.payload.reader (d.skip + start) (min n (d.count - start)) link

/-- Whoever reads gets the octets of `content`: at every place as many as there are, with the link
as it was handed out, and with the link as any reads before have left it. -/
structure ReadsAs (frame content : Bytes) (readAt : (start n : Nat) → Bytes) (reader : Reader) :
    Prop where
  slices : ∀ start n, readAt start n = slice content start n
  count : ∀ start n, (readAt start n).length = min n (content.length - start)
  answers : ∀ requests link, link.current = some frame →
    reader.answers requests link = requests.map fun q => slice content q.1 q.2

theorem readsAs_of_reads {frame content : Bytes} {readAt : (start n : Nat) → Bytes}
    {reader : Reader} (slices : ∀ start n, readAt start n = slice content start n)
    (reads : reader.Reads frame content) : ReadsAs frame content readAt reader where
  slices := slices
  count start n := by rw [slices, length_slice]
  answers requests _ held := reads.answers requests held

/-- The new octets are the last ones of the payload. -/
theorem readsAs_newData {d : NewData Loopback} {frame content : Bytes}
    (shows : d.payload.Shows frame content) (last : d.skip + d.count = d.payload.len) :
    ReadsAs frame (content.drop d.skip) d.readAt d.reader := by
  have hslice (start n : Nat) : slice content (d.skip + start) (min n (d.count - start)) =
      slice (content.drop d.skip) start n := by
    have hlen := shows.len
    have hrest : d.count - start = content.length - (d.skip + start) := by omega
    rw [hrest, Nat.min_comm, slice_min]
    unfold slice
    rw [List.drop_drop]
  apply readsAs_of_reads
  · intro start n
    rw [← hslice]
    exact shows.slices _ _
  · intro start n link held
    rw [← hslice]
    exact shows.reads _ _ link held

/-- An event reads as the frame that has brought it: the payload of the datagram or of the segment,
and its last octets if these are the new ones. -/
def Event.ReadsAs (frame : Ethernet.View) : Event Loopback → Prop
  | .udp d => d.payload.len = frame.userPayload.length ∧
      NetEngine.ReadsAs frame frame.userPayload d.payload.readAt d.payload.reader
  | .tcp d => d.payload.len = frame.segmentPayload.length ∧
      NetEngine.ReadsAs frame frame.segmentPayload d.payload.readAt d.payload.reader ∧
      (d.skip + d.count = d.payload.len →
        NetEngine.ReadsAs frame (frame.segmentPayload.drop d.skip) d.readAt d.reader)

namespace Engine

/-- What a datagram brings that has been found in the first octets of a frame reads as the whole
frame. -/
theorem readsAs_of_transported {e : Engine Loopback} {frame : Ethernet.View} {room : Nat}
    {ip : Ipv4.Header} {c : ChecksumSet} {o : Outcome Loopback} {event : Event Loopback}
    (held : e.net.link.current = some frame)
    (whole : Ipv4.View.totalLen frame.payload ≤ frame.payload.length)
    (parsed : Ipv4.Header.parse (Ethernet.View.payload (frame.take room)) .manual = .ok ip)
    (transported : e.Transported (frame.take room) ip c o) (brought : o.event = .ok (some event)) :
    event.ReadsAs frame := by
  obtain ⟨hpacket, hwithin⟩ := packet_eq_slice parsed whole
  cases transported with
  | left | echo => cases brought
  | datagram d header hheader payload =>
    cases brought
    obtain ⟨hcontent, hbound, k, hnear⟩ := userPayload_eq_slice hpacket hheader
    have hshows : d.payload.Shows frame frame.userPayload := by
      rw [payload, hcontent]
      exact Payload.shows_ofResident held hnear (by omega)
    exact ⟨hshows.len, readsAs_of_reads hshows.slices hshows.reads⟩
  | segment s o hs tcp net hevent stops =>
    obtain ⟨d, rfl, payload⟩ := hevent event brought
    obtain ⟨hcontent, hbound, k, hnear⟩ := segmentPayload_eq_slice hpacket hs
    have hshows : d.payload.Shows frame frame.segmentPayload := by
      rw [payload, hcontent]
      exact Payload.shows_ofResident held hnear (by omega)
    exact ⟨hshows.len, readsAs_of_reads hshows.slices hshows.reads, readsAs_newData hshows⟩

/-- **Residency is transparent**: whatever a poll brings reads as the frame that it has taken from
the link, whose payload is where its own length fields say, however long it is and however much of
it has come with the headers. -/
theorem payload_transparent (e : Engine Loopback) {frame : Ethernet.View} {rest : List Bytes}
    (arrived : e.net.link.inbound = frame :: rest) {event : Event Loopback}
    (brought : e.poll.event = .ok (some event)) : event.ReadsAs frame := by
  let link : Loopback := { e.net.link with
    inbound := rest
    current := some frame
    cursor := (frame.take receiveRoom).length }
  let taken : Engine Loopback := { e with net := { e.net with link := link } }
  have hreceive : Link.receive e.net.link receiveRoom =
      (some ⟨frame.length, Offload.verified frame, frame.take receiveRoom⟩, link) := by
    show e.net.link.receive receiveRoom = _
    unfold Loopback.receive
    rw [arrived]
  have hevent : e.poll.event =
      (taken.handle (frame.take receiveRoom) (Offload.verified frame)).event := by
    unfold poll
    rw [hreceive]
  rw [hevent] at brought
  have hhandled := handled_handle taken (frame.take receiveRoom) (Offload.verified frame)
  generalize taken.handle (frame.take receiveRoom) (Offload.verified frame) = o at hhandled brought
  cases hhandled with
  | left | arp => cases brought
  | datagram ip o intact parsed transported =>
    exact readsAs_of_transported rfl (Offload.whole_of_verified intact) parsed transported brought

/-- Two frames with padding behind payloads of 600 octets: of the datagram 548 are resident, and of
the segment, which has an option, 532; it repeats ten octets. -/
theorem payload_transparent_long :
    let own : Ipv4Address := ⟨10, 0, 0, 1⟩
    let peer : Ipv4Address := ⟨10, 0, 0, 2⟩
    let e := start { address := own } ({} : Loopback)
    let header : Ethernet.Header := ⟨⟨2, 0, 0, 0, 0, 2⟩, e.config.hardware, .ipv4⟩
    let octets : Bytes := List.replicate 600 7
    let datagram := Udp.Header.encode ⟨5000, 9, 600⟩ ++ octets
    let userFrame := Offload.frameOf header ⟨peer, own, .udp, datagram.length, 64⟩ 1 datagram ++ [0, 0]
    let bound : Engine Loopback := { e with
      net := { e.net with link := { inbound := [userFrame] } }
      ports := (e.ports.register ⟨9, none⟩).toOption.elim e.ports (·.2) }
    let c := { Tcp.Connection.fresh 1 with
      state := .established
      localPort := 4000
      remotePort := 7000
      remoteAddr := peer
      lastReceived := ⟨109⟩ }
    let s : Tcp.Segment := ⟨7000, 4000, ⟨100⟩, c.lastSent, .ACK, 1024, some 1460, 600⟩
    let segment := s.encode ++ octets
    let segmentFrame := Offload.fill
      (Offload.frameOf header ⟨peer, own, .tcp, segment.length, 64⟩ 1 segment) { tcp := true } ++ [0, 0]
    let connected : Engine Loopback := { e with
      net := { e.net with link := { inbound := [segmentFrame] } }
      tcp := { e.tcp with client := c } }
    (∃ d, bound.poll.event = .ok (some (.udp d)) ∧ d.payload.resident.length = 548 ∧
      ReadsAs userFrame (Ethernet.View.userPayload userFrame) d.payload.readAt d.payload.reader) ∧
    ∃ d, connected.poll.event = .ok (some (.tcp d)) ∧
      d.payload.resident.length = 532 ∧ d.skip = 10 ∧
      ReadsAs segmentFrame ((Ethernet.View.segmentPayload segmentFrame).drop 10) d.readAt d.reader := by
  intro own peer e header octets datagram userFrame bound c s segment segmentFrame connected
  constructor
  · have hbrought : (bound.poll.event.map <| Option.map fun
        | .udp d => d.payload.resident.length
        | .tcp _ => 0) = .ok (some 548) := by decide +kernel
    obtain ⟨event, hevent, hresident⟩ := brought_of_map hbrought
    cases event with
    | udp d => exact ⟨d, hevent, hresident, (payload_transparent bound rfl hevent).2⟩
    | tcp d => cases hresident
  · have hbrought : (connected.poll.event.map <| Option.map fun
        | .udp _ => (0, 0, 0)
        | .tcp d => (d.payload.resident.length, d.skip, d.payload.len - d.count)) =
          .ok (some (532, 10, 10)) := by decide +kernel
    obtain ⟨event, hevent, hsizes⟩ := brought_of_map hbrought
    cases event with
    | udp d => cases hsizes
    | tcp d =>
      simp only [Prod.mk.injEq] at hsizes
      obtain ⟨hresident, hskip, hlen⟩ := hsizes
      have hreads := (payload_transparent connected rfl hevent).2.2 (by omega)
      rw [hskip] at hreads
      exact ⟨d, hevent, hresident, hskip, hreads⟩

end Engine

end NetEngine
