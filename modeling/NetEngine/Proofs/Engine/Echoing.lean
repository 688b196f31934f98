import NetEngine.Proofs.Engine.Neighbours
import NetEngine.Proofs.Engine.Rejecting
import NetEngine.Proofs.Net.Answering

/-! # Echo Requests Are Answered

    * **Asking**: a frame that asks for an echo, told by its octets alone.
    * **Deciding**: the frames that are answered are those that ask.  What the link
      has found and what the layers read in the first octets are brought together.
    * **Answering**: one frame is sent, and it echoes the request. -/

namespace NetEngine

/-! ## Asking -/

/-- An address reaches one host alone. -/
def Ipv4Address.isHost (x : Ipv4Address) : Prop := x ≠ .broadcast ∧ x ≠ .mdns ∧ x ≠ .llmnr

theorem Addresses.classify_eq_unicast_iff {l : Addresses} {x : Ipv4Address} :
    l.classify x = .unicast ↔ l.isAssigned ∧ x = l.address ∧ x.isHost := by
  unfold classify Ipv4Address.isHost
  split_ifs <;> simp_all

/-- The frame asks a station with these addresses for an echo, and `room` octets of it are at
hand. -/
structure AsksEcho (l : Addresses) (room : Nat) (frame : Ethernet.View) : Prop where
  assigned : l.isAssigned
  /-- The frame passes the filter of the link. -/
  heard : l.hears frame.dst
  type : frame.etherType = .ipv4
  /-- The header is there, and the datagram as well. -/
  header : Ipv4.headerLen ≤ Ipv4.View.headerLen frame.payload ∧
    Ipv4.View.headerLen frame.payload ≤ Ipv4.View.totalLen frame.payload
  whole : Ipv4.View.totalLen frame.payload ≤ frame.payload.length
  version : Ipv4.View.version frame.payload = 4
  headerIntact : Ipv4.View.verifyChecksum frame.payload
  unbroken : Ipv4.View.moreFragments frame.payload = false ∧
    Ipv4.View.fragmentOffset frame.payload = 0
  /-- The datagram is for our address alone. -/
  ours : Ipv4.View.dst frame.payload = l.address ∧ l.address.isHost
  protocol : Ipv4.View.protocol frame.payload = .icmp
  /-- The message is intact as a whole, however much of it is at hand. -/
  intact : Icmp.View.verifyChecksum frame.packet
  request : Icmp.View.IsRequest (Ethernet.View.packet (frame.take room))

namespace Offload

/-- What the link finds out about a frame that carries a whole datagram. -/
theorem verified_whole {frame : Ethernet.View} (checked : Ipv4.View.check frame.payload = .ok ())
    (type : frame.etherType = .ipv4)
    (whole : Ipv4.View.totalLen frame.payload ≤ frame.payload.length) :
    (verified frame).ipv4 = Ipv4.View.verifyChecksum frame.payload ∧
      (verified frame).icmp = (decide (Ipv4.View.protocol frame.payload = .icmp) &&
        Icmp.View.verifyChecksum frame.packet) := by
  obtain ⟨hlong, hthere, htold⟩ := Ipv4.View.check_eq_ok checked
  have hroom : Ipv4.headerLen ≤ Ipv4.View.totalLen frame.payload := Nat.le_trans hlong htold
  have hframe : frame.check = .ok () := by
    have hpayload : frame.payload.length = frame.length - Ethernet.headerLen := List.length_drop
    unfold Ipv4.headerLen at hlong
    unfold Ethernet.View.check
    rw [if_neg (by omega)]
  have hfound : datagram? frame = some frame.datagram := by
    unfold datagram? leading?
    rw [hframe, checked]
    dsimp only
    rw [if_pos type, if_pos whole]
    rfl
  have hheader : Ipv4.View.header frame.datagram = Ipv4.View.header frame.payload :=
    Ipv4.View.header_take hroom htold
  have hprotocol : Ipv4.View.protocol frame.datagram = Ipv4.View.protocol frame.payload :=
    (Ipv4.View.fields_take hroom).1.2.2.2.2.2
  unfold verified
  rw [hfound]
  dsimp only
  rw [hprotocol]
  unfold Ipv4.View.verifyChecksum
  rw [hheader]
  exact ⟨rfl, rfl⟩

end Offload

namespace Engine

/-! ## Deciding -/

section

variable {L : Type} [Link L] {e : Engine L} {frame : Ethernet.View} {ip : Ipv4.Header}
  {destination : Destination} {c : ChecksumSet} {o : Outcome L}

/-- The frame carries a request that is for us and intact, as far as it can be told from what is at
hand and from what the link has found. -/
structure Requests (e : Engine L) (frame : Ethernet.View) (c : ChecksumSet) (ip : Ipv4.Header) :
    Prop where
  forUs : e.ForUs frame c ip .unicast
  assigned : e.net.iface.addresses.isAssigned
  protocol : ip.protocol = .icmp
  intact : c.icmp
  request : Icmp.View.IsRequest ((Ipv4.View.payload frame.payload).take ip.payloadLen)

theorem receiveIcmp_eq_icmp (h : e.receiveIcmp frame ip destination c = .ok o)
    (fate : o.fate = .icmp) :
    c.icmp ∧ destination = .unicast ∧
      Icmp.View.IsRequest ((Ipv4.View.payload frame.payload).take ip.payloadLen) := by
  unfold receiveIcmp at h
  split at h
  · cases h
  · rename_i hintact
    split at h
    · cases h
      cases fate
    · rename_i hunicast
      obtain ⟨answer, hanswer, hrest⟩ := exists_of_bind_eq_ok h
      cases answer with
      | none =>
        cases hrest
        cases fate
      | some reply =>
        refine ⟨by simpa using hintact, not_not.mp hunicast, ?_⟩
        exact (Interface.echoReply_eq_some_iff.mp hanswer).1

/-- Only a request comes to this end. -/
theorem receiveTransport_eq_icmp (h : e.receiveTransport frame ip destination c = .ok o)
    (fate : o.fate = .icmp) :
    e.net.iface.addresses.isAssigned ∧ ip.protocol = .icmp ∧ c.icmp ∧ destination = .unicast ∧
      Icmp.View.IsRequest ((Ipv4.View.payload frame.payload).take ip.payloadLen) := by
  unfold receiveTransport at h
  dsimp only at h
  split at h
  · rcases fate_receiveUdp h with hfate | hfate <;> rw [hfate] at fate <;> cases fate
  · rename_i hprotocol
    split at h
    · cases h
      cases fate
    · rename_i hassigned
      exact ⟨by simpa using hassigned, hprotocol, receiveIcmp_eq_icmp h fate⟩
  · split at h
    · cases h
      cases fate
    · split at h
      · rcases fate_receiveTcp h with hfate | hfate <;> rw [hfate] at fate <;> cases fate
      · cases h
        cases fate
  · cases h
    cases fate

theorem requests_of_fate (fate : (e.handle frame c).fate = .icmp) : ∃ ip, e.Requests frame c ip := by
  have hsorted := sorted_handle e frame c
  generalize e.handle frame c = o at hsorted fate
  cases hsorted with
  | refused fate' rejection =>
    cases fate
    cases rejection
  | arp =>
    unfold arpOutcome at fate
    dsimp only at fate
    split at fate <;> cases fate
  | datagram ip destination forUs =>
    unfold carry at fate
    split at fate
    · rename_i o h
      obtain ⟨hassigned, hprotocol, hintact, rfl, hrequest⟩ := receiveTransport_eq_icmp h fate
      have hnoting := noting_eq e frame ip
      rw [hnoting] at hassigned
      exact ⟨ip, forUs, hassigned, hprotocol, hintact, hrequest⟩
    · cases fate

end

/-- The message that is answered is what is at hand of the packet. -/
theorem message_eq_packet {frame : Ethernet.View} {ip : Ipv4.Header} {room : Nat}
    (capacity : Ethernet.headerLen + 60 ≤ room)
    (parsed : Ipv4.Header.parse frame.payload .manual = .ok ip) :
    (Ipv4.View.payload (Ethernet.View.payload (frame.take room))).take ip.payloadLen =
      Ethernet.View.packet (frame.take room) := by
  obtain ⟨hcheck, -, -, -, -, rfl⟩ := Ipv4.Header.parse_eq_ok parsed
  obtain ⟨hlong, -, htold⟩ := Ipv4.View.check_eq_ok hcheck
  have hroom : Ipv4.headerLen ≤ room - Ethernet.headerLen := by
    unfold Ipv4.headerLen
    omega
  obtain ⟨⟨hheaderLen, -, htotal, -⟩, -⟩ := Ipv4.View.fields_take (p := frame.payload) hroom
  rw [← Ethernet.View.payload_take] at hheaderLen htotal
  have hpacket := Ethernet.View.packet_eq_take (f := frame.take room)
    (by rw [htotal]; exact Nat.le_trans hlong htold)
  rw [hpacket, hheaderLen, htotal]

/-- **What the link has found and what is read in the first octets** tell together whether the whole
frame asks for an echo. -/
theorem requests_iff_asksEcho {L : Type} {e : Engine L} {frame : Ethernet.View} {room : Nat}
    (capacity : Ethernet.headerLen + 60 ≤ room) :
    (∃ ip, e.Requests (frame.take room) (Offload.verified frame) ip) ↔
      AsksEcho e.net.iface.addresses room frame := by
  obtain ⟨hdst, -, htype⟩ :=
    Ethernet.View.fields_take (f := frame) (Nat.le_trans (Nat.le_add_right _ _) capacity)
  have hparse : Ipv4.Header.parse (Ethernet.View.payload (frame.take room)) .manual =
      Ipv4.Header.parse frame.payload .manual := by
    rw [Ethernet.View.payload_take, Ipv4.Header.parse_take (by omega)]
  constructor
  · rintro ⟨ip, requests⟩
    obtain ⟨accepted, hunicast⟩ := forUs_iff.mp requests.forUs
    have hparsed := accepted.parsed
    rw [hparse] at hparsed
    have hmessage := message_eq_packet capacity hparsed
    obtain ⟨hcheck, hversion, hintact, hlast, hfirst, rfl⟩ := Ipv4.Header.parse_eq_ok hparsed
    obtain ⟨hlong, -, htold⟩ := Ipv4.View.check_eq_ok hcheck
    have hipv4 := accepted.type
    rw [htype] at hipv4
    have hwhole := Offload.whole_of_verified accepted.intact
    have hicmp := requests.intact
    rw [(Offload.verified_whole hcheck hipv4 hwhole).2, Bool.and_eq_true] at hicmp
    obtain ⟨hassigned, hown, hhost⟩ := Addresses.classify_eq_unicast_iff.mp hunicast.symm
    rw [hown] at hhost
    have hrequest := requests.request
    rw [hmessage] at hrequest
    exact {
      assigned := hassigned
      heard := hdst ▸ accepted.heard
      type := hipv4
      header := ⟨hlong, htold⟩
      whole := hwhole
      version := hversion
      headerIntact := hintact rfl
      unbroken := ⟨hlast, hfirst⟩
      ours := ⟨hown, hhost⟩
      protocol := requests.protocol
      intact := hicmp.2
      request := hrequest }
  · intro asks
    let p : Ipv4.View := frame.payload
    let ip : Ipv4.Header := ⟨p.src, p.dst, p.protocol, p.totalLen - p.headerLen, p.hopLimit⟩
    have hcheck : p.check = .ok () :=
      Ipv4.View.check_of_lengths asks.header.1 (Nat.le_trans asks.header.2 asks.whole) asks.header.2
    have hparsed : Ipv4.Header.parse frame.payload .manual = .ok ip :=
      Ipv4.Header.parse_of_intact hcheck asks.version (fun _ => asks.headerIntact)
        asks.unbroken.1 asks.unbroken.2
    have hmessage := message_eq_packet capacity hparsed
    obtain ⟨hipv4, hicmp⟩ := Offload.verified_whole hcheck asks.type asks.whole
    have hown : ip.dst = e.net.iface.addresses.address := asks.ours.1
    have hunicast : e.net.iface.addresses.classify ip.dst = .unicast := by
      rw [hown]
      exact Addresses.classify_eq_unicast_iff.mpr ⟨asks.assigned, rfl, asks.ours.2⟩
    have hprotocol : ip.protocol = .icmp := asks.protocol
    refine ⟨ip, ?_, asks.assigned, hprotocol, ?_, ?_⟩
    · refine forUs_iff.mpr ⟨?_, hunicast.symm⟩
      constructor
      case heard => rw [hdst]; exact asks.heard
      case type => rw [htype]; exact asks.type
      case intact => rw [hipv4]; exact asks.headerIntact
      case parsed => rw [hparse]; exact hparsed
      case known => intro code; rw [hprotocol]; simp
      case ours => rw [hunicast]; simp
    · rw [hicmp, Bool.and_eq_true]
      exact ⟨decide_eq_true asks.protocol, asks.intact⟩
    · rw [hmessage]
      exact asks.request

section

variable {e : Engine Loopback} {frame : Ethernet.View} {ip : Ipv4.Header} {c : ChecksumSet}

/-- **A request is answered**, and the answer is all that is sent. -/
theorem handle_of_requests (requests : e.Requests frame c ip)
    (short : frame.length ≤ Ethernet.maxFrame) :
    let message : Icmp.View := (Ipv4.View.payload frame.payload).take ip.payloadLen
    ∃ e', e.handle frame c = ⟨e', .icmp, .ok none⟩ ∧
      e'.net.link = { e.net.link with
        sent := e.net.link.sent ++ [e.net.iface.answerFrame frame ip message] } := by
  intro message
  let reply := e.net.iface.answerFrame frame ip message
  have hparsed := (Interface.classify_eq_ok requests.forUs.classified).2
  have hanswer : e.net.iface.echoReply frame ip = .ok (some reply) :=
    Interface.echoReply_eq_some_iff.mpr ⟨requests.request, rfl⟩
  have hreply : reply.length ≤ Ethernet.maxFrame :=
    Nat.le_trans (Interface.length_echoReply hparsed hanswer) short
  let noted := e.remembering (e.neighbours frame ip)
  -- The neighbours do not matter to the answer.
  have hnoted : noted.net.iface.echoReply frame ip = .ok (some reply) := hanswer
  have hassigned : noted.net.iface.addresses.isAssigned := requests.assigned
  have hsent := noted.net.sendFrame_eq hreply
  have htransport : noted.receiveTransport frame ip .unicast c =
      .ok ⟨{ noted with net := (noted.net.sendFrame reply).2 }, .icmp, .ok none⟩ := by
    unfold receiveTransport receiveIcmp
    simp only [requests.protocol, hassigned, requests.intact, hnoted, hsent, Bool.not_true,
      Bool.false_eq_true, if_false, ne_eq, not_true_eq_false, bind, Except.bind]
  rw [handle_of_forUs requests.forUs, noting_eq]
  unfold carry
  rw [htransport, hsent]
  exact ⟨_, rfl, rfl⟩

end

/-! ## Answering -/

/-- An echo is counted where one has been sent. -/
theorem icmp_count_iff {s : Statistics} {fate : Fate} :
    (s.count fate).icmp = s.icmp + 1 ↔ fate = .icmp := by
  cases fate <;> simp [Statistics.count]

/-- What is sent back is as long as what is at hand of the request. -/
theorem length_of_asks {l : Addresses} {frame : Ethernet.View} {room : Nat}
    (capacity : Ethernet.headerLen + 60 ≤ room) (asks : AsksEcho l room frame) :
    Ethernet.View.packet (frame.take room) <+: frame.packet ∧
      frame.packetStart + (Ethernet.View.packet (frame.take room)).length =
        min (Ethernet.headerLen + Ipv4.View.totalLen frame.payload) (frame.take room).length := by
  obtain ⟨hlong, htold⟩ := asks.header
  have hroom := Nat.le_trans hlong htold
  have hwhole := asks.whole
  have hbound := Ipv4.View.headerLen_le frame.payload
  have hpacket := Ethernet.View.packet_take capacity hroom
  have hlength := Ethernet.View.length_packet hroom hwhole
  have hpayload : frame.payload.length = frame.length - Ethernet.headerLen := List.length_drop
  have hstart : frame.packetStart = Ethernet.headerLen + Ipv4.View.headerLen frame.payload := rfl
  rw [hpacket]
  refine ⟨List.take_prefix _ _, ?_⟩
  rw [List.length_take, List.length_take, hlength]
  unfold Ipv4.headerLen at hlong
  omega

/-- **Echo requests are answered, and nothing else counts as an echo.**  Whatever the engine has been
through, the next frame on its link is answered exactly if it asks for an echo, and one frame is sent
then. -/
theorem echoes_iff_asked (e : Engine Loopback) {frame : Ethernet.View} {rest : List Bytes}
    (next : e.net.link.inbound = frame :: rest) :
    let asked := AsksEcho e.net.iface.addresses receiveRoom frame
    (e.poll.engine.statistics.icmp = e.statistics.icmp + 1 ↔ asked) ∧
    (asked → ∃ reply, e.poll.engine.net.link.sent = e.net.link.sent ++ [reply] ∧
      reply.length ≤ 590 ∧
      Echoes e.net.iface.addresses e.net.iface.hopLimit receiveRoom frame reply) := by
  intro asked
  have hcapacity : Ethernet.headerLen + 60 ≤ receiveRoom := by decide
  let near : Ethernet.View := frame.take receiveRoom
  let link : Loopback := { e.net.link with
    inbound := rest
    current := some frame
    cursor := near.length }
  have hreceive : Link.receive e.net.link receiveRoom =
      (some ⟨frame.length, Offload.verified frame, near⟩, link) := by
    show e.net.link.receive receiveRoom = _
    unfold Loopback.receive
    rw [next]
  have hpoll := poll_of_arrival hreceive
  have hnear : near.length ≤ 590 := List.length_take_le _ _
  have hshort : near.length ≤ Ethernet.maxFrame := Nat.le_trans hnear (by decide)
  have hasked : (∃ ip, (e.holding link).Requests near (Offload.verified frame) ip) ↔ asked :=
    requests_iff_asksEcho hcapacity
  rw [hpoll]
  dsimp only
  constructor
  · rw [statistics_handle]
    refine icmp_count_iff.trans ?_
    rw [← hasked]
    constructor
    · exact requests_of_fate
    · rintro ⟨ip, requests⟩
      obtain ⟨e', hhandle, -⟩ := handle_of_requests requests hshort
      rw [hhandle]
  · intro hasks
    obtain ⟨ip, requests⟩ := hasked.mpr hasks
    obtain ⟨e', hhandle, hlink⟩ := handle_of_requests requests hshort
    have hparsed : Ipv4.Header.parse frame.payload .manual = .ok ip := by
      have hnearParsed := (Interface.classify_eq_ok requests.forUs.classified).2
      rwa [Ethernet.View.payload_take, Ipv4.Header.parse_take (by decide)] at hnearParsed
    obtain ⟨hfirst, hlength⟩ := length_of_asks hcapacity hasks
    have hechoes := Interface.echoes_answerFrame (i := e.net.iface) hparsed requests.protocol hlength
      hfirst hasks.request
    rw [message_eq_packet hcapacity hparsed, Interface.answerFrame_take hcapacity] at hlink
    refine ⟨_, ?_, ?_, hechoes⟩
    · rw [hhandle]
      show e'.net.link.sent = _
      rw [hlink]
      rfl
    · rw [hechoes.length]
      exact Nat.le_trans (Nat.min_le_right _ _) hnear

/-- A request that is longer than the room for a frame is sent back as far as it has been taken. -/
theorem echoes_iff_asked_truncated :
    let own : Ipv4Address := ⟨10, 0, 0, 1⟩
    let peer : Ipv4Address := ⟨10, 0, 0, 2⟩
    let start := start { address := own } ({} : Loopback)
    let header : Ethernet.Header := ⟨⟨2, 0, 0, 0, 0, 2⟩, start.config.hardware, .ipv4⟩
    let message := Checksum.fillAt ([8, 0, 0, 0, 0x12, 0x34, 0, 7] ++ List.replicate 601 0x61) 2
    let frame := Offload.frameOf header ⟨peer, own, .icmp, message.length, 64⟩ 1 message
    let e := start.holding { inbound := [frame] }
    e.net.link.inbound = [frame] ∧ AsksEcho e.net.iface.addresses receiveRoom frame ∧
      ∃ reply, e.poll.engine.net.link.sent = [reply] ∧ reply.length = 590 ∧
        Echoes e.net.iface.addresses e.net.iface.hopLimit receiveRoom frame reply := by
  intro own peer start header message frame e
  have hcounted : e.poll.engine.statistics.icmp = e.statistics.icmp + 1 := by decide +kernel
  have hnext : e.net.link.inbound = [frame] := rfl
  obtain ⟨hiff, hanswered⟩ := echoes_iff_asked e hnext
  obtain ⟨reply, hsent, -, hechoes⟩ := hanswered (hiff.mp hcounted)
  refine ⟨hnext, hiff.mp hcounted, reply, hsent, ?_, hechoes⟩
  rw [hechoes.length]
  decide +kernel

end Engine

end NetEngine
