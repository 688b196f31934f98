import NetEngine.Link.Loopback
import NetEngine.Proofs.Engine.Sorting
import NetEngine.Proofs.Link.Frames

/-! # An Interface Without an Address Is Silent

    As long as no address is assigned, nothing is answered and nobody is told who we
    are.  What can still be heard is user datagrams, from which an address may come,
    and who the neighbours are.

    * **Interface**: without an address there is no subnet and no conflict, and no
      request is for us.
    * **Transports**: only user datagrams are taken, and they change nothing.
    * **Polling**: of a frame remains at most the sender of a reply. -/

namespace NetEngine

/-! ## Interface -/

section

variable {i : Interface} {p : Arp.Packet}

theorem Addresses.isAssigned_unspecified {l : Addresses} (unassigned : l.address = .unspecified) :
    l.isAssigned = false := by
  simp [isAssigned, Ipv4Address.isUnspecified, unassigned]

/-- What an interface without an address learns from a packet: who has sent a reply. -/
theorem Interface.handleArp_unassigned (unassigned : i.addresses.address = .unspecified) :
    i.handleArp p = (i, none) ∨
      p.operation = .reply ∧ p.srcHardware ≠ i.addresses.hardware ∧
        i.handleArp p = (i.learn p.srcProtocol p.srcHardware, none) := by
  have hunassigned := Addresses.isAssigned_unspecified unassigned
  unfold handleArp
  simp only [hunassigned, Bool.false_eq_true, false_and, if_false]
  by_cases hown : p.srcHardware = i.addresses.hardware
  · simp [hown]
  · cases hoperation : p.operation with
    | reply => simp [hown]
    | request | unknown => simp [hown]

/-- Without an address there is no subnet for a neighbour to be in. -/
theorem Engine.noting_unassigned {L : Type} {e : Engine L} (frame : Ethernet.View)
    (ip : Ipv4.Header) (unassigned : e.net.iface.addresses.address = .unspecified) :
    e.noting frame ip = e := by
  have hfar : e.isNear frame ip = false := by
    simp [isNear, Addresses.onSubnet, Addresses.isAssigned_unspecified unassigned]
  rw [noting_eq]
  simp [neighbours, hfar, remembering]

end

namespace Engine

variable {L : Type} [Link L] {e : Engine L}

/-! ## Transports -/

omit [Link L] in
/-- A user datagram changes nothing, and what it brings is the datagram. -/
theorem receiveUdp_eq_ok {frame : Bytes} {offset : Nat} {ip : Ipv4.Header}
    {destination : Destination} {c : ChecksumSet} {o : Outcome L}
    (h : e.receiveUdp frame offset ip destination c = .ok o) :
    o.engine = e ∧ ∃ given, o.event = .ok given ∧ ∀ event ∈ given, ∃ d, event = .udp d := by
  unfold receiveUdp at h
  split at h
  · cases h
  · obtain ⟨header, -, hheader⟩ := exists_of_bind_eq_ok h
    split at hheader
    · cases hheader
      simp
    · cases hheader
      simp

theorem carry_unassigned (unassigned : e.net.iface.addresses.address = .unspecified)
    (frame : Ethernet.View) (ip : Ipv4.Header) (destination : Destination) (c : ChecksumSet) :
    (e.carry frame ip destination c).engine = e ∧
      ∃ given, (e.carry frame ip destination c).event = .ok given ∧
        ∀ event ∈ given, ∃ d, event = .udp d := by
  have hunassigned := Addresses.isAssigned_unspecified unassigned
  unfold carry
  cases hresult : e.receiveTransport frame ip destination c with
  | error err => simp
  | ok o =>
    unfold receiveTransport at hresult
    simp only [hunassigned, Bool.not_false, if_true] at hresult
    cases hprotocol : ip.protocol with
    | udp =>
      rw [hprotocol] at hresult
      exact receiveUdp_eq_ok hresult
    | icmp | tcp | unknown =>
      rw [hprotocol] at hresult
      cases hresult
      simp

/-! ## Polling -/

/-- The link when a frame has been taken from it, if there was one, and nothing has been sent. -/
def listened (e : Engine L) : L :=
  match Link.receive e.net.link receiveRoom with
  | (none, link) => link
  | (some _, link) => Link.done link

/-- The frame that arrives next carries a reply of another station, and `cache` remembers its
sender. -/
def NotesReply (e : Engine L) (cache : Arp.Cache) : Prop :=
  ∃ arrival p, (Link.receive e.net.link receiveRoom).1 = some arrival ∧
    Ethernet.View.etherType arrival.resident = .arp ∧
    Arp.Packet.parse (Ethernet.View.payload arrival.resident) = .ok p ∧ p.operation = .reply ∧
    p.srcHardware ≠ e.net.iface.addresses.hardware ∧
    cache = e.net.iface.cache.learn p.srcProtocol p.srcHardware

/-- **Without an address the interface is silent**: a poll sends nothing, and brings user datagrams at
most.  It changes nothing but the count of frames, apart from the sender of a reply, who becomes a
known neighbour.  The engine stops at no frame. -/
theorem poll_unassigned (e : Engine L) (unassigned : e.net.iface.addresses.address = .unspecified) :
    ∃ cache, (cache = e.net.iface.cache ∨ e.NotesReply cache) ∧
      e.poll.engine = { e with
        net := { iface := { e.net.iface with cache := cache }, link := e.listened }
        statistics := e.poll.engine.statistics } ∧
      ∃ given, e.poll.event = .ok given ∧ ∀ event ∈ given, ∃ d, event = .udp d := by
  cases hreceive : Link.receive e.net.link receiveRoom with
  | mk arrived link =>
    cases arrived with
    | none =>
      have hlistened : e.listened = link := by simp [listened, hreceive]
      rw [poll_of_idle hreceive, hlistened]
      exact ⟨e.net.iface.cache, .inl rfl, rfl, by simp⟩
    | some arrival =>
      have hlistened : e.listened = Link.done link := by simp [listened, hreceive]
      rw [poll_of_arrival hreceive, hlistened]
      have hsorted := sorted_handle (e.holding link) arrival.resident arrival.checksums
      generalize (e.holding link).handle arrival.resident arrival.checksums = o at hsorted ⊢
      cases hsorted with
      | refused => exact ⟨e.net.iface.cache, .inl rfl, rfl, by simp⟩
      | arp long heard type =>
        unfold arpOutcome Net.receiveArp
        cases hparse : Arp.Packet.parse (Ethernet.View.payload arrival.resident) with
        | error err => exact ⟨e.net.iface.cache, .inl rfl, rfl, by simp⟩
        | ok p =>
          have hhandled : (e.holding link).net.iface.handleArp p = _ ∨ _ :=
            Interface.handleArp_unassigned unassigned
          rcases hhandled with hsame | ⟨hreply, hother, hlearnt⟩
          · simp only [hsame]
            exact ⟨e.net.iface.cache, .inl rfl, rfl, by simp⟩
          · have hnotes : e.NotesReply (e.net.iface.cache.learn p.srcProtocol p.srcHardware) :=
              ⟨arrival, p, by rw [hreceive], type, hparse, hreply, hother, rfl⟩
            simp only [hlearnt]
            exact ⟨_, .inr hnotes, rfl, by simp⟩
      | datagram ip destination forUs =>
        have hnoting : (e.holding link).noting arrival.resident ip = e.holding link :=
          noting_unassigned arrival.resident ip unassigned
        rw [hnoting]
        have hcarry := carry_unassigned (e := e.holding link) unassigned arrival.resident ip
          destination arrival.checksums
        simp only [hcarry.1]
        exact ⟨e.net.iface.cache, .inl rfl, rfl, hcarry.2⟩

/-- A datagram to everybody reaches its port, and a reply makes its sender known, while the request
of another host is not answered. -/
theorem poll_unassigned_offered :
    let start := start {} ({} : Loopback)
    let own := start.config.hardware
    let host : MacAddress := ⟨2, 0, 0, 0, 0, 2⟩
    let server : Ipv4Address := ⟨10, 0, 0, 1⟩
    let packet := Udp.Header.encode ⟨67, 68, 4⟩ ++ [1, 2, 3, 4]
    let offer := Offload.frameOf ⟨host, .broadcast, .ipv4⟩
      ⟨server, .broadcast, .udp, packet.length, 64⟩ 1 packet
    let reply : Arp.Packet := ⟨.reply, host, server, own, .unspecified⟩
    let request : Arp.Packet := ⟨.request, host, server, .unspecified, .unspecified⟩
    let reached (frame : Bytes) : Engine Loopback := { start with
      net := { start.net with link := { inbound := [frame] } }
      ports := (start.ports.register ⟨68, none⟩).toOption.elim start.ports (·.2) }
    let after (frame : Bytes) := (reached frame).poll.engine.net
    (∀ frame, (after frame).link.sent = []) ∧
      (∃ d, (reached offer).poll.event = .ok (some (.udp d))) ∧
      (after (reply.frame own)).lookup server = some host ∧
      (after (request.frame .broadcast)).lookup server = none := by
  intro start own host server packet offer reply request reached after
  have hsilent (frame : Bytes) : (after frame).link.sent = [] := by
    obtain ⟨cache, -, hengine, -⟩ := poll_unassigned (reached frame) rfl
    show (reached frame).poll.engine.net.link.sent = []
    rw [hengine]
    rfl
  have hbrought : ((reached offer).poll.event.map Option.isSome) = .ok true := by decide +kernel
  obtain ⟨cache, -, -, given, hgiven, hudp⟩ := poll_unassigned (reached offer) rfl
  rw [hgiven] at hbrought
  obtain ⟨event, rfl⟩ := Option.isSome_iff_exists.mp (Except.ok.inj hbrought)
  obtain ⟨d, rfl⟩ := hudp event rfl
  exact ⟨hsilent, ⟨d, hgiven⟩, by decide +kernel, by decide +kernel⟩

end Engine

end NetEngine
