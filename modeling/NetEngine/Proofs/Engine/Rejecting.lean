import NetEngine.Proofs.Arp.Cache
import NetEngine.Proofs.Bounds.Echo
import NetEngine.Proofs.Engine.Sorting
import NetEngine.Proofs.Net.Emitting

/-! # Rejected Frames Leave No Trace

    A frame that is counted as dropped or filtered has been refused before anything
    came of it, at whichever layer that was.

    * **Answers**: what answers a frame is short enough for the link, so that no
      frame is dropped because its answer can not be sent.
    * **Transports**: a transport that has taken a datagram does not reject it.
    * **Frames**: of a frame that is rejected at most its sender stays known. -/

namespace NetEngine

/-! ## Answers -/

/-- An echo reply is no longer than what is at hand of the request. -/
theorem Interface.length_echoReply {i : Interface} {frame : Ethernet.View} {h : Ipv4.Header}
    {reply : Bytes} (parsed : Ipv4.Header.parse frame.payload .manual = .ok h)
    (answers : i.echoReply frame h = .ok (some reply)) : reply.length ≤ frame.length := by
  let p : Ipv4.View := frame.payload
  let message : Icmp.View := p.payload.take h.payloadLen
  have hrun : (Icmp.Echo.parse message .ignored >>= _) = _ := answers
  obtain ⟨echo, hecho, hanswer⟩ := exists_of_bind_eq_ok hrun
  cases echo with
  | reply => cases hanswer
  | request ident seqNo =>
    cases hanswer
    obtain ⟨hlong, hthere, -⟩ : 20 ≤ p.headerLen ∧ p.headerLen ≤ p.length ∧ _ :=
      Ipv4.View.check_eq_ok (Ipv4.Header.parse_eq_ok parsed).1
    have hp : p.length = frame.length - 14 := List.length_drop
    have hpayload : p.payload.length = p.length - p.headerLen := List.length_drop
    have hmessage : message.length ≤ p.payload.length := List.length_take_le' _ _
    have hheader : p.header.length = p.headerLen := List.length_take_of_le hthere
    show (_ ++ Ipv4.View.fillChecksum (i.answerHeader h _ p.header) ++
      message.retype .echoReply 0).length ≤ frame.length
    rw [List.length_append, List.length_append, Ethernet.Header.length_encode,
      Ipv4.View.length_fillChecksum, i.length_answerHeader h _ (hheader ▸ hlong), hheader,
      Icmp.View.length_retype (Icmp.Echo.long_of_parse hecho)]
    unfold Ethernet.headerLen
    omega

namespace Net

/-- A frame that is short enough can be sent. -/
theorem sendFrame_of_short (net : Net Loopback) {frame : Bytes}
    (short : frame.length ≤ Ethernet.maxFrame) : (net.sendFrame frame).1 = .ok () := by
  rw [net.sendFrame_eq short]

/-- A packet of address resolution is refused before anything is made of it. -/
theorem receiveArp_refused (net : Net Loopback) {packet : Bytes}
    (refused : (net.receiveArp packet).1 ≠ .ok ()) : (net.receiveArp packet).2 = net := by
  unfold receiveArp at refused ⊢
  split
  · rfl
  · rename_i p hparse
    refine absurd ?_ refused
    rw [hparse]
    dsimp only
    split
    · rfl
    · -- The answer to a request fits the link.
      exact sendFrame_of_short _ (by rw [Arp.Packet.length_frame]; decide)

end Net

namespace Engine

/-! ## Transports -/

section

variable {L : Type} [Link L] {e : Engine L} {frame : Ethernet.View} {offset : Nat}
  {ip : Ipv4.Header} {destination : Destination} {c : ChecksumSet} {o : Outcome L}

omit [Link L] in
theorem fate_receiveUdp (h : e.receiveUdp frame offset ip destination c = .ok o) :
    o.fate = .unhandled ∨ o.fate = .udp := by
  unfold receiveUdp at h
  split at h
  · cases h
  · obtain ⟨header, -, hheader⟩ := exists_of_bind_eq_ok h
    split at hheader
    · cases hheader
      exact .inl rfl
    · cases hheader
      exact .inr rfl

theorem fate_receiveTcp (h : e.receiveTcp frame offset ip c = .ok o) :
    o.fate = .unhandled ∨ o.fate = .tcp := by
  obtain ⟨s, -, hs⟩ := exists_of_bind_eq_ok h
  cases hs
  dsimp only
  split
  · exact .inr rfl
  · exact .inl rfl

end

section

variable {e : Engine Loopback} {frame : Ethernet.View} {ip : Ipv4.Header}
  {destination : Destination} {c : ChecksumSet} {o : Outcome Loopback}

/-- The reply to an echo request that is short enough is sent. -/
theorem fate_receiveIcmp (parsed : Ipv4.Header.parse frame.payload .manual = .ok ip)
    (short : frame.length ≤ Ethernet.maxFrame)
    (h : e.receiveIcmp frame ip destination c = .ok o) :
    o.fate = .unhandled ∨ o.fate = .icmp := by
  unfold receiveIcmp at h
  split at h
  · cases h
  · split at h
    · cases h
      exact .inl rfl
    · obtain ⟨answer, hanswer, hrest⟩ := exists_of_bind_eq_ok h
      cases answer with
      | none =>
        cases hrest
        exact .inl rfl
      | some reply =>
        have hreply : reply.length ≤ Ethernet.maxFrame :=
          Nat.le_trans (Interface.length_echoReply parsed hanswer) short
        dsimp only at hrest
        rw [Net.sendFrame_of_short e.net hreply] at hrest
        cases hrest
        exact .inr rfl

/-- A transport that is there for us does not reject what it has taken: only where there is none,
because we have no address, a datagram is filtered. -/
theorem receiveTransport_rejected (parsed : Ipv4.Header.parse frame.payload .manual = .ok ip)
    (short : frame.length ≤ Ethernet.maxFrame)
    (h : e.receiveTransport frame ip destination c = .ok o) (rejected : o.fate.isRejection) :
    o = ⟨e, o.fate, .ok none⟩ := by
  have hnever {fate : Fate} (taken : o.fate = .unhandled ∨ o.fate = fate)
      (fine : fate.isRejection = false) : o = ⟨e, o.fate, .ok none⟩ := by
    rcases taken with h | h <;> rw [h] at rejected
    · cases rejected
    · rw [fine] at rejected
      cases rejected
  unfold receiveTransport at h
  dsimp only at h
  split at h
  · exact hnever (fate_receiveUdp h) rfl
  · split at h
    · cases h
      rfl
    · exact hnever (fate_receiveIcmp parsed short h) rfl
  · split at h
    · cases h
      rfl
    · split at h
      · exact hnever (fate_receiveTcp h) rfl
      · cases h
        rfl
  · cases h
    rfl

theorem carry_rejected (parsed : Ipv4.Header.parse frame.payload .manual = .ok ip)
    (short : frame.length ≤ Ethernet.maxFrame)
    (rejected : (e.carry frame ip destination c).fate.isRejection) :
    e.carry frame ip destination c = ⟨e, (e.carry frame ip destination c).fate, .ok none⟩ := by
  unfold carry at rejected ⊢
  split
  · rename_i o h
    rw [h] at rejected
    exact receiveTransport_rejected parsed short h rejected
  · rfl

/-! ## Frames -/

/-- **Of a frame that is rejected at most its sender stays known.** -/
theorem handle_rejected (e : Engine Loopback) (frame : Ethernet.View) (c : ChecksumSet)
    (short : frame.length ≤ Ethernet.maxFrame) (rejected : (e.handle frame c).fate.isRejection) :
    ∃ cache, e.handle frame c = ⟨e.remembering cache, (e.handle frame c).fate, .ok none⟩ ∧
      (cache = e.net.iface.cache ∨
        ∃ ip destination, e.ForUs frame c ip destination ∧ e.isNear frame ip ∧
          cache = e.net.iface.cache.learn ip.src frame.src) := by
  have hsorted := sorted_handle e frame c
  generalize e.handle frame c = o at hsorted rejected ⊢
  cases hsorted with
  | refused fate => exact ⟨e.net.iface.cache, rfl, .inl rfl⟩
  | arp =>
    refine ⟨e.net.iface.cache, ?_, .inl rfl⟩
    have hrefused : (e.net.receiveArp frame.payload).1 ≠ .ok () := by
      intro hok
      unfold arpOutcome at rejected
      dsimp only at rejected
      rw [hok] at rejected
      cases rejected
    have hsame := Net.receiveArp_refused e.net hrefused
    show (⟨{ e with net := (e.net.receiveArp frame.payload).2 }, (e.arpOutcome frame).fate,
      .ok none⟩ : Outcome Loopback) = ⟨e, _, .ok none⟩
    rw [hsame]
  | datagram ip destination forUs =>
    obtain ⟨-, hparsed⟩ := Interface.classify_eq_ok forUs.classified
    rw [carry_rejected hparsed short rejected, noting_eq]
    refine ⟨_, rfl, ?_⟩
    unfold neighbours
    split
    · rename_i hnear
      exact .inr ⟨ip, destination, forUs, hnear, rfl⟩
    · exact .inl rfl

end

/-! ## Polling -/

/-- The engine when a frame has been refused: the frame is off the link, it is counted by its fate,
and the neighbours are those of `cache`. -/
def refusing (e : Engine Loopback) (rest : List Bytes) (cache : Arp.Cache) (fate : Fate) :
    Engine Loopback :=
  { e with
    net := {
      iface := { e.net.iface with cache := cache }
      link := { e.net.link with inbound := rest, current := none, cursor := 0 } }
    statistics := e.statistics.count fate }

/-- One slot of `cache` has been taken by the sender of a datagram, who is in our subnet. -/
def NotesSender (e : Engine Loopback) (frame : Ethernet.View) (cache : Arp.Cache) : Prop :=
  ∃ ip, Ipv4.Header.parse frame.payload .manual = .ok ip ∧ e.net.iface.addresses.onSubnet ip.src ∧
    ∃ slot < Arp.capacity, cache = { e.net.iface.cache with
      slots := e.net.iface.cache.slots.put slot
        (some ⟨ip.src, frame.src, e.net.iface.cache.lifetime⟩) }

/-- A frame that moves one of the two counts has been rejected. -/
theorem isRejection_of_counted {s : Statistics} {fate : Fate}
    (counted : (s.count fate).dropped ≠ s.dropped ∨ (s.count fate).filtered ≠ s.filtered) :
    fate.isRejection := by
  cases fate with
  | dropped | filtered => rfl
  | _ => simp [Statistics.count] at counted

/-- **A frame that is rejected leaves no trace**: where a poll counts a frame as dropped or filtered,
it brings nothing and sends nothing, and the engine is as before but for the count, the frame that is
off the link, and the sender of a datagram. -/
theorem rejected_leaves_no_trace (e : Engine Loopback)
    (rejected : e.poll.engine.statistics.dropped ≠ e.statistics.dropped ∨
      e.poll.engine.statistics.filtered ≠ e.statistics.filtered) :
    ∃ frame rest fate cache, e.net.link.inbound = frame :: rest ∧ fate.isRejection ∧
      e.poll = { engine := e.refusing rest cache fate, taken := true, event := .ok none } ∧
      (cache = e.net.iface.cache ∨ e.NotesSender (frame.take receiveRoom) cache) := by
  cases harrived : e.net.link.inbound with
  | nil =>
    have hidle : Link.receive e.net.link receiveRoom = (none, e.net.link) := by
      show e.net.link.receive receiveRoom = _
      unfold Loopback.receive
      rw [harrived]
    -- Without a frame there is nothing to count.
    rw [poll_of_idle hidle] at rejected
    simp [holding] at rejected
  | cons frame rest =>
    let link : Loopback := { e.net.link with
      inbound := rest
      current := some frame
      cursor := (frame.take receiveRoom).length }
    have hreceive : Link.receive e.net.link receiveRoom =
        (some ⟨frame.length, Offload.verified frame, frame.take receiveRoom⟩, link) := by
      show e.net.link.receive receiveRoom = _
      unfold Loopback.receive
      rw [harrived]
    have hpoll := poll_of_arrival hreceive
    rw [hpoll] at rejected
    simp only [statistics_handle] at rejected
    have hfate := isRejection_of_counted rejected
    have hshort : (frame.take receiveRoom).length ≤ Ethernet.maxFrame := by
      have hroom : (frame.take receiveRoom).length ≤ receiveRoom := List.length_take_le _ _
      have hfits : receiveRoom ≤ Ethernet.maxFrame := by decide
      omega
    obtain ⟨cache, hhandle, hcache⟩ := handle_rejected (e.holding link) (frame.take receiveRoom)
      (Offload.verified frame) hshort hfate
    refine ⟨frame, rest, _, cache, rfl, hfate, ?_, ?_⟩
    · rw [hpoll]
      dsimp only
      rw [hhandle]
      rfl
    · rcases hcache with hsame | ⟨ip, destination, hforUs, hnear, hlearnt⟩
      · exact .inl hsame
      · by_cases hlearnable : Arp.Cache.isLearnable ip.src
        · obtain ⟨slot, hslot, hlearn⟩ :=
            Arp.Cache.learn_eq hlearnable e.net.iface.cache (Ethernet.View.src (frame.take receiveRoom))
          unfold isNear at hnear
          rw [Bool.and_eq_true] at hnear
          have hparsed := (Interface.classify_eq_ok hforUs.classified).2
          exact .inr ⟨ip, hparsed, hnear.1, slot, hslot, hlearnt.trans hlearn⟩
        · exact .inl (hlearnt.trans (Arp.Cache.learn_of_not_learnable hlearnable _ _))

/-- A user datagram with a wrong checksum is dropped, and its sender stays known. -/
theorem rejected_leaves_no_trace_neighbour :
    let own : Ipv4Address := ⟨10, 0, 0, 1⟩
    let peer : Ipv4Address := ⟨10, 0, 0, 2⟩
    let start := start { address := own } ({} : Loopback)
    let header : Ethernet.Header := ⟨⟨2, 0, 0, 0, 0, 2⟩, start.config.hardware, .ipv4⟩
    let packet := putWord (Udp.Header.encode ⟨5000, 9, 4⟩ ++ [1, 2, 3, 4]) 6 1
    let frame := Offload.frameOf header ⟨peer, own, .udp, packet.length, 64⟩ 1 packet
    let e := start.holding { inbound := [frame] }
    e.poll.engine.statistics.dropped = e.statistics.dropped + 1 ∧
      ∃ cache, e.poll = { engine := e.refusing [] cache .dropped, taken := true, event := .ok none } ∧
        e.NotesSender frame cache ∧ cache.lookup peer = some header.src := by
  intro own peer start header packet frame e
  have hdropped : e.poll.engine.statistics.dropped = e.statistics.dropped + 1 := by decide +kernel
  have hknown : e.poll.engine.net.lookup peer = some header.src := by decide +kernel
  have hcounts : e.statistics.dropped ≠ e.statistics.dropped + 1 := by decide +kernel
  obtain ⟨frame', rest, fate, cache, harrived, hfate, hpoll, hcache⟩ :=
    rejected_leaves_no_trace e (.inl (by rw [hdropped]; decide +kernel))
  cases harrived
  rw [hpoll] at hdropped hknown
  refine ⟨by rw [hpoll]; exact hdropped, cache, ?_, ?_, hknown⟩
  · cases fate with
    | dropped => exact hpoll
    | filtered => exact absurd hdropped hcounts
    | _ => cases hfate
  · rcases hcache with rfl | hnoted
    · -- Nobody was known before.
      cases hknown
    · exact hnoted

end Engine

end NetEngine
