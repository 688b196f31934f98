import NetEngine.Proofs.Net.Answering
import NetEngine.Proofs.Net.Learning
import NetEngine.Proofs.Net.Segments

/-! # Hardware Addresses Are Found by Asking

    A hardware address that is neither fixed nor known is asked for.  After each
    request the link is looked at a number of times, and each look takes a frame, if
    one waits.

    * **Announcements**: the frames that tell which hardware address a host has, and
      the first one among those that wait.
    * **Searching**: what has been taken from the link and what has been asked, from
      one state of the network layer to a later one.
    * **Looks**, **Requests**: a look takes one frame, a wait takes frames until one
      announces the host, and requests are sent until a wait succeeds.
    * **Resolution**: all of it. -/

namespace NetEngine

/-! ## Announcements -/

namespace Addresses

/-- The frame carries a packet of address resolution by which an interface with these addresses
learns which hardware address `a` has. -/
def Announces (l : Addresses) (frame : Ethernet.View) (a : Ipv4Address)
    (hardware : MacAddress) : Prop :=
  ∃ p, frame.etherType = .arp ∧ Arp.Packet.parse frame.payload = .ok p ∧ l.Heeds p ∧
    Arp.Cache.isLearnable a ∧ p.srcProtocol = a ∧ p.srcHardware = hardware

/-- None of the first `n` frames announces `a`. -/
def NoneAnnounces (l : Addresses) (frames : List Bytes) (a : Ipv4Address) (n : Nat) : Prop :=
  ∀ j < n, ∀ frame, frames[j]? = some frame → ∀ hardware, ¬ l.Announces frame a hardware

/-- The first frame that announces `a` is the one at index `i`. -/
def FirstAnnounces (l : Addresses) (frames : List Bytes) (a : Ipv4Address) (i : Nat)
    (hardware : MacAddress) : Prop :=
  l.NoneAnnounces frames a i ∧
    ∃ frame, frames[i]? = some frame ∧ l.Announces frame a hardware

variable {l : Addresses} {frames : List Bytes} {a : Ipv4Address} {hardware hardware' : MacAddress}
  {i j m n : Nat}

theorem Announces.unique {frame : Ethernet.View} (h : l.Announces frame a hardware)
    (h' : l.Announces frame a hardware') : hardware = hardware' := by
  obtain ⟨p, -, hparsed, -, -, -, rfl⟩ := h
  obtain ⟨p', -, hparsed', -, -, -, rfl⟩ := h'
  rw [hparsed] at hparsed'
  cases hparsed'
  rfl

theorem noneAnnounces_zero : l.NoneAnnounces frames a 0 :=
  fun j hj => absurd hj (Nat.not_lt_zero j)

theorem noneAnnounces_add_iff : l.NoneAnnounces frames a (m + n) ↔
    l.NoneAnnounces frames a m ∧ l.NoneAnnounces (frames.drop m) a n := by
  unfold NoneAnnounces
  constructor
  · intro h
    refine ⟨fun j hj => h j (by omega), fun j hj frame hframe => ?_⟩
    rw [List.getElem?_drop] at hframe
    exact h (m + j) (by omega) frame hframe
  · rintro ⟨hfirst, hrest⟩ j hj frame hframe
    by_cases hm : j < m
    · exact hfirst j hm frame hframe
    · obtain ⟨k, rfl⟩ := Nat.exists_eq_add_of_le (Nat.not_lt.mp hm)
      exact hrest k (by omega) frame (List.getElem?_drop.trans hframe)

/-- Behind frames that do not announce it, the first frame that does is looked for. -/
theorem FirstAnnounces.of_drop (none : l.NoneAnnounces frames a m)
    (h : l.FirstAnnounces (frames.drop m) a i hardware) :
    l.FirstAnnounces frames a (m + i) hardware := by
  obtain ⟨hnone, frame, hframe, hannounces⟩ := h
  rw [List.getElem?_drop] at hframe
  exact ⟨noneAnnounces_add_iff.mpr ⟨none, hnone⟩, frame, hframe, hannounces⟩

/-- There is one first frame, and it tells one hardware address. -/
theorem FirstAnnounces.unique (h : l.FirstAnnounces frames a i hardware)
    (h' : l.FirstAnnounces frames a j hardware') : i = j ∧ hardware = hardware' := by
  obtain ⟨hnone, frame, hframe, hannounces⟩ := h
  obtain ⟨hnone', frame', hframe', hannounces'⟩ := h'
  obtain rfl : i = j := by
    rcases Nat.lt_trichotomy i j with hlt | heq | hlt
    · exact absurd hannounces (hnone' i hlt frame hframe hardware)
    · exact heq
    · exact absurd hannounces' (hnone j hlt frame' hframe' hardware')
  rw [hframe] at hframe'
  cases hframe'
  exact ⟨rfl, hannounces.unique hannounces'⟩

end Addresses

/-- Does a frame ask for a hardware address? -/
def Ethernet.View.asks (frame : Ethernet.View) : Bool :=
  frame.etherType = .arp && Arp.View.operation frame.payload = .request

namespace Arp

/-- A packet of address resolution fits the link. -/
theorem frameLen_le : frameLen ≤ Ethernet.maxFrame := by decide

/-- A frame with a packet asks if the packet does. -/
theorem Packet.asks_frame (p : Packet) (dst : MacAddress) :
    Ethernet.View.asks (p.frame dst) = decide (Operation.ofCode p.operation.code = .request) := by
  have hoperation : wordAt p.encode 6 = p.operation.code := word_div_mod _
  unfold Ethernet.View.asks frame
  rw [Ethernet.Header.etherType_encode_append, Ethernet.Header.payload_encode_append]
  unfold View.operation
  rw [hoperation]
  rfl

/-- Of a packet, the octets behind it do not matter. -/
theorem Packet.parse_take {p : View} {n : Nat} (room : packetLen ≤ n) :
    parse (p.take n) = parse p := by
  unfold packetLen at room
  have hbyte (i : Nat) (h : i < 28) : byteAt (p.take n) i = byteAt p i :=
    byteAt_take_of_lt p (by omega)
  have hcheck : View.check (p.take n) = View.check p := by
    unfold View.check packetLen
    rw [List.length_take]
    by_cases hshort : p.length < 28
    · rw [if_pos (by omega), if_pos hshort]
    · rw [if_neg (by omega), if_neg hshort]
  unfold parse
  rw [hcheck]
  unfold View.hardware View.protocol View.hardwareLen View.protocolLen View.operation wordAt
    MacAddress.readAt Ipv4Address.readAt
  simp [hbyte]

end Arp

namespace Net

variable {net net' net'' : Net Loopback} {hop : Ipv4Address} {hardware : MacAddress}

/-! ## Searching -/

/-- The network layer has taken frames from the link and asked for `hop`, and has come to know
neighbours meanwhile.  Of all frames that it has sent, none but its requests asks for anything. -/
structure Searches (net net' : Net Loopback) (hop : Ipv4Address) (taken asked : Nat) : Prop where
  settings : net'.iface = { net.iface with
    cache := net'.iface.cache
    conflict := net'.iface.conflict }
  inbound : net'.link.inbound = net.link.inbound.drop taken
  sent : ∃ new, net'.link.sent = net.link.sent ++ new ∧
    new.filter Ethernet.View.asks =
      List.replicate asked ((net.iface.request hop).frame .broadcast)

namespace Searches

variable {taken taken' asked asked' : Nat}

theorem refl (net : Net Loopback) (hop : Ipv4Address) : net.Searches net hop 0 0 :=
  ⟨rfl, rfl, [], by simp, rfl⟩

theorem trans (h : net.Searches net' hop taken asked)
    (h' : net'.Searches net'' hop taken' asked') :
    net.Searches net'' hop (taken + taken') (asked + asked') := by
  obtain ⟨hsettings, hinbound, new, hsent, hasked⟩ := h
  obtain ⟨hsettings', hinbound', new', hsent', hasked'⟩ := h'
  have hrequest : net'.iface.request hop = net.iface.request hop := by rw [hsettings]; rfl
  refine ⟨?_, ?_, new ++ new', ?_, ?_⟩
  · rw [hsettings', hsettings]
  · rw [hinbound', hinbound, List.drop_drop]
  · rw [hsent', hsent, List.append_assoc]
  · rw [List.filter_append, hasked, hasked', hrequest, List.replicate_append_replicate]

end Searches

/-! ## Looks -/

/-- A packet of address resolution goes out, and nothing else happens. -/
theorem searches_sendFrame (net : Net Loopback) {p : Arp.Packet} {dst : MacAddress} {asked : Nat}
    (count : [p.frame dst].filter Ethernet.View.asks =
      List.replicate asked ((net.iface.request hop).frame .broadcast)) :
    ∃ sent : Net Loopback, net.sendFrame (p.frame dst) = (.ok (), sent) ∧
      sent.iface = net.iface ∧ net.Searches sent hop 0 asked := by
  have hshort : (p.frame dst).length ≤ Ethernet.maxFrame := by
    rw [Arp.Packet.length_frame]
    exact Arp.frameLen_le
  exact ⟨_, net.sendFrame_eq hshort, rfl, rfl, rfl, _, rfl, count⟩

/-- A packet of address resolution is answered at most. -/
theorem searches_receiveArp (net : Net Loopback) (packet : Bytes) (hop : Ipv4Address) :
    net.Searches (net.receiveArp packet).2 hop 0 0 := by
  unfold receiveArp
  cases hparse : Arp.Packet.parse packet with
  | error err => exact .refl net hop
  | ok p =>
    let noted : Net Loopback := { net with iface := (net.iface.handleArp p).1 }
    have hnoted : net.Searches noted hop 0 0 :=
      ⟨net.iface.handleArp_settings p, rfl, [], (List.append_nil _).symm, rfl⟩
    dsimp only
    cases hanswer : (net.iface.handleArp p).2 with
    | none => exact hnoted
    | some answer =>
      -- The answer to a request is a reply, and no request itself.
      have hquiet : [answer.frame answer.dstHardware].filter Ethernet.View.asks = [] := by
        rw [List.filter_singleton, Arp.Packet.asks_frame, Interface.answer_of_handleArp hanswer]
        rfl
      obtain ⟨sent, hsend, -, hsent⟩ : ∃ sent : Net Loopback,
          noted.sendFrame (answer.frame answer.dstHardware) = (.ok (), sent) ∧
            sent.iface = noted.iface ∧ noted.Searches sent hop 0 0 :=
        noted.searches_sendFrame hquiet
      show net.Searches (noted.sendFrame (answer.frame answer.dstHardware)).2 hop 0 0
      rw [hsend]
      exact hnoted.trans hsent

theorem iface_receiveArp (net : Net Loopback) (packet : Bytes) :
    (net.receiveArp packet).2.iface =
      match Arp.Packet.parse packet with
      | .error _ => net.iface
      | .ok p => (net.iface.handleArp p).1 := by
  unfold receiveArp
  cases Arp.Packet.parse packet with
  | error err => rfl
  | ok p =>
    dsimp only
    cases (net.iface.handleArp p).2 <;> rfl

/-- Who was unknown is known after a packet that announces it. -/
theorem lookup_receiveArp_eq_some_iff (unknown : net.lookup hop = none) (packet : Bytes) :
    (net.receiveArp packet).2.lookup hop = some hardware ↔
      ∃ p, Arp.Packet.parse packet = .ok p ∧ net.iface.addresses.Heeds p ∧
        Arp.Cache.isLearnable hop ∧ p.srcProtocol = hop ∧ p.srcHardware = hardware := by
  have hunknown : net.iface.cache.lookup hop = none := unknown
  show (net.receiveArp packet).2.iface.cache.lookup hop = some hardware ↔ _
  rw [iface_receiveArp]
  cases hparse : Arp.Packet.parse packet with
  | error err => simp [hunknown]
  | ok p =>
    -- A packet that is heeded teaches what it says, and any other one leaves the cache as it is.
    simp only [Except.ok.injEq, exists_eq_left']
    by_cases hheeds : net.iface.addresses.Heeds p
    · rw [Interface.cache_handleArp_of_heeds hheeds,
        Arp.Cache.lookup_learn_eq_some_iff hunknown]
      constructor
      · rintro ⟨hlearnable, rfl, rfl⟩
        exact ⟨hheeds, hlearnable, rfl, rfl⟩
      · rintro ⟨-, hlearnable, rfl, rfl⟩
        exact ⟨hlearnable, rfl, rfl⟩
    · simp [Interface.cache_handleArp_of_not_heeds hheeds, hunknown, hheeds]

/-- The interface has let go of the frame that it took last. -/
def released (net : Net Loopback) : Net Loopback := { net with link := net.link.done }

theorem look_of_nil (empty : net.link.inbound = []) : net.look = net := by
  have hreceive : Link.receive net.link Arp.frameLen = (none, net.link) := by
    show net.link.receive Arp.frameLen = _
    unfold Loopback.receive
    rw [empty]
  unfold look
  rw [hreceive]

/-- A frame that waits is taken, and looked into if it is one of address resolution. -/
theorem look_of_cons (hop : Ipv4Address) {frame : Ethernet.View} {rest : List Bytes}
    (queued : net.link.inbound = frame :: rest) : ∃ taken : Net Loopback,
      taken.iface = net.iface ∧ net.Searches taken hop 1 0 ∧
        net.look = released
          (if Ethernet.headerLen ≤ frame.length ∧ frame.etherType = .arp then
            (taken.receiveArp (Ethernet.View.payload (frame.take Arp.frameLen))).2
          else taken) := by
  let shown : Ethernet.View := frame.take Arp.frameLen
  let taken : Net Loopback := { net with link := { net.link with
    inbound := rest
    current := some frame
    cursor := shown.length } }
  have hreceive : Link.receive net.link Arp.frameLen =
      (some ⟨frame.length, Offload.verified frame, shown⟩, taken.link) := by
    show net.link.receive Arp.frameLen = _
    unfold Loopback.receive
    rw [queued]
  have hsearches : net.Searches taken hop 1 0 := by
    refine ⟨rfl, ?_, [], (List.append_nil _).symm, rfl⟩
    rw [queued]
    rfl
  have htype : shown.etherType = frame.etherType :=
    (Ethernet.View.fields_take (by decide)).2.2
  have hlength : Ethernet.headerLen ≤ shown.length ↔ Ethernet.headerLen ≤ frame.length := by
    have hroom : Ethernet.headerLen ≤ Arp.frameLen := by decide
    rw [List.length_take]
    omega
  refine ⟨taken, rfl, hsearches, ?_⟩
  unfold look
  rw [hreceive]
  dsimp only
  split
  · rename_i hheader
    obtain ⟨hlong, hfields⟩ := Ethernet.Header.parse_eq_ok hheader
    have harp : EtherType.arp = shown.etherType := congrArg Ethernet.Header.etherType hfields
    rw [if_pos ⟨hlength.mp hlong, htype.symm.trans harp.symm⟩]
    rfl
  · rename_i hother
    rw [if_neg]
    · rfl
    · rintro ⟨hlong, harp⟩
      refine hother shown.src shown.dst ?_
      rw [Ethernet.Header.parse_of_long (hlength.mpr hlong), htype, harp]

/-- **A look takes a frame, if one waits**, and asks for nothing. -/
theorem searches_look (net : Net Loopback) (hop : Ipv4Address) :
    net.Searches net.look hop 1 0 := by
  cases hqueued : net.link.inbound with
  | nil =>
    rw [look_of_nil hqueued]
    refine ⟨rfl, ?_, [], (List.append_nil _).symm, rfl⟩
    rw [hqueued]
    rfl
  | cons frame rest =>
    obtain ⟨taken, -, htaken, hlook⟩ := look_of_cons hop hqueued
    rw [hlook]
    have hreleased (net : Net Loopback) : net.Searches net.released hop 0 0 :=
      ⟨rfl, rfl, [], (List.append_nil _).symm, rfl⟩
    split
    · exact (htaken.trans (taken.searches_receiveArp _ hop)).trans (hreleased _)
    · exact htaken.trans (hreleased taken)

/-- **What was unknown is known after a look if the frame that it takes announces it.** -/
theorem lookup_look_eq_some_iff (unknown : net.lookup hop = none) :
    net.look.lookup hop = some hardware ↔ ∃ frame, net.link.inbound[0]? = some frame ∧
      net.iface.addresses.Announces frame hop hardware := by
  cases hqueued : net.link.inbound with
  | nil => simp [look_of_nil hqueued, unknown]
  | cons frame rest =>
    obtain ⟨taken, hiface, -, hlook⟩ := look_of_cons hop hqueued
    have hunknown : taken.lookup hop = none := by
      unfold lookup
      rw [hiface]
      exact unknown
    have hpayload : Arp.Packet.parse (Ethernet.View.payload (frame.take Arp.frameLen)) =
        Arp.Packet.parse (Ethernet.View.payload frame) := by
      rw [Ethernet.View.payload_take]
      exact Arp.Packet.parse_take (by decide)
    simp only [List.getElem?_cons_zero, Option.some.injEq, exists_eq_left']
    rw [hlook]
    show Net.lookup (ite _ _ _) hop = some hardware ↔ _
    by_cases harp : Ethernet.headerLen ≤ frame.length ∧ Ethernet.View.etherType frame = .arp
    · rw [if_pos harp, lookup_receiveArp_eq_some_iff hunknown, hpayload, hiface]
      constructor
      · rintro ⟨p, hannounces⟩
        exact ⟨p, harp.2, hannounces⟩
      · rintro ⟨p, -, hannounces⟩
        exact ⟨p, hannounces⟩
    · rw [if_neg harp, hunknown]
      refine iff_of_false (by simp) ?_
      rintro ⟨p, htype, hparsed, -⟩
      -- A frame that carries a packet is longer than its header.
      have hlong := (Arp.Packet.parse_eq_ok_iff.mp hparsed).1.long
      have hlength : (Ethernet.View.payload frame).length = frame.length - Ethernet.headerLen :=
        List.length_drop
      exact harp ⟨by omega, htype⟩

/-! ## Requests -/

/-- How the search for `hop` has ended within `n` looks: a frame has told who is searched for, or
no frame has.  How many requests have been sent for it depends on how many looks it took. -/
inductive Searched (net net' : Net Loopback) (hop : Ipv4Address) (n : Nat) (asked : Nat → Nat)
    (total : Nat) : Option MacAddress → Prop where
  | found (i : Nat) (hardware : MacAddress) (inside : i < n)
    (first : net.iface.addresses.FirstAnnounces net.link.inbound hop i hardware)
    (searches : net.Searches net' hop (i + 1) (asked i))
    (known : net'.lookup hop = some hardware) :
    Searched net net' hop n asked total (some hardware)
  | nobody (unheard : net.iface.addresses.NoneAnnounces net.link.inbound hop n)
    (searches : net.Searches net' hop n total)
    (unknown : net'.lookup hop = none) : Searched net net' hop n asked total none

/-- **A search that goes on ends as one search**: behind frames that do not tell who is searched
for. -/
theorem Searched.behind {m n before total total' : Nat} {asked asked' : Nat → Nat}
    {result : Option MacAddress}
    (unheard : net.iface.addresses.NoneAnnounces net.link.inbound hop m)
    (searches : net.Searches net' hop m before)
    (searched : net'.Searched net'' hop n asked total result)
    (count : ∀ i < n, asked' (m + i) = before + asked i) (whole : total' = before + total) :
    net.Searched net'' hop (m + n) asked' total' result := by
  have haddresses : net'.iface.addresses = net.iface.addresses := by rw [searches.settings]
  have hinbound := searches.inbound
  cases searched with
  | found i hardware inside first searches' known =>
    rw [haddresses, hinbound] at first
    refine .found (m + i) hardware (by omega) (first.of_drop unheard) ?_ known
    rw [count i inside]
    exact searches.trans searches'
  | nobody unheard' searches' unknown =>
    rw [haddresses, hinbound] at unheard'
    subst whole
    exact .nobody (Addresses.noneAnnounces_add_iff.mpr ⟨unheard, unheard'⟩)
      (searches.trans searches') unknown

/-- **A wait takes frames until one tells who is searched for**, and asks for nothing. -/
theorem searched_awaitWhile (net : Net Loopback) (unknown : net.lookup hop = none) (n : Nat) :
    net.Searched (net.awaitWhile hop (fun _ => true) n).2 hop n (fun _ => 0) 0
      (net.awaitWhile hop (fun _ => true) n).1 := by
  induction n generalizing net with
  | zero => exact .nobody Addresses.noneAnnounces_zero (.refl net hop) unknown
  | succ n ih =>
    have hlook := net.searches_look hop
    have hannounced (hardware : MacAddress) : net.look.lookup hop = some hardware ↔
        ∃ frame, net.link.inbound[0]? = some frame ∧
          net.iface.addresses.Announces frame hop hardware :=
      lookup_look_eq_some_iff unknown
    unfold awaitWhile
    simp only [if_true]
    cases hfound : net.look.lookup hop with
    | some hardware =>
      have hfirst : net.iface.addresses.FirstAnnounces net.link.inbound hop 0 hardware :=
        ⟨Addresses.noneAnnounces_zero, (hannounced hardware).mp hfound⟩
      exact .found 0 hardware n.succ_pos hfirst hlook hfound
    | none =>
      -- The frame that has been taken does not tell it, so the search goes on behind that frame.
      have hunheard : net.iface.addresses.NoneAnnounces net.link.inbound hop 1 := by
        intro j hj frame hframe hardware hannounces
        obtain rfl : j = 0 := by omega
        simp [(hannounced hardware).mpr ⟨frame, hframe, hannounces⟩] at hfound
      rw [Nat.add_comm n 1]
      exact (ih net.look hfound).behind hunheard hlook (fun _ _ => rfl) rfl

/-- **The requests that are sent are as many as the waits that have begun.** -/
theorem searched_ask {looks : Nat} (net : Net Loopback)
    (patient : net.iface.patience = .looks looks) (unknown : net.lookup hop = none) (n : Nat) :
    ∃ result : Option MacAddress,
      (net.ask hop n).1 = result.elim (.error .unreachable) .ok ∧
        net.Searched (net.ask hop n).2 hop (n * looks) (fun i => i / looks + 1) n result := by
  induction n generalizing net with
  | zero =>
    rw [Nat.zero_mul]
    exact ⟨none, rfl, .nobody Addresses.noneAnnounces_zero (.refl net hop) unknown⟩
  | succ n ih =>
    have hone : [(net.iface.request hop).frame .broadcast].filter Ethernet.View.asks =
        List.replicate 1 ((net.iface.request hop).frame .broadcast) := by
      rw [List.filter_singleton, Arp.Packet.asks_frame]
      rfl
    obtain ⟨asked, hsend, hiface, hrequest⟩ := net.searches_sendFrame hone
    have hunknown : asked.lookup hop = none := by
      unfold lookup
      rw [hiface]
      exact unknown
    have hawait : asked.await hop = asked.awaitWhile hop (fun _ => true) looks := by
      unfold await
      rw [hiface, patient]
    -- The request takes no frame, so the wait behind it is as long as it is on its own.
    have hwait : net.Searched (asked.await hop).2 hop (0 + looks) (fun _ => 1) 1
        (asked.await hop).1 := by
      rw [hawait]
      exact (searched_awaitWhile asked hunknown looks).behind Addresses.noneAnnounces_zero
        hrequest (fun _ _ => rfl) rfl
    unfold ask
    dsimp only
    rw [hsend]
    dsimp only
    rw [Nat.zero_add] at hwait
    generalize asked.await hop = waited at hwait
    obtain ⟨result, after⟩ := waited
    cases hwait with
    | found i hardware inside first searches known =>
      have hinside : i < (n + 1) * looks := by
        rw [Nat.succ_mul]
        omega
      refine ⟨some hardware, rfl, .found i hardware hinside first ?_ known⟩
      rw [Nat.div_eq_of_lt inside]
      exact searches
    | nobody unheard searches unknown =>
      have hpatient : after.iface.patience = .looks looks := by
        rw [searches.settings]
        exact patient
      obtain ⟨result, hresult, hsearched⟩ := ih after hpatient unknown
      rw [Nat.succ_mul, Nat.add_comm]
      refine ⟨result, hresult, hsearched.behind unheard searches ?_ (Nat.add_comm n 1)⟩
      intro i hi
      -- Behind this wait there is a look only if a wait has looks at all.
      have hlooks : 0 < looks := by
        refine Nat.pos_of_ne_zero ?_
        rintro rfl
        omega
      rw [Nat.add_div_left i hlooks]
      omega

/-! ## Resolution -/

end Net

/-- The fixed addresses are those of three groups. -/
theorem Addresses.mem_of_fixedHardware {l : Addresses} {target : Ipv4Address}
    {hardware : MacAddress} (fixed : l.fixedHardware target = some hardware) :
    hardware ∈ [MacAddress.broadcast, .mdns, .llmnr] := by
  unfold fixedHardware at fixed
  split_ifs at fixed <;> (cases fixed; simp)

namespace Net

variable {net : Net Loopback} {hop : Ipv4Address}

/-- The hardware address for `target` is the one of `hop`, and has to be asked for. -/
structure MustAsk (net : Net Loopback) (target hop : Ipv4Address) : Prop where
  unfixed : net.iface.addresses.fixedHardware target = none
  next : net.iface.addresses.nextHop target = some hop
  unknown : net.lookup hop = none

/-- What is looked up is found at once.  What is asked for is found by the first frame that tells
it, out of as many as there are looks for all requests. -/
structure ResolvesExactly (net : Net Loopback) (target : Ipv4Address) (looks : Nat) : Prop where
  /-- Groups have fixed addresses. -/
  fixed : ∀ hardware, net.iface.addresses.fixedHardware target = some hardware →
    net.resolve target = (.ok hardware, net) ∧
      hardware ∈ [MacAddress.broadcast, .mdns, .llmnr]
  /-- There is no way to some hosts. -/
  astray : net.iface.addresses.fixedHardware target = none →
    net.iface.addresses.nextHop target = none → net.resolve target = (.error .unreachable, net)
  /-- Neighbours are known. -/
  known : ∀ hop hardware, net.iface.addresses.fixedHardware target = none →
    net.iface.addresses.nextHop target = some hop → net.lookup hop = some hardware →
    net.resolve target = (.ok hardware, net)
  /-- Others are found if a frame announces them. -/
  heard : ∀ hop, net.MustAsk target hop → ∀ hardware,
    (net.resolve target).1 = .ok hardware ↔ ∃ i < net.iface.requests * looks,
      net.iface.addresses.FirstAnnounces net.link.inbound hop i hardware
  /-- Nothing is taken behind that frame, and a request has been sent for each wait begun. -/
  sought : ∀ hop i hardware, net.MustAsk target hop → i < net.iface.requests * looks →
    net.iface.addresses.FirstAnnounces net.link.inbound hop i hardware →
    net.Searches (net.resolve target).2 hop (i + 1) (i / looks + 1) ∧
      (net.resolve target).2.lookup hop = some hardware
  /-- Who is not found is given up after the last wait. -/
  unheard : ∀ hop, net.MustAsk target hop →
    (∀ hardware, (net.resolve target).1 ≠ .ok hardware) →
    (net.resolve target).1 = .error .unreachable ∧
      net.Searches (net.resolve target).2 hop (net.iface.requests * looks) net.iface.requests

theorem resolve_of_mustAsk {target : Ipv4Address} (must : net.MustAsk target hop) :
    net.resolve target = net.ask hop net.iface.requests := by
  unfold resolve
  rw [must.unfixed]
  dsimp only
  rw [must.next]
  dsimp only
  rw [must.unknown]

/-- **Resolution is exact**, if answers are awaited for a number of looks at the link. -/
theorem resolvesExactly (net : Net Loopback) {looks : Nat}
    (patient : net.iface.patience = .looks looks) (target : Ipv4Address) :
    net.ResolvesExactly target looks := by
  have hsearched {hop : Ipv4Address} (must : net.MustAsk target hop) :=
    net.searched_ask patient must.unknown net.iface.requests
  constructor
  case fixed =>
    intro hardware hfixed
    refine ⟨resolve_of_known ?_, Addresses.mem_of_fixedHardware hfixed⟩
    unfold Interface.hardwareOf?
    rw [hfixed]
    rfl
  case astray =>
    intro hunfixed hnext
    unfold resolve
    rw [hunfixed]
    dsimp only
    rw [hnext]
  case known =>
    intro hop hardware hunfixed hnext hknown
    refine resolve_of_known ?_
    unfold Interface.hardwareOf?
    rw [hunfixed, hnext]
    exact hknown
  case heard =>
    intro hop must hardware
    obtain ⟨result, hresult, hsearched⟩ := hsearched must
    rw [resolve_of_mustAsk must, hresult]
    cases hsearched with
    | found i found inside first searches known =>
      constructor
      · rintro ⟨⟩
        exact ⟨i, inside, first⟩
      · rintro ⟨j, -, first'⟩
        obtain ⟨-, rfl⟩ := first.unique first'
        rfl
    | nobody unheard searches unknown =>
      refine iff_of_false (by simp) ?_
      rintro ⟨j, hj, -, frame, hframe, hannounces⟩
      exact unheard j hj frame hframe hardware hannounces
  case sought =>
    intro hop i hardware must hi first
    obtain ⟨result, -, hsearched⟩ := hsearched must
    rw [resolve_of_mustAsk must]
    cases hsearched with
    | found j found inside first' searches known =>
      obtain ⟨rfl, rfl⟩ := first'.unique first
      exact ⟨searches, known⟩
    | nobody unheard searches unknown =>
      obtain ⟨-, frame, hframe, hannounces⟩ := first
      exact absurd hannounces (unheard i hi frame hframe hardware)
  case unheard =>
    intro hop must hnever
    obtain ⟨result, hresult, hsearched⟩ := hsearched must
    rw [resolve_of_mustAsk must] at hnever ⊢
    rw [hresult] at hnever ⊢
    cases hsearched with
    | found i found inside first searches known => exact absurd rfl (hnever found)
    | nobody unheard searches unknown => exact ⟨rfl, searches⟩

/-- The fourth frame tells who is searched for, and it is taken during the second wait.  Before it
are a frame without a header, the request of another host, which is answered, and a reply in the
name of our own station. -/
theorem resolvesExactly_behind :
    let own : Ipv4Address := ⟨10, 0, 0, 1⟩
    let peer : Ipv4Address := ⟨10, 0, 0, 2⟩
    let station (d : UInt8) : MacAddress := ⟨2, 0, 0, 0, 0, d⟩
    let l : Addresses := ⟨station 1, own, ⟨255, 255, 255, 0⟩, .unspecified⟩
    let asks : Arp.Packet := .request (station 3) ⟨10, 0, 0, 3⟩ own
    let forged : Arp.Packet := ⟨.reply, station 1, peer, station 1, own⟩
    let told : Arp.Packet := ⟨.reply, station 2, peer, station 1, own⟩
    let frames := [[], asks.frame .broadcast, forged.frame (station 1), told.frame (station 1), []]
    let net : Net Loopback := ⟨.fresh l (.empty 60) 3 (.looks 2) 64, { inbound := frames }⟩
    net.ResolvesExactly peer 2 ∧ l.FirstAnnounces frames peer 3 (station 2) ∧
      (net.resolve peer).1 = .ok (station 2) ∧ net.Searches (net.resolve peer).2 peer 4 2 ∧
      (net.resolve peer).2.link.inbound = [[]] ∧ (net.resolve peer).2.link.sent.length = 3 := by
  intro own peer station l asks forged told frames net
  have hexact : net.ResolvesExactly peer 2 := net.resolvesExactly rfl peer
  have hunheard : l.NoneAnnounces frames peer 3 := by
    rintro j hj frame hframe hardware ⟨p, htype, hparsed, hheeds, -, hsrc, -⟩
    obtain rfl | rfl | rfl : j = 0 ∨ j = 1 ∨ j = 2 := by omega
    · cases hframe
      exact absurd htype (by decide)
    · have hasks : Arp.Packet.parse (Ethernet.View.payload (asks.frame .broadcast)) = .ok asks := by
        decide +kernel
      cases hframe
      cases hasks.symm.trans hparsed
      exact absurd hsrc (by decide)
    · have hforged : Arp.Packet.parse (Ethernet.View.payload (forged.frame (station 1))) =
          .ok forged := by decide +kernel
      cases hframe
      cases hforged.symm.trans hparsed
      exact absurd rfl hheeds.1
  have hannounces : l.Announces (told.frame (station 1)) peer (station 2) :=
    ⟨told, by decide +kernel, by decide +kernel, ⟨by decide, by decide, .inl rfl⟩, by decide, rfl,
      rfl⟩
  have hfirst : l.FirstAnnounces frames peer 3 (station 2) := ⟨hunheard, _, rfl, hannounces⟩
  have hmust : net.MustAsk peer peer := ⟨by decide, by decide, by decide⟩
  exact ⟨hexact, hfirst, (hexact.heard peer hmust _).mpr ⟨3, by decide, hfirst⟩,
    (hexact.sought peer 3 _ hmust (by decide) hfirst).1, by decide +kernel, by decide +kernel⟩

end Net

end NetEngine
