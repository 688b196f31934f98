import NetEngine.Proofs.Engine.Calls
import NetEngine.Proofs.Net.Learning

/-! # Whom the Neighbour Cache Trusts

    * **Calls**, **Runs**: what a cache keeps through every lesson, it keeps through
      every call, whatever arrives meanwhile.
    * **Trust**: a cache that is trusted stays so until a frame misleads, and a frame
      that misleads does so. -/

namespace NetEngine.Engine

variable {L : Type}

/-! ## Datagrams that are accepted -/

/-- A datagram is for us if our addresses accept it. -/
theorem forUs_iff {e : Engine L} {frame : Ethernet.View} {c : ChecksumSet} {ip : Ipv4.Header}
    {destination : Destination} :
    e.ForUs frame c ip destination ↔ e.net.iface.addresses.Accepts frame c ip ∧
      destination = e.net.iface.addresses.classify ip.dst := by
  constructor
  · intro forUs
    obtain ⟨hintact, hparsed, hknown, hdestination⟩ :=
      Interface.classify_eq_ok_iff.mp forUs.classified
    have hours := forUs.ours
    rw [hdestination] at hours
    exact ⟨⟨forUs.heard, forUs.type, hintact, hparsed, hknown, hours⟩, hdestination⟩
  · rintro ⟨accepted, rfl⟩
    have hlong : Ethernet.headerLen ≤ frame.length := by
      obtain ⟨hheader, hthere, -⟩ :=
        Ipv4.View.check_eq_ok (Ipv4.Header.parse_eq_ok accepted.parsed).1
      have hpayload : frame.payload.length = frame.length - Ethernet.headerLen := List.length_drop
      unfold Ipv4.headerLen at hheader
      omega
    have hclassified : e.net.iface.classify frame.payload c = .ok (ip, _) :=
      Interface.classify_eq_ok_iff.mpr ⟨accepted.intact, accepted.parsed, accepted.known, rfl⟩
    exact ⟨hlong, accepted.heard, accepted.type, hclassified, accepted.ours⟩

variable [Link L]

/-! ## Calls -/

section

variable {e : Engine L} {l : Addresses} {P : Arrival → Prop} {K : Arp.Cache → Prop}

/-- A transport does what the network layer does. -/
theorem moves_carry (e : Engine L) (frame : Ethernet.View) (ip : Ipv4.Header)
    (destination : Destination) (c : ChecksumSet) :
    e.net.Moves (e.carry frame ip destination c).engine.net := by
  unfold carry
  cases hresult : e.receiveTransport frame ip destination c with
  | error err => exact .refl e.net
  | ok o =>
    have htransported := transported_receiveTransport hresult
    dsimp only
    cases htransported with
    | left | datagram => exact .refl e.net
    | echo reply => exact Net.moves_sendFrame e.net reply
    | segment s o parsed tcp net =>
      rw [net]
      exact Net.moves_follow e.net _

theorem within_handle (within : e.net.Within l P K) (withstands : l.Withstands P K)
    {arrival : Arrival} (allowed : P arrival) :
    (e.handle arrival.resident arrival.checksums).engine.net.Within l P K := by
  have hsorted := sorted_handle e arrival.resident arrival.checksums
  generalize e.handle arrival.resident arrival.checksums = o at hsorted ⊢
  cases hsorted with
  | refused => exact within
  | arp long heard type => exact within.receiveArp withstands allowed type
  | datagram ip destination forUs =>
    have hnoted : (e.noting arrival.resident ip).net.Within l P K := by
      rw [noting_eq]
      refine ⟨within.addresses, ?_, within.link⟩
      show K (e.neighbours arrival.resident ip)
      unfold neighbours
      split
      · rename_i hnear
        have haccepts := (forUs_iff.mp forUs).1
        unfold isNear at hnear
        rw [Bool.and_eq_true] at hnear
        rw [within.addresses] at haccepts hnear
        exact within.taught withstands allowed (.datagram ip haccepts hnear.1 hnear.2)
      · exact within.cache
    exact hnoted.moves withstands (moves_carry _ _ ip destination _)

theorem within_poll (within : e.net.Within l P K) (withstands : l.Withstands P K) :
    e.poll.engine.net.Within l P K := by
  have huse : Link.Use e.net.link (Link.receive e.net.link receiveRoom).2 := .receive _ _
  cases hreceive : Link.receive e.net.link receiveRoom with
  | mk arrived link =>
    rw [hreceive] at huse
    have htaken : (e.holding link).net.Within l P K := within.used huse
    cases arrived with
    | none =>
      rw [poll_of_idle hreceive]
      exact htaken
    | some arrival =>
      have hallowed : P arrival := within.link.next (.inl rfl) (by rw [hreceive])
      rw [poll_of_arrival hreceive]
      exact (within_handle htaken withstands hallowed).used (.done _)

theorem within_ticks (aged : ∀ cache, K cache → K cache.tick) (n : Nat)
    (within : e.net.Within l P K) : (ticks n e).net.Within l P K := by
  induction n generalizing e with
  | zero => exact within
  | succ n ih => exact ih ⟨within.addresses, aged _ within.cache, within.link⟩

/-- A call that sets no other address. -/
def Call.KeepsAddresses (l : Addresses) : Call → Prop
  | .setAddress address netmask gateway =>
    address = l.address ∧ netmask = l.netmask ∧ gateway = l.gateway
  | _ => True

theorem moves_connect (e : Engine L) (role : Tcp.Role) (localPort remotePort : UInt16)
    (remote : Ipv4Address) : e.net.Moves (e.connect role localPort remotePort remote).2.net := by
  unfold connect
  cases hconnect : e.tcp.connect role localPort remotePort remote with
  | error err => exact .refl e.net
  | ok step =>
    have hfollow : e.net.Moves (e.follow step).2.net := Net.moves_follow e.net step.out
    dsimp only
    split
    · rename_i sent h
      rwa [h] at hfollow
    · rename_i err refused h
      rw [h] at hfollow
      exact hfollow

theorem moves_send (e : Engine L) (role : Tcp.Role) (source : Source) (tracked : Bool)
    (heap : Tcp.Heap) : e.net.Moves (e.send role source tracked heap).2.net := by
  unfold send
  dsimp only
  split
  · exact .refl e.net
  · exact Net.moves_sendPieces e.net e.tcp role source tracked heap _

theorem within_after (within : e.net.Within l P K) (withstands : l.Withstands P K)
    (aged : ∀ cache, K cache → K cache.tick) {call : Call} (keeps : call.KeepsAddresses l) :
    (e.after call).net.Within l P K := by
  have hmoves (moves : e.net.Moves (e.after call).net) : (e.after call).net.Within l P K :=
    within.moves withstands moves
  cases call with
  | setAddress address netmask gateway =>
    obtain ⟨rfl, rfl, rfl⟩ := keeps
    refine ⟨?_, within.cache, within.link⟩
    have haddresses := within.addresses
    show { e.net.iface.addresses with
      address := l.address, netmask := l.netmask, gateway := l.gateway } = l
    rw [haddresses]
  | useClock rate => exact ⟨within.addresses, within.cache, within.link⟩
  | tick => exact within_ticks aged 1 within
  | catchUp now => exact within_ticks aged _ within
  | register b =>
    show ((e.register b).toOption.elim e (·.2)).net.Within l P K
    unfold register
    cases e.ports.register b <;> exact within
  | unregister slot =>
    show ((e.unregister slot).toOption.getD e).net.Within l P K
    unfold unregister
    cases e.ports.unregister slot <;> exact within
  | freshPort =>
    show (e.freshPort.elim e (·.2)).net.Within l P K
    unfold freshPort
    cases e.ports.freshPort e.tcp.portInUse <;> exact within
  | resolve dst => exact hmoves (Net.moves_resolve e.net dst)
  | sendDatagram srcPort dstPort dst len source =>
    exact hmoves (Net.moves_sendDatagram e.net srcPort dstPort dst len source)
  | connect role localPort remotePort remote =>
    exact hmoves (moves_connect e role localPort remotePort remote)
  | listen port =>
    show (e.listen port).2.net.Within l P K
    unfold listen
    cases e.tcp.listen port <;> exact within
  | send role source tracked heap => exact hmoves (moves_send e role source tracked heap)
  | close role => exact hmoves (Net.moves_follow e.net _)
  | abort role => exact hmoves (Net.moves_follow e.net _)
  | upkeep => exact hmoves (Net.moves_sendSegments e.net _)
  | poll => exact within_poll within withstands

end

/-! ## Runs -/

/-- What happens to an engine. -/
inductive Happening (L : Type) where
  | call (call : Call)
  /-- Something has become of the link meanwhile, as when frames arrive. -/
  | link (link : L)

/-- The engine when something has happened. -/
def past (e : Engine L) : Happening L → Engine L
  | .call call => e.after call
  | .link link => e.holding link

/-- The addresses are not changed, and the link hands out frames that satisfy `P`. -/
def Happening.Keeps (l : Addresses) (P : Arrival → Prop) : Happening L → Prop
  | .call c => c.KeepsAddresses l
  | .link net => Link.HandsOut P net

theorem within_run {e : Engine L} {l : Addresses} {P : Arrival → Prop} {K : Arp.Cache → Prop}
    (within : e.net.Within l P K) (withstands : l.Withstands P K)
    (aged : ∀ cache, K cache → K cache.tick) {happenings : List (Happening L)}
    (keeps : ∀ h ∈ happenings, h.Keeps l P) : (happenings.foldl past e).net.Within l P K := by
  induction happenings generalizing e with
  | nil => exact within
  | cons h happenings ih =>
    obtain ⟨hfirst, hrest⟩ := List.forall_mem_cons.mp keeps
    refine ih ?_ hrest
    cases h with
    | call call => exact within_after within withstands aged hfirst
    | link link => exact ⟨within.addresses, within.cache, hfirst⟩

/-! ## Trust -/

section

variable {e : Engine L}

/-- Every lesson of a frame that is heard is learnt, and stays if nothing else is heard. -/
theorem cache_handle_of_teaches {frame : Ethernet.View} {c : ChecksumSet} {a : Ipv4Address}
    {hardware : MacAddress} (heard : e.net.iface.addresses.hears frame.dst)
    (last : Link.HandsOut (fun _ => False) e.net.link)
    (teaches : e.net.iface.addresses.Teaches frame c a hardware) :
    (e.handle frame c).engine.net.iface.cache = e.net.iface.cache.learn a hardware := by
  cases teaches with
  | packet p type parsed heeded =>
    have hlong : Ethernet.headerLen ≤ frame.length := by
      by_contra hshort
      have hnothing : frame.payload = [] := List.drop_eq_nil_of_le (by omega)
      rw [hnothing] at parsed
      cases parsed
    have hiface : (e.net.receiveArp frame.payload).2.iface = (e.net.iface.handleArp p).1 := by
      unfold Net.receiveArp
      rw [parsed]
      dsimp only
      split <;> rfl
    rw [handle_of_arp hlong heard type]
    show (e.net.receiveArp frame.payload).2.iface.cache = _
    rw [hiface, Interface.cache_handleArp_of_heeds heeded]
  | datagram ip accepted near station =>
    have hforUs := forUs_iff.mpr ⟨accepted, rfl⟩
    have hnear : e.isNear frame ip := by
      unfold isNear
      rw [near, station]
      rfl
    let known := e.net.iface.cache.learn ip.src frame.src
    have hnoted : (e.noting frame ip).net.Within e.net.iface.addresses (fun _ => False)
        (· = known) := by
      rw [noting_eq]
      unfold neighbours
      rw [if_pos hnear]
      exact ⟨rfl, rfl, last⟩
    have hwithstands : e.net.iface.addresses.Withstands (fun _ => False) (· = known) :=
      fun _ _ _ _ never => never.elim
    rw [handle_of_forUs hforUs]
    exact (hnoted.moves hwithstands (moves_carry _ frame ip _ c)).cache

end

/-- **The cache can be trusted until a frame misleads**: as long as the addresses stay and no frame
that is handed out misleads, whatever else arrives and whatever is called, everybody in the cache is
another host and another station.  A frame that misleads, and is heard by a poll, is believed. -/
theorem trusted_until_misled (l : Addresses) :
    (∀ (e : Engine L) (happenings : List (Happening L)), e.net.iface.addresses = l →
      l.Trusts e.net.iface.cache → Link.HandsOut (fun a => ¬ l.Misleads a) e.net.link →
      (∀ h ∈ happenings, h.Keeps l fun a => ¬ l.Misleads a) →
      l.Trusts (happenings.foldl past e).net.iface.cache) ∧
    ∀ (e : Engine L) (arrival : Arrival) (link : L), e.net.iface.addresses = l →
      Link.receive e.net.link receiveRoom = (some arrival, link) →
      Link.HandsOut (fun _ => False) link → l.hears (Ethernet.View.dst arrival.resident) →
      l.Misleads arrival → ¬ l.Trusts e.poll.engine.net.iface.cache := by
  constructor
  · intro e happenings addresses trusted handsOut keeps
    have hwithin : e.net.Within l (fun a => ¬ l.Misleads a) l.Trusts :=
      ⟨addresses, trusted, handsOut⟩
    have haged : ∀ cache, l.Trusts cache → l.Trusts cache.tick := fun _ => Addresses.trusts_tick
    exact (within_run hwithin (Addresses.withstands_trusts l) haged keeps).cache
  · rintro e arrival link rfl arrived last heard ⟨a, hardware, teaches, learnable, misled⟩
    have hlearnt := cache_handle_of_teaches (e := e.holding link) heard last teaches
    rw [poll_of_arrival arrived]
    show ¬ Addresses.Trusts _ ((e.holding link).handle _ _).engine.net.iface.cache
    rw [hlearnt]
    exact Addresses.not_trusts_learn learnable misled _

/-- A host that answers is trusted, also while time passes, unless it answers for a group. -/
theorem trusted_until_misled_answered :
    let own : Ipv4Address := ⟨10, 0, 0, 1⟩
    let peer : Ipv4Address := ⟨10, 0, 0, 2⟩
    let e := start { address := own } ({} : Loopback)
    let l := e.net.iface.addresses
    let station : MacAddress := ⟨2, 0, 0, 0, 0, 2⟩
    let group : MacAddress := ⟨3, 0, 0, 0, 0, 2⟩
    let reply (hardware : MacAddress) : Arp.Packet := ⟨.reply, hardware, peer, l.hardware, own⟩
    let told (hardware : MacAddress) : Loopback := { inbound := [(reply hardware).frame l.hardware] }
    let known := [.link (told station), .call .poll, .call .tick].foldl past e
    let misled := (e.holding (told group)).poll.engine
    (known.net.lookup peer = some station ∧ l.Trusts known.net.iface.cache) ∧
      misled.net.lookup peer = some group ∧ ¬ l.Trusts misled.net.iface.cache := by
  intro own peer e l station group reply told known misled
  obtain ⟨htrusted, hmisled⟩ := trusted_until_misled (L := Loopback) l
  have hempty {P : Arrival → Prop} {link : Loopback} (nobody : link.inbound = []) :
      Link.HandsOut P link := by
    apply Link.handsOut_loopback
    intro frame hframe
    rw [nobody] at hframe
    cases hframe
  refine ⟨⟨by decide +kernel, ?_⟩, by decide +kernel, ?_⟩
  · have hhonest : Link.HandsOut (fun a => ¬ l.Misleads a) (told station) := by
      apply Link.handsOut_loopback
      rintro frame hframe room hroom ⟨a, hardware, teaches, -, hmisleads⟩
      cases List.mem_singleton.mp hframe
      let shown := ((reply station).frame l.hardware).take room
      have htype : Ethernet.View.etherType shown = .arp := by
        rcases hroom with rfl | rfl <;> decide +kernel
      have hparsed : Arp.Packet.parse (Ethernet.View.payload shown) = .ok (reply station) := by
        rcases hroom with rfl | rfl <;> decide +kernel
      cases teaches with
      | packet p type parsed heeded =>
        cases hparsed.symm.trans parsed
        revert hmisleads
        decide
      | datagram ip accepted => cases htype.symm.trans accepted.type
    refine htrusted e _ rfl (Addresses.trusts_empty l _) (hempty rfl) ?_
    simp only [List.forall_mem_cons]
    exact ⟨hhonest, trivial, trivial, by simp⟩
  · let frame := (reply group).frame l.hardware
    let taken : Loopback := { inbound := [], current := some frame, cursor := frame.length }
    have hteaches : l.Teaches frame (Offload.verified frame) peer group :=
      .packet (reply group) (by decide +kernel) (by decide +kernel)
        ⟨by decide, by decide, .inl rfl⟩
    exact hmisled (e.holding (told group)) ⟨frame.length, Offload.verified frame, frame⟩ taken rfl
      (by rfl) (hempty rfl) (by decide +kernel)
      ⟨peer, group, hteaches, by decide, .inr (.inl (by decide))⟩

/-- Datagrams are believed that another station sends from our address, or that come from our own
station under another address. -/
theorem misled_by_datagrams :
    let own : Ipv4Address := ⟨192, 168, 1, 10⟩
    let peer : Ipv4Address := ⟨192, 168, 1, 20⟩
    let station : MacAddress := ⟨2, 0, 0, 0, 0, 2⟩
    let e := start { address := own, gateway := ⟨192, 168, 1, 1⟩ } ({} : Loopback)
    let l := e.net.iface.addresses
    let packet := Udp.Header.encode ⟨5000, 9, 4⟩ ++ [1, 2, 3, 4]
    let sent (hardware : MacAddress) (a : Ipv4Address) :=
      Offload.frameOf ⟨hardware, l.hardware, .ipv4⟩ ⟨a, own, .udp, packet.length, 64⟩ 1 packet
    let after (hardware : MacAddress) (a : Ipv4Address) :=
      (e.holding { inbound := [sent hardware a] }).poll.engine.net
    (after station own).lookup own = some station ∧
      ¬ l.Trusts (after station own).iface.cache ∧
      (after l.hardware peer).lookup peer = some l.hardware ∧
      ¬ l.Trusts (after l.hardware peer).iface.cache := by
  unfold Addresses.Trusts
  decide +kernel

end NetEngine.Engine
