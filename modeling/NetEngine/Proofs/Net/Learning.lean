import NetEngine.Proofs.Arp.Cache
import NetEngine.Proofs.Engine.Sorting
import NetEngine.Proofs.Net.Emitting
import NetEngine.Proofs.Net.Moving

/-! # From Whom the Network Layer Learns

    A neighbour becomes known by a packet of address resolution or by a datagram.
    Either tells who has which hardware address, and nobody vouches for it.

    * **Lessons**: what a frame can teach an interface, by its addresses alone.
    * **Within**: what a cache keeps through every lesson, it keeps through whatever
      the network layer does, also while it awaits an answer.
    * **Trust**: everybody in a cache should be another host and another station.
      Every lesson is fit for that, unless it tells that another station has our
      address, that our station has another one, or that an address belongs to a
      group. -/

namespace NetEngine

/-! ## Lessons -/

namespace Addresses

/-- Does an interface with these addresses take note of a packet of address resolution? -/
def Heeds (l : Addresses) (p : Arp.Packet) : Prop :=
  p.srcHardware ≠ l.hardware ∧ ¬ (l.isAssigned ∧ p.srcProtocol = l.address) ∧
    (p.operation = .reply ∨ p.operation = .request ∧ l.isAssigned ∧ p.dstProtocol = l.address)

/-- An interface with these addresses accepts the datagram in a frame. -/
structure Accepts (l : Addresses) (frame : Ethernet.View) (c : ChecksumSet) (ip : Ipv4.Header) :
    Prop where
  heard : l.hears frame.dst
  type : frame.etherType = .ipv4
  intact : c.ipv4
  parsed : Ipv4.Header.parse frame.payload .manual = .ok ip
  known : ∀ code, ip.protocol ≠ .unknown code
  ours : ¬ (l.isAssigned ∧ l.classify ip.dst = .notOurs)

/-- What a frame teaches an interface with these addresses: which host has which hardware
address. -/
inductive Teaches (l : Addresses) (frame : Ethernet.View) (c : ChecksumSet) :
    Ipv4Address → MacAddress → Prop
  | packet (p : Arp.Packet) (type : frame.etherType = .arp)
      (parsed : Arp.Packet.parse frame.payload = .ok p) (heeded : l.Heeds p) :
      Teaches l frame c p.srcProtocol p.srcHardware
  | datagram (ip : Ipv4.Header) (accepted : l.Accepts frame c ip) (near : l.onSubnet ip.src)
      (station : frame.src.isUnicast) : Teaches l frame c ip.src frame.src

end Addresses

namespace Interface

variable {i : Interface} {p : Arp.Packet}

theorem cache_handleArp_of_heeds (heeded : i.addresses.Heeds p) :
    (i.handleArp p).1.cache = i.cache.learn p.srcProtocol p.srcHardware := by
  obtain ⟨hother, hpeaceful, htold⟩ := heeded
  unfold handleArp
  simp only [if_neg hother, if_neg hpeaceful]
  rcases htold with hreply | ⟨hrequest, hasked⟩
  · rw [hreply]
    rfl
  · rw [hrequest]
    simp only [if_pos hasked]
    rfl

theorem cache_handleArp_of_not_heeds (ignored : ¬ i.addresses.Heeds p) :
    (i.handleArp p).1.cache = i.cache := by
  unfold Addresses.Heeds at ignored
  unfold handleArp
  by_cases hown : p.srcHardware = i.addresses.hardware
  · simp [hown]
  · by_cases hconflict : i.addresses.isAssigned ∧ p.srcProtocol = i.addresses.address
    · simp [hown, hconflict]
    · simp only [if_neg hown, if_neg hconflict]
      cases hoperation : p.operation with
      | reply => exact absurd ⟨hown, hconflict, .inl hoperation⟩ ignored
      | request =>
        have hforeign : ¬ (i.addresses.isAssigned ∧ p.dstProtocol = i.addresses.address) :=
          fun hasked => ignored ⟨hown, hconflict, .inr ⟨hoperation, hasked⟩⟩
        simp only [if_neg hforeign]
      | unknown => rfl

end Interface

/-! ## Within -/

variable {L : Type} [Link L]

/-- Whatever frames with `P` teach an interface with these addresses, `K` holds of its cache before
and afterwards. -/
def Addresses.Withstands (l : Addresses) (P : Arrival → Prop) (K : Arp.Cache → Prop) : Prop :=
  ∀ arrival a hardware cache, P arrival →
    l.Teaches arrival.resident arrival.checksums a hardware → Arp.Cache.isLearnable a →
    K cache → K (cache.learn a hardware)

/-- The interface has the addresses `l`, its cache satisfies `K`, and the link hands out frames that
satisfy `P`. -/
structure Net.Within (l : Addresses) (P : Arrival → Prop) (K : Arp.Cache → Prop) (net : Net L) :
    Prop where
  addresses : net.iface.addresses = l
  cache : K net.iface.cache
  link : Link.HandsOut P net.link

namespace Net.Within

variable {l : Addresses} {P : Arrival → Prop} {K : Arp.Cache → Prop} {net net' : Net L}

/-- The link is used. -/
theorem used (within : net.Within l P K) {link : L} (use : Link.Use net.link link) :
    Net.Within l P K { net with link := link } :=
  ⟨within.addresses, within.cache, within.link.used use⟩

/-- A lesson is learnt, if it can be. -/
theorem taught (within : net.Within l P K) (withstands : l.Withstands P K) {arrival : Arrival}
    {a : Ipv4Address} {hardware : MacAddress} (allowed : P arrival)
    (teaches : l.Teaches arrival.resident arrival.checksums a hardware) :
    K (net.iface.cache.learn a hardware) := by
  by_cases hlearnable : Arp.Cache.isLearnable a
  · exact withstands arrival a hardware _ allowed teaches hlearnable within.cache
  · rw [Arp.Cache.learn_of_not_learnable hlearnable]
    exact within.cache

theorem receiveArp (within : net.Within l P K) (withstands : l.Withstands P K) {arrival : Arrival}
    (allowed : P arrival) (type : Ethernet.View.etherType arrival.resident = .arp) :
    Net.Within l P K (net.receiveArp (Ethernet.View.payload arrival.resident)).2 := by
  unfold Net.receiveArp
  cases hparse : Arp.Packet.parse (Ethernet.View.payload arrival.resident) with
  | error err => exact within
  | ok p =>
    let noted : Net L := { net with iface := (net.iface.handleArp p).1 }
    have hcache : K noted.iface.cache := by
      by_cases hheeds : net.iface.addresses.Heeds p
      · show K (net.iface.handleArp p).1.cache
        rw [Interface.cache_handleArp_of_heeds hheeds]
        rw [within.addresses] at hheeds
        exact within.taught withstands allowed (.packet p type hparse hheeds)
      · show K (net.iface.handleArp p).1.cache
        rw [Interface.cache_handleArp_of_not_heeds hheeds]
        exact within.cache
    have hnoted : Net.Within l P K noted :=
      ⟨(Interface.addresses_handleArp net.iface p).trans within.addresses, hcache, within.link⟩
    dsimp only
    split
    · exact hnoted
    · exact hnoted.used (.transmit _ _ _ _ _)

theorem look (within : net.Within l P K) (withstands : l.Withstands P K) :
    Net.Within l P K net.look := by
  have huse : Link.Use net.link (Link.receive net.link Arp.frameLen).2 := .receive _ _
  have hnext (arrival : Arrival)
      (arrived : (Link.receive net.link Arp.frameLen).1 = some arrival) : P arrival :=
    within.link.next (.inr rfl) arrived
  unfold Net.look
  cases hreceive : Link.receive net.link Arp.frameLen with
  | mk arrived link =>
    rw [hreceive] at huse hnext
    have htaken : Net.Within l P K { net with link := link } := within.used huse
    cases arrived with
    | none => exact htaken
    | some arrival =>
      dsimp only
      split
      · rename_i hheader
        have htype : Ethernet.View.etherType arrival.resident = .arp :=
          (congrArg Ethernet.Header.etherType (Ethernet.Header.parse_eq_ok hheader).2).symm
        have hnoted := htaken.receiveArp withstands (hnext arrival rfl) htype
        exact hnoted.used (.done _)
      · exact htaken.used (.done _)

/-- **What withstands every lesson withstands whatever the network layer does.** -/
theorem moves (within : net.Within l P K) (withstands : l.Withstands P K)
    (moves : net.Moves net') : net'.Within l P K := by
  refine moves.keep ?_ within
  intro net net' move within
  cases move with
  | number => exact ⟨within.addresses, within.cache, within.link⟩
  | transmit headers length checksums body =>
    exact within.used (.transmit _ headers length checksums body)
  | look => exact within.look withstands

end Net.Within

/-! ## Trust -/

namespace Addresses

/-- Everybody in a cache is another host than we are, and another station. -/
def Trusts (l : Addresses) (cache : Arp.Cache) : Prop :=
  ∀ n ∈ cache.toList, n.protocol ≠ l.address ∧ n.protocol ≠ .unspecified ∧
    n.protocol ≠ .broadcast ∧ n.hardware.isUnicast ∧ n.hardware ≠ l.hardware

/-- A frame teaches that another station has our address, that our station has another one, or that
an address belongs to a group. -/
def Misleads (l : Addresses) (arrival : Arrival) : Prop :=
  ∃ a hardware, l.Teaches arrival.resident arrival.checksums a hardware ∧
    Arp.Cache.isLearnable a ∧ (a = l.address ∨ hardware.isMulticast ∨ hardware = l.hardware)

/-- A cache that remembers nobody is trusted. -/
theorem trusts_empty (l : Addresses) (lifetime : Countdown) : l.Trusts (.empty lifetime) := by
  intro n hn
  cases hn

theorem trusts_tick {l : Addresses} {cache : Arp.Cache} (trusted : l.Trusts cache) :
    l.Trusts cache.tick := by
  intro n hn
  obtain ⟨m, hm, hprotocol, hhardware⟩ := Arp.Cache.mem_tick hn
  rw [← hprotocol, ← hhardware]
  exact trusted m hm

/-- Trust withstands every lesson that does not mislead. -/
theorem withstands_trusts (l : Addresses) : l.Withstands (fun a => ¬ l.Misleads a) l.Trusts := by
  intro arrival a hardware cache honest teaches learnable trusted n hn
  rcases Arp.Cache.mem_learn hn with hold | ⟨-, rfl⟩
  · exact trusted n hold
  · have hsound : ¬ (a = l.address ∨ hardware.isMulticast ∨ hardware = l.hardware) :=
      fun misled => honest ⟨a, hardware, teaches, learnable, misled⟩
    simp only [not_or] at hsound
    obtain ⟨hforeign, hsingle, hother⟩ := hsound
    have hhost : a ≠ .unspecified ∧ a ≠ .broadcast := by
      simpa [Arp.Cache.isLearnable, Ipv4Address.isUnspecified, Ipv4Address.isBroadcast]
        using learnable
    exact ⟨hforeign, hhost.1, hhost.2, by simpa [MacAddress.isUnicast] using hsingle, hother⟩

/-- Who has misled is not trusted. -/
theorem not_trusts_learn {l : Addresses} {a : Ipv4Address} {hardware : MacAddress}
    (learnable : Arp.Cache.isLearnable a)
    (misled : a = l.address ∨ hardware.isMulticast ∨ hardware = l.hardware) (cache : Arp.Cache) :
    ¬ l.Trusts (cache.learn a hardware) := by
  intro trusted
  obtain ⟨hforeign, -, -, hsingle, hother⟩ :=
    trusted _ (Arp.Cache.mem_learn_self learnable cache hardware)
  rcases misled with hown | hgroup | hours
  · exact hforeign hown
  · simp [MacAddress.isUnicast, hgroup] at hsingle
  · exact hother hours

end Addresses

end NetEngine
