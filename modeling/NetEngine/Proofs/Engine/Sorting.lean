import NetEngine.Proofs.Engine.Handling

/-! # How Frames Are Sorted

    Before a protocol sees a frame, the frame is sorted: it is refused, or it is a
    packet of address resolution that reaches us, or it carries a datagram for us.

    * **For us**: the station hears the frame, the header of the datagram is in order,
      and it reaches us in some capacity.
    * **Sorted**: what then becomes of a frame.  A frame that is refused leaves the
      engine as it is.
    * **Confined**: whatever becomes of it, a frame changes the network layer, the
      link and the transport layer at most. -/

namespace NetEngine

/-- Does a frame of this fate count as rejected? -/
def Fate.isRejection : Fate → Bool
  | .dropped | .filtered => true
  | _ => false

namespace Ethernet.Header

theorem parse_of_long {f : View} (long : headerLen ≤ f.length) :
    parse f = .ok ⟨f.src, f.dst, f.etherType⟩ := by
  have hcheck : f.check = .ok () := if_neg (Nat.not_lt.mpr long)
  unfold parse
  rw [hcheck]
  rfl

theorem parse_eq_ok {f : View} {h : Header} (parsed : parse f = .ok h) :
    headerLen ≤ f.length ∧ h = ⟨f.src, f.dst, f.etherType⟩ := by
  by_cases hlong : headerLen ≤ f.length
  · rw [parse_of_long hlong] at parsed
    cases parsed
    exact ⟨hlong, rfl⟩
  · have hcheck : f.check = .error .truncated := if_pos (Nat.lt_of_not_le hlong)
    unfold parse at parsed
    rw [hcheck] at parsed
    cases parsed

end Ethernet.Header

namespace Engine

variable {L : Type}

/-- The engine with another neighbour cache. -/
def remembering (e : Engine L) (cache : Arp.Cache) : Engine L :=
  { e with net := { e.net with iface := { e.net.iface with cache := cache } } }

/-- Can the sender of a datagram be a neighbour? -/
def isNear (e : Engine L) (frame : Ethernet.View) (ip : Ipv4.Header) : Bool :=
  e.net.iface.addresses.onSubnet ip.src && frame.src.isUnicast

/-- The neighbours that are known when the sender of a datagram has been noted. -/
def neighbours (e : Engine L) (frame : Ethernet.View) (ip : Ipv4.Header) : Arp.Cache :=
  if e.isNear frame ip then e.net.iface.cache.learn ip.src frame.src else e.net.iface.cache

/-- Nothing but the neighbours changes when the sender of a datagram is noted. -/
theorem noting_eq (e : Engine L) (frame : Ethernet.View) (ip : Ipv4.Header) :
    e.noting frame ip = e.remembering (e.neighbours frame ip) := by
  unfold noting remembering neighbours isNear Interface.noteSender
  simp only [Bool.and_eq_true]
  split <;> rfl

/-- The engine with another state of its link. -/
def holding (e : Engine L) (link : L) : Engine L := { e with net := { e.net with link := link } }

variable [Link L]

/-! ## Frames from the link -/

section

variable {e : Engine L} {link : L}

/-- A poll that finds no frame counts nothing. -/
theorem poll_of_idle (idle : Link.receive e.net.link receiveRoom = (none, link)) :
    e.poll = { engine := e.holding link, taken := false } := by
  unfold poll
  rw [idle]
  rfl

/-- A poll that finds a frame handles it, counts it and gives it back. -/
theorem poll_of_arrival {arrival : Arrival}
    (arrived : Link.receive e.net.link receiveRoom = (some arrival, link)) :
    let o := (e.holding link).handle arrival.resident arrival.checksums
    e.poll = {
      engine := { o.engine.holding (Link.done o.engine.net.link) with
        statistics := o.engine.statistics.count o.fate }
      taken := true
      event := o.event } := by
  intro o
  unfold poll
  rw [arrived]
  rfl

end

/-! ## Datagrams for us -/

/-- A frame carries a datagram that reaches us in the capacity `destination`. -/
structure ForUs (e : Engine L) (frame : Ethernet.View) (c : ChecksumSet) (ip : Ipv4.Header)
    (destination : Destination) : Prop where
  long : Ethernet.headerLen ≤ frame.length
  heard : e.net.iface.addresses.hears frame.dst
  type : frame.etherType = .ipv4
  classified : e.net.iface.classify frame.payload c = .ok (ip, destination)
  ours : ¬ (e.net.iface.addresses.isAssigned ∧ destination = .notOurs)

/-- What becomes of a datagram when its sender has been noted: its transport takes it, or it is
dropped. -/
def carry (e : Engine L) (frame : Ethernet.View) (ip : Ipv4.Header) (destination : Destination)
    (c : ChecksumSet) : Outcome L :=
  match e.receiveTransport frame ip destination c with
  | .ok o => o
  | .error _ => ⟨e, .dropped, .ok none⟩

/-- What becomes of a packet of address resolution. -/
def arpOutcome (e : Engine L) (frame : Ethernet.View) : Outcome L :=
  let r := e.net.receiveArp frame.payload
  ⟨{ e with net := r.2 }, match r.1 with | .ok () => .arp | .error _ => .dropped, .ok none⟩

section

variable {e : Engine L} {frame : Ethernet.View} {c : ChecksumSet}

theorem handle_of_arp (long : Ethernet.headerLen ≤ frame.length)
    (heard : e.net.iface.addresses.hears frame.dst) (type : frame.etherType = .arp) :
    e.handle frame c = e.arpOutcome frame := by
  unfold handle
  rw [Ethernet.Header.parse_of_long long]
  simp only [heard, type, Bool.not_true, Bool.false_eq_true, if_false]
  rfl

theorem handle_of_forUs {ip : Ipv4.Header} {destination : Destination}
    (forUs : e.ForUs frame c ip destination) :
    e.handle frame c = (e.noting frame ip).carry frame ip destination c := by
  unfold handle receiveDatagram
  rw [Ethernet.Header.parse_of_long forUs.long]
  simp only [forUs.heard, forUs.type, forUs.classified, Bool.not_true, Bool.false_eq_true, if_false,
    if_neg forUs.ours]
  rfl

end

/-! ## Sorting -/

/-- What becomes of a frame, by the way it is sorted. -/
inductive Sorted (e : Engine L) (frame : Ethernet.View) (c : ChecksumSet) : Outcome L → Prop
  /-- It can not be read, or is not for us. -/
  | refused (fate : Fate) (rejection : fate.isRejection) : Sorted e frame c ⟨e, fate, .ok none⟩
  /-- It carries a packet of address resolution. -/
  | arp (long : Ethernet.headerLen ≤ frame.length)
      (heard : e.net.iface.addresses.hears frame.dst) (type : frame.etherType = .arp) :
      Sorted e frame c (e.arpOutcome frame)
  /-- It carries a datagram for us. -/
  | datagram (ip : Ipv4.Header) (destination : Destination)
      (forUs : e.ForUs frame c ip destination) :
      Sorted e frame c ((e.noting frame ip).carry frame ip destination c)

/-- **Every frame is sorted.** -/
theorem sorted_handle (e : Engine L) (frame : Ethernet.View) (c : ChecksumSet) :
    e.Sorted frame c (e.handle frame c) := by
  cases hparse : Ethernet.Header.parse frame with
  | error err =>
    unfold handle
    rw [hparse]
    exact .refused .dropped rfl
  | ok h =>
    obtain ⟨hlong, rfl⟩ := Ethernet.Header.parse_eq_ok hparse
    by_cases hheard : e.net.iface.addresses.hears frame.dst
    · cases htype : frame.etherType with
      | arp =>
        rw [handle_of_arp hlong hheard htype]
        exact .arp hlong hheard htype
      | ipv4 =>
        have hdatagram : e.handle frame c = e.receiveDatagram frame c := by
          unfold handle
          rw [hparse]
          simp only [hheard, htype, Bool.not_true, Bool.false_eq_true, if_false]
        cases hclassify : e.net.iface.classify frame.payload c with
        | error err =>
          rw [hdatagram]
          unfold receiveDatagram
          rw [hclassify]
          exact .refused .dropped rfl
        | ok classified =>
          obtain ⟨ip, destination⟩ := classified
          by_cases hours : e.net.iface.addresses.isAssigned ∧ destination = .notOurs
          · rw [hdatagram]
            unfold receiveDatagram
            simp only [hclassify, if_pos hours]
            exact .refused .filtered rfl
          · have hforUs : e.ForUs frame c ip destination := ⟨hlong, hheard, htype, hclassify, hours⟩
            rw [handle_of_forUs hforUs]
            exact .datagram ip destination hforUs
      | unknown code =>
        unfold handle
        rw [hparse]
        simp only [hheard, htype, Bool.not_true, Bool.false_eq_true, if_false]
        exact .refused .filtered rfl
    · unfold handle
      rw [hparse]
      simp only [hheard, Bool.not_false, if_true]
      exact .refused .filtered rfl

/-! ## What a frame can change -/

/-- Two engines differ in the network layer, the link and the transport layer at most. -/
def Confined (e e' : Engine L) : Prop := e' = { e with net := e'.net, tcp := e'.tcp }

section

variable {e : Engine L} {frame : Ethernet.View} {c : ChecksumSet}

theorem confined_receiveTransport {ip : Ipv4.Header} {destination : Destination} {o : Outcome L}
    (h : e.receiveTransport frame ip destination c = .ok o) : e.Confined o.engine := by
  have hleft {fate : Fate} {event : Except Fault (Option (Event L))}
      (hsame : Except.ok ⟨e, fate, event⟩ = (.ok o : Except PacketError (Outcome L))) :
      e.Confined o.engine := by
    cases hsame
    rfl
  unfold receiveTransport at h
  dsimp only at h
  split at h
  · unfold receiveUdp at h
    split at h
    · cases h
    · obtain ⟨header, -, hheader⟩ := exists_of_bind_eq_ok h
      split at hheader <;> exact hleft hheader
  · split at h
    · exact hleft h
    · unfold receiveIcmp at h
      split at h
      · cases h
      · split at h
        · exact hleft h
        · obtain ⟨answer, -, hrest⟩ := exists_of_bind_eq_ok h
          cases answer with
          | none => exact hleft hrest
          | some reply =>
            dsimp only at hrest
            split at hrest <;> cases hrest <;> rfl
  · split at h
    · exact hleft h
    · split at h
      · obtain ⟨s, -, hs⟩ := exists_of_bind_eq_ok h
        cases hs
        rfl
      · exact hleft h
  · exact hleft h

theorem confined_handle (e : Engine L) (frame : Ethernet.View) (c : ChecksumSet) :
    e.Confined (e.handle frame c).engine := by
  have hsorted := sorted_handle e frame c
  generalize e.handle frame c = o at hsorted ⊢
  cases hsorted with
  | refused | arp => rfl
  | datagram ip destination forUs =>
    unfold carry
    rw [noting_eq]
    split
    · rename_i o h
      -- The neighbours are part of the network layer.
      have hconfined : (e.remembering (e.neighbours frame ip)).Confined o.engine :=
        confined_receiveTransport h
      exact hconfined
    · rfl

/-- A frame is counted once it has come to its end. -/
theorem statistics_handle (e : Engine L) (frame : Ethernet.View) (c : ChecksumSet) :
    (e.handle frame c).engine.statistics = e.statistics := by
  have h : (e.handle frame c).engine = _ := confined_handle e frame c
  rw [h]

end

end Engine

end NetEngine
