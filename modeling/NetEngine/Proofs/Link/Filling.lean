import NetEngine.Proofs.Link.Summing

/-! # What Is Written over in a Frame

    A frame that leaves is written over where a checksum has been asked for, and
    nowhere else.

    * **Fields**: where the checksums of a datagram are, that of its header and that
      of its transport.
    * **Beside**: every octet beside a field that has been asked for stays, from the
      first one of the frame to the padding behind the datagram. -/

namespace NetEngine

namespace Offload

open Ipv4 (View)

variable {p : View} {c : ChecksumSet} {frame packet : Bytes} {i : Nat}

/-! ## Fields -/

/-- The place in a packet of the checksum that is asked for. -/
def transportField? (c : ChecksumSet) (protocol : IpProtocol) : Option Nat :=
  if protocol = .icmp ∧ c.icmp then some 2
  else if protocol = .udp ∧ c.udp then some 6
  else if protocol = .tcp ∧ c.tcp then some 16
  else none

/-- A checksum that is asked for has an octet at that place of the datagram. -/
def Asked (p : View) (c : ChecksumSet) (i : Nat) : Prop :=
  c.ipv4 = true ∧ (i = 10 ∨ i = 11) ∨
    ∃ k, transportField? c p.protocol = some k ∧ (i = p.headerLen + k ∨ i = p.headerLen + k + 1)

/-- A checksum that is asked for, of a datagram in the frame, has an octet at that place of the
frame. -/
def AskedIn (frame : Bytes) (c : ChecksumSet) (i : Nat) : Prop :=
  ∃ p j, datagram? frame = some p ∧ Asked p c j ∧ i = Ethernet.headerLen + j

/-! ## Beside -/

/-- Where a checksum is written, the octets beside it stay. -/
theorem byteAt_fillTransport (p : View) (packet : Bytes)
    (beside : ∀ k, transportField? c p.protocol = some k → i ≠ k ∧ i ≠ k + 1) :
    byteAt (fillTransport p c packet) i = byteAt packet i := by
  -- Each protocol writes its field twice, once to clear it.
  have hput {k : Nat} (b : Bytes) (w : UInt16) (field : transportField? c p.protocol = some k) :
      byteAt (putWord b k w) i = byteAt b i :=
    byteAt_putWord_of_ne b (beside k field).1 (beside k field).2 w
  unfold transportField? at hput
  unfold fillTransport
  split
  case isTrue hicmp =>
    rw [if_pos hicmp] at hput
    unfold Checksum.fillAt
    dsimp only
    rw [hput _ _ rfl, hput _ _ rfl]
  case isFalse hicmp =>
    rw [if_neg hicmp] at hput
    split
    case isTrue hudp =>
      rw [if_pos hudp] at hput
      unfold Udp.View.fillChecksum
      dsimp only
      rw [hput _ _ rfl, hput _ _ rfl]
    case isFalse hudp =>
      rw [if_neg hudp] at hput
      split
      case isTrue htcp =>
        rw [if_pos htcp] at hput
        unfold fillSegment
        dsimp only
        rw [hput _ _ rfl, hput _ _ rfl]
      case isFalse => rfl

/-- A datagram is written over in its header and in its packet, each on its own. -/
theorem byteAt_filled (checked : p.check = .ok ()) (beside : ¬ Asked p c i) :
    byteAt (filled p c) i = byteAt p i := by
  obtain ⟨-, hthere, -⟩ := View.check_eq_ok checked
  have hlength := length_summedHeader c checked
  obtain ⟨hheader, htransport⟩ := not_or.mp beside
  rw [filled_eq_append]
  by_cases hfront : i < p.headerLen
  · rw [byteAt_append_of_lt _ (by omega)]
    apply byteAt_summedHeader c hfront
    intro hasked
    exact not_or.mp fun heither => hheader ⟨hasked, heither⟩
  · obtain ⟨j, rfl⟩ := Nat.exists_eq_add_of_le (Nat.not_lt.mp hfront)
    -- Behind the header a place is counted from the packet, as the field is.
    have hpacket : byteAt (fillTransport p c p.payload) j = byteAt p.payload j := by
      apply byteAt_fillTransport
      intro k hfield
      constructor <;>
      · rintro rfl
        exact htransport ⟨_, hfield, by omega⟩
    have hplace : byteAt p (p.headerLen + j) = byteAt p.payload j := by
      have hwhole : p.take p.headerLen ++ p.payload = p := List.take_append_drop _ _
      have h := byteAt_append_add (p.take p.headerLen) p.payload j
      rwa [hwhole, List.length_take_of_le hthere] at h
    rw [← hlength, byteAt_append_add, hpacket, hlength, hplace]

theorem length_fill (frame : Bytes) (c : ChecksumSet) : (fill frame c).length = frame.length := by
  cases hfound : datagram? frame with
  | none =>
    unfold fill
    rw [hfound]
  | some p =>
    obtain ⟨front, back, rfl, length, -, checked, -⟩ := eq_append_of_datagram? hfound
    rw [fill_append length hfound]
    simp only [List.length_append, length_filled c checked]

/-- **A frame is written over where a checksum is asked for, and nowhere else.** -/
theorem byteAt_fill (beside : ¬ AskedIn frame c i) : byteAt (fill frame c) i = byteAt frame i := by
  cases hfound : datagram? frame with
  | none =>
    unfold fill
    rw [hfound]
  | some p =>
    obtain ⟨front, back, rfl, length, -, checked, -⟩ := eq_append_of_datagram? hfound
    rw [fill_append length hfound]
    by_cases hfront : i < front.length
    · rw [byteAt_append_of_lt _ hfront, byteAt_append_of_lt _ hfront]
    · obtain ⟨j, rfl⟩ := Nat.exists_eq_add_of_le (Nat.not_lt.mp hfront)
      have hbeside : ¬ Asked p c j := by
        intro hasked
        exact beside ⟨p, j, hfound, hasked, by rw [length]⟩
      rw [byteAt_append_add, byteAt_append_add]
      by_cases hwithin : j < p.length
      · rw [byteAt_append_of_lt _ (by rwa [length_filled c checked]), byteAt_append_of_lt _ hwithin,
          byteAt_filled checked hbeside]
      · -- Behind the datagram nothing is moved, since it keeps its length.
        obtain ⟨k, rfl⟩ := Nat.exists_eq_add_of_le (Nat.not_lt.mp hwithin)
        rw [byteAt_append_add]
        have h := byteAt_append_add (filled p c) back k
        rwa [length_filled c checked] at h

end Offload

end NetEngine
