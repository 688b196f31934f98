import NetEngine.Proofs.Bounds.Transports
import NetEngine.Proofs.Link.Checking

/-! # Segments Are Read as They Were Written

    A header is written in front of a payload, over whatever stood there, and the
    checksum is written over both.  Who gets the octets and knows the hosts and the
    length reads the same header and the same payload.

    * **Parsing**: a segment that is at hand as a whole is read field by field, once
      its header, its ports and its sum have been looked at.
    * **Writing**: nothing of the buffer is left in front of the payload. -/

namespace NetEngine.Tcp

variable {p : View} {ip : Ipv4.Header}

/-! ## Parsing -/

namespace Segment

/-- A segment that is at hand as a whole is read if its ports can be used and its checksum adds
up. -/
theorem parse_of_intact (checked : p.check = .ok ()) (whole : p.length = ip.payloadLen)
    (src : p.srcPort ≠ 0) (dst : p.dstPort ≠ 0)
    (intact : p.verifyChecksum ip.src ip.dst ip.payloadLen = .ok true) :
    parse p ip .manual = .ok p.segment := by
  obtain ⟨-, hthere⟩ := View.check_eq_ok checked
  have hfits : ¬ p.headerLen > ip.payloadLen := by omega
  have hports : ¬ (p.srcPort = 0 ∨ p.dstPort = 0) := by simp [src, dst]
  have hpayload : p.payload.length = ip.payloadLen - p.headerLen := by
    rw [View.payload, List.length_drop, whole]
  unfold parse
  rw [checked]
  simp [bind, Except.bind, hfits, hports, intact, View.segment, hpayload]

/-! ## Writing -/

/-- The header takes the place of what stood in front of the payload. -/
theorem emit_append (s : Segment) {front : Bytes} (room : front.length = s.headerLen)
    (payload : Bytes) : s.emit (front ++ payload) = s.encode ++ payload := by
  unfold emit overwrite
  rw [length_encode, ← room, List.drop_left]

theorem exists_fillChecksum (src dst : Ipv4Address) (s : Segment) (payload : Bytes) :
    ∃ sum, View.fillChecksum (s.encode ++ payload) src dst = s.encodeSummed sum ++ payload := by
  unfold View.fillChecksum
  rw [encode_eq_encodeSummed]
  dsimp only
  rw [putWord_encodeSummed, putWord_encodeSummed]
  exact ⟨_, rfl⟩

/-- **A segment is parsed as it has been written**, whatever stood in the buffer before. -/
theorem parse_emit {s : Segment} {front payload : Bytes} (src : s.srcPort ≠ 0)
    (dst : s.dstPort ≠ 0) (fit : s.flags.bits.toNat < 512) (room : front.length = s.headerLen)
    (length : payload.length = s.payloadLen) (carried : ip.payloadLen = s.len) :
    let p := View.fillChecksum (s.emit (front ++ payload)) ip.src ip.dst
    p.check = .ok () ∧ parse p ip .manual = .ok s ∧ p.payload = payload := by
  intro p
  have hlong : Tcp.headerLen ≤ s.headerLen := s.headerLen_le
  obtain ⟨sum, hsum⟩ := exists_fillChecksum ip.src ip.dst s payload
  have hp : p = s.encodeSummed sum ++ payload := by
    rw [← hsum, ← s.emit_append room payload]
  have hlength : p.length = s.len := by
    rw [hp, List.length_append, length_encodeSummed, length, Segment.len]
  -- The header is there, as long as it says.
  have hheader : p.headerLen = s.headerLen := by rw [hp, headerLen_encodeSummed]
  have hthere : s.headerLen ≤ s.len := Nat.le_add_right _ _
  have hchecked : p.check = .ok () :=
    View.check_of_lengths (by rwa [hheader]) (by rwa [hheader, hlength])
  -- The checksum has been written last, so that it adds up.
  have hintact : p.verifyChecksum ip.src ip.dst ip.payloadLen = .ok true := by
    have hunsealed : 18 ≤ (s.emit (front ++ payload)).length := by
      rw [s.emit_append room payload, List.length_append, length_encode]
      unfold Tcp.headerLen at hlong
      omega
    have hones := View.sum_fillChecksum ip.src ip.dst hunsealed
    rw [carried, ← hlength, View.verifyChecksum_whole]
    simp [p, hones]
  have hsegment : p.segment = s := by rw [hp, segment_encodeSummed fit sum length]
  refine ⟨hchecked, ?_, by rw [hp, payload_encodeSummed]⟩
  rw [parse_of_intact hchecked (hlength.trans carried.symm) ?_ ?_ hintact, hsegment]
  · rwa [hp, srcPort_encodeSummed]
  · rwa [hp, dstPort_encodeSummed]

/-- A segment with an option and an odd payload, written over ones. -/
theorem parse_emit_option :
    let s : Segment := ⟨49152, 80, ⟨100⟩, ⟨0⟩, .SYN, 536, some 556, 3⟩
    let ip : Ipv4.Header := ⟨⟨10, 0, 0, 1⟩, ⟨10, 0, 0, 2⟩, .tcp, 27, 64⟩
    let p := View.fillChecksum (s.emit (List.replicate 24 0xff ++ [1, 2, 3])) ip.src ip.dst
    p.check = .ok () ∧ parse p ip .manual = .ok s ∧ p.payload = [1, 2, 3] := by
  intro s ip
  have hports : s.srcPort ≠ 0 ∧ s.dstPort ≠ 0 := by decide
  exact parse_emit hports.1 hports.2 (by decide) rfl rfl rfl

end Segment

end NetEngine.Tcp
