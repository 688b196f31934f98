import NetEngine.Proofs.Link.Checking

/-! # One Checksum, Two Ways to Sum

    A host sums a segment that is there as a whole, and combines this sum with the
    one of the pseudo header.  The link starts from the pseudo header and takes the
    octets in pieces of odd lengths, which are others for frames that arrive than
    for frames that leave.

    * **Written over**: a datagram whose checksums have been written is found in
      its frame again, with the same protocol and the same addresses.
    * **Agreement**: what the link and a host write is the same, and what one of
      them accepts the other one accepts. -/

namespace NetEngine

namespace Offload

open Ipv4 (View)

/-! ## Datagrams that have been written over -/

section Written

variable {p : View} (c : ChecksumSet)

theorem length_fillTransport (p : View) (packet : Bytes) :
    (fillTransport p c packet).length = packet.length := by
  unfold fillTransport
  split
  case isTrue => simp [Checksum.fillAt]
  case isFalse =>
    split
    case isTrue => exact Udp.View.length_fillChecksum _ _ _
    case isFalse =>
      split
      case isTrue => exact length_sealed _ _ _
      case isFalse => rfl

/-- The header of a datagram, with its checksum written if it is asked for. -/
def summedHeader (p : View) (c : ChecksumSet) : View := (if c.ipv4 then p.fillChecksum else p).header

theorem filled_eq_append (p : View) (c : ChecksumSet) :
    filled p c = summedHeader p c ++ fillTransport p c p.payload := rfl

/-- A checksum that is written leaves the octets beside it alone. -/
theorem byteAt_summed {i : Nat} (beside : c.ipv4 = true → i ≠ 10 ∧ i ≠ 11) :
    byteAt (if c.ipv4 then p.fillChecksum else p) i = byteAt p i := by
  split
  · obtain ⟨h10, h11⟩ := beside ‹_›
    unfold View.fillChecksum
    dsimp only
    rw [byteAt_putWord_of_ne _ h10 h11, byteAt_putWord_of_ne _ h10 h11]
  · rfl

theorem headerLen_summed : View.headerLen (if c.ipv4 then p.fillChecksum else p) = p.headerLen := by
  split
  · exact View.headerLen_fillChecksum p
  · rfl

theorem length_summedHeader (checked : p.check = .ok ()) :
    (summedHeader p c).length = p.headerLen := by
  obtain ⟨-, hthere, -⟩ := View.check_eq_ok checked
  have hlength : (if c.ipv4 then p.fillChecksum else p).length = p.length := by
    split
    · exact View.length_fillChecksum p
    · rfl
  unfold summedHeader View.header
  rw [headerLen_summed, List.length_take_of_le (hlength ▸ hthere)]

theorem byteAt_summedHeader {i : Nat} (within : i < p.headerLen)
    (beside : c.ipv4 = true → i ≠ 10 ∧ i ≠ 11) : byteAt (summedHeader p c) i = byteAt p i := by
  unfold summedHeader View.header
  rw [headerLen_summed, byteAt_take_of_lt _ within, byteAt_summed c beside]

theorem length_filled (checked : p.check = .ok ()) : (filled p c).length = p.length := by
  obtain ⟨-, hthere, -⟩ := View.check_eq_ok checked
  rw [filled_eq_append, List.length_append, length_summedHeader c checked, length_fillTransport,
    View.payload, List.length_drop]
  omega

/-- **A datagram that is written over reads as before**, with a new packet behind its header. -/
theorem reads_filled (checked : p.check = .ok ()) (total : p.totalLen = p.length) :
    let q := filled p c
    q.check = .ok () ∧ q.totalLen = q.length ∧ q.protocol = p.protocol ∧
      q.src = p.src ∧ q.dst = p.dst ∧ q.payload = fillTransport p c p.payload := by
  obtain ⟨hlong, hthere, htold⟩ := View.check_eq_ok checked
  have hhd := length_summedHeader c checked
  have hlength := length_filled c checked
  unfold Ipv4.headerLen at hlong
  have hkept : ∀ i < 20, i ≠ 10 → i ≠ 11 → byteAt (filled p c) i = byteAt p i := by
    intro i hi h10 h11
    rw [filled_eq_append, byteAt_append_of_lt _ (by omega),
      byteAt_summedHeader c (by omega) fun _ => ⟨h10, h11⟩]
  obtain ⟨hlen, -, htotal, -, -, hprotocol⟩ :=
    View.fields_congr (p := p) (q := filled p c) fun i hi =>
      hkept i (by omega) (by omega) (by omega)
  obtain ⟨hsrc, hdst⟩ := View.addresses_congr (p := p) (q := filled p c) fun i hlow hhigh =>
    hkept i hhigh (by omega) (by omega)
  refine ⟨?_, ?_, hprotocol, hsrc, hdst, ?_⟩
  · apply View.check_of_lengths
    · rwa [hlen]
    · rwa [hlen, hlength]
    · rwa [hlen, htotal]
  · rw [htotal, hlength, total]
  · show (filled p c).drop (filled p c).headerLen = _
    rw [hlen, filled_eq_append]
    exact List.drop_left' hhd

/-- A frame whose checksums have been written has the datagram that was written over. -/
theorem datagram?_fill {frame : Bytes} (found : datagram? frame = some p) :
    datagram? (fill frame c) = some (filled p c) := by
  obtain ⟨front, back, rfl, length, type, checked, total⟩ := eq_append_of_datagram? found
  obtain ⟨hcheck, htotal, -⟩ := reads_filled c checked total
  rw [fill_append length found]
  exact datagram?_append length type hcheck htotal back

end Written

/-! ## Agreement -/

section Agreement

variable {src dst : Ipv4Address} {segment : Bytes} {frame : Bytes}

/-- A segment in a frame is the packet of a datagram. -/
theorem carried?_eq_some :
    carried? frame = some ⟨src, dst, segment⟩ ↔ ∃ p : View, datagram? frame = some p ∧
      p.protocol = .tcp ∧ p.src = src ∧ p.dst = dst ∧ p.payload = segment := by
  unfold carried?
  cases datagram? frame with
  | none => simp
  | some p =>
    dsimp only
    split
    · simp_all
    · simp_all

/-- The frame that is written over carries the segment that a host would have written. -/
theorem carried?_fill (carried : carried? frame = some ⟨src, dst, segment⟩) {c : ChecksumSet}
    (asked : c.tcp) :
    carried? (fill frame c) = some ⟨src, dst, Tcp.View.fillChecksum segment src dst⟩ := by
  obtain ⟨p, found, protocol, rfl, rfl, rfl⟩ := carried?_eq_some.mp carried
  obtain ⟨front, back, -, -, -, checked, total⟩ := eq_append_of_datagram? found
  obtain ⟨-, -, hprotocol, hsrc, hdst, hpayload⟩ := reads_filled c checked total
  have htransport : fillTransport p c p.payload = fillSegment p p.payload := by
    unfold fillTransport
    simp [protocol, asked]
  refine carried?_eq_some.mpr ⟨filled p c, datagram?_fill c found, ?_, hsrc, hdst, ?_⟩
  · rw [hprotocol, protocol]
  · rw [hpayload, htransport, fillSegment_eq_fillChecksum]

/-- The link tells that a segment is correct exactly where a host finds its checksum correct. -/
theorem verified_tcp_iff (carried : carried? frame = some ⟨src, dst, segment⟩) :
    (verified frame).tcp ↔ Tcp.View.verifyChecksum segment src dst segment.length = .ok true := by
  obtain ⟨p, found, protocol, rfl, rfl, rfl⟩ := carried?_eq_some.mp carried
  have htold : (verified frame).tcp = ((segmentSum p p.payload inboundPiece).field = 0 : Bool) := by
    unfold verified
    rw [found]
    simp [protocol]
  rw [htold, Tcp.View.verifyChecksum_whole, decide_eq_true_iff, Except.ok.injEq, decide_eq_true_iff]
  exact field_segmentSum_eq_zero_iff p p.payload inboundPiece

/-- What the link and a host make of the checksum of one segment. -/
structure SumsAgree (src dst : Ipv4Address) (segment : Bytes) : Prop where
  /-- There is a frame for the segment. -/
  framed : ∃ frame, carried? frame = some ⟨src, dst, segment⟩
  /-- In every frame the link writes the checksum that a host writes. -/
  written : ∀ frame c, carried? frame = some ⟨src, dst, segment⟩ → c.tcp →
    carried? (fill frame c) = some ⟨src, dst, Tcp.View.fillChecksum segment src dst⟩
  /-- In every frame the link tells of the segment what a host finds. -/
  told : ∀ frame, carried? frame = some ⟨src, dst, segment⟩ →
    ((verified frame).tcp ↔
      Tcp.View.verifyChecksum segment src dst segment.length = .ok true)
  /-- What the link has written it tells to be correct, and a host finds it correct. -/
  ofLink : ∀ frame c, carried? frame = some ⟨src, dst, segment⟩ → c.tcp →
    (verified (fill frame c)).tcp ∧ ∀ octets, carried? (fill frame c) = some ⟨src, dst, octets⟩ →
      Tcp.View.verifyChecksum octets src dst octets.length = .ok true
  /-- What a host has written it finds correct, and the link tells it to be correct in every
  frame. -/
  ofHost : let octets := Tcp.View.fillChecksum segment src dst
    Tcp.View.verifyChecksum octets src dst octets.length = .ok true ∧
      ∀ frame, carried? frame = some ⟨src, dst, octets⟩ → (verified frame).tcp

/-- **The streamed and the whole sum agree** for all segments that fit a datagram. -/
theorem sumsAgree (src dst : Ipv4Address) {segment : Bytes} (long : 20 ≤ segment.length)
    (fits : segment.length ≤ 65515) : SumsAgree src dst segment := by
  let octets := Tcp.View.fillChecksum segment src dst
  have hintact : Tcp.View.verifyChecksum octets src dst octets.length = .ok true := by
    rw [Tcp.View.verifyChecksum_whole, Except.ok.injEq, decide_eq_true_iff]
    exact Tcp.View.sum_fillChecksum src dst (by omega)
  constructor
  case framed =>
    let e : Ethernet.Header := { src := .broadcast, dst := .broadcast, etherType := .ipv4 }
    let h : Ipv4.Header :=
      { src, dst, protocol := .tcp, payloadLen := segment.length, hopLimit := 64 }
    have hfits : Ipv4.headerLen + segment.length < 65536 := by
      unfold Ipv4.headerLen
      omega
    exact ⟨frameOf e h 0 segment, carried?_frameOf rfl rfl rfl hfits 0⟩
  case written => exact fun frame c carried asked => carried?_fill carried asked
  case told => exact fun frame carried => verified_tcp_iff carried
  case ofLink =>
    intro frame c carried asked
    have hcarried := carried?_fill carried asked
    refine ⟨(verified_tcp_iff hcarried).mpr hintact, fun octets hoctets => ?_⟩
    rw [hcarried] at hoctets
    cases hoctets
    exact hintact
  case ofHost => exact ⟨hintact, fun frame carried => (verified_tcp_iff carried).mpr hintact⟩

/-- An odd segment that comes in three pieces. -/
theorem sumsAgree_odd : SumsAgree ⟨10, 0, 0, 1⟩ ⟨10, 0, 0, 2⟩ (List.replicate 131 0xff) :=
  sumsAgree _ _ (by simp) (by simp)

end Agreement

end Offload

end NetEngine
