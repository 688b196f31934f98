import NetEngine.Icmp.Echo
import NetEngine.Proofs.Checksum
import NetEngine.Proofs.Link.Frames

/-! # Checksums That Have Been Written Are Found Correct

    The link looks into a frame that arrives, and checks what the sender has
    filled in.  Both sides count the same octets, in pieces of different lengths.

    * **Intact**: a header whose checksum has been written, and what the link
      tells of a frame made of such a header and a packet.
    * **Transports**: each way to fill in a checksum is found correct by the check
      of the same protocol.  For a segment the link and a host come to the same
      sum. -/

namespace NetEngine

open Checksum (Same AllOnes wordSum)

/-! ## Headers -/

namespace Ipv4.View

variable {p : View}

theorem byteAt_fillChecksum (p : View) {i : Nat} (front : i < 10) :
    byteAt p.fillChecksum i = byteAt p i := by
  unfold fillChecksum
  dsimp only
  rw [byteAt_putWord_of_ne _ (by omega) (by omega), byteAt_putWord_of_ne _ (by omega) (by omega)]

@[simp] theorem length_fillChecksum (p : View) : p.fillChecksum.length = p.length := by
  simp [fillChecksum]

/-- What is written in the checksum field does not change where a header ends. -/
theorem headerLen_putWord (p : View) (w : UInt16) :
    View.headerLen (putWord p 10 w) = p.headerLen := by
  unfold headerLen
  rw [byteAt_putWord_of_ne _ (by decide) (by decide)]

theorem headerLen_fillChecksum (p : View) : p.fillChecksum.headerLen = p.headerLen := by
  unfold fillChecksum
  dsimp only
  rw [headerLen_putWord, headerLen_putWord]

/-- Nothing is behind a header that is as long as it tells. -/
theorem header_of_whole (whole : p.headerLen = p.length) : p.header = p := by
  unfold header
  rw [whole, List.take_length]

/-- The checksum of a header is written over the header alone. -/
theorem header_fillChecksum (p : View) : p.fillChecksum.header = Checksum.fillAt p.header 10 := by
  have hput (b : View) (w : UInt16) : View.header (putWord b 10 w) = putWord b.header 10 w := by
    unfold header
    rw [headerLen_putWord, take_putWord]
  unfold fillChecksum Checksum.fillAt
  dsimp only
  rw [hput, hput]

/-- **A header whose checksum has been written is intact**, whatever options it has. -/
theorem verifyChecksum_fillChecksum (long : Ipv4.headerLen ≤ p.headerLen)
    (there : p.headerLen ≤ p.length) : p.fillChecksum.verifyChecksum := by
  unfold verifyChecksum
  rw [header_fillChecksum]
  apply Checksum.isIntact_fillAt (by decide)
  unfold Ipv4.headerLen at long
  unfold header
  rw [List.length_take]
  omega

end Ipv4.View

namespace Ipv4.View

namespace Leads

variable {hd : View} {protocol : IpProtocol}

theorem fillChecksum {len : Nat} (leads : hd.Leads protocol len) :
    hd.fillChecksum.Leads protocol len :=
  leads.congr (length_fillChecksum hd) fun _ => byteAt_fillChecksum hd

/-- A header whose checksum has been written is intact as a whole. -/
theorem isIntact_fillChecksum {len : Nat} (leads : hd.Leads protocol len) :
    Checksum.isIntact hd.fillChecksum := by
  have hintact : hd.fillChecksum.verifyChecksum :=
    verifyChecksum_fillChecksum (leads.whole ▸ leads.long) (Nat.le_of_eq leads.whole)
  have hheader : hd.fillChecksum.header = hd.fillChecksum := header_of_whole leads.fillChecksum.whole
  unfold verifyChecksum at hintact
  rwa [hheader] at hintact

/-- **A datagram whose header is intact is parsed**, whatever is at hand behind the header. -/
theorem parse_append {len : Nat} {mode : Checksum.Mode} (leads : hd.Leads protocol len)
    (intact : mode = .manual → Checksum.isIntact hd) (rest : Bytes) :
    Header.parse (hd ++ rest) mode = .ok {
      src := src (hd ++ rest)
      dst := dst (hd ++ rest)
      protocol := protocol
      payloadLen := len
      hopLimit := hopLimit (hd ++ rest) } := by
  obtain ⟨hlen, hversion, htotal, hlast, hfirst, hprotocol⟩ := leads.fields_append rest
  have hintact (manual : mode = .manual) : verifyChecksum (hd ++ rest) := by
    unfold verifyChecksum
    rw [leads.header_append]
    exact intact manual
  rw [Header.parse_of_intact (leads.check_append rest) hversion hintact hlast hfirst, hprotocol,
    hlen, htotal, Nat.add_sub_cancel_left]

end Leads

end Ipv4.View

namespace Ipv4.Header

/-- A header that we write is intact. -/
theorem isIntact_encodeSummed {h : Header} (canonical : .ofCode h.protocol.code = h.protocol)
    (fits : headerLen + h.payloadLen < 65536) (ident : UInt16) :
    Checksum.isIntact (h.encodeSummed ident (h.checksum ident)) := by
  have hfill := fillChecksum_encodeUnsummed h ident []
  rw [List.append_nil, List.append_nil] at hfill
  rw [← hfill]
  exact (leads_encodeSummed canonical fits ident 0).isIntact_fillChecksum

end Ipv4.Header

/-! ## Frames -/

namespace Offload

open Ipv4 (View)

variable {e : Ethernet.Header} {hd : View} {protocol : IpProtocol} {packet : Bytes}

/-- What the link tells of a frame whose header is intact. -/
theorem verified_encode_append (type : e.etherType = .ipv4)
    (leads : hd.Leads protocol packet.length) (intact : Checksum.isIntact hd) :
    let c := verified (e.encode ++ (hd ++ packet))
    c.ipv4 = true ∧ c.icmp = (protocol = .icmp && Checksum.isIntact packet) ∧
      c.tcp = (protocol = .tcp &&
        (segmentSum (hd ++ packet) packet inboundPiece).field = 0) ∧
      c.udp = (protocol = .udp && udpIntact (hd ++ packet)) := by
  have hintact : View.verifyChecksum (hd ++ packet) = true := by
    unfold View.verifyChecksum
    rw [leads.header_append]
    exact intact
  unfold verified
  rw [datagram?_encode_append type leads]
  dsimp only
  rw [hintact, (leads.fields_append _).2.2.2.2.2, leads.payload_append]
  simp

/-- A frame leaves as it is where no checksum is asked for. -/
theorem fill_none (frame : Bytes) : fill frame .none = frame := by
  cases hfound : datagram? frame with
  | none =>
    unfold fill
    rw [hfound]
  | some p =>
    obtain ⟨front, back, rfl, length, -⟩ := eq_append_of_datagram? hfound
    have htransport (packet : Bytes) : fillTransport p .none packet = packet := by
      simp [fillTransport, ChecksumSet.none]
    have hfilled : filled p .none = p := by
      unfold filled
      rw [htransport, if_neg (by decide)]
      exact List.take_append_drop _ _
    rw [fill_append length hfound, hfilled]

end Offload

/-! ## Transports -/

namespace Tcp.View

/-- The sum over a segment is that of its pseudo header and of its words. -/
theorem same_sum (src dst : Ipv4Address) (segment : Bytes) :
    Same (sum src dst segment).toNat
      ((Ipv4.pseudoHeader src dst .tcp (UInt16.ofNat segment.length)).toNat + wordSum segment) :=
  Checksum.same_ofParts_pair _ segment

/-- **A segment whose checksum has been written sums to all ones.** -/
theorem sum_fillChecksum (src dst : Ipv4Address) {segment : View} (long : 18 ≤ segment.length) :
    sum src dst (segment.fillChecksum src dst) = 0xffff := by
  let cleared := putWord segment 16 0
  let written := ~~~sum src dst cleared
  have hfill : segment.fillChecksum src dst = putWord cleared 16 written := rfl
  have hwithin : 16 + 1 < cleared.length := by
    simp only [cleared, length_putWord]
    omega
  have hcleared : putWord cleared 16 0 = cleared := putWord_putWord _ _ _ _
  rw [hfill, Checksum.eq_ones_iff (same_sum src dst _), length_putWord,
    Checksum.wordSum_putWord (by decide) hwithin, hcleared, ← Nat.add_assoc]
  exact Checksum.allOnes_add_complement (same_sum src dst cleared)

/-- A host that has the whole segment can tell whether its checksum adds up. -/
theorem verifyChecksum_whole (segment : View) (src dst : Ipv4Address) :
    segment.verifyChecksum src dst segment.length = .ok (sum src dst segment = 0xffff) := by
  unfold verifyChecksum leading?
  rw [if_pos (Nat.le_refl _), List.take_length]

end Tcp.View

namespace Offload

/-- Octets count the same in pieces of any length. -/
theorem foldl_feed_pieces (acc : Checksum.RunningSum) (n : Nat) (b : Bytes) :
    (pieces n b).foldl Checksum.RunningSum.feed acc = acc.feed b := by
  induction b using pieces.induct n generalizing acc with
  | case1 b h =>
    unfold pieces
    rw [if_pos h]
    rfl
  | case2 b h ih =>
    unfold pieces
    rw [if_neg h, List.foldl_cons, ih, ← Checksum.RunningSum.feed_append, List.take_append_drop]

/-- **The running sum over a segment is that of its pseudo header and of its words**, whatever
pieces it comes in. -/
theorem same_segmentSum (p : Ipv4.View) (segment : Bytes) (piece : Nat) :
    Same (segmentSum p segment piece).total
        ((Ipv4.pseudoHeader p.src p.dst .tcp (UInt16.ofNat segment.length)).toNat +
          wordSum segment) ∧
      (segmentSum p segment piece).total < 2 ^ 32 := by
  let pseudo := Ipv4.pseudoHeader p.src p.dst .tcp (UInt16.ofNat segment.length)
  have hpseudo := pseudo.toNat_lt
  have hword : pseudo.toNat < 0x80000000 := by omega
  have hstart : Ipv4.startSum p.src p.dst .tcp (UInt16.ofNat segment.length) =
      { sum := pseudo.toNat, pending := none } := by
    unfold Ipv4.startSum Checksum.RunningSum.addWord
    simp only [Nat.zero_add]
    rw [if_pos hword]
  unfold segmentSum
  rw [foldl_feed_pieces, hstart]
  exact Checksum.RunningSum.same_total_feed rfl hword segment

/-- **A host and the link come to the same word**, and not only to words that stand for the same
sum. -/
theorem fold_segmentSum (p : Ipv4.View) (segment : Bytes) (piece : Nat) :
    Checksum.fold (segmentSum p segment piece).total = Tcp.View.sum p.src p.dst segment := by
  let streamed := Checksum.fold (segmentSum p segment piece).total
  let combined := Tcp.View.sum p.src p.dst segment
  obtain ⟨hsegment, hsmall⟩ := same_segmentSum p segment piece
  have hsame : Same streamed.toNat combined.toNat :=
    (Checksum.same_fold hsmall).trans (hsegment.trans (Tcp.View.same_sum _ _ segment).symm)
  have hstreamed := streamed.toNat_lt
  have hcombined := combined.toNat_lt
  exact UInt16.toNat_inj.mp (hsame.eq_of_le (by omega) (by omega))

/-- The link finds a segment correct whose sum is all ones. -/
theorem field_segmentSum_eq_zero_iff (p : Ipv4.View) (segment : Bytes) (piece : Nat) :
    (segmentSum p segment piece).field = 0 ↔ Tcp.View.sum p.src p.dst segment = 0xffff := by
  obtain ⟨-, hsmall⟩ := same_segmentSum p segment piece
  rw [← fold_segmentSum p segment piece, Checksum.fold_eq_ones_iff hsmall]
  exact Checksum.field_eq_zero_iff hsmall

/-- The link writes the checksum that a host writes. -/
theorem fillSegment_eq_fillChecksum (p : Ipv4.View) (segment : Bytes) :
    fillSegment p segment = Tcp.View.fillChecksum segment p.src p.dst := by
  unfold fillSegment Tcp.View.fillChecksum
  dsimp only
  rw [← fold_segmentSum p _ outboundPiece]
  rfl

/-- **A segment that has been sealed is found intact.** -/
theorem field_segmentSum_sealed (p : Ipv4.View) {segment : Bytes} (long : 18 ≤ segment.length)
    (piece : Nat) : (segmentSum p (sealed p.src p.dst segment) piece).field = 0 := by
  rw [field_segmentSum_eq_zero_iff, ← fillSegment_eq, fillSegment_eq_fillChecksum]
  exact Tcp.View.sum_fillChecksum p.src p.dst long

end Offload

namespace Udp.View

variable (p : View) (src dst : Ipv4Address)

/-- The length stands in front of the checksum. -/
theorem lenField_putWord (w : UInt16) : View.lenField (putWord p 6 w) = p.lenField := by
  unfold lenField wordAt
  rw [byteAt_putWord_of_ne _ (by decide) (by decide),
    byteAt_putWord_of_ne _ (by decide) (by decide)]

theorem lenField_fillChecksum : (p.fillChecksum src dst).lenField = p.lenField := by
  unfold fillChecksum
  dsimp only
  rw [lenField_putWord, lenField_putWord]

@[simp] theorem length_fillChecksum : (p.fillChecksum src dst).length = p.length := by
  simp [fillChecksum]

/-- The sum over a user datagram is that of its pseudo header and of its words. -/
theorem same_sum (covered : Bytes) :
    Same (p.sum src dst covered).toNat
      ((Ipv4.pseudoHeader src dst .udp p.lenField).toNat + wordSum covered) :=
  Checksum.same_ofParts_pair _ covered

theorem nonzero_ne_zero (w : UInt16) : nonzero w ≠ 0 := by
  unfold nonzero
  split
  · decide
  · assumption

/-- The field that stands for zero makes up for a sum like the checksum itself. -/
theorem allOnes_add_nonzero {w : UInt16} {n : Nat} (same : Same w.toNat n) :
    AllOnes (n + (nonzero (~~~w)).toNat) := by
  have h := Checksum.allOnes_add_complement same
  unfold nonzero
  split
  · rename_i hzero
    rw [hzero] at h
    obtain ⟨hmod, hne⟩ := h
    simp only [UInt16.toNat_zero, Nat.add_zero] at hmod hne
    refine ⟨?_, ?_⟩
    · show (n + 65535) % 65535 = 65535 % 65535
      omega
    · show n + 65535 = 0 ↔ 65535 = 0
      omega
  · exact h

/-- **A user datagram whose checksum has been written is found correct**, also where the datagram is
followed by other octets. -/
theorem verifyChecksum_fillChecksum (long : Udp.headerLen ≤ p.lenField.toNat)
    (there : p.lenField.toNat ≤ p.length) :
    (p.fillChecksum src dst).verifyChecksum src dst = .ok true := by
  unfold Udp.headerLen at long
  let cleared : View := putWord p 6 0
  let covered := cleared.take p.lenField.toNat
  let written := nonzero (~~~sum cleared src dst covered)
  have hfill : p.fillChecksum src dst = putWord cleared 6 written := rfl
  have hfield : (p.fillChecksum src dst).checksum = written := by
    rw [hfill]
    exact wordAt_putWord_self (by simp only [cleared, length_putWord]; omega) _
  have hwritten : (p.fillChecksum src dst).take p.lenField.toNat = putWord covered 6 written := by
    rw [hfill, take_putWord]
  -- The field was cleared in what the sum covers.
  have hcleared : putWord covered 6 0 = covered := by
    simp only [covered, cleared, take_putWord, putWord_putWord]
  have hlong : 6 + 1 < covered.length := by
    simp only [covered, cleared, List.length_take, length_putWord]
    omega
  have hlenField : View.lenField cleared = p.lenField := lenField_putWord p 0
  have hones : (p.fillChecksum src dst).sum src dst (putWord covered 6 written) = 0xffff := by
    refine (Checksum.eq_ones_iff (same_sum _ src dst _)).mpr ?_
    rw [lenField_fillChecksum, Checksum.wordSum_putWord (by decide) hlong, hcleared,
      ← Nat.add_assoc, ← hlenField]
    exact allOnes_add_nonzero (same_sum cleared src dst covered)
  unfold verifyChecksum
  rw [hfield, if_neg (nonzero_ne_zero _), lenField_fillChecksum]
  unfold leading?
  rw [if_pos (by rwa [length_fillChecksum]), hwritten]
  simp [hones]

end Udp.View

end NetEngine
