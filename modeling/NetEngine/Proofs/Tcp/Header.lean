import NetEngine.Tcp.Segment

/-! # Headers of Segments, Written and Read Back

    * **Sum**: the checksum is the one field of a header that the sender leaves
      open.  The link writes it over whatever stands there.
    * **Reading**: what the fields of a segment that is at hand as a whole say
      is one `Segment`, and it is the one that has been written.
    * **Acknowledgment**: two headers that differ in the acknowledgment number
      alone have the same octets elsewhere. -/

namespace NetEngine.Tcp

/-! ## Reading -/

/-- A header that is there as a whole passes the check. -/
theorem View.check_of_lengths {p : View} (long : Tcp.headerLen ≤ p.headerLen)
    (there : p.headerLen ≤ p.length) : p.check = .ok () := by
  unfold check
  rw [if_neg (by omega), if_neg (by omega), if_neg (by omega)]

/-- What the fields of a segment say that is at hand as a whole. -/
def View.segment (p : View) : Segment where
  srcPort := p.srcPort
  dstPort := p.dstPort
  seq := p.seq
  ackNumber := p.ackNumber
  flags := p.flags
  window := p.window
  mss := p.mss
  payloadLen := p.payload.length

namespace Segment

variable {s : Segment}

/-- What has been parsed has a header that leaves the rest of the packet to the payload, and the
fields are those of the header. -/
theorem parse_eq_ok {p : View} {ip : Ipv4.Header} {mode : Checksum.Mode}
    (parsed : parse p ip mode = .ok s) :
    Tcp.headerLen ≤ p.length ∧ Tcp.headerLen ≤ p.headerLen ∧ p.headerLen ≤ ip.payloadLen ∧
      s = { p.segment with payloadLen := ip.payloadLen - p.headerLen } := by
  obtain ⟨_, hcheck, hrest⟩ := exists_of_bind_eq_ok parsed
  unfold Tcp.View.check at hcheck
  split at hcheck
  · cases hcheck
  · split at hcheck
    · cases hcheck
    · split at hrest
      · cases hrest
      · split at hrest
        · cases hrest
        · -- Whether the checksum is looked at or not, the fields are the same.
          dsimp only at hrest
          split at hrest <;>
          · obtain ⟨intact, -, hsegment⟩ := exists_of_bind_eq_ok hrest
            split at hsegment
            · cases hsegment
            · cases hsegment
              exact ⟨by omega, by omega, by omega, rfl⟩

/-! ## Sums -/

/-- The octets of a header with a given checksum field. -/
def encodeSummed (s : Segment) (sum : UInt16) : Bytes :=
  ofWord s.srcPort ++ ofWord s.dstPort ++ ofLong s.seq.val ++ ofLong s.ackNumber.val ++
    ofWord (UInt16.ofNat (s.headerLen / 4 * 4096 + s.flags.bits.toNat % 512)) ++
    ofWord s.window ++ ofWord sum ++ [0, 0] ++ s.encodeOption

theorem encode_eq_encodeSummed (s : Segment) : s.encode = s.encodeSummed 0 := rfl

/-- Writing the checksum field does not disturb the others. -/
theorem putWord_encodeSummed (s : Segment) (sum sum' : UInt16) (payload : Bytes) :
    putWord (s.encodeSummed sum ++ payload) 16 sum' = s.encodeSummed sum' ++ payload := rfl

theorem headerLen_le (s : Segment) : Tcp.headerLen ≤ s.headerLen := by
  unfold Segment.headerLen
  split
  · exact Nat.le_refl _
  · exact Nat.le_add_right _ _

theorem length_encodeSummed (s : Segment) (sum : UInt16) :
    (s.encodeSummed sum).length = s.headerLen := by
  rw [← length_encode s]
  rfl

/-! ## Fields read back -/

section Fields

variable (s : Segment) (sum : UInt16) (payload : Bytes)

theorem srcPort_encodeSummed : View.srcPort (s.encodeSummed sum ++ payload) = s.srcPort :=
  word_div_mod s.srcPort

theorem dstPort_encodeSummed : View.dstPort (s.encodeSummed sum ++ payload) = s.dstPort :=
  word_div_mod s.dstPort

theorem seq_encodeSummed : View.seq (s.encodeSummed sum ++ payload) = s.seq :=
  congrArg SeqNumber.mk (longAt_ofLong_append s.seq.val [])

theorem ackNumber_encodeSummed :
    View.ackNumber (s.encodeSummed sum ++ payload) = s.ackNumber :=
  congrArg SeqNumber.mk (longAt_ofLong_append s.ackNumber.val [])

theorem window_encodeSummed : View.window (s.encodeSummed sum ++ payload) = s.window :=
  word_div_mod s.window

/-- The length of the header and the control bits share a field. -/
theorem wordAt_encodeSummed : wordAt (s.encodeSummed sum ++ payload) 12 =
    UInt16.ofNat (s.headerLen / 4 * 4096 + s.flags.bits.toNat % 512) :=
  word_div_mod _

theorem headerLen_encodeSummed :
    View.headerLen (s.encodeSummed sum ++ payload) = s.headerLen := by
  unfold View.headerLen
  rw [wordAt_encodeSummed, UInt16.toNat_ofNat']
  unfold headerLen Tcp.headerLen mssOptionLen
  split <;> omega

theorem payload_encodeSummed : View.payload (s.encodeSummed sum ++ payload) = payload := by
  unfold View.payload
  rw [headerLen_encodeSummed, ← length_encodeSummed s sum, List.drop_left]

theorem mss_encodeSummed : View.mss (s.encodeSummed sum ++ payload) = s.mss := by
  unfold View.mss View.options
  rw [headerLen_encodeSummed, ← length_encodeSummed s sum, List.take_left]
  unfold encodeSummed encodeOption
  cases hmss : s.mss with
  | none =>
    show mssOption [] = none
    rw [mssOption]
  | some size =>
    show mssOption ([2, 4] ++ ofWord size) = some size
    have hword : wordAt (ofWord size) 0 = size := word_div_mod size
    simp [mssOption, mssOptionLen, hword]

end Fields

/-- The control bits are read back if they fit the nine bits that a header has for them. -/
theorem flags_encodeSummed (fit : s.flags.bits.toNat < 512) (sum : UInt16) (payload : Bytes) :
    View.flags (s.encodeSummed sum ++ payload) = s.flags := by
  unfold View.flags
  rw [wordAt_encodeSummed, UInt16.toNat_ofNat']
  have hbits : UInt16.ofNat
      ((s.headerLen / 4 * 4096 + s.flags.bits.toNat % 512) % 2 ^ 16 % 512) = s.flags.bits := by
    apply UInt16.toNat_inj.mp
    rw [UInt16.toNat_ofNat']
    omega
  rw [hbits]

/-- **A segment is read as it has been written.** -/
theorem segment_encodeSummed (fit : s.flags.bits.toNat < 512) (sum : UInt16) {payload : Bytes}
    (length : payload.length = s.payloadLen) :
    View.segment (s.encodeSummed sum ++ payload) = s := by
  rw [View.segment, srcPort_encodeSummed, dstPort_encodeSummed, seq_encodeSummed,
    ackNumber_encodeSummed, flags_encodeSummed fit, window_encodeSummed, mss_encodeSummed,
    payload_encodeSummed, length]

/-! ## Another acknowledgment -/

/-- A segment with another acknowledgment number and another sum has the same octets but for the two
fields. -/
theorem encodeSummed_withAck (s : Segment) (ack : SeqNumber) (sum sum' : UInt16) (payload : Bytes) :
    { s with ackNumber := ack }.encodeSummed sum' ++ payload =
      overwriteAt (overwriteAt (s.encodeSummed sum ++ payload) 8 (ofLong ack.val)) 16
        (ofWord sum') := by
  -- In front of the two fields, and between them, nothing depends on them.
  let front := ofWord s.srcPort ++ ofWord s.dstPort ++ ofLong s.seq.val
  let middle := ofWord (UInt16.ofNat (s.headerLen / 4 * 4096 + s.flags.bits.toNat % 512)) ++
    ofWord s.window
  let back := [0, 0] ++ s.encodeOption ++ payload
  have hsplit (ack : SeqNumber) (sum : UInt16) :
      { s with ackNumber := ack }.encodeSummed sum ++ payload =
        front ++ (ofLong ack.val ++ (middle ++ (ofWord sum ++ back))) := by
    simp only [encodeSummed, encodeOption, headerLen, front, middle, back, List.append_assoc]
  have hgroup (sum : UInt16) :
      front ++ (ofLong ack.val ++ (middle ++ (ofWord sum ++ back))) =
        (front ++ ofLong ack.val ++ middle) ++ (ofWord sum ++ back) := by
    simp only [List.append_assoc]
  have hfront : front.length = 8 := rfl
  have hmiddle : (front ++ ofLong ack.val ++ middle).length = 16 := rfl
  have hack : (ofLong s.ackNumber.val).length = (ofLong ack.val).length := rfl
  have hsum : (ofWord sum).length = (ofWord sum').length := rfl
  rw [hsplit, show s.encodeSummed sum ++ payload = _ from hsplit s.ackNumber sum,
    overwriteAt_append _ hfront hack, hgroup, hgroup, overwriteAt_append _ hmiddle hsum]

end Segment

end NetEngine.Tcp
