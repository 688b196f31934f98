import NetEngine.Link.Offload
import NetEngine.Proofs.Tcp.Header

/-! # Datagrams in Frames

    * **Layout**: a frame that we send is an Ethernet header, an internet header,
      and a packet.
    * **Leads**: what a header has to tell in order to stand in front of a packet
      of a given length.  The link then finds the datagram in the frame.
    * **Fill**: where the link writes the checksum of a packet, the header in front
      of it stays as it is. -/

namespace NetEngine

/-- The place in a frame at which the transport packet starts. -/
def Ethernet.View.packetStart (f : View) : Nat := headerLen + Ipv4.View.headerLen f.payload

/-! ## Ethernet headers -/

namespace Ethernet.Header

variable (e : Header) (rest : Bytes)

theorem payload_encode_append : View.payload (e.encode ++ rest) = rest := by
  unfold View.payload
  rw [← length_encode e, List.drop_left]

theorem etherType_encode_append : View.etherType (e.encode ++ rest) = .ofCode e.etherType.code := by
  have hword : wordAt (e.encode ++ rest) 12 = e.etherType.code := word_div_mod _
  unfold View.etherType
  rw [hword]

end Ethernet.Header

/-! ## Internet headers -/

namespace Ipv4.View

variable {p q hd : View} {protocol : IpProtocol} {packet : Bytes}

/-- The lengths, the version, the fragment and the protocol are in the first ten octets. -/
theorem fields_congr (same : ∀ i < 10, byteAt q i = byteAt p i) :
    q.headerLen = p.headerLen ∧ q.version = p.version ∧ q.totalLen = p.totalLen ∧
      q.moreFragments = p.moreFragments ∧ q.fragmentOffset = p.fragmentOffset ∧
      q.protocol = p.protocol := by
  have hword : ∀ i, i + 1 < 10 → wordAt q i = wordAt p i := by
    intro i hi
    unfold wordAt
    rw [same i (by omega), same (i + 1) hi]
  unfold headerLen version totalLen moreFragments fragmentOffset View.protocol
  rw [same 0 (by omega), same 9 (by omega), hword 2 (by omega), hword 6 (by omega)]
  simp

/-- The addresses are the eight octets behind the checksum. -/
theorem addresses_congr (same : ∀ i, 12 ≤ i → i < 20 → byteAt q i = byteAt p i) :
    q.src = p.src ∧ q.dst = p.dst := by
  unfold src dst Ipv4Address.readAt
  constructor
  · rw [same 12 (by decide) (by decide), same (12 + 1) (by decide) (by decide),
      same (12 + 2) (by decide) (by decide), same (12 + 3) (by decide) (by decide)]
  · rw [same 16 (by decide) (by decide), same (16 + 1) (by decide) (by decide),
      same (16 + 2) (by decide) (by decide), same (16 + 3) (by decide) (by decide)]

/-- The addresses are in the header, whatever stands behind it. -/
theorem addresses_append (long : Ipv4.headerLen ≤ hd.length) (packet packet' : Bytes) :
    src (hd ++ packet') = src (hd ++ packet) ∧ dst (hd ++ packet') = dst (hd ++ packet) := by
  unfold Ipv4.headerLen at long
  apply addresses_congr
  intro i _ hi
  rw [byteAt_append_of_lt _ (by omega), byteAt_append_of_lt _ (by omega)]

/-- What has been checked has a header, which is there as a whole. -/
theorem check_eq_ok (h : p.check = .ok ()) :
    Ipv4.headerLen ≤ p.headerLen ∧ p.headerLen ≤ p.length ∧ p.headerLen ≤ p.totalLen := by
  unfold check at h
  repeat' split at h
  all_goals first | omega | cases h

theorem check_of_lengths (long : Ipv4.headerLen ≤ p.headerLen) (there : p.headerLen ≤ p.length)
    (total : p.headerLen ≤ p.totalLen) : p.check = .ok () := by
  unfold check
  rw [if_neg (by omega), if_neg (by omega), if_neg (by omega), if_neg (by omega)]

/-- A whole header, its checksum apart, that stands in front of `len` octets of a protocol. -/
structure Leads (hd : View) (protocol : IpProtocol) (len : Nat) : Prop where
  long : Ipv4.headerLen ≤ hd.length
  whole : hd.headerLen = hd.length
  version : hd.version = 4
  total : hd.totalLen = hd.length + len
  last : hd.moreFragments = false
  first : hd.fragmentOffset = 0
  protocol : hd.protocol = protocol

namespace Leads

theorem congr {len : Nat} (leads : p.Leads protocol len) (length : q.length = p.length)
    (same : ∀ i < 10, byteAt q i = byteAt p i) : q.Leads protocol len := by
  obtain ⟨hlen, hversion, htotal, hlast, hfirst, hprotocol⟩ := fields_congr same
  constructor
  · rw [length]
    exact leads.long
  · rw [hlen, length]
    exact leads.whole
  · rw [hversion]
    exact leads.version
  · rw [htotal, length]
    exact leads.total
  · rw [hlast]
    exact leads.last
  · rw [hfirst]
    exact leads.first
  · rw [hprotocol]
    exact leads.protocol

section Front

variable {len : Nat} (leads : hd.Leads protocol len) (rest : Bytes)

include leads

/-- In front of other octets a header tells what it tells alone. -/
theorem fields_append :
    headerLen (hd ++ rest) = hd.length ∧ View.version (hd ++ rest) = 4 ∧
      totalLen (hd ++ rest) = hd.length + len ∧ moreFragments (hd ++ rest) = false ∧
      fragmentOffset (hd ++ rest) = 0 ∧ View.protocol (hd ++ rest) = protocol := by
  have hlong := leads.long
  unfold Ipv4.headerLen at hlong
  obtain ⟨hlen, hversion, htotal, hlast, hfirst, hprotocol⟩ :=
    fields_congr (p := hd) (q := hd ++ rest) fun i hi => byteAt_append_of_lt rest (by omega)
  rw [hlen, hversion, htotal, hlast, hfirst, hprotocol]
  exact ⟨leads.whole, leads.version, leads.total, leads.last, leads.first, leads.protocol⟩

theorem header_append : header (hd ++ rest) = hd := by
  unfold header
  rw [(leads.fields_append rest).1, List.take_left]

theorem payload_append : View.payload (hd ++ rest) = rest := by
  unfold View.payload
  rw [(leads.fields_append rest).1, List.drop_left]

theorem check_append : check (hd ++ rest) = .ok () := by
  obtain ⟨hlen, -, htotal, -⟩ := leads.fields_append rest
  apply check_of_lengths
  · rw [hlen]
    exact leads.long
  · rw [hlen, List.length_append]
    omega
  · rw [hlen, htotal]
    omega

end Front

/-- A header and its packet are as long as the header tells. -/
theorem total_append (leads : hd.Leads protocol packet.length) :
    totalLen (hd ++ packet) = (hd ++ packet).length := by
  rw [(leads.fields_append packet).2.2.1, List.length_append]

end Leads

end Ipv4.View

namespace Ipv4.Header

/-- What has been parsed is an unbroken datagram of the version that we speak. -/
theorem parse_eq_ok {p : View} {mode : Checksum.Mode} {h : Header} (parsed : parse p mode = .ok h) :
    p.check = .ok () ∧ p.version = 4 ∧ (mode = .manual → p.verifyChecksum) ∧
      p.moreFragments = false ∧ p.fragmentOffset = 0 ∧
      h = ⟨p.src, p.dst, p.protocol, p.totalLen - p.headerLen, p.hopLimit⟩ := by
  unfold parse at parsed
  cases hcheck : p.check with
  | error err =>
    rw [hcheck] at parsed
    cases parsed
  | ok =>
    rw [hcheck] at parsed
    replace parsed : (if p.version ≠ 4 then _ else _) = _ := parsed
    split at parsed
    · cases parsed
    · split at parsed
      · cases parsed
      · split at parsed
        · cases parsed
        · cases parsed
          simp_all

/-- An unbroken datagram is parsed if its header is intact, or nobody asks. -/
theorem parse_of_intact {p : View} {mode : Checksum.Mode} (checked : p.check = .ok ())
    (version : p.version = 4) (intact : mode = .manual → p.verifyChecksum)
    (last : p.moreFragments = false) (first : p.fragmentOffset = 0) :
    parse p mode = .ok ⟨p.src, p.dst, p.protocol, p.totalLen - p.headerLen, p.hopLimit⟩ := by
  have hintact : ¬ (mode = .manual ∧ ¬ p.verifyChecksum) := fun ⟨hmode, hbroken⟩ =>
    hbroken (intact hmode)
  unfold parse
  rw [checked]
  show (if p.version ≠ 4 then _ else if mode = .manual ∧ ¬ p.verifyChecksum then _ else _) = _
  rw [if_neg hintact]
  simp [version, last, first]

/-- The 20 octets of a header with a given checksum field. -/
def encodeSummed (h : Header) (ident sum : UInt16) : Bytes :=
  [0x45, 0] ++ ofWord (UInt16.ofNat (headerLen + h.payloadLen)) ++ ofWord ident ++ [0, 0] ++
    [h.hopLimit, h.protocol.code] ++ ofWord sum ++ h.src.toBytes ++ h.dst.toBytes

/-- The checksum of a header. -/
def checksum (h : Header) (ident : UInt16) : UInt16 := ~~~Checksum.ofBytes (h.encodeUnsummed ident)

section Fields

variable (h : Header) (ident sum : UInt16) (rest : Bytes)

@[simp] theorem length_encodeSummed : (h.encodeSummed ident sum).length = Ipv4.headerLen := rfl

theorem header_encodeSummed :
    View.header (h.encodeSummed ident sum ++ rest) = h.encodeSummed ident sum := by
  have hlength : View.headerLen (h.encodeSummed ident sum ++ rest) =
      (h.encodeSummed ident sum).length := by
    have hfirst : byteAt (h.encodeSummed ident sum ++ rest) 0 = 0x45 := rfl
    unfold View.headerLen
    rw [hfirst]
    rfl
  unfold View.header
  rw [hlength, List.take_left]

theorem src_encodeSummed : View.src (h.encodeSummed ident sum ++ rest) = h.src := rfl

theorem dst_encodeSummed : View.dst (h.encodeSummed ident sum ++ rest) = h.dst := rfl

/-- A header that is filled in gets its sum, and what follows stays as it is. -/
theorem fillChecksum_encodeUnsummed :
    View.fillChecksum (h.encodeUnsummed ident ++ rest) =
      h.encodeSummed ident (h.checksum ident) ++ rest := by
  have hcleared : putWord (h.encodeUnsummed ident ++ rest) 10 0 =
      h.encodeSummed ident 0 ++ rest := rfl
  unfold View.fillChecksum
  dsimp only
  rw [hcleared, header_encodeSummed]
  rfl

end Fields

/-- A header that we write leads a packet of the length that it tells. -/
theorem leads_encodeSummed {h : Header} (canonical : .ofCode h.protocol.code = h.protocol)
    (fits : Ipv4.headerLen + h.payloadLen < 65536) (ident sum : UInt16) :
    View.Leads (h.encodeSummed ident sum) h.protocol h.payloadLen := by
  have htotal : wordAt (h.encodeSummed ident sum) 2 =
      UInt16.ofNat (Ipv4.headerLen + h.payloadLen) := word_div_mod _
  have hopen : byteAt (h.encodeSummed ident sum) 0 = 0x45 := rfl
  have hfragment : wordAt (h.encodeSummed ident sum) 6 = 0 := by
    have hhigh : byteAt (h.encodeSummed ident sum) 6 = 0 := rfl
    have hlow : byteAt (h.encodeSummed ident sum) (6 + 1) = 0 := rfl
    unfold wordAt
    rw [hhigh, hlow]
    decide
  constructor
  case long => exact Nat.le_refl _
  case whole =>
    unfold View.headerLen
    rw [hopen, length_encodeSummed]
    decide
  case version =>
    unfold View.version
    rw [hopen]
    decide
  case total =>
    unfold View.totalLen
    rw [htotal, UInt16.toNat_ofNat', length_encodeSummed]
    omega
  case last =>
    unfold View.moreFragments
    rw [hfragment]
    decide
  case first =>
    unfold View.fragmentOffset
    rw [hfragment]
    decide
  case protocol => exact canonical

end Ipv4.Header

/-! ## Frames -/

namespace Offload

open Ipv4 (View)

variable {e : Ethernet.Header} {hd : View} {protocol : IpProtocol} {packet : Bytes}

/-- A datagram is found behind the header of a frame, whatever follows it. -/
theorem datagram?_append {front : Ethernet.View} {p : View}
    (length : front.length = Ethernet.headerLen) (type : front.etherType = .ipv4)
    (checked : p.check = .ok ()) (total : p.totalLen = p.length)
    (back : Bytes) : datagram? (front ++ (p ++ back)) = some p := by
  obtain ⟨hlong, hthere, htold⟩ := View.check_eq_ok checked
  unfold Ipv4.headerLen at hlong
  unfold Ethernet.headerLen at length
  have hpayload : Ethernet.View.payload (front ++ (p ++ back)) = p ++ back := by
    unfold Ethernet.View.payload Ethernet.headerLen
    rw [← length, List.drop_left]
  have htype : Ethernet.View.etherType (front ++ (p ++ back)) = .ipv4 := by
    rw [← type]
    unfold Ethernet.View.etherType wordAt
    rw [byteAt_append_of_lt _ (by omega), byteAt_append_of_lt _ (by omega)]
  have hcheck : Ethernet.View.check (front ++ (p ++ back)) = .ok () := by
    unfold Ethernet.View.check Ethernet.headerLen
    rw [List.length_append, if_neg (by omega)]
  -- The lengths are told by the header, and so are the same with more octets behind.
  obtain ⟨hlen, -, htotal, -⟩ := View.fields_congr (p := p) (q := p ++ back)
    fun i hi => byteAt_append_of_lt back (by omega)
  have hchecked : View.check (p ++ back) = .ok () := by
    apply View.check_of_lengths
    · rw [hlen]
      exact hlong
    · rw [hlen, List.length_append]
      omega
    · rw [hlen, htotal]
      exact htold
  unfold datagram?
  rw [if_pos htype, hcheck, hpayload, hchecked]
  dsimp only
  rw [htotal, total]
  unfold leading?
  rw [if_pos (by rw [List.length_append]; omega), List.take_left]

/-- What is found in a frame stands behind the header, and is as long as it tells. -/
theorem eq_append_of_datagram? {frame : Ethernet.View} {p : View}
    (found : datagram? frame = some p) :
    ∃ (front : Ethernet.View) (back : Bytes), frame = front ++ (p ++ back) ∧
      front.length = Ethernet.headerLen ∧ front.etherType = .ipv4 ∧ p.check = .ok () ∧
        p.totalLen = p.length := by
  unfold datagram? at found
  split at found
  · rename_i hcheck hchecked
    split at found
    · rename_i htype
      unfold leading? at found
      split at found
      · rename_i hthere
        cases found
        obtain ⟨hlong, -, htold⟩ := View.check_eq_ok hchecked
        unfold Ipv4.headerLen at hlong
        have hframe : Ethernet.headerLen ≤ frame.length := by
          unfold Ethernet.View.check at hcheck
          split at hcheck
          · cases hcheck
          · omega
        let total := View.totalLen frame.payload
        have hlength : (frame.payload.take total).length = total := List.length_take_of_le hthere
        obtain ⟨hlen, -, htotal, -⟩ :=
          View.fields_congr (p := frame.payload) (q := frame.payload.take total)
            fun i hi => byteAt_take_of_lt _ (by omega)
        refine ⟨frame.take Ethernet.headerLen, frame.payload.drop total, ?_,
          List.length_take_of_le hframe, ?_, ?_, ?_⟩
        · rw [List.take_append_drop]
          exact (List.take_append_drop _ _).symm
        · rw [← htype]
          unfold Ethernet.View.etherType wordAt
          rw [byteAt_take_of_lt _ (by decide), byteAt_take_of_lt _ (by decide)]
        · apply View.check_of_lengths
          · rw [hlen]
            exact hlong
          · rw [hlen, hlength]
            exact htold
          · rw [hlen, htotal]
            exact htold
        · rw [htotal, hlength]
      · cases found
    · cases found
  · cases found

/-- A datagram is found in its frame. -/
theorem datagram?_encode_append (type : e.etherType = .ipv4)
    (leads : hd.Leads protocol packet.length) :
    datagram? (e.encode ++ (hd ++ packet)) = some (hd ++ packet) := by
  have htype : Ethernet.View.etherType e.encode = .ipv4 := by
    have h := Ethernet.Header.etherType_encode_append e []
    rw [List.append_nil, type] at h
    exact h
  have hfound := datagram?_append (Ethernet.Header.length_encode e) htype
    (leads.check_append packet) leads.total_append []
  rwa [List.append_nil] at hfound

/-- A datagram with the checksums written that are asked for. -/
def filled (p : View) (c : ChecksumSet) : View :=
  (if c.ipv4 then p.fillChecksum else p).header ++ fillTransport p c p.payload

/-- In a frame the datagram alone is written over. -/
theorem fill_append {front : Ethernet.View} {p : View} {back : Bytes}
    (length : front.length = Ethernet.headerLen)
    (found : datagram? (front ++ (p ++ back)) = some p) (c : ChecksumSet) :
    fill (front ++ (p ++ back)) c = front ++ (filled p c ++ back) := by
  have hbehind : (front ++ (p ++ back)).drop (Ethernet.headerLen + p.length) = back := by
    rw [← length, ← List.drop_drop, List.drop_left, List.drop_left]
  unfold fill
  rw [found]
  dsimp only
  rw [hbehind, ← length, List.take_left, List.append_assoc, List.append_assoc]
  unfold filled
  rw [List.append_assoc]

/-- The checksum of a transport is filled in behind the header, which stays as it is. -/
theorem fill_encode_append (type : e.etherType = .ipv4) (leads : hd.Leads protocol packet.length)
    {c : ChecksumSet} (header : c.ipv4 = false) :
    fill (e.encode ++ (hd ++ packet)) c =
      e.encode ++ (hd ++ fillTransport (hd ++ packet) c packet) := by
  have hfound : datagram? (e.encode ++ (hd ++ packet ++ [])) = some (hd ++ packet) := by
    rw [List.append_nil]
    exact datagram?_encode_append type leads
  have hfilled : filled (hd ++ packet) c = hd ++ fillTransport (hd ++ packet) c packet := by
    unfold filled
    rw [header, if_neg (by decide), leads.header_append, leads.payload_append]
  have hfill := fill_append (Ethernet.Header.length_encode e) hfound c
  rwa [List.append_nil, List.append_nil, hfilled] at hfill

end Offload

end NetEngine
