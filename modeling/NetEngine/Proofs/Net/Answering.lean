import NetEngine.Proofs.Bounds.Echo
import NetEngine.Proofs.Link.Residency

/-! # Requests and the Replies to Them

    An echo request is answered out of the octets that are at hand of it.

    * **First octets**: what the header of a datagram tells is told by its first
      sixty octets, however long the frame is.
    * **Requests**: the message of a request, as far as it is at hand.
    * **Replies**: what a receiver finds in the frame that is sent back. -/

namespace NetEngine

/-! ## First octets -/

namespace Ethernet.View

variable {f : View} {n : Nat}

theorem fields_take (room : headerLen ≤ n) :
    dst (f.take n) = f.dst ∧ src (f.take n) = f.src ∧ etherType (f.take n) = f.etherType := by
  unfold headerLen at room
  have hbyte (i : Nat) (h : i < 14) : byteAt (f.take n) i = byteAt f i :=
    byteAt_take_of_lt f (by omega)
  unfold dst src etherType MacAddress.readAt wordAt
  simp [hbyte]

theorem payload_take (f : View) (n : Nat) : payload (f.take n) = f.payload.take (n - headerLen) :=
  List.drop_take

end Ethernet.View

namespace Ipv4.View

variable {p : View} {n : Nat}

/-- A header is no longer than sixty octets. -/
theorem headerLen_le (p : View) : p.headerLen ≤ 60 := by
  unfold headerLen
  omega

/-- The first octets of a datagram tell what it is, and from whom to whom. -/
theorem fields_take (room : Ipv4.headerLen ≤ n) :
    (headerLen (p.take n) = p.headerLen ∧ version (p.take n) = p.version ∧
      totalLen (p.take n) = p.totalLen ∧ moreFragments (p.take n) = p.moreFragments ∧
      fragmentOffset (p.take n) = p.fragmentOffset ∧ View.protocol (p.take n) = p.protocol) ∧
    src (p.take n) = p.src ∧ dst (p.take n) = p.dst ∧ hopLimit (p.take n) = p.hopLimit := by
  unfold Ipv4.headerLen at room
  have hbyte (i : Nat) (h : i < 20) : byteAt (p.take n) i = byteAt p i :=
    byteAt_take_of_lt p (by omega)
  obtain ⟨hsrc, hdst⟩ := addresses_congr (p := p) (q := p.take n) fun i _ hi => hbyte i hi
  exact ⟨fields_congr fun i hi => hbyte i (by omega), hsrc, hdst, hbyte 8 (by decide)⟩

theorem header_take (room : Ipv4.headerLen ≤ n) (whole : p.headerLen ≤ n) :
    header (p.take n) = p.header := by
  unfold header
  rw [(fields_take room).1.1, List.take_take, Nat.min_eq_left whole]

theorem check_take (room : 60 ≤ n) : check (p.take n) = p.check := by
  have hroom : Ipv4.headerLen ≤ n := Nat.le_trans (by decide) room
  obtain ⟨⟨hheader, -, htotal, -⟩, -⟩ := fields_take (p := p) hroom
  have hbound := p.headerLen_le
  have hlength : (p.take n).length = min n p.length := List.length_take
  unfold check Ipv4.headerLen
  rw [hheader, htotal, hlength]
  -- What is cut off does not matter to a bound of sixty.
  repeat' split
  all_goals first | rfl | omega

end Ipv4.View

/-- **A header is read in the first octets of its datagram.** -/
theorem Ipv4.Header.parse_take {p : View} {n : Nat} (room : 60 ≤ n) (mode : Checksum.Mode) :
    parse (p.take n) mode = parse p mode := by
  have hroom : Ipv4.headerLen ≤ n := Nat.le_trans (by decide) room
  obtain ⟨⟨hheader, hversion, htotal, hlast, hfirst, hprotocol⟩, hsrc, hdst, hhops⟩ :=
    View.fields_take (p := p) hroom
  have hverify : View.verifyChecksum (p.take n) = p.verifyChecksum := by
    unfold View.verifyChecksum
    rw [View.header_take hroom (Nat.le_trans p.headerLen_le room)]
  unfold parse
  rw [View.check_take room, hheader, hversion, htotal, hlast, hfirst, hprotocol, hsrc, hdst, hhops,
    hverify]

namespace Ethernet.View

variable {f : View} {n : Nat}

/-- The packet stands behind the header of its datagram, and ends with the datagram. -/
theorem packet_eq_take (long : Ipv4.headerLen ≤ Ipv4.View.totalLen f.payload) :
    f.packet = (Ipv4.View.payload f.payload).take
      (Ipv4.View.totalLen f.payload - Ipv4.View.headerLen f.payload) := by
  unfold packet datagram Ipv4.View.payload
  rw [(Ipv4.View.fields_take long).1.1, List.drop_take]

/-- Of a packet there is what is among the first octets of the frame. -/
theorem packet_take (room : headerLen + 60 ≤ n)
    (long : Ipv4.headerLen ≤ Ipv4.View.totalLen f.payload) :
    packet (f.take n) = f.packet.take (n - f.packetStart) := by
  have hroom : Ipv4.headerLen ≤ n - headerLen := by
    unfold Ipv4.headerLen
    omega
  obtain ⟨⟨hheader, -, htotal, -⟩, -⟩ := Ipv4.View.fields_take (p := f.payload) hroom
  have hnear : Ipv4.View.payload (f.payload.take (n - headerLen)) =
      (Ipv4.View.payload f.payload).take (n - f.packetStart) := by
    unfold Ipv4.View.payload packetStart
    rw [hheader, List.drop_take, Nat.sub_sub]
  have hlong : Ipv4.headerLen ≤ Ipv4.View.totalLen (payload (f.take n)) := by
    rw [payload_take, htotal]
    exact long
  rw [packet_eq_take hlong, packet_eq_take long, payload_take, hheader, htotal, hnear,
    List.take_take, List.take_take, Nat.min_comm]

end Ethernet.View

/-! ## Requests -/

/-- A message asks for an echo. -/
structure Icmp.View.IsRequest (m : Icmp.View) : Prop where
  long : Icmp.headerLen ≤ m.length
  kind : m.kind = .echoRequest
  code : m.code = 0

theorem Icmp.Echo.parse_eq_request_iff {m : Icmp.View} {ident seqNo : UInt16} :
    parse m .ignored = .ok (.request ident seqNo) ↔
      m.IsRequest ∧ ident = m.ident ∧ seqNo = m.seqNo := by
  constructor
  · intro parsed
    have hlong := long_of_parse parsed
    have hcheck : m.check = .ok () := if_neg (Nat.not_lt.mpr hlong)
    unfold parse at parsed
    rw [hcheck] at parsed
    by_cases hrequest : m.kind = .echoRequest ∧ m.code = 0
    · simp [hrequest, bind, Except.bind] at parsed
      exact ⟨⟨hlong, hrequest.1, hrequest.2⟩, parsed.1.symm, parsed.2.symm⟩
    · simp only [bind, Except.bind, if_neg hrequest] at parsed
      split at parsed
      · cases parsed
      · split at parsed <;> cases parsed
  · rintro ⟨⟨hlong, hkind, hcode⟩, rfl, rfl⟩
    have hcheck : m.check = .ok () := if_neg (Nat.not_lt.mpr hlong)
    unfold parse
    rw [hcheck]
    simp [hkind, hcode, bind, Except.bind]

namespace Interface

variable {i : Interface} {frame reply : Ethernet.View} {h : Ipv4.Header}

/-- The frame that is sent back where a message has been found at the end of a frame. -/
def answerFrame (i : Interface) (frame : Ethernet.View) (h : Ipv4.Header) (message : Icmp.View) :
    Bytes :=
  let p : Ipv4.View := frame.payload
  Ethernet.Header.encode ⟨i.addresses.hardware, frame.src, .ipv4⟩ ++
    (Ipv4.View.fillChecksum (i.answerHeader h (p.headerLen + message.length) p.header) ++
      message.retype .echoReply 0)

/-- **A request is answered, and nothing else is.** -/
theorem echoReply_eq_some_iff :
    let message : Icmp.View := (Ipv4.View.payload frame.payload).take h.payloadLen
    i.echoReply frame h = .ok (some reply) ↔
      message.IsRequest ∧ reply = i.answerFrame frame h message := by
  intro message
  have hrun : i.echoReply frame h = (Icmp.Echo.parse message .ignored >>= _) := rfl
  rw [hrun]
  constructor
  · intro answers
    obtain ⟨echo, hecho, hanswer⟩ := exists_of_bind_eq_ok answers
    cases echo with
    | reply => cases hanswer
    | request ident seqNo =>
      cases hanswer
      refine ⟨(Icmp.Echo.parse_eq_request_iff.mp hecho).1, ?_⟩
      unfold answerFrame
      rw [← List.append_assoc]
      rfl
  · rintro ⟨hrequest, rfl⟩
    rw [Icmp.Echo.parse_eq_request_iff.mpr ⟨hrequest, rfl, rfl⟩]
    unfold answerFrame
    rw [← List.append_assoc]
    rfl

end Interface

/-! ## Replies -/

section Written

variable {b new : Bytes} {i n : Nat}

/-- What stands behind a field stays when the field is written. -/
theorem drop_putWord (b : Bytes) (w : UInt16) (behind : i + 1 < n) :
    (putWord b i w).drop n = b.drop n := by
  unfold putWord
  rw [List.drop_set_of_lt behind, List.drop_set_of_lt (by omega)]

theorem drop_overwriteAt (within : i ≤ b.length) :
    (overwriteAt b i new).drop (i + new.length) = b.drop (i + new.length) := by
  have hfront : (b.take i ++ new).length = i + new.length := by
    rw [List.length_append, List.length_take_of_le within]
  unfold overwriteAt
  rw [← hfront, List.drop_left]

end Written

namespace Icmp.View

variable {m : View}

/-- The type, the code and the checksum are all that is written of a message. -/
theorem drop_retype (m : View) (kind : Kind) (code : UInt8) {n : Nat} (behind : 4 ≤ n) :
    (m.retype kind code).drop n = m.drop n := by
  obtain ⟨k, rfl⟩ := Nat.exists_eq_add_of_le (Nat.le_trans (by decide : 2 ≤ 4) behind)
  unfold retype fillChecksum Checksum.fillAt overwrite
  dsimp only
  rw [drop_putWord _ _ (by omega), drop_putWord _ _ (by omega), ← List.drop_drop]
  show (m.drop 2).drop k = _
  rw [List.drop_drop]

/-- A message of another type is the same to its receiver, but for the type and the code. -/
theorem reads_retype (m : View) (new : Kind) (code : UInt8) :
    View.kind (m.retype new code) = .ofCode new.code ∧ View.code (m.retype new code) = code ∧
      ident (m.retype new code) = m.ident ∧ seqNo (m.retype new code) = m.seqNo ∧
      data (m.retype new code) = m.data := by
  have hfront (j : Nat) (h : j < 2) :
      byteAt (m.retype new code) j = byteAt [new.code, code] j := by
    unfold retype fillChecksum Checksum.fillAt overwrite
    dsimp only
    rw [byteAt_putWord_of_ne _ (by omega) (by omega), byteAt_putWord_of_ne _ (by omega) (by omega)]
    exact byteAt_append_of_lt _ h
  have hbehind (j : Nat) : byteAt (m.retype new code) (4 + j) = byteAt m (4 + j) := by
    rw [← byteAt_drop, ← byteAt_drop, drop_retype m new code (Nat.le_refl 4)]
  refine ⟨?_, hfront 1 (by decide), ?_, ?_, drop_retype m new code (by decide)⟩
  · unfold View.kind
    rw [hfront 0 (by decide)]
    rfl
  · unfold ident wordAt
    rw [hbehind 0, hbehind 1]
  · unfold seqNo wordAt
    rw [hbehind 2, hbehind 3]

/-- What is read of a message is read in its first octets. -/
theorem reads_of_prefix {m' : View} (first : m <+: m') (long : Icmp.headerLen ≤ m.length) :
    m.ident = m'.ident ∧ m.seqNo = m'.seqNo ∧
      m.data = m'.data.take (m.length - Icmp.headerLen) := by
  have hm : m = m'.take m.length := List.prefix_iff_eq_take.mp first
  have hbyte (j : Nat) (hj : j < 8) : byteAt m j = byteAt m' j := by
    rw [hm]
    exact byteAt_take_of_lt _ (Nat.lt_of_lt_of_le hj long)
  refine ⟨?_, ?_, ?_⟩
  · unfold ident wordAt
    rw [hbyte 4 (by decide), hbyte (4 + 1) (by decide)]
  · unfold seqNo wordAt
    rw [hbyte 6 (by decide), hbyte (6 + 1) (by decide)]
  · unfold data
    rw [← List.drop_take, ← hm]

theorem verifyChecksum_retype (long : Icmp.headerLen ≤ m.length) (new : Kind) (code : UInt8) :
    verifyChecksum (m.retype new code) := by
  unfold Icmp.headerLen at long
  apply Checksum.isIntact_fillAt (by decide)
  rw [length_overwrite (by simp; omega)]
  omega

end Icmp.View

/-- The header of a reply goes from us to where the request has come from. -/
theorem Interface.reads_answerHeader (i : Interface) (h : Ipv4.Header) (len : Nat) {header : Bytes}
    (long : Ipv4.headerLen ≤ header.length) :
    let hd : Ipv4.View := i.answerHeader h len header
    hd.src = i.addresses.address ∧ hd.dst = h.src ∧ hd.hopLimit = i.hopLimit ∧
      hd.drop Ipv4.headerLen = header.drop Ipv4.headerLen := by
  intro hd
  unfold Ipv4.headerLen at long ⊢
  let relengthed := (putWord header 2 (UInt16.ofNat len)).set 8 i.hopLimit
  let addresses := i.addresses.address.toBytes ++ h.src.toBytes
  have hlength : relengthed.length = header.length := by simp [relengthed]
  have hbyte (j : Nat) (hj : j < 8) : byteAt hd (12 + j) = byteAt addresses j := by
    have hinside : 12 + addresses.length ≤ relengthed.length := by
      simp [addresses]
      omega
    have hwritten := byteAt_overwriteAt hinside (12 + j)
    rw [if_pos ⟨by omega, by simp [addresses]; omega⟩, Nat.add_sub_cancel_left] at hwritten
    exact hwritten
  refine ⟨?_, ?_, ?_, ?_⟩
  · show Ipv4Address.mk (byteAt hd (12 + 0)) (byteAt hd (12 + 1)) (byteAt hd (12 + 2))
      (byteAt hd (12 + 3)) = _
    rw [hbyte 0 (by decide), hbyte 1 (by decide), hbyte 2 (by decide), hbyte 3 (by decide)]
    rfl
  · show Ipv4Address.mk (byteAt hd (12 + 4)) (byteAt hd (12 + 5)) (byteAt hd (12 + 6))
      (byteAt hd (12 + 7)) = _
    rw [hbyte 4 (by decide), hbyte 5 (by decide), hbyte 6 (by decide), hbyte 7 (by decide)]
    rfl
  · have hhops : byteAt relengthed 8 = i.hopLimit := by
      rw [byteAt_of_lt (by omega)]
      simp [relengthed]
    show byteAt (overwriteAt relengthed 12 addresses) 8 = _
    rw [byteAt_overwriteAt_of_lt (by decide) (by omega), hhops]
  · show (overwriteAt relengthed 12 addresses).drop (12 + addresses.length) = _
    rw [drop_overwriteAt (by omega), List.drop_set_of_lt (by simp [addresses])]
    exact drop_putWord _ _ (by simp [addresses])

/-- Where the checksum of a header is written, what stands beside it stays. -/
theorem Ipv4.View.reads_fillChecksum (p : View) :
    src p.fillChecksum = p.src ∧ dst p.fillChecksum = p.dst ∧
      hopLimit p.fillChecksum = p.hopLimit ∧
      p.fillChecksum.drop Ipv4.headerLen = p.drop Ipv4.headerLen := by
  have hbyte (j : Nat) (h : 12 ≤ j) : byteAt p.fillChecksum j = byteAt p j := by
    unfold fillChecksum
    dsimp only
    rw [byteAt_putWord_of_ne _ (by omega) (by omega), byteAt_putWord_of_ne _ (by omega) (by omega)]
  obtain ⟨hsrc, hdst⟩ := addresses_congr (p := p) (q := p.fillChecksum) fun j h _ => hbyte j h
  refine ⟨hsrc, hdst, byteAt_fillChecksum p (by decide), ?_⟩
  unfold fillChecksum
  dsimp only
  rw [drop_putWord _ _ (by decide), drop_putWord _ _ (by decide)]

/-- In front of a message, the header of a reply tells what has been written into it. -/
theorem Interface.reads_reply (i : Interface) (h : Ipv4.Header) (len : Nat) {header : Bytes}
    (long : Ipv4.headerLen ≤ header.length) (rest : Bytes) :
    let hd : Ipv4.View := Ipv4.View.fillChecksum (i.answerHeader h len header)
    Ipv4.View.src (hd ++ rest) = i.addresses.address ∧ Ipv4.View.dst (hd ++ rest) = h.src ∧
      Ipv4.View.hopLimit (hd ++ rest) = i.hopLimit ∧
      hd.drop Ipv4.headerLen = header.drop Ipv4.headerLen := by
  intro hd
  obtain ⟨hsrc, hdst, hhops, hoptions⟩ := Ipv4.View.reads_fillChecksum (i.answerHeader h len header)
  obtain ⟨hsrc', hdst', hhops', hoptions'⟩ := i.reads_answerHeader h len long
  have hlong : Ipv4.headerLen ≤ hd.length := by
    rw [Ipv4.View.length_fillChecksum, i.length_answerHeader h len long]
    exact long
  obtain ⟨hsrc'', hdst''⟩ := Ipv4.View.addresses_append hlong [] rest
  rw [List.append_nil] at hsrc'' hdst''
  refine ⟨hsrc''.trans (hsrc.trans hsrc'), hdst''.trans (hdst.trans hdst'), ?_,
    hoptions.trans hoptions'⟩
  have hhops'' : Ipv4.View.hopLimit (hd ++ rest) = hd.hopLimit :=
    byteAt_append_of_lt rest (Nat.lt_of_lt_of_le (by decide) hlong)
  exact hhops''.trans (hhops.trans hhops')

/-- The frame `reply` sends the echo request in `frame` back, as far as it is among the first `room`
octets. -/
structure Echoes (l : Addresses) (hops : UInt8) (room : Nat) (frame reply : Ethernet.View) :
    Prop where
  /-- The reply is as long as what is at hand of the request, without the padding behind it. -/
  length : reply.length =
    min (Ethernet.headerLen + Ipv4.View.totalLen frame.payload) (frame.take room).length
  hardware : reply.src = l.hardware ∧ reply.dst = frame.src
  type : reply.etherType = .ipv4
  addresses : Ipv4.View.src reply.payload = l.address ∧
    Ipv4.View.dst reply.payload = Ipv4.View.src frame.payload
  hops : Ipv4.View.hopLimit reply.payload = hops
  total : Ipv4.View.totalLen reply.payload = reply.length - Ethernet.headerLen
  version : Ipv4.View.version reply.payload = 4
  unbroken : Ipv4.View.moreFragments reply.payload = false ∧
    Ipv4.View.fragmentOffset reply.payload = 0
  protocol : Ipv4.View.protocol reply.payload = .icmp
  options : (Ipv4.View.header reply.payload).drop Ipv4.headerLen =
    (Ipv4.View.header frame.payload).drop Ipv4.headerLen
  headerIntact : Ipv4.View.verifyChecksum reply.payload
  kind : Icmp.View.kind reply.packet = .echoReply
  code : Icmp.View.code reply.packet = 0
  ident : Icmp.View.ident reply.packet = Icmp.View.ident frame.packet
  seqNo : Icmp.View.seqNo reply.packet = Icmp.View.seqNo frame.packet
  /-- The data is sent back up to the end of the reply. -/
  data : Icmp.View.data reply.packet =
    (Icmp.View.data frame.packet).take (reply.length - (frame.packetStart + Icmp.headerLen))
  intact : Icmp.View.verifyChecksum reply.packet

/-- A packet that is there as a whole is as long as the header in front of it tells. -/
theorem Ethernet.View.length_packet {f : View}
    (long : Ipv4.headerLen ≤ Ipv4.View.totalLen f.payload)
    (whole : Ipv4.View.totalLen f.payload ≤ f.payload.length) :
    f.packet.length = Ipv4.View.totalLen f.payload - Ipv4.View.headerLen f.payload := by
  have hpayload : (Ipv4.View.payload f.payload).length =
      f.payload.length - Ipv4.View.headerLen f.payload := List.length_drop
  rw [packet_eq_take long, List.length_take, hpayload]
  omega

namespace Interface

variable {i : Interface} {frame : Ethernet.View} {h : Ipv4.Header} {room : Nat}

/-- The header of a reply tells what it stands in front of. -/
theorem leads_answerHeader {p : Ipv4.View} {len : Nat}
    (parsed : Ipv4.Header.parse p .manual = .ok h) (protocol : h.protocol = .icmp)
    (fits : p.headerLen + len < 65536) :
    Ipv4.View.Leads (i.answerHeader h (p.headerLen + len) p.header) .icmp len := by
  rw [← protocol]
  exact leads_echoReply parsed fits i.hopLimit rfl

/-- The frame that is sent back is told by the first octets of the request. -/
theorem answerFrame_take (capacity : Ethernet.headerLen + 60 ≤ room) (m : Icmp.View) :
    i.answerFrame (frame.take room) h m = i.answerFrame frame h m := by
  have hroom : Ipv4.headerLen ≤ room - Ethernet.headerLen := by
    unfold Ipv4.headerLen
    omega
  obtain ⟨⟨hheaderLen, -⟩, -⟩ := Ipv4.View.fields_take (p := frame.payload) hroom
  have hbound := Ipv4.View.headerLen_le frame.payload
  unfold answerFrame
  dsimp only
  rw [Ethernet.View.payload_take, hheaderLen, Ipv4.View.header_take hroom (by omega),
    (Ethernet.View.fields_take (Nat.le_trans (Nat.le_add_right _ _) capacity)).2.1]

/-- What is sent back carries the datagram behind its header, and the message behind that of the
datagram. -/
theorem payload_answerFrame (i : Interface) (frame : Ethernet.View) (h : Ipv4.Header)
    (m : Icmp.View) :
    Ethernet.View.payload (i.answerFrame frame h m) =
      Ipv4.View.fillChecksum (i.answerHeader h
        (Ipv4.View.headerLen frame.payload + m.length) (Ipv4.View.header frame.payload)) ++
      m.retype .echoReply 0 :=
  Ethernet.Header.payload_encode_append ⟨i.addresses.hardware, frame.src, .ipv4⟩ _

/-- What is sent back ends with the message. -/
theorem length_answerFrame {m : Icmp.View} (checked : Ipv4.View.check frame.payload = .ok ())
    (request : m.IsRequest) :
    (i.answerFrame frame h m).length = frame.packetStart + m.length := by
  obtain ⟨hlong, hthere, -⟩ := Ipv4.View.check_eq_ok checked
  have hheader : (Ipv4.View.header frame.payload).length = Ipv4.View.headerLen frame.payload :=
    List.length_take_of_le hthere
  unfold answerFrame Ethernet.View.packetStart
  rw [List.length_append, List.length_append, Ethernet.Header.length_encode,
    Ipv4.View.length_fillChecksum, length_answerHeader _ _ _ (hheader ▸ hlong), hheader,
    Icmp.View.length_retype request.long, Nat.add_assoc]

/-- **What is sent back is the request**, turned into a reply and cut to what is at hand of it. -/
theorem echoes_answerFrame {m : Icmp.View}
    (parsed : Ipv4.Header.parse frame.payload .manual = .ok h) (protocol : h.protocol = .icmp)
    (length : frame.packetStart + m.length =
      min (Ethernet.headerLen + Ipv4.View.totalLen frame.payload) (frame.take room).length)
    (first : m <+: frame.packet) (request : m.IsRequest) :
    Echoes i.addresses i.hopLimit room frame (i.answerFrame frame h m) := by
  obtain ⟨hcheck, -, -, -, -, hh⟩ := Ipv4.Header.parse_eq_ok parsed
  obtain ⟨hlong, hthere, -⟩ := Ipv4.View.check_eq_ok hcheck
  let p : Ipv4.View := frame.payload
  let hd : Ipv4.View := i.answerHeader h (p.headerLen + m.length) p.header
  let reply : Icmp.View := m.retype .echoReply 0
  have hheader : p.header.length = p.headerLen := List.length_take_of_le hthere
  have hfits : p.headerLen + m.length < 65536 := by
    have htotal : Ipv4.View.totalLen frame.payload < 65536 := (wordAt frame.payload 2).toNat_lt
    have hstart : frame.packetStart = Ethernet.headerLen + p.headerLen := rfl
    omega
  have hleads : hd.fillChecksum.Leads .icmp reply.length := by
    rw [Icmp.View.length_retype request.long]
    exact (leads_answerHeader parsed protocol hfits).fillChecksum
  have hintact : Checksum.isIntact hd.fillChecksum :=
    (leads_answerHeader parsed protocol hfits).isIntact_fillChecksum
  have hheaderLong : Ipv4.headerLen ≤ p.header.length := by
    rw [hheader]
    exact hlong
  obtain ⟨hsrc, hdst, hhops, hoptions⟩ :=
    i.reads_reply h (p.headerLen + m.length) hheaderLong reply
  obtain ⟨hkind, hcode, hident, hseqNo, hdata⟩ := m.reads_retype .echoReply 0
  have hpayload : Ethernet.View.payload (i.answerFrame frame h m) = hd.fillChecksum ++ reply :=
    i.payload_answerFrame frame h m
  have hpacket : Ethernet.View.packet (i.answerFrame frame h m) = reply := by
    unfold Ethernet.View.packet Ethernet.View.datagram
    rw [hpayload, hleads.total_append, List.take_length, hleads.payload_append]
  obtain ⟨-, hversion, -, hlast, hfirst, hprotocol⟩ := hleads.fields_append reply
  have hframe := length_answerFrame (i := i) (h := h) hcheck request
  obtain ⟨hident', hseqNo', hdata'⟩ := Icmp.View.reads_of_prefix first request.long
  constructor
  case length => rw [hframe, length]
  case hardware => exact ⟨rfl, rfl⟩
  case type => exact Ethernet.Header.etherType_encode_append ⟨_, _, .ipv4⟩ _
  case addresses =>
    rw [hpayload]
    refine ⟨hsrc, hdst.trans ?_⟩
    rw [hh]
  case hops => rw [hpayload, hhops]
  case total =>
    rw [← List.length_drop]
    show _ = (Ethernet.View.payload (i.answerFrame frame h m)).length
    rw [hpayload, hleads.total_append]
  case version => rw [hpayload, hversion]
  case unbroken => rw [hpayload]; exact ⟨hlast, hfirst⟩
  case protocol => rw [hpayload, hprotocol]
  case options => rw [hpayload, hleads.header_append, hoptions]
  case headerIntact =>
    unfold Ipv4.View.verifyChecksum
    rw [hpayload, hleads.header_append]
    exact hintact
  case kind => rw [hpacket]; exact hkind
  case code => rw [hpacket]; exact hcode
  case ident => rw [hpacket]; exact hident.trans hident'
  case seqNo => rw [hpacket]; exact hseqNo.trans hseqNo'
  case data =>
    rw [hpacket, hframe, Nat.add_sub_add_left]
    exact hdata.trans hdata'
  case intact =>
    rw [hpacket]
    exact Icmp.View.verifyChecksum_retype request.long _ _

end Interface

end NetEngine
