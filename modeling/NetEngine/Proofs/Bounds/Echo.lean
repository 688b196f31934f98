import NetEngine.Proofs.Bounds.Headers
import NetEngine.Proofs.Bounds.Overwriting
import NetEngine.Proofs.Link.Accepting
import NetEngine.Proofs.Link.Pulling

/-! # Echo Replies Are Written Inside

    An echo request is turned into its reply in place, in the octets that are at hand
    of it: field by field, and with the checksums of what has been written.  No field
    lies outside, and the frame is the same as if it had been put together anew.

    * **Messages**, **Headers**: what is written into either part of the datagram.
    * **Frames**: the datagram is written within the frame, which ends with it. -/

namespace NetEngine

open Guarded

/-! ## Messages -/

namespace Icmp.View

/-- Turn a request into the reply to it. -/
def answer? (m : View) : Guarded Bytes := do
  let retyped ← write? m 0 [Kind.echoReply.code]
  let cleared ← write? retyped 2 (ofWord 0)
  write? cleared 2 (ofWord (~~~Checksum.ofBytes cleared))

theorem answer?_eq {m : View} (long : Icmp.headerLen ≤ m.length) (code : m.code = 0) :
    m.answer? = pure (m.retype .echoReply 0) := by
  unfold Icmp.headerLen at long
  have hretyped : overwriteAt m 0 [Kind.echoReply.code] =
      overwrite m [Kind.echoReply.code, 0] := by
    obtain ⟨kind, m, rfl⟩ := List.exists_cons_of_length_pos (by omega : 0 < m.length)
    simp only [List.length_cons] at long
    obtain ⟨code', m, rfl⟩ := List.exists_cons_of_length_pos (by omega : 0 < m.length)
    have hcode : code' = 0 := code
    subst hcode
    rfl
  have hlen : (overwrite m [Kind.echoReply.code, 0]).length = m.length :=
    length_overwrite (by simp; omega)
  unfold answer? retype fillChecksum Checksum.fillAt
  rw [write?_of_le (by simp; omega), pure_bind, hretyped, write?_of_le (by simp; omega), pure_bind,
    ← putWord_eq_overwriteAt (by omega), write?_of_le (by simp; omega),
    ← putWord_eq_overwriteAt (by simp; omega)]

end Icmp.View

/-! ## Headers -/

namespace Ipv4.View

/-- Write the header checksum. -/
def fillChecksum? (p : View) : Guarded Bytes := do
  let cleared : View ← write? p 10 (ofWord 0)
  let headerLen ← cleared.headerLen?
  let header ← upTo? cleared headerLen
  write? cleared 10 (ofWord (~~~Checksum.ofBytes header))

/-- A header that has been cut off tells its own length. -/
theorem headerLen_header {p : View} (checked : p.check = .ok ()) :
    View.headerLen p.header = p.header.length := by
  obtain ⟨hlong, hthere, -⟩ := check_eq_ok checked
  unfold Ipv4.headerLen at hlong
  have hheader : p.header.length = p.headerLen := List.length_take_of_le hthere
  have hfirst : byteAt p.header 0 = byteAt p 0 := byteAt_take_of_lt p (by omega)
  rw [hheader]
  unfold headerLen
  rw [hfirst]

/-- What follows a header has no part in its checksum. -/
theorem fillChecksum?_append {hd : View} (long : Ipv4.headerLen ≤ hd.length)
    (whole : hd.headerLen = hd.length) (rest : Bytes) :
    fillChecksum? (hd ++ rest) = pure (hd.fillChecksum ++ rest) := by
  unfold Ipv4.headerLen at long
  let cleared : View := putWord hd 10 0
  have hcleared : write? (hd ++ rest) 10 (ofWord 0) = pure (cleared ++ rest) := by
    rw [write?_append_left (by simp; omega), ← putWord_eq_overwriteAt (by omega)]
  have hlength : cleared.length = hd.length := length_putWord _ _ _
  have hheaderLen : View.headerLen (cleared ++ rest) = hd.length := by
    rw [← whole, ← headerLen_putWord hd 0]
    unfold headerLen
    rw [byteAt_append_of_lt _ (by omega)]
  have hheader : cleared.header = cleared := by
    apply header_of_whole
    rw [headerLen_putWord, whole, hlength]
  unfold fillChecksum? fillChecksum
  rw [hcleared, pure_bind, headerLen?_of_long (by simp; omega), pure_bind, hheaderLen,
    upTo?_of_le (by simp; omega), pure_bind, ← hlength, List.take_left,
    write?_append_left (by simp; omega), ← putWord_eq_overwriteAt (by omega)]
  dsimp only
  rw [hheader]

end Ipv4.View

namespace Interface

/-- The header of a reply of `len` octets, its checksum apart, made of that of the request. -/
def answerHeader (i : Interface) (h : Ipv4.Header) (len : Nat) (header : Bytes) : Bytes :=
  overwriteAt ((putWord header 2 (UInt16.ofNat len)).set 8 i.hopLimit) 12
    (i.addresses.address.toBytes ++ h.src.toBytes)

/-- The fields are written from behind. -/
theorem answerHeader_eq (i : Interface) (h : Ipv4.Header) (len : Nat) {header : Bytes}
    (long : Ipv4.headerLen ≤ header.length) :
    overwriteAt (overwriteAt (overwriteAt (overwriteAt header 16 h.src.toBytes) 12
      i.addresses.address.toBytes) 2 (ofWord (UInt16.ofNat len))) 8 [i.hopLimit] =
    i.answerHeader h len header := by
  unfold Ipv4.headerLen at long
  let own := i.addresses.address.toBytes
  let src := h.src.toBytes
  let total := ofWord (UInt16.ofNat len)
  have hown : own.length = 4 := rfl
  have hsrc : src.length = 4 := rfl
  have htotal : total.length = 2 := rfl
  have hsides : (own ++ src).length = 8 := rfl
  have hbeside : overwriteAt (overwriteAt header (12 + own.length) src) 12 own =
      overwriteAt header 12 (own ++ src) := overwriteAt_beside (by omega)
  have hlength : (overwriteAt header 2 total).length = header.length :=
    length_overwriteAt (by omega)
  calc overwriteAt (overwriteAt (overwriteAt (overwriteAt header 16 src) 12 own) 2 total) 8
        [i.hopLimit]
      = overwriteAt (overwriteAt (overwriteAt header 12 (own ++ src)) 2 total) 8 [i.hopLimit] := by
        rw [← hbeside, hown]
    _ = overwriteAt (overwriteAt (overwriteAt header 2 total) 12 (own ++ src)) 8 [i.hopLimit] := by
        rw [overwriteAt_comm (by omega : 2 + total.length ≤ 12) (by omega)]
    _ = overwriteAt (overwriteAt (overwriteAt header 2 total) 8 [i.hopLimit]) 12 (own ++ src) := by
        rw [overwriteAt_comm (by simp : 8 + [i.hopLimit].length ≤ 12) (by omega)]
    _ = i.answerHeader h len header := by
        unfold answerHeader
        rw [set_eq_overwriteAt (by simp; omega), putWord_eq_overwriteAt (by omega)]

theorem length_answerHeader (i : Interface) (h : Ipv4.Header) (len : Nat) {header : Bytes}
    (long : Ipv4.headerLen ≤ header.length) :
    (i.answerHeader h len header).length = header.length := by
  unfold Ipv4.headerLen at long
  unfold answerHeader
  rw [length_overwriteAt (by simp; omega), List.length_set, length_putWord]

theorem headerLen_answerHeader (i : Interface) (h : Ipv4.Header) (len : Nat) {header : Bytes}
    (long : Ipv4.headerLen ≤ header.length) :
    Ipv4.View.headerLen (i.answerHeader h len header) = Ipv4.View.headerLen header := by
  unfold Ipv4.headerLen at long
  unfold answerHeader Ipv4.View.headerLen
  rw [byteAt_overwriteAt_of_lt (by decide) (by simp; omega), byteAt_set_of_ne _ (by decide),
    byteAt_putWord_of_ne _ (by decide) (by decide)]

/-- Turn a datagram that carries a request into the one of `len` octets that carries the reply. -/
def answerDatagram? (i : Interface) (h : Ipv4.Header) (len : Nat) (packet : Bytes) :
    Guarded Bytes := do
  let packet ← write? packet 16 h.src.toBytes
  let packet ← write? packet 12 i.addresses.address.toBytes
  let packet ← write? packet 2 (ofWord (UInt16.ofNat len))
  let packet ← write? packet 8 [i.hopLimit]
  let headerLen ← Ipv4.View.headerLen? packet
  let packet ← inPlace? packet headerLen packet.length Icmp.View.answer?
  Ipv4.View.fillChecksum? packet

theorem answerDatagram?_append (i : Interface) (h : Ipv4.Header) (len : Nat) {header m : Bytes}
    (long : Ipv4.headerLen ≤ header.length) (whole : Ipv4.View.headerLen header = header.length)
    (message : Icmp.headerLen ≤ m.length) (code : Icmp.View.code m = 0) :
    i.answerDatagram? h len (header ++ m) =
      pure (Ipv4.View.fillChecksum (i.answerHeader h len header) ++
        Icmp.View.retype m .echoReply 0) := by
  have hheader := i.answerHeader_eq h len long
  have hlength := i.length_answerHeader h len long
  have hwhole := i.headerLen_answerHeader h len long
  unfold Ipv4.headerLen at long
  have h4 : h.src.toBytes.length = 4 := rfl
  have h4' : i.addresses.address.toBytes.length = 4 := rfl
  have hfirst : (overwriteAt header 16 h.src.toBytes).length = header.length :=
    length_overwriteAt (by omega)
  have hsecond : (overwriteAt (overwriteAt header 16 h.src.toBytes) 12
      i.addresses.address.toBytes).length = header.length := by
    rw [length_overwriteAt (by omega), hfirst]
  have hthird : (overwriteAt (overwriteAt (overwriteAt header 16 h.src.toBytes) 12
      i.addresses.address.toBytes) 2 (ofWord (UInt16.ofNat len))).length = header.length := by
    rw [length_overwriteAt (by simp; omega), hsecond]
  have hheaderLen : Ipv4.View.headerLen (i.answerHeader h len header ++ m) =
      (i.answerHeader h len header).length := by
    rw [hlength, ← whole, ← hwhole]
    unfold Ipv4.View.headerLen
    rw [byteAt_append_of_lt _ (by omega)]
  have hmessage : inPlace? (i.answerHeader h len header ++ m)
      (i.answerHeader h len header).length (i.answerHeader h len header ++ m).length
      Icmp.View.answer? =
        pure (i.answerHeader h len header ++ Icmp.View.retype m .echoReply 0) := by
    have hpart : inPlace? (i.answerHeader h len header ++ (m ++ [])) _ _ _ = _ :=
      inPlace?_append [] rfl rfl (Icmp.View.answer?_eq message code)
    rwa [List.append_nil, List.append_nil, ← List.length_append] at hpart
  -- All fields lie in the header, so that the message is as it was when its turn comes.
  unfold answerDatagram?
  rw [write?_append_left (by omega), pure_bind, write?_append_left (by omega), pure_bind,
    write?_append_left (by simp; omega), pure_bind, write?_append_left (by simp; omega), pure_bind,
    hheader, Ipv4.View.headerLen?_of_long (by simp; omega), pure_bind, hheaderLen, hmessage,
    pure_bind]
  exact Ipv4.View.fillChecksum?_append (by rw [hlength]; exact long)
    (by rw [hwhole, whole, hlength]) _

end Interface

/-! ## Frames -/

namespace Ethernet.View

/-- Send a frame back the way it came, from `own`. -/
def sendBack? (f : View) (own : MacAddress) : Guarded Bytes := do
  let sender ← field? f 6 6 MacAddress.readAt
  let f ← write? f 0 sender.toBytes
  write? f 6 own.toBytes

theorem sendBack?_append {f : View} {dst src back : Bytes} (own : MacAddress)
    (six : dst.length = 6) (six' : src.length = 6) (parts : f = dst ++ (src ++ back)) :
    f.sendBack? own = pure (f.src.toBytes ++ (own.toBytes ++ back)) := by
  let sender := f.src.toBytes
  have hown : own.toBytes.length = 6 := own.length_toBytes
  have hsender : sender.length = 6 := f.src.length_toBytes
  have hlength : f.length = 6 + (6 + back.length) := by
    rw [parts, List.length_append, List.length_append, six, six']
  have hdst : overwriteAt f 0 sender = sender ++ (src ++ back) := by
    rw [parts]
    exact overwriteAt_append (src ++ back) (rfl : ([] : Bytes).length = 0)
      (six.trans hsender.symm)
  have hsrc : overwriteAt (sender ++ (src ++ back)) 6 own.toBytes =
      sender ++ (own.toBytes ++ back) :=
    overwriteAt_append back hsender (six'.trans hown.symm)
  unfold sendBack?
  rw [field?_of_le (by omega), pure_bind]
  show write? f 0 sender >>= _ = _
  rw [write?_of_le (by omega), pure_bind, hdst, write?_of_le (by simp; omega), hsrc]

/-- A frame with a datagram opens with its two addresses and the type of datagrams. -/
theorem eq_of_datagram {f : View} (long : headerLen ≤ f.length) (type : f.etherType = .ipv4) :
    ∃ dst src : Bytes, dst.length = 6 ∧ src.length = 6 ∧
      f = dst ++ (src ++ (ofWord EtherType.ipv4.code ++ f.payload)) := by
  unfold headerLen at long
  have htype : slice f 12 2 = ofWord EtherType.ipv4.code := by
    rw [← ofWord_wordAt (by omega), ← type]
    unfold etherType
    rw [EtherType.code_ofCode]
  refine ⟨slice f 0 6, slice f 6 6, ?_, ?_, ?_⟩
  · rw [length_slice]
    omega
  · rw [length_slice]
    omega
  · rw [← htype]
    have hbehind : f.drop (12 + 2) = (f.drop 12).drop 2 := List.drop_drop.symm
    have hbetween : f.drop (6 + 6) = (f.drop 6).drop 6 := List.drop_drop.symm
    show f = f.take 6 ++ ((f.drop 6).take 6 ++ ((f.drop (6 + 6)).take 2 ++ f.drop (12 + 2)))
    rw [hbehind, List.take_append_drop, hbetween, List.take_append_drop, List.take_append_drop]

end Ethernet.View

namespace Interface

/-- Turn a frame with an echo request into the one with the reply, which is `finish` octets long. -/
def answerFrame? (i : Interface) (h : Ipv4.Header) (finish : Nat) (frame : Ethernet.View) :
    Guarded Bytes := do
  let frame ← frame.sendBack? i.addresses.hardware
  let len ← minus? finish Ethernet.headerLen
  let frame ← inPlace? frame Ethernet.headerLen finish (i.answerDatagram? h len)
  upTo? frame finish

/-- Answer the echo request in a frame, if it is one.  The frame that is sent back ends with what is
at hand of the datagram. -/
def echoReply? (i : Interface) (frame : Ethernet.View) (h : Ipv4.Header) :
    Guarded (Option Bytes) := do
  let packet ← from? frame Ethernet.headerLen
  Ipv4.View.check? packet
  let headerLen ← Ipv4.View.headerLen? packet
  let start := Ethernet.headerLen + headerLen
  let finish := min (start + h.payloadLen) frame.length
  let message ← between? frame start finish
  match ← Icmp.Echo.parse? message .ignored with
  | .reply _ _ => return none
  | .request _ _ => do
    let reply ← i.answerFrame? h finish frame
    return some reply

theorem answerFrame?_append (i : Interface) (h : Ipv4.Header) {frame : Ethernet.View}
    {dst src header m rest : Bytes} (six : dst.length = 6) (six' : src.length = 6)
    (parts : frame = dst ++ (src ++ (ofWord EtherType.ipv4.code ++ (header ++ m ++ rest))))
    (long : Ipv4.headerLen ≤ header.length) (whole : Ipv4.View.headerLen header = header.length)
    (message : Icmp.headerLen ≤ m.length) (code : Icmp.View.code m = 0) :
    i.answerFrame? h (14 + header.length + m.length) frame =
      pure (Ethernet.Header.encode ⟨i.addresses.hardware, frame.src, .ipv4⟩ ++
        Ipv4.View.fillChecksum (i.answerHeader h (header.length + m.length) header) ++
        Icmp.View.retype m .echoReply 0) := by
  let opening := Ethernet.Header.encode ⟨i.addresses.hardware, frame.src, .ipv4⟩
  let reply : Bytes :=
    Ipv4.View.fillChecksum (i.answerHeader h (header.length + m.length) header) ++
      Icmp.View.retype m .echoReply 0
  have hopening : opening.length = 14 := rfl
  have hreply : reply.length = header.length + m.length := by
    simp only [reply, List.length_append]
    rw [Ipv4.View.length_fillChecksum, i.length_answerHeader h _ long,
      Icmp.View.length_retype message]
  have hback : frame.sendBack? i.addresses.hardware = pure (opening ++ (header ++ m ++ rest)) := by
    rw [Ethernet.View.sendBack?_append _ six six' parts]
    simp only [opening, Ethernet.Header.encode, List.append_assoc]
  have hplace : opening.length + (header ++ m).length = 14 + header.length + m.length := by
    rw [hopening, List.length_append, Nat.add_assoc]
  have hpart := inPlace?_append rest hopening hplace
    (i.answerDatagram?_append h (header.length + m.length) long whole message code)
  have hlen : 14 + header.length + m.length - 14 = header.length + m.length := by omega
  have hfinish : 14 + header.length + m.length = (opening ++ reply).length := by
    rw [List.length_append, hopening, hreply, Nat.add_assoc]
  have hcut : (opening ++ (reply ++ rest)).take (opening ++ reply).length = opening ++ reply := by
    rw [← List.append_assoc _ reply, List.take_left]
  unfold answerFrame? Ethernet.headerLen
  rw [hback, pure_bind, minus?_of_le (by omega), pure_bind, hlen, hpart, pure_bind,
    upTo?_of_le (by rw [hfinish]; simp [reply]), hfinish, hcut, List.append_assoc]

end Interface

/-- A request has code zero. -/
theorem Icmp.Echo.code_of_parse_request {m : Icmp.View} {mode : Checksum.Mode}
    {ident seqNo : UInt16} (parsed : parse m mode = .ok (.request ident seqNo)) : m.code = 0 := by
  obtain ⟨_, -, hparsed⟩ := exists_of_bind_eq_ok parsed
  split at hparsed
  · cases hparsed
  · split at hparsed
    case isTrue hrequest => exact hrequest.2
    case isFalse => split at hparsed <;> cases hparsed

namespace Interface

/-- The parts of a frame are those of the datagram in it and of its message. -/
theorem answerFrame?_eq (i : Interface) (h : Ipv4.Header) {frame : Ethernet.View} {p : Ipv4.View}
    {m : Icmp.View} {n : Nat} (carried : frame.payload = p) (cut : p.payload.take n = m)
    (checked : p.check = .ok ()) (type : frame.etherType = .ipv4)
    (message : Icmp.headerLen ≤ m.length) (code : m.code = 0) :
    i.answerFrame? h (14 + p.headerLen + m.length) frame =
      pure (Ethernet.Header.encode ⟨i.addresses.hardware, frame.src, .ipv4⟩ ++
        Ipv4.View.fillChecksum (i.answerHeader h (p.headerLen + m.length) p.header) ++
        m.retype .echoReply 0) := by
  obtain ⟨hlong, hthere, -⟩ := Ipv4.View.check_eq_ok checked
  have hheader : p.header.length = p.headerLen := List.length_take_of_le hthere
  have hframe : Ethernet.headerLen ≤ frame.length := by
    have hpayload : frame.payload.length = frame.length - Ethernet.headerLen := List.length_drop
    rw [carried] at hpayload
    unfold Ipv4.headerLen at hlong
    omega
  -- Behind the message there may be padding, which is not sent back.
  have hparts : p = p.header ++ m ++ p.payload.drop n := by
    rw [← cut, List.append_assoc, List.take_append_drop]
    exact (List.take_append_drop p.headerLen p).symm
  obtain ⟨dst, src, hdst, hsrc, hwhole⟩ := Ethernet.View.eq_of_datagram hframe type
  rw [carried, hparts] at hwhole
  have hanswer := i.answerFrame?_append h hdst hsrc hwhole (hheader ▸ hlong)
    (Ipv4.View.headerLen_header checked) message code
  rwa [hheader] at hanswer

theorem echoReply?_eq (i : Interface) {frame : Ethernet.View} {h : Ipv4.Header}
    (parsed : Ipv4.Header.parse frame.payload .manual = .ok h) (type : frame.etherType = .ipv4) :
    i.echoReply? frame h = of (i.echoReply frame h) := by
  let p : Ipv4.View := frame.payload
  let message : Icmp.View := p.payload.take h.payloadLen
  have hcheck : p.check = .ok () := (Ipv4.Header.parse_eq_ok parsed).1
  obtain ⟨hlong, hthere, -⟩ := Ipv4.View.check_eq_ok hcheck
  unfold Ipv4.headerLen at hlong
  have hp : p.length = frame.length - 14 := List.length_drop
  have hpayload : p.payload.length = p.length - p.headerLen := List.length_drop
  have hmessage : message.length = min h.payloadLen p.payload.length := List.length_take
  -- The reply ends with what is at hand of the message.
  have hfinish : min (14 + p.headerLen + h.payloadLen) frame.length =
      14 + p.headerLen + message.length := by omega
  have hpart : slice frame (14 + p.headerLen) message.length = message := by
    have hdrop : frame.drop (14 + p.headerLen) = p.payload := List.drop_drop.symm
    unfold slice
    rw [hdrop, List.take_eq_take_iff]
    omega
  unfold echoReply? echoReply
  rw [from?_of_le (by unfold Ethernet.headerLen; omega), pure_bind]
  show Ipv4.View.check? p >>= _ = _
  rw [Ipv4.View.check?_eq, hcheck, of_ok, pure_bind]
  show Ipv4.View.headerLen? p >>= _ = _
  rw [Ipv4.View.headerLen?_of_long (by omega), pure_bind]
  unfold Ethernet.headerLen
  dsimp only
  rw [hfinish, between?_of_le (by omega) (by omega), pure_bind, Nat.add_sub_cancel_left, hpart,
    Icmp.Echo.parse?_eq]
  apply of_bind_congr
  intro echo hecho
  cases echo with
  | reply => rfl
  | request ident seqNo =>
    have hanswer := i.answerFrame?_eq h rfl rfl hcheck type (Icmp.Echo.long_of_parse hecho)
      (Icmp.Echo.code_of_parse_request hecho)
    show (i.answerFrame? h (14 + p.headerLen + message.length) frame >>= _) = _
    rw [hanswer]
    rfl

end Interface

end NetEngine
