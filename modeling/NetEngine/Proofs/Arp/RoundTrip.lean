import NetEngine.Proofs.Bounds.Overwriting
import NetEngine.Proofs.Link.Pulling

/-! # Address Resolution Packets Are Read as They Were Written

    A packet is read if its first octets tell that two stations of an Ethernet
    speak IPv4, and that one of them asks or replies.  These octets are the same
    in every packet, and the addresses fill what is left, so that what has been
    read is written again octet for octet.

    * **Fields**: the octets of an address that is read.
    * **Reading**: what the octets of a packet that is read have to be.
    * **Writing**: nothing of the buffer is left in the packet, nothing behind it
      is touched, and the packet is read again.
    * **Answers**: a reply is the request with its addresses exchanged. -/

namespace NetEngine

/-! ## Fields -/

section Fields

variable {b : Bytes} {i : Nat}

theorem slice_succ (inside : i < b.length) (n : Nat) :
    slice b i (n + 1) = byteAt b i :: slice b (i + 1) n := by
  unfold slice
  rw [List.drop_eq_getElem_cons inside, List.take_succ_cons, byteAt_of_lt inside]

theorem MacAddress.toBytes_readAt (inside : i + 6 ≤ b.length) :
    (readAt b i).toBytes = slice b i 6 := by
  rw [slice_succ (by omega), slice_succ (by omega), slice_succ (by omega), slice_succ (by omega),
    slice_succ (by omega), slice_succ (by omega), slice_none]
  rfl

theorem Ipv4Address.toBytes_readAt (inside : i + 4 ≤ b.length) :
    (readAt b i).toBytes = slice b i 4 := by
  rw [slice_succ (by omega), slice_succ (by omega), slice_succ (by omega), slice_succ (by omega),
    slice_none]
  rfl

end Fields

/-! ## Reading -/

theorem EtherType.ofCode_eq_ipv4_iff {c : UInt16} : ofCode c = .ipv4 ↔ c = 0x0800 := by
  unfold ofCode
  split
  · simp_all
  · split <;> simp_all

namespace Arp

theorem Hardware.ofCode_eq_ethernet_iff {c : UInt16} : ofCode c = .ethernet ↔ c = 1 := by
  unfold ofCode
  split <;> simp_all

namespace Operation

theorem ofCode_eq_request_iff {c : UInt16} : ofCode c = .request ↔ c = 1 := by
  unfold ofCode
  split
  · simp_all
  · split <;> simp_all

theorem ofCode_eq_reply_iff {c : UInt16} : ofCode c = .reply ↔ c = 2 := by
  unfold ofCode
  split
  · simp_all
  · split <;> simp_all

end Operation

namespace View

variable {p : View}

/-- The octets tell a packet that is spoken here. -/
structure Readable (p : View) : Prop where
  long : 28 ≤ p.length
  hardware : wordAt p 0 = 1
  protocol : wordAt p 2 = 0x0800
  hardwareLen : byteAt p 4 = 6
  protocolLen : byteAt p 5 = 4
  operation : wordAt p 6 = 1 ∨ wordAt p 6 = 2

theorem check_eq_ok_iff : p.check = .ok () ↔ 28 ≤ p.length := by
  unfold check packetLen
  split
  · simp_all
  · simp_all

/-- The octets tell so if the fields have been found right. -/
theorem readable_iff : p.Readable ↔ p.check = .ok () ∧
    (p.hardware = .ethernet ∧ p.protocol = .ipv4 ∧ p.hardwareLen = 6 ∧ p.protocolLen = 4 ∧
      (p.operation = .request ∨ p.operation = .reply)) := by
  unfold hardware protocol hardwareLen protocolLen operation
  rw [check_eq_ok_iff, Hardware.ofCode_eq_ethernet_iff, EtherType.ofCode_eq_ipv4_iff,
    Operation.ofCode_eq_request_iff, Operation.ofCode_eq_reply_iff]
  constructor
  · rintro ⟨long, hardware, protocol, hardwareLen, protocolLen, operation⟩
    exact ⟨long, hardware, protocol, hardwareLen, protocolLen, operation⟩
  · rintro ⟨long, hardware, protocol, hardwareLen, protocolLen, operation⟩
    exact ⟨long, hardware, protocol, hardwareLen, protocolLen, operation⟩

end View

namespace Packet

variable {p : View} {r : Packet} {buffer : Bytes}

/-- **What is read is told by the octets.** -/
theorem parse_eq_ok_iff : parse p = .ok r ↔
    p.Readable ∧ r = ⟨p.operation, .readAt p 8, .readAt p 14, .readAt p 18, .readAt p 24⟩ := by
  rw [View.readable_iff]
  constructor
  · intro parsed
    obtain ⟨_, hcheck, hfields⟩ := exists_of_bind_eq_ok parsed
    split at hfields
    · rename_i hspoken
      cases hfields
      exact ⟨⟨hcheck, hspoken⟩, rfl⟩
    · cases hfields
  · rintro ⟨⟨hcheck, hspoken⟩, rfl⟩
    unfold parse
    rw [hcheck]
    exact if_pos hspoken

/-! ## Writing -/

theorem emit_eq (r : Packet) (buffer : Bytes) : r.emit buffer = r.encode ++ buffer.drop 28 := rfl

theorem ofCode_code_of_spoken (spoken : r.operation = .request ∨ r.operation = .reply) :
    Operation.ofCode r.operation.code = r.operation := by
  rcases spoken with h | h <;> rw [h] <;> rfl

/-- **A request or a reply is read as it has been written**, whatever follows. -/
theorem parse_encode_append (spoken : r.operation = .request ∨ r.operation = .reply)
    (rest : Bytes) : parse (r.encode ++ rest) = .ok r := by
  -- The octets in front of the addresses are known, and the addresses are taken apart by computing.
  have hhardware : wordAt (r.encode ++ rest) 0 = 1 := word_div_mod _
  have hprotocol : wordAt (r.encode ++ rest) 2 = 0x0800 := word_div_mod _
  have hoperation : wordAt (r.encode ++ rest) 6 = r.operation.code := word_div_mod _
  have hread : View.operation (r.encode ++ rest) = r.operation := by
    unfold View.operation
    rw [hoperation, ofCode_code_of_spoken spoken]
  rw [parse_eq_ok_iff, hread]
  refine ⟨?_, rfl⟩
  constructor
  case long =>
    rw [List.length_append, length_encode]
    exact Nat.le_add_right _ _
  case hardware => exact hhardware
  case protocol => exact hprotocol
  case hardwareLen => rfl
  case protocolLen => rfl
  case operation =>
    rw [hoperation]
    rcases spoken with h | h <;> rw [h]
    · exact .inl rfl
    · exact .inr rfl

theorem parse_encode (spoken : r.operation = .request ∨ r.operation = .reply) :
    parse r.encode = .ok r := by
  rw [← List.append_nil r.encode]
  exact parse_encode_append spoken []

/-- **What has been read is written as it was.** -/
theorem encode_of_parse (parsed : parse p = .ok r) : r.encode = slice p 0 28 := by
  obtain ⟨⟨long, hardware, protocol, hardwareLen, protocolLen, -⟩, rfl⟩ := parse_eq_ok_iff.mp parsed
  have hlengths : [byteAt p 4, byteAt p 5] = slice p 4 2 := by
    rw [slice_succ (by omega), slice_succ (by omega), slice_none]
  unfold encode View.operation Hardware.code EtherType.code
  rw [Operation.code_ofCode, ← hardware, ← protocol, ← hardwareLen, ← protocolLen, hlengths]
  dsimp only
  rw [ofWord_wordAt (by omega), ofWord_wordAt (by omega), ofWord_wordAt (by omega),
    MacAddress.toBytes_readAt (by omega), MacAddress.toBytes_readAt (by omega),
    Ipv4Address.toBytes_readAt (by omega), Ipv4Address.toBytes_readAt (by omega)]
  -- The fields stand side by side.
  rw [slice_append_slice, slice_append_slice, slice_append_slice, slice_append_slice,
    slice_append_slice, slice_append_slice, slice_append_slice]

/-! ## Answers -/

/-- **An answer is the request with its addresses exchanged**, the one asked for filled in. -/
theorem encode_answer_of_parse (parsed : parse p = .ok r) (hardware : MacAddress) :
    (r.answer hardware).encode = slice p 0 6 ++ [0, 2] ++ hardware.toBytes ++ slice p 24 4 ++
      slice p 8 6 ++ slice p 14 4 := by
  obtain ⟨readable, hr⟩ := parse_eq_ok_iff.mp parsed
  have hlong := readable.long
  have hfront : slice r.encode 0 6 =
      ofWord Hardware.ethernet.code ++ ofWord EtherType.ipv4.code ++ [6, 4] := rfl
  have hreply : ofWord Operation.reply.code = [0, 2] := by decide
  unfold encode answer
  dsimp only
  rw [← hfront, hreply, encode_of_parse parsed, hr]
  dsimp only
  rw [MacAddress.toBytes_readAt (by omega), Ipv4Address.toBytes_readAt (by omega),
    Ipv4Address.toBytes_readAt (by omega)]
  -- What stands in front of the operation has not been touched.
  congr 5
  exact List.take_take

/-! ## Both ways -/

/-- What can be relied on between those who write packets and those who read them. -/
structure ReadsAsWritten : Prop where
  /-- The octets of which a packet is read. -/
  accepts : ∀ p : View, 28 ≤ p.length → ((∃ r, parse p = .ok r) ↔
    wordAt p 0 = 1 ∧ wordAt p 2 = 0x0800 ∧ byteAt p 4 = 6 ∧ byteAt p 5 = 4 ∧
      (wordAt p 6 = 1 ∨ wordAt p 6 = 2))
  /-- What has been read is written as it was, and over nothing else. -/
  rewrites : ∀ (p : View) (r : Packet) (buffer : Bytes), parse p = .ok r → 28 ≤ buffer.length →
    r.emit buffer = p.take 28 ++ buffer.drop 28
  /-- What has been written is read. -/
  readsBack : ∀ (r : Packet) (buffer : Bytes), r.operation = .request ∨ r.operation = .reply →
    28 ≤ buffer.length → parse (r.emit buffer) = .ok r
  /-- An answer is read as a reply to who has asked, from whom has been asked for. -/
  answers : ∀ (p : View) (r : Packet) (hardware : MacAddress) (buffer : Bytes),
    parse p = .ok r → r.operation = .request → 28 ≤ buffer.length →
      parse ((r.answer hardware).emit buffer) = .ok
        { operation := .reply
          srcHardware := hardware
          srcProtocol := r.dstProtocol
          dstHardware := r.srcHardware
          dstProtocol := r.srcProtocol }
  /-- Its octets are those of the request, at other places. -/
  answersInPlace : ∀ (p : View) (r : Packet) (hardware : MacAddress) (buffer : Bytes),
    parse p = .ok r → 28 ≤ buffer.length → (r.answer hardware).emit buffer =
      slice p 0 6 ++ [0, 2] ++ hardware.toBytes ++ slice p 24 4 ++ slice p 8 6 ++ slice p 14 4 ++
        buffer.drop 28

/-- **Packets are read exactly where they are told, and as they have been written.** -/
theorem octets_exact : ReadsAsWritten := by
  constructor
  case accepts =>
    intro p long
    constructor
    · rintro ⟨r, parsed⟩
      obtain ⟨readable, -⟩ := parse_eq_ok_iff.mp parsed
      exact ⟨readable.hardware, readable.protocol, readable.hardwareLen, readable.protocolLen,
        readable.operation⟩
    · rintro ⟨hardware, protocol, hardwareLen, protocolLen, operation⟩
      exact ⟨_, parse_eq_ok_iff.mpr
        ⟨⟨long, hardware, protocol, hardwareLen, protocolLen, operation⟩, rfl⟩⟩
  case rewrites =>
    intro p r buffer parsed _
    rw [emit_eq, encode_of_parse parsed]
    rfl
  case readsBack => exact fun r buffer spoken _ => parse_encode_append spoken (buffer.drop 28)
  case answers => exact fun p r hardware buffer _ _ _ =>
    parse_encode_append (.inr rfl) (buffer.drop 28)
  case answersInPlace =>
    intro p r hardware buffer parsed _
    rw [emit_eq, encode_answer_of_parse parsed]

end Packet

end Arp

end NetEngine
