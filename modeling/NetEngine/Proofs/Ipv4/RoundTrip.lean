import NetEngine.Proofs.Checksum.Streaming
import NetEngine.Proofs.Link.Checking

/-! # Headers of Datagrams Are Read as They Were Written

    A header is read wherever its octets tell one, options and all, and nothing
    else is read.  A header that is written takes the place of the first twenty
    octets of a buffer, whatever stood there.

    * **Fragments**: two fields tell a fragment, and the offset is read with its
      high bits cut off.  None of the bits that matter is among them.
    * **Reading**: what the octets of a header that is read have to be.
    * **Writing**: nothing of the buffer is left in the header, and the header is
      read again. -/

namespace NetEngine.Ipv4

open Checksum (OnesSum)

/-! ## Fragments -/

namespace View

variable {p : View}

theorem moreFragments_eq_false_iff :
    p.moreFragments = false ↔ (wordAt p 6).toNat.testBit 13 = false := by
  unfold moreFragments
  rw [Nat.testBit_eq_decide_div_mod_eq]

/-- The offset counts eights of octets in thirteen bits, which is as many as are left. -/
theorem fragmentOffset_eq_zero_iff : p.fragmentOffset = 0 ↔ (wordAt p 6).toNat % 8192 = 0 := by
  unfold fragmentOffset
  rw [← UInt16.toNat_inj, UInt16.toNat_ofNat']
  show _ * 8 % 65536 = 0 ↔ _
  omega

/-- The octets tell a header that can be read. -/
structure Readable (p : View) : Prop where
  long : 20 ≤ p.length
  version : p.version = 4
  header : 20 ≤ p.headerLen
  there : p.headerLen ≤ p.length
  total : p.headerLen ≤ p.totalLen
  /-- The octets of the header, and no others, sum to all ones. -/
  intact : OnesSum (p.take p.headerLen) 0xffff
  last : (wordAt p 6).toNat.testBit 13 = false
  first : (wordAt p 6).toNat % 8192 = 0

theorem verifyChecksum_iff : p.verifyChecksum ↔ OnesSum (p.take p.headerLen) 0xffff := by
  unfold verifyChecksum header Checksum.isIntact
  rw [decide_eq_true_iff]
  exact Checksum.ofBytes_eq_iff

end View

namespace Header

variable {h : Header} {ident : UInt16} {mode written : Checksum.Mode} {buffer : Bytes}

/-! ## Reading -/

/-- **What is read is told by the octets.** -/
theorem parse_eq_ok_iff {p : View} : parse p .manual = .ok h ↔
    p.Readable ∧ h = ⟨p.src, p.dst, p.protocol, p.totalLen - p.headerLen, p.hopLimit⟩ := by
  constructor
  · intro parsed
    obtain ⟨hcheck, hversion, hintact, hlast, hfirst, hh⟩ := parse_eq_ok parsed
    obtain ⟨hlong, hthere, htotal⟩ := View.check_eq_ok hcheck
    refine ⟨?_, hh⟩
    constructor
    case long => exact Nat.le_trans hlong hthere
    case version => exact hversion
    case header => exact hlong
    case there => exact hthere
    case total => exact htotal
    case intact => exact View.verifyChecksum_iff.mp (hintact rfl)
    case last => exact View.moreFragments_eq_false_iff.mp hlast
    case first => exact View.fragmentOffset_eq_zero_iff.mp hfirst
  · rintro ⟨readable, rfl⟩
    apply parse_of_intact
    · exact View.check_of_lengths readable.header readable.there readable.total
    · exact readable.version
    · exact fun _ => View.verifyChecksum_iff.mpr readable.intact
    · exact View.moreFragments_eq_false_iff.mpr readable.last
    · exact View.fragmentOffset_eq_zero_iff.mpr readable.first

/-! ## Writing -/

/-- The checksum field of a header that is written. -/
def sumField (h : Header) (ident : UInt16) : Checksum.Mode → UInt16
  | .manual => h.checksum ident
  | .ignored => 0

theorem encode_eq_encodeSummed (h : Header) (ident : UInt16) (mode : Checksum.Mode) :
    h.encode ident mode = h.encodeSummed ident (h.sumField ident mode) := by
  cases mode with
  | manual =>
    have hfill := fillChecksum_encodeUnsummed h ident []
    rwa [List.append_nil, List.append_nil] at hfill
  | ignored =>
    have hzero : ofWord 0 = [0, 0] := by decide
    unfold encode encodeSummed sumField
    rw [hzero]
    rfl

theorem drop_emit (h : Header) (ident : UInt16) (mode : Checksum.Mode) (buffer : Bytes) :
    (h.emit ident mode buffer).drop headerLen = buffer.drop headerLen := by
  unfold emit overwrite
  rw [length_encode]
  exact List.drop_left' (length_encode h ident mode)

/-- **A header is read as it has been written**, whatever stood in the buffer.  The sum is there for
who asks for it if it has been written. -/
theorem parse_written (canonical : .ofCode h.protocol.code = h.protocol)
    (fits : headerLen + h.payloadLen < 65536) (summed : mode = .manual → written = .manual) :
    parse (h.emit ident written buffer) mode = .ok h := by
  let rest := buffer.drop (h.encode ident written).length
  have hemit : h.emit ident written buffer =
      h.encodeSummed ident (h.sumField ident written) ++ rest := by
    rw [← encode_eq_encodeSummed]
    rfl
  have hleads := leads_encodeSummed canonical fits ident (h.sumField ident written)
  have hintact : mode = .manual →
      Checksum.isIntact (h.encodeSummed ident (h.sumField ident written)) := by
    intro hmode
    rw [summed hmode]
    exact isIntact_encodeSummed canonical fits ident
  rw [hemit, hleads.parse_append hintact rest]
  rfl

/-! ## Both ways -/

/-- What can be relied on between those who write headers and those who read them. -/
structure ReadsAsWritten : Prop where
  /-- The octets that are read, and what is read. -/
  reads : ∀ (p : View) (h : Header), parse p .manual = .ok h ↔
    p.Readable ∧ h = ⟨p.src, p.dst, p.protocol, p.totalLen - p.headerLen, p.hopLimit⟩
  /-- A header is written over twenty octets of a buffer. -/
  keeps : ∀ (h : Header) (ident : UInt16) (written : Checksum.Mode) (buffer : Bytes),
    20 ≤ buffer.length → (h.emit ident written buffer).length = buffer.length ∧
      (h.emit ident written buffer).drop 20 = buffer.drop 20
  /-- What has been written is read, and its checksum is correct if it was asked for. -/
  readsBack : ∀ (h : Header) (ident : UInt16) (written mode : Checksum.Mode) (buffer : Bytes),
    h.payloadLen ≤ 65515 → .ofCode h.protocol.code = h.protocol → 20 ≤ buffer.length →
      (mode = .manual → written = .manual) → parse (h.emit ident written buffer) mode = .ok h

/-- **Headers are read exactly where they are told, and as they have been written.** -/
theorem reads_as_written : ReadsAsWritten := by
  constructor
  case reads => exact fun _ _ => parse_eq_ok_iff
  case keeps =>
    intro h ident written buffer room
    refine ⟨length_overwrite ?_, drop_emit h ident written buffer⟩
    rwa [length_encode]
  case readsBack =>
    intro h ident written mode buffer short canonical room summed
    have hfits : headerLen + h.payloadLen < 65536 := by
      unfold headerLen
      omega
    exact parse_written canonical hfits summed

/-- Nothing is left of a buffer that was filled before. -/
example : parse (emit ⟨⟨17, 18, 19, 20⟩, ⟨33, 34, 35, 36⟩, .udp, 4, 64⟩ 7 .manual
    (List.replicate 24 0xa5)) .manual =
      .ok ⟨⟨17, 18, 19, 20⟩, ⟨33, 34, 35, 36⟩, .udp, 4, 64⟩ := by
  rfl

end Header

end NetEngine.Ipv4
