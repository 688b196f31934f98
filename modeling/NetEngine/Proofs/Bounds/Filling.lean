import NetEngine.Proofs.Bounds.Echo
import NetEngine.Proofs.Bounds.Transports
import NetEngine.Proofs.Link.Filling

/-! # Checksums Are Written Inside

    The link writes a checksum where its protocol has it, and does not ask whether the
    packet reaches that far.  Whoever asks for the checksum has to see to it.

    * **Fields**: to clear a field, to sum, and to write the sum.
    * **Frames**: where the packet reaches over the field that is asked for, no access
      lies outside, and the frame is the same as without guards. -/

namespace NetEngine

open Guarded
open Ipv4 (View)

/-! ## Fields -/

/-- Clear the field at index `k`, and write there what `sum` tells of the octets. -/
def Guarded.writeSum? (b : Bytes) (k : Nat) (sum : Bytes → Guarded UInt16) : Guarded Bytes := do
  let cleared ← write? b k (ofWord 0)
  let w ← sum cleared
  write? cleared k (ofWord w)

theorem Guarded.writeSum?_of_within {b : Bytes} {k : Nat} {sum : Bytes → Guarded UInt16}
    {w : UInt16} (within : k + 2 ≤ b.length) (told : sum (putWord b k 0) = pure w) :
    writeSum? b k sum = pure (putWord (putWord b k 0) k w) := by
  unfold writeSum?
  rw [write?_of_le (by simpa using within), pure_bind, ← putWord_eq_overwriteAt (by omega), told,
    pure_bind, write?_of_le (by simpa using within), ← putWord_eq_overwriteAt (by simp; omega)]

/-- The checksum of a user datagram, over what is at hand of it. -/
def Udp.View.summed? (p : Udp.View) (src dst : Ipv4Address) : Guarded UInt16 := do
  let len ← p.lenField?
  let covered ← upTo? p (min len.toNat p.length)
  return nonzero (~~~p.sum src dst covered)

theorem Udp.View.summed?_of_long {p : Udp.View} (long : Udp.headerLen ≤ p.length)
    (src dst : Ipv4Address) :
    p.summed? src dst = pure (nonzero (~~~p.sum src dst (p.take p.lenField.toNat))) := by
  have hcovered : p.take (min p.lenField.toNat p.length) = p.take p.lenField.toNat := by
    rw [List.take_eq_take_iff]
    omega
  unfold summed?
  rw [Udp.View.lenField?_of_long long, pure_bind, upTo?_of_le (Nat.min_le_right _ _), pure_bind,
    hcovered]

/-! ## Frames -/

namespace Offload

variable {p : View} {c : ChecksumSet} {frame packet : Bytes}

/-- Write the checksum of a transport packet, if it is asked for. -/
def fillTransport? (p : View) (c : ChecksumSet) (packet : Bytes) : Guarded Bytes :=
  if p.protocol = .icmp ∧ c.icmp then writeSum? packet 2 fun b => return ~~~Checksum.ofBytes b
  else if p.protocol = .udp ∧ c.udp then
    writeSum? packet 6 fun b => Udp.View.summed? b p.src p.dst
  else if p.protocol = .tcp ∧ c.tcp then
    writeSum? packet 16 fun b => return (segmentSum p b outboundPiece).field
  else return packet

/-- Write the checksum of a header, if it is asked for. -/
def fillHeader? (p : View) (c : ChecksumSet) : Guarded Bytes :=
  if c.ipv4 then p.fillChecksum? else pure p

/-- Write the checksums of a frame that are asked for, each in its place in the datagram. -/
def fill? (frame : Bytes) (c : ChecksumSet) : Guarded Bytes :=
  match datagram? frame with
  | none => return frame
  | some p =>
    inPlace? frame Ethernet.headerLen (Ethernet.headerLen + p.length) fun datagram => do
      let summed ← fillHeader? datagram c
      let headerLen ← View.headerLen? summed
      inPlace? summed headerLen summed.length (fillTransport? p c)

/-- A packet in the frame reaches over the checksum that is asked for. -/
def FieldsWithin (frame : Bytes) (c : ChecksumSet) : Prop :=
  ∀ p k, datagram? frame = some p → transportField? c p.protocol = some k →
    k + 2 ≤ p.payload.length

theorem fillTransport?_of_within
    (within : ∀ k, transportField? c p.protocol = some k → k + 2 ≤ packet.length) :
    fillTransport? p c packet = pure (fillTransport p c packet) := by
  unfold transportField? at within
  unfold fillTransport? fillTransport
  split
  case isTrue hicmp =>
    rw [if_pos hicmp] at within
    exact writeSum?_of_within (within _ rfl) rfl
  case isFalse hicmp =>
    rw [if_neg hicmp] at within
    split
    case isTrue hudp =>
      rw [if_pos hudp] at within
      -- The checksum is the last field of the header, so that nothing else is missing.
      have hlong : Udp.headerLen ≤ (putWord packet 6 0).length := by
        rw [length_putWord]
        exact within _ rfl
      rw [writeSum?_of_within (within _ rfl) (Udp.View.summed?_of_long hlong p.src p.dst),
        Udp.View.lenField_putWord]
      rfl
    case isFalse hudp =>
      rw [if_neg hudp] at within
      split
      case isTrue htcp =>
        rw [if_pos htcp] at within
        exact writeSum?_of_within (within _ rfl) rfl
      case isFalse => rfl

/-- The header is written over in front of its packet. -/
theorem fillHeader?_eq (checked : p.check = .ok ()) (c : ChecksumSet) :
    fillHeader? p c = pure (summedHeader p c ++ p.payload) := by
  obtain ⟨hlong, hthere, -⟩ := View.check_eq_ok checked
  let hd : View := p.header
  have hparts : hd ++ p.payload = p := List.take_append_drop _ _
  unfold fillHeader? summedHeader
  split
  · have hlength : hd.length = p.headerLen := List.length_take_of_le hthere
    have hwhole : hd.headerLen = hd.length := View.headerLen_header checked
    have hself : hd.header = hd := View.header_of_whole hwhole
    have hfilled : hd.fillChecksum.header = hd.fillChecksum := by
      apply View.header_of_whole
      rw [View.headerLen_fillChecksum, hwhole, View.length_fillChecksum]
    -- The checksum is that of the header, be it cut off before or after it is written.
    have h := View.fillChecksum?_append (by rwa [hlength]) hwhole p.payload
    rw [hparts, ← hfilled, View.header_fillChecksum, hself] at h
    rw [h, View.header_fillChecksum]
  · exact congrArg pure hparts.symm

/-- **Checksums are written inside**, if the packet reaches over the one that is asked for. -/
theorem fill?_of_within (within : FieldsWithin frame c) : fill? frame c = pure (fill frame c) := by
  unfold fill?
  cases hfound : datagram? frame with
  | none =>
    unfold fill
    rw [hfound]
  | some p =>
    obtain ⟨front, back, rfl, length, -, checked, -⟩ := eq_append_of_datagram? hfound
    obtain ⟨hlong, -, -⟩ := View.check_eq_ok checked
    unfold Ipv4.headerLen at hlong
    have hheader := length_summedHeader c checked
    have hheaderLen : View.headerLen (summedHeader p c ++ p.payload) =
        (summedHeader p c).length := by
      rw [hheader]
      unfold View.headerLen
      rw [byteAt_append_of_lt _ (by omega), byteAt_summedHeader c (by omega) fun _ => by decide]
    -- The packet is found behind the header that has just been written over.
    have hpacket : inPlace? (summedHeader p c ++ (p.payload ++ [])) (summedHeader p c).length
        ((summedHeader p c).length + p.payload.length) (fillTransport? p c) =
          pure (summedHeader p c ++ (fillTransport p c p.payload ++ [])) :=
      inPlace?_append [] rfl rfl (fillTransport?_of_within fun k => within p k hfound)
    rw [List.append_nil, List.append_nil, ← List.length_append] at hpacket
    rw [fill_append length hfound]
    refine inPlace?_append back length ?_ ?_
    · rw [length]
    · rw [fillHeader?_eq checked c, pure_bind, View.headerLen?_of_long (by simp; omega), pure_bind,
        hheaderLen, hpacket]
      rfl

end Offload

end NetEngine
