import NetEngine.Error
import NetEngine.Source

/-! # Links

    A link takes frames from the network and puts frames on it.

    - **Arrival**: of a frame that has arrived the link hands out the first
      octets only, as many as there is room for.  It keeps the frame until it is
      told that the frame is done, and meanwhile reads from any place of it.
    - **Transmission**: the sender gives the headers.  The payload is appended by
      the link, which pulls it from a source.
    - **ChecksumSet**: the link computes checksums on request, and tells which
      checksums of an arrived frame it has found correct. -/

namespace NetEngine

/-- A set of checksums that a link has computed, or shall compute. -/
structure ChecksumSet where
  ipv4 : Bool := false
  icmp : Bool := false
  tcp : Bool := false
  udp : Bool := false
  /-- The user datagram comes from a server that hands out addresses. -/
  dhcp : Bool := false
deriving DecidableEq

namespace ChecksumSet

/-- No checksum. -/
def none : ChecksumSet := {}

/-- The set as bits, one for each member. -/
def toBits (c : ChecksumSet) : UInt8 :=
  UInt8.ofNat (c.ipv4.toNat + 2 * c.icmp.toNat + 4 * c.tcp.toNat + 8 * c.udp.toNat +
    16 * c.dhcp.toNat)

/-- The set with given bits. -/
def ofBits (b : UInt8) : ChecksumSet where
  ipv4 := b.toNat.testBit 0
  icmp := b.toNat.testBit 1
  tcp := b.toNat.testBit 2
  udp := b.toNat.testBit 3
  dhcp := b.toNat.testBit 4

@[simp] theorem ofBits_toBits (c : ChecksumSet) : ofBits c.toBits = c := by
  rcases c with ⟨_ | _, _ | _, _ | _, _ | _, _ | _⟩ <;> rfl

end ChecksumSet

/-- A frame that has arrived. -/
structure Arrival where
  /-- The length of the whole frame. -/
  length : Nat
  /-- The checksums that the link has found correct. -/
  checksums : ChecksumSet
  /-- The first octets of the frame. -/
  resident : Bytes

/-- A payload that the link pulls from a source. -/
structure Body where
  source : Supplier
  /-- The place in the source at which the payload starts. -/
  offset : Nat

/-- What every link can do. -/
class Link (L : Type) where
  /-- Take the next frame, with room for `capacity` octets of it. -/
  receive (link : L) (capacity : Nat) : Option Arrival × L
  /-- Octets of the frame taken last, from `offset` on. -/
  readFrom (link : L) (offset n : Nat) : Bytes
  /-- Let go of the frame taken last. -/
  done (link : L) : L
  /-- Send a frame of `length` octets, whose first ones are `headers`. -/
  transmit (link : L) (headers : Bytes) (length : Nat) (checksums : ChecksumSet)
    (body : Option Body) : Except NetError Unit × L
  /-- The number of frames that have arrived and wait. -/
  waiting (link : L) : Nat
  /-- The reading of the timer that runs beside the link, zero if there is none. -/
  now (link : L) : Nat

end NetEngine
