import NetEngine.Tcp.Machine

/-! # Sending Data

    The data of a source goes out in segments no larger than the peer takes.  A
    segment counts as sent, and is tracked if that is wanted, before it is
    handed to the link.

    - **Piece**: what goes out in one segment.
    - **Heap**: what is lent is tracked as a copy, if there is memory for it. -/

namespace NetEngine.Tcp

/-- A piece of a source: where it starts and how long it is. -/
structure Piece where
  offset : Nat
  len : Nat
deriving DecidableEq

/-- The pieces of at most `size` octets into which the octets from `offset` on are cut. -/
def pieces (size offset rest : Nat) : List Piece :=
  if size = 0 ∨ rest = 0 then []
  else
    let len := min rest size
    ⟨offset, len⟩ :: pieces size (offset + len) (rest - len)
  termination_by rest
  decreasing_by omega

/-- The memory that copies are made in while a call lasts.  It may be used up at any piece. -/
structure Heap where
  /-- Is there room for a segment of `size` octets, whose payload is the piece `p`? -/
  hasRoom : (p : Piece) → (size : Nat) → Bool

namespace Heap

/-- Memory without end. -/
def boundless : Heap := ⟨fun _ _ => true⟩

/-- Can a piece be kept?  Only what is lent and tracked has to be copied, header and all. -/
def holds (heap : Heap) (source : Source) (tracked : Bool) (p : Piece) : Bool :=
  match source, tracked with
  | .lent _, true => heap.hasRoom p (headerLen + p.len)
  | _, _ => true

@[simp] theorem holds_boundless (source : Source) (tracked : Bool) (p : Piece) :
    boundless.holds source tracked p := by
  cases source <;> cases tracked <;> rfl

end Heap

/-- What is kept of a segment whose payload comes from a source. -/
def Kept.ofSource (source : Source) (segment : Segment) (offset : Nat) : Kept :=
  match source with
  | .generator g => .generated g offset segment.seq segment.payloadLen
  | .lent d =>
    let payload := readInto (List.replicate segment.payloadLen 0)
      (d.supply offset segment.payloadLen).bytes
    .copy (segment.encode ++ payload)

/-- Send a piece of a source. -/
def Machine.sendPiece (m : Machine) (role : Role) (source : Source) (tracked : Bool) (p : Piece) :
    Step :=
  let c := m.conn role
  let segment := c.segment c.lastSent .ACK p.len
  let sent := m.setConn role { c with age := m.policy.maxAge, lastSent := c.lastSent + p.len }
  { machine :=
      if tracked then sent.track role c.lastSent p.len (.ofSource source segment p.offset) else sent
    out := some (.fresh c.remoteAddr segment (some ⟨source.data, p.offset⟩)) }

end NetEngine.Tcp
