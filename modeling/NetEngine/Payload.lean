import NetEngine.Link

/-! # Received Payloads

    What a frame carries for the application is a **payload**: its first octets
    came with the headers, the others are read from the link.  A reader need not
    know where they are. -/

namespace NetEngine

/-- A payload within the frame that a link has handed out. -/
structure Payload (L : Type) where
  /-- The first octets. -/
  resident : Bytes
  /-- The length of the whole payload. -/
  len : Nat
  /-- The place in the frame at which it starts. -/
  offset : Nat
  /-- The link, as it was when the frame was handed out. -/
  link : L

namespace Payload

variable {L : Type}

/-- The payload of `len` octets at `offset`, whose first octets are those of `octets`. -/
def ofResident (octets : Bytes) (len offset : Nat) (link : L) : Payload L :=
  ⟨octets.take len, len, offset, link⟩

def isEmpty (p : Payload L) : Bool := p.len = 0

/-- Are all octets resident? -/
def isComplete (p : Payload L) : Bool := p.resident.length = p.len

/-- Up to `n` octets of the payload, from `start` on. -/
def readAt [Link L] (p : Payload L) (start n : Nat) : Bytes :=
  let wanted := min n (p.len - start)
  let near := slice p.resident start wanted
  near ++ Link.readFrom p.link (p.offset + start + near.length) (wanted - near.length)

end Payload

end NetEngine
