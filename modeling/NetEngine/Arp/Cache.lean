import NetEngine.Address.Ipv4
import NetEngine.Address.Mac
import NetEngine.Countdown
import NetEngine.Slots

/-! # The Neighbour Cache

    The cache remembers the hardware addresses of a few neighbours, each for a
    **lifetime** since it was last heard of.  Where a new neighbour finds no free
    slot, it takes the place of the one that would be forgotten first. -/

namespace NetEngine.Arp

/-- The number of neighbours that are remembered. -/
def capacity : Nat := 3

/-- A neighbour. -/
structure Neighbour where
  protocol : Ipv4Address
  hardware : MacAddress
  /-- The seconds before it is forgotten. -/
  ticks : Countdown
deriving DecidableEq

/-- The neighbours that are remembered. -/
structure Cache where
  slots : Slots Neighbour capacity
  /-- How long a neighbour is remembered. -/
  lifetime : Countdown

namespace Cache

/-- The cache that remembers nobody. -/
def empty (lifetime : Countdown) : Cache := ⟨.empty _ _, lifetime⟩

/-- The neighbours in slot order. -/
def toList (c : Cache) : List Neighbour := c.slots.toList

/-- The neighbour with a given address. -/
def entry? (c : Cache) (a : Ipv4Address) : Option Neighbour := c.toList.find? (·.protocol = a)

/-- The hardware address of a neighbour. -/
def lookup (c : Cache) (a : Ipv4Address) : Option MacAddress := (c.entry? a).map (·.hardware)

/-- Can a host have this address? -/
def isLearnable (a : Ipv4Address) : Bool := !a.isUnspecified && !a.isBroadcast

/-- The first slot among those whose neighbours are forgotten first. -/
def victim? (c : Cache) : Option Nat :=
  c.slots.position? fun e => c.toList.all fun other => e.ticks ≤ other.ticks

/-- The slot for a neighbour: its own, else a free one, else that of the victim. -/
def slotFor (c : Cache) (a : Ipv4Address) : Option Nat :=
  c.slots.position? (·.protocol = a) <|> c.slots.free? <|> c.victim?

/-- Remember a neighbour for a whole lifetime.  Addresses that no host can have are not taken. -/
def learn (c : Cache) (a : Ipv4Address) (hardware : MacAddress) : Cache :=
  if isLearnable a then
    match c.slotFor a with
    | some i => { c with slots := c.slots.put i (some ⟨a, hardware, c.lifetime⟩) }
    | none => c
  else c

/-- Forget a neighbour. -/
def remove (c : Cache) (a : Ipv4Address) : Cache :=
  match c.slots.position? (·.protocol = a) with
  | some i => { c with slots := c.slots.put i none }
  | none => c

/-- Let a second pass, and forget the neighbours whose lifetime ends with it. -/
def tick (c : Cache) : Cache :=
  { c with slots := c.slots.update fun e =>
      let left := e.ticks.tick
      if left = 0 then none else some { e with ticks := left } }

end Cache

end NetEngine.Arp
