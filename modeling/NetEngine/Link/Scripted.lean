import NetEngine.Clock
import NetEngine.Link.Loopback

/-! # The Scripted Link

    A loopback whose behaviour can be disturbed on purpose: it keeps **silent**
    for a while though frames wait, it tells other checksums to be correct than
    are, and it **fails** to send.

    A timer runs beside it, which fires each time the link is asked for a frame
    and has none to give. -/

namespace NetEngine

/-- A loopback that can be disturbed. -/
structure Scripted where
  loopback : Loopback := {}
  clock : Option Clock := none
  /-- How often it will still keep silent. -/
  silent : Nat := 0
  /-- The checksums that it tells to be correct, if they are made up. -/
  forced : Option ChecksumSet := none
  /-- How often it will still fail to send. -/
  failures : Nat := 0
  /-- The cause that it will tell. -/
  cause : NetError := .illegal

namespace Scripted

/-- Have nothing to give. -/
def idle (l : Scripted) : Scripted := { l with clock := l.clock.map Clock.interrupt }

def receive (l : Scripted) (capacity : Nat) : Option Arrival × Scripted :=
  if 0 < l.silent then (none, idle { l with silent := l.silent - 1 })
  else match l.loopback.receive capacity with
    | (none, loopback) => (none, idle { l with loopback := loopback })
    | (some a, loopback) =>
      (some { a with checksums := l.forced.getD a.checksums }, { l with loopback := loopback })

def transmit (l : Scripted) (headers : Bytes) (length : Nat) (checksums : ChecksumSet)
    (body : Option Body) : Except NetError Unit × Scripted :=
  if 0 < l.failures then (.error l.cause, { l with failures := l.failures - 1 })
  else
    let r := l.loopback.transmit headers length checksums body
    (r.1, { l with loopback := r.2 })

end Scripted

instance : Link Scripted where
  receive := Scripted.receive
  readFrom l := l.loopback.readFrom
  done l := { l with loopback := l.loopback.done }
  transmit := Scripted.transmit
  waiting l := l.loopback.inbound.length
  now l := (l.clock.map Clock.ticks).getD 0

end NetEngine
