import NetEngine.Error
import NetEngine.Slots

/-! # Ports of User Datagrams

    A **binding** asks for the datagrams that arrive at a local port, from one
    remote port or from any.  The slot of a binding is its name as long as it is
    registered.

    Ports for one's own use come from the **ephemeral** range, in turn and round
    about, past those that are taken. -/

namespace NetEngine.Udp

/-- The number of bindings that can be registered. -/
def maxBindings : Nat := 4

/-- The first ephemeral port. -/
def ephemeralStart : Nat := 0xc080

/-- The number of ephemeral ports: they are all from the first one on. -/
def ephemeralCount : Nat := 65536 - ephemeralStart

instance : @NeZero Nat Zero.ofOfNat0 ephemeralCount := ⟨by decide⟩

/-- What a binding asks for. -/
structure Binding where
  localPort : UInt16
  /-- The port that datagrams must come from, if it matters. -/
  remotePort : Option UInt16
deriving DecidableEq

/-- The registered bindings. -/
structure PortTable where
  slots : Slots Binding maxBindings
  /-- The ephemeral port to try next, counted from the first one. -/
  cursor : Fin ephemeralCount

namespace PortTable

/-- The table without bindings. -/
def empty : PortTable := ⟨.empty _ _, 0⟩

/-- Add a binding.  The same binding can not be added twice. -/
def register (t : PortTable) (b : Binding) : Except NetError (Nat × PortTable) :=
  if b ∈ t.slots.toList then .error .illegal
  else match t.slots.insert? b with
    | none => .error .exhausted
    | some (i, slots) => .ok (i, { t with slots := slots })

/-- Remove the binding in a slot. -/
def unregister (t : PortTable) (slot : Nat) : Except NetError PortTable :=
  match t.slots.get? slot with
  | none => .error .illegal
  | some _ => .ok { t with slots := t.slots.put slot none }

/-- The local port that the binding in a slot names. -/
def localPort? (t : PortTable) (slot : Nat) : Option UInt16 := (t.slots.get? slot).map (·.localPort)

/-- Is a port taken by a binding? -/
def inUse (t : PortTable) (port : UInt16) : Bool := t.slots.toList.any (·.localPort = port)

/-- The slot of the binding that a datagram is for.  One that names the remote port goes before one
that does not. -/
def lookup (t : PortTable) (dst src : UInt16) : Option Nat :=
  t.slots.position? (· = ⟨dst, some src⟩) <|> t.slots.position? (· = ⟨dst, none⟩)

/-! ### Ephemeral ports -/

/-- The ephemeral port at a place of the range. -/
def ephemeral (c : Fin ephemeralCount) : UInt16 := UInt16.ofNat (ephemeralStart + c.val)

/-- The place of the first port that is not taken, among `tries` of them from `c` on. -/
def firstFree (taken : UInt16 → Bool) : (tries : Nat) → (c : Fin ephemeralCount) →
    Option (Fin ephemeralCount)
  | 0, _ => none
  | tries + 1, c => if taken (ephemeral c) then firstFree taken tries (c + 1) else some c

/-- A port that neither a binding nor anybody else has taken.  There is none only if every
ephemeral port is taken. -/
def freshPort (t : PortTable) (alsoTaken : UInt16 → Bool) : Option (UInt16 × PortTable) :=
  (firstFree (fun p => t.inUse p || alsoTaken p) ephemeralCount t.cursor).map fun c =>
    (ephemeral c, { t with cursor := c + 1 })

end PortTable

end NetEngine.Udp
