import NetEngine.Address.Ipv4
import NetEngine.Address.Mac

/-! # Addresses of an Interface

    What the interface is called, and what follows for others: which frames are
    for it, in what capacity a datagram reaches it, and which neighbour takes
    the datagrams that it sends. -/

namespace NetEngine

/-- The addresses of the interface. -/
structure Addresses where
  hardware : MacAddress
  /-- The unspecified address while none is assigned. -/
  address : Ipv4Address
  netmask : Ipv4Address
  /-- The unspecified address if there is no gateway. -/
  gateway : Ipv4Address
deriving DecidableEq

/-- In what capacity a datagram reaches the interface. -/
inductive Destination where
  | unicast
  | subnetBroadcast
  | limitedBroadcast
  | mdns
  | llmnr
  | notOurs
deriving DecidableEq

namespace Addresses

/-- Has the interface an internet address? -/
def isAssigned (l : Addresses) : Bool := !l.address.isUnspecified

/-- Does an address lie in our subnet? -/
def onSubnet (l : Addresses) (x : Ipv4Address) : Bool :=
  l.isAssigned && l.address.sameSubnet x l.netmask

/-- The address of every host in our subnet. -/
def subnetBroadcast (l : Addresses) : Ipv4Address := l.address.subnetBroadcast l.netmask

/-- The neighbour that takes datagrams to `x`: itself in our subnet, else the gateway. -/
def nextHop (l : Addresses) (x : Ipv4Address) : Option Ipv4Address :=
  if !l.isAssigned || l.onSubnet x then some x
  else if l.gateway.isUnspecified then none
  else some l.gateway

/-- In what capacity a datagram to `x` reaches us. -/
def classify (l : Addresses) (x : Ipv4Address) : Destination :=
  if x = .broadcast then .limitedBroadcast
  else if x = .mdns then .mdns
  else if x = .llmnr then .llmnr
  else if !l.isAssigned then .notOurs
  else if x = l.address then .unicast
  else if x = l.subnetBroadcast then .subnetBroadcast
  else .notOurs

/-- Is a frame to `m` for us? -/
def hears (l : Addresses) (m : MacAddress) : Bool :=
  m = l.hardware || m.isBroadcast || m = .mdns || m = .llmnr

/-- The hardware address that belongs to `x` without asking: broadcasts and the groups of the name
services have fixed ones. -/
def fixedHardware (l : Addresses) (x : Ipv4Address) : Option MacAddress :=
  if x = .unspecified ∨ x = .broadcast then some .broadcast
  else if x = .mdns then some .mdns
  else if x = .llmnr then some .llmnr
  else if l.isAssigned ∧ x = l.subnetBroadcast then some .broadcast
  else none

end Addresses

end NetEngine
