import NetEngine.Address.Ipv4
import NetEngine.Address.Mac

/-! # Configuration

    All lengths of time are in seconds. -/

namespace NetEngine

/-- What is set before the engine starts. -/
structure Config where
  /-- Our hardware address. -/
  hardware : MacAddress := ⟨0x02, 0, 0, 0, 0, 0x01⟩
  /-- Our internet address, the unspecified one while none is assigned. -/
  address : Ipv4Address := .unspecified
  netmask : Ipv4Address := ⟨255, 255, 255, 0⟩
  /-- The way out of the subnet, the unspecified address if there is none. -/
  gateway : Ipv4Address := .unspecified
  /-- The hops that an outbound datagram may take. -/
  hopLimit : UInt8 := 64
  /-- How long a neighbour is remembered. -/
  arpLifetime : UInt8 := 120
  /-- Requests sent for one address before it is given up. -/
  arpRequests : UInt8 := 3
  /-- Looks at the link after each request, while no clock times the wait. -/
  arpPolls : UInt16 := 64
  /-- The port on which the server role answers. -/
  serverPort : UInt16 := 80
  /-- How often an unacknowledged segment is resent. -/
  retries : UInt8 := 3
  /-- The time before a segment is resent first. -/
  timeout : UInt8 := 1
  /-- How long a connection may be idle. -/
  maxAge : UInt8 := 5
  /-- Are segments with contradictory control bits dropped? -/
  filterFlags : Bool := true
  /-- The seed of initial sequence numbers. -/
  isnSeed : UInt32 := 0x2d5a91c3
deriving DecidableEq

end NetEngine
