import NetEngine.Bytes

/-! # Internet Addresses

    Four octets name a host on the internet.  A **netmask** of the same shape
    splits an address into the number of its subnet and the number of the host
    in it; both tests on subnets work octet by octet. -/

namespace NetEngine

/-- An internet address. -/
structure Ipv4Address where
  a : UInt8
  b : UInt8
  c : UInt8
  d : UInt8
deriving DecidableEq

namespace Ipv4Address

/-- The address of no host, held by an interface that has none yet. -/
def unspecified : Ipv4Address := ⟨0, 0, 0, 0⟩

/-- The address of every host on the local network. -/
def broadcast : Ipv4Address := ⟨0xff, 0xff, 0xff, 0xff⟩

/-- The group of the multicast name service. -/
def mdns : Ipv4Address := ⟨224, 0, 0, 251⟩

/-- The group of link-local name resolution. -/
def llmnr : Ipv4Address := ⟨224, 0, 0, 252⟩

def isBroadcast (x : Ipv4Address) : Bool := x = broadcast

def isMulticast (x : Ipv4Address) : Bool := x.a.toNat / 16 = 14

def isUnspecified (x : Ipv4Address) : Bool := x = unspecified

/-- The four octets in wire order. -/
def toBytes (x : Ipv4Address) : Bytes := [x.a, x.b, x.c, x.d]

/-- The address in the four octets from index `i` on. -/
def readAt (b : Bytes) (i : Nat) : Ipv4Address :=
  ⟨byteAt b i, byteAt b (i + 1), byteAt b (i + 2), byteAt b (i + 3)⟩

/-- The address as one 32-bit number. -/
def toNumber (x : Ipv4Address) : UInt32 := longAt x.toBytes 0

/-- The address that has a given 32-bit number. -/
def ofNumber (n : UInt32) : Ipv4Address := readAt (ofLong n) 0

/-- The octets that `mask` keeps. -/
def masked (x mask : Ipv4Address) : Ipv4Address :=
  ⟨x.a &&& mask.a, x.b &&& mask.b, x.c &&& mask.c, x.d &&& mask.d⟩

/-- Do two addresses lie in one subnet under `mask`? -/
def sameSubnet (x y mask : Ipv4Address) : Bool := x.masked mask = y.masked mask

/-- The address of every host in the subnet of `x`: its host bits are all ones. -/
def subnetBroadcast (x mask : Ipv4Address) : Ipv4Address :=
  ⟨x.a ||| ~~~mask.a, x.b ||| ~~~mask.b, x.c ||| ~~~mask.c, x.d ||| ~~~mask.d⟩

/-- Four decimal numbers with dots between them. -/
def text (x : Ipv4Address) : String := ".".intercalate (x.toBytes.map fun o => toString o.toNat)

@[simp] theorem length_toBytes (x : Ipv4Address) : x.toBytes.length = 4 := rfl

end Ipv4Address

end NetEngine
