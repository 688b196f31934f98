import NetEngine.Text.Hex

/-! # Hardware Addresses

    Six octets name a station on the local network.  The lowest bit of the
    first octet marks a **group address**, the all-ones address among them. -/

namespace NetEngine

/-- A hardware address. -/
structure MacAddress where
  a : UInt8
  b : UInt8
  c : UInt8
  d : UInt8
  e : UInt8
  f : UInt8
deriving DecidableEq

namespace MacAddress

/-- The address of every station. -/
def broadcast : MacAddress := ⟨0xff, 0xff, 0xff, 0xff, 0xff, 0xff⟩

/-- The address of no station, which fills a field that is not known yet. -/
def unspecified : MacAddress := ⟨0, 0, 0, 0, 0, 0⟩

/-- The group of the multicast name service. -/
def mdns : MacAddress := ⟨0x01, 0x00, 0x5e, 0x00, 0x00, 0xfb⟩

/-- The group of link-local name resolution. -/
def llmnr : MacAddress := ⟨0x01, 0x00, 0x5e, 0x00, 0x00, 0xfc⟩

def isBroadcast (m : MacAddress) : Bool := m = broadcast

def isMulticast (m : MacAddress) : Bool := m.a.toNat % 2 = 1

def isUnicast (m : MacAddress) : Bool := !m.isMulticast

/-- The six octets in wire order. -/
def toBytes (m : MacAddress) : Bytes := [m.a, m.b, m.c, m.d, m.e, m.f]

/-- The address in the six octets from index `i` on. -/
def readAt (b : Bytes) (i : Nat) : MacAddress :=
  ⟨byteAt b i, byteAt b (i + 1), byteAt b (i + 2), byteAt b (i + 3), byteAt b (i + 4),
    byteAt b (i + 5)⟩

/-- Six pairs of hexadecimal digits with colons between them. -/
def text (m : MacAddress) : String := ":".intercalate (m.toBytes.map Text.hexByte)

@[simp] theorem length_toBytes (m : MacAddress) : m.toBytes.length = 6 := rfl

end MacAddress

end NetEngine
