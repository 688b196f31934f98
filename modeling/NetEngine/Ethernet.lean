import NetEngine.Address.Mac
import NetEngine.Error

/-! # Ethernet Frames

    A frame opens with 14 octets: destination, source and the **type** of what
    follows. -/

namespace NetEngine

/-- What a frame carries. -/
inductive EtherType where
  | ipv4
  | arp
  | unknown (code : UInt16)
deriving DecidableEq

namespace EtherType

/-- The number on the wire. -/
def code : EtherType → UInt16
  | .ipv4 => 0x0800
  | .arp => 0x0806
  | .unknown c => c

/-- The type with a given number. -/
def ofCode (c : UInt16) : EtherType :=
  if c = 0x0800 then .ipv4 else if c = 0x0806 then .arp else .unknown c

@[simp] theorem code_ofCode (c : UInt16) : (ofCode c).code = c := by
  unfold ofCode
  split
  · subst_vars; rfl
  · split
    · subst_vars; rfl
    · rfl

def text : EtherType → String
  | .ipv4 => "IPv4"
  | .arp => "ARP"
  | .unknown c => "0x" ++ Text.hexWord c

end EtherType

namespace Ethernet

/-- The length of a header. -/
def headerLen : Nat := 14

/-- The longest frame of the network, its checksum apart. -/
def maxFrame : Nat := 1514

/-! ### Reading a frame in place -/

/-- Octets read as a frame. -/
abbrev View : Type := Bytes

namespace View

/-- Is the header there? -/
def check (f : View) : Except PacketError Unit :=
  if f.length < headerLen then .error .truncated else .ok ()

def dst (f : View) : MacAddress := .readAt f 0

def src (f : View) : MacAddress := .readAt f 6

def etherType (f : View) : EtherType := .ofCode (wordAt f 12)

/-- What follows the header. -/
def payload (f : View) : Bytes := f.drop headerLen

/-- The frame sent back the way it came. -/
def swapAddresses (f : View) : View := overwrite f (f.src.toBytes ++ f.dst.toBytes)

end View

/-! ### Headers -/

/-- The content of a header. -/
structure Header where
  src : MacAddress
  dst : MacAddress
  etherType : EtherType
deriving DecidableEq

namespace Header

/-- Read the header of a frame. -/
def parse (f : View) : Except PacketError Header := do
  f.check
  return { src := f.src, dst := f.dst, etherType := f.etherType }

/-- The 14 octets of a header. -/
def encode (h : Header) : Bytes := h.dst.toBytes ++ h.src.toBytes ++ ofWord h.etherType.code

/-- Write a header in front of what `buffer` holds behind it. -/
def emit (h : Header) (buffer : Bytes) : Bytes := overwrite buffer h.encode

def text (h : Header) : String :=
  s!"EthernetII src={h.src.text} dst={h.dst.text} type={h.etherType.text}"

@[simp] theorem length_encode (h : Header) : h.encode.length = headerLen := rfl

end Header

end Ethernet

end NetEngine
