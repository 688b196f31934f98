import NetEngine.Ipv4.Header

/-! # User Datagrams

    A user datagram adds two ports and a length to an internet datagram.  Its
    checksum is **optional**: the field zero says that there is none, so a
    checksum that comes out as zero is sent as all ones. -/

namespace NetEngine.Udp

/-- The length of a header. -/
def headerLen : Nat := 8

/-! ### Reading a datagram in place -/

/-- Octets read as a user datagram. -/
abbrev View : Type := Bytes

namespace View

def srcPort (p : View) : UInt16 := wordAt p 0

def dstPort (p : View) : UInt16 := wordAt p 2

/-- The length of header and payload as the header tells it. -/
def lenField (p : View) : UInt16 := wordAt p 4

def checksum (p : View) : UInt16 := wordAt p 6

/-- Is the header there, and is its length possible? -/
def check (p : View) : Except PacketError Unit :=
  if p.length < headerLen then .error .truncated
  else if p.lenField.toNat < headerLen then .error .malformed
  else .ok ()

/-- The ones-complement sum of `covered` and the pseudo header. -/
def sum (p : View) (src dst : Ipv4Address) (covered : Bytes) : UInt16 :=
  Checksum.ofParts [Ipv4.pseudoHeader src dst .udp p.lenField, Checksum.ofBytes covered]

/-- Does the checksum add up, or is there none?  It can not be told while octets are missing. -/
def verifyChecksum (p : View) (src dst : Ipv4Address) : Except PacketError Bool :=
  if p.checksum = 0 then .ok true
  else match leading? p p.lenField.toNat with
    | none => .error .truncated
    | some covered => .ok (p.sum src dst covered = 0xffff)

/-- The field for a computed checksum: zero would say that there is none. -/
def nonzero (checksum : UInt16) : UInt16 := if checksum = 0 then 0xffff else checksum

/-- Write the checksum over what is at hand of the datagram. -/
def fillChecksum (p : View) (src dst : Ipv4Address) : View :=
  let cleared : View := putWord p 6 0
  let covered := cleared.take p.lenField.toNat
  putWord cleared 6 (nonzero (~~~sum cleared src dst covered))

/-- The payload, as far as it is at hand. -/
def payload (p : View) : Bytes := (p.take p.lenField.toNat).drop headerLen

end View

/-! ### Headers -/

/-- The content of a header. -/
structure Header where
  srcPort : UInt16
  dstPort : UInt16
  payloadLen : Nat
deriving DecidableEq

namespace Header

/-- Read the header of a user datagram carried by `ip`.  Source port zero asks for no answer,
destination port zero is no port. -/
def parse (p : View) (ip : Ipv4.Header) (mode : Checksum.Mode) : Except PacketError Header := do
  p.check
  if p.lenField.toNat > ip.payloadLen then .error .truncated
  else if p.dstPort = 0 then .error .malformed
  else do
    let intact ← if mode = .manual then p.verifyChecksum ip.src ip.dst else .ok true
    if ¬ intact then .error .wrongChecksum
    else .ok {
      srcPort := p.srcPort
      dstPort := p.dstPort
      payloadLen := p.lenField.toNat - headerLen }

/-- The 8 octets of a header whose checksum field is zero. -/
def encode (h : Header) : Bytes :=
  ofWord h.srcPort ++ ofWord h.dstPort ++ ofWord (UInt16.ofNat (headerLen + h.payloadLen)) ++ [0, 0]

/-- Write a header in front of what `buffer` holds behind it. -/
def emit (h : Header) (buffer : Bytes) : Bytes := overwrite buffer h.encode

def text (h : Header) : String :=
  s!"UDP src={h.srcPort.toNat} dst={h.dstPort.toNat} len={h.payloadLen}"

@[simp] theorem length_encode (h : Header) : h.encode.length = headerLen := rfl

end Header

end NetEngine.Udp
