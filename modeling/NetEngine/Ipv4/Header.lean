import NetEngine.Address.Ipv4
import NetEngine.Checksum
import NetEngine.Error
import NetEngine.Text.Hex

/-! # Internet Datagrams

    A datagram opens with a header of 20 octets, or more where it has options,
    whose own checksum covers the header alone.

    A datagram is not always at hand as a whole: what counts is that its header
    is.  The length fields are read against the datagram, not against the
    octets at hand. -/

namespace NetEngine

/-- What a datagram carries. -/
inductive IpProtocol where
  | icmp
  | tcp
  | udp
  | unknown (code : UInt8)
deriving DecidableEq

namespace IpProtocol

/-- The number on the wire. -/
def code : IpProtocol → UInt8
  | .icmp => 1
  | .tcp => 6
  | .udp => 17
  | .unknown c => c

/-- The protocol with a given number. -/
def ofCode (c : UInt8) : IpProtocol :=
  if c = 1 then .icmp else if c = 6 then .tcp else if c = 17 then .udp else .unknown c

@[simp] theorem code_ofCode (c : UInt8) : (ofCode c).code = c := by
  unfold ofCode
  repeat' split
  all_goals first | rfl | (subst_vars; rfl)

def text : IpProtocol → String
  | .icmp => "ICMP"
  | .tcp => "TCP"
  | .udp => "UDP"
  | .unknown c => "0x" ++ Text.hexByte c

end IpProtocol

namespace Ipv4

/-- The length of a header without options. -/
def headerLen : Nat := 20

/-! ### Reading a datagram in place -/

/-- Octets read as a datagram. -/
abbrev View : Type := Bytes

namespace View

def version (p : View) : Nat := (byteAt p 0).toNat / 16

/-- The length of the header with its options. -/
def headerLen (p : View) : Nat := (byteAt p 0).toNat % 16 * 4

/-- The length of the datagram as its header tells it. -/
def totalLen (p : View) : Nat := (wordAt p 2).toNat

def ident (p : View) : UInt16 := wordAt p 4

/-- Is this a fragment that others follow? -/
def moreFragments (p : View) : Bool := (wordAt p 6).toNat / 8192 % 2 = 1

/-- Where the fragment lies in its datagram, as far as 16 bits tell. -/
def fragmentOffset (p : View) : UInt16 := UInt16.ofNat ((wordAt p 6).toNat * 8)

def hopLimit (p : View) : UInt8 := byteAt p 8

def protocol (p : View) : IpProtocol := .ofCode (byteAt p 9)

def checksum (p : View) : UInt16 := wordAt p 10

def src (p : View) : Ipv4Address := .readAt p 12

def dst (p : View) : Ipv4Address := .readAt p 16

/-- Is the header there as a whole, and are its lengths possible? -/
def check (p : View) : Except PacketError Unit :=
  if p.length < Ipv4.headerLen then .error .truncated
  else if p.headerLen < Ipv4.headerLen then .error .malformed
  else if p.length < p.headerLen then .error .truncated
  else if p.totalLen < p.headerLen then .error .malformed
  else .ok ()

/-- The octets that the header checksum covers. -/
def header (p : View) : Bytes := p.take p.headerLen

/-- What follows the header, as far as it is at hand. -/
def payload (p : View) : Bytes := p.drop p.headerLen

/-- Does the header checksum add up? -/
def verifyChecksum (p : View) : Bool := Checksum.isIntact p.header

/-- Write the header checksum. -/
def fillChecksum (p : View) : View :=
  let cleared : View := putWord p 10 0
  putWord cleared 10 (~~~Checksum.ofBytes cleared.header)

end View

/-! ### Headers -/

/-- The content of a header without options. -/
structure Header where
  src : Ipv4Address
  dst : Ipv4Address
  protocol : IpProtocol
  /-- The length of what follows the header. -/
  payloadLen : Nat
  hopLimit : UInt8
deriving DecidableEq

namespace Header

/-- Read the header of a datagram.  Fragments are refused, since there is no room to put them
together. -/
def parse (p : View) (mode : Checksum.Mode) : Except PacketError Header := do
  p.check
  if p.version ≠ 4 then .error .unrecognized
  else if mode = .manual ∧ ¬ p.verifyChecksum then .error .wrongChecksum
  else if p.moreFragments ∨ p.fragmentOffset ≠ 0 then .error .unsupported
  else .ok {
    src := p.src
    dst := p.dst
    protocol := p.protocol
    payloadLen := p.totalLen - p.headerLen
    hopLimit := p.hopLimit }

/-- The 20 octets of a header whose checksum field is zero. -/
def encodeUnsummed (h : Header) (ident : UInt16) : Bytes :=
  [0x45, 0] ++ ofWord (UInt16.ofNat (headerLen + h.payloadLen)) ++ ofWord ident ++ [0, 0] ++
    [h.hopLimit, h.protocol.code] ++ [0, 0] ++ h.src.toBytes ++ h.dst.toBytes

/-- The 20 octets of a header. -/
def encode (h : Header) (ident : UInt16) : Checksum.Mode → Bytes
  | .manual => View.fillChecksum (h.encodeUnsummed ident)
  | .ignored => h.encodeUnsummed ident

/-- Write a header in front of what `buffer` holds behind it. -/
def emit (h : Header) (ident : UInt16) (mode : Checksum.Mode) (buffer : Bytes) : Bytes :=
  overwrite buffer (h.encode ident mode)

def text (h : Header) : String :=
  s!"IPv4 src={h.src.text} dst={h.dst.text} proto={h.protocol.text} len={h.payloadLen}"

@[simp] theorem length_encodeUnsummed (h : Header) (ident : UInt16) :
    (h.encodeUnsummed ident).length = headerLen := rfl

@[simp] theorem length_encode (h : Header) (ident : UInt16) (mode : Checksum.Mode) :
    (h.encode ident mode).length = headerLen := by
  cases mode <;> simp [encode, View.fillChecksum]

end Header

/-! ### What the Checksums of Transports Cover -/

/-- The ones-complement sum of the **pseudo header**: the two addresses, the protocol and the
length of the transport packet. -/
def pseudoHeader (src dst : Ipv4Address) (protocol : IpProtocol) (len : UInt16) : UInt16 :=
  Checksum.ofParts [Checksum.ofBytes src.toBytes, Checksum.ofBytes dst.toBytes,
    Checksum.ofBytes ([0, protocol.code] ++ ofWord len)]

/-- A running sum that has seen the pseudo header. -/
def startSum (src dst : Ipv4Address) (protocol : IpProtocol) (len : UInt16) :
    Checksum.RunningSum :=
  ({} : Checksum.RunningSum).addWord (pseudoHeader src dst protocol len)

end Ipv4

end NetEngine
