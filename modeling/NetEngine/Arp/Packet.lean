import NetEngine.Address.Ipv4
import NetEngine.Ethernet

/-! # Address Resolution Packets

    Whoever looks for the hardware address of an internet address sends a
    **request** that names it; its owner sends a **reply**.  Both have 28 octets
    and carry the two addresses of both sides. -/

namespace NetEngine.Arp

/-- The hardware in use. -/
inductive Hardware where
  | ethernet
  | unknown (code : UInt16)
deriving DecidableEq

/-- The number on the wire. -/
def Hardware.code : Hardware → UInt16
  | .ethernet => 1
  | .unknown c => c

/-- The hardware with a given number. -/
def Hardware.ofCode (c : UInt16) : Hardware := if c = 1 then .ethernet else .unknown c

/-- What a packet asks for or tells. -/
inductive Operation where
  | request
  | reply
  | unknown (code : UInt16)
deriving DecidableEq

namespace Operation

/-- The number on the wire. -/
def code : Operation → UInt16
  | .request => 1
  | .reply => 2
  | .unknown c => c

/-- The operation with a given number. -/
def ofCode (c : UInt16) : Operation :=
  if c = 1 then .request else if c = 2 then .reply else .unknown c

@[simp] theorem code_ofCode (c : UInt16) : (ofCode c).code = c := by
  unfold ofCode
  split
  · subst_vars; rfl
  · split
    · subst_vars; rfl
    · rfl

def text : Operation → String
  | .request => "Request"
  | .reply => "Reply"
  | .unknown c => s!"Unknown({c.toNat})"

end Operation

/-- The length of a packet. -/
def packetLen : Nat := 28

/-- The length of a frame that carries a packet. -/
def frameLen : Nat := Ethernet.headerLen + packetLen

/-! ### Reading a packet in place -/

/-- Octets read as a packet. -/
abbrev View : Type := Bytes

namespace View

/-- Is the packet there as a whole? -/
def check (p : View) : Except PacketError Unit :=
  if p.length < packetLen then .error .truncated else .ok ()

def hardware (p : View) : Hardware := .ofCode (wordAt p 0)

def protocol (p : View) : EtherType := .ofCode (wordAt p 2)

def hardwareLen (p : View) : UInt8 := byteAt p 4

def protocolLen (p : View) : UInt8 := byteAt p 5

def operation (p : View) : Operation := .ofCode (wordAt p 6)

end View

/-! ### Packets -/

/-- A request or a reply between two stations of an Ethernet that speak IPv4. -/
structure Packet where
  operation : Operation
  srcHardware : MacAddress
  srcProtocol : Ipv4Address
  dstHardware : MacAddress
  dstProtocol : Ipv4Address
deriving DecidableEq

namespace Packet

/-- Read a packet.  Other hardware, protocols and operations are not spoken here. -/
def parse (p : View) : Except PacketError Packet := do
  p.check
  if p.hardware = .ethernet ∧ p.protocol = .ipv4 ∧ p.hardwareLen = 6 ∧ p.protocolLen = 4 ∧
      (p.operation = .request ∨ p.operation = .reply) then
    .ok {
      operation := p.operation
      srcHardware := .readAt p 8
      srcProtocol := .readAt p 14
      dstHardware := .readAt p 18
      dstProtocol := .readAt p 24 }
  else
    .error .unrecognized

/-- Who has `target`? -/
def request (srcHardware : MacAddress) (srcProtocol target : Ipv4Address) : Packet where
  operation := .request
  srcHardware := srcHardware
  srcProtocol := srcProtocol
  dstHardware := .unspecified
  dstProtocol := target

/-- The reply that tells the sender of `p` that `hardware` has the address asked for. -/
def answer (p : Packet) (hardware : MacAddress) : Packet where
  operation := .reply
  srcHardware := hardware
  srcProtocol := p.dstProtocol
  dstHardware := p.srcHardware
  dstProtocol := p.srcProtocol

/-- The 28 octets of a packet. -/
def encode (p : Packet) : Bytes :=
  ofWord Hardware.ethernet.code ++ ofWord EtherType.ipv4.code ++ [6, 4] ++
    ofWord p.operation.code ++ p.srcHardware.toBytes ++ p.srcProtocol.toBytes ++
    p.dstHardware.toBytes ++ p.dstProtocol.toBytes

/-- Write a packet over the start of `buffer`. -/
def emit (p : Packet) (buffer : Bytes) : Bytes := overwrite buffer p.encode

/-- The frame in which a packet travels to the station `dst`. -/
def frame (p : Packet) (dst : MacAddress) : Bytes :=
  Ethernet.Header.encode ⟨p.srcHardware, dst, .arp⟩ ++ p.encode

def text (p : Packet) : String :=
  s!"ARP type={p.operation.text} src={p.srcHardware.text}/{p.srcProtocol.text} " ++
    s!"tgt={p.dstHardware.text}/{p.dstProtocol.text}"

@[simp] theorem length_encode (p : Packet) : p.encode.length = packetLen := rfl

@[simp] theorem length_frame (p : Packet) (dst : MacAddress) :
    (p.frame dst).length = frameLen := rfl

end Packet

end NetEngine.Arp
