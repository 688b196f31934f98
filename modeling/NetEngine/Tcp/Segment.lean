import NetEngine.Ipv4.Header
import NetEngine.Tcp.Flags
import NetEngine.Tcp.SeqNumber

/-! # Segments

    A segment opens with a header of 20 octets, or more where it has options.
    Of all options only one counts: the **segment size** that the sender is
    willing to receive.  The checksum covers the pseudo header and the whole
    segment, whose length is told by the datagram that carries it. -/

namespace NetEngine.Tcp

/-- The length of a header without options. -/
def headerLen : Nat := 20

/-- The length of the segment size option. -/
def mssOptionLen : Nat := 4

/-! ### Options -/

/-- The value of the first segment size option, as far as the options can be read.

An option is a single octet 1, or a kind octet, a length octet that counts both, and a body.  The
kind 0 ends the list, and so does an option that does not fit it.  A segment size option of any
other length than four is skipped as an unknown one. -/
def mssOption : Bytes → Option UInt16
  | [] => none
  | kind :: rest =>
    if kind = 0 then none
    else if kind = 1 then mssOption rest
    else match rest with
      | [] => none
      | len :: body =>
        if len.toNat < 2 ∨ body.length + 2 < len.toNat then none
        else if kind = 2 ∧ len.toNat = mssOptionLen then some (wordAt body 0)
        else mssOption (body.drop (len.toNat - 2))
  termination_by options => options.length

/-! ### Reading a segment in place -/

/-- Octets read as a segment. -/
abbrev View : Type := Bytes

namespace View

def srcPort (p : View) : UInt16 := wordAt p 0

def dstPort (p : View) : UInt16 := wordAt p 2

def seq (p : View) : SeqNumber := ⟨longAt p 4⟩

def ackNumber (p : View) : SeqNumber := ⟨longAt p 8⟩

def flags (p : View) : Flags := ⟨UInt16.ofNat ((wordAt p 12).toNat % 512)⟩

/-- The length of the header with its options. -/
def headerLen (p : View) : Nat := (wordAt p 12).toNat / 4096 * 4

def window (p : View) : UInt16 := wordAt p 14

def checksum (p : View) : UInt16 := wordAt p 16

/-- The octets of the header that hold options. -/
def options (p : View) : Bytes := (p.take p.headerLen).drop Tcp.headerLen

/-- The segment size that the sender is willing to receive, if it says so. -/
def mss (p : View) : Option UInt16 := mssOption p.options

/-- What follows the header, as far as it is at hand. -/
def payload (p : View) : Bytes := p.drop p.headerLen

/-- Is the header there as a whole? -/
def check (p : View) : Except PacketError Unit :=
  if p.length < Tcp.headerLen then .error .truncated
  else if p.headerLen < Tcp.headerLen then .error .malformed
  else if p.length < p.headerLen then .error .truncated
  else .ok ()

/-- The ones-complement sum of a segment with its pseudo header. -/
def sum (src dst : Ipv4Address) (segment : Bytes) : UInt16 :=
  Checksum.ofParts [Ipv4.pseudoHeader src dst .tcp (UInt16.ofNat segment.length),
    Checksum.ofBytes segment]

/-- Does the checksum of the segment of length `len` add up?  It can not be told while octets are
missing. -/
def verifyChecksum (p : View) (src dst : Ipv4Address) (len : Nat) : Except PacketError Bool :=
  match leading? p len with
  | none => .error .truncated
  | some segment => .ok (sum src dst segment = 0xffff)

/-- Write the checksum over everything at hand. -/
def fillChecksum (p : View) (src dst : Ipv4Address) : View :=
  let cleared := putWord p 16 0
  putWord cleared 16 (~~~sum src dst cleared)

end View

/-! ### Headers -/

/-- The content of a header, together with the length of the payload behind it. -/
structure Segment where
  srcPort : UInt16
  dstPort : UInt16
  seq : SeqNumber
  ackNumber : SeqNumber
  flags : Flags
  window : UInt16
  /-- The segment size option. -/
  mss : Option UInt16
  payloadLen : Nat
deriving DecidableEq

namespace Segment

/-- Read the header of a segment carried by `ip`. -/
def parse (p : View) (ip : Ipv4.Header) (mode : Checksum.Mode) : Except PacketError Segment := do
  p.check
  if p.headerLen > ip.payloadLen then .error .truncated
  else if p.srcPort = 0 ∨ p.dstPort = 0 then .error .malformed
  else do
    let intact ← if mode = .manual then p.verifyChecksum ip.src ip.dst ip.payloadLen else .ok true
    if ¬ intact then .error .wrongChecksum
    else .ok {
      srcPort := p.srcPort
      dstPort := p.dstPort
      seq := p.seq
      ackNumber := p.ackNumber
      flags := p.flags
      window := p.window
      mss := p.mss
      payloadLen := ip.payloadLen - p.headerLen }

/-- The length of the header with its option. -/
def headerLen (s : Segment) : Nat :=
  match s.mss with
  | none => Tcp.headerLen
  | some _ => Tcp.headerLen + mssOptionLen

/-- The length of the segment. -/
def len (s : Segment) : Nat := s.headerLen + s.payloadLen

/-- The places that the segment takes in the sequence space. -/
def sequenceLen (s : Segment) : Nat := s.payloadLen + s.flags.sequenceLen

/-- The octets of the option. -/
def encodeOption (s : Segment) : Bytes :=
  match s.mss with
  | none => []
  | some size => [2, 4] ++ ofWord size

/-- The octets of a header whose checksum field is zero. -/
def encode (s : Segment) : Bytes :=
  ofWord s.srcPort ++ ofWord s.dstPort ++ ofLong s.seq.val ++ ofLong s.ackNumber.val ++
    ofWord (UInt16.ofNat (s.headerLen / 4 * 4096 + s.flags.bits.toNat % 512)) ++
    ofWord s.window ++ [0, 0] ++ [0, 0] ++ s.encodeOption

/-- Write a header in front of what `buffer` holds behind it. -/
def emit (s : Segment) (buffer : Bytes) : Bytes := overwrite buffer s.encode

def text (s : Segment) : String :=
  let head := s!"TCP src={s.srcPort.toNat} dst={s.dstPort.toNat} {s.flags.text} " ++
    s!"seq={s.seq.text} ack={s.ackNumber.text} win={s.window.toNat} len={s.payloadLen}"
  match s.mss with
  | none => head
  | some size => head ++ s!" mss={size.toNat}"

@[simp] theorem length_encode (s : Segment) : s.encode.length = s.headerLen := by
  rcases h : s.mss with _ | size <;> simp [encode, encodeOption, headerLen, h] <;> rfl

end Segment

end NetEngine.Tcp
