/-! # Control Bits

    Nine bits of a segment header say what the segment does.  Six of them are
    the **basic** ones; the others are carried but mean nothing here.

    SYN and FIN take a place in the sequence space, as an octet of data does. -/

namespace NetEngine.Tcp

/-- The control bits of a segment. -/
structure Flags where
  bits : UInt16
deriving DecidableEq

namespace Flags

instance : Inhabited Flags := ⟨⟨0⟩⟩

/-- The sender has no more to send. -/
def FIN : Flags := ⟨0x01⟩

/-- The sequence number is the first one. -/
def SYN : Flags := ⟨0x02⟩

/-- The connection is refused or given up. -/
def RST : Flags := ⟨0x04⟩

/-- The data should be handed on without delay. -/
def PSH : Flags := ⟨0x08⟩

/-- The acknowledgment number counts. -/
def ACK : Flags := ⟨0x10⟩

/-- The urgent pointer counts. -/
def URG : Flags := ⟨0x20⟩

def fin (f : Flags) : Bool := f.bits.toNat.testBit 0

def syn (f : Flags) : Bool := f.bits.toNat.testBit 1

def rst (f : Flags) : Bool := f.bits.toNat.testBit 2

def psh (f : Flags) : Bool := f.bits.toNat.testBit 3

def ack (f : Flags) : Bool := f.bits.toNat.testBit 4

def urg (f : Flags) : Bool := f.bits.toNat.testBit 5

/-- The bits of both. -/
def union (f g : Flags) : Flags := ⟨f.bits ||| g.bits⟩

instance : OrOp Flags := ⟨union⟩

/-- Are all bits of `g` set in `f`? -/
def contains (f g : Flags) : Bool := f.bits &&& g.bits = g.bits

/-- The basic bits. -/
def basic (f : Flags) : Flags := ⟨f.bits &&& 0x3f⟩

/-- The places that the control bits take in the sequence space. -/
def sequenceLen (f : Flags) : Nat := f.syn.toNat + f.fin.toNat

/-- The names of the basic bits that are set, with bars between them. -/
def text (f : Flags) : String :=
  let names := [(f.syn, "SYN"), (f.fin, "FIN"), (f.rst, "RST"), (f.psh, "PSH"), (f.ack, "ACK"),
    (f.urg, "URG")]
  "|".intercalate ((names.filter (·.1)).map (·.2))

/-- Is `f` a combination that a well-behaved sender makes?  Not so without any basic bit or with
all of them, with FIN, PSH or URG but no ACK, or with two of SYN, FIN and RST. -/
def isPlausible (f : Flags) : Bool :=
  let needsAck := f.fin || f.psh || f.urg
  let conflict := f.fin && f.rst || f.syn && f.fin || f.syn && f.rst
  f.basic.bits != 0 && f.basic.bits != 0x3f && (f.ack || !needsAck) && !conflict

end Flags

end NetEngine.Tcp
