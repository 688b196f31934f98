import NetEngine.Checksum
import NetEngine.Error

/-! # Control Messages

    A control message has a type, a code and a checksum over the whole message.
    Of all messages the **echo request** and the **echo reply** are understood:
    both carry an identifier, a sequence number and data. -/

namespace NetEngine.Icmp

/-- The type of a message. -/
inductive Kind where
  | echoReply
  | dstUnreachable
  | echoRequest
  | unknown (code : UInt8)
deriving DecidableEq

namespace Kind

/-- The number on the wire. -/
def code : Kind → UInt8
  | .echoReply => 0
  | .dstUnreachable => 3
  | .echoRequest => 8
  | .unknown c => c

/-- The type with a given number. -/
def ofCode (c : UInt8) : Kind :=
  if c = 0 then .echoReply else if c = 3 then .dstUnreachable
  else if c = 8 then .echoRequest else .unknown c

@[simp] theorem code_ofCode (c : UInt8) : (ofCode c).code = c := by
  unfold ofCode
  repeat' split
  all_goals first | rfl | (subst_vars; rfl)

def text : Kind → String
  | .echoReply => "echo reply"
  | .dstUnreachable => "destination unreachable"
  | .echoRequest => "echo request"
  | .unknown c => toString c.toNat

end Kind

/-- The length of the part in front of the data. -/
def headerLen : Nat := 8

/-! ### Reading a message in place -/

/-- Octets read as a message. -/
abbrev View : Type := Bytes

namespace View

/-- Is the header there? -/
def check (m : View) : Except PacketError Unit :=
  if m.length < headerLen then .error .truncated else .ok ()

def kind (m : View) : Kind := .ofCode (byteAt m 0)

def code (m : View) : UInt8 := byteAt m 1

def checksum (m : View) : UInt16 := wordAt m 2

def ident (m : View) : UInt16 := wordAt m 4

def seqNo (m : View) : UInt16 := wordAt m 6

/-- The data, as far as it is at hand. -/
def data (m : View) : Bytes := m.drop headerLen

/-- Does the checksum add up? -/
def verifyChecksum (m : View) : Bool := Checksum.isIntact m

/-- Write the checksum. -/
def fillChecksum (m : View) : View := Checksum.fillAt m 2

/-- Make it a message of another type and code, with the checksum that belongs to it. -/
def retype (m : View) (kind : Kind) (code : UInt8) : View :=
  fillChecksum (overwrite m [kind.code, code])

end View

/-- A message that is understood. -/
inductive Echo where
  | request (ident seqNo : UInt16)
  | reply (ident seqNo : UInt16)
deriving DecidableEq

/-- Read a message. -/
def Echo.parse (m : View) (mode : Checksum.Mode) : Except PacketError Echo := do
  m.check
  if mode = .manual ∧ ¬ m.verifyChecksum then .error .wrongChecksum
  else if m.kind = .echoRequest ∧ m.code = 0 then .ok (.request m.ident m.seqNo)
  else if m.kind = .echoReply ∧ m.code = 0 then .ok (.reply m.ident m.seqNo)
  else .error .unrecognized

end NetEngine.Icmp
