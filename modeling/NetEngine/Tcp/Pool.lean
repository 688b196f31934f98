import NetEngine.Slots
import NetEngine.Source
import NetEngine.Tcp.Connection

/-! # The Retransmission Pool

    Segments that the peer has not acknowledged are tracked in a pool that both
    roles share.  An entry counts down to the moment at which it is resent; each
    time the wait is twice as long.

    What is kept of a segment is enough to build it again: a **copy** of its
    octets where the source was only lent, the **generator** where it may be
    asked again, or the **control** bits alone. -/

namespace NetEngine.Tcp

/-- The number of segments that can be tracked. -/
def poolSize : Nat := 10

/-- What is kept of a segment. -/
inductive Kept where
  /-- All of its octets. -/
  | copy (octets : Bytes)
  /-- The source of its payload, which starts at `offset` and has `len` octets. -/
  | generated (generator : Supplier) (offset : Nat) (seq : SeqNumber) (len : Nat)
  /-- Its control bits, where it has no payload. -/
  | control (seq : SeqNumber) (flags : Flags)

def Kept.text : Kept → String
  | .copy octets => s!"Copy({octets.length} bytes)"
  | .generated _ offset seq len =>
    "Generated \x7b offset: " ++ s!"{offset}, seq_number: {seq.text}, len: {len}" ++ " \x7d"
  | .control seq flags =>
    "Control \x7b seq_number: " ++ s!"{seq.text}, flags: {flags.text}" ++ " \x7d"

/-- A segment that is tracked. -/
structure Tracked where
  role : Role
  /-- How often it can still be resent. -/
  retries : UInt8
  /-- The seconds before it is due. -/
  timeout : Countdown
  /-- The number of its last octet. -/
  lastByte : SeqNumber
  kept : Kept

namespace Tracked

/-- An entry for a segment that takes `len` places in the sequence space from `seq` on. -/
def track (role : Role) (seq : SeqNumber) (len : Nat) (kept : Kept) (retries : UInt8)
    (timeout : Countdown) : Tracked where
  role := role
  retries := retries
  timeout := timeout
  lastByte := seq + (len - 1)
  kept := kept

/-- Does an acknowledgment number cover the whole segment? -/
def isCoveredBy (e : Tracked) (ack : SeqNumber) : Bool := 0 < ack.distance e.lastByte

end Tracked

/-- The wait before a segment is resent that has been resent `attempts` times: the first one,
doubled each time, as far as an octet can tell. -/
def backoff (base attempts : UInt8) : Countdown :=
  UInt8.ofNat (min 255 (base.toNat <<< attempts.toNat))

/-- The tracked segments. -/
abbrev Pool : Type := Slots Tracked poolSize

namespace Pool

/-- The pool that tracks nothing. -/
def empty : Pool := Slots.empty _ _

/-- Let a second pass. -/
def tick (p : Pool) : Pool := p.update fun e => some { e with timeout := e.timeout.tick }

/-- Is the segment in slot `i` to be resent now? -/
def isDue (p : Pool) (i : Nat) : Bool := (p.get? i).any (·.timeout = 0)

/-- The first slot from `i` on whose segment is to be resent now. -/
def firstDue (p : Pool) (i : Nat) : Option Nat :=
  (List.range poolSize).find? fun k => i ≤ k && p.isDue k

/-- Forget the segments of a role that an acknowledgment covers. -/
def forgetCovered (p : Pool) (role : Role) (ack : SeqNumber) : Pool :=
  p.eraseWhere fun e => e.role = role && e.isCoveredBy ack

/-- Forget the segments of a role. -/
def forget (p : Pool) (role : Role) : Pool := p.eraseWhere fun e => e.role = role

/-- The number of segments that are tracked for a role. -/
def countOf (p : Pool) (role : Role) : Nat := (p.toList.filter (·.role = role)).length

end Pool

end NetEngine.Tcp
