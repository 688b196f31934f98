import NetEngine.Countdown
import NetEngine.Tcp.Segment

/-! # Connections

    The interface holds two connections at most, one in each **role**: as the
    client of somebody, and as a server.  The connection of a role is in one of
    eleven **states**, of which three are never entered: a FIN is answered by our
    own at once, and a connection that we close does not linger. -/

namespace NetEngine.Tcp

/-! ### Sizes -/

/-- The octets that we are willing to receive. -/
def ourWindow : UInt16 := 536

/-- The segment size that we announce. -/
def ourMss : UInt16 := 556

/-- The segment size of a peer that announces none. -/
def defaultMss : UInt16 := 536

/-- The largest payload that fits a frame. -/
def maxSegment : Nat := 1460

/-! ### Roles and States -/

/-- The part that we play in a connection. -/
inductive Role where
  | client
  | server
deriving DecidableEq

/-- The roles in the order in which they are tried. -/
def Role.all : List Role := [.client, .server]

theorem Role.mem_all (role : Role) : role ∈ all := by cases role <;> decide

/-- How far a connection has come. -/
inductive State where
  | closed
  /-- Waiting for somebody to connect. -/
  | listen
  /-- Our SYN has been sent. -/
  | synSent
  /-- Our SYN has been sent in answer to one. -/
  | synReceived
  /-- Data can go both ways. -/
  | established
  /-- Our FIN has been sent. -/
  | finWait1
  /-- Our FIN has been acknowledged. -/
  | finWait2
  /-- The FIN of the peer has arrived. -/
  | closeWait
  /-- Both FINs have been sent. -/
  | closing
  /-- Waiting for stragglers. -/
  | timeWait
  /-- The FIN of the peer has been answered by our own. -/
  | lastAck
deriving DecidableEq

/-- Does a connection in this state grow old? -/
def State.isAging : State → Bool
  | .closed | .listen => false
  | _ => true

/-- Is a connection in this state being set up? -/
def State.isOpening : State → Bool
  | .synSent | .synReceived => true
  | _ => false

/-! ### Connections -/

/-- What is known of a connection. -/
structure Connection where
  state : State
  /-- The seconds that it may stay idle. -/
  age : Countdown
  localPort : UInt16
  remotePort : UInt16
  remoteAddr : Ipv4Address
  /-- The number of the next octet that we send. -/
  lastSent : SeqNumber
  /-- The number of the last octet that has been received in order. -/
  lastReceived : SeqNumber
  /-- The latest acknowledgment number that has arrived. -/
  lastAcked : SeqNumber
  /-- The octets that the peer is willing to receive. -/
  window : UInt16
  /-- The segment size of the peer. -/
  mss : UInt16
deriving DecidableEq

namespace Connection

/-- The connection of a role that has none yet. -/
def fresh (isn : UInt32) : Connection where
  state := .closed
  age := 0
  localPort := 0
  remotePort := 0
  remoteAddr := .unspecified
  lastSent := ⟨isn⟩
  lastReceived := ⟨0⟩
  lastAcked := ⟨isn⟩
  window := 0
  mss := defaultMss

/-- Let a second pass. -/
def tick (c : Connection) : Connection :=
  if c.state.isAging then { c with age := Countdown.tick c.age } else c

/-- Does a segment between these ports, from this host, belong to the connection? -/
def owns (c : Connection) (dst src : UInt16) (remote : Ipv4Address) : Bool :=
  c.state ≠ .closed && c.localPort = dst && c.remotePort = src && c.remoteAddr = remote

/-- The largest payload of a segment. -/
def segmentSize (c : Connection) : Nat := max 1 (min c.mss.toNat maxSegment)

theorem segmentSize_pos (c : Connection) : 0 < c.segmentSize := by
  simp only [segmentSize]; omega

/-- The acknowledgment number: the octet that we expect next. -/
def ackNumber (c : Connection) : SeqNumber := c.lastReceived + 1

/-- The header of a segment that we send. -/
def segment (c : Connection) (seq : SeqNumber) (flags : Flags) (payloadLen : Nat) : Segment where
  srcPort := c.localPort
  dstPort := c.remotePort
  seq := seq
  ackNumber := if flags.ack then c.ackNumber else ⟨0⟩
  flags := flags
  window := ourWindow
  mss := if flags.syn then some ourMss else none
  payloadLen := payloadLen

end Connection

end NetEngine.Tcp
