import NetEngine.Link
import NetEngine.Tcp.Pool
import NetEngine.Tcp.ShiftRegister

/-! # The Transport Layer

    The state of both connections, of the segments that are tracked, and of the
    sequence numbers to start from.

    - **Outgoing**: a segment to be sent, built anew or kept from before.
    - **Machine**: the state.
    - **Step**: everything that happens to the machine is a step, which returns
      the new state together with the segment to be sent.  Sending it is left
      to the caller, and no step waits for it.

    The steps for opening, sending, receiving and resending have modules of
    their own; here is what they are made of. -/

namespace NetEngine.Tcp

/-! ### Segments to Be Sent -/

/-- A segment that is to be sent. -/
inductive Outgoing where
  /-- A new segment, whose payload the link appends. -/
  | fresh (dst : Ipv4Address) (segment : Segment) (body : Option Body)
  /-- The octets of a segment that was sent before. -/
  | copy (dst : Ipv4Address) (octets : Bytes)

/-! ### State -/

/-- What can be set. -/
structure Policy where
  /-- The port on which the server role answers. -/
  serverPort : UInt16
  /-- How often an unacknowledged segment is resent. -/
  retries : UInt8
  /-- The time before a segment is resent first. -/
  timeout : Countdown
  /-- How long a connection may be idle. -/
  maxAge : Countdown
  /-- Are segments with contradictory control bits dropped? -/
  filterFlags : Bool
deriving DecidableEq

/-- How often something has happened, up to whole rounds of 32 bits. -/
structure Counts where
  /-- Segments that found no place in the pool. -/
  untracked : UInt32 := 0
  retransmissions : UInt32 := 0
  /-- Connections given up after the last retry. -/
  failed : UInt32 := 0
  /-- Connections given up because they were idle. -/
  reaped : UInt32 := 0
  /-- Connections refused to others. -/
  refused : UInt32 := 0
deriving DecidableEq

/-- The state of the transport layer. -/
structure Machine where
  client : Connection
  server : Connection
  pool : Pool
  isn : ShiftRegister
  policy : Policy
  counts : Counts

/-- What a step brings about. -/
structure Step where
  /-- The state after it. -/
  machine : Machine
  /-- The segment to be sent. -/
  out : Option Outgoing := none

namespace Machine

/-- No connection, and a first number to start from for each role. -/
def fresh (policy : Policy) (seed : UInt32) : Machine :=
  let first := (ShiftRegister.ofSeed seed).shift
  let second := first.shift
  { client := .fresh first.state
    server := .fresh second.state
    pool := .empty
    isn := second
    policy := policy
    counts := {} }

/-! ### Connections by role -/

/-- The connection of a role. -/
def conn (m : Machine) : Role → Connection
  | .client => m.client
  | .server => m.server

/-- Replace the connection of a role. -/
def setConn (m : Machine) (role : Role) (c : Connection) : Machine :=
  match role with
  | .client => { m with client := c }
  | .server => { m with server := c }

/-- Move the connection of a role to another state. -/
def setState (m : Machine) (role : Role) (s : State) : Machine :=
  m.setConn role { m.conn role with state := s }

/-- Take up the whole idle time again. -/
def rejuvenate (m : Machine) (role : Role) : Machine :=
  m.setConn role { m.conn role with age := m.policy.maxAge }

/-- Is a port taken by one of our connections? -/
def portInUse (m : Machine) (port : UInt16) : Bool :=
  Role.all.any fun r => (m.conn r).state ≠ .closed && (m.conn r).localPort = port

@[simp] theorem conn_setConn_self (m : Machine) (r : Role) (c : Connection) :
    (m.setConn r c).conn r = c := by
  cases r <;> rfl

@[simp] theorem conn_setConn_of_ne (m : Machine) {r r' : Role} (c : Connection) (h : r' ≠ r) :
    (m.setConn r c).conn r' = m.conn r' := by
  cases r <;> cases r' <;> first | rfl | exact absurd rfl h

/-! ### Tracking -/

/-- Track a segment, or count it if there is no place for it. -/
def track (m : Machine) (role : Role) (seq : SeqNumber) (len : Nat) (kept : Kept) : Machine :=
  match m.pool.insert? (.track role seq len kept m.policy.retries m.policy.timeout) with
  | some (_, pool) => { m with pool := pool }
  | none => { m with counts := { m.counts with untracked := m.counts.untracked + 1 } }

/-- Forget the tracked segments of a role. -/
def forget (m : Machine) (role : Role) : Machine := { m with pool := m.pool.forget role }

/-- Drop the connection of a role and forget its segments. -/
def reset (m : Machine) (role : Role) : Machine := (m.forget role).setState role .closed

/-! ### Segments without payload -/

/-- Acknowledge what has been received. -/
def sendAck (m : Machine) (role : Role) : Step :=
  let c := m.conn role
  { machine := m.rejuvenate role
    out := some (.fresh c.remoteAddr (c.segment c.lastSent .ACK 0) none) }

/-- Send FIN, which takes a place in the sequence space, and track it. -/
def sendFin (m : Machine) (role : Role) : Step :=
  let c := m.conn role
  let flags := Flags.FIN ||| Flags.ACK
  let sent := { c with age := m.policy.maxAge, lastSent := c.lastSent + 1 }
  { machine := (m.setConn role sent).track role c.lastSent 1 (.control c.lastSent flags)
    out := some (.fresh c.remoteAddr (c.segment c.lastSent flags 0) none) }

/-! ### Time -/

/-- Let a second pass. -/
def tick (m : Machine) : Machine :=
  { m with pool := m.pool.tick, client := m.client.tick, server := m.server.tick }

end Machine

end NetEngine.Tcp
