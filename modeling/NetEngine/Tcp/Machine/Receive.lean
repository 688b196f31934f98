import NetEngine.Tcp.Machine

/-! # Receiving Segments

    There is no reordering: a segment is taken only if it starts at or before
    the octet that is expected next, and what it repeats is skipped.  Any other
    segment is dropped and left to the peer to resend.

    - **Taken**: what a segment adds to the octets received in order.
    - **Reaction**: the new state, the octets to be handed to the application,
      and the segment that answers.  The octets are handed over first. -/

namespace NetEngine.Tcp

/-! ### Receiving in Order -/

/-- Octets to be handed to the application. -/
structure Delivery where
  role : Role
  /-- The number of the first octet of the segment. -/
  seq : SeqNumber
  /-- How many octets are new. -/
  count : Nat
  /-- How many octets in front of them are known. -/
  skip : Nat
deriving DecidableEq

/-- What becomes of a segment that is taken. -/
structure Taken where
  /-- The connection after it. -/
  conn : Connection
  /-- How many octets are new. -/
  count : Nat
  /-- Does it end the data of the peer, which it did not before? -/
  fin : Bool
  /-- Must it be acknowledged? -/
  ack : Bool
deriving DecidableEq

/-- Take a segment that leaves no gap behind what has been received. -/
def Connection.take (c : Connection) (s : Segment) : Option Taken :=
  if 1 < s.seq.distance c.lastReceived then none
  else
    let fin := s.flags.fin
    -- A FIN takes the place behind the payload.
    let lastByte := s.seq + (s.payloadLen + fin.toNat) - 1
    let new := lastByte.distance c.lastReceived
    let ack := s.payloadLen ≠ 0 || fin
    if new ≤ 0 then some { conn := c, count := 0, fin := false, ack := ack }
    else some {
      conn := { c with lastReceived := lastByte }
      count := new.toNat - fin.toNat
      fin := fin
      ack := ack }

/-- What the application gets of a segment that is taken: the new octets, which are the last ones of
the payload.  Where more octets count as new than there are, the engine stops. -/
def Taken.delivery (a : Taken) (role : Role) (s : Segment) : Except Fault (Option Delivery) :=
  if a.count = 0 then .ok none
  else do
    let skip ← takeAway s.payloadLen a.count
    return some { role := role, seq := s.seq, count := a.count, skip := skip }

/-! ### Reactions -/

/-- What a segment brings about. -/
structure Reaction extends Step where
  /-- Did the segment concern one of our connections? -/
  concerned : Bool
  /-- What the application gets, before the answer is sent.  Where this faults, nothing follows, and
  the rest of the reaction is what there would be without the check. -/
  delivery : Except Fault (Option Delivery) := .ok none

namespace Machine

/-- Leave a segment alone that concerns one of our connections. -/
def keep (m : Machine) : Reaction := { machine := m, concerned := true }

/-- Leave a segment alone that concerns nobody. -/
def ignore (m : Machine) : Reaction := { machine := m, concerned := false }

/-- Take a segment on an open connection.  A FIN is answered by our own at once. -/
def receiveOpen (m : Machine) (role : Role) (s : Segment) : Reaction :=
  match (m.conn role).take s with
  | none => m.keep
  | some a =>
    let taken := m.setConn role a.conn
    let step : Step :=
      if a.fin then (taken.setState role .lastAck).sendFin role
      else if a.ack then taken.sendAck role
      else { machine := taken }
    { step with concerned := true, delivery := a.delivery role s }

/-- Take a segment on a connection that we have closed.  The FIN of the peer ends it. -/
def receiveClosing (m : Machine) (role : Role) (s : Segment) : Reaction :=
  let c := m.conn role
  match c.take s with
  | none => m.keep
  | some a =>
    let taken := m.setConn role a.conn
    let step : Step := if a.ack then taken.sendAck role else { machine := taken }
    -- The acknowledgment goes out even where the connection ends with it.
    let finAcked := s.flags.ack && 0 ≤ s.ackNumber.distance c.lastSent
    { machine :=
        if a.fin then step.machine.reset role
        else if finAcked && c.state = .finWait1 then step.machine.setState role .finWait2
        else step.machine
      out := step.out
      concerned := true
      delivery := a.delivery role s }

/-- Take note of an acknowledgment that is later than those before. -/
def takeAck (m : Machine) (role : Role) (s : Segment) : Machine :=
  let c := m.conn role
  if s.flags.ack && 0 < s.ackNumber.distance c.lastAcked then
    let m := m.setConn role { c with lastAcked := s.ackNumber, window := s.window }
    { m with pool := m.pool.forgetCovered role s.ackNumber }
  else m

/-- Does a segment answer our SYN by a SYN of the peer? -/
def answersSyn (c : Connection) (s : Segment) : Bool :=
  s.flags.syn && s.flags.ack && s.ackNumber = c.lastSent

/-- Does a segment acknowledge our SYN without being a SYN itself? -/
def completesHandshake (c : Connection) (s : Segment) : Bool :=
  s.flags.ack && !s.flags.syn && s.ackNumber = c.lastSent

/-- Take a segment of the peer of a connection, its acknowledgment noted and no reset. -/
def receiveInState (m : Machine) (role : Role) (s : Segment) : Reaction :=
  let c := m.conn role
  match c.state with
  | .synSent =>
    if answersSyn c s then
      let opened := { c with
        state := .established
        lastReceived := s.seq
        mss := s.mss.getD defaultMss
        window := s.window }
      { ((m.setConn role opened).forget role).sendAck role with concerned := true }
    else m.keep
  | .synReceived =>
    if completesHandshake c s then
      -- The segment itself may carry data, which starts at its own number.
      let opened := { c with state := .established, lastReceived := s.seq - 1 }
      (m.setConn role opened).receiveOpen role s
    else m.keep
  | .established => m.receiveOpen role s
  | .finWait1 | .finWait2 => m.receiveClosing role s
  | .lastAck =>
    -- Our FIN is acknowledged, and the connection is over.
    if s.flags.ack && 0 ≤ s.ackNumber.distance c.lastSent then (m.reset role).keep else m.keep
  | _ => m.keep

/-- Take a segment of the peer of a connection. -/
def receiveFor (m : Machine) (role : Role) (s : Segment) : Reaction :=
  let young := m.rejuvenate role
  -- The acknowledgment is noted before the state of the connection tells what else is done.
  if s.flags.rst then (young.reset role).keep else (young.takeAck role s).receiveInState role s

/-- Accept somebody who connects to the server role. -/
def acceptSyn (m : Machine) (s : Segment) (remote : Ipv4Address) : Reaction :=
  let drawn := m.isn.draw
  let seq := m.server.lastSent + (1500 + drawn.1.toNat)
  let flags := Flags.SYN ||| Flags.ACK
  let c := { m.server with
    state := .synReceived
    age := m.policy.maxAge
    localPort := s.dstPort
    remotePort := s.srcPort
    remoteAddr := remote
    lastSent := seq + 1
    lastReceived := s.seq
    lastAcked := seq - 1
    window := s.window
    mss := s.mss.getD defaultMss }
  let opening := { m with isn := drawn.2, server := c }
  -- What was tracked for an earlier connection must not be resent on this one.
  { machine := (opening.forget .server).track .server seq 1 (.control seq flags)
    out := some (.fresh remote (c.segment seq flags 0) none)
    concerned := true }

/-- Refuse somebody who connects while the server role is taken. -/
def refuseSyn (m : Machine) (s : Segment) (remote : Ipv4Address) : Reaction :=
  let rst : Segment := {
    srcPort := s.dstPort
    dstPort := s.srcPort
    seq := ⟨0⟩
    ackNumber := s.seq + 1
    flags := .RST ||| .ACK
    window := 0
    mss := none
    payloadLen := 0 }
  { machine := { m with counts := { m.counts with refused := m.counts.refused + 1 } }
    out := some (.fresh remote rst none)
    concerned := false }

/-- The role whose connection a segment belongs to. -/
def owner? (m : Machine) (s : Segment) (remote : Ipv4Address) : Option Role :=
  Role.all.find? fun r => (m.conn r).owns s.dstPort s.srcPort remote

/-- Take a segment that belongs to a connection, and leave any other alone. -/
def receiveOwned (m : Machine) (s : Segment) (remote : Ipv4Address) : Reaction :=
  match m.owner? s remote with
  | some role => m.receiveFor role s
  | none => m.ignore

/-- Take a segment from `remote` when the sequence number of a SYN has been mixed in.

At the server port a SYN opens a connection if there is none; if there is one already, a segment of
anybody else is left alone, and a SYN is refused. -/
def receiveMixed (m : Machine) (s : Segment) (remote : Ipv4Address) : Reaction :=
  let opens := s.flags.syn && !s.flags.ack
  if s.dstPort ≠ m.policy.serverPort then m.receiveOwned s remote
  else if !m.server.state.isAging then
    if opens then m.acceptSyn s remote else m.ignore
  else if m.server.owns s.dstPort s.srcPort remote then m.receiveOwned s remote
  else if opens then m.refuseSyn s remote
  else m.ignore

/-- Mix the sequence number of a SYN into our own ones. -/
def mixIn (m : Machine) (s : Segment) : Machine :=
  if s.flags.syn then { m with isn := m.isn.mix s.seq.val } else m

/-- Take a segment from `remote`. -/
def receive (m : Machine) (s : Segment) (remote : Ipv4Address) : Reaction :=
  (m.mixIn s).receiveMixed s remote

end Machine

/-- Read a segment for the machine, whose checksum the link has found correct. -/
def Machine.decode (m : Machine) (p : View) (ip : Ipv4.Header) (c : ChecksumSet) :
    Except PacketError Segment :=
  if !c.tcp then .error .wrongChecksum
  else do
    let s ← Segment.parse p ip .ignored
    if m.policy.filterFlags && !s.flags.isPlausible then .error .malformed else .ok s

end NetEngine.Tcp
