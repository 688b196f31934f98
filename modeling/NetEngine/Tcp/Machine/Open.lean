import NetEngine.Tcp.Machine

/-! # Opening and Closing Connections

    A connection is opened by a SYN that is tracked until the peer answers it.
    It is closed in order, by a FIN, or at once, by a reset. -/

namespace NetEngine.Tcp.Machine

/-- Open a connection to `remote`, with a SYN that takes the next but one sequence number. -/
def connect (m : Machine) (role : Role) (localPort remotePort : UInt16) (remote : Ipv4Address) :
    Except NetError Step :=
  let c := m.conn role
  if c.state ≠ .closed then .error .illegal
  else
    let seq := c.lastSent + 1
    let opening := { c with
      state := .synSent
      age := m.policy.maxAge
      localPort := localPort
      remotePort := remotePort
      remoteAddr := remote
      lastSent := seq + 1
      lastReceived := ⟨0⟩
      lastAcked := seq - 1
      mss := defaultMss }
    .ok {
      machine := (m.setConn role opening).track role seq 1 (.control seq .SYN)
      out := some (.fresh remote (opening.segment seq .SYN 0) none) }

/-- Wait in the server role for somebody to connect to `port`. -/
def listen (m : Machine) (port : UInt16) : Except NetError Machine :=
  if m.server.state = .closed ∨ m.server.state = .listen then
    .ok { m with
      policy := { m.policy with serverPort := port }
      server := { m.server with localPort := port, state := .listen } }
  else .error .illegal

/-- Close a connection.  An open one sends FIN, one that is still opening is dropped.  The tracked
segments of the role are forgotten in any case. -/
def close (m : Machine) (role : Role) : Step :=
  let forgotten := m.forget role
  match (m.conn role).state with
  | .established | .synReceived => (forgotten.setState role .finWait1).sendFin role
  | .closeWait => (forgotten.setState role .lastAck).sendFin role
  | .listen | .synSent => { machine := forgotten.setState role .closed }
  | _ => { machine := forgotten }

/-- Drop a connection and reset the peer, if there is one. -/
def abort (m : Machine) (role : Role) : Step :=
  let c := m.conn role
  let rst := Outgoing.fresh c.remoteAddr (c.segment c.lastSent (.RST ||| .ACK) 0) none
  { machine := m.reset role, out := if c.state.isAging then some rst else none }

end NetEngine.Tcp.Machine
