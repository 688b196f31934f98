import NetEngine.Proofs.Tcp.Pending
import NetEngine.Proofs.Tcp.Taking
import NetEngine.Tcp.Machine.Send
import NetEngine.Tcp.Machine.Upkeep

/-! # One Side of the Machine

    Seen from one role, the machine is small.

    * **Side**: the connection of the role, and what is pending for it.
    * **Opening**: how a connection comes about.
    * **Move**: what happens to a connection from then on.  No move opens a
      connection, so that a closed one stays closed.
    * **Run**: moves one after the other, with all that they send and hand over.

    An invariant of one role is proved of the openings and the moves, which are
    few, and then holds of the machine. -/

namespace NetEngine.Tcp

/-- What the machine holds for one role. -/
structure Side where
  conn : Connection
  pending : Multiset Pending

namespace Side

/-! ## Openings -/

/-- A segment is pending from then on, or was not, as it found no place in the pool. -/
def Tracks (x : Pending) (p p' : Multiset Pending) : Prop := p' = x ::ₘ p ∨ p' = p

/-- A connection whose SYN takes the number `seq`. -/
def opening (c : Connection) (localPort remotePort : UInt16) (remote : Ipv4Address)
    (seq : SeqNumber) (age : Countdown) : Connection :=
  { c with
    state := .synSent
    age := age
    localPort := localPort
    remotePort := remotePort
    remoteAddr := remote
    lastSent := seq + 1
    lastReceived := ⟨0⟩
    lastAcked := seq - 1
    mss := defaultMss }

/-- A connection that answers a SYN of `remote` by one that takes the number `seq`. -/
def accepting (c : Connection) (s : Segment) (remote : Ipv4Address) (seq : SeqNumber)
    (age : Countdown) : Connection :=
  { c with
    state := .synReceived
    age := age
    localPort := s.dstPort
    remotePort := s.srcPort
    remoteAddr := remote
    lastSent := seq + 1
    lastReceived := s.seq
    lastAcked := seq - 1
    window := s.window
    mss := s.mss.getD defaultMss }

/-- Our SYN, which takes the number `seq`. -/
def synOf (c : Connection) (seq : SeqNumber) (flags : Flags) : Outgoing :=
  .fresh c.remoteAddr (c.segment seq flags 0) none

/-- How the connection of a role comes about.  What the segment `heard` is, if there is one, and
what is sent stand beside the sides. -/
inductive Opening (role : Role) (heard : Option Segment) : Side → List Outgoing → Side → Prop
  | connect {c p p'} (localPort remotePort : UInt16) (remote : Ipv4Address) (age : Countdown)
      (closed : c.state = .closed)
      (tracked : Tracks (.of (c.lastSent + 1) 1 (.control (c.lastSent + 1) .SYN)) p p') :
      Opening role heard ⟨c, p⟩
        [synOf (opening c localPort remotePort remote (c.lastSent + 1) age) (c.lastSent + 1) .SYN]
        ⟨opening c localPort remotePort remote (c.lastSent + 1) age, p'⟩
  /-- The link does not take the SYN. -/
  | refused {c p} (localPort remotePort : UInt16) (remote : Ipv4Address) (age : Countdown)
      (closed : c.state = .closed) :
      Opening role heard ⟨c, p⟩
        [synOf (opening c localPort remotePort remote (c.lastSent + 1) age) (c.lastSent + 1) .SYN]
        ⟨{ opening c localPort remotePort remote (c.lastSent + 1) age with state := .closed }, 0⟩
  | listen {c p} (port : UInt16) (server : role = .server)
      (idle : c.state.isAging = false) :
      Opening role heard ⟨c, p⟩ [] ⟨{ c with localPort := port, state := .listen }, p⟩
  | accept {c p p'} (s : Segment) (remote : Ipv4Address) (seq : SeqNumber) (age : Countdown)
      (server : role = .server) (idle : c.state.isAging = false) (arrived : s ∈ heard)
      (tracked : Tracks (.of seq 1 (.control seq (.SYN ||| .ACK))) 0 p') :
      Opening role heard ⟨c, p⟩ [synOf (accepting c s remote seq age) seq (.SYN ||| .ACK)]
        ⟨accepting c s remote seq age, p'⟩

/-! ## Moves -/

/-- An acknowledgment. -/
def ackOf (c : Connection) : Outgoing :=
  .fresh c.remoteAddr (c.segment c.lastSent .ACK 0) none

/-- Our FIN. -/
def finOf (c : Connection) : Outgoing :=
  .fresh c.remoteAddr (c.segment c.lastSent (.FIN ||| .ACK) 0) none

/-- What is pending while our FIN has not been acknowledged. -/
def pendingFin (c : Connection) : Pending :=
  .of c.lastSent 1 (.control c.lastSent (.FIN ||| .ACK))

/-- A connection whose SYN the peer has answered. -/
def answered (c : Connection) (s : Segment) : Connection :=
  { c with
    state := .established
    lastReceived := s.seq
    mss := s.mss.getD defaultMss
    window := s.window }

/-- What happens to the connection of a role.  The segment `heard` has arrived on it, if there is
one; what is sent and what is handed to the application stand between the sides. -/
inductive Move (role : Role) (heard : Option Segment) :
    Side → Option Outgoing → Option Delivery → Side → Prop
  | age {c p} (age : Countdown) : Move role heard ⟨c, p⟩ none none ⟨{ c with age := age }, p⟩
  | resend {c p} (x : Pending) (mem : x ∈ p) :
      Move role heard ⟨c, p⟩ (some (Machine.rebuild c x.kept)) none ⟨c, p⟩
  | piece {c p p'} (source : Source) (offset len : Nat) (open_ : c.state = .established)
      (tracked : Tracks
        (.of c.lastSent len (.ofSource source (c.segment c.lastSent .ACK len) offset)) p p') :
      Move role heard ⟨c, p⟩
        (some (.fresh c.remoteAddr (c.segment c.lastSent .ACK len) (some ⟨source.data, offset⟩)))
        none ⟨{ c with lastSent := c.lastSent + len }, p'⟩
  /-- We have no more to send. -/
  | finish {c p p'} (next : State)
      (closes : (c.state = .established ∨ c.state = .synReceived) ∧ next = .finWait1 ∨
        c.state = .closeWait ∧ next = .lastAck)
      (tracked : Tracks (pendingFin c) 0 p') :
      Move role heard ⟨c, p⟩ (some (finOf c)) none
        ⟨{ c with state := next, lastSent := c.lastSent + 1 }, p'⟩
  | forget {c p} : Move role heard ⟨c, p⟩ none none ⟨c, 0⟩
  /-- The connection is over. -/
  | drop {c p} : Move role heard ⟨c, p⟩ none none ⟨{ c with state := .closed }, 0⟩
  | abort {c p} (aging : c.state.isAging) :
      Move role heard ⟨c, p⟩
        (some (.fresh c.remoteAddr (c.segment c.lastSent (.RST ||| .ACK) 0) none)) none
        ⟨{ c with state := .closed }, 0⟩
  | acknowledge {c p} (s : Segment) (arrived : s ∈ heard) (ack : s.flags.ack)
      (later : 0 < s.ackNumber.distance c.lastAcked) :
      Move role heard ⟨c, p⟩ none none
        ⟨{ c with lastAcked := s.ackNumber, window := s.window },
          p.filter (fun x => x.isCoveredBy s.ackNumber = false)⟩
  /-- The peer answers our SYN. -/
  | answer {c p} (s : Segment) (arrived : s ∈ heard) (opening : c.state = .synSent)
      (answers : Machine.answersSyn c s) :
      Move role heard ⟨c, p⟩ (some (ackOf (answered c s))) none ⟨answered c s, 0⟩
  /-- The peer acknowledges our answer to its SYN, and has been noted to do so. -/
  | complete {c p} (s : Segment) (arrived : s ∈ heard) (opening : c.state = .synReceived)
      (completes : Machine.completesHandshake c s)
      (noted : ¬ 0 < s.ackNumber.distance c.lastAcked) :
      Move role heard ⟨c, p⟩ none none
        ⟨{ c with state := .established, lastReceived := s.seq - 1 }, p⟩
  | take {c p} (s : Segment) (a : Taken) (arrived : s ∈ heard)
      (receives : c.state = .established ∨ c.state = .finWait1 ∨ c.state = .finWait2)
      (taken : c.take s = some a) (more : a.fin = false) :
      Move role heard ⟨c, p⟩ (if a.ack then some (ackOf a.conn) else none) (a.handed role s)
        ⟨a.conn, p⟩
  /-- The FIN of the peer is answered by our own. -/
  | answerFin {c p p'} (s : Segment) (a : Taken) (arrived : s ∈ heard)
      (open_ : c.state = .established) (taken : c.take s = some a) (fin : a.fin = true)
      (tracked : Tracks (pendingFin a.conn) p p') :
      Move role heard ⟨c, p⟩ (some (finOf a.conn)) (a.handed role s)
        ⟨{ a.conn with state := .lastAck, lastSent := a.conn.lastSent + 1 }, p'⟩
  /-- The FIN of the peer ends a connection that we have closed. -/
  | endByFin {c p} (s : Segment) (a : Taken) (arrived : s ∈ heard)
      (closing : c.state = .finWait1 ∨ c.state = .finWait2)
      (taken : c.take s = some a) (fin : a.fin = true) :
      Move role heard ⟨c, p⟩ (some (ackOf a.conn)) (a.handed role s)
        ⟨{ a.conn with state := .closed }, 0⟩
  | finAcked {c p} (s : Segment) (arrived : s ∈ heard) (closing : c.state = .finWait1)
      (acked : s.flags.ack ∧ 0 ≤ s.ackNumber.distance c.lastSent) :
      Move role heard ⟨c, p⟩ none none ⟨{ c with state := .finWait2 }, p⟩

/-! ## Runs -/

/-- Moves one after the other. -/
inductive Run (role : Role) (heard : Option Segment) :
    Side → List Outgoing → List Delivery → Side → Prop
  | nil (x : Side) : Run role heard x [] [] x
  | cons {x y z : Side} {out : Option Outgoing} {sent : List Outgoing} {given : Option Delivery}
      {handed : List Delivery} (move : Move role heard x out given y)
      (rest : Run role heard y sent handed z) :
      Run role heard x (out.toList ++ sent) (given.toList ++ handed) z

namespace Run

variable {role : Role} {heard : Option Segment} {x y z : Side}

theorem single {out : Option Outgoing} {given : Option Delivery}
    (h : Move role heard x out given y) : Run role heard x out.toList given.toList y := by
  have := cons h (nil y)
  rwa [List.append_nil, List.append_nil] at this

theorem trans {sent sent' : List Outgoing} {handed handed' : List Delivery}
    (h : Run role heard x sent handed y) (h' : Run role heard y sent' handed' z) :
    Run role heard x (sent ++ sent') (handed ++ handed') z := by
  induction h with
  | nil => exact h'
  | cons move _ ih =>
    rw [List.append_assoc, List.append_assoc]
    exact cons move (ih h')

/-- What every move keeps is kept by every run. -/
theorem preserves {P : Side → Prop}
    (keep : ∀ {x y out given}, Move role heard x out given y → P x → P y)
    {sent : List Outgoing} {handed : List Delivery} (h : Run role heard x sent handed y)
    (hx : P x) : P y := by
  induction h with
  | nil => exact hx
  | cons move _ ih => exact ih (keep move hx)

end Run

/-- What an operation makes of a side: it opens the connection, or it is a run. -/
inductive Change (role : Role) (heard : Option Segment) (x : Side) (sent : List Outgoing)
    (handed : List Delivery) (y : Side) : Prop
  | opening (opens : Opening role heard x sent y) (nothing : handed = [])
  | run (moves : Run role heard x sent handed y)

end Side

end NetEngine.Tcp
