import NetEngine.Tcp.Machine.Receive
import NetEngine.Tcp.Machine.Send
import NetEngine.Tcp.Machine.Upkeep

/-! # Runs of the Transport Layer

    Whatever happens to the transport layer is one of eight **operations**.  The
    application opens, serves, uses and closes connections; the seconds pass; what
    is due is resent; and segments arrive.

    What the link does with the segments that it is given is part of an operation:
    it takes a SYN or refuses it, and it refuses some piece of the data or none.
    Nothing else that the link does can be seen by the transport layer. -/

namespace NetEngine.Tcp

/-! ## Operations -/

/-- What can happen to the transport layer. -/
inductive Operation where
  /-- A connection is opened.  The link takes the SYN, or refuses it. -/
  | connect (role : Role) (localPort remotePort : UInt16) (remote : Ipv4Address) (sent : Bool)
  | listen (port : UInt16)
  /-- Data is sent.  The link is given as many pieces of it as `attempts` says, since it refuses the
  last of them or there are no more. -/
  | send (role : Role) (source : Source) (tracked : Bool) (attempts : Nat)
  | close (role : Role)
  | abort (role : Role)
  | tick
  | upkeep
  /-- A segment arrives, with the octets of its payload. -/
  | receive (s : Segment) (payload : Bytes) (remote : Ipv4Address)

/-- What the application gets of a reaction: nothing where the engine stops. -/
def Reaction.handed (a : Reaction) : Option Delivery := a.delivery.toOption.join

theorem Reaction.handed_eq {a : Reaction} {given : Option Delivery} (h : a.delivery = .ok given) :
    a.handed = given := by
  rw [handed, h]
  rfl

namespace Machine

/-! ## The state after an operation -/

/-- The pieces of the data that the link is given. -/
def attempted (m : Machine) (role : Role) (source : Source) (attempts : Nat) : List Piece :=
  if (m.conn role).state = .established then
    (pieces (m.conn role).segmentSize 0 source.size).take attempts
  else []

/-- Send pieces of a source one after the other. -/
def sendPieces (m : Machine) (role : Role) (source : Source) (tracked : Bool) (ps : List Piece) :
    Machine × List Outgoing :=
  steps (fun m p => m.sendPiece role source tracked p) m ps

/-- The state after an operation. -/
def after (m : Machine) : Operation → Machine
  | .connect role localPort remotePort remote sent =>
    match m.connect role localPort remotePort remote with
    | .error _ => m
    | .ok step => if sent then step.machine else step.machine.reset role
  | .listen port =>
    match m.listen port with
    | .error _ => m
    | .ok m => m
  | .send role source tracked attempts =>
    (m.sendPieces role source tracked (m.attempted role source attempts)).1
  | .close role => (m.close role).machine
  | .abort role => (m.abort role).machine
  | .tick => m.tick
  | .upkeep => m.upkeep.1
  | .receive s _ remote => (m.receive s remote).machine

/-- The state after a run. -/
def run (m : Machine) (ops : List Operation) : Machine := ops.foldl after m

@[simp] theorem run_nil (m : Machine) : m.run [] = m := rfl

@[simp] theorem run_cons (m : Machine) (op : Operation) (ops : List Operation) :
    m.run (op :: ops) = (m.after op).run ops := rfl

@[simp] theorem run_append (m : Machine) (ops ops' : List Operation) :
    m.run (ops ++ ops') = (m.run ops).run ops' := List.foldl_append

/-- What holds at the start and is kept by every operation holds after every run. -/
theorem run_induction {P : Machine → Prop} {m : Machine} (start : P m)
    (keep : ∀ m op, P m → P (m.after op)) (ops : List Operation) : P (m.run ops) := by
  induction ops generalizing m with
  | nil => exact start
  | cons op ops ih => exact ih (keep m op start)

/-- What holds at the start and is kept by every step holds after all of them. -/
theorem steps_induction {α : Type} {P : Machine → Prop} {step : Machine → α → Step}
    (keep : ∀ m a, P m → P (step m a).machine) {m : Machine} (start : P m) (l : List α) :
    P (steps step m l).1 := by
  induction l generalizing m with
  | nil => exact start
  | cons a l ih => exact ih (keep m a start)

/-! ## What an operation sends and hands over -/

/-- The role whose connection takes a segment, if one does. -/
def responder? (m : Machine) (s : Segment) (remote : Ipv4Address) : Option Role :=
  if !(m.receive s remote).concerned then none
  else if s.dstPort = m.policy.serverPort ∧ !m.server.state.isAging then some .server
  else m.owner? s remote

/-- The segments that steps made one after the other send for a role, where `who` tells for which
role a step is made. -/
def sentInSteps {α : Type} (role : Role) (who : Machine → α → Option Role)
    (step : Machine → α → Step) (m : Machine) : List α → List Outgoing
  | [] => []
  | a :: rest =>
    (if who m a = some role then (step m a).out.toList else []) ++
      sentInSteps role who step (step m a).machine rest

/-- The role whose segment is in slot `i`. -/
def roleAt (m : Machine) (i : Nat) : Option Role := (m.pool.get? i).map (·.role)

/-- The segments that an operation sends on the connection of a role. -/
def sentBy (m : Machine) (role : Role) : Operation → List Outgoing
  | .connect r localPort remotePort remote _ =>
    match m.connect r localPort remotePort remote with
    | .error _ => []
    | .ok step => if r = role then step.out.toList else []
  | .listen _ => []
  | .send r source tracked attempts =>
    if r = role then (m.sendPieces r source tracked (m.attempted r source attempts)).2 else []
  | .close r => if r = role then (m.close r).out.toList else []
  | .abort r => if r = role then (m.abort r).out.toList else []
  | .tick => []
  | .upkeep =>
    sentInSteps role roleAt resend m (List.range poolSize) ++
      sentInSteps role (fun _ r => some r) reap m.resendDue.1 Role.all
  | .receive s _ remote =>
    if m.responder? s remote = some role then (m.receive s remote).out.toList else []

/-- What an operation hands to the application for a role. -/
def deliveryTo (m : Machine) (role : Role) : Operation → Option Delivery
  | .receive s _ remote => (m.receive s remote).handed.filter (·.role = role)
  | _ => none

/-- The octets that an operation hands to the application for a role: the last ones of the
payload. -/
def handedBy (m : Machine) (role : Role) (op : Operation) : Bytes :=
  match op, m.deliveryTo role op with
  | .receive _ payload _, some d => (payload.drop d.skip).take d.count
  | _, _ => []

/-- The octets that a run hands to the application for a role. -/
def handedIn (role : Role) : Machine → List Operation → Bytes
  | _, [] => []
  | m, op :: ops => m.handedBy role op ++ handedIn role (m.after op) ops

/-- The part of a run up to the end of a connection. -/
def untilClosed (role : Role) : Machine → List Operation → List Operation
  | _, [] => []
  | m, op :: ops =>
    if (m.conn role).state = .closed then [] else op :: untilClosed role (m.after op) ops

/-! ## Since a connection was last closed or listening -/

/-- From the operations `before` to the operations `ops` the connection of a role has been in use. -/
def InUse (start : Machine) (role : Role) (before ops : List Operation) : Prop :=
  ∀ done, before <+: done → done <+: ops → ((start.run done).conn role).state.isAging

/-- What holds of each of the operations `ops` that happens while the connection of a role is in
use, as it is until their end. -/
def WhileInUse (start : Machine) (role : Role) (ops : List Operation)
    (P : Machine → Operation → Prop) : Prop :=
  ∀ before op, before ++ [op] <+: ops → InUse start role before ops → P (start.run before) op

section InUse

variable {start : Machine} {role : Role} {before ops : List Operation} {op : Operation}
  {P : Machine → Operation → Prop}

theorem InUse.refl (aging : ((start.run ops).conn role).state.isAging) :
    InUse start role ops ops := by
  intro done hbefore hafter
  obtain rfl : ops = done := hbefore.eq_of_length (Nat.le_antisymm hbefore.length_le hafter.length_le)
  exact aging

theorem InUse.snoc (h : InUse start role before ops)
    (aging : ((start.run (ops ++ [op])).conn role).state.isAging) :
    InUse start role before (ops ++ [op]) := by
  intro done hbefore hafter
  rcases List.prefix_concat_iff.mp hafter with rfl | hops
  · exact aging
  · exact h done hbefore hops

/-- What holds of all operations holds of those before the last one. -/
theorem WhileInUse.init (h : WhileInUse start role (ops ++ [op]) P)
    (aging : ((start.run (ops ++ [op])).conn role).state.isAging) : WhileInUse start role ops P :=
  fun before op' hpart hinUse =>
    h before op' (hpart.trans (List.prefix_append _ _)) (hinUse.snoc aging)

theorem WhileInUse.last (h : WhileInUse start role (ops ++ [op]) P)
    (before : ((start.run ops).conn role).state.isAging)
    (aging : ((start.run (ops ++ [op])).conn role).state.isAging) : P (start.run ops) op :=
  h ops op (List.prefix_refl _) ((InUse.refl before).snoc aging)

end InUse

end Machine

end NetEngine.Tcp
