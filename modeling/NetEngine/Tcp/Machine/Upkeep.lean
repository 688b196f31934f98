import NetEngine.Tcp.Machine.Open

/-! # Resending and Reaping

    Once in a while the segments that are due are resent, in slot order.  A
    segment that has no retry left takes its connection with it.  After that,
    connections that have been idle for too long are **reaped**: an open one is
    closed in order, any other is dropped. -/

namespace NetEngine.Tcp.Machine

/-- Build a tracked segment again. -/
def rebuild (c : Connection) : Kept → Outgoing
  | .copy octets => .copy c.remoteAddr octets
  | .generated g offset seq len =>
    .fresh c.remoteAddr (c.segment seq .ACK len) (some ⟨g, offset⟩)
  | .control seq flags => .fresh c.remoteAddr (c.segment seq flags 0) none

/-- Give a connection up, as one of its segments has no retry left. -/
def giveUp (m : Machine) (role : Role) : Machine :=
  let m := m.reset role
  { m with counts := { m.counts with failed := m.counts.failed + 1 } }

/-- Resend the segment in slot `i` if it is due. -/
def resend (m : Machine) (i : Nat) : Step :=
  match m.pool.get? i with
  | none => { machine := m }
  | some t =>
    if t.timeout ≠ 0 then { machine := m }
    else if t.retries = 0 then { machine := m.giveUp t.role }
    else
      -- The wait grows with the number of times the segment has been resent.
      let retries := t.retries - 1
      let attempts := UInt8.ofNat (m.policy.retries.toNat - retries.toNat)
      let again := { t with retries := retries, timeout := backoff m.policy.timeout attempts }
      let resent := { m with
        pool := m.pool.put i (some again)
        counts := { m.counts with retransmissions := m.counts.retransmissions + 1 } }
      { machine := resent.rejuvenate t.role
        out := some (rebuild (m.conn t.role) t.kept) }

/-- Make steps one after the other, and gather the segments to be sent. -/
def steps {α : Type} (step : Machine → α → Step) (m : Machine) : List α → Machine × List Outgoing
  | [] => (m, [])
  | a :: rest =>
    let first := step m a
    let others := steps step first.machine rest
    (others.1, first.out.toList ++ others.2)

/-- Has a connection been idle for too long?  One whose SYN is tracked is left to its retries. -/
def isIdle (m : Machine) (role : Role) : Bool :=
  let c := m.conn role
  c.state.isAging && c.age = 0 && !(c.state.isOpening && 0 < m.pool.countOf role)

/-- Reap the connection of a role if it has been idle for too long. -/
def reap (m : Machine) (role : Role) : Step :=
  if m.isIdle role then
    let counted := { m with counts := { m.counts with reaped := m.counts.reaped + 1 } }
    match (m.conn role).state with
    | .established | .closeWait => counted.close role
    | _ => { machine := counted.reset role }
  else { machine := m }

/-- Resend what is due, in slot order. -/
def resendDue (m : Machine) : Machine × List Outgoing := steps resend m (List.range poolSize)

/-- Reap what is idle. -/
def reapIdle (m : Machine) : Machine × List Outgoing := steps reap m Role.all

/-- Resend what is due and reap what is idle. -/
def upkeep (m : Machine) : Machine × List Outgoing :=
  let resent := m.resendDue
  let reaped := resent.1.reapIdle
  (reaped.1, resent.2 ++ reaped.2)

end NetEngine.Tcp.Machine
