import NetEngine.Proofs.Tcp.Reacting

/-! # The Machine Refines Its Sides

    Each operation makes of each side a **change**: it opens the connection of
    the role, or it is a run of the side.  What the operation sends and hands over
    for the role is what the change does. -/

namespace NetEngine.Tcp

namespace Side

variable {role : Role} {heard : Option Segment} {x y : Side}

/-- A connection that grows old has been opened already. -/
theorem idle_of_opening {sent : List Outgoing} (h : Opening role heard x sent y) :
    x.conn.state.isAging = false := by
  cases h with
  | connect _ _ _ _ closed => rw [closed]; rfl
  | refused _ _ _ _ closed => rw [closed]; rfl
  | listen _ _ idle => exact idle
  | accept _ _ _ _ _ idle => exact idle

/-- No move opens a connection. -/
theorem idle_of_move {out : Option Outgoing} {given : Option Delivery}
    (h : Move role heard x out given y) (idle : x.conn.state.isAging = false) :
    y.conn.state.isAging = false := by
  cases h with
  | age | resend | forget | acknowledge => exact idle
  | drop | abort | endByFin => rfl
  | piece _ _ _ open_ | answerFin _ _ _ open_ => rw [open_] at idle; cases idle
  | finish next closes =>
    rcases closes with ⟨h | h, -⟩ | ⟨h, -⟩ <;> rw [h] at idle <;> cases idle
  | answer _ _ opening | complete _ _ opening | finAcked _ _ opening =>
    rw [opening] at idle
    cases idle
  | take s a arrived receives taken =>
    rw [Connection.conn_of_take taken]
    exact idle

/-- Nothing is handed over unless a segment arrives. -/
theorem handed_eq_nil {sent : List Outgoing} {handed : List Delivery}
    (h : Run role none x sent handed y) : handed = [] := by
  induction h with
  | nil => rfl
  | cons move _ ih =>
    rw [ih, List.append_nil]
    -- The moves that hand something over hear a segment.
    cases move with
    | take s a arrived => cases arrived
    | answerFin s a arrived => cases arrived
    | endByFin s a arrived => cases arrived
    | _ => rfl

end Side

namespace Machine

open Side (Tracks Move Run Opening Change)

variable {m : Machine} {role r : Role}

/-! ## Openings -/

/-- The segment that arrives on the connection of a role, or opens it. -/
def heardBy (m : Machine) (role : Role) : Operation → Option Segment
  | .receive s _ remote => if m.responder? s remote = some role then some s else none
  | _ => none

theorem heardBy_receive_eq_some {s s' : Segment} {payload : Bytes} {remote : Ipv4Address} :
    m.heardBy role (.receive s payload remote) = some s' ↔
      m.responder? s remote = some role ∧ s = s' := by
  simp only [heardBy, Option.ite_none_right_eq_some, Option.some.injEq]

/-- A segment arrives on one connection only. -/
theorem heardBy_unique {op : Operation} {s s' : Segment} (h : m.heardBy role op = some s)
    (h' : m.heardBy r op = some s') : role = r ∧ s = s' := by
  cases op with
  | receive t payload remote =>
    obtain ⟨hrole, hs⟩ := heardBy_receive_eq_some.mp h
    obtain ⟨hrole', hs'⟩ := heardBy_receive_eq_some.mp h'
    exact ⟨Option.some.inj (hrole.symm.trans hrole'), hs.symm.trans hs'⟩
  | _ => cases h

/-- The SYN that opens a connection is sent, and tracked if there is a place. -/
theorem opens_connect (localPort remotePort : UInt16) (remote : Ipv4Address)
    (heard : Option Segment) (closed : (m.conn role).state = .closed) :
    ∃ step, m.connect role localPort remotePort remote = .ok step ∧
      Opening role heard (m.side role) step.out.toList (step.machine.side role) ∧
      Opening role heard (m.side role) step.out.toList ((step.machine.reset role).side role) ∧
      ∀ r, r ≠ role → step.machine.side r = m.side r := by
  let c := m.conn role
  let opening := Side.opening c localPort remotePort remote (c.lastSent + 1) m.policy.maxAge
  let machine := (m.setConn role opening).track role (c.lastSent + 1) 1
    (.control (c.lastSent + 1) .SYN)
  have hconn : machine.conn role = opening := by
    simp [machine]
  have hside : machine.side role = ⟨opening, machine.pool.pendingOf role⟩ := by
    rw [side, hconn]
  refine ⟨⟨machine, some (Side.synOf opening (c.lastSent + 1) .SYN)⟩, ?_, ?_, ?_, ?_⟩
  · unfold connect
    exact if_neg (not_not.mpr closed)
  · have htracks := tracks_track (m.setConn role opening) role (c.lastSent + 1) 1
      (.control (c.lastSent + 1) .SYN)
    rw [pool_setConn] at htracks
    show Opening role heard (m.side role) _ (machine.side role)
    rw [hside]
    exact .connect localPort remotePort remote m.policy.maxAge closed htracks
  · show Opening role heard (m.side role) _ ((machine.reset role).side role)
    rw [side_reset, hconn]
    exact .refused localPort remotePort remote m.policy.maxAge closed
  · intro r hr
    show machine.side r = _
    unfold machine
    rw [side_track_of_ne _ _ _ hr, side_setConn_of_ne _ hr]

theorem opens_listen {port : UInt16} {m' : Machine} (heard : Option Segment)
    (h : m.listen port = .ok m') :
    Opening .server heard (m.side .server) [] (m'.side .server) ∧
      m'.side .client = m.side .client := by
  unfold listen at h
  split at h
  · rename_i hidle
    cases h
    refine ⟨.listen port rfl ?_, rfl⟩
    show m.server.state.isAging = false
    rcases hidle with hidle | hidle <;> rw [hidle] <;> rfl
  · cases h

theorem opens_accept (m : Machine) (s : Segment) (remote : Ipv4Address)
    (idle : m.server.state.isAging = false) :
    Opening .server (some s) (m.side .server) (m.acceptSyn s remote).out.toList
        ((m.acceptSyn s remote).machine.side .server) ∧
      (m.acceptSyn s remote).machine.side .client = m.side .client := by
  let seq := m.server.lastSent + (1500 + m.isn.draw.1.toNat)
  let c := Side.accepting m.server s remote seq m.policy.maxAge
  -- The pool holds nothing for the server when the answer to the SYN is tracked.
  let ready := forget { m with isn := m.isn.draw.2, server := c } .server
  have hconn : ready.conn .server = c := rfl
  have hpool : ready.pool.pendingOf .server = 0 := by
    simp [ready, forget]
  have htracks := tracks_track ready .server seq 1 (.control seq (.SYN ||| .ACK))
  rw [hpool] at htracks
  have hmachine : (m.acceptSyn s remote).machine =
      ready.track .server seq 1 (.control seq (.SYN ||| .ACK)) := rfl
  have hside : (m.acceptSyn s remote).machine.side .server =
      ⟨c, (m.acceptSyn s remote).machine.pool.pendingOf .server⟩ := by
    rw [side, hmachine, conn_track, hconn]
  rw [← hmachine] at htracks
  constructor
  · rw [hside]
    exact .accept s remote seq m.policy.maxAge rfl idle rfl htracks
  · rw [hmachine, side_track_of_ne _ _ _ (by decide)]
    exact (side_forget_of_ne (by decide)).trans rfl

/-! ## Operations -/

/-- What is handed over for a role is handed over in its name. -/
theorem role_of_run {x y : Side} {heard : Option Segment} {sent : List Outgoing}
    {handed : List Delivery} (h : Run role heard x sent handed y) :
    ∀ d ∈ handed, d.role = role := by
  have hdelivery {a : Taken} {s : Segment} : ∀ d ∈ a.handed role s, d.role = role :=
    fun d hd => (Taken.handed_eq_some_iff.mp hd).1
  induction h with
  | nil => simp
  | cons move _ ih =>
    intro d hd
    rcases List.mem_append.mp hd with hd | hd
    · rw [Option.mem_toList] at hd
      cases move <;> first | exact hdelivery d hd | cases hd
    · exact ih d hd

/-- What the machine does for one role is a run of the side of each. -/
theorem Acts.run {m' : Machine} {heard : Option Segment} {sent : List Outgoing}
    {handed : List Delivery} (h : Acts r heard m sent handed m') (role : Role) :
    Run role (if r = role then heard else none) (m.side role) (if r = role then sent else [])
      (if r = role then handed else []) (m'.side role) := by
  by_cases hr : r = role
  · subst hr
    simpa using h.own
  · rw [if_neg hr, if_neg hr, if_neg hr, h.other role (Ne.symm hr)]
    exact .nil _

theorem run_tick (m : Machine) (role : Role) :
    Run role none (m.side role) [] [] (m.tick.side role) := by
  have hside : m.tick.side role = ⟨(m.conn role).tick, m.pool.pendingOf role⟩ := by
    -- The timers of the pool do not show.
    have hpool : m.tick.pool.pendingOf role = m.pool.pendingOf role := Pool.pendingOf_tick
    unfold side
    rw [hpool]
    cases role <;> rfl
  rw [hside]
  unfold Connection.tick
  split
  · exact .single (.age _)
  · exact .nil _

theorem change_connect (m : Machine) (role r : Role) (localPort remotePort : UInt16)
    (remote : Ipv4Address) (sent : Bool) :
    let op := Operation.connect r localPort remotePort remote sent
    Change role none (m.side role) (m.sentBy role op) [] ((m.after op).side role) := by
  dsimp only [after, sentBy]
  by_cases hclosed : (m.conn r).state = .closed
  · obtain ⟨step, hstep, hsent, hrefused, hother⟩ :=
      opens_connect localPort remotePort remote none hclosed
    rw [hstep]
    dsimp only
    by_cases hr : r = role
    · -- The link decides which of the two openings it is.
      subst hr
      rw [if_pos rfl]
      cases sent
      · exact .opening hrefused rfl
      · exact .opening hsent rfl
    · have hr' := Ne.symm hr
      rw [if_neg hr]
      refine .run ?_
      cases sent
      · rw [if_neg (by decide), side_reset_of_ne hr', hother role hr']
        exact .nil _
      · rw [if_pos rfl, hother role hr']
        exact .nil _
  · have herror : m.connect r localPort remotePort remote = .error .illegal := if_pos hclosed
    rw [herror]
    exact .run (.nil _)

theorem change_listen (m : Machine) (role : Role) (port : UInt16) :
    Change role none (m.side role) [] [] ((m.after (.listen port)).side role) := by
  dsimp only [after]
  split
  · exact .run (.nil _)
  · rename_i m' h
    obtain ⟨hserver, hclient⟩ := opens_listen none h
    cases role
    · rw [hclient]
      exact .run (.nil _)
    · exact .opening hserver rfl

theorem change_send (m : Machine) (role r : Role) (source : Source) (tracked : Bool)
    (attempts : Nat) :
    let op := Operation.send r source tracked attempts
    Run role none (m.side role) (m.sentBy role op) [] ((m.after op).side role) := by
  dsimp only [after, sentBy, attempted]
  by_cases hestablished : (m.conn r).state = .established
  · rw [if_pos hestablished]
    simpa using (acts_sendPieces none _ hestablished).run role
  · have hnothing : m.sendPieces r source tracked [] = (m, []) := rfl
    rw [if_neg hestablished, hnothing, ite_self]
    exact .nil _

theorem change_receive (m : Machine) (role : Role) (s : Segment) (payload : Bytes)
    (remote : Ipv4Address) :
    let op := Operation.receive s payload remote
    Change role (m.heardBy role op) (m.side role) (m.sentBy role op)
      (m.deliveryTo role op).toList ((m.after op).side role) := by
  dsimp only [heardBy, after, sentBy, deliveryTo]
  rcases receive_cases m s remote with ⟨r, responder, -, result⟩ | ⟨responder, idle, -, result⟩ |
    ⟨responder, sides, delivery⟩
  · -- The segment belongs to a connection.
    rw [responder, result]
    have hacts : Acts r (some s) m _ _ _ :=
      (reacts_receiveFor (m.mixIn s) r s).congr_left fun r => (side_mixIn m s r).symm
    have hrun := hacts.run role
    have hfilter : (((m.mixIn s).receiveFor r s).handed.filter (·.role = role)).toList =
        if r = role then ((m.mixIn s).receiveFor r s).handed.toList else [] := by
      cases hd : ((m.mixIn s).receiveFor r s).handed with
      | none => simp
      | some d =>
        have hrole : d.role = r := role_of_run hacts.own d (by simp [hd])
        by_cases hr : r = role <;> simp [Option.filter_some, hrole, hr]
    rw [hfilter]
    simp only [Option.some.injEq]
    exact .run hrun
  · -- It opens one.
    rw [responder, result]
    obtain ⟨hserver, hclient⟩ := opens_accept (m.mixIn s) s remote
      (by simpa using idle)
    rw [side_mixIn] at hserver hclient
    cases role
    · rw [if_neg (by decide), if_neg (by decide), hclient]
      exact .run (.nil _)
    · rw [if_pos rfl, if_pos rfl]
      exact .opening hserver rfl
  · -- It concerns nobody.
    rw [responder, if_neg (by simp), if_neg (by simp), Reaction.handed_eq delivery, sides role]
    exact .run (.nil _)

/-- **Refinement**: each operation changes each side as its moves tell. -/
theorem change_after (m : Machine) (role : Role) (op : Operation) :
    Change role (m.heardBy role op) (m.side role) (m.sentBy role op) (m.deliveryTo role op).toList
      ((m.after op).side role) := by
  cases op with
  | connect r localPort remotePort remote sent =>
    exact change_connect m role r localPort remotePort remote sent
  | listen port => exact change_listen m role port
  | send r source tracked attempts =>
    exact .run (change_send m role r source tracked attempts)
  | close r =>
    have hrun := (acts_close m r none).run role
    rw [ite_self, ite_self] at hrun
    exact .run hrun
  | abort r =>
    have hrun := (acts_abort m r none).run role
    rw [ite_self, ite_self] at hrun
    exact .run hrun
  | tick => exact .run (run_tick m role)
  | upkeep => exact .run (run_upkeep m role)
  | receive s payload remote => exact change_receive m role s payload remote

/-! ## Connections that have been opened -/

/-- No connection is opened where there is one. -/
theorem run_after (op : Operation) (aging : (m.conn role).state.isAging) :
    Side.Run role (m.heardBy role op) (m.side role) (m.sentBy role op)
      (m.deliveryTo role op).toList ((m.after op).side role) := by
  rcases change_after m role op with ⟨opens, -⟩ | ⟨moves⟩
  · have hidle : (m.conn role).state.isAging = false := Side.idle_of_opening opens
    rw [hidle] at aging
    cases aging
  · exact moves

/-- A segment that arrives on a connection in use belongs to it, and is received for it. -/
theorem receive_of_heard {s : Segment} {op : Operation} (heard : s ∈ m.heardBy role op)
    (aging : (m.conn role).state.isAging) :
    ∃ payload remote, op = .receive s payload remote ∧
      (m.conn role).owns s.dstPort s.srcPort remote ∧
      m.receive s remote = (m.mixIn s).receiveFor role s := by
  cases op with
  | receive s' payload remote =>
    simp only [heardBy] at heard
    split at heard
    · rename_i hresponder
      cases heard
      refine ⟨payload, remote, rfl, ?_⟩
      rcases receive_cases m s remote with ⟨r, responder, owns, result⟩ | ⟨responder, idle, -, -⟩ |
        ⟨responder, -, -⟩
      · rw [hresponder] at responder
        cases responder
        exact ⟨owns, result⟩
      · -- A SYN opens only a connection that is not in use.
        rw [hresponder] at responder
        cases responder
        change m.server.state.isAging = true at aging
        rw [idle] at aging
        cases aging
      · rw [hresponder] at responder
        cases responder
    · cases heard
  | _ => cases heard

end Machine

end NetEngine.Tcp
