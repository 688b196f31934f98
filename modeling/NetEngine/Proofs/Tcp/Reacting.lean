import NetEngine.Proofs.Tcp.Sides

/-! # The Sides of the Machine When a Segment Arrives

    A segment belongs to one connection, opens one, or concerns nobody.  Where it
    belongs to a connection, the machine acts for the role of it: each case of
    `receiveInState` is a few moves of the side. -/

namespace NetEngine.Tcp.Machine

open Side (Tracks Move Run)

variable {m : Machine} {role : Role} {s : Segment}

/-! ## Receiving -/

/-- What a segment brings about on the connection of a role. -/
abbrev Reacts (role : Role) (s : Segment) (m : Machine) (a : Reaction) : Prop :=
  Acts role (some s) m a.out.toList a.handed.toList a.machine

theorem acts_takeAck (m : Machine) (role : Role) (s : Segment) :
    Acts role (some s) m [] [] (m.takeAck role s) := by
  unfold takeAck
  dsimp only
  split
  · rename_i h
    obtain ⟨hack, hlater⟩ := Bool.and_eq_true_iff.mp h
    have hlater := of_decide_eq_true hlater
    refine .of_move (.acknowledge s rfl hack hlater) ?_ ?_
    · rw [side_withPool, conn_setConn_self, Pool.pendingOf_forgetCovered, pool_setConn]
    · intro r hr
      rw [side_withPool, conn_setConn_of_ne _ _ hr, Pool.pendingOf_forgetCovered_of_ne hr,
        pool_setConn]
      rfl
  · exact .refl _ _ _

/-- Noting an acknowledgment changes nothing but what it tells. -/
theorem conn_takeAck (m : Machine) (role : Role) (s : Segment) :
    ∃ lastAcked window, (m.takeAck role s).conn role =
      { m.conn role with lastAcked := lastAcked, window := window } := by
  unfold takeAck
  dsimp only
  split
  · refine ⟨s.ackNumber, s.window, ?_⟩
    cases role <;> rfl
  · exact ⟨_, _, rfl⟩

/-- Before the state of the connection tells what a segment brings about, the segment changes
nothing but the age and the acknowledgment. -/
theorem conn_heeded (m : Machine) (role : Role) (s : Segment) :
    ∃ age lastAcked window, ((m.rejuvenate role).takeAck role s).conn role =
      { m.conn role with age := age, lastAcked := lastAcked, window := window } := by
  obtain ⟨lastAcked, window, hconn⟩ := conn_takeAck (m.rejuvenate role) role s
  refine ⟨m.policy.maxAge, lastAcked, window, ?_⟩
  rw [hconn]
  unfold rejuvenate
  rw [conn_setConn_self]

/-- No later acknowledgment is left once one has been noted. -/
theorem noted_takeAck (m : Machine) (role : Role) (s : Segment) (hack : s.flags.ack) :
    ¬ 0 < s.ackNumber.distance ((m.takeAck role s).conn role).lastAcked := by
  unfold takeAck
  dsimp only
  split
  · -- The acknowledgment is the last one then, and not later than itself.
    have : (((m.setConn role { m.conn role with
        lastAcked := s.ackNumber, window := s.window }).conn role).lastAcked) = s.ackNumber := by
      rw [conn_setConn_self]
    cases role <;> simp [conn, setConn]
  · rename_i h
    simpa [hack] using h

/-- What becomes of the machine when a segment is taken that does not end the data of the peer: it
is acknowledged if that is due. -/
def settle (m : Machine) (role : Role) (a : Taken) : Tcp.Step :=
  if a.ack then (m.setConn role a.conn).sendAck role else { machine := m.setConn role a.conn }

/-- An acknowledgment speaks for the connection after the segment. -/
theorem sendAck_out (m : Machine) (role : Role) (c : Connection) :
    ((m.setConn role c).sendAck role).out = some (Side.ackOf c) := by
  show some (Side.ackOf ((m.setConn role c).conn role)) = _
  rw [conn_setConn_self]

/-- Settling changes nothing but what has been received, and the age. -/
theorem conn_settle (m : Machine) (role : Role) (a : Taken) :
    ∃ age, (m.settle role a).machine.conn role = { a.conn with age := age } := by
  unfold settle
  split
  · refine ⟨m.policy.maxAge, ?_⟩
    show ((m.setConn role a.conn).rejuvenate role).conn role = _
    unfold rejuvenate
    rw [conn_setConn_self, conn_setConn_self, policy_setConn]
  · exact ⟨a.conn.age, by rw [conn_setConn_self]⟩

theorem acts_settle {a : Taken}
    (receives : (m.conn role).state = .established ∨ (m.conn role).state = .finWait1 ∨
      (m.conn role).state = .finWait2)
    (taken : (m.conn role).take s = some a) (more : a.fin = false) :
    Acts role (some s) m (m.settle role a).out.toList (a.handed role s).toList
      (m.settle role a).machine := by
  have hmove : Move role (some s) (m.side role) _ (a.handed role s) ⟨a.conn, _⟩ :=
    .take s a rfl receives taken more
  unfold settle
  by_cases hack : a.ack = true
  · rw [if_pos hack] at hmove ⊢
    rw [sendAck_out]
    refine .of_move_age m.policy.maxAge hmove ?_ ?_
    · show ((m.setConn role a.conn).rejuvenate role).side role = _
      rw [side_rejuvenate, conn_setConn_self, policy_setConn, pool_setConn]
    · intro r hr
      show ((m.setConn role a.conn).rejuvenate role).side r = _
      rw [side_rejuvenate_of_ne hr, side_setConn_of_ne _ hr]
  · rw [if_neg hack] at hmove ⊢
    apply Acts.of_move hmove (side_setConn m role a.conn)
    intro r hr
    exact side_setConn_of_ne _ hr

theorem reacts_receiveOpen (s : Segment) (established : (m.conn role).state = .established) :
    Reacts role s m (m.receiveOpen role s) := by
  cases htake : (m.conn role).take s with
  | none =>
    rw [receiveOpen, htake]
    exact .refl _ _ _
  | some a =>
    rw [receiveOpen, htake]
    dsimp only
    by_cases hfin : a.fin = true
    · -- Our FIN goes out at once.
      rw [if_pos hfin]
      obtain ⟨p', htracks, hown⟩ := side_finish (m.setConn role a.conn) role .lastAck
      rw [conn_setConn_self, pool_setConn] at htracks
      rw [conn_setConn_self, policy_setConn] at hown
      unfold Reacts
      dsimp only
      rw [out_finish, conn_setConn_self]
      refine .of_move_age m.policy.maxAge (.answerFin s a rfl established htake hfin htracks)
        hown ?_
      intro r hr
      rw [side_finish_of_ne hr, side_setConn_of_ne _ hr]
    · rw [if_neg hfin]
      exact acts_settle (.inl established) htake (by simpa using hfin)

/-- Our FIN is acknowledged. -/
theorem acts_finAcked (closing : (m.conn role).state = .finWait1)
    (acked : s.flags.ack ∧ 0 ≤ s.ackNumber.distance (m.conn role).lastSent) :
    Acts role (some s) m [] [] (m.setState role .finWait2) :=
  .of_move (.finAcked s rfl closing acked) (side_setConn m role _) fun _ => side_setConn_of_ne _

theorem reacts_receiveClosing (s : Segment)
    (closing : (m.conn role).state = .finWait1 ∨ (m.conn role).state = .finWait2) :
    Reacts role s m (m.receiveClosing role s) := by
  cases htake : (m.conn role).take s with
  | none =>
    rw [receiveClosing, htake]
    exact .refl _ _ _
  | some a =>
    rw [receiveClosing, htake]
    unfold Reacts
    dsimp only
    rw [← settle]
    by_cases hfin : a.fin = true
    · -- The acknowledgment goes out although the connection ends.
      rw [if_pos hfin, settle, if_pos (Connection.ack_of_fin htake hfin), sendAck_out]
      refine .of_move_age m.policy.maxAge (.endByFin s a rfl closing htake hfin) ?_ ?_
      · show (((m.setConn role a.conn).rejuvenate role).reset role).side role = _
        rw [side_reset]
        unfold rejuvenate
        rw [conn_setConn_self, conn_setConn_self, policy_setConn]
      · intro r hr
        show (((m.setConn role a.conn).rejuvenate role).reset role).side r = _
        rw [side_reset_of_ne hr, side_rejuvenate_of_ne hr, side_setConn_of_ne _ hr]
    · rw [if_neg hfin]
      have hsettle := acts_settle (.inr closing) htake (by simpa using hfin)
      split
      · -- Our FIN is acknowledged by the same segment.
        rename_i h
        simp only [Bool.and_eq_true, decide_eq_true_eq] at h
        obtain ⟨⟨hack, hsent⟩, hstate⟩ := h
        obtain ⟨age, hconn⟩ := conn_settle m role a
        rw [Connection.conn_of_take htake] at hconn
        have hacked : Acts role (some s) (m.settle role a).machine [] []
            ((m.settle role a).machine.setState role .finWait2) :=
          acts_finAcked (by rw [hconn]; exact hstate) (by rw [hconn]; exact ⟨hack, hsent⟩)
        have hboth := hsettle.trans hacked
        rw [List.append_nil, List.append_nil] at hboth
        exact hboth
      · exact hsettle

/-- The peer answers our SYN. -/
theorem reacts_answer (opening : (m.conn role).state = .synSent)
    (answers : answersSyn (m.conn role) s) :
    Reacts role s m
      { ((m.setConn role (Side.answered (m.conn role) s)).forget role).sendAck role with
        concerned := true } := by
  let opened := Side.answered (m.conn role) s
  let ready := (m.setConn role opened).forget role
  have hconn : ready.conn role = opened := by
    simp [ready]
  have hpool : ready.pool.pendingOf role = 0 := by
    simp [ready, forget]
  have hout : (ready.sendAck role).out = some (Side.ackOf opened) := by
    show some (Side.ackOf (ready.conn role)) = _
    rw [hconn]
  unfold Reacts
  dsimp only
  rw [hout]
  refine .of_move_age ready.policy.maxAge (.answer s rfl opening answers) ?_ ?_
  · show (ready.rejuvenate role).side role = _
    rw [side_rejuvenate, hconn, hpool]
  · intro r hr
    show (ready.rejuvenate role).side r = _
    rw [side_rejuvenate_of_ne hr]
    unfold ready
    rw [side_forget_of_ne hr, side_setConn_of_ne _ hr]

/-- The connection that a segment opens by completing the handshake. -/
def opened (m : Machine) (role : Role) (s : Segment) : Machine :=
  m.setConn role { m.conn role with state := .established, lastReceived := s.seq - 1 }

theorem reacts_complete (opening : (m.conn role).state = .synReceived)
    (completes : completesHandshake (m.conn role) s)
    (noted : s.flags.ack → ¬ 0 < s.ackNumber.distance (m.conn role).lastAcked) :
    Reacts role s m ((m.opened role s).receiveOpen role s) := by
  have hack : s.flags.ack := by
    simp only [completesHandshake, Bool.and_eq_true] at completes
    exact completes.1.1
  -- The handshake is over before the payload is taken, which an open connection does.
  have hmove : Move role (some s) (m.side role) none none _ :=
    .complete s rfl opening completes (noted hack)
  have hopened : Acts role (some s) m [] [] (m.opened role s) := by
    apply Acts.of_move hmove (side_setConn m role _)
    intro r hr
    exact side_setConn_of_ne _ hr
  have hestablished : ((m.opened role s).conn role).state = .established := by
    unfold opened
    rw [conn_setConn_self]
  exact hopened.trans (reacts_receiveOpen s hestablished)

theorem reacts_receiveInState
    (noted : s.flags.ack → ¬ 0 < s.ackNumber.distance (m.conn role).lastAcked) :
    Reacts role s m (m.receiveInState role s) := by
  unfold receiveInState
  dsimp only
  split
  · rename_i hstate
    split
    · exact reacts_answer hstate ‹_›
    · exact .refl _ _ _
  · rename_i hstate
    split
    · exact reacts_complete hstate ‹_› noted
    · exact .refl _ _ _
  · exact reacts_receiveOpen s ‹_›
  · exact reacts_receiveClosing s (.inl ‹_›)
  · exact reacts_receiveClosing s (.inr ‹_›)
  · split
    · exact acts_reset m role (some s)
    · exact .refl _ _ _
  · exact .refl _ _ _

theorem reacts_receiveFor (m : Machine) (role : Role) (s : Segment) :
    Reacts role s m (m.receiveFor role s) := by
  have hyoung := acts_rejuvenate m role (some s)
  unfold receiveFor
  dsimp only
  split
  · -- A reset drops the connection.
    exact hyoung.trans (acts_reset _ role _)
  · exact (hyoung.trans (acts_takeAck _ role s)).trans
      (reacts_receiveInState (noted_takeAck _ role s))

/-! ## Which connection a segment concerns -/

theorem concerned_receiveOpen (m : Machine) (role : Role) (s : Segment) :
    (m.receiveOpen role s).concerned = true := by
  unfold receiveOpen
  split <;> rfl

theorem concerned_receiveClosing (m : Machine) (role : Role) (s : Segment) :
    (m.receiveClosing role s).concerned = true := by
  unfold receiveClosing
  dsimp only
  split <;> rfl

theorem concerned_receiveFor (m : Machine) (role : Role) (s : Segment) :
    (m.receiveFor role s).concerned = true := by
  unfold receiveFor
  dsimp only
  split
  · rfl
  · unfold receiveInState
    dsimp only
    split
    · split <;> rfl
    · split
      · exact concerned_receiveOpen _ _ _
      · rfl
    · exact concerned_receiveOpen _ _ _
    · exact concerned_receiveClosing _ _ _
    · exact concerned_receiveClosing _ _ _
    · split <;> rfl
    · rfl

@[simp] theorem conn_mixIn (m : Machine) (s : Segment) (r : Role) :
    (m.mixIn s).conn r = m.conn r := by
  unfold mixIn
  split <;> cases r <;> rfl

@[simp] theorem policy_mixIn (m : Machine) (s : Segment) : (m.mixIn s).policy = m.policy := by
  unfold mixIn
  split <;> rfl

@[simp] theorem pool_mixIn (m : Machine) (s : Segment) : (m.mixIn s).pool = m.pool := by
  unfold mixIn
  split <;> rfl

@[simp] theorem server_mixIn (m : Machine) (s : Segment) : (m.mixIn s).server = m.server :=
  conn_mixIn m s .server

theorem side_mixIn (m : Machine) (s : Segment) (r : Role) : (m.mixIn s).side r = m.side r := by
  unfold mixIn
  split
  · exact side_congr rfl rfl rfl r
  · rfl

theorem owner?_mixIn (m : Machine) (s : Segment) (remote : Ipv4Address) :
    (m.mixIn s).owner? s remote = m.owner? s remote := by
  unfold owner?
  simp only [conn_mixIn]

/-- A segment goes to the connection that it belongs to, opens one, or concerns nobody. -/
inductive Received (m : Machine) (s : Segment) (remote : Ipv4Address) : Prop
  | owned (role : Role) (responder : m.responder? s remote = some role)
      (owns : (m.conn role).owns s.dstPort s.srcPort remote)
      (result : m.receive s remote = (m.mixIn s).receiveFor role s)
  | accepted (responder : m.responder? s remote = some .server)
      (idle : m.server.state.isAging = false) (syn : s.flags.syn && !s.flags.ack)
      (result : m.receive s remote = (m.mixIn s).acceptSyn s remote)
  | ignored (responder : m.responder? s remote = none)
      (sides : ∀ r, (m.receive s remote).machine.side r = m.side r)
      (delivery : (m.receive s remote).delivery = .ok none)

theorem received_of_receiveOwned {remote : Ipv4Address}
    (aging : ¬ (s.dstPort = m.policy.serverPort ∧ !m.server.state.isAging))
    (result : m.receive s remote = (m.mixIn s).receiveOwned s remote) : Received m s remote := by
  have hresponder : m.responder? s remote =
      if !(m.receive s remote).concerned then none else m.owner? s remote := by
    unfold responder?
    rw [if_neg aging]
  unfold receiveOwned at result
  rw [owner?_mixIn] at result
  cases howner : m.owner? s remote with
  | none =>
    rw [howner] at result
    refine .ignored ?_ ?_ ?_
    · rw [hresponder, howner, ite_self]
    · intro r
      rw [result]
      exact side_mixIn m s r
    · rw [result]
      rfl
  | some role =>
    rw [howner] at result
    have howns : (m.conn role).owns s.dstPort s.srcPort remote :=
      List.find?_some (p := fun r => (m.conn r).owns s.dstPort s.srcPort remote) howner
    refine .owned role ?_ howns result
    rw [hresponder, result, concerned_receiveFor]
    exact howner

theorem receive_cases (m : Machine) (s : Segment) (remote : Ipv4Address) :
    Received m s remote := by
  have hignored {a : Reaction} (h : m.receive s remote = a) (concerned : a.concerned = false)
      (sides : ∀ r, a.machine.side r = m.side r) (delivery : a.delivery = .ok none) :
      Received m s remote := by
    refine .ignored ?_ (fun r => h ▸ sides r) (h ▸ delivery)
    unfold responder?
    rw [h, concerned]
    rfl
  have hresult : m.receive s remote = (m.mixIn s).receiveMixed s remote := rfl
  unfold receiveMixed at hresult
  simp only [policy_mixIn, server_mixIn] at hresult
  split at hresult
  · -- The segment is for another port than that of the server.
    rename_i hport
    exact received_of_receiveOwned (fun h => hport h.1) hresult
  · rename_i hport
    split at hresult
    · -- The server is not in use, and a SYN opens it.
      rename_i hidle
      split at hresult
      · rename_i hopens
        refine .accepted ?_ (by simpa using hidle) hopens hresult
        unfold responder?
        rw [hresult, if_neg (by simp [acceptSyn]), if_pos ⟨not_not.mp hport, hidle⟩]
      · exact hignored hresult rfl (side_mixIn m s) rfl
    · -- The server is in use, and takes the segments of its own peer only.
      rename_i haging
      split at hresult
      · exact received_of_receiveOwned (fun h => haging h.2) hresult
      · split at hresult
        · apply hignored hresult rfl _ rfl
          intro r
          exact (side_congr rfl rfl rfl r).trans (side_mixIn m s r)
        · exact hignored hresult rfl (side_mixIn m s) rfl

end NetEngine.Tcp.Machine
