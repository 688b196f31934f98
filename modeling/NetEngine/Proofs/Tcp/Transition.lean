import NetEngine.Proofs.Tcp.Numbering
import NetEngine.Proofs.Tcp.Upkeep

/-! # Transitions Between States

    Every operation leaves the state of a connection as it is, or moves it along
    an edge of a small graph.

    * **Turn**: what a segment makes of the state of the connection that it
      belongs to.
    * **Transition**: what an operation makes of the state, together with the
      reason.  Whatever happens to a state is one of these.

    Where a segment has to acknowledge our SYN or our FIN, the connection asks for
    the next number.  What has been sent before tells that this is the number
    behind the SYN or the FIN. -/

namespace NetEngine.Tcp

/-! ## The graph -/

/-- The states that a connection can be moved to from this one. -/
def State.next : State → List State
  | .closed => [.listen, .synSent, .synReceived]
  | .listen => [.closed, .synReceived]
  | .synSent => [.established, .closed]
  | .synReceived => [.established, .lastAck, .finWait1, .closed]
  | .established => [.finWait1, .lastAck, .closed]
  | .finWait1 => [.finWait2, .closed]
  | .finWait2 | .lastAck => [.closed]
  | .closeWait | .closing | .timeWait => []

/-- Every connection can be given up. -/
theorem State.closed_mem_next {role : Role} {s : State} (entered : s.isEntered role)
    (open_ : s ≠ .closed) : .closed ∈ s.next := by
  cases s <;> first | exact absurd rfl open_ | (simp [State.next]; done) | cases entered

/-! ## Turns -/

/-- What a segment makes of the state of its connection. -/
inductive Connection.Turns (c : Connection) (s : Segment) : State → Prop
  | stay : c.Turns s c.state
  | reset (rst : s.flags.rst) : c.Turns s .closed
  | answer (opening : c.state = .synSent) (answers : Machine.answersSyn c s) :
      c.Turns s .established
  /-- The segment that completes the handshake may end the data of the peer as well. -/
  | complete (next : State) (opening : c.state = .synReceived)
      (completes : Machine.completesHandshake c s)
      (opens : next = .established ∨ next = .lastAck) : c.Turns s next
  | fin (open_ : c.state = .established) (fin : s.flags.fin) : c.Turns s .lastAck
  | finAcked (closing : c.state = .finWait1) (inOrder : s.seq.distance c.lastReceived ≤ 1)
      (acked : s.flags.ack ∧ 0 ≤ s.ackNumber.distance c.lastSent) : c.Turns s .finWait2
  | endByFin (closing : c.state = .finWait1 ∨ c.state = .finWait2) (fin : s.flags.fin) :
      c.Turns s .closed
  | lastAcked (last : c.state = .lastAck)
      (acked : s.flags.ack ∧ 0 ≤ s.ackNumber.distance c.lastSent) : c.Turns s .closed

/-- A turn depends on the state and on the numbers, except for the acknowledgments. -/
theorem Connection.Turns.congr {c c' : Connection} {s : Segment} {next : State}
    (h : c'.Turns s next) (state : c'.state = c.state) (lastSent : c'.lastSent = c.lastSent)
    (lastReceived : c'.lastReceived = c.lastReceived) : c.Turns s next := by
  cases h with
  | stay =>
    rw [state]
    exact .stay
  | reset rst => exact .reset rst
  | answer opening answers =>
    unfold Machine.answersSyn at answers
    rw [lastSent] at answers
    exact .answer (state ▸ opening) answers
  | complete next opening completes opens =>
    unfold Machine.completesHandshake at completes
    rw [lastSent] at completes
    exact .complete next (state ▸ opening) completes opens
  | fin open_ fin => exact .fin (state ▸ open_) fin
  | finAcked closing inOrder acked =>
    exact .finAcked (state ▸ closing) (lastReceived ▸ inOrder) (lastSent ▸ acked)
  | endByFin closing fin => exact .endByFin (state ▸ closing) fin
  | lastAcked last acked => exact .lastAcked (state ▸ last) (lastSent ▸ acked)

namespace Machine

variable {m : Machine} {role : Role} {s : Segment}

theorem state_settle {a : Taken} (taken : (m.conn role).take s = some a) :
    ((m.settle role a).machine.conn role).state = (m.conn role).state := by
  obtain ⟨age, hconn⟩ := conn_settle m role a
  rw [hconn, Connection.conn_of_take taken]

/-- A connection that takes a segment stays open, or is ended by a FIN. -/
theorem state_receiveOpen (m : Machine) (role : Role) (s : Segment) :
    ((m.receiveOpen role s).machine.conn role).state = (m.conn role).state ∨
      s.flags.fin ∧ ((m.receiveOpen role s).machine.conn role).state = .lastAck := by
  unfold receiveOpen
  cases htake : (m.conn role).take s with
  | none => exact .inl rfl
  | some a =>
    dsimp only
    by_cases hfin : a.fin = true
    · rw [if_pos hfin]
      exact .inr ⟨Connection.fin_of_take htake hfin, by simp⟩
    · rw [if_neg hfin]
      exact .inl (state_settle htake)

theorem turns_receiveClosing
    (closing : (m.conn role).state = .finWait1 ∨ (m.conn role).state = .finWait2) :
    (m.conn role).Turns s ((m.receiveClosing role s).machine.conn role).state := by
  cases htake : (m.conn role).take s with
  | none =>
    rw [receiveClosing, htake]
    exact .stay
  | some a =>
    rw [receiveClosing, htake]
    dsimp only
    rw [← settle]
    by_cases hfin : a.fin = true
    · rw [if_pos hfin, state_reset]
      exact .endByFin closing (Connection.fin_of_take htake hfin)
    · rw [if_neg hfin]
      split
      · -- Our FIN is acknowledged.
        rename_i h
        simp only [Bool.and_eq_true, decide_eq_true_eq] at h
        rw [state_setState_self]
        exact .finAcked h.2 (Connection.take_eq_some htake).1 h.1
      · rw [state_settle htake]
        exact .stay

theorem turns_receiveInState (m : Machine) (role : Role) (s : Segment) :
    (m.conn role).Turns s ((m.receiveInState role s).machine.conn role).state := by
  unfold receiveInState
  dsimp only
  split
  · rename_i hstate
    split
    · -- The peer has answered our SYN.
      rename_i hanswers
      have hturns : (m.conn role).Turns s .established := .answer hstate hanswers
      have hopened : ((((m.setConn role (Side.answered (m.conn role) s)).forget role).rejuvenate
          role).conn role).state = .established := by
        simp [Side.answered]
      rw [← hopened] at hturns
      exact hturns
    · exact .stay
  · rename_i hstate
    split
    · -- The payload is taken once the handshake is over.
      rename_i hcompletes
      have hopened : ((m.opened role s).conn role).state = .established := by
        simp [opened]
      refine .complete _ hstate hcompletes ?_
      rcases state_receiveOpen (m.opened role s) role s with h | ⟨-, h⟩
      · exact .inl (h.trans hopened)
      · exact .inr h
    · exact .stay
  · rename_i hstate
    rcases state_receiveOpen m role s with h | ⟨hfin, h⟩
    · rw [h]
      exact .stay
    · rw [h]
      exact .fin hstate hfin
  · exact turns_receiveClosing (.inl ‹_›)
  · exact turns_receiveClosing (.inr ‹_›)
  · rename_i hstate
    split
    · rename_i hacked
      simp only [Bool.and_eq_true, decide_eq_true_eq] at hacked
      have hreset : (((m.reset role).keep).machine.conn role).state = .closed := state_reset _ _
      rw [hreset]
      exact .lastAcked hstate hacked
    · exact .stay
  · exact .stay

/-- **A segment turns the connection that it belongs to.** -/
theorem turns_receiveFor (m : Machine) (role : Role) (s : Segment) :
    (m.conn role).Turns s ((m.receiveFor role s).machine.conn role).state := by
  unfold receiveFor
  dsimp only
  split
  · have hreset : ((((m.rejuvenate role).reset role).keep).machine.conn role).state = .closed :=
      state_reset _ _
    rw [hreset]
    exact .reset ‹_›
  · obtain ⟨age, lastAcked, window, hconn⟩ := conn_heeded m role s
    exact (turns_receiveInState ((m.rejuvenate role).takeAck role s) role s).congr
      (by rw [hconn]) (by rw [hconn]) (by rw [hconn])

/-! ## Transitions -/

/-- What an operation makes of the state of the connection of a role. -/
inductive Transition (m : Machine) (role : Role) (op : Operation) : State → Prop
  | stay : Transition m role op (m.conn role).state
  | connect (localPort remotePort : UInt16) (remote : Ipv4Address)
      (called : op = .connect role localPort remotePort remote true)
      (closed : (m.conn role).state = .closed) : Transition m role op .synSent
  | listen (port : UInt16) (called : op = .listen port) (server : role = .server)
      (idle : (m.conn role).state.isAging = false) : Transition m role op .listen
  | accept (s : Segment) (heard : s ∈ m.heardBy role op) (server : role = .server)
      (idle : (m.conn role).state.isAging = false) (syn : s.flags.syn && !s.flags.ack) :
      Transition m role op .synReceived
  | turn (s : Segment) (next : State) (heard : s ∈ m.heardBy role op)
      (turns : (m.conn role).Turns s next) : Transition m role op next
  | close (called : op = .close role) : Transition m role op (m.conn role).state.afterClose
  | abort (called : op = .abort role) : Transition m role op .closed
  /-- A segment has no retry left. -/
  | gaveUp (t : Tracked) (called : op = .upkeep) (tracked : t ∈ m.trackedFor role)
      (due : t.timeout = 0) (spent : t.retries = 0) : Transition m role op .closed
  | reaped (called : op = .upkeep) (idle : m.resendDue.1.isIdle role) :
      Transition m role op (m.conn role).state.reaped

namespace Transition

variable {op : Operation} {m' : Machine}

/-- What leaves the side of a role alone leaves its state alone. -/
theorem of_side (h : m'.side role = m.side role) :
    Transition m role op (m'.conn role).state := by
  have hconn : m'.conn role = m.conn role := congrArg Side.conn h
  rw [hconn]
  exact .stay

/-- What is done for one role is no transition of the other one. -/
theorem of_acts {r : Role} {heard : Option Segment} {sent : List Outgoing} {handed : List Delivery}
    (acts : Acts r heard m sent handed m')
    (own : r = role → Transition m role op (m'.conn role).state) :
    Transition m role op (m'.conn role).state := by
  by_cases hr : r = role
  · exact own hr
  · exact of_side (acts.other role (Ne.symm hr))

end Transition

theorem transition_connect (m : Machine) (role r : Role) (localPort remotePort : UInt16)
    (remote : Ipv4Address) (sent : Bool) :
    let op := Operation.connect r localPort remotePort remote sent
    Transition m role op ((m.after op).conn role).state := by
  dsimp only [after]
  by_cases hclosed : (m.conn r).state = .closed
  · obtain ⟨step, hstep, hopens, hrefused, hother⟩ :=
      opens_connect localPort remotePort remote none hclosed
    rw [hstep]
    dsimp only
    by_cases hr : r = role
    · subst hr
      cases sent
      · -- The SYN has not been sent, and the connection is closed as before.
        rw [if_neg (by decide), state_reset, ← hclosed]
        exact .stay
      · rw [if_pos rfl]
        have hsynSent : (step.machine.conn r).state = .synSent := by
          unfold connect at hstep
          rw [if_neg (not_not.mpr hclosed)] at hstep
          cases hstep
          simp
        rw [hsynSent]
        exact .connect localPort remotePort remote rfl hclosed
    · have hside := hother role (Ne.symm hr)
      cases sent
      · rw [if_neg (by decide)]
        exact .of_side ((side_reset_of_ne (Ne.symm hr)).trans hside)
      · rw [if_pos rfl]
        exact .of_side hside
  · have herror : m.connect r localPort remotePort remote = .error .illegal := if_pos hclosed
    rw [herror]
    exact .stay

theorem transition_listen (m : Machine) (role : Role) (port : UInt16) :
    Transition m role (.listen port) ((m.after (.listen port)).conn role).state := by
  dsimp only [after]
  split
  · exact .stay
  · rename_i m' h
    obtain ⟨hopens, hclient⟩ := opens_listen none h
    cases role with
    | client => exact .of_side hclient
    | server =>
      have hlisten : (m'.conn .server).state = .listen := by
        unfold listen at h
        split at h <;> cases h
        rfl
      rw [hlisten]
      exact .listen port rfl rfl (Side.idle_of_opening hopens)

theorem transition_send (m : Machine) (role r : Role) (source : Source) (tracked : Bool)
    (attempts : Nat) :
    let op := Operation.send r source tracked attempts
    Transition m role op ((m.after op).conn role).state := by
  dsimp only [after, attempted]
  by_cases hestablished : (m.conn r).state = .established
  · rw [if_pos hestablished]
    refine .of_acts (acts_sendPieces none _ hestablished) ?_
    rintro rfl
    -- Every piece is sent in the state that the first one was sent in.
    have hstate : ∀ (ps : List Piece) (m : Machine),
        ((m.sendPieces r source tracked ps).1.conn r).state = (m.conn r).state := by
      intro ps
      induction ps with
      | nil => exact fun _ => rfl
      | cons p ps ih => exact fun m => (ih _).trans (state_sendPiece m r source tracked p)
    rw [hstate]
    exact .stay
  · rw [if_neg hestablished]
    exact .stay

theorem transition_upkeep (m : Machine) (role : Role) :
    Transition m role .upkeep ((m.after .upkeep).conn role).state := by
  rw [after_upkeep, state_reapIdle]
  rcases state_resendDue m role with hkept | ⟨hclosed, i, t, hslot, hrole, hdue, hspent⟩
  · rw [hkept]
    split
    · exact .reaped rfl ‹_›
    · exact .stay
  · -- A connection that has been given up is not idle.
    have hidle : m.resendDue.1.isIdle role = false := by
      unfold isIdle
      dsimp only
      rw [hclosed]
      rfl
    rw [hidle, hclosed]
    have htracked : t ∈ m.trackedFor role :=
      List.mem_filter.mpr ⟨(Slots.mem_toList _ _).mpr ⟨i, hslot⟩, decide_eq_true hrole⟩
    exact .gaveUp t rfl htracked hdue hspent

theorem transition_receive (m : Machine) (role : Role) (s : Segment) (payload : Bytes)
    (remote : Ipv4Address) :
    let op := Operation.receive s payload remote
    Transition m role op ((m.after op).conn role).state := by
  intro op
  have hheard {r : Role} (responder : m.responder? s remote = some r) : s ∈ m.heardBy r op := by
    show s ∈ if m.responder? s remote = some r then some s else none
    rw [if_pos responder]
    rfl
  have hafter : m.after op = (m.receive s remote).machine := rfl
  rw [hafter]
  rcases receive_cases m s remote with ⟨r, responder, -, result⟩ |
    ⟨responder, idle, syn, result⟩ | ⟨-, sides, -⟩
  · rw [result]
    have hacts : Acts r (some s) m _ _ _ :=
      (reacts_receiveFor (m.mixIn s) r s).congr_left fun r => (side_mixIn m s r).symm
    refine .of_acts hacts ?_
    rintro rfl
    have hturns := turns_receiveFor (m.mixIn s) r s
    rw [conn_mixIn] at hturns
    exact .turn s _ (hheard responder) hturns
  · rw [result]
    cases role with
    | client =>
      have hclient := (opens_accept (m.mixIn s) s remote (by simpa using idle)).2
      exact .of_side (hclient.trans (side_mixIn m s .client))
    | server =>
      have hstate : (((m.mixIn s).acceptSyn s remote).machine.conn .server).state =
          .synReceived := by
        unfold acceptSyn
        dsimp only
        rw [conn_track]
        rfl
      rw [hstate]
      exact .accept s (hheard responder) rfl idle syn
  · exact .of_side (sides role)

/-- **Every operation makes one transition**, or leaves the state as it is. -/
theorem transition_after (m : Machine) (role : Role) (op : Operation) :
    Transition m role op ((m.after op).conn role).state := by
  cases op with
  | connect r localPort remotePort remote sent =>
    exact transition_connect m role r localPort remotePort remote sent
  | listen port => exact transition_listen m role port
  | send r source tracked attempts => exact transition_send m role r source tracked attempts
  | close r =>
    refine .of_acts (acts_close m r none) ?_
    rintro rfl
    have hclose : ((m.after (.close r)).conn r).state = (m.conn r).state.afterClose :=
      state_close m r
    exact hclose ▸ .close rfl
  | abort r =>
    refine .of_acts (acts_abort m r none) ?_
    rintro rfl
    have habort : ((m.after (.abort r)).conn r).state = .closed := state_reset m r
    exact habort ▸ .abort rfl
  | tick =>
    have hstate : (m.tick.conn role).state = (m.conn role).state := by
      rw [conn_tick]
      unfold Connection.tick
      split <;> rfl
    show Transition m role .tick (m.tick.conn role).state
    rw [hstate]
    exact .stay
  | upkeep => exact transition_upkeep m role
  | receive s payload remote => exact transition_receive m role s payload remote

/-! ## Edges -/

/-- A transition is an edge of the graph, if it is one at all. -/
theorem edge_of_transition {op : Operation} {next : State} (h : Transition m role op next)
    (entered : (m.conn role).state.isEntered role) :
    next = (m.conn role).state ∨ next ∈ (m.conn role).state.next := by
  have closed : .closed = (m.conn role).state ∨ .closed ∈ (m.conn role).state.next := by
    by_cases hclosed : (m.conn role).state = .closed
    · exact .inl hclosed.symm
    · exact .inr (State.closed_mem_next entered hclosed)
  -- A reason that names the state leaves one edge; the others leave as many as there are states.
  generalize hstate : (m.conn role).state = state at *
  cases h with
  | stay => exact .inl hstate
  | connect localPort remotePort remote called closed =>
    rw [hstate] at closed
    exact .inr (by rw [closed]; decide)
  | listen port called server idle =>
    rw [hstate] at idle
    cases state <;> first | decide | cases idle
  | accept s heard server idle syn =>
    rw [hstate] at idle
    cases state <;> first | decide | cases idle
  | turn s next heard turns =>
    cases turns with
    | stay => exact .inl hstate
    | reset | endByFin | lastAcked => exact closed
    | answer opening answers =>
      rw [hstate] at opening
      exact .inr (by rw [opening]; decide)
    | complete next opening completes opens =>
      rw [hstate] at opening
      rcases opens with rfl | rfl <;> exact .inr (by rw [opening]; decide)
    | fin open_ fin =>
      rw [hstate] at open_
      exact .inr (by rw [open_]; decide)
    | finAcked closing inOrder acked =>
      rw [hstate] at closing
      exact .inr (by rw [closing]; decide)
  | close called =>
    rw [hstate]
    cases state <;> first | decide | cases entered
  | abort | gaveUp => exact closed
  | reaped called idle =>
    rw [hstate]
    cases state <;> first | decide | cases entered

section Reasons

variable {op : Operation} {next : State} (h : Transition m role op next)

include h

theorem answers_of_transition (before : (m.conn role).state = .synSent)
    (opens : next = .established) : ∃ s ∈ m.heardBy role op, answersSyn (m.conn role) s := by
  cases h with
  | turn s next heard turns =>
    cases turns with
    | answer opening answers => exact ⟨s, heard, answers⟩
    | stay => cases before.symm.trans opens
    | complete _ opening => cases before.symm.trans opening
    | _ => cases opens
  | stay | close | reaped =>
    rw [before] at opens
    cases opens
  | _ => cases opens

theorem completes_of_transition (before : (m.conn role).state = .synReceived)
    (opens : next = .established ∨ next = .lastAck) :
    ∃ s ∈ m.heardBy role op, completesHandshake (m.conn role) s := by
  cases h with
  | turn s next heard turns =>
    cases turns with
    | complete next opening completes => exact ⟨s, heard, completes⟩
    | stay =>
      rw [before] at opens
      rcases opens with h | h <;> cases h
    | answer opening | fin opening => cases before.symm.trans opening
    | _ => rcases opens with h | h <;> cases h
  | stay | close | reaped =>
    rw [before] at opens
    rcases opens with h | h <;> cases h
  | _ => rcases opens with h | h <;> cases h

theorem finAcked_of_transition (before : (m.conn role).state = .finWait1)
    (acks : next = .finWait2) :
    ∃ s ∈ m.heardBy role op, s.seq.distance (m.conn role).lastReceived ≤ 1 ∧
      s.flags.ack ∧ 0 ≤ s.ackNumber.distance (m.conn role).lastSent := by
  cases h with
  | turn s next heard turns =>
    cases turns with
    | finAcked closing inOrder acked => exact ⟨s, heard, inOrder, acked⟩
    | stay => cases before.symm.trans acks
    | complete _ opening => cases before.symm.trans opening
    | _ => cases acks
  | stay | close | reaped =>
    rw [before] at acks
    cases acks
  | _ => cases acks

theorem ended_of_transition (before : (m.conn role).state = .lastAck) (ends : next = .closed) :
    (∃ s ∈ m.heardBy role op, s.flags.rst ∨
        s.flags.ack ∧ 0 ≤ s.ackNumber.distance (m.conn role).lastSent) ∨
      (op = .upkeep ∧ ∃ t ∈ m.trackedFor role, t.timeout = 0 ∧ t.retries = 0) ∨
      (op = .upkeep ∧ m.resendDue.1.isIdle role) ∨ op = .abort role := by
  cases h with
  | turn s next heard turns =>
    cases turns with
    | reset rst => exact .inl ⟨s, heard, .inl rst⟩
    | lastAcked last acked => exact .inl ⟨s, heard, .inr acked⟩
    | stay => cases before.symm.trans ends
    | complete _ opening => cases before.symm.trans opening
    | endByFin closing => rcases closing with h | h <;> cases before.symm.trans h
    | _ => cases ends
  | abort called => exact .inr (.inr (.inr called))
  | gaveUp t called tracked due spent => exact .inr (.inl ⟨called, t, tracked, due, spent⟩)
  | reaped called idle => exact .inr (.inr (.inl ⟨called, idle⟩))
  | stay | close =>
    rw [before] at ends
    cases ends
  | _ => cases ends

end Reasons

/-! ## Runs -/

/-- A segment acknowledges our SYN, the last one that the run has sent, and nothing else. -/
def AcksSyn (start : Machine) (role : Role) (ops : List Operation) (s : Segment) : Prop :=
  s.flags.ack ∧ ∃ n, lastNumber Flags.syn role start ops = some n ∧ s.ackNumber = n + 1

/-- A segment acknowledges our FIN, the last one that the run has sent. -/
def CoversFin (start : Machine) (role : Role) (ops : List Operation) (s : Segment) : Prop :=
  s.flags.ack ∧ ∃ n, lastNumber Flags.fin role start ops = some n ∧
    0 ≤ s.ackNumber.distance (n + 1)

section Runs

variable (policy : Policy) (seed : UInt32) (ops : List Operation)

/-- While the handshake goes on, the next number is the one behind our SYN. -/
theorem acksSyn_of_opening
    (opening : (((fresh policy seed).run ops).conn role).state.isOpening) (ack : s.flags.ack)
    (acked : s.ackNumber = (((fresh policy seed).run ops).conn role).lastSent) :
    AcksSyn (fresh policy seed) role ops s := by
  refine ⟨ack, _, ?_, (acked.trans (SeqNumber.sub_add_cancel _ 1).symm)⟩
  -- Both of the opening states wait for the acknowledgment of a SYN.
  cases hstate : (((fresh policy seed).run ops).conn role).state <;> rw [hstate] at opening <;>
    first
    | exact lastNumber_run (by decide) policy seed ops (by rw [hstate]; rfl) (by decide)
    | cases opening

/-- While our FIN has not been acknowledged, the next number is the one behind it. -/
theorem coversFin_of_closing
    (closing : (((fresh policy seed).run ops).conn role).state = .finWait1 ∨
      (((fresh policy seed).run ops).conn role).state = .lastAck)
    (acked : s.flags.ack ∧
      0 ≤ s.ackNumber.distance (((fresh policy seed).run ops).conn role).lastSent) :
    CoversFin (fresh policy seed) role ops s := by
  have hwaits : (((fresh policy seed).run ops).conn role).state.unacknowledged =
      some (.FIN ||| .ACK) := by
    rcases closing with h | h <;> rw [h] <;> rfl
  have hlast : lastNumber Flags.fin role (fresh policy seed) ops = _ :=
    lastNumber_run (by decide) policy seed ops hwaits (by decide)
  refine ⟨acked.1, _, hlast, ?_⟩
  rw [SeqNumber.sub_add_cancel]
  exact acked.2

end Runs

/-- What the operation `op` may make of the state `before` of a connection when the operations
`ops` have gone in front of it. -/
structure MovesByRule (start : Machine) (role : Role) (ops : List Operation) (op : Operation)
    (before after : State) : Prop where
  edge : after = before ∨ after ∈ before.next
  answered : before = .synSent → after = .established →
    ∃ s ∈ (start.run ops).heardBy role op, s.flags.syn ∧ AcksSyn start role ops s
  completed : before = .synReceived → after = .established ∨ after = .lastAck →
    ∃ s ∈ (start.run ops).heardBy role op, s.flags.syn = false ∧ AcksSyn start role ops s
  finAcked : before = .finWait1 → after = .finWait2 →
    ∃ s ∈ (start.run ops).heardBy role op,
      s.seq.distance ((start.run ops).conn role).lastReceived ≤ 1 ∧ CoversFin start role ops s
  /-- By the peer, by a segment that has no retry left, by the reaper, or by the application. -/
  ended : before = .lastAck → after = .closed →
    (∃ s ∈ (start.run ops).heardBy role op, s.flags.rst ∨ CoversFin start role ops s) ∨
      (op = .upkeep ∧ ∃ t ∈ (start.run ops).trackedFor role, t.timeout = 0 ∧ t.retries = 0) ∨
      (op = .upkeep ∧ (start.run ops).resendDue.1.isIdle role) ∨ op = .abort role

/-- **Every operation moves the states of the connections by the rules**, whatever has gone in
front of it. -/
theorem moves_by_rule (policy : Policy) (seed : UInt32) (ops : List Operation) (op : Operation)
    (role : Role) :
    MovesByRule (fresh policy seed) role ops op (((fresh policy seed).run ops).conn role).state
      (((fresh policy seed).run (ops ++ [op])).conn role).state := by
  have htransition := transition_after ((fresh policy seed).run ops) role op
  rw [run_append]
  constructor
  case edge => exact edge_of_transition htransition (agrees_run policy seed ops role).entered
  case answered =>
    intro hbefore hafter
    obtain ⟨s, heard, answers⟩ := answers_of_transition htransition hbefore hafter
    simp only [answersSyn, Bool.and_eq_true, decide_eq_true_eq] at answers
    exact ⟨s, heard, answers.1.1,
      acksSyn_of_opening policy seed ops (by rw [hbefore]; rfl) answers.1.2 answers.2⟩
  case completed =>
    intro hbefore hafter
    obtain ⟨s, heard, completes⟩ := completes_of_transition htransition hbefore hafter
    simp only [completesHandshake, Bool.and_eq_true, Bool.not_eq_true', decide_eq_true_eq]
      at completes
    exact ⟨s, heard, completes.1.2,
      acksSyn_of_opening policy seed ops (by rw [hbefore]; rfl) completes.1.1 completes.2⟩
  case finAcked =>
    intro hbefore hafter
    obtain ⟨s, heard, inOrder, acked⟩ := finAcked_of_transition htransition hbefore hafter
    exact ⟨s, heard, inOrder, coversFin_of_closing policy seed ops (.inl hbefore) acked⟩
  case ended =>
    intro hbefore hafter
    rcases ended_of_transition htransition hbefore hafter with ⟨s, heard, acked⟩ | hupkeep
    · refine .inl ⟨s, heard, acked.imp_right ?_⟩
      exact coversFin_of_closing policy seed ops (.inr hbefore)
    · exact .inr hupkeep

end Machine

end NetEngine.Tcp
