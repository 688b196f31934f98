import NetEngine.Proofs.Tcp.Halves
import NetEngine.Proofs.Tcp.Transition

/-! # A SYN That Has Not Been Answered

    While a connection is opening, its SYN is tracked, and a segment of the peer
    ends the opening or leaves it as it is.  An acknowledgment is noted before the
    state of the connection is looked at, and forgets what it covers.

    A segment **loses** our SYN if its acknowledgment covers it, but does not end the
    opening.  A SYN that is tracked stays so, as long as the connection is opening,
    exactly if no segment loses it. -/

namespace NetEngine.Tcp

/-- Does a segment of the peer end the opening of a connection? -/
def Connection.isOpenedBy (c : Connection) (s : Segment) : Bool :=
  match c.state with
  | .synSent => Machine.answersSyn c s
  | .synReceived => Machine.completesHandshake c s
  | _ => false

/-- Is the acknowledgment of a segment noted, and covers our SYN, although the segment does not end
the opening? -/
def Connection.losesSyn (c : Connection) (s : Segment) : Bool :=
  !s.flags.rst && s.flags.ack && 0 < s.ackNumber.distance c.lastAcked &&
    0 < s.ackNumber.distance (c.lastSent - 1) && !c.isOpenedBy s

namespace Machine

variable {m : Machine} {role : Role} {i : Nat} {t : Tracked} {s : Segment}
  {remote : Ipv4Address}

/-! ## What becomes of a tracked SYN -/

/-- The connection of a role has left its state, or what is tracked in slot `i` stays there. -/
def StaysTracked (m : Machine) (role : Role) (i : Nat) (s : Segment) (remote : Ipv4Address) :
    Prop :=
  let after := (m.receive s remote).machine
  (after.conn role).state ≠ (m.conn role).state ∨ after.pool.get? i = m.pool.get? i

/-- A segment that the connection of another role takes, or none, leaves it where it is. -/
theorem staysTracked_of_other (slot : m.pool.get? i = some t) (own : t.role = role)
    (other : m.responder? s remote ≠ some role) : m.StaysTracked role i s remote := by
  right
  rw [slot]
  exact get?_of_half_eq (half_receive other) slot own

/-- Our SYN takes the last number that has been sent. -/
theorem lastByte_of_opening (agrees : Side.Agrees role (m.side role))
    (opening : (m.conn role).state.isOpening) (slot : m.pool.get? i = some t)
    (own : t.role = role) : t.lastByte = (m.conn role).lastSent - 1 := by
  have hmem : t.pending ∈ m.pool.pendingOf role :=
    Pool.mem_pendingOf.mpr ⟨t, (Slots.mem_toList _ _).mpr ⟨i, slot⟩, own, rfl⟩
  obtain ⟨flags, hcontrol⟩ : ∃ flags, Side.control (m.conn role) =
      {.of ((m.conn role).lastSent - 1) 1 (.control ((m.conn role).lastSent - 1) flags)} := by
    unfold Side.control
    cases hstate : (m.conn role).state <;> rw [hstate] at opening <;>
      first | exact ⟨_, rfl⟩ | cases opening
  have hholds : (m.conn role).state.holdsData = false := by
    cases hstate : (m.conn role).state <;> rw [hstate] at opening <;> first | rfl | cases opening
  have hle : m.pool.pendingOf role ≤ Side.control (m.conn role) := agrees.pending_le hholds
  have heq := Multiset.mem_of_le hle hmem
  rw [hcontrol, Multiset.mem_singleton] at heq
  have hlast : t.lastByte = (m.conn role).lastSent - 1 + 0 := congrArg Pending.lastByte heq
  rw [hlast, SeqNumber.add_zero]

/-- A segment that ends the opening changes the state of the connection. -/
theorem state_ne_of_opened (opening : (m.conn role).state.isOpening)
    (opened : (m.conn role).isOpenedBy s) :
    ((m.receiveInState role s).machine.conn role).state ≠ (m.conn role).state := by
  unfold Connection.isOpenedBy at opened
  unfold receiveInState
  dsimp only
  cases hstate : (m.conn role).state <;> rw [hstate] at opening opened
  case synSent =>
    dsimp only at opened ⊢
    rw [if_pos opened]
    simp [sendAck]
  case synReceived =>
    dsimp only at opened ⊢
    rw [if_pos opened]
    have hopened : ((m.opened role s).conn role).state = .established := by
      simp [Machine.opened]
    -- The segment may end the data of the peer as well.
    have hopen :
        (((m.opened role s).receiveOpen role s).machine.conn role).state ≠ .synReceived := by
      rcases state_receiveOpen (m.opened role s) role s with h | ⟨-, h⟩
      · rw [h, hopened]
        decide
      · rw [h]
        decide
    exact hopen
  all_goals exact absurd opening (by decide)

/-- A segment that does not end the opening changes nothing more. -/
theorem receiveInState_of_unopened (opening : (m.conn role).state.isOpening)
    (unopened : (m.conn role).isOpenedBy s = false) : m.receiveInState role s = m.keep := by
  unfold Connection.isOpenedBy at unopened
  unfold receiveInState
  dsimp only
  cases hstate : (m.conn role).state <;> rw [hstate] at opening unopened
  case synSent => exact if_neg (by simpa using unopened)
  case synReceived => exact if_neg (by simpa using unopened)
  all_goals exact absurd opening (by decide)

/-- What is noted of a segment does not tell whether it ends the opening. -/
theorem isOpenedBy_heeded (m : Machine) (role : Role) (s : Segment) :
    (((m.rejuvenate role).takeAck role s).conn role).isOpenedBy s =
      (m.conn role).isOpenedBy s := by
  obtain ⟨age, lastAcked, window, hconn⟩ := conn_heeded m role s
  rw [hconn]
  rfl

/-- A slot of the role after the acknowledgment of a segment has been noted. -/
theorem get?_heeded (slot : m.pool.get? i = some t) (own : t.role = role) :
    ((m.rejuvenate role).takeAck role s).pool.get? i =
      if s.flags.ack && 0 < s.ackNumber.distance (m.conn role).lastAcked &&
        t.isCoveredBy s.ackNumber then none else some t := by
  have hlastAcked : ((m.rejuvenate role).conn role).lastAcked = (m.conn role).lastAcked := by
    simp [rejuvenate]
  have hyoung : (m.rejuvenate role).pool.get? i = some t := by
    unfold rejuvenate
    rw [pool_setConn]
    exact slot
  unfold takeAck
  dsimp only
  rw [hlastAcked]
  by_cases hnoted : (s.flags.ack && 0 < s.ackNumber.distance (m.conn role).lastAcked) = true
  · rw [if_pos hnoted, hnoted, Bool.true_and]
    have hnote : ((m.rejuvenate role).setConn role { (m.rejuvenate role).conn role with
        lastAcked := s.ackNumber, window := s.window }).pool.get? i = some t := by
      rw [pool_setConn]
      exact hyoung
    refine (Pool.get?_forgetCovered hnote).trans ?_
    simp [own]
  · rw [if_neg hnoted, eq_false_of_ne_true hnoted, Bool.false_and, if_neg (by decide)]
    exact hyoung

/-- A segment of the peer leaves a tracked SYN in its slot, or ends the opening, exactly if it does
not lose it. -/
theorem staysTracked_of_own (opening : (m.conn role).state.isOpening)
    (slot : m.pool.get? i = some t) (own : t.role = role)
    (last : t.lastByte = (m.conn role).lastSent - 1) :
    (((m.receiveFor role s).machine.conn role).state ≠ (m.conn role).state ∨
      (m.receiveFor role s).machine.pool.get? i = m.pool.get? i) ↔
      (m.conn role).losesSyn s = false := by
  let heeded := (m.rejuvenate role).takeAck role s
  obtain ⟨age, lastAcked, window, hconn⟩ : ∃ age lastAcked window, heeded.conn role =
      { m.conn role with age := age, lastAcked := lastAcked, window := window } :=
    conn_heeded m role s
  have hstate : (heeded.conn role).state = (m.conn role).state := by rw [hconn]
  by_cases hrst : s.flags.rst = true
  · -- A reset ends the opening.
    have hreset : m.receiveFor role s = ((m.rejuvenate role).reset role).keep := if_pos hrst
    have hclosed : (((m.rejuvenate role).reset role).keep.machine.conn role).state = .closed :=
      state_reset _ _
    have hne : (m.conn role).state ≠ .closed := by
      intro h
      rw [h] at opening
      cases opening
    rw [hreset, hclosed]
    simp [Connection.losesSyn, hrst, hne.symm]
  · have hfor : m.receiveFor role s = heeded.receiveInState role s := if_neg hrst
    have hopening : (heeded.conn role).state.isOpening := by rw [hstate]; exact opening
    rw [hfor]
    by_cases hopened : (m.conn role).isOpenedBy s = true
    · have hne := state_ne_of_opened hopening ((isOpenedBy_heeded m role s).trans hopened)
      rw [hstate] at hne
      simp [Connection.losesSyn, hopened, hne]
    · -- The state stays, so that it depends on the slot.
      have hunopened := eq_false_of_ne_true hopened
      have hkeep : heeded.receiveInState role s = heeded.keep :=
        receiveInState_of_unopened hopening ((isOpenedBy_heeded m role s).trans hunopened)
      have hslot : heeded.keep.machine.pool.get? i = _ := get?_heeded slot own
      have hsame : (heeded.keep.machine.conn role).state = (m.conn role).state := hstate
      rw [hkeep, hslot, hsame, slot]
      unfold Tracked.isCoveredBy Connection.losesSyn
      rw [last, hunopened]
      simp [eq_false_of_ne_true hrst]

/-- **A tracked SYN stays tracked while the connection is opening**, exactly as long as no segment
of the peer loses it. -/
theorem staysTracked_iff (policy : Policy) (seed : UInt32) (ops : List Operation)
    (opening : (((fresh policy seed).run ops).conn role).state.isOpening)
    (slot : ((fresh policy seed).run ops).pool.get? i = some t) (own : t.role = role)
    (s : Segment) (remote : Ipv4Address) :
    ((fresh policy seed).run ops).StaysTracked role i s remote ↔
      ¬ (((fresh policy seed).run ops).responder? s remote = some role ∧
        (((fresh policy seed).run ops).conn role).losesSyn s) := by
  have hlast := lastByte_of_opening (agrees_run policy seed ops role) opening slot own
  generalize (fresh policy seed).run ops = m at *
  by_cases hresponder : m.responder? s remote = some role
  · have haging : (m.conn role).state.isAging := by
      revert opening
      cases (m.conn role).state <;> decide
    have hheard : s ∈ m.heardBy role (.receive s [] remote) := by
      show s ∈ if m.responder? s remote = some role then some s else none
      rw [if_pos hresponder]
      rfl
    obtain ⟨_, _, hop, -, hreceive⟩ := receive_of_heard hheard haging
    obtain ⟨-, -, rfl⟩ := Operation.receive.inj hop
    rw [← conn_mixIn m s role] at opening hlast ⊢
    rw [← pool_mixIn m s] at slot
    have hiff := staysTracked_of_own (s := s) opening slot own hlast
    unfold StaysTracked
    dsimp only
    rw [hreceive, ← conn_mixIn m s role, ← pool_mixIn m s, hiff]
    simp [hresponder]
  · have hstays : m.StaysTracked role i s remote := staysTracked_of_other slot own hresponder
    simp [hstays, hresponder]

/-- A stale acknowledgment, of what came before our SYN, leaves the SYN tracked. -/
theorem staysTracked_of_stale :
    let start := fresh ⟨80, 3, 3, 100, true⟩ 1
    let remote : Ipv4Address := .unspecified
    let syn : Segment := ⟨4000, 80, ⟨100⟩, ⟨0⟩, .SYN, 1024, none, 0⟩
    let ops := [.listen 80, .receive syn [] remote]
    let stale : Segment :=
      ⟨4000, 80, ⟨101⟩, (start.run ops).server.lastSent - 1, .ACK, 1024, none, 0⟩
    (start.run ops).responder? stale remote = some .server ∧
      (start.run ops).StaysTracked .server 0 stale remote := by
  intro start remote syn ops stale
  have hslot : ((start.run ops).pool.get? 0).map (·.role) = some .server := by decide +kernel
  obtain ⟨t, slot, own⟩ := Option.map_eq_some_iff.mp hslot
  exact ⟨by decide +kernel,
    (staysTracked_iff _ _ ops (by decide +kernel) slot own stale remote).mpr (by decide +kernel)⟩

/-- Our SYN is no longer tracked, and the connection still opening, once an acknowledgment of what
has not been sent has been noted. -/
theorem syn_lost_by_forged :
    let start := fresh ⟨80, 3, 3, 100, true⟩ 1
    let remote : Ipv4Address := .unspecified
    let syn : Segment := ⟨4000, 80, ⟨100⟩, ⟨0⟩, .SYN, 1024, none, 0⟩
    let m := start.run [.listen 80, .receive syn [] remote]
    let forged : Segment := ⟨4000, 80, ⟨101⟩, m.server.lastSent + 1000, .ACK, 1024, none, 0⟩
    let after := (m.receive forged remote).machine
    m.server.state = .synReceived ∧ (m.pool.get? 0).map (·.role) = some .server ∧
      forged.flags.isPlausible ∧ after.server.state = .synReceived ∧ after.pool.toList.length = 0 ∧
      ¬ m.StaysTracked .server 0 forged remote := by
  intro start remote syn m forged after
  have hstate : m.server.state = .synReceived := by decide +kernel
  have hafter : after.server.state = .synReceived := by decide +kernel
  have hslot : (m.pool.get? 0).isSome := by decide +kernel
  have hempty : (after.pool.get? 0).isSome = false := by decide +kernel
  refine ⟨hstate, by decide +kernel, by decide +kernel, hafter, by decide +kernel, ?_⟩
  rintro (hleft | hkept)
  · exact hleft (hafter.trans hstate.symm)
  · have hkept' : after.pool.get? 0 = m.pool.get? 0 := hkept
    rw [hkept', hslot] at hempty
    cases hempty

end Machine

end NetEngine.Tcp
