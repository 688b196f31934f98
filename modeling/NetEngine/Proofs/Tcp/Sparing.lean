import NetEngine.Proofs.Tcp.Passing
import NetEngine.Proofs.Tcp.Separation

/-! # What Spares a Role

    An operation **spares** a role if it is a call for the other role, or a segment
    that the role does not take.  Between the seconds and the rounds of resending,
    such operations are all that can happen to the other role, and they leave the
    half of this one as it is.

    * **Given up**: how often a role is given up in a round.  This is all that is
      ever counted as failed.
    * **Alone**: a role for which one segment is tracked.  What a round does for it
      is told by this segment. -/

namespace NetEngine.Tcp

/-- A second passes for a half. -/
def Half.tick (x : Half) : Half where
  conn := x.conn.tick
  slots := fun i => (x.slots i).map fun t => { t with timeout := Countdown.tick t.timeout }

namespace Machine

variable {m : Machine} {role r : Role} {op : Operation} {i n : Nat} {t : Tracked}

/-! ## Sparing -/

/-- An operation is not for a role: a call for the other one, or a segment that this one does not
take. -/
def Spares (m : Machine) (role : Role) : Operation → Prop
  | .connect r .. | .send r .. | .close r | .abort r => r ≠ role
  | .listen _ => role ≠ .server
  | .receive s _ remote => m.responder? s remote ≠ some role
  | .tick | .upkeep => False

theorem half_listen {port : UInt16} {m' : Machine} (h : m.listen port = .ok m')
    (client : role ≠ .server) : m'.half role = m.half role := by
  unfold listen at h
  split at h
  · cases h
    refine half_congr ?_ rfl
    cases role with
    | client => rfl
    | server => exact absurd rfl client
  · cases h

/-- **What spares a role leaves its half as it is.** -/
theorem half_after_of_spares (spares : m.Spares role op) : (m.after op).half role = m.half role := by
  cases op with
  | connect r localPort remotePort remote sent =>
    exact half_after_connect_of_ne (Ne.symm spares) localPort remotePort remote sent
  | listen port =>
    simp only [after]
    split
    · rfl
    · exact half_listen ‹_› spares
  | send r source tracked attempts =>
    exact half_sendPieces_of_ne (Ne.symm spares) source tracked _
  | close r => exact half_close_of_ne (Ne.symm spares)
  | abort r => exact half_abort_of_ne (Ne.symm spares)
  | receive s payload remote => exact half_receive spares
  | tick | upkeep => exact spares.elim

/-! ## Time -/

theorem half_tick (m : Machine) (role : Role) : m.tick.half role = (m.half role).tick := by
  unfold half Half.tick
  rw [conn_tick]
  congr 1
  funext i
  show (Slots.get? (Pool.tick m.pool) i).filter _ = ((m.pool.get? i).filter _).map _
  rw [Pool.get?_tick]
  cases m.pool.get? i with
  | none => rfl
  | some t => by_cases hrole : t.role = role <;> simp [Option.filter_some, hrole]

/-- A round of resending and reaping, for one half. -/
theorem half_after_upkeep (m : Machine) (role : Role) :
    ∃ place, (m.after .upkeep).half role =
      ((m.half role).resent m.policy).reaped m.policy role place := by
  have hupkeep := half_upkeep m
  cases role with
  | client => exact ⟨_, hupkeep.1⟩
  | server => exact ⟨_, hupkeep.2⟩

/-! ## What is counted as failed -/

section Failed

theorem failed_sendAck (m : Machine) (role : Role) :
    (m.sendAck role).machine.counts.failed = m.counts.failed := by
  simp [sendAck, rejuvenate]

theorem failed_sendFin (m : Machine) (role : Role) :
    (m.sendFin role).machine.counts.failed = m.counts.failed := by
  simp [sendFin, failed_track]

theorem failed_setState (m : Machine) (role : Role) (s : State) :
    (m.setState role s).counts.failed = m.counts.failed := by
  simp [setState]

theorem failed_sendPieces (m : Machine) (role : Role) (source : Source) (tracked : Bool)
    (ps : List Piece) :
    (m.sendPieces role source tracked ps).1.counts.failed = m.counts.failed := by
  refine steps_induction (P := fun m' => m'.counts.failed = m.counts.failed) (fun m' p h => ?_)
    rfl ps
  rw [← h]
  unfold sendPiece
  by_cases htracked : tracked = true <;> simp [htracked, failed_track]

theorem failed_connect {localPort remotePort : UInt16} {remote : Ipv4Address} {step : Step}
    (opens : m.connect role localPort remotePort remote = .ok step) :
    step.machine.counts.failed = m.counts.failed := by
  unfold connect at opens
  dsimp only at opens
  split at opens
  · cases opens
  · cases opens
    simp [failed_track]

theorem failed_takeAck (m : Machine) (role : Role) (s : Segment) :
    (m.takeAck role s).counts.failed = m.counts.failed := by
  unfold takeAck
  dsimp only
  split <;> simp

theorem failed_receiveOpen (m : Machine) (role : Role) (s : Segment) :
    (m.receiveOpen role s).machine.counts.failed = m.counts.failed := by
  unfold receiveOpen
  split
  · rfl
  · dsimp only
    split
    · simp [failed_sendFin, failed_setState]
    · split <;> simp [failed_sendAck]

theorem failed_receiveClosing (m : Machine) (role : Role) (s : Segment) :
    (m.receiveClosing role s).machine.counts.failed = m.counts.failed := by
  unfold receiveClosing
  dsimp only
  split
  · rfl
  · rename_i a _
    have hstep : (if a.ack then (m.setConn role a.conn).sendAck role
        else { machine := m.setConn role a.conn } : Step).machine.counts.failed =
          m.counts.failed := by
      split <;> simp [failed_sendAck]
    dsimp only
    split
    · rw [counts_reset, hstep]
    · split
      · rw [failed_setState, hstep]
      · exact hstep

theorem failed_receiveInState (m : Machine) (role : Role) (s : Segment) :
    (m.receiveInState role s).machine.counts.failed = m.counts.failed := by
  unfold receiveInState
  dsimp only
  split
  · split
    · simp [failed_sendAck, forget]
    · rfl
  · split
    · simp [failed_receiveOpen]
    · rfl
  · exact failed_receiveOpen m role s
  · exact failed_receiveClosing m role s
  · exact failed_receiveClosing m role s
  · split
    · simp [keep]
    · rfl
  · rfl

theorem failed_receiveFor (m : Machine) (role : Role) (s : Segment) :
    (m.receiveFor role s).machine.counts.failed = m.counts.failed := by
  unfold receiveFor
  dsimp only
  split
  · simp [keep, rejuvenate]
  · simp [failed_receiveInState, failed_takeAck, rejuvenate]

theorem failed_receive (m : Machine) (s : Segment) (remote : Ipv4Address) :
    (m.receive s remote).machine.counts.failed = m.counts.failed := by
  have hmix : (m.mixIn s).counts.failed = m.counts.failed := by
    unfold mixIn
    split <;> rfl
  have howned (m : Machine) : (m.receiveOwned s remote).machine.counts.failed = m.counts.failed := by
    unfold receiveOwned
    split
    · exact failed_receiveFor m _ s
    · rfl
  rw [← hmix]
  show ((m.mixIn s).receiveMixed s remote).machine.counts.failed = _
  unfold receiveMixed
  dsimp only
  split
  · exact howned _
  · split
    · split
      · exact failed_track _ _ _ _ _
      · rfl
    · split
      · exact howned _
      · split <;> rfl

/-- **Nothing is counted as failed but in a round of resending.** -/
theorem failed_after (resends : op ≠ .upkeep) :
    (m.after op).counts.failed = m.counts.failed := by
  cases op with
  | connect r localPort remotePort remote sent =>
    simp only [after]
    cases hconnect : m.connect r localPort remotePort remote with
    | error err => rfl
    | ok step => cases sent <;> simp [failed_connect hconnect]
  | listen port =>
    simp only [after]
    split
    · rfl
    · rename_i m' h
      unfold listen at h
      split at h <;> cases h
      rfl
  | send r source tracked attempts => exact failed_sendPieces m r source tracked _
  | close r => exact failed_close m r
  | abort r => exact congrArg Counts.failed (counts_reset m r)
  | tick => rfl
  | upkeep => exact absurd rfl resends
  | receive s payload remote => exact failed_receive m s remote

end Failed

/-- How often the role is given up in a round: each time that a segment without a retry has its
turn. -/
def givenUp (m : Machine) (role : Role) : Nat :=
  ((m.turns poolSize).filter (·.role = role)).countP (·.retries = 0)

/-- What is counted as failed in a round is that one role or the other is given up. -/
theorem failed_after_upkeep (m : Machine) (role : Role) :
    (m.after .upkeep).counts.failed =
      m.counts.failed + .ofNat (m.givenUp role + m.givenUp role.other) := by
  have hpassed : Passed m poolSize m.resendDue.1 := passed_resendSlots m poolSize
  rw [after_upkeep, failed_reapIdle, hpassed.failed]
  congr 2
  unfold givenUp
  induction m.turns poolSize with
  | nil => rfl
  | cons t turns ih =>
    cases hrole : t.role <;> cases role <;>
      simp_all [List.countP_cons, Role.other] <;> omega

/-! ## What is sent in a round -/

theorem sentInSteps_append {α : Type} (role : Role) (who : Machine → α → Option Role)
    (step : Machine → α → Step) (m : Machine) (l l' : List α) :
    sentInSteps role who step m (l ++ l') = sentInSteps role who step m l ++
      sentInSteps role who step (steps step m l).1 l' := by
  induction l generalizing m with
  | nil => rfl
  | cons a l ih =>
    rw [List.cons_append, sentInSteps, sentInSteps, ih, List.append_assoc]
    rfl

/-- What is resent for a role are the segments of the role that have their turn. -/
theorem sentInSteps_resend (m : Machine) (role : Role) (n : Nat) :
    sentInSteps role roleAt resend m (List.range n) =
      (((m.turns n).filter (·.role = role)).filter (·.retries ≠ 0)).map fun t =>
        rebuild (m.conn t.role) t.kept := by
  induction n with
  | zero => rfl
  | succ n ih =>
    have hpassed := passed_resendSlots m n
    rw [List.range_succ, sentInSteps_append, ih, turns_succ, List.filter_append, List.filter_append,
      List.map_append]
    congr 1
    simp only [sentInSteps, List.append_nil, hpassed.out_resend]
    cases hturn : m.pool.turn? n with
    | none => simp
    | some t =>
      have hrole : roleAt (steps resend m (List.range n)).1 n = some t.role := by
        unfold roleAt
        rw [(hpassed.turn?_eq_some.mp hturn).1]
        rfl
      by_cases h : t.role = role <;> simp [hrole, h]

/-- The reaper sends nothing for a connection that is not idle. -/
theorem sentInSteps_reap (busy : m.isIdle role = false) :
    sentInSteps role (fun _ r => some r) reap m Role.all = [] := by
  have hreap {m' : Machine} (busy : m'.isIdle role = false) : (m'.reap role).out = none := by
    unfold reap
    rw [if_neg (by simp [busy])]
  cases role with
  | client => simp [sentInSteps, Role.all, hreap busy]
  | server =>
    have hsame : (m.reap .client).machine.side .server = m.side .server :=
      (acts_reap m .client none).other .server (by decide)
    have hbusy := (isIdle_congr hsame).trans busy
    simp [sentInSteps, Role.all, hreap hbusy]

/-- In a round after which the connection is not idle, what is sent for it are the segments that
have their turn and a retry. -/
theorem sentBy_upkeep (busy : m.resendDue.1.isIdle role = false) :
    m.sentBy role .upkeep =
      (((m.turns poolSize).filter (·.role = role)).filter (·.retries ≠ 0)).map fun t =>
        rebuild (m.conn t.role) t.kept := by
  unfold sentBy
  rw [sentInSteps_resend, sentInSteps_reap busy, List.append_nil]

/-! ## A role for which one segment is tracked -/

/-- Where nothing is tracked for a role, none of its segments has its turn. -/
theorem turns_eq_nil_of_empty (empty : ∀ j, m.pool.slotOf role j = none) :
    (m.turns poolSize).filter (·.role = role) = [] := by
  rw [List.filter_eq_nil_iff]
  intro u hu hrole
  obtain ⟨j, -, hturn⟩ := List.mem_filterMap.mp hu
  have hslot := Pool.slotOf_eq_some.mpr ⟨(Pool.turn?_eq_some.mp hturn).1, of_decide_eq_true hrole⟩
  rw [empty j] at hslot
  cases hslot

/-- Slot `i` holds the segment `t`, and nothing else is tracked for the role. -/
def IsAlone (m : Machine) (role : Role) (i : Nat) (t : Tracked) : Prop :=
  ∀ j, m.pool.slotOf role j = if j = i then some t else none

namespace IsAlone

variable (h : m.IsAlone role i t)

include h

theorem slot : m.pool.get? i = some t ∧ t.role = role :=
  Pool.slotOf_eq_some.mp ((h i).trans (if_pos rfl))

/-- Nothing of the role stands in another slot. -/
theorem eq_of_get? {j : Nat} {u : Tracked} (slot : m.pool.get? j = some u) (own : u.role = role) :
    j = i := by
  have hslot := (h j).symm.trans (Pool.slotOf_eq_some.mpr ⟨slot, own⟩)
  by_contra hne
  rw [if_neg hne] at hslot
  cases hslot

/-- The one segment has its turn if it is due. -/
theorem turns_eq :
    (m.turns poolSize).filter (·.role = role) = if t.timeout = 0 then [t] else [] := by
  obtain ⟨hslot, hown⟩ := h.slot
  have hlost : m.pool.isLost role i = false := by
    unfold Pool.isLost
    rw [List.any_eq_false]
    intro j hj hspent
    obtain ⟨u, hu, hrole⟩ := Option.any_eq_true _ _ |>.mp hspent
    simp only [Bool.and_eq_true, decide_eq_true_iff] at hrole
    have hji := h.eq_of_get? hu hrole.1.1
    simp [hji] at hj
  have hturn : m.pool.turn? i = if t.timeout = 0 then some t else none := by
    unfold Pool.turn?
    rw [hslot, Option.filter_some, hown, hlost]
    simp
  have hothers {slots : List Nat} (hnot : i ∉ slots) :
      (slots.filterMap m.pool.turn?).filter (·.role = role) = [] := by
    rw [List.filter_eq_nil_iff]
    intro u hu hrole
    obtain ⟨j, hj, hjturn⟩ := List.mem_filterMap.mp hu
    have hji := h.eq_of_get? (Pool.turn?_eq_some.mp hjturn).1 (of_decide_eq_true hrole)
    exact hnot (hji ▸ hj)
  obtain ⟨behind, hrange, hbehind⟩ := exists_range_eq (Slots.lt_of_get? hslot)
  unfold turns
  rw [hrange, List.filterMap_append, List.filter_append, hothers (by simp), List.nil_append,
    List.filterMap_cons, hturn]
  by_cases hdue : t.timeout = 0 <;> simp [hdue, hown, hothers hbehind]

end IsAlone

end Machine

end NetEngine.Tcp
