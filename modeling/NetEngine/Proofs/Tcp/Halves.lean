import NetEngine.Proofs.Tcp.Reacting
import NetEngine.Proofs.Tcp.Upkeep

/-! # The Halves of the Machine

    Both roles share one pool, in which each slot belongs to at most one of them.
    What the machine holds for a role, slot by slot, is its **half**.

    The lemmas follow the definitions of the machine: whatever is done for one
    role leaves the half of the other role as it is, the slots of its segments
    and their timers included. -/

namespace NetEngine.Tcp

/-- The other role. -/
def Role.other : Role → Role
  | .client => .server
  | .server => .client

theorem Role.other_ne (role : Role) : role.other ≠ role := by
  cases role <;> decide

/-! ## Slots of a role -/

namespace Pool

variable {p p' : Pool} {role r : Role} {i j : Nat} {t : Tracked}

/-- What is tracked for a role in slot `i`. -/
def slotOf (p : Pool) (role : Role) (i : Nat) : Option Tracked := (p.get? i).filter (·.role = role)

theorem slotOf_eq_some : p.slotOf role i = some t ↔ p.get? i = some t ∧ t.role = role := by
  unfold slotOf
  rw [Option.filter_eq_some_iff, decide_eq_true_iff]

theorem slotOf_congr (h : ∀ t, t.role = role → (p'.get? i = some t ↔ p.get? i = some t)) :
    p'.slotOf role i = p.slotOf role i := by
  apply Option.ext
  intro t
  rw [slotOf_eq_some, slotOf_eq_some]
  exact and_congr_left (h t)

theorem slotOf_forget_of_ne (h : r ≠ role) : (p.forget role).slotOf r = p.slotOf r := by
  funext i
  apply slotOf_congr
  rintro t rfl
  rw [get?_forget_eq_some]
  exact and_iff_left h

/-- An acknowledgment of one role covers no segment of the other one. -/
theorem slotOf_forgetCovered_of_ne {ack : SeqNumber} (h : r ≠ role) :
    (p.forgetCovered role ack).slotOf r = p.slotOf r := by
  funext i
  apply slotOf_congr
  rintro t rfl
  refine ⟨get?_of_get?_forgetCovered, fun slot => ?_⟩
  exact (get?_forgetCovered slot).trans (if_neg fun covered => h covered.1)

/-- A new segment takes a free slot. -/
theorem slotOf_insert_of_ne (inserted : p.insert? t = some (j, p')) (h : r ≠ t.role) :
    p'.slotOf r = p.slotOf r := by
  funext i
  apply slotOf_congr
  rintro u rfl
  refine ⟨fun slot => ?_, get?_insert_of_get? inserted⟩
  rcases get?_of_get?_insert inserted slot with hold | rfl
  · exact hold
  · exact absurd rfl h

end Pool

/-! ## Halves -/

/-- A connection, and what is tracked for its role, slot by slot. -/
structure Half where
  conn : Connection
  slots : Nat → Option Tracked

namespace Machine

variable {m m' : Machine} {role r : Role} {s : Segment} {remote : Ipv4Address}

/-- What the machine holds for a role. -/
def half (m : Machine) (role : Role) : Half := ⟨m.conn role, m.pool.slotOf role⟩

theorem half_congr (conn : m'.conn r = m.conn r) (pool : m'.pool = m.pool) :
    m'.half r = m.half r := by
  unfold half
  rw [conn, pool]

theorem half_withPool (m : Machine) (pool : Pool) (r : Role) :
    half { m with pool := pool } r = ⟨m.conn r, pool.slotOf r⟩ := by
  cases r <;> rfl

/-- What is tracked for a role is part of its half. -/
theorem get?_of_half_eq {i : Nat} {t : Tracked} (same : m'.half r = m.half r)
    (slot : m.pool.get? i = some t) (own : t.role = r) : m'.pool.get? i = some t := by
  have hslots : m'.pool.slotOf r i = m.pool.slotOf r i := congrFun (congrArg Half.slots same) i
  have hold : m.pool.slotOf r i = some t := Pool.slotOf_eq_some.mpr ⟨slot, own⟩
  exact (Pool.slotOf_eq_some.mp (hslots.trans hold)).1

/-! ### What steps are made of -/

section Parts

variable (h : r ≠ role)

include h

theorem half_setConn_of_ne (c : Connection) : (m.setConn role c).half r = m.half r :=
  half_congr (conn_setConn_of_ne _ _ h) (pool_setConn _ _ _)

theorem half_setState_of_ne (state : State) : (m.setState role state).half r = m.half r :=
  half_setConn_of_ne h _

theorem half_rejuvenate_of_ne : (m.rejuvenate role).half r = m.half r :=
  half_setConn_of_ne h _

theorem half_forget_of_ne : (m.forget role).half r = m.half r := by
  unfold forget
  rw [half_withPool, Pool.slotOf_forget_of_ne h]
  rfl

theorem half_reset_of_ne : (m.reset role).half r = m.half r :=
  (half_setState_of_ne h _).trans (half_forget_of_ne h)

theorem half_track_of_ne (seq : SeqNumber) (len : Nat) (kept : Kept) :
    (m.track role seq len kept).half r = m.half r := by
  unfold track
  split
  · rw [half_withPool, Pool.slotOf_insert_of_ne ‹_› h]
    rfl
  · exact half_congr (by cases r <;> rfl) rfl

theorem half_sendAck_of_ne : (m.sendAck role).machine.half r = m.half r :=
  half_rejuvenate_of_ne h

theorem half_sendFin_of_ne : (m.sendFin role).machine.half r = m.half r :=
  (half_track_of_ne h _ _ _).trans (half_setConn_of_ne h _)

end Parts

/-! ### Calls -/

section Calls

variable (h : r ≠ role)

include h

theorem half_connect_of_ne {localPort remotePort : UInt16} {step : Tcp.Step}
    (opens : m.connect role localPort remotePort remote = .ok step) :
    step.machine.half r = m.half r := by
  unfold connect at opens
  dsimp only at opens
  split at opens
  · cases opens
  · cases opens
    exact (half_track_of_ne h _ _ _).trans (half_setConn_of_ne h _)

/-- Whether the link takes the SYN or refuses it does not matter to the other role. -/
theorem half_after_connect_of_ne (localPort remotePort : UInt16) (remote : Ipv4Address)
    (sent : Bool) :
    (m.after (.connect role localPort remotePort remote sent)).half r = m.half r := by
  simp only [after]
  cases hconnect : m.connect role localPort remotePort remote with
  | error err => rfl
  | ok step =>
    have hopened := half_connect_of_ne h hconnect
    cases sent with
    | true => exact hopened
    | false => exact (half_reset_of_ne h).trans hopened

theorem half_sendPiece_of_ne (source : Source) (tracked : Bool) (p : Piece) :
    (m.sendPiece role source tracked p).machine.half r = m.half r := by
  unfold sendPiece
  dsimp only
  split
  · exact (half_track_of_ne h _ _ _).trans (half_setConn_of_ne h _)
  · exact half_setConn_of_ne h _

theorem half_sendPieces_of_ne (source : Source) (tracked : Bool) (ps : List Piece) :
    (m.sendPieces role source tracked ps).1.half r = m.half r :=
  steps_induction (P := fun m' => m'.half r = m.half r)
    (fun _ p same => (half_sendPiece_of_ne h source tracked p).trans same) rfl ps

theorem half_close_of_ne : (m.close role).machine.half r = m.half r := by
  have hforget : (m.forget role).half r = m.half r := half_forget_of_ne h
  have hset (state : State) : ((m.forget role).setState role state).half r = m.half r :=
    (half_setState_of_ne h state).trans hforget
  unfold close
  split
  · exact (half_sendFin_of_ne h).trans (hset .finWait1)
  · exact (half_sendFin_of_ne h).trans (hset .finWait1)
  · exact (half_sendFin_of_ne h).trans (hset .lastAck)
  · exact hset .closed
  · exact hset .closed
  · exact hforget

theorem half_abort_of_ne : (m.abort role).machine.half r = m.half r := half_reset_of_ne h

end Calls

/-! ### Segments -/

section Segments

variable (h : r ≠ role) (s : Segment)

include h

theorem half_takeAck_of_ne : (m.takeAck role s).half r = m.half r := by
  unfold takeAck
  dsimp only
  split
  · rw [half_withPool, Pool.slotOf_forgetCovered_of_ne h]
    exact half_setConn_of_ne h _
  · rfl

theorem half_settle_of_ne (a : Taken) : (m.settle role a).machine.half r = m.half r := by
  unfold settle
  split
  · exact (half_sendAck_of_ne h).trans (half_setConn_of_ne h _)
  · exact half_setConn_of_ne h _

theorem half_receiveOpen_of_ne : (m.receiveOpen role s).machine.half r = m.half r := by
  unfold receiveOpen
  split
  · rfl
  · rename_i a _
    dsimp only
    rw [← settle]
    split
    · exact (half_sendFin_of_ne h).trans ((half_setState_of_ne h _).trans (half_setConn_of_ne h _))
    · exact half_settle_of_ne h a

theorem half_receiveClosing_of_ne : (m.receiveClosing role s).machine.half r = m.half r := by
  unfold receiveClosing
  dsimp only
  split
  · rfl
  · rename_i a _
    have hsettled := half_settle_of_ne (m := m) h a
    dsimp only
    rw [← settle]
    split
    · exact (half_reset_of_ne h).trans hsettled
    · split
      · exact (half_setState_of_ne h _).trans hsettled
      · exact hsettled

theorem half_receiveInState_of_ne : (m.receiveInState role s).machine.half r = m.half r := by
  unfold receiveInState
  dsimp only
  split
  · split
    · exact (half_sendAck_of_ne h).trans ((half_forget_of_ne h).trans (half_setConn_of_ne h _))
    · rfl
  · split
    · exact (half_receiveOpen_of_ne h s).trans (half_setConn_of_ne h _)
    · rfl
  · exact half_receiveOpen_of_ne h s
  · exact half_receiveClosing_of_ne h s
  · exact half_receiveClosing_of_ne h s
  · split
    · exact half_reset_of_ne h
    · rfl
  · rfl

theorem half_receiveFor_of_ne : (m.receiveFor role s).machine.half r = m.half r := by
  have hyoung : (m.rejuvenate role).half r = m.half r := half_rejuvenate_of_ne h
  unfold receiveFor
  dsimp only
  split
  · exact (half_reset_of_ne h).trans hyoung
  · exact (half_receiveInState_of_ne h s).trans ((half_takeAck_of_ne h s).trans hyoung)

end Segments

/-- A SYN that opens the server leaves the client alone. -/
theorem half_acceptSyn (m : Machine) (s : Segment) (remote : Ipv4Address) :
    (m.acceptSyn s remote).machine.half .client = m.half .client := by
  have hne : Role.client ≠ .server := by decide
  unfold acceptSyn
  exact (half_track_of_ne hne _ _ _).trans (half_forget_of_ne hne)

/-- A segment that nobody takes leaves the pool as it is. -/
theorem pool_of_ignored (ignored : m.responder? s remote = none) :
    (m.receive s remote).machine.pool = m.pool := by
  have howned (aging : ¬ (s.dstPort = m.policy.serverPort ∧ !m.server.state.isAging))
      (result : m.receive s remote = (m.mixIn s).receiveOwned s remote) :
      (m.receive s remote).machine.pool = m.pool := by
    unfold responder? at ignored
    rw [if_neg aging, result] at ignored
    rw [result]
    unfold receiveOwned at ignored ⊢
    rw [owner?_mixIn] at ignored ⊢
    cases howner : m.owner? s remote with
    | none => exact pool_mixIn m s
    | some r =>
      -- What belongs to a connection is taken.
      rw [howner] at ignored
      simp [concerned_receiveFor] at ignored
  have hresult : m.receive s remote = (m.mixIn s).receiveMixed s remote := rfl
  unfold receiveMixed at hresult
  simp only [policy_mixIn, server_mixIn] at hresult
  split at hresult
  · rename_i hport
    exact howned (fun h => hport h.1) hresult
  · rename_i hport
    split at hresult
    · rename_i hidle
      split at hresult
      · -- A SYN that opens the server is taken.
        unfold responder? at ignored
        rw [hresult, if_neg (by simp [acceptSyn]), if_pos ⟨not_not.mp hport, hidle⟩] at ignored
        cases ignored
      · rw [hresult]
        exact pool_mixIn m s
    · rename_i haging
      split at hresult
      · exact howned (fun h => haging h.2) hresult
      · split at hresult <;> rw [hresult] <;> exact pool_mixIn m s

/-- **A segment leaves the half of a role alone that does not take it.** -/
theorem half_receive (other : m.responder? s remote ≠ some r) :
    (m.receive s remote).machine.half r = m.half r := by
  have hmixed : (m.mixIn s).half r = m.half r := half_congr (conn_mixIn m s r) (pool_mixIn m s)
  rcases receive_cases m s remote with ⟨role, responder, -, result⟩ | ⟨responder, -, -, result⟩ |
    ⟨responder, sides, -⟩
  · have hr : r ≠ role := fun h => other (h ▸ responder)
    rw [result]
    exact (half_receiveFor_of_ne hr s).trans hmixed
  · -- The other role is the client then.
    have hr : r = .client := by
      cases r with
      | client => rfl
      | server => exact absurd responder other
    subst hr
    rw [result]
    exact (half_acceptSyn _ s remote).trans hmixed
  · exact half_congr (congrArg Side.conn (sides r)) (pool_of_ignored responder)

end Machine

end NetEngine.Tcp
