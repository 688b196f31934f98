import NetEngine.Proofs.Tcp.Refinement

/-! # Where the Engine Stops

    The engine stops at a segment of which more octets count as new than it has.
    Nothing that the application does stops it, nor does the time that passes.

    * **Receives**: the states in which octets are handed to the application.
    * **Stops**: an empty segment half a round away from what a connection has
      received, which comes while the connection receives and does not reset it.

    Each layer of the machine has an equivalence that rests on the one below. -/

namespace NetEngine.Tcp

/-- Are octets handed to the application in this state? -/
def State.receives : State → Bool
  | .established | .finWait1 | .finWait2 => true
  | _ => false

theorem State.isAging_of_receives {s : State} (h : s.receives) : s.isAging := by
  cases s <;> first | rfl | cases h

theorem State.receives_iff {s : State} :
    s.receives ↔ s = .established ∨ s = .finWait1 ∨ s = .finWait2 := by
  cases s <;> decide

/-- An empty segment half a round away is not dropped. -/
theorem Connection.exists_take_of_far {c : Connection} {s : Segment} (far : c.IsHalfRoundAway s) :
    ∃ a, c.take s = some a := by
  refine ⟨c.taken s, ?_⟩
  rw [take_eq, if_neg (Int.not_lt.mpr (gain_of_halfRoundAway far).1)]

/-- What a connection hands over of a segment, which it may drop. -/
def Connection.handsOver (c : Connection) (role : Role) (s : Segment) :
    Except Fault (Option Delivery) :=
  (c.take s).elim (.ok none) (·.delivery role s)

theorem Connection.handsOver_eq_error_iff {c : Connection} {role : Role} {s : Segment}
    {fault : Fault} : c.handsOver role s = .error fault ↔ c.IsHalfRoundAway s := by
  cases fault
  unfold handsOver
  cases htake : c.take s with
  | none =>
    -- What is dropped is not half a round away.
    refine ⟨nofun, fun far => ?_⟩
    obtain ⟨a, ha⟩ := exists_take_of_far far
    rw [ha] at htake
    cases htake
  | some a => exact delivery_eq_error_iff htake

/-- A segment that starts right behind what has been received is not half a round away. -/
theorem Connection.not_far_of_next {c : Connection} {s : Segment}
    (next : c.lastReceived = s.seq - 1) : ¬ c.IsHalfRoundAway s := by
  intro far
  have hd := ((isHalfRoundAway_iff c s).mp far).2
  rw [next, SeqNumber.distance_sub_self s.seq (by decide)] at hd
  exact absurd hd (by decide)

namespace Machine

variable {m : Machine} {role : Role} {s : Segment} {op : Operation} {fault : Fault}

/-! ## Receiving -/

theorem delivery_receiveOpen (m : Machine) (role : Role) (s : Segment) :
    (m.receiveOpen role s).delivery = (m.conn role).handsOver role s := by
  unfold receiveOpen Connection.handsOver
  cases (m.conn role).take s <;> rfl

theorem delivery_receiveClosing (m : Machine) (role : Role) (s : Segment) :
    (m.receiveClosing role s).delivery = (m.conn role).handsOver role s := by
  unfold receiveClosing Connection.handsOver
  dsimp only
  cases (m.conn role).take s <;> rfl

theorem delivery_receiveInState_eq_error_iff :
    (m.receiveInState role s).delivery = .error fault ↔
      (m.conn role).state.receives ∧ (m.conn role).IsHalfRoundAway s := by
  unfold receiveInState
  dsimp only
  cases hstate : (m.conn role).state
  case established =>
    rw [delivery_receiveOpen, Connection.handsOver_eq_error_iff]
    exact (and_iff_right rfl).symm
  case finWait1 | finWait2 =>
    rw [delivery_receiveClosing, Connection.handsOver_eq_error_iff]
    exact (and_iff_right rfl).symm
  case synReceived =>
    -- The segment that completes the handshake is the next one by definition.
    refine ⟨fun h => ?_, fun h => absurd h.1 (by decide)⟩
    dsimp only at h
    split at h
    · rw [delivery_receiveOpen, Connection.handsOver_eq_error_iff] at h
      refine absurd h (Connection.not_far_of_next ?_)
      rw [conn_setConn_self]
    · cases h
  case synSent | lastAck =>
    refine ⟨fun h => ?_, fun h => absurd h.1 (by decide)⟩
    dsimp only at h
    split at h <;> cases h
  all_goals exact ⟨nofun, fun h => absurd h.1 (by decide)⟩

theorem delivery_receiveFor_eq_error_iff :
    (m.receiveFor role s).delivery = .error fault ↔
      s.flags.rst = false ∧ (m.conn role).state.receives ∧ (m.conn role).IsHalfRoundAway s := by
  unfold receiveFor
  dsimp only
  split
  · rename_i hrst
    exact ⟨nofun, fun h => absurd h.1 (by simp [hrst])⟩
  · rename_i hrst
    obtain ⟨age, lastAcked, window, hconn⟩ := conn_heeded m role s
    rw [delivery_receiveInState_eq_error_iff, hconn]
    simp only [Bool.not_eq_true] at hrst
    exact (and_iff_right hrst).symm

/-! ## Stopping -/

/-- Does the engine stop at an operation? -/
def stopsAt (m : Machine) : Operation → Bool
  | .receive s _ remote => !(m.receive s remote).delivery.isOk
  | _ => false

theorem stopsAt_receive_iff {payload : Bytes} {remote : Ipv4Address} :
    m.stopsAt (.receive s payload remote) = true ↔
      ∃ fault, (m.receive s remote).delivery = .error fault := by
  show (!(m.receive s remote).delivery.isOk) = true ↔ _
  cases (m.receive s remote).delivery with
  | error fault => exact iff_of_true rfl ⟨fault, rfl⟩
  | ok given => exact iff_of_false nofun (by rintro ⟨fault, h⟩; cases h)

/-- **The engine stops exactly at an empty segment half a round away** from what the connection that
it belongs to has received, while that connection receives, unless the segment resets it. -/
theorem stopsAt_iff : m.stopsAt op = true ↔ ∃ role, ∃ s ∈ m.heardBy role op,
    s.flags.rst = false ∧ (m.conn role).state.receives ∧ (m.conn role).IsHalfRoundAway s := by
  constructor
  · intro h
    cases op with
    | receive s payload remote =>
      obtain ⟨fault, hfault⟩ := stopsAt_receive_iff.mp h
      rcases receive_cases m s remote with ⟨role, responder, -, result⟩ | ⟨-, -, -, result⟩ |
        ⟨-, -, delivery⟩
      · rw [result, delivery_receiveFor_eq_error_iff, conn_mixIn] at hfault
        exact ⟨role, s, heardBy_receive_eq_some.mpr ⟨responder, rfl⟩, hfault⟩
      · rw [result] at hfault
        cases hfault
      · rw [delivery] at hfault
        cases hfault
    | _ => cases h
  · rintro ⟨role, s, heard, hreset, receives, far⟩
    obtain ⟨payload, remote, rfl, -, result⟩ :=
      receive_of_heard heard (State.isAging_of_receives receives)
    refine stopsAt_receive_iff.mpr ⟨.underflow, ?_⟩
    rw [result, delivery_receiveFor_eq_error_iff, conn_mixIn]
    exact ⟨hreset, receives, far⟩

end Machine

end NetEngine.Tcp
