import NetEngine.Proofs.Tcp.Stream
import NetEngine.Proofs.Tcp.Transition

/-! # Data and the Handshake

    The application gets octets in three states only, and in a fourth one from the
    segment that leaves it.  How a connection has come into one of them is told by
    what has happened since it was last closed or listening.

    * **In use**: the connection has not been closed or listening in between.
    * **Handshaken**: the peer has acknowledged our SYN.
    * **Closed early**: the application has closed the connection while it was
      waiting for this acknowledgment.  Our FIN is sent, and from then on nobody
      asks for the acknowledgment of the SYN. -/

namespace NetEngine.Tcp

namespace Machine

variable {m start : Machine} {role : Role} {s : Segment} {op : Operation}
  {before ops : List Operation}

/-! ## What is handed over -/

/-- Octets are handed over by a connection that receives, or that opens by them. -/
theorem receives_of_receiveInState {d : Delivery} (h : d ∈ (m.receiveInState role s).handed) :
    (m.conn role).state.receives ∨
      (m.conn role).state = .synReceived ∧ completesHandshake (m.conn role) s := by
  unfold receiveInState at h
  dsimp only at h
  cases hstate : (m.conn role).state <;> rw [hstate] at h <;> dsimp only at h
  case established | finWait1 | finWait2 => exact .inl rfl
  case synReceived =>
    split at h
    · exact .inr ⟨rfl, ‹_›⟩
    · cases h
  case synSent | lastAck => split at h <;> cases h
  all_goals cases h

theorem receives_of_receiveFor {d : Delivery} (h : d ∈ (m.receiveFor role s).handed) :
    (m.conn role).state.receives ∨
      (m.conn role).state = .synReceived ∧ completesHandshake (m.conn role) s := by
  unfold receiveFor at h
  dsimp only at h
  split at h
  · cases h
  · obtain ⟨age, lastAcked, window, hconn⟩ := conn_heeded m role s
    have hreceives := receives_of_receiveInState h
    rw [hconn] at hreceives
    exact hreceives

/-- What is handed over comes from a segment of the peer. -/
theorem heard_of_deliveryTo {d : Delivery} (h : d ∈ m.deliveryTo role op) :
    ∃ s payload remote, op = .receive s payload remote ∧
      (m.conn role).owns s.dstPort s.srcPort remote ∧
      ((m.conn role).state.receives ∨
        (m.conn role).state = .synReceived ∧ completesHandshake (m.conn role) s) := by
  cases op with
  | receive s payload remote =>
    obtain ⟨hgiven, hrole⟩ := Option.filter_eq_some_iff.mp h
    have hrole : d.role = role := of_decide_eq_true hrole
    rcases receive_cases m s remote with ⟨r, -, owns, result⟩ | ⟨-, -, -, result⟩ |
      ⟨-, -, delivery⟩
    · rw [result] at hgiven
      -- It is handed over for the role that takes the segment.
      have hr : d.role = r :=
        role_of_run (reacts_receiveFor (m.mixIn s) r s).own d (by simp [hgiven])
      obtain rfl : r = role := hr.symm.trans hrole
      have hreceives := receives_of_receiveFor hgiven
      rw [conn_mixIn] at hreceives
      exact ⟨s, payload, remote, rfl, owns, hreceives⟩
    · rw [result] at hgiven
      cases hgiven
    · rw [Reaction.handed_eq delivery] at hgiven
      cases hgiven
  | _ => cases h

/-! ## How a connection comes to receive -/

/-- A connection that receives has received before, has had its SYN acknowledged, or has been
closed before that. -/
theorem receives_of_transition {next : State} (h : Transition m role op next)
    (receives : next.receives) :
    (m.conn role).state.receives ∨
      (∃ s ∈ m.heardBy role op, (m.conn role).state.isOpening ∧ s.flags.ack ∧
        s.ackNumber = (m.conn role).lastSent) ∨
      (op = .close role ∧ (m.conn role).state = .synReceived) := by
  cases h with
  | stay => exact .inl receives
  | turn s next heard turns =>
    cases turns with
    | stay => exact .inl receives
    | answer opening answers =>
      simp only [answersSyn, Bool.and_eq_true, decide_eq_true_eq] at answers
      exact .inr (.inl ⟨s, heard, by rw [opening]; rfl, answers.1.2, answers.2⟩)
    | complete next opening completes opens =>
      simp only [completesHandshake, Bool.and_eq_true, decide_eq_true_eq] at completes
      exact .inr (.inl ⟨s, heard, by rw [opening]; rfl, completes.1.1, completes.2⟩)
    | finAcked closing => exact .inl (by rw [closing]; rfl)
    | _ => cases receives
  | close called =>
    -- Two states are closed in order, and one of them has not been confirmed.
    cases hstate : (m.conn role).state <;> rw [hstate] at receives <;>
      first
      | exact .inl rfl
      | exact .inr (.inr ⟨called, rfl⟩)
      | cases receives
  | reaped called idle =>
    cases hstate : (m.conn role).state <;> rw [hstate] at receives <;>
      first
      | exact .inl rfl
      | cases receives
  | _ => cases receives

/-! ## Since a connection was last closed or listening -/

/-- The peer has acknowledged our SYN, and the connection has been in use since then. -/
def Confirmed (start : Machine) (role : Role) (ops : List Operation) : Prop :=
  ∃ before s payload remote, before ++ [.receive s payload remote] <+: ops ∧
    ((start.run before).conn role).owns s.dstPort s.srcPort remote ∧
    AcksSyn start role before s ∧ InUse start role before ops

/-- The application has closed the connection before the peer has acknowledged our SYN, and the
connection has been in use since then. -/
def ClosedEarly (start : Machine) (role : Role) (ops : List Operation) : Prop :=
  ∃ before, before ++ [.close role] <+: ops ∧
    ((start.run before).conn role).state = .synReceived ∧ InUse start role before ops

/-- The ends of a connection stay the same as long as it is in use. -/
theorem InUse.ends (h : InUse start role before ops) (hpart : before <+: ops) :
    ((start.run ops).side role).ends = ((start.run before).side role).ends := by
  obtain ⟨rest, rfl⟩ := hpart
  induction rest using List.reverseRecOn with
  | nil => rw [List.append_nil]
  | append_singleton rest op ih =>
    rw [← List.append_assoc] at h ⊢
    have hinUse : InUse start role before (before ++ rest) := fun done hbefore hafter =>
      h done hbefore (hafter.trans (List.prefix_append _ _))
    have haging := hinUse (before ++ rest) (List.prefix_append _ _) (List.prefix_refl _)
    rw [← ih hinUse, run_append]
    exact (run_after op haging).preserves
      (P := fun y => y.ends = ((start.run (before ++ rest)).side role).ends)
      (fun move h => (Side.ends_of_move move).trans h) rfl

theorem Confirmed.snoc (h : Confirmed start role ops)
    (aging : ((start.run (ops ++ [op])).conn role).state.isAging) :
    Confirmed start role (ops ++ [op]) := by
  obtain ⟨before, s, payload, remote, hpart, howns, hacks, hinUse⟩ := h
  exact ⟨before, s, payload, remote, hpart.trans (List.prefix_append _ _), howns, hacks,
    hinUse.snoc aging⟩

theorem ClosedEarly.snoc (h : ClosedEarly start role ops)
    (aging : ((start.run (ops ++ [op])).conn role).state.isAging) :
    ClosedEarly start role (ops ++ [op]) := by
  obtain ⟨before, hpart, hstate, hinUse⟩ := h
  exact ⟨before, hpart.trans (List.prefix_append _ _), hstate, hinUse.snoc aging⟩

/-- No connection is closed early by an application that does not close it. -/
theorem not_closedEarly (h : .close role ∉ ops) : ¬ ClosedEarly start role ops := by
  rintro ⟨before, hpart, -⟩
  exact h (hpart.subset (List.mem_append_right _ List.mem_cons_self))

/-- A connection that receives has been confirmed by the peer, or closed early by the
application. -/
theorem confirmed_of_receives (policy : Policy) (seed : UInt32) (role : Role)
    (ops : List Operation)
    (receives : (((fresh policy seed).run ops).conn role).state.receives) :
    Confirmed (fresh policy seed) role ops ∨ ClosedEarly (fresh policy seed) role ops := by
  -- The induction is from the end of the run, and stops where the connection has come to receive.
  induction ops using List.reverseRecOn with
  | nil => cases role <;> cases receives
  | append_singleton ops op ih =>
    have haging := State.isAging_of_receives receives
    have htransition := transition_after ((fresh policy seed).run ops) role op
    have hreceives := receives
    rw [run_append] at hreceives
    rcases receives_of_transition htransition hreceives with
      hbefore | ⟨s, heard, opening, ack, acked⟩ | ⟨rfl, hstate⟩
    · -- The connection has received before, and is still in use.
      exact (ih hbefore).imp (·.snoc haging) (·.snoc haging)
    · have hopening : (((fresh policy seed).run ops).conn role).state.isAging := by
        cases hstate : (((fresh policy seed).run ops).conn role).state <;>
          rw [hstate] at opening <;> first | rfl | cases opening
      obtain ⟨payload, remote, rfl, howns, -⟩ := receive_of_heard heard hopening
      exact .inl ⟨ops, s, payload, remote, List.prefix_refl _, howns,
        acksSyn_of_opening policy seed ops opening ack acked, (InUse.refl hopening).snoc haging⟩
    · have hwaits : (((fresh policy seed).run ops).conn role).state.isAging := by
        rw [hstate]
        rfl
      exact .inr ⟨ops, List.prefix_refl _, hstate, (InUse.refl hwaits).snoc haging⟩

/-! ## Data comes after the handshake -/

/-- The peer that sends the segment `s` after the operations `ops` has acknowledged our SYN, by `s`
or before, and the connection has been in use since then. -/
def Handshaken (start : Machine) (role : Role) (ops : List Operation) (s : Segment)
    (payload : Bytes) (remote : Ipv4Address) : Prop :=
  ∃ before s' payload', before ++ [.receive s' payload' remote] <+:
      ops ++ [.receive s payload remote] ∧
    s'.dstPort = s.dstPort ∧ s'.srcPort = s.srcPort ∧
    AcksSyn start role before s' ∧ InUse start role before ops

/-- A segment of a connection in use comes from the peer that has confirmed the connection. -/
theorem Confirmed.handshaken {payload : Bytes} {remote : Ipv4Address}
    (h : Confirmed start role ops)
    (owns : ((start.run ops).conn role).owns s.dstPort s.srcPort remote) :
    Handshaken start role ops s payload remote := by
  obtain ⟨before, s', payload', remote', hpart, howns, hacks, hinUse⟩ := h
  have hends := hinUse.ends ((List.prefix_append _ _).trans hpart)
  simp only [Side.ends, side, Prod.mk.injEq] at hends
  simp only [Connection.owns, Bool.and_eq_true, decide_eq_true_eq] at howns owns
  obtain ⟨⟨⟨-, hdst⟩, hsrc⟩, hremote⟩ := owns
  obtain ⟨⟨⟨-, hdst'⟩, hsrc'⟩, hremote'⟩ := howns
  obtain rfl : remote' = remote := by rw [← hremote, ← hremote', hends.2.2]
  refine ⟨before, s', payload', hpart.trans (List.prefix_append _ _), ?_, ?_, hacks, hinUse⟩
  · rw [← hdst, ← hdst', hends.1]
  · rw [← hsrc, ← hsrc', hends.2.1]

/-- **Data comes after the handshake**, unless the application has closed the connection before. -/
theorem handshaken_of_delivery (policy : Policy) (seed : UInt32) (ops : List Operation)
    {s : Segment} {payload : Bytes} {remote : Ipv4Address} {d : Delivery}
    (given : ((fresh policy seed).run ops).deliveryTo role (.receive s payload remote) = some d) :
    Handshaken (fresh policy seed) role ops s payload remote ∨
      ClosedEarly (fresh policy seed) role ops := by
  obtain ⟨s', payload', remote', hop, howns, hreceives | ⟨hstate, hcompletes⟩⟩ :=
    heard_of_deliveryTo given
  all_goals obtain ⟨rfl, rfl, rfl⟩ := Operation.receive.inj hop
  · exact (confirmed_of_receives policy seed role ops hreceives).imp_left (·.handshaken howns)
  · -- The segment acknowledges our SYN itself.
    simp only [completesHandshake, Bool.and_eq_true, decide_eq_true_eq] at hcompletes
    have hopening : (((fresh policy seed).run ops).conn role).state.isOpening := by
      rw [hstate]
      rfl
    refine .inl ⟨ops, s, payload, List.prefix_refl _, rfl, rfl,
      acksSyn_of_opening policy seed ops hopening hcompletes.1.1 hcompletes.2, .refl ?_⟩
    rw [hstate]
    rfl

/-- Data on a connection whose handshake is over. -/
theorem handshaken_of_delivery_established :
    let start := fresh ⟨80, 3, 3, 100, true⟩ 1
    let remote : Ipv4Address := .unspecified
    let syn : Segment := ⟨4000, 80, ⟨100⟩, ⟨0⟩, .SYN, 1024, none, 0⟩
    let waiting := start.run [.listen 80, .receive syn [] remote]
    let ack : Segment := ⟨4000, 80, ⟨101⟩, waiting.server.lastSent, .ACK, 1024, none, 0⟩
    let ops := [.listen 80, .receive syn [] remote, .receive ack [] remote]
    let s : Segment := ⟨4000, 80, ⟨101⟩, waiting.server.lastSent, .ACK, 1024, none, 5⟩
    let op := Operation.receive s [1, 2, 3, 4, 5] remote
    (start.run ops).deliveryTo .server op = some ⟨.server, ⟨101⟩, 5, 0⟩ ∧
      Handshaken start .server ops s [1, 2, 3, 4, 5] remote := by
  intro start remote syn waiting ack ops s op
  have hgiven : (start.run ops).deliveryTo .server op = some ⟨.server, ⟨101⟩, 5, 0⟩ := by
    decide +kernel
  have hclose : .close .server ∉ ops := by simp [ops]
  exact ⟨hgiven, (handshaken_of_delivery _ _ ops hgiven).resolve_right (not_closedEarly hclose)⟩

/-- Data is handed over that comes from somebody who has never acknowledged our SYN, and may not
even have seen it, if the application closes the connection before. -/
theorem delivered_unconfirmed :
    let start := fresh ⟨80, 3, 3, 100, true⟩ 1
    let remote : Ipv4Address := .unspecified
    let syn : Segment := ⟨4000, 80, ⟨100⟩, ⟨0⟩, .SYN, 1024, none, 0⟩
    let ops := [.listen 80, .receive syn [] remote, .close .server]
    let s : Segment := ⟨4000, 80, ⟨101⟩, ⟨0⟩, .ACK, 1024, none, 5⟩
    let op := Operation.receive s [1, 2, 3, 4, 5] remote
    (start.run ops).deliveryTo .server op = some ⟨.server, ⟨101⟩, 5, 0⟩ ∧
      ¬ Handshaken start .server ops s [1, 2, 3, 4, 5] remote := by
  intro start remote syn ops s op
  refine ⟨by decide +kernel, ?_⟩
  rintro ⟨before, s', payload', hpart, -, -, ⟨hack, n, hlast, hacked⟩, -⟩
  -- Two segments have arrived, the SYN and the data.
  rcases before with _ | ⟨first, _ | ⟨second, _ | ⟨third, _ | ⟨fourth, before⟩⟩⟩⟩
  all_goals simp [ops] at hpart
  · obtain ⟨-, rfl, -⟩ := hpart
    exact absurd hack (by decide)
  · obtain ⟨rfl, rfl, rfl, rfl, -⟩ := hpart
    have hsyn : lastNumber Flags.syn .server start ops =
        some ((start.run ops).server.lastSent - 2) := by decide +kernel
    rw [hsyn] at hlast
    cases hlast
    exact absurd hacked (by decide)

end Machine

end NetEngine.Tcp
