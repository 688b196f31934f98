import Mathlib.Data.List.Induction
import NetEngine.Proofs.Tcp.Following

/-! # Delivery of the Stream in Order

    Whatever part of the stream of the peer arrives in whatever order, and however
    often, the application gets the stream from its first octet on, each octet
    once.  No octet is acknowledged before.

    * **Slice**: a segment whose payload is a part of the stream.
    * **Run until closed**: what happens while the connection lasts.

    Besides slices anything may happen: the application sends or closes, the
    seconds pass, and segments arrive that do not belong to the connection. -/

namespace NetEngine.Tcp

/-- A segment carries a part of the stream, whose octet number `i` has the sequence number
`b + (1 + i)`.  A FIN stands behind the whole stream only. -/
def IsSlice (b : SeqNumber) (stream : Bytes) (s : Segment) (payload : Bytes) : Prop :=
  ∃ start, SliceAt b stream.length start payload.length s ∧
    payload = (stream.drop start).take payload.length

namespace Side

variable {role : Role} {heard : Option Segment} {x y : Side}

/-! ## The ends of a connection -/

/-- The ends of a connection. -/
def ends (x : Side) : UInt16 × UInt16 × Ipv4Address :=
  (x.conn.localPort, x.conn.remotePort, x.conn.remoteAddr)

/-- No move changes the ends of a connection. -/
theorem ends_of_move {out : Option Outgoing} {given : Option Delivery}
    (h : Move role heard x out given y) : y.ends = x.ends := by
  cases h with
  | take s a arrived receives taken more =>
    unfold ends
    rw [Connection.conn_of_take taken]
  | answerFin s a arrived open_ taken fin tracked =>
    unfold ends
    rw [Connection.conn_of_take taken]
  | endByFin s a arrived closing taken fin =>
    unfold ends
    rw [Connection.conn_of_take taken]
  | _ => rfl

end Side

namespace Machine

variable {m : Machine} {role : Role} {b : SeqNumber} {stream : Bytes} {k : Nat} {ended : Bool}

/-- A segment belongs to every connection between the same ends that is not closed. -/
theorem owns_of_ends {c c' : Connection} {dst src : UInt16} {remote : Ipv4Address}
    (h : c.owns dst src remote) (state : c'.state ≠ .closed)
    (ends : (c'.localPort, c'.remotePort, c'.remoteAddr) =
      (c.localPort, c.remotePort, c.remoteAddr)) :
    c'.owns dst src remote := by
  simp only [Prod.mk.injEq] at ends
  unfold Connection.owns at h ⊢
  rw [ends.1, ends.2.1, ends.2.2]
  simp only [Bool.and_eq_true, decide_eq_true_eq] at h ⊢
  exact ⟨⟨⟨state, h.1.1.2⟩, h.1.2⟩, h.2⟩

/-! ## An operation -/

/-- What a delivery hands over of a slice are the octets that come next. -/
theorem hands_slice {start k' : Nat} {payload : Bytes} {d : Delivery}
    (hands : Side.Hands start payload.length k [d] k')
    (slice : payload = (stream.drop start).take payload.length) :
    (payload.drop d.skip).take d.count = (stream.drop k).take (k' - k) := by
  obtain ⟨hstart, hlen, hk'⟩ := hands
  obtain rfl : k' = k + d.count := hk'
  rw [slice, List.drop_take, List.drop_drop, List.take_take, hstart]
  congr 1
  omega

/-- A segment with a FIN arrives on the connection of a role. -/
def HearsFin (m : Machine) (role : Role) (op : Operation) : Prop :=
  ∃ s payload remote, op = .receive s payload remote ∧
    (m.conn role).owns s.dstPort s.srcPort remote ∧ s.flags.fin

/-- An operation goes on from the first `k` octets of the stream to the first `k'`. -/
structure Advances (b : SeqNumber) (stream : Bytes) (m : Machine) (role : Role) (op : Operation)
    (k : Nat) (ended : Bool) (k' : Nat) (ended' : Bool) : Prop where
  follows : Side.Follows b stream.length k' ended' ((m.after op).side role)
  le : k ≤ k'
  handed : m.handedBy role op = (stream.drop k).take (k' - k)
  fin : ended' = true → ended = true ∨ m.HearsFin role op
  acks : Side.AcksWithin b stream.length k' ended' (m.sentBy role op)

/-- A connection that follows and is not over grows old. -/
theorem aging_of_follows (hx : Side.Follows b stream.length k ended (m.side role))
    (lasts : (m.conn role).state ≠ .closed) : (m.conn role).state.isAging := by
  rcases hx.state with ⟨h | h | h, -⟩ | ⟨h, -⟩ | ⟨h, -⟩
  · exact congrArg State.isAging h
  · exact congrArg State.isAging h
  · exact congrArg State.isAging h
  · exact congrArg State.isAging h
  · exact absurd h lasts

theorem handedBy_eq_nil {op : Operation} (h : m.deliveryTo role op = none) :
    m.handedBy role op = [] := by
  unfold handedBy
  rw [h]
  cases op <;> rfl

/-- Where nothing arrives on the connection, nothing is handed over. -/
theorem advances_of_silent {op : Operation} (short : stream.length + 1 < 2 ^ 31)
    (hx : Side.Follows b stream.length k ended (m.side role))
    (aging : (m.conn role).state.isAging) (silent : m.heardBy role op = none) :
    ∃ k' ended', Advances b stream m role op k ended k' ended' := by
  have hrun := run_after op aging
  rw [silent] at hrun
  have hnothing := Side.handed_eq_nil hrun
  have hslices : ∀ s ∈ (none : Option Segment), SliceAt b stream.length 0 0 s := nofun
  obtain ⟨k', ended', hgoes, hsent⟩ := Side.follows_run short hslices hrun hx
  have hhands := hgoes.hands
  rw [hnothing] at hhands
  obtain rfl : k' = k := hhands
  refine ⟨k', ended', hgoes.follows, le_rfl, ?_, ?_, hsent⟩
  · rw [handedBy_eq_nil (Option.toList_eq_nil_iff.mp hnothing), Nat.sub_self, List.take_zero]
  · intro hended
    rcases hgoes.fin hended with hbefore | ⟨s, hs, -⟩
    · exact .inl hbefore
    · cases hs

/-- Where a slice arrives, what is new of it is handed over. -/
theorem advances_of_slice {s : Segment} {payload : Bytes} {remote : Ipv4Address}
    (short : stream.length + 1 < 2 ^ 31)
    (hx : Side.Follows b stream.length k ended (m.side role))
    (aging : (m.conn role).state.isAging)
    (heard : m.heardBy role (.receive s payload remote) = some s)
    (owns : (m.conn role).owns s.dstPort s.srcPort remote)
    (slice : IsSlice b stream s payload) :
    ∃ k' ended', Advances b stream m role (.receive s payload remote) k ended k' ended' := by
  obtain ⟨start, hslice, hpayload⟩ := slice
  have hrun := run_after (.receive s payload remote) aging
  rw [heard] at hrun
  obtain ⟨k', ended', hgoes, hsent⟩ :=
    Side.follows_run short (fun s' h => by cases h; exact hslice) hrun hx
  have hhands := hgoes.hands
  refine ⟨k', ended', hgoes.follows, hhands.le, ?_, ?_, hsent⟩
  · cases hd : m.deliveryTo role (.receive s payload remote) with
    | none =>
      rw [hd] at hhands
      obtain rfl : k' = k := hhands
      rw [handedBy_eq_nil hd, Nat.sub_self, List.take_zero]
    | some d =>
      rw [hd] at hhands
      unfold handedBy
      rw [hd]
      exact hands_slice hhands hpayload
  · intro hended
    rcases hgoes.fin hended with hbefore | ⟨s', hs', hfin⟩
    · exact .inl hbefore
    · cases hs'
      exact .inr ⟨s, payload, remote, rfl, owns, hfin⟩

/-- The engine does not stop at a slice. -/
theorem goes_on_of_slice {s : Segment} {op : Operation} {start len : Nat}
    (short : stream.length + 1 < 2 ^ 31)
    (hx : Side.Follows b stream.length k ended (m.side role))
    (heard : m.heardBy role op = some s) (slice : SliceAt b stream.length start len s) :
    m.stopsAt op = false := by
  rw [← Bool.not_eq_true]
  intro stops
  obtain ⟨role', s', heard', -, receives, far⟩ := stopsAt_iff.mp stops
  -- The segment belongs to one connection only.
  obtain ⟨rfl, rfl⟩ := heardBy_unique heard heard'
  obtain rfl := hx.not_ended (State.receives_iff.mp receives)
  exact Connection.not_far_of_slice short slice hx.received hx.within far

/-- **Every operation goes on with the stream** while the connection lasts. -/
theorem advances_after {op : Operation} (short : stream.length + 1 < 2 ^ 31)
    (hx : Side.Follows b stream.length k ended (m.side role))
    (lasts : (m.conn role).state ≠ .closed)
    (slices : ∀ s payload remote, op = .receive s payload remote →
      (m.conn role).owns s.dstPort s.srcPort remote → IsSlice b stream s payload) :
    ∃ k' ended', Advances b stream m role op k ended k' ended' := by
  have haging := aging_of_follows hx lasts
  cases hheard : m.heardBy role op with
  | none => exact advances_of_silent short hx haging hheard
  | some s =>
    obtain ⟨payload, remote, rfl, howns, -⟩ := receive_of_heard hheard haging
    exact advances_of_slice short hx haging hheard howns (slices s payload remote rfl howns)

/-! ## Runs until closed -/

theorem handedIn_append (role : Role) (m : Machine) (ops ops' : List Operation) :
    handedIn role m (ops ++ ops') = handedIn role m ops ++ handedIn role (m.run ops) ops' := by
  induction ops generalizing m with
  | nil => rfl
  | cons op ops ih =>
    show m.handedBy role op ++ handedIn role (m.after op) (ops ++ ops') = _
    rw [ih, ← List.append_assoc]
    rfl

theorem untilClosed_isPrefix (role : Role) (m : Machine) (ops : List Operation) :
    untilClosed role m ops <+: ops := by
  induction ops generalizing m with
  | nil => exact List.prefix_rfl
  | cons op ops ih =>
    unfold untilClosed
    split
    · exact List.nil_prefix
    · exact (List.prefix_cons_inj op).mpr (ih _)

/-- The connection is not closed before an operation of the part of a run until it is closed. -/
theorem lasts_of_untilClosed {ops before rest : List Operation} {op : Operation}
    (h : untilClosed role m ops = before ++ op :: rest) :
    ((m.run before).conn role).state ≠ .closed := by
  induction ops generalizing m before with
  | nil => cases before <;> cases h
  | cons first ops ih =>
    unfold untilClosed at h
    split at h
    · cases before <;> cases h
    · -- The first operation belongs to the part, since the connection is not closed.
      rename_i hlasts
      cases before with
      | nil => exact hlasts
      | cons first' before =>
        rw [List.cons_append, List.cons.injEq] at h
        obtain ⟨rfl, h⟩ := h
        show (((m.after first).run before).conn role).state ≠ .closed
        exact ih h

/-- An operation of this part belongs to the run. -/
theorem mem_of_untilClosed {ops before rest : List Operation} {op : Operation}
    (h : untilClosed role m ops = before ++ op :: rest) : op ∈ ops := by
  refine (untilClosed_isPrefix role m ops).subset ?_
  rw [h]
  exact List.mem_append_right _ (List.mem_cons_self ..)

/-- How far a run has come that started with the stream. -/
structure Followed (b : SeqNumber) (stream : Bytes) (m : Machine) (role : Role)
    (done : List Operation) (k : Nat) (ended : Bool) : Prop where
  follows : Side.Follows b stream.length k ended ((m.run done).side role)
  handed : handedIn role m done = stream.take k
  ends : ((m.run done).side role).ends = (m.side role).ends
  fin : ended = true → ∃ s payload remote, .receive s payload remote ∈ done ∧
    (m.conn role).owns s.dstPort s.srcPort remote ∧ s.flags.fin

/-- A segment that belongs to a connection belonged to it from the start. -/
theorem Followed.owns {done : List Operation} (h : Followed b stream m role done k ended)
    (open_ : (m.conn role).state ≠ .closed) {s : Segment} {remote : Ipv4Address}
    (owns : ((m.run done).conn role).owns s.dstPort s.srcPort remote) :
    (m.conn role).owns s.dstPort s.srcPort remote :=
  owns_of_ends owns open_ h.ends.symm

/-- The octets handed over by one more operation come next in the stream. -/
theorem Followed.snoc {done : List Operation} {op : Operation} {k' : Nat} {ended' : Bool}
    (h : Followed b stream m role done k ended) (open_ : (m.conn role).state ≠ .closed)
    (aging : ((m.run done).conn role).state.isAging)
    (advances : Advances b stream (m.run done) role op k ended k' ended') :
    Followed b stream m role (done ++ [op]) k' ended' where
  follows := by
    rw [run_append]
    exact advances.follows
  handed := by
    rw [handedIn_append, h.handed]
    show stream.take k ++ ((m.run done).handedBy role op ++ []) = _
    rw [List.append_nil, advances.handed, ← List.take_add, Nat.add_sub_cancel' advances.le]
  ends := by
    rw [run_append]
    exact ((run_after op aging).preserves (P := fun y => y.ends = ((m.run done).side role).ends)
      (fun move h => (Side.ends_of_move move).trans h) rfl).trans h.ends
  fin hended := by
    rcases advances.fin hended with hbefore | ⟨s, payload, remote, rfl, howns, hfin⟩
    · obtain ⟨s, payload, remote, hmem, howns, hfin⟩ := h.fin hbefore
      exact ⟨s, payload, remote, List.mem_append_left _ hmem, howns, hfin⟩
    · exact ⟨s, payload, remote, List.mem_append_right _ (List.mem_singleton_self _),
        h.owns open_ howns, hfin⟩

section Runs

variable {ops : List Operation} (established : (m.conn role).state = .established)
  (short : stream.length + 1 < 2 ^ 31)
  (slices : ∀ s payload remote, .receive s payload remote ∈ ops →
    (m.conn role).owns s.dstPort s.srcPort remote →
    IsSlice (m.conn role).lastReceived stream s payload)

include established short slices

/-- Where the stream has been followed so far, the next operation goes on with it. -/
theorem Followed.advances {done rest : List Operation} {op : Operation}
    (h : Followed (m.conn role).lastReceived stream m role done k ended)
    (before : untilClosed role m ops = done ++ op :: rest) :
    ((m.run done).conn role).state.isAging ∧
      ∃ k' ended',
        Advances (m.conn role).lastReceived stream (m.run done) role op k ended k' ended' := by
  have hlasts := lasts_of_untilClosed before
  have hopen : (m.conn role).state ≠ .closed := by
    rw [established]
    decide
  refine ⟨aging_of_follows h.follows hlasts, ?_⟩
  apply advances_after short h.follows hlasts
  intro s payload remote hop howns
  exact slices s payload remote (hop ▸ mem_of_untilClosed before) (h.owns hopen howns)

/-- The engine stops at no segment that reaches the connection. -/
theorem Followed.goes_on {done rest : List Operation} {op : Operation}
    (h : Followed (m.conn role).lastReceived stream m role done k ended)
    (before : untilClosed role m ops = done ++ op :: rest)
    (arrives : (m.run done).heardBy role op ≠ none) : (m.run done).stopsAt op = false := by
  obtain ⟨s, hheard⟩ := Option.ne_none_iff_exists'.mp arrives
  have haging := aging_of_follows h.follows (lasts_of_untilClosed before)
  have hopen : (m.conn role).state ≠ .closed := by
    rw [established]
    decide
  -- What is heard has been received, and is a slice.
  obtain ⟨payload, remote, rfl, howns, -⟩ := receive_of_heard hheard haging
  obtain ⟨start, hslice, -⟩ :=
    slices s payload remote (mem_of_untilClosed before) (h.owns hopen howns)
  exact goes_on_of_slice short h.follows hheard hslice

/-- Every part of a run follows the stream until the connection is closed. -/
theorem followed_of_untilClosed {done rest : List Operation}
    (before : untilClosed role m ops = done ++ rest) :
    ∃ k ended, Followed (m.conn role).lastReceived stream m role done k ended := by
  -- The induction adds operations at the end, where the octets handed over are added as well.
  induction done using List.reverseRecOn generalizing rest with
  | nil =>
    have hstart : Side.Follows (m.conn role).lastReceived stream.length 0 false (m.side role) :=
      ⟨(SeqNumber.add_zero _).symm, Nat.zero_le _, nofun, .inl ⟨.inl established, rfl⟩⟩
    exact ⟨0, false, hstart, rfl, rfl, fun h => by cases h⟩
  | append_singleton done op ih =>
    rw [List.append_assoc] at before
    obtain ⟨k, ended, hdone⟩ := ih before
    obtain ⟨haging, k', ended', hop⟩ := hdone.advances established short slices before
    have hopen : (m.conn role).state ≠ .closed := by
      rw [established]
      decide
    exact ⟨k', ended', hdone.snoc hopen haging hop⟩

/-- **Delivery in order, exactly once**: as long as an open connection lasts, what the application
gets is the start of the stream of the peer, and the engine stops at no segment of it.  Whatever is
acknowledged in a new segment has been handed over, but for the FIN behind the whole stream, which
has arrived. -/
theorem delivers_stream :
    handedIn role m (untilClosed role m ops) <+: stream ∧
      (∀ before op rest, untilClosed role m ops = before ++ op :: rest →
        (m.run before).heardBy role op ≠ none → (m.run before).stopsAt op = false) ∧
      ∀ before op rest, untilClosed role m ops = before ++ op :: rest →
        ∀ dst segment body, .fresh dst segment body ∈ (m.run before).sentBy role op →
        segment.flags.ack →
        (∃ j ≤ (handedIn role m (before ++ [op])).length,
          segment.ackNumber = (m.conn role).lastReceived + (1 + j)) ∨
        (handedIn role m (before ++ [op]) = stream ∧
          (∃ s payload remote, .receive s payload remote ∈ before ++ [op] ∧
            (m.conn role).owns s.dstPort s.srcPort remote ∧ s.flags.fin) ∧
          segment.ackNumber = (m.conn role).lastReceived + (1 + stream.length + 1)) := by
  have hopen : (m.conn role).state ≠ .closed := by
    rw [established]
    decide
  refine ⟨?_, ?_, ?_⟩
  · obtain ⟨k, ended, hall⟩ :=
      followed_of_untilClosed established short slices (List.append_nil _).symm
    rw [hall.handed]
    exact List.take_prefix k stream
  · intro before op rest hsplit harrives
    obtain ⟨k, ended, hbefore⟩ := followed_of_untilClosed established short slices hsplit
    exact hbefore.goes_on established short slices hsplit harrives
  · intro before op rest hsplit dst segment body hsent hack
    obtain ⟨k, ended, hbefore⟩ := followed_of_untilClosed established short slices hsplit
    obtain ⟨haging, k', ended', hop⟩ := hbefore.advances established short slices hsplit
    have hsnoc := hbefore.snoc hopen haging hop
    -- A new acknowledgment goes to the octets handed over at most, or to the FIN.
    rcases hop.acks dst segment body hsent hack with ⟨j, hj, hnumber⟩ | ⟨hended, hnumber⟩
    · refine .inl ⟨j, ?_, hnumber⟩
      rw [hsnoc.handed, List.length_take, Nat.min_eq_left hop.follows.within]
      exact hj
    · refine .inr ⟨?_, hsnoc.fin hended, hnumber⟩
      rw [hsnoc.handed, hop.follows.complete hended, List.take_length]

end Runs

/-- A server that expects octet 101 of the peer, which sends five octets in three slices: the first
slice leaves a gap, the last one overlaps the one before and has a FIN. -/
theorem delivers_stream_overlapping :
    let server := { Connection.fresh 7 with
      state := .established, localPort := 80, remotePort := 4000, lastReceived := ⟨100⟩ }
    let m := { fresh ⟨80, 3, 3, 100, true⟩ 1 with server := server }
    let slice (start len : Nat) (flags : Flags) : Segment :=
      ⟨4000, 80, server.lastReceived + (1 + start), ⟨7⟩, flags, 1024, none, len⟩
    let ops : List Operation := [.receive (slice 2 2 .ACK) [3, 4] .unspecified,
      .receive (slice 0 3 .ACK) [1, 2, 3] .unspecified, .tick,
      .receive (slice 1 4 (.FIN ||| .ACK)) [2, 3, 4, 5] .unspecified]
    (m.conn .server).state = .established ∧
      handedIn .server m (untilClosed .server m ops) = [1, 2, 3, 4, 5] ∧
      handedIn .server m (untilClosed .server m ops) <+: [1, 2, 3, 4, 5] := by
  intro server m slice ops
  have hslices : ∀ s payload remote, .receive s payload remote ∈ ops →
      (m.conn .server).owns s.dstPort s.srcPort remote →
      IsSlice (m.conn .server).lastReceived [1, 2, 3, 4, 5] s payload := by
    intro s payload remote hmem _
    simp only [ops, List.mem_cons, Operation.receive.injEq, reduceCtorEq, List.not_mem_nil,
      false_or, or_false] at hmem
    rcases hmem with ⟨rfl, rfl, -⟩ | ⟨rfl, rfl, -⟩ | ⟨rfl, rfl, -⟩
    · exact ⟨2, ⟨rfl, rfl, by decide, by decide⟩, rfl⟩
    · exact ⟨0, ⟨rfl, rfl, by decide, by decide⟩, rfl⟩
    · exact ⟨1, ⟨rfl, rfl, by decide, by decide⟩, rfl⟩
  exact ⟨rfl, by decide, (delivers_stream rfl (by decide) hslices).1⟩

end Machine

end NetEngine.Tcp
