import NetEngine.Proofs.Tcp.Tracking

/-! # The Numbers of Our SYN and Our FIN

    A SYN and a FIN take a place in the sequence space.  The peer acknowledges
    them by the number behind it.

    * **Last number**: the number of the last segment with a control bit that has
      been sent on the connection of a role, whether it was new or resent.
    * **Numbered**: a connection that waits for the acknowledgment of its SYN or
      its FIN has sent nothing behind it, so that the next number is the one
      that acknowledges it. -/

namespace NetEngine.Tcp

/-- The numbers of the segments that have a control bit set. -/
def numbersWith (bit : Flags → Bool) (sent : List Outgoing) : List SeqNumber :=
  sent.filterMap fun
    | .fresh _ segment _ => if bit segment.flags then some segment.seq else none
    | .copy .. => none

/-- The last of these numbers, or `last` if there is none. -/
def latestWith (bit : Flags → Bool) (last : Option SeqNumber) (sent : List Outgoing) :
    Option SeqNumber :=
  (numbersWith bit sent).getLast?.or last

section Latest

variable {bit : Flags → Bool} {last : Option SeqNumber}

theorem latestWith_append (sent sent' : List Outgoing) :
    latestWith bit last (sent ++ sent') = latestWith bit (latestWith bit last sent) sent' := by
  simp [latestWith, numbersWith, Option.or_assoc]

/-- The segment sent last counts if it has the bit set. -/
theorem latestWith_fresh (dst : Ipv4Address) (s : Segment) (body : Option Body) :
    latestWith bit last [.fresh dst s body] = if bit s.flags then some s.seq else last := by
  by_cases h : bit s.flags = true <;> simp [latestWith, numbersWith, h]

end Latest

namespace Side

variable {role : Role} {heard : Option Segment} {x y : Side} {bit : Flags → Bool}
  {last : Option SeqNumber}

/-- While a control bit of ours has not been acknowledged, `last` is the number in front of the
next one. -/
def Numbered (bit : Flags → Bool) (last : Option SeqNumber) (x : Side) : Prop :=
  ∀ flags, x.conn.state.unacknowledged = some flags → bit flags → last = some (x.conn.lastSent - 1)

/-- Nothing is said of a connection that waits for nothing. -/
theorem Numbered.of_none (h : x.conn.state.unacknowledged = none) : Numbered bit last x := by
  intro flags hflags
  rw [h] at hflags
  cases hflags

/-- A segment without the bit does not matter. -/
theorem latestWith_segment (without : bit .ACK = false) (c : Connection) (seq : SeqNumber)
    (len : Nat) (body : Option Body) :
    latestWith bit last [.fresh c.remoteAddr (c.segment seq .ACK len) body] = last := by
  rw [latestWith_fresh]
  exact if_neg (by simp [Connection.segment, without])

/-- The control bits that have been sent last are numbered. -/
theorem Numbered.of_sent {c c' : Connection} {p : Multiset Pending} {seq : SeqNumber}
    {flags : Flags} (waits : c.state.unacknowledged = some flags) (lastSent : c.lastSent = seq + 1) :
    Numbered bit (latestWith bit last [.fresh c'.remoteAddr (c'.segment seq flags 0) none])
      ⟨c, p⟩ := by
  intro flags' hwaits hbit
  change c.state.unacknowledged = _ at hwaits
  rw [waits] at hwaits
  cases hwaits
  have hset : bit (c'.segment seq flags 0).flags = true := hbit
  rw [latestWith_fresh, if_pos hset]
  show some seq = some (c.lastSent - 1)
  rw [lastSent, SeqNumber.add_sub_cancel]

theorem numbered_opening {sent : List Outgoing} (h : Opening role heard x sent y) :
    Numbered bit (latestWith bit last sent) y := by
  cases h with
  | connect localPort remotePort remote age closed tracked => exact .of_sent rfl rfl
  | refused => exact .of_none rfl
  | listen => exact .of_none rfl
  | accept s remote seq age server idle arrived tracked => exact .of_sent rfl rfl

/-- What is resent of the control bits has the number in front of the next one. -/
theorem numbered_resend (without : bit .ACK = false) (agrees : Agrees role x)
    (hx : Numbered bit last x) {e : Pending} (mem : e ∈ x.pending) :
    Numbered bit (latestWith bit last [Machine.rebuild x.conn e.kept]) x := by
  intro flags hwaits hbit
  cases hkept : e.kept with
  | copy octets => exact hx flags hwaits hbit
  | generated g offset seq len =>
    show latestWith bit last [.fresh _ (x.conn.segment seq .ACK len) _] = _
    rw [latestWith_segment without]
    exact hx flags hwaits hbit
  | control seq flags' =>
    -- Besides data nothing but the control bits is pending that the connection waits for.
    have hcontrol : e ∈ control x.conn := by
      apply Multiset.mem_of_le agrees.pending
      unfold besidesData
      split
      · exact Multiset.mem_filter.mpr ⟨mem, by rw [hkept]; rfl⟩
      · exact mem
    unfold control at hcontrol
    rw [hwaits] at hcontrol
    have heq := congrArg Pending.kept (Multiset.mem_singleton.mp hcontrol)
    rw [hkept] at heq
    cases heq
    have hset : bit (x.conn.segment (x.conn.lastSent - 1) flags 0).flags = true := hbit
    show latestWith bit last [.fresh _ (x.conn.segment (x.conn.lastSent - 1) flags 0) _] = _
    rw [latestWith_fresh, if_pos hset]
    rfl

theorem numbered_move {out : Option Outgoing} {given : Option Delivery}
    (without : bit .ACK = false) (h : Move role heard x out given y) (agrees : Agrees role x)
    (hx : Numbered bit last x) : Numbered bit (latestWith bit last out.toList) y := by
  cases h with
  | age | forget | acknowledge =>
    -- Neither the state nor the next number changes.
    exact hx
  | resend e mem => exact numbered_resend without agrees hx mem
  | piece source offset len open_ tracked =>
    -- Data moves the next number, but an open connection waits for nothing.
    refine .of_none ?_
    show State.unacknowledged _ = none
    rw [open_]
    rfl
  | finish next closes tracked =>
    rcases closes with ⟨-, rfl⟩ | ⟨-, rfl⟩ <;> exact .of_sent rfl rfl
  | drop | abort | answer | complete | endByFin => exact .of_none rfl
  | take s a arrived receives taken more =>
    have hsame : latestWith bit last (if a.ack then some (ackOf a.conn) else none).toList = last := by
      split
      · -- What is sent is an acknowledgment.
        exact latestWith_segment without _ _ _ _
      · rfl
    rw [hsame, Connection.conn_of_take taken]
    exact hx
  | answerFin s a arrived open_ taken fin tracked => exact .of_sent rfl rfl
  | finAcked s arrived closing acked =>
    intro flags hwaits hbit
    refine hx flags ?_ hbit
    show State.unacknowledged _ = _
    rw [closing]
    exact hwaits

theorem numbered_run (without : bit .ACK = false) {sent : List Outgoing} {handed : List Delivery}
    (h : Run role heard x sent handed y) (agrees : Agrees role x) (hx : Numbered bit last x) :
    Numbered bit (latestWith bit last sent) y := by
  induction h generalizing last with
  | nil => exact hx
  | cons move _ ih =>
    rw [latestWith_append]
    exact ih (agrees_move move agrees) (numbered_move without move agrees hx)

end Side

namespace Machine

variable {m : Machine} {role : Role} {bit : Flags → Bool} {last : Option SeqNumber}

/-- The segments that a run sends on the connection of a role. -/
def sentIn (role : Role) : Machine → List Operation → List Outgoing
  | _, [] => []
  | m, op :: ops => m.sentBy role op ++ sentIn role (m.after op) ops

/-- The number of the last segment with a control bit that a run sends on the connection of a
role. -/
def lastNumber (bit : Flags → Bool) (role : Role) (m : Machine) (ops : List Operation) :
    Option SeqNumber :=
  latestWith bit none (sentIn role m ops)

theorem numbered_after (without : bit .ACK = false) (op : Operation)
    (agrees : Side.Agrees role (m.side role)) (hx : Side.Numbered bit last (m.side role)) :
    Side.Numbered bit (latestWith bit last (m.sentBy role op)) ((m.after op).side role) := by
  rcases change_after m role op with ⟨opens, -⟩ | ⟨moves⟩
  · exact Side.numbered_opening opens
  · exact Side.numbered_run without moves agrees hx

theorem numbered_sentIn (without : bit .ACK = false) (ops : List Operation)
    (agrees : Side.Agrees role (m.side role)) (hx : Side.Numbered bit last (m.side role)) :
    Side.Numbered bit (latestWith bit last (sentIn role m ops)) ((m.run ops).side role) := by
  -- The induction carries along the number that the first operation leaves.
  induction ops generalizing m last with
  | nil => exact hx
  | cons op ops ih =>
    unfold sentIn
    rw [latestWith_append]
    exact ih (agrees_after agrees op) (numbered_after without op agrees hx)

/-- **The next number acknowledges our SYN or FIN**: while the peer has not acknowledged it, the
last one that has been sent has the number in front of the next one. -/
theorem lastNumber_run (without : bit .ACK = false) (policy : Policy) (seed : UInt32)
    (ops : List Operation) {flags : Flags}
    (waits : (((fresh policy seed).run ops).conn role).state.unacknowledged = some flags)
    (control : bit flags) :
    lastNumber bit role (fresh policy seed) ops =
      some ((((fresh policy seed).run ops).conn role).lastSent - 1) := by
  have hstart : Side.Numbered bit none ((fresh policy seed).side role) :=
    .of_none (by cases role <;> rfl)
  exact numbered_sentIn without ops (agrees_fresh policy seed role) hstart flags waits control

end Machine

end NetEngine.Tcp
