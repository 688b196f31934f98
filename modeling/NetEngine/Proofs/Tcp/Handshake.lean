import NetEngine.Proofs.Tcp.Stopping
import NetEngine.Proofs.Tcp.SeqNumber

/-! # Octets Across the Handshake

    A server that has answered a SYN waits for the peer to acknowledge its own.
    The segment that does so may carry data, and it may have overtaken others.

    * **Completion**: the segment that completes the handshake sets what has
      been received to the number in front of its own, wherever that is.
    * **First octet**: the first octet that the application gets is the one with
      the number of that segment.

    Nothing is lost exactly if the segment starts behind the SYN. -/

namespace NetEngine.Tcp

/-! ## The number of what is handed over -/

/-- What is handed over starts with the octet that is expected next. -/
theorem Connection.handed_number {c : Connection} {s : Segment} {a : Taken} {role : Role}
    {d : Delivery} (taken : c.take s = some a) (handed : a.handed role s = some d) :
    d.seq + d.skip = c.ackNumber := by
  obtain ⟨-, rfl⟩ := take_eq_some taken
  have hsum := c.count_add_fin s
  obtain ⟨-, hseq, hcount, hpos, hskip⟩ := Taken.handed_eq_some_iff.mp handed
  rw [hcount] at hpos hskip
  have hgain : 0 < c.gain s := by omega
  have hfin : (c.taken s).fin = s.flags.fin := by
    simp [Connection.taken, hgain]
  have hlast : c.lastReceived + (c.gain s).toNat = s.seq + s.span - 1 :=
    SeqNumber.add_toNat_distance (Int.le_of_lt hgain)
  have hlast := congrArg (·.val.toNat) hlast
  rw [SeqNumber.toNat_sub, SeqNumber.toNat_add, SeqNumber.toNat_add, ← hsum, hfin,
    Segment.span] at hlast
  apply SeqNumber.eq_of_toNat
  rw [hseq, Connection.ackNumber, SeqNumber.toNat_add, SeqNumber.toNat_add]
  omega

/-- Is the handshake of a connection in this state over? -/
def State.hasOpened : State → Bool
  | .established | .finWait1 | .finWait2 | .lastAck | .closed => true
  | _ => false

namespace Side

variable {role : Role} {heard : Option Segment} {x y : Side} {r n : SeqNumber}

/-- Nothing has been handed over since the number `r` was received. -/
structure Untouched (r : SeqNumber) (x : Side) : Prop where
  opened : x.conn.state.hasOpened
  received : x.conn.state = .established ∨ x.conn.state = .finWait1 ∨ x.conn.state = .finWait2 →
    x.conn.lastReceived = r

theorem Untouched.of_over {r : SeqNumber} {c : Connection} {p : Multiset Pending}
    (ended : c.state = .lastAck ∨ c.state = .closed) : Untouched r ⟨c, p⟩ where
  opened := by
    rcases ended with h | h
    · exact congrArg State.hasOpened h
    · exact congrArg State.hasOpened h
  received h := by
    change c.state = _ ∨ c.state = _ ∨ c.state = _ at h
    rcases ended with ended | ended <;> rw [ended] at h <;> rcases h with h | h | h <;> cases h

theorem Untouched.state_ne (hx : Untouched r x) {state : State} (h : state.hasOpened = false) :
    x.conn.state ≠ state := by
  rintro rfl
  rw [hx.opened] at h
  cases h

/-- No segment that arrives stops the engine where the number `r` is the last that has been
received. -/
def Unstopped (r : SeqNumber) (heard : Option Segment) : Prop :=
  ∀ s ∈ heard, ∀ c : Connection, c.lastReceived = r → ¬ c.IsHalfRoundAway s

/-- A move hands over the octet behind `r` first, or leaves the connection untouched. -/
theorem untouched_move {out : Option Outgoing} {given : Option Delivery}
    (h : Move role heard x out given y) (unstopped : x.conn.state.receives → Unstopped r heard)
    (hx : Untouched r x) :
    (∀ d ∈ given, d.seq + d.skip = r + 1) ∧ (given = none → Untouched r y) := by
  have take {c : Connection} {s : Segment} {a : Taken} (taken : c.take s = some a)
      (received : c.lastReceived = r) : ∀ d ∈ a.handed role s, d.seq + d.skip = r + 1 := by
    intro d hd
    rw [Connection.handed_number taken hd, Connection.ackNumber, received]
  cases h with
  | age | resend | forget | acknowledge | piece =>
    exact ⟨nofun, fun _ => ⟨hx.opened, hx.received⟩⟩
  | drop | abort => exact ⟨nofun, fun _ => .of_over (.inr rfl)⟩
  | finish next closes tracked =>
    rcases closes with ⟨hstate | hstate, rfl⟩ | ⟨hstate, -⟩
    · exact ⟨nofun, fun _ => ⟨rfl, fun _ => hx.received (.inl hstate)⟩⟩
    · -- The handshake is over, so that the connection does not wait for it.
      exact absurd hstate (hx.state_ne rfl)
    · exact absurd hstate (hx.state_ne rfl)
  | answer s arrived opening => exact absurd opening (hx.state_ne rfl)
  | complete s arrived opening => exact absurd opening (hx.state_ne rfl)
  | take s a arrived receives taken more =>
    rename_i c p
    have hreceived : c.lastReceived = r := hx.received receives
    refine ⟨take taken hreceived, ?_⟩
    -- Without a FIN and without new octets nothing has been received.
    intro hnone
    have hfar : ¬ c.IsHalfRoundAway s :=
      unstopped (State.receives_iff.mpr receives) s arrived c hreceived
    have hconn : a.conn = c := by
      obtain ⟨hd, rfl⟩ := Connection.take_eq_some taken
      obtain ⟨given, hgiven, hcount⟩ :=
        Taken.exists_delivery _ role s (Connection.count_le hd hfar)
      rw [Taken.handed_eq hgiven] at hnone
      rw [hnone] at hcount
      rw [Connection.taken_conn, ← hcount, more]
      simp
    rw [hconn]
    exact hx
  | answerFin s a arrived open_ taken fin tracked =>
    exact ⟨take taken (hx.received (.inl open_)), fun _ => .of_over (.inl rfl)⟩
  | endByFin s a arrived closing taken fin =>
    exact ⟨take taken (hx.received (.inr closing)), fun _ => .of_over (.inr rfl)⟩
  | finAcked s arrived closing =>
    exact ⟨nofun, fun _ => ⟨rfl, fun _ => hx.received (.inr (.inl closing))⟩⟩

/-- A connection whose handshake is over receives after a move only if it did before. -/
theorem receives_of_move {out : Option Outgoing} {given : Option Delivery}
    (h : Move role heard x out given y) (hx : Untouched r x) (receives : y.conn.state.receives) :
    x.conn.state.receives := by
  cases h with
  | age | resend | forget | acknowledge | piece => exact receives
  | drop | abort | answerFin | endByFin => cases receives
  | finish next closes tracked =>
    -- Only the close of an open connection leads to a state that receives.
    rcases closes with ⟨hstate | hstate, rfl⟩ | ⟨hstate, -⟩
    · exact congrArg State.receives hstate
    · exact absurd hstate (hx.state_ne rfl)
    · exact absurd hstate (hx.state_ne rfl)
  | answer s arrived opening => exact absurd opening (hx.state_ne rfl)
  | complete s arrived opening => exact absurd opening (hx.state_ne rfl)
  | take s a arrived open_ => exact State.receives_iff.mpr open_
  | finAcked s arrived closing => exact congrArg State.receives closing

theorem untouched_run {sent : List Outgoing} {handed : List Delivery}
    (h : Run role heard x sent handed y) (unstopped : x.conn.state.receives → Unstopped r heard)
    (hx : Untouched r x) :
    (∀ d, handed.head? = some d → d.seq + d.skip = r + 1) ∧ (handed = [] → Untouched r y) := by
  induction h with
  | nil => exact ⟨nofun, fun _ => hx⟩
  | @cons x y z out sent given handed move _ ih =>
    obtain ⟨hfirst, huntouched⟩ := untouched_move move unstopped hx
    cases given with
    | some d => exact ⟨fun d' hd' => hfirst d' hd', nofun⟩
    | none => exact ih (fun h => unstopped (receives_of_move move hx h)) (huntouched rfl)

/-! ## Waiting for the acknowledgment -/

/-- No move comes back to waiting for the acknowledgment of our answer. -/
theorem synReceived_of_move {out : Option Outgoing} {given : Option Delivery}
    (h : Move role heard x out given y) (state : y.conn.state = .synReceived) :
    x.conn.state = .synReceived ∧ y.conn.lastReceived = x.conn.lastReceived := by
  cases h with
  | age | resend | forget | acknowledge | piece => exact ⟨state, rfl⟩
  | finish next closes tracked =>
    rcases closes with ⟨-, rfl⟩ | ⟨-, rfl⟩ <;> cases state
  | take s a arrived receives taken more =>
    rw [Connection.conn_of_take taken] at state
    rcases receives with h | h | h <;> exact absurd (h.symm.trans state) (by decide)
  | drop | abort | answer | complete | answerFin | endByFin | finAcked => cases state

/-- Waiting, a connection has received the SYN and nothing else. -/
def Waits (n : SeqNumber) (x : Side) : Prop :=
  x.conn.state = .synReceived → x.conn.lastReceived = n

theorem waits_move {out : Option Outgoing} {given : Option Delivery}
    (h : Move role heard x out given y) (hx : Waits n x) : Waits n y := by
  intro state
  obtain ⟨hstate, hreceived⟩ := synReceived_of_move h state
  rw [hreceived]
  exact hx hstate

/-- Without a segment, a connection that waits is closed or goes on waiting. -/
theorem not_open_of_move {out : Option Outgoing} {given : Option Delivery}
    (h : Move role none x out given y)
    (hx : x.conn.state = .synReceived ∨ x.conn.state = .finWait1 ∨ x.conn.state = .closed) :
    y.conn.state = .synReceived ∨ y.conn.state = .finWait1 ∨ y.conn.state = .closed := by
  cases h with
  | age | resend | forget | piece => exact hx
  | drop | abort => exact .inr (.inr rfl)
  | finish next closes tracked =>
    rcases closes with ⟨-, rfl⟩ | ⟨hstate, -⟩
    · exact .inr (.inl rfl)
    · rw [hstate] at hx
      rcases hx with h | h | h <;> cases h
  | acknowledge s arrived | answer s arrived | complete s arrived | finAcked s arrived =>
    cases arrived
  | take s a arrived | answerFin s a arrived | endByFin s a arrived => cases arrived

end Side

namespace Machine

variable {m : Machine} {r n : SeqNumber}

/-- What a run hands to the application for a role, until the engine stops if it does. -/
def deliveriesIn (role : Role) : Machine → List Operation → List Delivery
  | _, [] => []
  | m, op :: ops =>
    if m.stopsAt op then []
    else (m.deliveryTo role op).toList ++ deliveriesIn role (m.after op) ops

/-- A segment that resets a connection hands nothing over, and closes it. -/
theorem receiveFor_of_reset (m : Machine) (role : Role) {s : Segment} (reset : s.flags.rst) :
    (m.receiveFor role s).handed = none ∧
      ((m.receiveFor role s).machine.side role).conn.state = .closed := by
  have hreset : m.receiveFor role s = ((m.rejuvenate role).reset role).keep := if_pos reset
  rw [hreset]
  refine ⟨rfl, ?_⟩
  show (((m.rejuvenate role).reset role).side role).conn.state = _
  rw [side_reset]

/-- An operation at which the engine goes on hands over the octet behind `r` first, or leaves the
connection untouched. -/
theorem untouched_after {role : Role} {op : Operation} (goes_on : m.stopsAt op = false)
    (aging : (m.conn role).state.isAging) (hx : Side.Untouched r (m.side role)) :
    (∀ d ∈ m.deliveryTo role op, d.seq + d.skip = r + 1) ∧
      (m.deliveryTo role op = none → Side.Untouched r ((m.after op).side role)) := by
  have hrun := run_after op aging
  cases hheard : m.heardBy role op with
  | none =>
    rw [hheard] at hrun
    obtain ⟨hfirst, hrest⟩ := Side.untouched_run hrun (fun _ => nofun) hx
    exact ⟨fun d hd => hfirst d (by rw [hd]; rfl), fun h => hrest (by rw [h]; rfl)⟩
  | some s =>
    by_cases hreset : s.flags.rst
    · -- The connection is over.
      obtain ⟨payload, remote, rfl, -, result⟩ := receive_of_heard hheard aging
      obtain ⟨hhanded, hstate⟩ := receiveFor_of_reset (m.mixIn s) role hreset
      have hnothing : m.deliveryTo role (.receive s payload remote) = none := by
        show (m.receive s remote).handed.filter _ = none
        rw [result, hhanded]
        rfl
      refine ⟨by rw [hnothing]; nofun, fun _ => ?_⟩
      show Side.Untouched r ((m.receive s remote).machine.side role)
      rw [result]
      exact .of_over (.inr hstate)
    · have hunstopped : (m.side role).conn.state.receives → Side.Unstopped r (some s) := by
        rintro receives s' ⟨⟩ c hc hfar
        have hreceived : (m.conn role).lastReceived = r :=
          hx.received (State.receives_iff.mp receives)
        have hstops : m.stopsAt op = true :=
          stopsAt_iff.mpr ⟨role, s, hheard, by simpa using hreset, receives, hfar.1, hfar.2.1,
            by rw [hreceived, ← hc]; exact hfar.2.2⟩
        rw [goes_on] at hstops
        cases hstops
      rw [hheard] at hrun
      obtain ⟨hfirst, hrest⟩ := Side.untouched_run hrun hunstopped hx
      exact ⟨fun d hd => hfirst d (by rw [hd]; rfl), fun h => hrest (by rw [h]; rfl)⟩

/-- The octet behind the last number received is the first one to be handed over. -/
theorem first_delivery {role : Role} {ops : List Operation} {d : Delivery}
    (hx : Side.Untouched r (m.side role))
    (first : (deliveriesIn role m (untilClosed role m ops)).head? = some d) :
    d.seq + d.skip = r + 1 := by
  induction ops generalizing m with
  | nil => cases first
  | cons op ops ih =>
    unfold untilClosed at first
    split at first
    · cases first
    · rename_i hlasts
      have haging : (m.conn role).state.isAging := by
        have hopened : (m.conn role).state.hasOpened := hx.opened
        revert hopened hlasts
        cases (m.conn role).state <;> decide
      unfold deliveriesIn at first
      split at first
      · cases first
      · rename_i hgoes
        obtain ⟨hfirst, huntouched⟩ := untouched_after (by simpa using hgoes) haging hx
        cases hd : m.deliveryTo role op with
        | some d' =>
          rw [hd] at first
          exact hfirst d (hd.trans first)
        | none =>
          -- The connection is untouched, and the first delivery comes later.
          rw [hd] at first
          exact ih (huntouched hd) first

/-- What a server has received when it accepts a SYN. -/
theorem received_of_accept {syn : Segment} {payload : Bytes} {remote : Ipv4Address}
    (idle : m.server.state.isAging = false)
    (accepted : (m.after (.receive syn payload remote)).server.state = .synReceived) :
    (m.after (.receive syn payload remote)).server.lastReceived = syn.seq := by
  have hchange := change_after m .server (.receive syn payload remote)
  have hidle : (m.side .server).conn.state ≠ .synReceived := by
    intro h
    change m.server.state = _ at h
    rw [h] at idle
    cases idle
  have haccepted : ((m.after (.receive syn payload remote)).side .server).conn.state =
    .synReceived := accepted
  show ((m.after (.receive syn payload remote)).side .server).conn.lastReceived = _
  generalize (m.after (.receive syn payload remote)).side .server = y at hchange haccepted ⊢
  generalize m.sentBy .server _ = sent at hchange
  generalize m.side .server = x at hchange hidle
  rcases hchange with ⟨opens, -⟩ | ⟨moves⟩
  · cases opens with
    | accept s remote' seq age server _ arrived tracked =>
      simp only [heardBy] at arrived
      split at arrived
      · cases arrived
        rfl
      · cases arrived
    | connect | refused | listen => cases haccepted
  · -- No move leads to waiting, as an opening does.
    refine absurd haccepted (moves.preserves (P := fun z => z.conn.state ≠ .synReceived) ?_ hidle)
    exact fun move h h' => h (Side.synReceived_of_move move h').1

/-- What has been received stays the number of the SYN while the server waits. -/
theorem received_of_waits {ops : List Operation} (received : m.server.lastReceived = n)
    (waits : ∀ before rest, ops = before ++ rest → (m.run before).server.state = .synReceived) :
    (m.run ops).server.lastReceived = n := by
  induction ops generalizing m with
  | nil => exact received
  | cons op ops ih =>
    have hstate : (m.conn .server).state = .synReceived := waits [] _ rfl
    have hafter : (m.after op).server.state = .synReceived := waits [op] ops rfl
    have hwaits := (run_after op (congrArg State.isAging hstate)).preserves Side.waits_move
      (fun _ => received)
    exact ih (hwaits hafter) fun before rest h => waits (op :: before) rest (congrArg _ h)

/-! ## Completion -/

/-- The machine that has noted the acknowledgment of a segment for the server. -/
def noted (m : Machine) (s : Segment) : Machine :=
  ((m.mixIn s).rejuvenate .server).takeAck .server s

/-- The machine at the moment at which a segment completes the handshake of the server, before its
payload is taken. -/
def completed (m : Machine) (s : Segment) : Machine := (m.noted s).opened .server s

theorem state_noted (m : Machine) (s : Segment) :
    ((m.noted s).conn .server).state = m.server.state := by
  obtain ⟨lastAcked, window, hconn⟩ := conn_takeAck ((m.mixIn s).rejuvenate .server) .server s
  unfold noted rejuvenate at *
  rw [hconn, conn_setConn_self, conn_mixIn]
  rfl

theorem server_completed (m : Machine) (s : Segment) :
    (m.completed s).server.state = .established ∧ (m.completed s).server.lastReceived = s.seq - 1 :=
  ⟨rfl, rfl⟩

/-- A server that waits opens by completing the handshake, or goes on waiting. -/
theorem receiveInState_of_waits {s : Segment} (waits : m.server.state = .synReceived) :
    (m.noted s).receiveInState .server s = (m.completed s).receiveOpen .server s ∨
      (m.noted s).receiveInState .server s = (m.noted s).keep := by
  have hstate := (state_noted m s).trans waits
  unfold receiveInState
  dsimp only
  rw [hstate]
  by_cases hcompletes : completesHandshake ((m.noted s).conn .server) s
  · left
    exact if_pos hcompletes
  · right
    exact if_neg hcompletes

/-- A server that waits and opens by a segment has completed the handshake by it. -/
theorem receiveFor_of_waits {s : Segment} (waits : m.server.state = .synReceived)
    (opens : ((m.mixIn s).receiveFor .server s).machine.server.state = .established ∨
      ((m.mixIn s).receiveFor .server s).machine.server.state = .lastAck) :
    (m.mixIn s).receiveFor .server s = (m.completed s).receiveOpen .server s := by
  by_cases hrst : s.flags.rst
  · -- A reset closes the connection.
    have hreset : (m.mixIn s).receiveFor .server s =
        (((m.mixIn s).rejuvenate .server).reset .server).keep := if_pos hrst
    rw [hreset] at opens
    rcases opens with h | h <;> cases h
  · have hstate : (m.mixIn s).receiveFor .server s = (m.noted s).receiveInState .server s :=
      if_neg hrst
    rw [hstate] at opens ⊢
    rcases receiveInState_of_waits waits with hcompleted | hkeep
    · exact hcompleted
    · -- The server would go on waiting.
      have hwaits : (m.noted s).server.state = .synReceived := (state_noted m s).trans waits
      rw [hkeep] at opens
      change (m.noted s).server.state = _ ∨ (m.noted s).server.state = _ at opens
      rw [hwaits] at opens
      rcases opens with h | h <;> cases h

/-- Only a segment that completes the handshake brings a server that waits to open. -/
theorem completed_of_open {op : Operation} (waits : m.server.state = .synReceived)
    (opens : (m.after op).server.state = .established ∨ (m.after op).server.state = .lastAck) :
    ∃ s payload remote, op = .receive s payload remote ∧
      m.receive s remote = (m.completed s).receiveOpen .server s := by
  have haging : (m.conn .server).state.isAging := congrArg State.isAging waits
  cases hheard : m.heardBy .server op with
  | none =>
    -- Only a segment can open the connection.
    have hrun := run_after op haging
    rw [hheard] at hrun
    have hnot := hrun.preserves Side.not_open_of_move (.inl waits)
    change (m.after op).server.state = _ ∨ (m.after op).server.state = _ ∨
      (m.after op).server.state = _ at hnot
    rcases opens with h | h <;> rw [h] at hnot <;> rcases hnot with h | h | h <;> cases h
  | some s =>
    obtain ⟨payload, remote, rfl, -, hreceive⟩ := receive_of_heard hheard haging
    refine ⟨s, payload, remote, rfl, ?_⟩
    have hafter : (m.after (.receive s payload remote)).server =
        ((m.mixIn s).receiveFor .server s).machine.server := by
      rw [← hreceive]
      rfl
    rw [hafter] at opens
    rw [hreceive]
    exact receiveFor_of_waits waits opens

/-- No octet is lost between the SYN with the number `n` and the end of the handshake, which `op`
completes on the machine `m` and which leaves it `opened`. -/
structure NoneLost (n : SeqNumber) (m : Machine) (op : Operation) (opened : Machine) : Prop where
  /-- The SYN is the last that has been received when the handshake is completed. -/
  received : opened.server.lastReceived = n
  /-- The first octet that is ever handed over is the one behind the SYN. -/
  first : ∀ ops d, (deliveriesIn .server m (untilClosed .server m (op :: ops))).head? = some d →
    d.seq + d.skip = n + 1
  /-- A segment that starts beyond it is dropped. -/
  beyond : ∀ s, 1 < s.seq.distance n → opened.receiveOpen .server s = opened.keep

/-- The completing segment hands over what the open connection takes of it. -/
theorem deliveryTo_of_completed {s : Segment} {payload : Bytes} {remote : Ipv4Address}
    (result : m.receive s remote = (m.completed s).receiveOpen .server s) :
    m.deliveryTo .server (.receive s payload remote) =
      ((m.completed s).receiveOpen .server s).handed := by
  have hreacts : Reacts .server s (m.completed s) ((m.completed s).receiveOpen .server s) :=
    reacts_receiveOpen s (server_completed m s).1
  show (m.receive s remote).handed.filter _ = _
  rw [result]
  cases hd : ((m.completed s).receiveOpen .server s).handed with
  | none => rfl
  | some d =>
    have hrole : d.role = .server := role_of_run hreacts.own d (by simp [hd])
    simp [Option.filter_some, hrole]

/-- The octet with the number of the completing segment is the first one to be handed over. -/
theorem first_of_completed {s : Segment} {payload : Bytes} {remote : Ipv4Address}
    (waits : m.server.state = .synReceived)
    (result : m.receive s remote = (m.completed s).receiveOpen .server s) {ops : List Operation}
    {d : Delivery} (first : (deliveriesIn .server m (untilClosed .server m
      (.receive s payload remote :: ops))).head? = some d) :
    d.seq + d.skip = s.seq - 1 + 1 := by
  let op := Operation.receive s payload remote
  have hreacts : Reacts .server s (m.completed s) ((m.completed s).receiveOpen .server s) :=
    reacts_receiveOpen s (server_completed m s).1
  have hafter : m.after op = ((m.completed s).receiveOpen .server s).machine :=
    congrArg (·.machine) result
  have hdelivery : m.deliveryTo .server op = ((m.completed s).receiveOpen .server s).handed :=
    deliveryTo_of_completed result
  have huntouched : Side.Untouched (s.seq - 1) ((m.completed s).side .server) :=
    ⟨rfl, fun _ => rfl⟩
  -- The engine does not stop at the segment that follows what has been received.
  have hunstopped : Side.Unstopped (s.seq - 1) (some s) := by
    rintro s' ⟨⟩ c hc
    exact Connection.not_far_of_next hc
  obtain ⟨hfirst, hrest⟩ := Side.untouched_run hreacts.own (fun _ => hunstopped) huntouched
  have hlasts : (m.conn .server).state ≠ .closed := by
    change m.server.state ≠ _
    rw [waits]
    decide
  unfold untilClosed at first
  rw [if_neg hlasts] at first
  unfold deliveriesIn at first
  split at first
  · cases first
  rw [hdelivery, hafter] at first
  cases hd : ((m.completed s).receiveOpen .server s).handed with
  | some d' =>
    rw [hd] at first hfirst
    exact hfirst d first
  | none =>
    -- The connection is untouched, and the first delivery comes later.
    rw [hd] at first hrest
    exact first_delivery (hrest rfl) first

/-- **No octet is lost across the handshake** exactly if the segment that completes it starts right
behind the SYN.

The server accepts a SYN, waits through `ops` whatever they are, and opens by `op`. -/
theorem noneLost_iff {syn : Segment} {payload : Bytes} {remote : Ipv4Address}
    {ops : List Operation} {op : Operation} (idle : m.server.state.isAging = false)
    (waits : ∀ before rest, ops = before ++ rest →
      ((m.after (.receive syn payload remote)).run before).server.state = .synReceived)
    (opens : let waiting := (m.after (.receive syn payload remote)).run ops
      (waiting.after op).server.state = .established ∨ (waiting.after op).server.state = .lastAck) :
    let waiting := (m.after (.receive syn payload remote)).run ops
    waiting.server.lastReceived = syn.seq ∧
      ∃ s payload' remote', op = .receive s payload' remote' ∧
        waiting.receive s remote' = (waiting.completed s).receiveOpen .server s ∧
        (NoneLost syn.seq waiting op (waiting.completed s) ↔ s.seq = syn.seq + 1) := by
  intro waiting
  have hreceived : waiting.server.lastReceived = syn.seq :=
    received_of_waits (received_of_accept idle (waits [] ops rfl)) waits
  have hwaits : waiting.server.state = .synReceived := waits ops [] (List.append_nil _).symm
  obtain ⟨s, payload', remote', rfl, hresult⟩ := completed_of_open hwaits opens
  refine ⟨hreceived, s, payload', remote', rfl, hresult, ?_, ?_⟩
  · intro h
    have hlast : s.seq - 1 = syn.seq := h.received
    rw [← hlast, SeqNumber.sub_add_cancel]
  · intro h
    have hlast : s.seq - 1 = syn.seq := by
      rw [h, SeqNumber.add_sub_cancel]
    refine ⟨hlast, ?_, ?_⟩
    · intro ops d hd
      rw [← hlast]
      exact first_of_completed hwaits hresult hd
    · intro t ht
      have htake : ((waiting.completed s).conn .server).take t = none := by
        have hserver : ((waiting.completed s).conn .server).lastReceived = syn.seq := hlast
        rw [Connection.take_eq, hserver]
        exact if_pos ht
      rw [receiveOpen, htake]

/-- A handshake that is completed by the first octets behind the SYN. -/
theorem noneLost_of_next :
    let m := (fresh ⟨80, 3, 3, 100, true⟩ 1).after (.listen 80)
    let remote : Ipv4Address := .unspecified
    let syn : Segment := ⟨4000, 80, ⟨100⟩, ⟨0⟩, .SYN, 1024, none, 0⟩
    let waiting := (m.after (.receive syn [] remote)).run [.tick]
    let s : Segment := ⟨4000, 80, ⟨101⟩, waiting.server.lastSent, .ACK, 1024, none, 5⟩
    let op := Operation.receive s [1, 2, 3, 4, 5] remote
    m.server.state.isAging = false ∧ (waiting.after op).server.state = .established ∧
      NoneLost syn.seq waiting op (waiting.completed s) := by
  intro m remote syn waiting s op
  have hwaits : ∀ before rest, [Operation.tick] = before ++ rest →
      ((m.after (.receive syn [] remote)).run before).server.state = .synReceived := by
    rintro (_ | ⟨first, _ | ⟨second, before⟩⟩) rest h
    · decide
    · obtain ⟨rfl, -⟩ := List.cons.inj h
      decide
    · cases h
  have hidle : m.server.state.isAging = false := by decide
  have hopens : (waiting.after op).server.state = .established := by decide
  obtain ⟨-, s', payload, remote', hop, -, hiff⟩ := noneLost_iff hidle hwaits (.inl hopens)
  obtain ⟨rfl, -, -⟩ := Operation.receive.inj hop
  exact ⟨hidle, hopens, hiff.mpr (by decide)⟩

/-- Octets are lost if the handshake is completed by a segment that has overtaken others: ten of
them are skipped here, and will count as received. -/
theorem octets_lost_by_overtaking :
    let m := (fresh ⟨80, 3, 3, 100, true⟩ 1).after (.listen 80)
    let remote : Ipv4Address := .unspecified
    let syn : Segment := ⟨4000, 80, ⟨100⟩, ⟨0⟩, .SYN, 1024, none, 0⟩
    let waiting := m.after (.receive syn [] remote)
    let s : Segment := ⟨4000, 80, ⟨111⟩, waiting.server.lastSent, .ACK, 1024, none, 5⟩
    let op := Operation.receive s [1, 2, 3, 4, 5] remote
    waiting.server.state = .synReceived ∧ (waiting.after op).server.state = .established ∧
      waiting.server.lastReceived = syn.seq ∧ (waiting.completed s).server.lastReceived = ⟨110⟩ ∧
      waiting.deliveryTo .server op = some ⟨.server, ⟨111⟩, 5, 0⟩ ∧
      ¬ NoneLost syn.seq waiting op (waiting.completed s) := by
  intro m remote syn waiting s op
  have hcompleted : (waiting.completed s).server.lastReceived = ⟨110⟩ := by decide
  refine ⟨by decide, by decide, by decide, hcompleted, by decide, ?_⟩
  intro h
  have hreceived := h.received
  rw [hcompleted] at hreceived
  exact absurd hreceived (by decide)

end Machine

end NetEngine.Tcp
