import NetEngine.Proofs.Tcp.Refinement
import NetEngine.Proofs.Tcp.SeqNumber

/-! # The Pool Agrees with the Connections

    What is tracked for a role fits the state of its connection.

    * **Control**: the SYN or the FIN that a connection waits for the peer to
      acknowledge.  Besides data nothing else is tracked, and this at most once.
    * **Agreement**: the invariant of one side.  It says also how far the
      acknowledgments have come while an answer to a SYN is pending, since the
      peer may acknowledge anything.

    Every opening and every move keeps the agreement, and so does every operation
    of the machine. -/

namespace NetEngine.Tcp

/-- Is the payload of a segment kept? -/
def Kept.isData : Kept → Bool
  | .copy _ | .generated .. => true
  | .control .. => false

/-- May data be tracked for a connection in this state? -/
def State.holdsData : State → Bool
  | .established | .lastAck => true
  | _ => false

/-- Is this state entered by the connection of a role? -/
def State.isEntered (role : Role) : State → Bool
  | .closeWait | .closing | .timeWait => false
  | .listen | .synReceived => role = .server
  | _ => true

/-- The control bits that a connection waits for the peer to acknowledge. -/
def State.unacknowledged : State → Option Flags
  | .synSent => some .SYN
  | .synReceived => some (.SYN ||| .ACK)
  | .finWait1 | .finWait2 | .lastAck => some (.FIN ||| .ACK)
  | _ => none

namespace Side

variable {role : Role} {heard : Option Segment} {x y : Side}

/-! ## Agreement -/

/-- What is pending of the control bits that the peer has not acknowledged. -/
def control (c : Connection) : Multiset Pending :=
  match c.state.unacknowledged with
  | some flags => {.of (c.lastSent - 1) 1 (.control (c.lastSent - 1) flags)}
  | none => 0

/-- What is pending besides the data that may be. -/
def besidesData (x : Side) : Multiset Pending :=
  if x.conn.state.holdsData then x.pending.filter (fun e => e.kept.isData = false) else x.pending

/-- The pool agrees with the connection of a role. -/
structure Agrees (role : Role) (x : Side) : Prop where
  entered : x.conn.state.isEntered role
  pending : x.besidesData ≤ control x.conn
  /-- While an answer to a SYN is pending, no acknowledgment has gone beyond it. -/
  acked : x.conn.state = .synReceived → x.pending ≠ 0 →
    x.conn.lastAcked = x.conn.lastSent - 2 ∨ x.conn.lastAcked = x.conn.lastSent - 1

theorem besidesData_le (x : Side) : x.besidesData ≤ x.pending := by
  unfold besidesData
  split
  · exact Multiset.filter_le _ _
  · exact le_rfl

theorem besidesData_eq {x : Side} (h : x.conn.state.holdsData = false) :
    x.besidesData = x.pending := by
  unfold besidesData
  rw [h]
  rfl

/-- A segment that found a place is one more at most. -/
theorem Tracks.le {e : Pending} {p p' : Multiset Pending} (h : Tracks e p p') : p' ≤ e ::ₘ p := by
  rcases h with rfl | rfl
  · exact le_rfl
  · exact Multiset.le_cons_self _ _

namespace Agrees

/-- What is pending agrees with every state that is entered if it is nothing. -/
theorem of_zero {c : Connection} (entered : c.state.isEntered role) : Agrees role ⟨c, 0⟩ where
  entered := entered
  pending := (besidesData_le _).trans (Multiset.zero_le _)
  acked _ h := absurd rfl h

/-- Nothing is pending for a connection that does not grow old. -/
theorem pending_eq_zero (h : Agrees role x) (idle : x.conn.state.isAging = false) :
    x.pending = 0 := by
  obtain ⟨hdata, hcontrol⟩ : x.conn.state.holdsData = false ∧ control x.conn = 0 := by
    unfold control
    cases hstate : x.conn.state <;> rw [hstate] at idle <;> first | exact ⟨rfl, rfl⟩ | cases idle
  rw [← Multiset.le_zero, ← hcontrol, ← besidesData_eq hdata]
  exact h.pending

/-- Less may be pending, and what does not count for the pool may change. -/
theorem mono {c c' : Connection} {p p' : Multiset Pending} (h : Agrees role ⟨c, p⟩)
    (entered : c'.state.isEntered role) (holds : c'.state.holdsData = c.state.holdsData)
    (waits : c'.state.unacknowledged = c.state.unacknowledged) (lastSent : c'.lastSent = c.lastSent)
    (le : p' ≤ p)
    (acked : c'.state = .synReceived → p' ≠ 0 →
      c'.lastAcked = c.lastSent - 2 ∨ c'.lastAcked = c.lastSent - 1) : Agrees role ⟨c', p'⟩ where
  entered := entered
  pending := by
    have hle : besidesData ⟨c', p'⟩ ≤ besidesData ⟨c, p⟩ := by
      unfold besidesData
      rw [holds]
      split
      · exact Multiset.filter_le_filter _ le
      · exact le
    have hcontrol : control c' = control c := by
      unfold control
      rw [waits, lastSent]
    rw [hcontrol]
    exact hle.trans h.pending
  acked hstate hp := by
    rw [lastSent]
    exact acked hstate hp

/-- The last control bits are pending that have been sent. -/
theorem of_tracks {c : Connection} {seq : SeqNumber} {flags : Flags} {p' : Multiset Pending}
    (entered : c.state.isEntered role) (waits : c.state.unacknowledged = some flags)
    (lastSent : c.lastSent = seq + 1) (tracked : Tracks (.of seq 1 (.control seq flags)) 0 p')
    (acked : c.state = .synReceived → c.lastAcked = seq - 1) : Agrees role ⟨c, p'⟩ where
  entered := entered
  pending := by
    have hcontrol : control c = {.of seq 1 (.control seq flags)} := by
      unfold control
      rw [waits, lastSent, SeqNumber.add_sub_cancel]
    rw [hcontrol]
    exact (besidesData_le _).trans tracked.le
  acked hstate _ := by
    left
    show c.lastAcked = c.lastSent - 2
    rw [acked hstate, lastSent, SeqNumber.add_sub_of_ge seq (by decide)]

end Agrees

/-! ## Openings -/

theorem agrees_opening {sent : List Outgoing} (h : Opening role heard x sent y)
    (hx : Agrees role x) : Agrees role y := by
  cases h with
  | connect localPort remotePort remote age closed tracked =>
    rename_i c p p'
    have hp : p = 0 := hx.pending_eq_zero (by rw [closed]; rfl)
    subst hp
    exact .of_tracks rfl rfl rfl tracked fun h => by cases h
  | refused => exact .of_zero rfl
  | listen port server idle =>
    rename_i c p
    have hp : p = 0 := hx.pending_eq_zero idle
    subst hp
    exact .of_zero (by rw [server]; rfl)
  | accept s remote seq age server idle arrived tracked =>
    exact .of_tracks (by rw [server]; rfl) rfl rfl tracked fun _ => rfl

/-! ## Moves -/

theorem isData_ofSource (source : Source) (s : Segment) (offset : Nat) :
    (Kept.ofSource source s offset).isData = true := by
  unfold Kept.ofSource
  cases source <;> rfl

namespace Agrees

/-- An open connection has nothing pending but data. -/
theorem filter_eq_zero {c : Connection} {p : Multiset Pending} (h : Agrees role ⟨c, p⟩)
    (open_ : c.state = .established) : p.filter (fun e => e.kept.isData = false) = 0 := by
  have hpending := h.pending
  unfold besidesData control at hpending
  simp only [open_, State.holdsData, State.unacknowledged, if_true] at hpending
  exact Multiset.le_zero.mp hpending

/-- A connection that takes no data has nothing pending but its control bits. -/
theorem pending_le (h : Agrees role x) (holds : x.conn.state.holdsData = false) :
    x.pending ≤ control x.conn := by
  rw [← besidesData_eq holds]
  exact h.pending

/-- While an answer to a SYN is pending, an acknowledgment that leaves it so is the one of the SYN's
own number. -/
theorem acked_of_noted {c : Connection} {p : Multiset Pending} {ack : SeqNumber}
    (h : Agrees role ⟨c, p⟩) (opening : c.state = .synReceived)
    (later : 0 < ack.distance c.lastAcked)
    (left : p.filter (fun e => e.isCoveredBy ack = false) ≠ 0) : ack = c.lastSent - 1 := by
  -- What is left is our SYN, so that the acknowledgment is not later than it.
  obtain ⟨e, he⟩ := Multiset.exists_mem_of_ne_zero left
  obtain ⟨hmem, hcovered⟩ := Multiset.mem_filter.mp he
  have hle := h.pending_le (by show c.state.holdsData = false; rw [opening]; rfl)
  have hcontrol : control c =
      {.of (c.lastSent - 1) 1 (.control (c.lastSent - 1) (.SYN ||| .ACK))} := by
    unfold control
    rw [opening]
    rfl
  have heq := Multiset.mem_of_le hle hmem
  rw [hcontrol, Multiset.mem_singleton] at heq
  have hnot : ¬ 0 < ack.distance (c.lastSent - 1) := by
    rw [heq] at hcovered
    simpa [Pending.isCoveredBy, Pending.of] using hcovered
  have hne : p ≠ 0 := fun h0 => by
    rw [h0] at hmem
    exact Multiset.notMem_zero e hmem
  rcases h.acked opening hne with hacked | hacked
  · -- Two numbers before the next one is one before that of the SYN.
    change c.lastAcked = c.lastSent - 2 at hacked
    have htwo : c.lastSent - 2 = c.lastSent - 1 - 1 := by
      apply SeqNumber.eq_of_toNat
      rw [SeqNumber.toNat_sub, SeqNumber.toNat_sub, SeqNumber.toNat_sub]
      omega
    rw [hacked, htwo] at later
    exact SeqNumber.eq_of_distance_pos later hnot
  · change c.lastAcked = c.lastSent - 1 at hacked
    rw [hacked] at later
    exact absurd later hnot

/-- Nothing is pending once the acknowledgment of our SYN has been noted. -/
theorem pending_eq_zero_of_noted {c : Connection} {p : Multiset Pending} (h : Agrees role ⟨c, p⟩)
    (opening : c.state = .synReceived) (noted : ¬ 0 < c.lastSent.distance c.lastAcked) : p = 0 := by
  by_contra hp
  apply noted
  -- The last acknowledgment is one or two before the next number, and that is later.
  rcases h.acked opening hp with hacked | hacked
  · change c.lastAcked = c.lastSent - 2 at hacked
    rw [hacked, SeqNumber.distance_sub_self _ (by decide)]
    decide
  · change c.lastAcked = c.lastSent - 1 at hacked
    rw [hacked, SeqNumber.distance_sub_self _ (by decide)]
    decide

/-- More data may be pending for an open connection. -/
theorem add_data {c : Connection} {p p' : Multiset Pending} {e : Pending} (h : Agrees role ⟨c, p⟩)
    (open_ : c.state = .established) (data : e.kept.isData) (tracked : Tracks e p p')
    (lastSent : SeqNumber) : Agrees role ⟨{ c with lastSent := lastSent }, p'⟩ where
  entered := h.entered
  pending := by
    have hzero : p'.filter (fun e => e.kept.isData = false) = 0 := by
      rcases tracked with rfl | rfl
      · rw [Multiset.filter_cons_of_neg _ (by simp [data])]
        exact h.filter_eq_zero open_
      · exact h.filter_eq_zero open_
    unfold besidesData
    simp only [open_, State.holdsData, if_true]
    rw [hzero]
    exact Multiset.zero_le _
  acked hstate := by
    change c.state = _ at hstate
    rw [open_] at hstate
    cases hstate

/-- The FIN that answers the one of the peer comes to the data of an open connection. -/
theorem add_fin {c c' : Connection} {p p' : Multiset Pending} (h : Agrees role ⟨c, p⟩)
    (open_ : c.state = .established) (tracked : Tracks (pendingFin c') p p') :
    Agrees role ⟨{ c' with state := .lastAck, lastSent := c'.lastSent + 1 }, p'⟩ where
  entered := rfl
  pending := by
    have hcontrol : control { c' with state := .lastAck, lastSent := c'.lastSent + 1 } =
        {pendingFin c'} := by
      unfold control pendingFin
      simp only [State.unacknowledged, SeqNumber.add_sub_cancel]
    have hcons : (pendingFin c' ::ₘ p).filter (fun e => e.kept.isData = false) =
        pendingFin c' ::ₘ p.filter (fun e => e.kept.isData = false) :=
      Multiset.filter_cons_of_pos p rfl
    rw [hcontrol]
    calc besidesData ⟨{ c' with state := .lastAck, lastSent := c'.lastSent + 1 }, p'⟩
      _ = p'.filter (fun e => e.kept.isData = false) := rfl
      _ ≤ (pendingFin c' ::ₘ p).filter (fun e => e.kept.isData = false) :=
        Multiset.filter_le_filter _ tracked.le
      _ = {pendingFin c'} := by
        rw [hcons, h.filter_eq_zero open_]
        rfl
  acked hstate := by cases hstate

end Agrees

/-- Every move keeps the agreement. -/
theorem agrees_move {out : Option Outgoing} {given : Option Delivery}
    (h : Move role heard x out given y) (hx : Agrees role x) : Agrees role y := by
  cases h with
  | age => exact hx.mono hx.entered rfl rfl rfl le_rfl hx.acked
  | resend => exact hx
  | piece source offset len open_ tracked =>
    exact hx.add_data open_ (isData_ofSource source _ offset) tracked _
  | finish next closes tracked =>
    rename_i c p p'
    rcases closes with ⟨-, rfl⟩ | ⟨hwait, -⟩
    · exact .of_tracks rfl rfl rfl tracked fun h => by cases h
    · -- No connection waits for its user to close it.
      have := hx.entered
      rw [hwait] at this
      cases this
  | forget => exact .of_zero hx.entered
  | drop => exact .of_zero rfl
  | abort => exact .of_zero rfl
  | acknowledge s arrived ack later =>
    exact hx.mono hx.entered rfl rfl rfl (Multiset.filter_le _ _) fun hstate hp =>
      .inr (hx.acked_of_noted hstate later hp)
  | answer => exact .of_zero rfl
  | complete s arrived opening completes noted =>
    -- The acknowledgment covers our SYN, which has been forgotten when it was noted.
    rename_i c p
    have hack : s.ackNumber = c.lastSent := by
      simp only [Machine.completesHandshake, Bool.and_eq_true, decide_eq_true_eq] at completes
      exact completes.2
    rw [hack] at noted
    have hp := hx.pending_eq_zero_of_noted opening noted
    subst hp
    exact .of_zero rfl
  | take s a arrived receives taken more =>
    rename_i c p
    rw [Connection.conn_of_take taken]
    exact hx.mono hx.entered rfl rfl rfl le_rfl hx.acked
  | answerFin s a arrived open_ taken fin tracked =>
    exact hx.add_fin open_ tracked
  | endByFin => exact .of_zero rfl
  | finAcked s arrived closing acked =>
    exact hx.mono rfl (by rw [closing]; rfl) (by rw [closing]; rfl) rfl le_rfl fun h => by cases h

end Side

/-! ## The machine -/

namespace Machine

open Side (Agrees)

/-- The sides of a machine without connections agree. -/
theorem agrees_fresh (policy : Policy) (seed : UInt32) (role : Role) :
    Agrees role ((fresh policy seed).side role) := by
  have hpending : (fresh policy seed).pool.pendingOf role = 0 := Pool.pendingOf_empty role
  unfold side
  rw [hpending]
  cases role <;> exact .of_zero rfl

theorem agrees_after {m : Machine} {role : Role} (h : Agrees role (m.side role)) (op : Operation) :
    Agrees role ((m.after op).side role) := by
  rcases change_after m role op with ⟨opens, -⟩ | ⟨moves⟩
  · exact Side.agrees_opening opens h
  · exact moves.preserves Side.agrees_move h

theorem agrees_run (policy : Policy) (seed : UInt32) (ops : List Operation) (role : Role) :
    Agrees role (((fresh policy seed).run ops).side role) :=
  run_induction (P := fun m => Agrees role (m.side role)) (agrees_fresh policy seed role)
    (fun _ op h => agrees_after h op) ops

/-- The segments that are tracked for a role. -/
def trackedFor (m : Machine) (role : Role) : List Tracked := m.pool.toList.filter (·.role = role)

/-- What is kept of a SYN or a FIN that was the last to be sent. -/
def lastControl (m : Machine) (role : Role) (flags : Flags) : Kept :=
  .control ((m.conn role).lastSent - 1) flags

/-- The segments that are tracked for a role fit the state of its connection. -/
def PoolAgrees (m : Machine) (role : Role) : Prop :=
  let tracked := m.trackedFor role
  match (m.conn role).state with
  | .closed => tracked = []
  | .listen => role = .server ∧ tracked = []
  | .synSent => tracked.length ≤ 1 ∧ ∀ e ∈ tracked, e.kept = m.lastControl role .SYN
  | .synReceived => role = .server ∧ tracked.length ≤ 1 ∧
      ∀ e ∈ tracked, e.kept = m.lastControl role (.SYN ||| .ACK)
  | .established => ∀ e ∈ tracked, e.kept.isData
  | .finWait1 | .finWait2 => tracked.length ≤ 1 ∧
      ∀ e ∈ tracked, e.kept = m.lastControl role (.FIN ||| .ACK)
  | .lastAck => (tracked.filter (fun e => !e.kept.isData)).length ≤ 1 ∧
      ∀ e ∈ tracked, e.kept.isData ∨ e.kept = m.lastControl role (.FIN ||| .ACK)
  | .closeWait | .closing | .timeWait => False

/-- What is pending for a role are its tracked segments without their timers. -/
theorem pendingOf_eq_tracked (m : Machine) (role : Role) :
    m.pool.pendingOf role = ↑((m.trackedFor role).map Tracked.pending) :=
  Pool.pendingOf_eq_map _ _

theorem pending_mem {m : Machine} {role : Role} {e : Tracked} (h : e ∈ m.trackedFor role) :
    e.pending ∈ m.pool.pendingOf role := by
  rw [pendingOf_eq_tracked, Multiset.mem_coe]
  exact List.mem_map_of_mem h

theorem pending_mem_filter {m : Machine} {role : Role} {e : Tracked} (h : e ∈ m.trackedFor role)
    (control : ¬ e.kept.isData) :
    e.pending ∈ (m.pool.pendingOf role).filter (fun e => e.kept.isData = false) := by
  rw [Multiset.mem_filter]
  exact ⟨pending_mem h, eq_false_of_ne_true control⟩

/-- Where one thing may be pending, it is tracked once at most, and nothing else is. -/
theorem tracked_of_le {m : Machine} {role : Role} {x : Pending}
    (h : m.pool.pendingOf role ≤ {x}) :
    (m.trackedFor role).length ≤ 1 ∧ ∀ e ∈ m.trackedFor role, e.kept = x.kept := by
  constructor
  · have hcard := Multiset.card_le_card h
    rwa [pendingOf_eq_tracked, Multiset.coe_card, List.length_map, Multiset.card_singleton] at hcard
  · intro e he
    have heq := Multiset.mem_singleton.mp (Multiset.mem_of_le h (pending_mem he))
    exact congrArg Pending.kept heq

/-- Where one thing may be pending besides data, it is tracked once at most, and nothing else is. -/
theorem tracked_of_filter_le {m : Machine} {role : Role} {x : Pending}
    (h : (m.pool.pendingOf role).filter (fun e => e.kept.isData = false) ≤ {x}) :
    ((m.trackedFor role).filter (fun e => !e.kept.isData)).length ≤ 1 ∧
      ∀ e ∈ m.trackedFor role, e.kept.isData ∨ e.kept = x.kept := by
  constructor
  · have hcard := Multiset.card_le_card h
    rw [pendingOf_eq_tracked, Multiset.filter_coe, List.filter_map, Multiset.coe_card,
      List.length_map, Multiset.card_singleton] at hcard
    -- Both say of a tracked segment that it keeps no data.
    have hsame : ((fun e : Pending => decide (e.kept.isData = false)) ∘ Tracked.pending) =
        fun e : Tracked => !e.kept.isData := by
      funext e
      show decide (e.kept.isData = false) = _
      cases e.kept.isData <;> rfl
    rwa [hsame] at hcard
  · intro e he
    by_cases hdata : e.kept.isData
    · exact .inl hdata
    · have hmem := Multiset.mem_of_le h (pending_mem_filter he hdata)
      have heq := Multiset.mem_singleton.mp hmem
      exact .inr (congrArg Pending.kept heq)

/-- A side that agrees is one whose tracked segments fit. -/
theorem poolAgrees_of_agrees {m : Machine} {role : Role} (h : Agrees role (m.side role)) :
    m.PoolAgrees role := by
  have hnone (hp : m.pool.pendingOf role = 0) : m.trackedFor role = [] := by
    rw [pendingOf_eq_tracked, Multiset.coe_eq_zero] at hp
    exact List.map_eq_nil_iff.mp hp
  have hentered := h.entered
  have hpending := h.pending
  unfold Side.besidesData Side.control at hpending
  unfold PoolAgrees
  unfold side at hentered hpending
  dsimp only at hentered hpending ⊢
  -- Each state says what may be pending, and what is pending is what is tracked.
  cases hstate : (m.conn role).state <;>
    simp only [hstate, State.holdsData, State.unacknowledged, State.isEntered,
      if_true, Bool.false_eq_true, if_false, Multiset.le_zero] at hentered hpending ⊢
  case closed => exact hnone hpending
  case listen => exact ⟨of_decide_eq_true hentered, hnone hpending⟩
  case synSent => exact tracked_of_le hpending
  case synReceived => exact ⟨of_decide_eq_true hentered, tracked_of_le hpending⟩
  case established =>
    intro e he
    by_contra hdata
    have hmem := pending_mem_filter he hdata
    rw [hpending] at hmem
    exact Multiset.notMem_zero _ hmem
  case finWait1 => exact tracked_of_le hpending
  case finWait2 => exact tracked_of_le hpending
  case lastAck => exact tracked_of_filter_le hpending

/-- **The pool agrees with the connections** after every run. -/
theorem poolAgrees_run (policy : Policy) (seed : UInt32) (ops : List Operation) (role : Role) :
    ((fresh policy seed).run ops).PoolAgrees role := by
  have hagrees : Agrees role (((fresh policy seed).run ops).side role) :=
    run_induction (P := fun m => Agrees role (m.side role)) (agrees_fresh policy seed role)
      (fun _ op h => agrees_after h op) ops
  exact poolAgrees_of_agrees hagrees

end Machine

end NetEngine.Tcp
