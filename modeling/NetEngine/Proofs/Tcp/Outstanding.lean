import Mathlib.Data.List.Induction
import NetEngine.Proofs.Tcp.Tracking
import NetEngine.Proofs.Tcp.Upkeep

/-! # Acknowledgments and What Is Outstanding

    What we have sent and the peer has not acknowledged is **outstanding**.

    * **Outstanding**: the invariant of one side.  The next number is `d` places
      behind the last acknowledgment, and each segment that is tracked ends in
      between.  It is kept as long as the peer acknowledges only what has been
      sent, and less than half a round is outstanding.
    * **Stopping**: an acknowledgment then leaves nothing behind that it covers.

    The machine does not ask whether what is acknowledged has been sent.  One
    acknowledgment of a number that lies ahead is enough to have the later ones
    ignored, and what they cover is resent. -/

namespace NetEngine.Tcp

/-- The places that a new segment takes in the sequence space.  A copy takes none, since they have
been taken before. -/
def Outgoing.places : Outgoing → Nat
  | .fresh _ segment _ => segment.sequenceLen
  | .copy .. => 0

/-- The places that segments take in the sequence space. -/
def places (sent : List Outgoing) : Nat := (sent.map Outgoing.places).sum

@[simp] theorem places_append (sent sent' : List Outgoing) :
    places (sent ++ sent') = places sent + places sent' := by
  simp [places]

/-- A segment takes as many places as it has octets, besides those of its control bits. -/
theorem places_segment (c : Connection) (dst : Ipv4Address) (seq : SeqNumber) (flags : Flags)
    (len : Nat) (body : Option Body) :
    places [.fresh dst (c.segment seq flags len) body] = len + flags.sequenceLen := rfl

/-- Our FIN takes a place. -/
theorem places_finOf (c : Connection) : places [Side.finOf c] = 1 := by
  unfold Side.finOf
  rw [places_segment]
  decide

namespace Side

variable {role : Role} {heard : Option Segment} {x y : Side} {c c' : Connection}
  {p p' : Multiset Pending} {d : Nat}

/-! ## What is outstanding -/

/-- The places behind the last acknowledgment that have been sent are `d`, and each segment that is
tracked ends there. -/
structure Outstanding (heard : Option Segment) (d : Nat) (x : Side) : Prop where
  sent : x.conn.lastSent = x.conn.lastAcked + d
  pending : ∀ e ∈ x.pending, ∃ f ≤ d, e.lastByte = x.conn.lastAcked + f
  /-- What the segment that has arrived acknowledges has been sent, if that is to be noted. -/
  heeds : ∀ s ∈ heard, s.flags.ack → 0 < s.ackNumber.distance x.conn.lastAcked →
    ∃ i ≤ d, s.ackNumber = x.conn.lastAcked + i

namespace Outstanding

/-- Less may be tracked, and nothing but the numbers matters. -/
theorem mono (h : Outstanding heard d ⟨c, p⟩) (lastSent : c'.lastSent = c.lastSent)
    (lastAcked : c'.lastAcked = c.lastAcked) (le : p' ≤ p) : Outstanding heard d ⟨c', p'⟩ where
  sent := by
    show c'.lastSent = c'.lastAcked + d
    rw [lastSent, lastAcked]
    exact h.sent
  pending e he := by
    show ∃ f ≤ d, e.lastByte = c'.lastAcked + f
    rw [lastAcked]
    exact h.pending e (Multiset.mem_of_le le he)
  heeds s hs hack := by
    show 0 < s.ackNumber.distance c'.lastAcked → ∃ i ≤ d, s.ackNumber = c'.lastAcked + i
    rw [lastAcked]
    exact h.heeds s hs hack

/-- A segment that takes the next `n` places may be tracked from then on. -/
theorem advance {n : Nat} {kept : Kept} (h : Outstanding heard d ⟨c, p⟩)
    (lastSent : c'.lastSent = c.lastSent + n) (lastAcked : c'.lastAcked = c.lastAcked)
    (tracked : Tracks (.of c.lastSent n kept) p p') : Outstanding heard (d + n) ⟨c', p'⟩ where
  sent := by
    have hsent : c.lastSent = c.lastAcked + d := h.sent
    show c'.lastSent = c'.lastAcked + (d + n)
    rw [lastSent, lastAcked, hsent, SeqNumber.add_add]
  pending e he := by
    have hsent : c.lastSent = c.lastAcked + d := h.sent
    show ∃ f ≤ d + n, e.lastByte = c'.lastAcked + f
    rw [lastAcked]
    rcases Multiset.mem_cons.mp (Multiset.mem_of_le tracked.le he) with rfl | hold
    · -- The new segment ends where all that has been sent ends.
      refine ⟨d + (n - 1), by omega, ?_⟩
      show c.lastSent + (n - 1) = _
      rw [hsent, SeqNumber.add_add]
    · obtain ⟨f, hf, hlast⟩ := h.pending e hold
      exact ⟨f, by omega, hlast⟩
  heeds s hs hack hlater := by
    change 0 < s.ackNumber.distance c'.lastAcked at hlater
    show ∃ i ≤ d + n, s.ackNumber = c'.lastAcked + i
    rw [lastAcked] at hlater ⊢
    obtain ⟨i, hi, hnumber⟩ := h.heeds s hs hack hlater
    exact ⟨i, by omega, hnumber⟩

/-- What the peer acknowledges is no longer outstanding, and no longer tracked. -/
theorem acknowledge {s : Segment} (h : Outstanding heard d ⟨c, p⟩) (small : d < 2 ^ 31)
    (arrived : s ∈ heard) (ack : s.flags.ack) (later : 0 < s.ackNumber.distance c.lastAcked) :
    ∃ d' ≤ d, Outstanding heard d' ⟨{ c with lastAcked := s.ackNumber, window := s.window },
      p.filter (fun e => e.isCoveredBy s.ackNumber = false)⟩ := by
  obtain ⟨i, hi, hnumber⟩ := h.heeds s arrived ack later
  change s.ackNumber = c.lastAcked + i at hnumber
  have hsent : c.lastSent = c.lastAcked + d := h.sent
  refine ⟨d - i, by omega, ?_, ?_, ?_⟩
  · show c.lastSent = s.ackNumber + (d - i)
    rw [hsent, hnumber, SeqNumber.add_add]
    congr 1
    omega
  · intro e he
    obtain ⟨hmem, hcovered⟩ := Multiset.mem_filter.mp he
    obtain ⟨f, hf, hlast⟩ := h.pending e hmem
    change e.lastByte = c.lastAcked + f at hlast
    -- What ends before the acknowledgment has been forgotten.
    have hnot : ¬ 0 < s.ackNumber.distance e.lastByte := of_decide_eq_false hcovered
    rw [hnumber, hlast, SeqNumber.distance_add_add _ (by omega) (by omega)] at hnot
    refine ⟨f - i, by omega, ?_⟩
    show e.lastByte = s.ackNumber + (f - i)
    rw [hlast, hnumber, SeqNumber.add_add]
    congr 1
    omega
  · -- The same segment acknowledges nothing more.
    intro s' hs' hack' hlater'
    obtain rfl : s = s' := Option.mem_unique arrived hs'
    change 0 < s.ackNumber.distance s.ackNumber at hlater'
    rw [SeqNumber.distance_self] at hlater'
    exact absurd hlater' (by decide)

/-- A segment may arrive that acknowledges only what has been sent. -/
theorem hear (h : Outstanding none d x) (small : d < 2 ^ 31)
    (honest : ∀ s ∈ heard, s.flags.ack → 0 < s.ackNumber.distance x.conn.lastAcked →
      0 ≤ x.conn.lastSent.distance s.ackNumber) : Outstanding heard d x where
  sent := h.sent
  pending := h.pending
  heeds s hs hack hlater := by
    have hwithin := honest s hs hack hlater
    rw [h.sent] at hwithin
    exact SeqNumber.exists_add_of_between small hlater hwithin

theorem unhear (h : Outstanding heard d x) : Outstanding none d x where
  sent := h.sent
  pending := h.pending
  heeds _ hs := by cases hs

end Outstanding

/-- Of a connection that has come about the SYN is outstanding, and the place in front of it. -/
theorem outstanding_opening {sent : List Outgoing} (h : Opening role heard x sent y)
    (nothing : x.pending = 0) (aging : y.conn.state.isAging) : Outstanding none 2 y := by
  have of_syn {c : Connection} {p : Multiset Pending} {seq : SeqNumber} {kept : Kept}
      (lastSent : c.lastSent = seq + 1) (lastAcked : c.lastAcked = seq - 1)
      (tracked : Tracks (.of seq 1 kept) 0 p) : Outstanding none 2 ⟨c, p⟩ := by
    have hbefore : Outstanding none 1 ⟨{ c with lastSent := seq }, 0⟩ :=
      ⟨by show seq = c.lastAcked + 1; rw [lastAcked, SeqNumber.sub_add_cancel],
        fun e he => absurd he (Multiset.notMem_zero e), nofun⟩
    exact hbefore.advance lastSent rfl tracked
  cases h with
  | connect localPort remotePort remote age closed tracked =>
    rename_i c p p'
    obtain rfl : p = 0 := nothing
    exact of_syn rfl rfl tracked
  | accept s remote seq age server idle arrived tracked => exact of_syn rfl rfl tracked
  | refused => cases aging
  | listen => cases aging

/-- **Every move keeps track of what is outstanding.** -/
theorem outstanding_move {out : Option Outgoing} {given : Option Delivery}
    (h : Move role heard x out given y) (hx : Outstanding heard d x) (small : d < 2 ^ 31) :
    ∃ d' ≤ d + places out.toList, Outstanding heard d' y := by
  have stay {c : Connection} {p : Multiset Pending} {c' : Connection} {p' : Multiset Pending}
      {n : Nat} (hx : Outstanding heard d ⟨c, p⟩) (lastSent : c'.lastSent = c.lastSent)
      (lastAcked : c'.lastAcked = c.lastAcked) (le : p' ≤ p) :
      ∃ d' ≤ d + n, Outstanding heard d' ⟨c', p'⟩ :=
    ⟨d, Nat.le_add_right _ _, hx.mono lastSent lastAcked le⟩
  cases h with
  | age | complete | finAcked => exact stay hx rfl rfl le_rfl
  | resend =>
    -- What is resent is still tracked, and has its place already.
    exact stay hx rfl rfl le_rfl
  | forget | drop | abort | answer => exact stay hx rfl rfl (Multiset.zero_le _)
  | piece source offset len open_ tracked =>
    refine ⟨d + len, ?_, hx.advance rfl rfl tracked⟩
    rw [Option.toList_some, places_segment]
    omega
  | finish next closes tracked =>
    have hnothing : Outstanding heard d ⟨_, 0⟩ := hx.mono rfl rfl (Multiset.zero_le _)
    exact ⟨d + 1, by rw [Option.toList_some, places_finOf], hnothing.advance rfl rfl tracked⟩
  | acknowledge s arrived ack later =>
    obtain ⟨d', hle, hy⟩ := hx.acknowledge small arrived ack later
    exact ⟨d', hle, hy⟩
  | take s a arrived receives taken more =>
    rw [Connection.conn_of_take taken]
    exact stay hx rfl rfl le_rfl
  | answerFin s a arrived open_ taken fin tracked =>
    have hconn := Connection.conn_of_take taken
    have htaken : Outstanding heard d ⟨a.conn, _⟩ :=
      hx.mono (by rw [hconn]) (by rw [hconn]) le_rfl
    exact ⟨d + 1, by rw [Option.toList_some, places_finOf], htaken.advance rfl rfl tracked⟩
  | endByFin s a arrived closing taken fin =>
    have hconn := Connection.conn_of_take taken
    exact stay hx (by rw [hconn]) (by rw [hconn]) (Multiset.zero_le _)

theorem outstanding_run {sent : List Outgoing} {handed : List Delivery}
    (h : Run role heard x sent handed y) (hx : Outstanding heard d x)
    (small : d + places sent < 2 ^ 31) :
    ∃ d' ≤ d + places sent, Outstanding heard d' y := by
  induction h generalizing d with
  | nil => exact ⟨d, Nat.le_add_right _ _, hx⟩
  | cons move _ ih =>
    rw [places_append] at small ⊢
    obtain ⟨d₁, hle₁, h₁⟩ := outstanding_move move hx (by omega)
    obtain ⟨d₂, hle₂, h₂⟩ := ih h₁ (by omega)
    exact ⟨d₂, by omega, h₂⟩

end Side

namespace Machine

open Side (Outstanding Agrees)

variable {m start : Machine} {role : Role} {d : Nat} {s : Segment} {ops : List Operation}

/-! ## Operations -/

/-- The places that the new segments of an operation take.  What is resent takes none. -/
def placesBy (m : Machine) (role : Role) : Operation → Nat
  | .upkeep => places (sentInSteps role (fun _ r => some r) reap m.resendDue.1 Role.all)
  | op => places (m.sentBy role op)

theorem outstanding_resend (m : Machine) (i : Nat) (h : Outstanding none d (m.side role)) :
    Outstanding none d ((m.resend i).machine.side role) := by
  have hresent := resent_resend m i
  generalize (m.resend i).machine = m' at hresent ⊢
  cases hresent with
  | idle => exact h
  | gaveUp t slot due spent =>
    have hside : (m.giveUp t.role).side role = (m.reset t.role).side role :=
      side_congr rfl rfl rfl role
    rw [hside]
    by_cases hrole : role = t.role
    · subst hrole
      rw [side_reset]
      exact h.mono rfl rfl (Multiset.zero_le _)
    · rw [side_reset_of_ne hrole]
      exact h
  | renewed t slot due left =>
    obtain ⟨age, hside⟩ := side_renew slot role
    rw [hside]
    exact h.mono rfl rfl le_rfl

theorem outstanding_resendDue (h : Outstanding none d (m.side role)) :
    Outstanding none d (m.resendDue.1.side role) := by
  unfold resendDue
  generalize List.range poolSize = slots
  induction slots generalizing m with
  | nil => exact h
  | cons i slots ih => exact ih (outstanding_resend m i h)

/-- An operation has no acknowledgment noted of what has not been sent. -/
def NotesWhatIsSent (m : Machine) (role : Role) (op : Operation) : Prop :=
  ∀ s ∈ m.heardBy role op, s.flags.ack → 0 < s.ackNumber.distance (m.conn role).lastAcked →
    0 ≤ (m.conn role).lastSent.distance s.ackNumber

instance (m : Machine) (role : Role) (op : Operation) : Decidable (m.NotesWhatIsSent role op) :=
  inferInstanceAs (Decidable (∀ s ∈ m.heardBy role op, _))

/-- Less than half a round is outstanding when an operation has sent what is new. -/
def StaysNear (m : Machine) (role : Role) (op : Operation) : Prop :=
  (m.conn role).lastSent.distance (m.conn role).lastAcked + m.placesBy role op < 2 ^ 31

instance (m : Machine) (role : Role) (op : Operation) : Decidable (m.StaysNear role op) :=
  inferInstanceAs (Decidable (_ < _))

/-- What an operation makes of what is outstanding on a connection in use. -/
theorem outstanding_after (op : Operation) (aging : (m.conn role).state.isAging) (small : d < 2 ^ 31)
    (h : Outstanding none d (m.side role)) (honest : m.NotesWhatIsSent role op)
    (near : m.StaysNear role op) : ∃ d' < 2 ^ 31, Outstanding none d' ((m.after op).side role) := by
  have hplaces : d + m.placesBy role op < 2 ^ 31 := by
    have hsent : (m.conn role).lastSent = (m.conn role).lastAcked + d := h.sent
    unfold StaysNear at near
    rw [hsent, SeqNumber.distance_add_self _ small] at near
    omega
  by_cases hop : op = .upkeep
  · -- What is resent of the control bits looks like a new segment.  Hence the run of the whole
    -- operation does not tell how many places are taken, but that of the reaper does.
    subst hop
    have hupkeep : m.placesBy role .upkeep =
      places (sentInSteps role (fun _ r => some r) reap m.resendDue.1 Role.all) := rfl
    rw [hupkeep] at hplaces
    rw [after_upkeep]
    obtain ⟨d', hle, hd'⟩ := Side.outstanding_run (run_reapIdle m.resendDue.1 role)
      (outstanding_resendDue h) hplaces
    exact ⟨d', lt_of_le_of_lt hle hplaces, hd'⟩
  · have hother : m.placesBy role op = places (m.sentBy role op) := by
      cases op <;> first | rfl | exact absurd rfl hop
    rw [hother] at hplaces
    obtain ⟨d', hle, hd'⟩ := Side.outstanding_run (run_after op aging) (h.hear small honest) hplaces
    exact ⟨d', lt_of_le_of_lt hle hplaces, hd'.unhear⟩

/-! ## Runs -/

/-- **What is outstanding is known** after every run, as long as what is acknowledged has been sent
and not too much is outstanding. -/
theorem outstanding_of_run (policy : Policy) (seed : UInt32) (ops : List Operation)
    (aging : (((fresh policy seed).run ops).conn role).state.isAging)
    (honest : WhileInUse (fresh policy seed) role ops fun m op => m.NotesWhatIsSent role op)
    (near : WhileInUse (fresh policy seed) role ops fun m op => m.StaysNear role op) :
    ∃ d < 2 ^ 31, Outstanding none d (((fresh policy seed).run ops).side role) := by
  -- The induction is from the end of the run back to the operation that has opened the connection.
  induction ops using List.reverseRecOn with
  | nil => cases role <;> cases aging
  | append_singleton ops op ih =>
    have hrun := run_append (fresh policy seed) ops [op]
    by_cases hbefore : (((fresh policy seed).run ops).conn role).state.isAging
    · obtain ⟨d, hd, houtstanding⟩ := ih hbefore (honest.init aging) (near.init aging)
      rw [hrun]
      exact outstanding_after op hbefore hd houtstanding (honest.last hbefore aging)
        (near.last hbefore aging)
    · -- The operation has opened the connection.
      have hidle := eq_false_of_ne_true hbefore
      rw [hrun] at aging ⊢
      rcases change_after ((fresh policy seed).run ops) role op with ⟨opens, -⟩ | ⟨moves⟩
      · have hnothing := (agrees_run policy seed ops role).pending_eq_zero hidle
        exact ⟨2, by decide, Side.outstanding_opening opens hnothing aging⟩
      · have hstill : ((((fresh policy seed).run ops).after op).conn role).state.isAging = false :=
          moves.preserves Side.idle_of_move hidle
        change ((((fresh policy seed).run ops).after op).conn role).state.isAging = true at aging
        rw [hstill] at aging
        cases aging

/-! ## Acknowledgments stop what they cover -/

/-- Whatever is tracked for a role is not covered by an acknowledgment number. -/
def Uncovered (m : Machine) (role : Role) (ack : SeqNumber) : Prop :=
  ∀ e ∈ m.trackedFor role, e.isCoveredBy ack = false

instance (m : Machine) (role : Role) (ack : SeqNumber) : Decidable (m.Uncovered role ack) :=
  inferInstanceAs (Decidable (∀ e ∈ m.trackedFor role, _))

theorem uncovered_iff {ack : SeqNumber} :
    m.Uncovered role ack ↔ ∀ e ∈ m.pool.pendingOf role, e.isCoveredBy ack = false := by
  unfold Uncovered
  rw [pendingOf_eq_tracked]
  simp only [Multiset.mem_coe, List.forall_mem_map]
  rfl

/-- An acknowledgment that has been noted, or has been noted before, leaves nothing behind. -/
theorem uncovered_takeAck (h : Outstanding none d (m.side role)) (small : d < 2 ^ 31)
    (ack : s.flags.ack) (sent : 0 ≤ (m.conn role).lastSent.distance s.ackNumber) :
    (m.takeAck role s).Uncovered role s.ackNumber := by
  rw [uncovered_iff]
  have hsent : (m.conn role).lastSent = (m.conn role).lastAcked + d := h.sent
  unfold takeAck
  dsimp only
  by_cases hlater : 0 < s.ackNumber.distance (m.conn role).lastAcked
  · rw [if_pos (by simp [ack, hlater])]
    intro e he
    change e ∈ Pool.pendingOf (Pool.forgetCovered _ role s.ackNumber) role at he
    rw [Pool.pendingOf_forgetCovered] at he
    exact (Multiset.mem_filter.mp he).2
  · -- What is tracked ends behind the last acknowledgment, and this one is not later.
    rw [if_neg (by simp [hlater])]
    intro e he
    obtain ⟨f, hf, hlast⟩ := h.pending e he
    change e.lastByte = (m.conn role).lastAcked + f at hlast
    refine decide_eq_false ?_
    rw [hsent] at sent
    rw [hlast]
    exact SeqNumber.not_distance_pos_add hf small hlater sent

/-- What an open connection sends when it takes a segment comes behind what has been sent. -/
theorem uncovered_receiveOpen {ack : SeqNumber} (h : m.Uncovered role ack)
    (sent : 0 ≤ (m.conn role).lastSent.distance ack) :
    (m.receiveOpen role s).machine.Uncovered role ack := by
  rw [uncovered_iff] at h ⊢
  cases htake : (m.conn role).take s with
  | none =>
    rw [receiveOpen, htake]
    exact h
  | some a =>
    have hlastSent : a.conn.lastSent = (m.conn role).lastSent := by
      rw [Connection.conn_of_take htake]
    rw [receiveOpen, htake]
    dsimp only
    by_cases hfin : a.fin = true
    · rw [if_pos hfin]
      obtain ⟨p', htracks, hside⟩ := side_finish (m.setConn role a.conn) role .lastAck
      rw [conn_setConn_self, pool_setConn] at htracks
      rw [show (((m.setConn role a.conn).setState role .lastAck).sendFin role).machine.pool.pendingOf
        role = p' from congrArg Side.pending hside]
      intro e he
      rcases Multiset.mem_cons.mp (Multiset.mem_of_le htracks.le he) with rfl | hold
      · refine decide_eq_false ?_
        show ¬ 0 < ack.distance (a.conn.lastSent + (1 - 1))
        rw [hlastSent, Nat.sub_self, SeqNumber.add_zero]
        exact SeqNumber.not_distance_pos sent
      · exact h e hold
    · rw [if_neg hfin, ← settle]
      have hpool : (m.settle role a).machine.pool = m.pool := by
        unfold settle
        split
        · exact (pool_setConn _ _ _).trans (pool_setConn _ _ _)
        · exact pool_setConn _ _ _
      rw [hpool]
      exact h

/-- A segment leaves nothing behind that it acknowledges. -/
theorem uncovered_receiveFor (h : Outstanding none d (m.side role)) (small : d < 2 ^ 31)
    (state : (m.conn role).state = .established ∨ (m.conn role).state = .lastAck)
    (rst : s.flags.rst = false) (ack : s.flags.ack)
    (sent : 0 ≤ (m.conn role).lastSent.distance s.ackNumber) :
    (m.receiveFor role s).machine.Uncovered role s.ackNumber := by
  obtain ⟨age, lastAcked, window, hconn⟩ := conn_heeded m role s
  have hyoung : Outstanding none d ((m.rejuvenate role).side role) := by
    rw [side_rejuvenate]
    exact h.mono rfl rfl le_rfl
  have hlastSent : ((m.rejuvenate role).conn role).lastSent = (m.conn role).lastSent := by
    simp [rejuvenate]
  have hnoted := uncovered_takeAck hyoung small ack (by rw [hlastSent]; exact sent)
  have hfor : m.receiveFor role s = ((m.rejuvenate role).takeAck role s).receiveInState role s :=
    if_neg (by simp [rst])
  rw [hfor]
  unfold receiveInState
  dsimp only
  rw [hconn]
  rcases state with hstate | hstate <;> rw [hstate]
  · exact uncovered_receiveOpen hnoted (by rw [hconn]; exact sent)
  · dsimp only
    split
    · -- The connection is over, and nothing is tracked for it.
      rw [uncovered_iff]
      intro e he
      have hnothing : (((m.rejuvenate role).takeAck role s).reset role).pool.pendingOf role = 0 :=
        congrArg Side.pending (side_reset _ role)
      change e ∈ Pool.pendingOf (reset _ role).pool role at he
      rw [hnothing] at he
      exact absurd he (Multiset.notMem_zero e)
    · exact hnoted

/-- **An acknowledgment stops the resending of what it covers**, on a connection on which nothing
has been acknowledged that had not been sent, and not too much has been outstanding. -/
theorem acknowledgment_stops (policy : Policy) (seed : UInt32) (ops : List Operation)
    {payload : Bytes} {remote : Ipv4Address}
    (heard : s ∈ ((fresh policy seed).run ops).heardBy role (.receive s payload remote))
    (state : (((fresh policy seed).run ops).conn role).state = .established ∨
      (((fresh policy seed).run ops).conn role).state = .lastAck)
    (rst : s.flags.rst = false) (ack : s.flags.ack)
    (sent : 0 ≤ (((fresh policy seed).run ops).conn role).lastSent.distance s.ackNumber)
    (honest : WhileInUse (fresh policy seed) role ops fun m op => m.NotesWhatIsSent role op)
    (near : WhileInUse (fresh policy seed) role ops fun m op => m.StaysNear role op) :
    ((fresh policy seed).run (ops ++ [.receive s payload remote])).Uncovered role s.ackNumber := by
  have haging : (((fresh policy seed).run ops).conn role).state.isAging := by
    rcases state with h | h <;> rw [h] <;> rfl
  obtain ⟨d, hd, houtstanding⟩ := outstanding_of_run policy seed ops haging honest near
  obtain ⟨payload', remote', hop, -, hreceive⟩ := receive_of_heard heard haging
  obtain ⟨-, rfl, rfl⟩ := Operation.receive.inj hop
  rw [← side_mixIn _ s] at houtstanding
  rw [← conn_mixIn _ s] at state sent
  rw [run_append]
  show ((((fresh policy seed).run ops).receive s remote).machine).Uncovered role s.ackNumber
  rw [hreceive]
  exact uncovered_receiveFor houtstanding hd state rst ack sent

/-- Five octets that are sent, tracked and acknowledged. -/
theorem acknowledgment_stops_data :
    let start := fresh ⟨80, 3, 3, 100, true⟩ 1
    let remote : Ipv4Address := .unspecified
    let syn : Segment := ⟨4000, 80, ⟨100⟩, ⟨0⟩, .SYN, 1024, none, 0⟩
    let waiting := start.run [.listen 80, .receive syn [] remote]
    let ack : Segment := ⟨4000, 80, ⟨101⟩, waiting.server.lastSent, .ACK, 1024, none, 0⟩
    let data : Source := .generator (.ofBytes [1, 2, 3, 4, 5])
    let ops := [.listen 80, .receive syn [] remote, .receive ack [] remote,
      .send .server data true 1]
    let s : Segment := ⟨4000, 80, ⟨101⟩, (start.run ops).server.lastSent, .ACK, 1024, none, 0⟩
    ((start.run ops).trackedFor .server).length = 1 ∧
      (start.run (ops ++ [.receive s [] remote])).Uncovered .server s.ackNumber := by
  intro start remote syn waiting ack data ops s
  have hall : ∀ before op, before ++ [op] <+: ops →
      (start.run before).NotesWhatIsSent .server op ∧ (start.run before).StaysNear .server op := by
    intro before op hpart
    rcases before with _ | ⟨first, _ | ⟨second, _ | ⟨third, _ | ⟨fourth, before⟩⟩⟩⟩
    all_goals simp [ops] at hpart
    · obtain rfl := hpart
      decide +kernel
    · obtain ⟨rfl, rfl⟩ := hpart
      decide +kernel
    · obtain ⟨rfl, rfl, rfl⟩ := hpart
      decide +kernel
    · obtain ⟨rfl, rfl, rfl, rfl⟩ := hpart
      decide +kernel
  exact ⟨by decide +kernel, acknowledgment_stops _ _ ops (by decide +kernel)
    (.inl (by decide +kernel)) (by decide) (by decide) (by decide +kernel)
    (fun before op hpart _ => (hall before op hpart).1)
    (fun before op hpart _ => (hall before op hpart).2)⟩

/-- A segment is resent although it has been acknowledged, if an earlier acknowledgment was one of
what had not been sent: it has been noted, and no later one is. -/
theorem resent_although_acknowledged :
    let start := fresh ⟨80, 3, 3, 100, true⟩ 1
    let remote : Ipv4Address := .unspecified
    let syn : Segment := ⟨4000, 80, ⟨100⟩, ⟨0⟩, .SYN, 1024, none, 0⟩
    let waiting := start.run [.listen 80, .receive syn [] remote]
    let ack : Segment := ⟨4000, 80, ⟨101⟩, waiting.server.lastSent, .ACK, 1024, none, 0⟩
    let forged : Segment := { ack with ackNumber := waiting.server.lastSent + 1000 }
    let data : Source := .generator (.ofBytes [1, 2, 3, 4, 5])
    let ops := [.listen 80, .receive syn [] remote, .receive ack [] remote,
      .receive forged [] remote, .send .server data true 1]
    let s : Segment := ⟨4000, 80, ⟨101⟩, (start.run ops).server.lastSent, .ACK, 1024, none, 0⟩
    s ∈ (start.run ops).heardBy .server (.receive s [] remote) ∧
      (start.run ops).server.state = .established ∧
      0 ≤ (start.run ops).server.lastSent.distance s.ackNumber ∧
      ¬ (start.run (ops ++ [.receive s [] remote])).Uncovered .server s.ackNumber := by
  decide +kernel

end Machine

end NetEngine.Tcp
