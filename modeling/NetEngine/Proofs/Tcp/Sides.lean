import NetEngine.Proofs.Tcp.Operation
import NetEngine.Proofs.Tcp.Side

/-! # The Sides of the Machine

    What the machine does for a role is a run of that role's side, and leaves the
    side of the other role alone.  The machine **acts** for the role.

    The lemmas follow the definitions of the machine: first what a step is made
    of, then the steps that the application and the seconds bring about.  The
    steps that a segment brings about come in the next module. -/

namespace NetEngine.Tcp.Machine

open Side (Tracks Move Run Opening)

/-- What the machine holds for a role. -/
def side (m : Machine) (role : Role) : Side := ⟨m.conn role, m.pool.pendingOf role⟩

variable {m m' m'' : Machine} {role r : Role} {heard : Option Segment}

/-! ## Sides after a change -/

/-- Only the connections and the pool show in the sides. -/
theorem side_congr (client : m'.client = m.client) (server : m'.server = m.server)
    (pool : m'.pool = m.pool) (r : Role) : m'.side r = m.side r := by
  cases r <;> simp [side, conn, client, server, pool]

@[simp] theorem pool_setConn (m : Machine) (role : Role) (c : Connection) :
    (m.setConn role c).pool = m.pool := by
  cases role <;> rfl

@[simp] theorem policy_setConn (m : Machine) (role : Role) (c : Connection) :
    (m.setConn role c).policy = m.policy := by
  cases role <;> rfl

@[simp] theorem counts_setConn (m : Machine) (role : Role) (c : Connection) :
    (m.setConn role c).counts = m.counts := by
  cases role <;> rfl

@[simp] theorem pool_setState (m : Machine) (role : Role) (s : State) :
    (m.setState role s).pool = m.pool :=
  pool_setConn _ _ _

@[simp] theorem pool_reset (m : Machine) (role : Role) :
    (m.reset role).pool = m.pool.forget role :=
  pool_setState _ _ _

@[simp] theorem counts_reset (m : Machine) (role : Role) : (m.reset role).counts = m.counts :=
  counts_setConn _ _ _

@[simp] theorem conn_tick (m : Machine) (r : Role) : m.tick.conn r = (m.conn r).tick := by
  cases r <;> rfl

theorem side_withPool (m : Machine) (pool : Pool) (r : Role) :
    side { m with pool := pool } r = ⟨m.conn r, pool.pendingOf r⟩ := by
  cases r <;> rfl

theorem side_setConn (m : Machine) (role : Role) (c : Connection) :
    (m.setConn role c).side role = ⟨c, m.pool.pendingOf role⟩ := by
  simp [side]

theorem side_setConn_of_ne (c : Connection) (h : r ≠ role) :
    (m.setConn role c).side r = m.side r := by
  simp [side, h]

@[simp] theorem conn_forget (m : Machine) (role r : Role) :
    (m.forget role).conn r = m.conn r := by
  cases r <;> rfl

theorem side_forget (m : Machine) (role : Role) :
    (m.forget role).side role = ⟨m.conn role, 0⟩ := by
  unfold forget
  rw [side_withPool, Pool.pendingOf_forget]

theorem side_forget_of_ne (h : r ≠ role) : (m.forget role).side r = m.side r := by
  unfold forget
  rw [side_withPool, Pool.pendingOf_forget_of_ne h]
  rfl

theorem side_reset (m : Machine) (role : Role) :
    (m.reset role).side role = ⟨{ m.conn role with state := .closed }, 0⟩ := by
  unfold reset setState
  rw [side_setConn, conn_forget]
  simp [forget]

theorem side_reset_of_ne (h : r ≠ role) : (m.reset role).side r = m.side r := by
  unfold reset setState
  rw [side_setConn_of_ne _ h, side_forget_of_ne h]

theorem side_rejuvenate (m : Machine) (role : Role) :
    (m.rejuvenate role).side role =
      ⟨{ m.conn role with age := m.policy.maxAge }, m.pool.pendingOf role⟩ :=
  side_setConn _ _ _

theorem side_rejuvenate_of_ne (h : r ≠ role) : (m.rejuvenate role).side r = m.side r :=
  side_setConn_of_ne _ h

/-! ## Tracking -/

@[simp] theorem conn_track (m : Machine) (role r : Role) (seq : SeqNumber) (len : Nat)
    (kept : Kept) : (m.track role seq len kept).conn r = m.conn r := by
  unfold track
  split <;> cases r <;> rfl

@[simp] theorem policy_track (m : Machine) (role : Role) (seq : SeqNumber) (len : Nat)
    (kept : Kept) : (m.track role seq len kept).policy = m.policy := by
  unfold track
  split <;> rfl

/-- A segment is tracked if there is a place for it, on the side of its role. -/
theorem tracks_track (m : Machine) (role : Role) (seq : SeqNumber) (len : Nat) (kept : Kept) :
    Tracks (.of seq len kept) (m.pool.pendingOf role)
      ((m.track role seq len kept).pool.pendingOf role) := by
  unfold track
  split
  · -- There was a free slot.
    rename_i i pool h
    left
    show Pool.pendingOf pool role = _
    rw [Pool.pendingOf_insert h]
    simp [pendingIn, Tracked.track, Tracked.pending, Pending.of, Multiset.add_comm]
  · exact .inr rfl

theorem side_track_of_ne (seq : SeqNumber) (len : Nat) (kept : Kept) (h : r ≠ role) :
    (m.track role seq len kept).side r = m.side r := by
  simp only [side, conn_track]
  congr 1
  unfold track
  split
  · rename_i i pool hi
    show Pool.pendingOf pool r = _
    rw [Pool.pendingOf_insert hi]
    simp [pendingIn, Tracked.track, h.symm]
  · rfl

/-! ## Steps of the machine -/

/-- What happens to the machine is a run of one side, and leaves the other side alone. -/
structure Acts (role : Role) (heard : Option Segment) (m : Machine) (sent : List Outgoing)
    (handed : List Delivery) (m' : Machine) : Prop where
  own : Run role heard (m.side role) sent handed (m'.side role)
  other : ∀ r, r ≠ role → m'.side r = m.side r

namespace Acts

theorem refl (role : Role) (heard : Option Segment) (m : Machine) : Acts role heard m [] [] m :=
  ⟨.nil _, fun _ _ => rfl⟩

theorem trans {sent sent' : List Outgoing} {handed handed' : List Delivery}
    (h : Acts role heard m sent handed m') (h' : Acts role heard m' sent' handed' m'') :
    Acts role heard m (sent ++ sent') (handed ++ handed') m'' where
  own := h.own.trans h'.own
  other r hr := (h'.other r hr).trans (h.other r hr)

theorem of_move {out : Option Outgoing} {given : Option Delivery} {y : Side}
    (move : Move role heard (m.side role) out given y) (own : m'.side role = y)
    (other : ∀ r, r ≠ role → m'.side r = m.side r) :
    Acts role heard m out.toList given.toList m' :=
  ⟨own ▸ .single move, other⟩

/-- Most moves take up the whole idle time as well. -/
theorem of_move_age {out : Option Outgoing} {given : Option Delivery} {c : Connection}
    {p : Multiset Pending} (age : Countdown)
    (move : Move role heard (m.side role) out given ⟨c, p⟩)
    (own : m'.side role = ⟨{ c with age := age }, p⟩)
    (other : ∀ r, r ≠ role → m'.side r = m.side r) :
    Acts role heard m out.toList given.toList m' where
  own := by
    have := (Run.single move).trans (.single (.age age))
    rwa [Option.toList_none, Option.toList_none, List.append_nil, List.append_nil, ← own] at this
  other := other

/-- What does not show in the sides does not matter. -/
theorem congr_right {sent : List Outgoing} {handed : List Delivery}
    (h : Acts role heard m sent handed m') (same : ∀ r, m''.side r = m'.side r) :
    Acts role heard m sent handed m'' where
  own := same role ▸ h.own
  other r hr := (same r).trans (h.other r hr)

theorem congr_left {sent : List Outgoing} {handed : List Delivery}
    (h : Acts role heard m sent handed m') (same : ∀ r, m''.side r = m.side r) :
    Acts role heard m'' sent handed m' where
  own := same role ▸ h.own
  other r hr := (h.other r hr).trans (same r).symm

end Acts

theorem acts_rejuvenate (m : Machine) (role : Role) (heard : Option Segment) :
    Acts role heard m [] [] (m.rejuvenate role) :=
  .of_move (.age m.policy.maxAge) (side_rejuvenate m role) fun _ => side_rejuvenate_of_ne

theorem acts_forget (m : Machine) (role : Role) (heard : Option Segment) :
    Acts role heard m [] [] (m.forget role) :=
  .of_move .forget (side_forget m role) fun _ => side_forget_of_ne

theorem acts_reset (m : Machine) (role : Role) (heard : Option Segment) :
    Acts role heard m [] [] (m.reset role) :=
  .of_move .drop (side_reset m role) fun _ => side_reset_of_ne

/-- Our FIN speaks for the connection before it, whatever the next state is. -/
theorem out_finish (m : Machine) (role : Role) (next : State) :
    ((m.setState role next).sendFin role).out = some (Side.finOf (m.conn role)) := by
  have hconn : (m.setState role next).conn role = { m.conn role with state := next } := by
    simp [setState]
  show some (Side.finOf ((m.setState role next).conn role)) = _
  rw [hconn]
  rfl

/-- The side of a role after our FIN. -/
theorem side_finish (m : Machine) (role : Role) (next : State) :
    ∃ p', Tracks (Side.pendingFin (m.conn role)) (m.pool.pendingOf role) p' ∧
      ((m.setState role next).sendFin role).machine.side role =
        ⟨{ m.conn role with
            state := next
            age := m.policy.maxAge
            lastSent := (m.conn role).lastSent + 1 }, p'⟩ := by
  let ready := m.setState role next
  have hconn : ready.conn role = { m.conn role with state := next } := by
    simp [ready, setState]
  have hpool : ready.pool = m.pool := pool_setConn _ _ _
  have hpolicy : ready.policy = m.policy := policy_setConn _ _ _
  let sent := { ready.conn role with
    age := ready.policy.maxAge, lastSent := (ready.conn role).lastSent + 1 }
  refine ⟨(ready.sendFin role).machine.pool.pendingOf role, ?_, ?_⟩
  · have htracks := tracks_track (ready.setConn role sent) role (ready.conn role).lastSent 1
      (.control (ready.conn role).lastSent (.FIN ||| .ACK))
    have hfin : Side.pendingFin (ready.conn role) = Side.pendingFin (m.conn role) := by
      rw [hconn]
      rfl
    rw [pool_setConn, hpool] at htracks
    rw [← hfin]
    exact htracks
  · show (ready.sendFin role).machine.side role = _
    unfold side sendFin
    rw [conn_track, conn_setConn_self, hconn, hpolicy]

theorem side_finish_of_ne {next : State} (h : r ≠ role) :
    ((m.setState role next).sendFin role).machine.side r = m.side r := by
  unfold sendFin
  rw [side_track_of_ne _ _ _ h, side_setConn_of_ne _ h]
  exact side_setConn_of_ne _ h

/-! ## Sending -/

theorem acts_sendPiece {source : Source} {tracked : Bool} {p : Piece}
    (established : (m.conn role).state = .established) :
    Acts role heard m (m.sendPiece role source tracked p).out.toList []
      (m.sendPiece role source tracked p).machine := by
  let c := m.conn role
  let sent := { c with age := m.policy.maxAge, lastSent := c.lastSent + p.len }
  let kept := Kept.ofSource source (c.segment c.lastSent .ACK p.len) p.offset
  -- Whether the piece is tracked or not, the connection is the same.
  let final := if tracked then (m.setConn role sent).track role c.lastSent p.len kept
    else m.setConn role sent
  have hmachine : (m.sendPiece role source tracked p).machine = final := rfl
  have hown : final.side role = ⟨sent, final.pool.pendingOf role⟩ := by
    unfold side
    congr 1
    unfold final
    split
    · rw [conn_track, conn_setConn_self]
    · rw [conn_setConn_self]
  have htracks : Tracks (.of c.lastSent p.len kept) (m.pool.pendingOf role)
      (final.pool.pendingOf role) := by
    rw [← pool_setConn m role sent]
    unfold final
    split
    · exact tracks_track _ _ _ _ _
    · exact .inr rfl
  rw [hmachine]
  refine .of_move_age m.policy.maxAge (.piece source p.offset p.len established htracks) hown ?_
  intro r hr
  unfold final
  split
  · rw [side_track_of_ne _ _ _ hr, side_setConn_of_ne _ hr]
  · rw [side_setConn_of_ne _ hr]

/-- Sending leaves a connection open. -/
theorem state_sendPiece (m : Machine) (role : Role) (source : Source) (tracked : Bool) (p : Piece) :
    ((m.sendPiece role source tracked p).machine.conn role).state = (m.conn role).state := by
  unfold sendPiece
  dsimp only
  split <;> simp

theorem acts_sendPieces (heard : Option Segment) {source : Source} {tracked : Bool}
    (ps : List Piece) (established : (m.conn role).state = .established) :
    Acts role heard m (m.sendPieces role source tracked ps).2 []
      (m.sendPieces role source tracked ps).1 := by
  induction ps generalizing m with
  | nil => exact .refl _ _ _
  | cons p ps ih =>
    have hstate := (state_sendPiece m role source tracked p).trans established
    exact (acts_sendPiece established).trans (ih hstate)

/-! ## Closing -/

theorem acts_finish {next : State}
    (closes : ((m.conn role).state = .established ∨ (m.conn role).state = .synReceived) ∧
        next = .finWait1 ∨ (m.conn role).state = .closeWait ∧ next = .lastAck) :
    Acts role heard m (((m.forget role).setState role next).sendFin role).out.toList []
      (((m.forget role).setState role next).sendFin role).machine := by
  obtain ⟨p', htracks, hown⟩ := side_finish (m.forget role) role next
  have hpool : (m.forget role).pool.pendingOf role = 0 := Pool.pendingOf_forget
  rw [hpool, conn_forget] at htracks
  rw [conn_forget] at hown
  rw [out_finish, conn_forget]
  refine .of_move_age m.policy.maxAge (.finish next closes htracks) hown ?_
  intro r hr
  rw [side_finish_of_ne hr, side_forget_of_ne hr]

theorem acts_close (m : Machine) (role : Role) (heard : Option Segment) :
    Acts role heard m (m.close role).out.toList [] (m.close role).machine := by
  unfold close
  split
  · rename_i h
    exact acts_finish (.inl ⟨.inl h, rfl⟩)
  · rename_i h
    exact acts_finish (.inl ⟨.inr h, rfl⟩)
  · rename_i h
    exact acts_finish (.inr ⟨h, rfl⟩)
  · -- Nobody is there to send a FIN to.
    exact acts_reset m role heard
  · exact acts_reset m role heard
  · exact acts_forget m role heard

theorem acts_abort (m : Machine) (role : Role) (heard : Option Segment) :
    Acts role heard m (m.abort role).out.toList [] (m.abort role).machine := by
  unfold abort
  dsimp only
  by_cases haging : (m.conn role).state.isAging
  · rw [if_pos haging]
    exact .of_move (.abort haging) (side_reset m role) fun _ => side_reset_of_ne
  · rw [if_neg haging]
    exact acts_reset m role heard

/-! ## Resending and reaping -/

/-- What is in a slot is pending for its role. -/
theorem mem_pendingOf_of_get? {i : Nat} {t : Tracked} (h : m.pool.get? i = some t) :
    t.pending ∈ m.pool.pendingOf t.role :=
  Pool.mem_pendingOf.mpr ⟨t, (Slots.mem_toList _ _).mpr ⟨i, h⟩, rfl, rfl⟩

/-- Timers and counts do not show in the sides. -/
theorem side_put_same {i : Nat} {t u : Tracked} (slot : m.pool.get? i = some t)
    (role : u.role = t.role) (pending : u.pending = t.pending) (counts : Counts) (r : Role) :
    side { m with pool := m.pool.put i (some u), counts := counts } r = m.side r := by
  have hput : Pool.pendingOf (m.pool.put i (some u)) r = m.pool.pendingOf r :=
    Pool.pendingOf_put_same slot role pending
  calc side { m with pool := m.pool.put i (some u), counts := counts } r
    _ = side { m with pool := m.pool.put i (some u) } r := side_congr rfl rfl rfl r
    _ = ⟨m.conn r, m.pool.pendingOf r⟩ := by rw [side_withPool, hput]

theorem acts_resend {i : Nat} (h : m.roleAt i = some role) :
    Acts role heard m (m.resend i).out.toList [] (m.resend i).machine := by
  obtain ⟨t, ht, rfl⟩ := Option.map_eq_some_iff.mp h
  unfold resend
  rw [ht]
  dsimp only
  split
  · -- The segment is not due.
    exact .refl _ _ _
  · split
    · -- It has no retry left.
      exact (acts_reset m t.role heard).congr_right (side_congr rfl rfl rfl)
    · -- The timer starts anew, which does not show.
      have hmove : Move t.role heard (m.side t.role) _ none (m.side t.role) :=
        .resend t.pending (mem_pendingOf_of_get? ht)
      have hsent : Acts t.role heard m _ [] m := .of_move hmove rfl fun _ _ => rfl
      exact hsent.trans ((acts_rejuvenate _ t.role heard).congr_left fun r =>
        (side_put_same ht (by rfl) (by rfl) _ r).symm)

theorem resend_of_roleAt_none {i : Nat} (h : m.roleAt i = none) :
    m.resend i = { machine := m } := by
  unfold resend
  rw [Option.map_eq_none_iff.mp h]

theorem acts_reap (m : Machine) (role : Role) (heard : Option Segment) :
    Acts role heard m (m.reap role).out.toList [] (m.reap role).machine := by
  unfold reap
  split
  · -- The count does not show in the sides, so that reaping is closing or dropping.
    have hcounted : ∀ r, side { m with counts := { m.counts with reaped := m.counts.reaped + 1 } } r
        = m.side r := side_congr rfl rfl rfl
    dsimp only
    split
    · exact (acts_close _ role heard).congr_left fun r => (hcounted r).symm
    · exact (acts_close _ role heard).congr_left fun r => (hcounted r).symm
    · exact (acts_reset _ role heard).congr_left fun r => (hcounted r).symm
  · exact .refl _ _ _

/-- Steps that each act for one role make a run of every side. -/
theorem run_steps {α : Type} {who : Machine → α → Option Role} {step : Machine → α → Tcp.Step}
    (acts : ∀ m a r, who m a = some r → Acts r heard m (step m a).out.toList [] (step m a).machine)
    (idle : ∀ m a, who m a = none → (step m a).machine = m) (m : Machine) (l : List α)
    (role : Role) :
    Run role heard (m.side role) (sentInSteps role who step m l) []
      ((steps step m l).1.side role) := by
  induction l generalizing m with
  | nil => exact .nil _
  | cons a l ih =>
    -- The first step acts for one role, and is an empty run for the other.
    have first : Run role heard (m.side role)
        (if who m a = some role then (step m a).out.toList else []) []
        ((step m a).machine.side role) := by
      cases hwho : who m a with
      | none =>
        rw [idle m a hwho]
        exact .nil _
      | some r =>
        by_cases hr : r = role
        · subst hr
          rw [if_pos rfl]
          exact (acts m a r hwho).own
        · rw [if_neg fun h => hr (Option.some.inj h),
            (acts m a r hwho).other role (Ne.symm hr)]
          exact .nil _
    exact first.trans (ih (step m a).machine)

theorem run_resendDue (m : Machine) (role : Role) :
    Run role none (m.side role) (sentInSteps role roleAt resend m (List.range poolSize)) []
      (m.resendDue.1.side role) := by
  apply run_steps
  · intro m i r h
    exact acts_resend h
  · -- An empty slot is left as it is.
    intro m i h
    exact congrArg Step.machine (resend_of_roleAt_none h)

theorem run_reapIdle (m : Machine) (role : Role) :
    Run role none (m.side role) (sentInSteps role (fun _ r => some r) reap m Role.all) []
      (m.reapIdle.1.side role) := by
  apply run_steps
  · intro m r r' h
    cases h
    exact acts_reap m r none
  · intro m r h
    cases h

theorem run_upkeep (m : Machine) (role : Role) :
    Run role none (m.side role) (m.sentBy role .upkeep) [] ((m.after .upkeep).side role) := by
  simp only [after, upkeep, sentBy]
  exact (run_resendDue m role).trans (run_reapIdle m.resendDue.1 role)

end NetEngine.Tcp.Machine
