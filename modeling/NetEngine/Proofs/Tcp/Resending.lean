import NetEngine.Proofs.Tcp.Tracking
import NetEngine.Proofs.Tcp.Upkeep

/-! # Where a Tracked Segment Comes From

    A segment that is resent has been sent before.  What is kept of it is enough
    to build it again because the connection goes on between the same ports and
    the same hosts as long as anything is tracked for it.

    * **Route**: the ports of a connection, and its peer.  Only an opening
      changes them.
    * **Original**: a segment that is sent, and what is kept of it.  Whatever
      comes to be pending for a role has been sent by the same operation, on the
      route of the connection.
    * **Resent**: what is sent for a slot when its turn comes. -/

namespace NetEngine.Tcp

/-! ## Routes -/

/-- Two connections go between the same ports and the same hosts. -/
structure SameRoute (c c' : Connection) : Prop where
  localPort : c'.localPort = c.localPort
  remotePort : c'.remotePort = c.remotePort
  remoteAddr : c'.remoteAddr = c.remoteAddr

namespace SameRoute

variable {c c' c'' : Connection}

theorem refl (c : Connection) : SameRoute c c := ⟨rfl, rfl, rfl⟩

theorem trans (h : SameRoute c c') (h' : SameRoute c' c'') : SameRoute c c'' where
  localPort := h'.localPort.trans h.localPort
  remotePort := h'.remotePort.trans h.remotePort
  remoteAddr := h'.remoteAddr.trans h.remoteAddr

/-- On one route, a segment differs from an earlier one in its acknowledgment only. -/
theorem segment_eq (h : SameRoute c c') (seq : SeqNumber) (flags : Flags) (len : Nat) :
    c'.segment seq flags len = { c.segment seq flags len with
      ackNumber := if flags.ack then c'.lastReceived + 1 else ⟨0⟩ } := by
  unfold Connection.segment
  rw [h.localPort, h.remotePort]
  rfl

end SameRoute

namespace Side

variable {role : Role} {heard : Option Segment} {x y : Side} {z : Pending}

/-- No move changes the route. -/
theorem sameRoute_of_move {out : Option Outgoing} {given : Option Delivery}
    (h : Move role heard x out given y) : SameRoute x.conn y.conn := by
  cases h with
  | take s a arrived receives taken | answerFin s a arrived open_ taken
  | endByFin s a arrived closing taken =>
    rw [Connection.conn_of_take taken]
    exact ⟨rfl, rfl, rfl⟩
  | _ => exact ⟨rfl, rfl, rfl⟩

theorem sameRoute_of_run {sent : List Outgoing} {handed : List Delivery}
    (h : Run role heard x sent handed y) : SameRoute x.conn y.conn := by
  induction h with
  | nil => exact .refl _
  | cons move _ ih => exact (sameRoute_of_move move).trans ih

end Side

/-! ## Originals -/

/-- A segment that is sent on a connection, and what is kept of it. -/
inductive Original (c : Connection) : Pending → Outgoing → Prop
  | data (source : Source) (offset : Nat) (seq : SeqNumber) (len : Nat) :
      Original c (.of seq len (.ofSource source (c.segment seq .ACK len) offset))
        (.fresh c.remoteAddr (c.segment seq .ACK len) (some ⟨source.data, offset⟩))
  | control (seq : SeqNumber) (flags : Flags) (fit : flags.bits.toNat < 512) :
      Original c (.of seq 1 (.control seq flags))
        (.fresh c.remoteAddr (c.segment seq flags 0) none)

open scoped Classical in
/-- A segment has been tracked: there is one more of its kind pending than before. -/
def NewlyPending (z : Pending) (p p' : Multiset Pending) : Prop := p.count z < p'.count z

namespace NewlyPending

variable {z e : Pending} {p p' p'' : Multiset Pending}

theorem mem (h : NewlyPending z p p') : z ∈ p' := by
  classical
  exact Multiset.count_pos.mp (by unfold NewlyPending at h; omega)

theorem of_mem (not : z ∉ p) (mem : z ∈ p') : NewlyPending z p p' := by
  classical
  have hnone := Multiset.count_eq_zero.mpr not
  have hsome := Multiset.count_pos.mpr mem
  unfold NewlyPending
  omega

/-- What is pending less often than before has not been tracked. -/
theorem not_of_le (le : p' ≤ p) : ¬ NewlyPending z p p' := by
  classical
  intro h
  have hcount := Multiset.count_le_of_le z le
  unfold NewlyPending at h
  omega

/-- Only the segment that is tracked is newly pending. -/
theorem eq_of_tracks (h : NewlyPending z p p') (tracks : Side.Tracks e p p') : z = e := by
  classical
  rcases tracks with rfl | rfl
  · by_contra hne
    unfold NewlyPending at h
    rw [Multiset.count_cons_of_ne hne] at h
    exact lt_irrefl _ h
  · exact absurd h (not_of_le le_rfl)

/-- Where nothing else is left, only the segment that is tracked is pending. -/
theorem eq_of_tracks_zero (h : NewlyPending z p p') (tracks : Side.Tracks e 0 p') : z = e := by
  have hmem := h.mem
  rcases tracks with rfl | rfl
  · exact Multiset.mem_singleton.mp hmem
  · exact absurd hmem (Multiset.notMem_zero _)

/-- What is newly pending in the end has become so at one of two steps. -/
theorem of_trans (h : NewlyPending z p p'') (p' : Multiset Pending) :
    NewlyPending z p p' ∨ NewlyPending z p' p'' := by
  unfold NewlyPending at h ⊢
  omega

end NewlyPending

namespace Side

variable {role : Role} {heard : Option Segment} {x y : Side} {z : Pending}

/-- What becomes pending by a move is sent by it, on the route of the connection. -/
theorem original_of_move {out : Option Outgoing} {given : Option Delivery}
    (h : Move role heard x out given y) (new : NewlyPending z x.pending y.pending) :
    ∃ c o, SameRoute c y.conn ∧ Original c z o ∧ o ∈ out := by
  have hnot {p p' : Multiset Pending} (le : p' ≤ p) (new : NewlyPending z p p') :
      ∃ c o, SameRoute c y.conn ∧ Original c z o ∧ o ∈ out :=
    absurd new (NewlyPending.not_of_le le)
  cases h with
  | piece source offset len open_ tracked =>
    obtain rfl := new.eq_of_tracks tracked
    exact ⟨_, _, ⟨rfl, rfl, rfl⟩, .data source offset _ len, rfl⟩
  | finish next closes tracked =>
    obtain rfl := new.eq_of_tracks_zero tracked
    exact ⟨_, _, ⟨rfl, rfl, rfl⟩, .control _ (.FIN ||| .ACK) (by decide), rfl⟩
  | answerFin s a arrived open_ taken fin tracked =>
    obtain rfl := new.eq_of_tracks tracked
    exact ⟨a.conn, _, ⟨rfl, rfl, rfl⟩, .control _ (.FIN ||| .ACK) (by decide), rfl⟩
  | acknowledge => exact hnot (Multiset.filter_le _ _) new
  | age | resend | complete | take | finAcked => exact hnot le_rfl new
  | forget | drop | abort | answer | endByFin => exact hnot (Multiset.zero_le _) new

theorem original_of_run {sent : List Outgoing} {handed : List Delivery}
    (h : Run role heard x sent handed y) (new : NewlyPending z x.pending y.pending) :
    ∃ c o, SameRoute c y.conn ∧ Original c z o ∧ o ∈ sent := by
  induction h with
  | nil => exact absurd new (NewlyPending.not_of_le le_rfl)
  | cons move rest ih =>
    rename_i x w y out sent given handed
    rcases new.of_trans w.pending with hfirst | hrest
    · obtain ⟨c, o, hroute, horiginal, hout⟩ := original_of_move move hfirst
      refine ⟨c, o, hroute.trans (sameRoute_of_run rest), horiginal, ?_⟩
      exact List.mem_append_left _ (Option.mem_toList.mpr hout)
    · obtain ⟨c, o, hroute, horiginal, hout⟩ := ih hrest
      exact ⟨c, o, hroute, horiginal, List.mem_append_right _ hout⟩

/-- A connection that is opened sends its SYN. -/
theorem original_of_opening {sent : List Outgoing} (h : Opening role heard x sent y)
    (new : NewlyPending z x.pending y.pending) :
    ∃ c o, SameRoute c y.conn ∧ Original c z o ∧ o ∈ sent := by
  cases h with
  | connect localPort remotePort remote age closed tracked =>
    obtain rfl := new.eq_of_tracks tracked
    exact ⟨_, _, .refl _, .control _ .SYN (by decide), List.mem_singleton_self _⟩
  | refused => exact absurd new (NewlyPending.not_of_le (Multiset.zero_le _))
  | listen => exact absurd new (NewlyPending.not_of_le le_rfl)
  | accept s remote seq age server idle arrived tracked =>
    obtain rfl := new.eq_of_tracks_zero tracked
    exact ⟨_, _, .refl _, .control seq (.SYN ||| .ACK) (by decide), List.mem_singleton_self _⟩

end Side

namespace Machine

variable {m : Machine} {role : Role} {z : Pending} {i : Nat} {t : Tracked} {o : Outgoing}

/-- **What an operation tracks it has sent**, on the route that the connection has from then on. -/
theorem original_of_after (op : Operation)
    (new : NewlyPending z (m.pool.pendingOf role) ((m.after op).pool.pendingOf role)) :
    ∃ c o, SameRoute c ((m.after op).conn role) ∧ Original c z o ∧ o ∈ m.sentBy role op := by
  rcases change_after m role op with ⟨opens, -⟩ | ⟨moves⟩
  · exact Side.original_of_opening opens new
  · exact Side.original_of_run moves new

/-- A connection is in use as long as anything is pending for it. -/
theorem aging_of_pending (agrees : Side.Agrees role (m.side role))
    (mem : z ∈ m.pool.pendingOf role) : (m.conn role).state.isAging := by
  by_contra hidle
  have hnothing : m.pool.pendingOf role = 0 :=
    agrees.pending_eq_zero (eq_false_of_ne_true hidle)
  rw [hnothing] at mem
  exact Multiset.notMem_zero z mem

/-- The route stays the same as long as a segment is pending. -/
theorem sameRoute_of_pending {later : List Operation} (agrees : Side.Agrees role (m.side role))
    (pending : ∀ done, done <+: later → z ∈ (m.run done).pool.pendingOf role) :
    SameRoute (m.conn role) ((m.run later).conn role) := by
  -- No connection is opened where there is one, so that each operation is a run of moves.
  induction later generalizing m with
  | nil => exact .refl _
  | cons op later ih =>
    have haging := aging_of_pending agrees (pending [] (List.nil_prefix))
    refine (Side.sameRoute_of_run (run_after op haging)).trans (ih (agrees_after agrees op) ?_)
    intro done hdone
    exact pending (op :: done) (List.cons_prefix_cons.mpr ⟨rfl, hdone⟩)

/-! ## Resent -/

/-- What is sent for slot `i` when its turn comes. -/
def resentFrom (m : Machine) (i : Nat) : Option Outgoing :=
  ((steps resend m (List.range i)).1.resend i).out

theorem steps_append {α : Type} (step : Machine → α → Step) (m : Machine) (l l' : List α) :
    steps step m (l ++ l') = ((steps step (steps step m l).1 l').1,
      (steps step m l).2 ++ (steps step (steps step m l).1 l').2) := by
  induction l generalizing m with
  | nil => rfl
  | cons a l ih =>
    show ((steps step (step m a).machine (l ++ l')).1,
      (step m a).out.toList ++ (steps step (step m a).machine (l ++ l')).2) = _
    rw [ih, ← List.append_assoc]
    rfl

/-- What is resent is what is sent for each slot. -/
theorem out_resendDue (m : Machine) :
    m.resendDue.2 = (List.range poolSize).flatMap fun i => (m.resentFrom i).toList := by
  have hslots (n : Nat) : (steps resend m (List.range n)).2 =
      (List.range n).flatMap fun i => (m.resentFrom i).toList := by
    induction n with
    | zero => rfl
    | succ n ih =>
      rw [List.range_succ, steps_append, List.flatMap_append, ih]
      simp [steps, resentFrom]
  exact hslots poolSize

/-- What is sent when a slot is looked at is built from what the slot holds. -/
theorem out_resend (out : (m.resend i).out = some o) :
    ∃ t, m.pool.get? i = some t ∧ o = rebuild (m.conn t.role) t.kept := by
  unfold resend at out
  cases hslot : m.pool.get? i with
  | none =>
    rw [hslot] at out
    cases out
  | some t =>
    rw [hslot] at out
    dsimp only at out
    split at out
    · cases out
    · split at out <;> cases out
      exact ⟨t, rfl, rfl⟩

/-- When slots are looked at, a connection changes in its age and its state only. -/
theorem conn_resend (m : Machine) (i : Nat) (role : Role) :
    ∃ age state, (m.resend i).machine.conn role =
      { m.conn role with age := age, state := state } := by
  have hresent := resent_resend m i
  generalize (m.resend i).machine = m' at hresent ⊢
  cases hresent with
  | idle => exact ⟨_, _, rfl⟩
  | gaveUp t =>
    rw [conn_giveUp]
    by_cases hrole : role = t.role
    · subst hrole
      have hside := side_reset m t.role
      exact ⟨_, _, congrArg Side.conn hside⟩
    · exact ⟨_, _, congrArg Side.conn (side_reset_of_ne hrole)⟩
  | renewed t slot =>
    obtain ⟨age, hside⟩ := side_renew slot role
    exact ⟨_, _, congrArg Side.conn hside⟩

theorem conn_resendSlots (m : Machine) (slots : List Nat) (role : Role) :
    ∃ age state, (steps resend m slots).1.conn role =
      { m.conn role with age := age, state := state } := by
  induction slots generalizing m with
  | nil => exact ⟨_, _, rfl⟩
  | cons i slots ih =>
    obtain ⟨age, state, hfirst⟩ := conn_resend m i role
    obtain ⟨age', state', hrest⟩ := ih (m.resend i).machine
    refine ⟨age', state', hrest.trans ?_⟩
    rw [hfirst]

theorem get?_of_get?_resendSlots {slots : List Nat} (h : i ∉ slots)
    (slot : (steps resend m slots).1.pool.get? i = some t) : m.pool.get? i = some t := by
  induction slots generalizing m with
  | nil => exact slot
  | cons j slots ih =>
    rw [List.mem_cons, not_or] at h
    obtain ⟨hne, hnot⟩ := h
    exact get?_of_get?_resend (Ne.symm hne) (ih hnot slot)

/-- **What is sent for a slot is built from the segment that it holds**, and speaks for the
connection as it is. -/
theorem resentFrom_eq (slot : m.pool.get? i = some t) (out : m.resentFrom i = some o) :
    o = rebuild (m.conn t.role) t.kept := by
  obtain ⟨t', hslot, rfl⟩ := out_resend out
  have hslot' := get?_of_get?_resendSlots (by simp) hslot
  obtain rfl : t' = t := Option.some.inj (hslot'.symm.trans slot)
  obtain ⟨age, state, hconn⟩ := conn_resendSlots m (List.range i) t'.role
  rw [hconn]
  -- Neither the age nor the state shows in a segment.
  cases t'.kept <;> rfl

end Machine

end NetEngine.Tcp
