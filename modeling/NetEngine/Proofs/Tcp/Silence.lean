import Mathlib.Logic.Function.Iterate
import NetEngine.Proofs.Tcp.Timers
import NetEngine.Proofs.Tcp.Tracking

/-! # Silence

    Where nothing arrives and the application asks for nothing, every connection
    comes to its end, and the pool becomes empty.

    * **Round**: a second passes, and what is due is resent or reaped.
    * **End**: a connection in its present state ends with the first of its
      segments that has no retry left.  If none is tracked, nothing is resent for
      it either, so that it grows old and is reaped.
    * **Two spans**: an open connection is reaped by closing it in order, and has
      another span to wait for the acknowledgment of its FIN.  After that there is
      nothing left that could prolong it. -/

namespace NetEngine.Tcp

/-! ## How long it takes -/

/-- The rounds after which a connection has left the state it is in. -/
def Policy.span (p : Policy) : Nat := max p.lifetime (max 1 p.maxAge.toNat)

/-- The rounds after which a silent peer holds no connection. -/
def Policy.patience (p : Policy) : Nat := 2 * p.span

/-- Is a connection in this state closed in order when it is reaped? -/
def State.closesInOrder : State → Bool
  | .established | .closeWait => true
  | _ => false

theorem State.reaped_eq_closed {s : State} (h : s.closesInOrder = false) : s.reaped = .closed := by
  cases s <;> first | rfl | cases h

theorem State.closesInOrder_reaped (s : State) : s.reaped.closesInOrder = false := by
  cases s <;> rfl

/-- What becomes of a segment when its slot is looked at, and it is not given up. -/
def Tracked.Goes (p : Policy) (t t' : Tracked) : Prop :=
  t.timeout ≠ 0 ∧ t' = t ∨ t.timeout = 0 ∧ t.retries ≠ 0 ∧ t' = t.renewed p

/-- A second and a look at the slot take a round of the life. -/
theorem Tracked.life_goes {p : Policy} {t t' : Tracked}
    (h : Goes p { t with timeout := Countdown.tick t.timeout } t') : t'.life p < t.life p := by
  rcases h with ⟨hwaits, rfl⟩ | ⟨-, hleft, rfl⟩
  · exact life_tick_lt hwaits
  · exact (life_renewed_lt hleft).trans_le life_tick_le

namespace Machine

variable {m : Machine} {p : Policy} {role : Role} {i n : Nat} {t : Tracked}

/-- A second passes, and what is due is done. -/
def round (m : Machine) : Machine := (m.after .tick).after .upkeep

/-! ## A slot in use -/

/-- A segment stays in its slot when a slot is looked at, or its connection is given up. -/
theorem slot_resend (slot : m.pool.get? i = some t) (j : Nat) :
    ((m.resend j).machine.conn t.role).state = .closed ∨
      ((m.resend j).machine.conn t.role).state = (m.conn t.role).state ∧
        ∃ t', (m.resend j).machine.pool.get? i = some t' ∧ t'.role = t.role ∧
          if j = i then t.Goes m.policy t' else t' = t := by
  have hresent := resent_resend m j
  generalize (m.resend j).machine = m' at hresent ⊢
  cases hresent with
  | idle waits =>
    -- If it is this slot that has been looked at, its segment waits.
    refine .inr ⟨rfl, t, slot, rfl, ?_⟩
    split
    · subst i
      exact .inl ⟨waits t slot, rfl⟩
    · rfl
  | gaveUp u given due spent =>
    by_cases hrole : u.role = t.role
    · left
      rw [conn_giveUp, hrole]
      exact state_reset m t.role
    · -- A segment of the other role has been given up, in another slot.
      right
      have hne : t.role ≠ u.role := Ne.symm hrole
      have hji : j ≠ i := by
        rintro rfl
        rw [slot] at given
        cases given
        exact hrole rfl
      have hside : (m.reset u.role).side t.role = m.side t.role := side_reset_of_ne hne
      refine ⟨?_, t, get?_giveUp_eq_some.mpr ⟨slot, hne⟩, rfl, ?_⟩
      · rw [conn_giveUp]
        exact congrArg (·.conn.state) hside
      · rw [if_neg hji]
  | renewed u given due left =>
    refine .inr ⟨state_renew m j u t.role, ?_⟩
    rw [pool_renew]
    by_cases hji : j = i
    · subst hji
      rw [slot] at given
      cases given
      rw [Slots.get?_put_self _ (Slots.lt_of_get? slot)]
      refine ⟨_, rfl, rfl, ?_⟩
      rw [if_pos rfl]
      exact .inr ⟨due, left, rfl⟩
    · rw [Slots.get?_put_of_ne _ hji]
      refine ⟨t, slot, rfl, ?_⟩
      rw [if_neg hji]

/-- A segment stays in its slot when slots are looked at one after the other, or its connection is
given up. -/
theorem slot_resendSlots {slots : List Nat} (nodup : slots.Nodup)
    (slot : m.pool.get? i = some t) :
    ((steps resend m slots).1.conn t.role).state = .closed ∨
      ((steps resend m slots).1.conn t.role).state = (m.conn t.role).state ∧
        ∃ t', (steps resend m slots).1.pool.get? i = some t' ∧ t'.role = t.role ∧
          if i ∈ slots then t.Goes m.policy t' else t' = t := by
  induction slots generalizing m t with
  | nil => exact .inr ⟨rfl, t, slot, rfl, by rw [if_neg List.not_mem_nil]⟩
  | cons j slots ih =>
    obtain ⟨hnot, hnodup⟩ := List.nodup_cons.mp nodup
    rcases slot_resend slot j with hclosed | ⟨hstate, u, hu, hrole, hgoes⟩
    · -- A connection that has been given up stays closed.
      left
      rcases state_resendSlots hnodup (m.resend j).machine t.role with h | ⟨h, -⟩
      · exact h.trans hclosed
      · exact h
    · have hrest := ih hnodup hu
      rw [hrole, policy_resend] at hrest
      rcases hrest with hclosed | ⟨hstate', t', ht', hrole', hgoes'⟩
      · exact .inl hclosed
      · refine .inr ⟨hstate'.trans hstate, t', ht', hrole', ?_⟩
        -- The slot is looked at once at most.
        by_cases hji : j = i
        · subst hji
          rw [if_neg hnot] at hgoes'
          rw [if_pos rfl] at hgoes
          rw [if_pos List.mem_cons_self, hgoes']
          exact hgoes
        · rw [if_neg hji] at hgoes
          subst hgoes
          simpa [Ne.symm hji] using hgoes'

theorem slot_resendDue (slot : m.pool.get? i = some t) :
    (m.resendDue.1.conn t.role).state = .closed ∨
      (m.resendDue.1.conn t.role).state = (m.conn t.role).state ∧
        ∃ t', m.resendDue.1.pool.get? i = some t' ∧ t'.role = t.role ∧ t.Goes m.policy t' := by
  have hlooked := slot_resendSlots (List.nodup_range (n := poolSize)) slot
  simp only [List.mem_range, Slots.lt_of_get? slot, if_true] at hlooked
  exact hlooked

/-! ## Slots and the reaper -/

/-- Tracking a segment leaves the slots in use as they are. -/
theorem get?_track (slot : m.pool.get? i = some t) (role : Role) (seq : SeqNumber) (len : Nat)
    (kept : Kept) : (m.track role seq len kept).pool.get? i = some t := by
  unfold track
  split
  · exact Pool.get?_insert_of_get? ‹_› slot
  · exact slot

theorem get?_close (slot : m.pool.get? i = some t) (h : t.role ≠ role) :
    (m.close role).machine.pool.get? i = some t := by
  have hforget : (m.forget role).pool.get? i = some t := Pool.get?_forget_eq_some.mpr ⟨slot, h⟩
  have hstate : ∀ next, ((m.forget role).setState role next).pool.get? i = some t := by
    intro next
    rw [pool_setState]
    exact hforget
  have hfinish : ∀ next,
      (((m.forget role).setState role next).sendFin role).machine.pool.get? i = some t := by
    intro next
    refine get?_track ?_ role _ 1 _
    rw [pool_setConn]
    exact hstate next
  unfold close
  split
  · exact hfinish _
  · exact hfinish _
  · exact hfinish _
  · exact hstate _
  · exact hstate _
  · exact hforget

/-- The reaper leaves the segments of a connection alone that is not idle. -/
theorem get?_reap (slot : m.pool.get? i = some t) (h : t.role ≠ role ∨ m.isIdle role = false) :
    (m.reap role).machine.pool.get? i = some t := by
  unfold reap
  by_cases hidle : m.isIdle role = true
  · have hne : t.role ≠ role := h.resolve_right (by simp [hidle])
    let counted := { m with counts := { m.counts with reaped := m.counts.reaped + 1 } }
    have hclose : (counted.close role).machine.pool.get? i = some t := get?_close slot hne
    have hreset : (counted.reset role).pool.get? i = some t := by
      rw [pool_reset]
      exact Pool.get?_forget_eq_some.mpr ⟨slot, hne⟩
    rw [if_pos hidle]
    dsimp only
    split
    · exact hclose
    · exact hclose
    · exact hreset
  · rw [if_neg hidle]
    exact slot

theorem get?_reapIdle (slot : m.pool.get? i = some t) (busy : m.isIdle t.role = false) :
    m.reapIdle.1.pool.get? i = some t := by
  show ((m.reap .client).machine.reap .server).machine.pool.get? i = some t
  cases hrole : t.role with
  | client =>
    rw [hrole] at busy
    exact get?_reap (get?_reap slot (.inr busy)) (.inl (by rw [hrole]; decide))
  | server =>
    rw [hrole] at busy
    have hother := (acts_reap m .client none).other .server (by decide)
    exact get?_reap (get?_reap slot (.inl (by rw [hrole]; decide)))
      (.inr ((isIdle_congr hother).trans busy))

/-! ## A connection for which nothing is tracked -/

/-- Nothing is resent for a connection for which nothing is tracked. -/
theorem side_resendSlots (nothing : m.pool.pendingOf role = 0) (slots : List Nat) :
    (steps resend m slots).1.side role = m.side role := by
  induction slots generalizing m with
  | nil => rfl
  | cons i slots ih =>
    have hfirst : (m.resend i).machine.side role = m.side role := by
      cases hwho : m.roleAt i with
      | none => rw [resend_of_roleAt_none hwho]
      | some r =>
        have hacts : Acts r none m _ [] _ := acts_resend hwho
        refine hacts.other role ?_
        rintro rfl
        obtain ⟨t, ht, rfl⟩ := Option.map_eq_some_iff.mp hwho
        have hmem := mem_pendingOf_of_get? ht
        rw [nothing] at hmem
        exact Multiset.notMem_zero _ hmem
    have hpending : (m.resend i).machine.pool.pendingOf role = 0 :=
      (congrArg Side.pending hfirst).trans nothing
    exact (ih hpending).trans hfirst

/-- A connection for which nothing is tracked is idle once its time is over. -/
theorem isIdle_of_nothing (nothing : m.pool.pendingOf role = 0)
    (aging : (m.conn role).state.isAging) : m.isIdle role = decide ((m.conn role).age = 0) := by
  have hcount : m.pool.countOf role = 0 := by
    rw [Pool.countOf_eq_card, nothing, Multiset.card_zero]
  unfold isIdle
  simp [hcount, aging]

/-! ## The end of a connection -/

/-- A connection does not last longer than `n` rounds in its state: one of its segments will have
been given up, or nothing is tracked for it, and it will be idle. -/
def EndsWithin (p : Policy) (m : Machine) (role : Role) (n : Nat) : Prop :=
  (∃ i t, m.pool.get? i = some t ∧ t.role = role ∧ t.life p ≤ n) ∨
    m.pool.pendingOf role = 0 ∧ max 1 (m.conn role).age.toNat ≤ n

theorem EndsWithin.mono {n' : Nat} (h : EndsWithin p m role n) (le : n ≤ n') :
    EndsWithin p m role n' := by
  rcases h with ⟨i, t, slot, hrole, hlife⟩ | ⟨hnothing, hage⟩
  · exact .inl ⟨i, t, slot, hrole, hlife.trans le⟩
  · exact .inr ⟨hnothing, hage.trans le⟩

theorem EndsWithin.pos (h : EndsWithin p m role n) : 0 < n := by
  rcases h with ⟨i, t, -, -, hlife⟩ | ⟨-, hage⟩
  · exact (t.life_pos p).trans_le hlife
  · omega

/-- A connection whose timers are in their bounds ends within a span. -/
theorem Timely.endsWithin (h : Timely p m) (role : Role) : EndsWithin p m role p.span := by
  by_cases hnothing : m.pool.pendingOf role = 0
  · refine .inr ⟨hnothing, ?_⟩
    have hage := UInt8.le_iff_toNat_le.mp (h.age role)
    unfold Policy.span
    omega
  · obtain ⟨x, hx⟩ := Multiset.exists_mem_of_ne_zero hnothing
    obtain ⟨t, ht, hrole, -⟩ := Pool.mem_pendingOf.mp hx
    obtain ⟨i, slot⟩ := (Slots.mem_toList _ _).mp ht
    refine .inl ⟨i, t, slot, hrole, (h.life i t slot).trans ?_⟩
    unfold Policy.span
    omega

/-! ## Rounds -/

theorem Timely.goes (h : Timely p m) {t' : Tracked} (goes : t.Goes m.policy t') : t.Goes p t' := by
  unfold Tracked.Goes at goes
  rw [h.renewed_eq] at goes
  exact goes

/-- What a round makes of a connection that will end: a round less is left of its time, or it is
given up or reaped. -/
def Nears (p : Policy) (m : Machine) (role : Role) (n : Nat) : Prop :=
  (m.round.conn role).state = (m.conn role).state ∧ EndsWithin p m.round role n ∨
    (m.round.conn role).state = .closed ∨
    (m.round.conn role).state = (m.conn role).state.reaped

/-- A second passes before anything is looked at. -/
theorem round_eq (m : Machine) : m.round = m.tick.resendDue.1.reapIdle.1 := after_upkeep m.tick

theorem conn_tick_of_aging (aging : (m.conn role).state.isAging) :
    m.tick.conn role = { m.conn role with age := Countdown.tick (m.conn role).age } := by
  rw [conn_tick]
  exact if_pos aging

/-- A segment that is tracked is looked at in every round. -/
theorem nears_of_slot (h : Timely p m) (aging : (m.conn t.role).state.isAging)
    (slot : m.pool.get? i = some t) (life : t.life p ≤ n + 1) : Nears p m t.role n := by
  have hslot : m.tick.pool.get? i = some { t with timeout := Countdown.tick t.timeout } := by
    show Slots.get? (Pool.tick m.pool) i = _
    rw [Pool.get?_tick, slot]
    rfl
  unfold Nears
  rw [round_eq, state_reapIdle]
  rcases slot_resendDue hslot with hclosed | ⟨hstate, t', ht', hrole, hgoes⟩
  · -- The segment has been given up, or another one of the connection.
    right
    left
    change (m.tick.resendDue.1.conn t.role).state = .closed at hclosed
    rw [hclosed]
    split <;> rfl
  · change t'.role = t.role at hrole
    change (m.tick.resendDue.1.conn t.role).state = (m.tick.conn t.role).state at hstate
    rw [conn_tick_of_aging aging] at hstate
    change _ = (m.conn t.role).state at hstate
    rw [hstate]
    split
    · exact .inr (.inr rfl)
    · rename_i hbusy
      have hidle : m.tick.resendDue.1.isIdle t'.role = false := by
        rw [hrole]
        exact eq_false_of_ne_true hbusy
      have hlife : t'.life p < n + 1 := (Tracked.life_goes (h.tick.goes hgoes)).trans_le life
      exact .inl ⟨rfl, .inl ⟨i, t', get?_reapIdle ht' hidle, hrole, Nat.le_of_lt_succ hlife⟩⟩

/-- A connection for which nothing is tracked grows old. -/
theorem nears_of_nothing (aging : (m.conn role).state.isAging)
    (nothing : m.pool.pendingOf role = 0) (age : max 1 (m.conn role).age.toNat ≤ n + 1) :
    Nears p m role n := by
  have hpending : m.tick.pool.pendingOf role = 0 := by
    show Pool.pendingOf (Pool.tick m.pool) role = 0
    rw [Pool.pendingOf_tick, nothing]
  have htick := conn_tick_of_aging aging
  have hside : m.tick.resendDue.1.side role = m.tick.side role :=
    side_resendSlots hpending (List.range poolSize)
  have hconn : m.tick.resendDue.1.conn role = _ := (congrArg Side.conn hside).trans htick
  have hidle : m.tick.resendDue.1.isIdle role = decide (Countdown.tick (m.conn role).age = 0) := by
    rw [isIdle_of_nothing ((congrArg Side.pending hside).trans hpending)
      (by rw [hconn]; exact aging), hconn]
  unfold Nears
  rw [round_eq, state_reapIdle, hidle, hconn]
  by_cases hzero : Countdown.tick (m.conn role).age = 0
  · rw [if_pos (decide_eq_true hzero)]
    exact .inr (.inr rfl)
  · have hkept : m.tick.resendDue.1.reapIdle.1.side role = m.tick.side role := by
      rw [side_reapIdle (by rw [hidle]; exact decide_eq_false hzero), hside]
    rw [if_neg (by simp [hzero])]
    refine .inl ⟨rfl, .inr ⟨(congrArg Side.pending hkept).trans hpending, ?_⟩⟩
    have hage : m.tick.resendDue.1.reapIdle.1.conn role = _ :=
      (congrArg Side.conn hkept).trans htick
    have hne := Countdown.toNat_ne_zero hzero
    rw [hage]
    show max 1 (Countdown.tick (m.conn role).age).toNat ≤ n
    rw [Countdown.toNat_tick] at hne ⊢
    omega

theorem nears_of_endsWithin (h : Timely p m) (aging : (m.conn role).state.isAging)
    (ends : EndsWithin p m role (n + 1)) : Nears p m role n := by
  rcases ends with ⟨i, t, slot, rfl, hlife⟩ | ⟨hnothing, hage⟩
  · exact nears_of_slot h aging slot hlife
  · exact nears_of_nothing aging hnothing hage

/-- A connection that is not in use stays so. -/
theorem idle_round (idle : (m.conn role).state.isAging = false) :
    (m.round.conn role).state.isAging = false := by
  have htick : (m.tick.conn role).state.isAging = false :=
    (run_tick m role).preserves Side.idle_of_move idle
  exact (run_upkeep m.tick role).preserves Side.idle_of_move htick

/-- A connection is not in use any more after `n` rounds. -/
def OverWithin (p : Policy) (m : Machine) (role : Role) (n : Nat) : Prop :=
  (m.conn role).state.isAging = false ∨
    (m.conn role).state.closesInOrder = false ∧ EndsWithin p m role n ∨
    ∃ k, k + p.span ≤ n ∧ EndsWithin p m role k

theorem not_aging_of_overWithin_zero (h : OverWithin p m role 0) :
    (m.conn role).state.isAging = false := by
  rcases h with hidle | ⟨-, hends⟩ | ⟨k, hk, hends⟩
  · exact hidle
  · exact absurd hends.pos (lt_irrefl 0)
  · have hpos := hends.pos
    omega

/-- **A round brings every connection nearer to its end.** -/
theorem overWithin_round (h : Timely p m) (within : OverWithin p m role (n + 1)) :
    OverWithin p m.round role n := by
  have hround : Timely p m.round := (h.after .tick).after .upkeep
  have closed (hclosed : (m.round.conn role).state = .closed) : OverWithin p m.round role n :=
    .inl (by rw [hclosed]; rfl)
  by_cases haging : (m.conn role).state.isAging
  · rcases within with hidle | ⟨horder, hends⟩ | ⟨k, hk, hends⟩
    · rw [haging] at hidle
      cases hidle
    · -- The last span: the reaper closes the connection for good.
      rcases nears_of_endsWithin h haging hends with ⟨hstate, hends'⟩ | hclosed | hreaped
      · exact .inr (.inl ⟨by rw [hstate]; exact horder, hends'⟩)
      · exact closed hclosed
      · exact closed (hreaped.trans (State.reaped_eq_closed horder))
    · -- The first span, with another one in reserve.
      obtain ⟨j, rfl⟩ := Nat.exists_eq_succ_of_ne_zero hends.pos.ne'
      rcases nears_of_endsWithin h haging hends with ⟨-, hends'⟩ | hclosed | hreaped
      · exact .inr (.inr ⟨j, by omega, hends'⟩)
      · exact closed hclosed
      · -- Our FIN has been sent, and there is a span left.
        refine .inr (.inl ⟨?_, (hround.endsWithin role).mono (by omega)⟩)
        rw [hreaped]
        exact State.closesInOrder_reaped _
  · exact .inl (idle_round (eq_false_of_ne_true haging))

theorem not_aging_of_rounds (h : Timely p m) (within : OverWithin p m role n) :
    ((round^[n] m).conn role).state.isAging = false := by
  -- The induction takes the first round off, which is the one that is nearer to the end.
  induction n generalizing m with
  | zero => exact not_aging_of_overWithin_zero within
  | succ n ih => exact ih ((h.after .tick).after .upkeep) (overWithin_round h within)

/-- A connection is over after two spans, and stays so. -/
theorem not_aging_of_patience (h : Timely p m) (role : Role) (k : Nat) :
    ((round^[p.patience + k] m).conn role).state.isAging = false := by
  refine not_aging_of_rounds h (.inr (.inr ⟨p.span, ?_, h.endsWithin role⟩))
  unfold Policy.patience
  omega

theorem agrees_round (h : Side.Agrees role (m.side role)) :
    Side.Agrees role (m.round.side role) :=
  agrees_after (agrees_after h .tick) .upkeep

/-- Nothing is tracked where no connection is in use. -/
theorem pool_eq_nil (agrees : ∀ role, Side.Agrees role (m.side role))
    (idle : ∀ role, (m.conn role).state.isAging = false) : m.pool.toList = [] := by
  refine List.eq_nil_iff_forall_not_mem.mpr fun t ht => ?_
  have hmem : t.pending ∈ m.pool.pendingOf t.role := Pool.mem_pendingOf.mpr ⟨t, ht, rfl, rfl⟩
  have hnothing : m.pool.pendingOf t.role = 0 := (agrees t.role).pending_eq_zero (idle t.role)
  rw [hnothing] at hmem
  exact Multiset.notMem_zero _ hmem

theorem pool_of_patience (h : Timely p m) (agrees : ∀ role, Side.Agrees role (m.side role))
    (k : Nat) : (round^[p.patience + k] m).pool.toList = [] := by
  refine pool_eq_nil (fun role => ?_) fun role => not_aging_of_patience h role k
  exact Function.Iterate.rec (fun m : Machine => Side.Agrees role (m.side role))
    (agrees role) (fun _ => agrees_round) _

end Machine

end NetEngine.Tcp
