import NetEngine.Proofs.Slots
import NetEngine.Proofs.Tcp.Sides

/-! # Resending and Reaping, Step by Step

    What is due is resent slot by slot, and then the connections are looked at
    one after the other.

    * **Resent**: a slot is left alone, its segment is given up together with
      the connection, or its segment is renewed.  No other slot changes, but for
      those that a connection given up leaves empty.
    * **Reaped**: what the reaper makes of a connection that has been idle for
      too long depends on its state alone. -/

namespace NetEngine.Tcp

/-! ## Slots of the pool -/

namespace Pool

variable {p : Pool} {role : Role} {i : Nat} {t : Tracked}

theorem get?_empty (i : Nat) : empty.get? i = none := by
  unfold empty Slots.empty Slots.get?
  rw [List.getElem?_replicate]
  split <;> rfl

/-- Forgetting empties the slots of the role, and no other slot. -/
theorem get?_forget_eq_some :
    Slots.get? (Pool.forget p role) i = some t ↔ p.get? i = some t ∧ t.role ≠ role := by
  unfold Pool.forget Slots.eraseWhere
  rw [Slots.get?_update]
  constructor
  · intro h
    obtain ⟨u, hu, hkept⟩ := Option.bind_eq_some_iff.mp h
    by_cases hrole : u.role = role
    · simp [hrole] at hkept
    · simp only [hrole, decide_false, Bool.false_eq_true, if_false, Option.some.injEq] at hkept
      subst hkept
      exact ⟨hu, hrole⟩
  · rintro ⟨hslot, hrole⟩
    simp [hslot, hrole]

/-- What is left when an acknowledgment has been noted was there before. -/
theorem get?_of_get?_forgetCovered {ack : SeqNumber}
    (h : Slots.get? (Pool.forgetCovered p role ack) i = some t) : p.get? i = some t := by
  unfold Pool.forgetCovered Slots.eraseWhere at h
  rw [Slots.get?_update] at h
  obtain ⟨u, hu, hkept⟩ := Option.bind_eq_some_iff.mp h
  split at hkept
  · cases hkept
  · cases hkept
    exact hu

/-- Noting an acknowledgment empties the slots of the role that it covers, and no other slot. -/
theorem get?_forgetCovered {ack : SeqNumber} (slot : p.get? i = some t) :
    Slots.get? (Pool.forgetCovered p role ack) i =
      if t.role = role ∧ t.isCoveredBy ack then none else some t := by
  unfold Pool.forgetCovered Slots.eraseWhere
  rw [Slots.get?_update, slot]
  simp

theorem get?_tick (p : Pool) (i : Nat) :
    Slots.get? (Pool.tick p) i =
      (p.get? i).map fun e => { e with timeout := Countdown.tick e.timeout } := by
  unfold Pool.tick
  rw [Slots.get?_update]
  cases p.get? i <;> rfl

/-- A new entry does not disturb the slots in use. -/
theorem get?_insert_of_get? {e : Tracked} {j : Nat} {p' : Pool} (h : p.insert? e = some (j, p'))
    (slot : p.get? i = some t) : p'.get? i = some t := by
  obtain ⟨k, hfree, heq⟩ := Option.map_eq_some_iff.mp h
  cases heq
  obtain ⟨hj, hnone, -⟩ := List.findIdx?_eq_some_iff_getElem.mp hfree
  -- The slot that is filled was free, so that it is another one.
  have hne : j ≠ i := by
    rintro rfl
    rw [p.get?_eq_getElem hj, Option.isNone_iff_eq_none.mp hnone] at slot
    cases slot
  rw [Slots.get?_put_of_ne _ hne]
  exact slot

/-- What stands in a slot afterwards was there before, or is the new entry. -/
theorem get?_of_get?_insert {e : Tracked} {j : Nat} {p' : Pool} (h : p.insert? e = some (j, p'))
    (slot : p'.get? i = some t) : p.get? i = some t ∨ t = e := by
  obtain ⟨k, hfree, heq⟩ := Option.map_eq_some_iff.mp h
  cases heq
  obtain ⟨hj, -, -⟩ := List.findIdx?_eq_some_iff_getElem.mp hfree
  rw [p.length_cells] at hj
  by_cases hi : j = i
  · subst hi
    rw [Slots.get?_put_self _ hj] at slot
    exact .inr (Option.some.inj slot).symm
  · rw [Slots.get?_put_of_ne _ hi] at slot
    exact .inl slot

end Pool

/-! ## States after a call -/

/-- The state of a connection after it has been closed. -/
def State.afterClose : State → State
  | .established | .synReceived => .finWait1
  | .closeWait => .lastAck
  | .listen | .synSent => .closed
  | s => s

/-- The state of a connection after it has been reaped. -/
def State.reaped : State → State
  | .established => .finWait1
  | .closeWait => .lastAck
  | _ => .closed

/-- A segment that has been resent: it has a retry less, and a longer wait. -/
def Tracked.renewed (p : Policy) (t : Tracked) : Tracked :=
  { t with
    retries := t.retries - 1
    timeout := backoff p.timeout (UInt8.ofNat (p.retries.toNat - (t.retries - 1).toNat)) }

namespace Machine

variable {m : Machine} {role r : Role} {i j : Nat} {t : Tracked}

@[simp] theorem state_setState_self (m : Machine) (role : Role) (s : State) :
    ((m.setState role s).conn role).state = s := by
  simp [setState]

@[simp] theorem state_reset (m : Machine) (role : Role) :
    ((m.reset role).conn role).state = .closed := by
  simp [reset]

@[simp] theorem state_rejuvenate (m : Machine) (role r : Role) :
    ((m.rejuvenate role).conn r).state = (m.conn r).state := by
  unfold rejuvenate
  by_cases h : r = role
  · subst h
    simp
  · simp [h]

@[simp] theorem state_sendFin (m : Machine) (role : Role) :
    ((m.sendFin role).machine.conn role).state = (m.conn role).state := by
  simp [sendFin]

theorem state_close (m : Machine) (role : Role) :
    ((m.close role).machine.conn role).state = (m.conn role).state.afterClose := by
  unfold close
  cases hstate : (m.conn role).state <;> simp [State.afterClose, hstate]

/-! ## A slot that is looked at -/

/-- The machine after the segment `t` of slot `i` has been resent. -/
def renew (m : Machine) (i : Nat) (t : Tracked) : Machine :=
  rejuvenate { m with
    pool := m.pool.put i (some (t.renewed m.policy))
    counts := { m.counts with retransmissions := m.counts.retransmissions + 1 } } t.role

/-- What becomes of the machine when a slot is looked at. -/
inductive Resent (m : Machine) (i : Nat) : Machine → Prop
  | idle (waits : ∀ t, m.pool.get? i = some t → t.timeout ≠ 0) : Resent m i m
  | gaveUp (t : Tracked) (slot : m.pool.get? i = some t) (due : t.timeout = 0)
      (spent : t.retries = 0) : Resent m i (m.giveUp t.role)
  | renewed (t : Tracked) (slot : m.pool.get? i = some t) (due : t.timeout = 0)
      (left : t.retries ≠ 0) : Resent m i (m.renew i t)

theorem resent_resend (m : Machine) (i : Nat) : Resent m i (m.resend i).machine := by
  unfold resend
  cases hslot : m.pool.get? i with
  | none => exact .idle fun t ht => by rw [hslot] at ht; cases ht
  | some t =>
    dsimp only
    by_cases hdue : t.timeout = 0
    · rw [if_neg (not_not_intro hdue)]
      by_cases hspent : t.retries = 0
      · rw [if_pos hspent]
        exact .gaveUp t hslot hdue hspent
      · rw [if_neg hspent]
        exact .renewed t hslot hdue hspent
    · rw [if_pos hdue]
      refine .idle fun u hu => ?_
      rw [hslot] at hu
      cases hu
      exact hdue

@[simp] theorem conn_giveUp (m : Machine) (role r : Role) :
    (m.giveUp role).conn r = (m.reset role).conn r := by
  cases r <;> rfl

theorem get?_giveUp_eq_some :
    (m.giveUp role).pool.get? i = some t ↔ m.pool.get? i = some t ∧ t.role ≠ role := by
  have hpool : (m.giveUp role).pool = m.pool.forget role := pool_reset m role
  rw [hpool]
  exact Pool.get?_forget_eq_some

@[simp] theorem counts_giveUp (m : Machine) (role : Role) :
    (m.giveUp role).counts = { m.counts with failed := m.counts.failed + 1 } := by
  unfold giveUp
  dsimp only
  rw [counts_reset]

theorem pool_renew (m : Machine) (i : Nat) (t : Tracked) :
    (m.renew i t).pool = m.pool.put i (some (t.renewed m.policy)) := pool_setConn _ _ _

@[simp] theorem policy_renew (m : Machine) (i : Nat) (t : Tracked) :
    (m.renew i t).policy = m.policy := policy_setConn _ _ _

@[simp] theorem counts_renew (m : Machine) (i : Nat) (t : Tracked) : (m.renew i t).counts =
    { m.counts with retransmissions := m.counts.retransmissions + 1 } := counts_setConn _ _ _

/-- A connection for which a segment is resent takes up its whole idle time again. -/
theorem conn_renew (m : Machine) (i : Nat) (t : Tracked) (r : Role) :
    (m.renew i t).conn r =
      if r = t.role then { m.conn r with age := m.policy.maxAge } else m.conn r := by
  unfold renew rejuvenate
  by_cases hr : r = t.role
  · subst hr
    rw [conn_setConn_self, if_pos rfl]
    cases t.role <;> rfl
  · rw [conn_setConn_of_ne _ _ hr, if_neg hr]
    cases r <;> rfl

/-- The timers do not show in the sides, but the age does. -/
theorem side_renew (slot : m.pool.get? i = some t) (role : Role) :
    ∃ age, (m.renew i t).side role = ⟨{ m.conn role with age := age }, m.pool.pendingOf role⟩ := by
  have hpending : (m.renew i t).pool.pendingOf role = m.pool.pendingOf role := by
    rw [pool_renew]
    exact Pool.pendingOf_put_same slot rfl rfl
  unfold side
  rw [hpending, conn_renew]
  split
  · exact ⟨m.policy.maxAge, rfl⟩
  · exact ⟨(m.conn role).age, rfl⟩

@[simp] theorem state_renew (m : Machine) (i : Nat) (t : Tracked) (r : Role) :
    ((m.renew i t).conn r).state = (m.conn r).state := by
  rw [conn_renew]
  split <;> rfl

/-- A connection keeps its state when a slot is looked at, or its segment is given up. -/
theorem state_resend (m : Machine) (i : Nat) (role : Role) :
    ((m.resend i).machine.conn role).state = (m.conn role).state ∨
      ((m.resend i).machine.conn role).state = .closed ∧
        ∃ t, m.pool.get? i = some t ∧ t.role = role ∧ t.timeout = 0 ∧ t.retries = 0 := by
  have hresent := resent_resend m i
  generalize (m.resend i).machine = m' at hresent ⊢
  cases hresent with
  | idle => exact .inl rfl
  | gaveUp t slot due spent =>
    by_cases hrole : t.role = role
    · right
      subst hrole
      exact ⟨by simp, t, slot, rfl, due, spent⟩
    · left
      have hother : (m.reset t.role).side role = m.side role := side_reset_of_ne (Ne.symm hrole)
      rw [conn_giveUp]
      exact congrArg (·.conn.state) hother
  | renewed t slot due left =>
    left
    exact state_renew m i t role

theorem policy_resend (m : Machine) (i : Nat) : (m.resend i).machine.policy = m.policy := by
  have hresent := resent_resend m i
  generalize (m.resend i).machine = m' at hresent ⊢
  cases hresent with
  | idle => rfl
  | gaveUp => exact policy_setConn _ _ _
  | renewed => exact policy_setConn _ _ _

/-- What stands in another slot afterwards was there before. -/
theorem get?_of_get?_resend (h : i ≠ j) (slot : (m.resend i).machine.pool.get? j = some t) :
    m.pool.get? j = some t := by
  have hresent := resent_resend m i
  generalize (m.resend i).machine = m' at hresent slot
  cases hresent with
  | idle => exact slot
  | gaveUp => exact (get?_giveUp_eq_some.mp slot).1
  | renewed u =>
    rw [pool_renew, Slots.get?_put_of_ne _ h] at slot
    exact slot

/-! ## All slots -/

theorem policy_resendSlots (m : Machine) (slots : List Nat) :
    (steps resend m slots).1.policy = m.policy :=
  steps_induction (P := fun m' => m'.policy = m.policy)
    (fun m' i h => (policy_resend m' i).trans h) rfl slots

/-- A connection keeps its state when slots are looked at, or a segment of one of them is given
up. -/
theorem state_resendSlots {slots : List Nat} (nodup : slots.Nodup) (m : Machine) (role : Role) :
    ((steps resend m slots).1.conn role).state = (m.conn role).state ∨
      ((steps resend m slots).1.conn role).state = .closed ∧
        ∃ i ∈ slots, ∃ t, m.pool.get? i = some t ∧ t.role = role ∧ t.timeout = 0 ∧
          t.retries = 0 := by
  -- The slots are looked at in the machine that the first one leaves.
  induction slots generalizing m with
  | nil => exact .inl rfl
  | cons i slots ih =>
    obtain ⟨hnot, hnodup⟩ := List.nodup_cons.mp nodup
    have hfirst := state_resend m i role
    rcases ih hnodup (m.resend i).machine with hrest | ⟨hrest, j, hj, t, ht, hdue⟩
    · rcases hfirst with hfirst | ⟨hfirst, t, ht⟩
      · exact .inl (hrest.trans hfirst)
      · exact .inr ⟨hrest.trans hfirst, i, List.mem_cons_self, t, ht⟩
    · -- The slot given up later on has not been touched before.
      have hne : i ≠ j := fun h => hnot (h ▸ hj)
      exact .inr ⟨hrest, j, List.mem_cons_of_mem _ hj, t, get?_of_get?_resend hne ht, hdue⟩

theorem state_resendDue (m : Machine) (role : Role) :
    (m.resendDue.1.conn role).state = (m.conn role).state ∨
      (m.resendDue.1.conn role).state = .closed ∧
        ∃ i t, m.pool.get? i = some t ∧ t.role = role ∧ t.timeout = 0 ∧ t.retries = 0 := by
  rcases state_resendSlots List.nodup_range m role with h | ⟨h, i, -, t, ht⟩
  · exact .inl h
  · exact .inr ⟨h, i, t, ht⟩

theorem after_upkeep (m : Machine) : m.after .upkeep = m.resendDue.1.reapIdle.1 := by
  simp only [after, upkeep]

/-! ## Reaping -/

/-- Whether a connection is idle shows in its side. -/
theorem isIdle_congr {m' : Machine} (h : m'.side role = m.side role) :
    m'.isIdle role = m.isIdle role := by
  have hconn : m'.conn role = m.conn role := congrArg Side.conn h
  have hpending : m'.pool.pendingOf role = m.pool.pendingOf role := congrArg Side.pending h
  unfold isIdle
  rw [hconn, Pool.countOf_eq_card, Pool.countOf_eq_card, hpending]

theorem state_reap (m : Machine) (role : Role) :
    ((m.reap role).machine.conn role).state =
      if m.isIdle role then (m.conn role).state.reaped else (m.conn role).state := by
  unfold reap
  by_cases hidle : m.isIdle role = true
  · -- Besides what is counted, reaping is closing in two states and resetting in all others.
    rw [if_pos hidle, if_pos hidle]
    let counted := { m with counts := { m.counts with reaped := m.counts.reaped + 1 } }
    have hcounted : counted.conn role = m.conn role := by cases role <;> rfl
    have hclose : ((counted.close role).machine.conn role).state =
        (m.conn role).state.afterClose := by
      rw [state_close, hcounted]
    have hreset : ((counted.reset role).conn role).state = .closed := state_reset _ _
    cases hstate : (m.conn role).state <;> rw [hstate] at hclose <;>
      first | exact hclose | exact hreset
  · rw [if_neg hidle, if_neg hidle]

/-- Each connection is reaped for itself: what is done for the other one before and afterwards does
not show in its side. -/
theorem exists_side_reapIdle (m : Machine) (role : Role) :
    ∃ m' : Machine, m'.side role = m.side role ∧
      m.reapIdle.1.side role = (m'.reap role).machine.side role := by
  cases role with
  | client =>
    exact ⟨m, rfl, (acts_reap (m.reap .client).machine .server none).other .client (by decide)⟩
  | server =>
    exact ⟨(m.reap .client).machine, (acts_reap m .client none).other .server (by decide), rfl⟩

theorem state_reapIdle (m : Machine) (role : Role) :
    (m.reapIdle.1.conn role).state =
      if m.isIdle role then (m.conn role).state.reaped else (m.conn role).state := by
  obtain ⟨m', hside, hreap⟩ := exists_side_reapIdle m role
  have hconn : m'.conn role = m.conn role := congrArg Side.conn hside
  have hreaped : m.reapIdle.1.conn role = (m'.reap role).machine.conn role :=
    congrArg Side.conn hreap
  rw [hreaped, state_reap, isIdle_congr hside, hconn]

/-- The reaper leaves a connection alone that is not idle. -/
theorem side_reapIdle (busy : m.isIdle role = false) : m.reapIdle.1.side role = m.side role := by
  obtain ⟨m', hside, hreap⟩ := exists_side_reapIdle m role
  have hbusy : m'.isIdle role = false := (isIdle_congr hside).trans busy
  have hsame : (m'.reap role).machine = m' := by
    unfold reap
    rw [if_neg (by simp [hbusy])]
  rw [hreap, hsame, hside]

end Machine

end NetEngine.Tcp
