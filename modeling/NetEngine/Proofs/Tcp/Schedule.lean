import Mathlib.Algebra.BigOperators.Intervals
import Mathlib.Order.Monotone.Basic
import NetEngine.Proofs.Tcp.Sparing
import NetEngine.Proofs.Tcp.Transition

/-! # The Schedule of a SYN

    A SYN that nobody answers is resent after the first wait, after the second one,
    which is twice as long, and so on, until its retries are used up.

    * **Resend time**: the second at which a segment is resent for the `k`-th time:
      the sum of the waits so far.
    * **Trying**: the half of a connection that is opening, whose SYN has been
      resent `k` times and waits.  A second shortens the wait, and a round after
      the wait resends the SYN or drops the half.
    * **Opened**: an operation that opens a connection leaves a half that is
      trying, if the SYN found a place in the pool. -/

namespace NetEngine.Tcp

/-! ## Resend times -/

/-- The second at which a segment is resent for the `k`-th time, after the one in which it was
sent.  Each wait is twice as long as the one before, as far as an octet can tell. -/
def Policy.resendTime (p : Policy) (k : Nat) : Nat :=
  ∑ j ∈ Finset.range k, min 255 (p.timeout.toNat * 2 ^ j)

/-- The seconds at which a segment is resent, one for each retry. -/
def Policy.resendTimes (p : Policy) : List Nat :=
  (List.range p.retries.toNat).map fun k => p.resendTime (k + 1)

/-- The second at which no retry is left, after the last one has been used. -/
def Policy.giveUpTime (p : Policy) : Nat := p.resendTime (p.retries.toNat + 1)

namespace Policy

variable {p : Policy} {k n : Nat}

theorem mem_resendTimes : n ∈ p.resendTimes ↔ ∃ k < p.retries.toNat, n = p.resendTime (k + 1) := by
  simp [resendTimes, eq_comm]

theorem resendTime_succ (p : Policy) (k : Nat) :
    p.resendTime (k + 1) = p.resendTime k + min 255 (p.timeout.toNat * 2 ^ k) :=
  Finset.sum_range_succ _ k

/-- No two resend times are the same. -/
theorem resendTime_strictMono (timeout : 1 ≤ p.timeout) : StrictMono p.resendTime := by
  refine strictMono_nat_of_lt_succ fun k => ?_
  have hpos : 0 < p.timeout.toNat :=
    Nat.pos_of_ne_zero (Countdown.toNat_ne_zero (Countdown.ne_zero_of_one_le timeout))
  have hwait : 0 < p.timeout.toNat * 2 ^ k := Nat.mul_pos hpos (Nat.two_pow_pos k)
  rw [resendTime_succ]
  omega

/-- The resend times follow one another, and the time to give up follows them. -/
theorem pairwise_resendTimes (timeout : 1 ≤ p.timeout) :
    (p.resendTimes ++ [p.giveUpTime]).Pairwise (· < ·) := by
  have hall : p.resendTimes ++ [p.giveUpTime] =
      (List.range (p.retries.toNat + 1)).map fun k => p.resendTime (k + 1) := by
    rw [List.range_succ, List.map_append]
    rfl
  rw [hall, List.pairwise_map]
  refine List.pairwise_lt_range.imp fun h => ?_
  exact resendTime_strictMono timeout (by omega)

end Policy

/-! ## Halves with one segment -/

namespace Half

variable {p q : Policy} {c : Connection} {kept : Kept} {i k w n : Nat} {x : Half}

/-- Where slots are empty there is nothing to look at. -/
theorem foldl_look_of_none {slots : List Nat} (empty : ∀ j ∈ slots, x.slots j = none) :
    slots.foldl (look p) x = x := by
  induction slots with
  | nil => rfl
  | cons j slots ih =>
    have hlook : x.look p j = x := by
      apply look_eq_self
      intro t slot
      rw [empty j List.mem_cons_self] at slot
      cases slot
    rw [List.foldl_cons, hlook, ih fun j hj => empty j (List.mem_cons_of_mem _ hj)]

/-- Looking at a slot fills no other one. -/
theorem slots_look_of_none {j : Nat} (empty : x.slots j = none) (ne : j ≠ i) :
    (x.look p i).slots j = none := by
  unfold look
  split
  · exact empty
  · split
    · exact empty
    · split
      · rfl
      · exact (Function.update_of_ne ne _ _).trans empty

/-- Where one slot alone is in use, a round looks at this one. -/
theorem resent_of_alone (within : i < poolSize) (alone : ∀ j, j ≠ i → x.slots j = none) :
    x.resent p = x.look p i := by
  obtain ⟨behind, hrange, hbehind⟩ := Machine.exists_range_eq within
  have hfront : ∀ j ∈ List.range i, x.slots j = none := by
    intro j hj
    exact alone j (Nat.ne_of_lt (List.mem_range.mp hj))
  have hback : ∀ j ∈ behind, (x.look p i).slots j = none := by
    intro j hj
    have hne : j ≠ i := fun h => hbehind (h ▸ hj)
    exact slots_look_of_none (alone j hne) hne
  unfold resent
  rw [hrange, List.foldl_append, foldl_look_of_none hfront, List.foldl_cons,
    foldl_look_of_none hback]

/-- The connection has been given up, and nothing is tracked for it. -/
structure Over (x : Half) : Prop where
  closed : x.conn.state = .closed
  empty : ∀ j, x.slots j = none

namespace Over

theorem tick (h : Over x) : Over x.tick where
  closed := by
    show x.conn.tick.state = .closed
    unfold Connection.tick
    rw [h.closed]
    exact h.closed
  empty j := by
    show (x.slots j).map _ = none
    rw [h.empty j]
    rfl

theorem isIdle (h : Over x) : x.isIdle = false := by
  apply isIdle_eq_false
  rw [h.closed]
  intro aging
  cases aging

theorem resent (h : Over x) : x.resent q = x := by
  apply resent_eq_self
  intro j t slot
  rw [h.empty j] at slot
  cases slot

end Over

/-- The connection `c` is opening.  Its SYN alone is tracked, in slot `i`; it has been resent `k`
times and waits for `w` more seconds. -/
structure Trying (p : Policy) (c : Connection) (kept : Kept) (i k w : Nat) (x : Half) : Prop where
  opening : c.state.isOpening
  within : i < poolSize
  conn : ∃ age, x.conn = { c with age := age }
  slots : ∃ t : Tracked, t.kept = kept ∧ t.retries.toNat + k = p.retries.toNat ∧
    t.timeout.toNat = w ∧ ∀ j, x.slots j = if j = i then some t else none

namespace Trying

/-- A connection whose SYN is tracked is not idle, however old it is. -/
theorem isIdle (h : Trying p c kept i k w x) : x.isIdle = false := by
  obtain ⟨age, hconn⟩ := h.conn
  obtain ⟨t, -, -, -, hslots⟩ := h.slots
  have htracked : (List.range poolSize).any (fun j => (x.slots j).isSome) = true := by
    rw [List.any_eq_true]
    exact ⟨i, List.mem_range.mpr h.within, by rw [hslots i, if_pos rfl]; rfl⟩
  unfold Half.isIdle
  rw [htracked, hconn]
  simp [h.opening]

/-- A second shortens the wait. -/
theorem tick (h : Trying p c kept i k w x) : Trying p c kept i k (w - 1) x.tick := by
  obtain ⟨age, hconn⟩ := h.conn
  obtain ⟨t, hkept, hretries, hwait, hslots⟩ := h.slots
  refine ⟨h.opening, h.within, ?_, ?_⟩
  · have haging : c.state.isAging := by
      have hopening := h.opening
      revert hopening
      cases c.state <;> decide
    refine ⟨Countdown.tick age, ?_⟩
    show x.conn.tick = _
    rw [hconn]
    unfold Connection.tick
    exact if_pos haging
  · refine ⟨{ t with timeout := Countdown.tick t.timeout }, hkept, hretries, ?_, fun j => ?_⟩
    · rw [Countdown.toNat_tick, hwait]
    · show (x.slots j).map _ = _
      rw [hslots j]
      split <;> rfl

theorem resent_eq (h : Trying p c kept i k w x) : x.resent q = x.look q i := by
  obtain ⟨t, -, -, -, hslots⟩ := h.slots
  apply resent_of_alone h.within
  intro j hne
  rw [hslots j, if_neg hne]

/-- Nothing is resent before the wait is over. -/
theorem resent_waits (h : Trying p c kept i k w x) (waits : w ≠ 0) : x.resent q = x := by
  obtain ⟨t, -, -, hwait, hslots⟩ := h.slots
  rw [h.resent_eq]
  apply look_eq_self
  intro u slot
  rw [hslots i, if_pos rfl] at slot
  cases slot
  intro hzero
  rw [hzero] at hwait
  exact waits hwait.symm

/-- When the wait is over, the SYN is resent, if there is a retry left. -/
theorem resent_left (h : Trying p c kept i k 0 x) (left : k < p.retries.toNat)
    (retries : q.retries = p.retries) (timeout : q.timeout = p.timeout) :
    Trying p c kept i (k + 1) (min 255 (p.timeout.toNat * 2 ^ (k + 1))) (x.resent q) := by
  obtain ⟨age, hconn⟩ := h.conn
  obtain ⟨t, hkept, hretries, hwait, hslots⟩ := h.slots
  have hslot : x.slots i = some t := by rw [hslots i, if_pos rfl]
  have hdue : t.timeout = 0 := UInt8.toNat_inj.mp hwait
  have hleft : t.retries ≠ 0 := by
    intro hspent
    rw [hspent] at hretries
    simp at hretries
    omega
  have hfewer := Machine.toNat_retries_renewed (p := q) hleft
  rw [h.resent_eq, look_of_left hslot hdue hleft]
  refine ⟨h.opening, h.within, ⟨q.maxAge, ?_⟩, t.renewed q, hkept, by omega, ?_, fun j => ?_⟩
  · show { x.conn with age := q.maxAge } = _
    rw [hconn]
  · have hlt := p.retries.toNat_lt
    have hattempts : p.retries.toNat - (t.renewed q).retries.toNat = k + 1 := by omega
    rw [Tracked.timeout_renewed, Tracked.wait, toNat_backoff, retries, timeout,
      hattempts, UInt8.toNat_ofNat', Nat.mod_eq_of_lt (by omega)]
  · show Function.update x.slots i _ j = _
    rw [Function.update_apply, hslots j]
    split <;> rfl

/-- When no retry is left, the connection is given up. -/
theorem resent_spent (h : Trying p c kept i k 0 x) (spent : k = p.retries.toNat) :
    Over (x.resent q) := by
  obtain ⟨t, -, hretries, hwait, hslots⟩ := h.slots
  have hslot : x.slots i = some t := by rw [hslots i, if_pos rfl]
  have hdue : t.timeout = 0 := UInt8.toNat_inj.mp hwait
  have hspent : t.retries = 0 := UInt8.toNat_inj.mp (by simp; omega)
  rw [h.resent_eq, look_of_spent hslot hdue hspent]
  exact ⟨rfl, fun _ => rfl⟩

end Trying

/-! ## On schedule -/

/-- After `n` seconds, the last round included, the SYN has been resent as often as there have been
resend times, or the connection has been given up. -/
def OnSchedule (p : Policy) (c : Connection) (kept : Kept) (i n : Nat) (x : Half) : Prop :=
  (∃ k ≤ p.retries.toNat, p.resendTime k ≤ n ∧ n < p.resendTime (k + 1) ∧
    Trying p c kept i k (p.resendTime (k + 1) - n) x) ∨
  p.giveUpTime ≤ n ∧ Over x

/-- The second `n` has passed, and its round is to come. -/
def BeforeRound (p : Policy) (c : Connection) (kept : Kept) (i n : Nat) (x : Half) : Prop :=
  (∃ k ≤ p.retries.toNat, p.resendTime k < n ∧ n ≤ p.resendTime (k + 1) ∧
    Trying p c kept i k (p.resendTime (k + 1) - n) x) ∨
  p.giveUpTime < n ∧ Over x

theorem OnSchedule.tick (h : OnSchedule p c kept i n x) :
    BeforeRound p c kept i (n + 1) x.tick := by
  rcases h with ⟨k, hk, hle, hlt, htrying⟩ | ⟨hle, hover⟩
  · refine .inl ⟨k, hk, by omega, hlt, ?_⟩
    rw [← Nat.sub_sub]
    exact htrying.tick
  · exact .inr ⟨by omega, hover.tick⟩

/-- On schedule, a connection is not idle, whatever its age is. -/
theorem OnSchedule.isIdle (h : OnSchedule p c kept i n x) : x.isIdle = false := by
  rcases h with ⟨k, -, -, -, htrying⟩ | ⟨-, hover⟩
  · exact htrying.isIdle
  · exact hover.isIdle

/-- **Resending keeps the schedule.** -/
theorem BeforeRound.resent (h : BeforeRound p c kept i n x) (timeout : 1 ≤ p.timeout)
    (sameRetries : q.retries = p.retries) (sameTimeout : q.timeout = p.timeout) :
    OnSchedule p c kept i n (x.resent q) := by
  have hmono := Policy.resendTime_strictMono timeout
  rcases h with ⟨k, hk, hlt, hle, htrying⟩ | ⟨hlt, hover⟩
  · by_cases hwaits : n < p.resendTime (k + 1)
    · left
      refine ⟨k, hk, by omega, hwaits, ?_⟩
      rw [htrying.resent_waits (by omega)]
      exact htrying
    · obtain rfl : n = p.resendTime (k + 1) := by omega
      rw [Nat.sub_self] at htrying
      by_cases hleft : k < p.retries.toNat
      · left
        refine ⟨k + 1, hleft, le_rfl, hmono (Nat.lt_succ_self _), ?_⟩
        rw [Policy.resendTime_succ p (k + 1), Nat.add_sub_cancel_left]
        exact htrying.resent_left hleft sameRetries sameTimeout
      · obtain rfl : k = p.retries.toNat := by omega
        exact .inr ⟨le_rfl, htrying.resent_spent rfl⟩
  · right
    rw [hover.resent]
    exact ⟨hlt.le, hover⟩

end Half

/-! ## In a round -/

namespace Machine

open Half (Trying BeforeRound)

variable {m : Machine} {p : Policy} {c : Connection} {role : Role} {op : Operation} {kept : Kept}
  {i n : Nat}

/-- What is resent does not tell how old its connection is. -/
theorem rebuild_age (c : Connection) (age : Countdown) (kept : Kept) :
    rebuild { c with age := age } kept = rebuild c kept := by
  cases kept <;> rfl

/-- **The SYN has its turn at the resend times**, with one retry less each time. -/
theorem turns_of_beforeRound (h : BeforeRound p c kept i n (m.half role))
    (timeout : 1 ≤ p.timeout) :
    (∃ t k, k ≤ p.retries.toNat ∧ n = p.resendTime (k + 1) ∧ t.kept = kept ∧ t.role = role ∧
      (∃ age, m.conn role = { c with age := age }) ∧ t.retries.toNat + k = p.retries.toNat ∧
      (m.turns poolSize).filter (·.role = role) = [t]) ∨
    (∀ k ≤ p.retries.toNat, n ≠ p.resendTime (k + 1)) ∧
      (m.turns poolSize).filter (·.role = role) = [] := by
  have hmono := Policy.resendTime_strictMono timeout
  rcases h with ⟨k, hk, hlt, hle, htrying⟩ | ⟨hlt, hover⟩
  · obtain ⟨t, hkept, hretries, hwait, hslots⟩ := htrying.slots
    have halone : m.IsAlone role i t := hslots
    by_cases hdue : t.timeout = 0
    · left
      have hzero : t.timeout.toNat = 0 := congrArg UInt8.toNat hdue
      refine ⟨t, k, hk, by omega, hkept, halone.slot.2, htrying.conn, hretries, ?_⟩
      rw [halone.turns_eq, if_pos hdue]
    · right
      refine ⟨fun k' _ heq => ?_, ?_⟩
      · -- The second is between two resend times.
        have hwaits := Countdown.toNat_ne_zero hdue
        rw [heq] at hlt
        have hafter := hmono.lt_iff_lt.mp hlt
        have hbefore : p.resendTime (k + 1) ≤ p.resendTime (k' + 1) := hmono.monotone (by omega)
        omega
      · rw [halone.turns_eq, if_neg hdue]
  · right
    refine ⟨fun k hk heq => ?_, turns_eq_nil_of_empty hover.empty⟩
    have hbefore : p.resendTime (k + 1) ≤ p.giveUpTime := hmono.monotone (by omega)
    omega

/-- The role is given up at the time after the last one at which the SYN is resent. -/
theorem givenUp_of_beforeRound (h : BeforeRound p c kept i n (m.half role))
    (timeout : 1 ≤ p.timeout) : m.givenUp role = if n = p.giveUpTime then 1 else 0 := by
  have hmono := Policy.resendTime_strictMono timeout
  unfold givenUp
  rcases turns_of_beforeRound h timeout with
    ⟨t, k, hk, rfl, -, -, -, hretries, hturns⟩ | ⟨hnot, hturns⟩
  · rw [hturns]
    have hspent : t.retries = 0 ↔ p.resendTime (k + 1) = p.giveUpTime := by
      rw [Policy.giveUpTime, hmono.injective.eq_iff, ← UInt8.toNat_inj, UInt8.toNat_zero]
      omega
    simp [List.countP_singleton, hspent]
  · have hnever : n ≠ p.giveUpTime := hnot _ le_rfl
    rw [hturns, if_neg hnever]
    rfl

/-- **A round sends the SYN at the resend times**, as often as there are retries. -/
theorem sentBy_of_beforeRound (h : BeforeRound p c kept i n (m.half role))
    (timeout : 1 ≤ p.timeout) (busy : m.resendDue.1.isIdle role = false) :
    m.sentBy role .upkeep = if n ∈ p.resendTimes then [rebuild c kept] else [] := by
  have hmono := Policy.resendTime_strictMono timeout
  rw [sentBy_upkeep busy]
  rcases turns_of_beforeRound h timeout with
    ⟨t, k, hk, rfl, rfl, rfl, ⟨age, hconn⟩, hretries, hturns⟩ | ⟨hnot, hturns⟩
  · rw [hturns]
    by_cases hleft : k < p.retries.toNat
    · have hretry : t.retries ≠ 0 := by
        intro hspent
        rw [hspent, UInt8.toNat_zero] at hretries
        omega
      rw [if_pos (Policy.mem_resendTimes.mpr ⟨k, hleft, rfl⟩)]
      simp [hretry, hconn, rebuild_age]
    · have hspent : t.retries = 0 := UInt8.toNat_inj.mp (by rw [UInt8.toNat_zero]; omega)
      have hlast : p.resendTime (k + 1) ∉ p.resendTimes := by
        intro hmem
        obtain ⟨k', hk', heq⟩ := Policy.mem_resendTimes.mp hmem
        have := hmono.injective heq
        omega
      rw [if_neg hlast]
      simp [hspent]
  · have hnever : n ∉ p.resendTimes := by
      intro hmem
      obtain ⟨k, hk, heq⟩ := Policy.mem_resendTimes.mp hmem
      exact hnot k hk.le heq
    rw [hturns, if_neg hnever]
    rfl

/-! ## Opened -/

/-- Nothing that a segment makes of a connection is opening. -/
theorem isOpening_of_turns {c : Connection} {s : Segment} {next : State} (turns : c.Turns s next)
    (opening : next.isOpening) : c.state.isOpening := by
  cases turns with
  | stay => exact opening
  | complete next _ _ opens => rcases opens with rfl | rfl <;> cases opening
  | _ => cases opening

/-- The operation sends a SYN for the role, with an acknowledgment or without.  The SYN alone is
tracked then, and waits to be resent. -/
def SendsSyn (m : Machine) (p : Policy) (role : Role) (op : Operation) : Prop :=
  ∃ i seq flags, flags.syn ∧
    Trying p ((m.after op).conn role) (.control seq flags) i 0 p.timeout.toNat
      ((m.after op).half role) ∧
    m.sentBy role op = [rebuild ((m.after op).conn role) (.control seq flags)]

/-- Nothing is tracked for a connection that is not in use. -/
theorem slotOf_eq_none_of_idle (agrees : Side.Agrees role (m.side role))
    (idle : (m.conn role).state.isAging = false) (j : Nat) : m.pool.slotOf role j = none := by
  rw [Option.eq_none_iff_forall_ne_some]
  intro t hslot
  obtain ⟨hget, hrole⟩ := Pool.slotOf_eq_some.mp hslot
  have hpending := mem_pendingOf_of_get? hget
  have hnothing : m.pool.pendingOf role = 0 := agrees.pending_eq_zero idle
  rw [hrole, hnothing] at hpending
  exact Multiset.notMem_zero _ hpending

/-- A SYN that is tracked for a role for which nothing else is tracked. -/
theorem trying_of_track {seq : SeqNumber} (opening : (m.conn role).state.isOpening)
    (policy : m.policy.retries = p.retries ∧ m.policy.timeout = p.timeout)
    (empty : ∀ j, m.pool.slotOf role j = none)
    (tracked : 0 < (m.track role seq 1 kept).pool.countOf role) :
    ∃ i, Trying p (m.conn role) kept i 0 p.timeout.toNat ((m.track role seq 1 kept).half role) := by
  rw [countOf_pos_iff, half_track] at tracked
  obtain ⟨i, hwithin, hslot⟩ := tracked
  have hfree : m.pool.free? = some i := by
    by_contra hne
    simp [hne, empty] at hslot
  refine ⟨i, opening, hwithin, ⟨_, by rw [half_track]⟩, ?_⟩
  refine ⟨.track role seq 1 kept m.policy.retries m.policy.timeout, rfl, ?_, ?_, fun j => ?_⟩
  · show m.policy.retries.toNat + 0 = _
    rw [policy.1, Nat.add_zero]
  · show m.policy.timeout.toNat = _
    rw [policy.2]
  · rw [half_track]
    simp [hfree, empty, eq_comm]

/-- An operation that tracks a SYN on the machine `n`, and sends it. -/
theorem sendsSyn_of_track {n : Machine} {seq : SeqNumber} {flags : Flags}
    (after : m.after op = n.track role seq 1 (.control seq flags))
    (sent : m.sentBy role op =
      [.fresh (n.conn role).remoteAddr ((n.conn role).segment seq flags 0) none])
    (syn : flags.syn) (opening : (n.conn role).state.isOpening)
    (policy : n.policy.retries = p.retries ∧ n.policy.timeout = p.timeout)
    (empty : ∀ j, n.pool.slotOf role j = none) (tracked : 0 < (m.after op).pool.countOf role) :
    m.SendsSyn p role op := by
  rw [after] at tracked
  obtain ⟨i, htrying⟩ := trying_of_track opening policy empty tracked
  have hconn : (m.after op).conn role = n.conn role := by
    rw [after, conn_track]
  refine ⟨i, seq, flags, syn, ?_, ?_⟩
  · rw [hconn, after]
    exact htrying
  · rw [hconn, sent]
    rfl

/-- A connection that the application opens. -/
theorem sendsSyn_of_connect {localPort remotePort : UInt16} {remote : Ipv4Address}
    (agrees : Side.Agrees role (m.side role))
    (policy : m.policy.retries = p.retries ∧ m.policy.timeout = p.timeout)
    (closed : (m.conn role).state = .closed)
    (tracked : 0 < (m.after (.connect role localPort remotePort remote true)).pool.countOf role) :
    m.SendsSyn p role (.connect role localPort remotePort remote true) := by
  have hidle : (m.conn role).state.isAging = false := by rw [closed]; rfl
  have hempty := slotOf_eq_none_of_idle agrees hidle
  obtain ⟨step, hstep, -⟩ := opens_connect localPort remotePort remote none closed
  have hafter : m.after (.connect role localPort remotePort remote true) = step.machine := by
    simp only [after, hstep, if_true]
  have hsent : m.sentBy role (.connect role localPort remotePort remote true) =
      step.out.toList := by
    simp only [sentBy, hstep, if_true]
  unfold connect at hstep
  rw [if_neg (not_not.mpr closed)] at hstep
  cases hstep
  refine sendsSyn_of_track hafter ?_ (by decide) ?_ ?_ ?_ tracked
  · rw [hsent, conn_setConn_self]
    rfl
  · rw [conn_setConn_self]
    rfl
  · rwa [policy_setConn]
  · simpa using hempty

/-- A connection that the peer opens. -/
theorem sendsSyn_of_accept {s : Segment} {payload : Bytes} {remote : Ipv4Address}
    (policy : m.policy.retries = p.retries ∧ m.policy.timeout = p.timeout)
    (responder : m.responder? s remote = some .server)
    (accepted : m.receive s remote = (m.mixIn s).acceptSyn s remote)
    (tracked : 0 < (m.after (.receive s payload remote)).pool.countOf .server) :
    m.SendsSyn p .server (.receive s payload remote) := by
  have hafter : m.after (.receive s payload remote) =
      ((m.mixIn s).acceptSyn s remote).machine := congrArg (·.machine) accepted
  have hsent : m.sentBy .server (.receive s payload remote) =
      ((m.mixIn s).acceptSyn s remote).out.toList := by
    simp only [sentBy, if_pos responder, accepted]
  rw [← policy_mixIn m s] at policy
  exact sendsSyn_of_track hafter hsent (by decide) rfl policy
    (congrFun (Pool.slotOf_forget_self _ _)) tracked

/-- What a role hears has arrived, and the role takes it. -/
theorem eq_receive_of_heard {s : Segment} (heard : s ∈ m.heardBy role op) :
    ∃ payload remote, op = .receive s payload remote ∧ m.responder? s remote = some role := by
  cases op with
  | receive s' payload remote =>
    simp only [heardBy] at heard
    split at heard
    · cases heard
      exact ⟨payload, remote, rfl, ‹_›⟩
    · cases heard
  | _ => cases heard

/-- **An operation that opens a connection sends a SYN, and leaves it to its retries**, if it has
found a place. -/
theorem sendsSyn_of_opened (agrees : Side.Agrees role (m.side role))
    (policy : m.policy.retries = p.retries ∧ m.policy.timeout = p.timeout)
    (before : (m.conn role).state.isOpening = false)
    (opening : ((m.after op).conn role).state.isOpening)
    (tracked : 0 < (m.after op).pool.countOf role) : m.SendsSyn p role op := by
  have htransition := transition_after m role op
  generalize hnext : ((m.after op).conn role).state = next at htransition opening
  cases htransition with
  | connect localPort remotePort remote called closed =>
    subst called
    exact sendsSyn_of_connect agrees policy closed tracked
  | accept s heard server idle syn =>
    subst server
    obtain ⟨payload, remote, rfl, responder⟩ := eq_receive_of_heard heard
    rcases receive_cases m s remote with ⟨r, hr, -, result⟩ | ⟨-, -, -, result⟩ | ⟨hr, -, -⟩
    · -- A segment of a connection opens none.
      obtain rfl : r = .server := Option.some.inj (hr.symm.trans responder)
      have hturns := turns_receiveFor (m.mixIn s) .server s
      rw [conn_mixIn, ← result] at hturns
      have hopening := isOpening_of_turns hturns (congrArg State.isOpening hnext)
      rw [before] at hopening
      cases hopening
    · exact sendsSyn_of_accept policy responder result tracked
    · rw [responder] at hr
      cases hr
  | stay =>
    rw [before] at opening
    cases opening
  | turn s _ _ turns =>
    rw [isOpening_of_turns turns opening] at before
    cases before
  | listen | abort | gaveUp => cases opening
  | close | reaped =>
    -- Neither leads to a state in which a connection opens.
    exfalso
    revert before opening
    cases (m.conn role).state <;> decide

end Machine

end NetEngine.Tcp
