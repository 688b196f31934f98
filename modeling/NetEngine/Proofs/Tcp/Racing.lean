import NetEngine.Proofs.Slots
import NetEngine.Proofs.Tcp.Outlasting

/-! # Retries Against the Reaper

    An open connection with unacknowledged data ends by retries if its segments
    never wait longer than it may be idle.  Here is the converse.

    * **In step**: where one segment is tracked, and nothing else is in the pool,
      both countdowns are set when the segment is resent, and run down together.
    * **Waiting**: after each round the wait and the idle time are both not over,
      as long as the connection is open.  So where the segment uses up its
      retries, the idle time has room for its last wait.

    Such a connection can come about whatever has been set, so that the longest
    wait decides who wins. -/

namespace NetEngine.Tcp.Machine

variable {p : Policy} {m m' start : Machine} {role : Role} {i : Nat} {t : Tracked}
  {ops later : List Operation}

/-! ## In step -/

/-- One segment is tracked, for an open connection, and the wait for it and the age of the
connection have run down by the same time. -/
structure InStep (p : Policy) (m : Machine) (role : Role) (i : Nat) (t : Tracked) : Prop where
  slot : m.pool.get? i = some t
  owner : t.role = role
  alone : ∀ j, j ≠ i → m.pool.get? j = none
  other : ∀ r, r ≠ role → (m.conn r).state.isAging = false
  established : (m.conn role).state = .established
  inStep : (m.conn role).age.toNat + (t.wait p).toNat = p.maxAge.toNat + t.timeout.toNat

/-- Neither the wait nor the idle time is over. -/
structure Waiting (p : Policy) (m : Machine) (role : Role) (i : Nat) (t : Tracked) : Prop
    extends InStep p m role i t where
  waits : t.timeout ≠ 0
  busy : (m.conn role).age ≠ 0

theorem Waiting.tick (h : Waiting p m role i t) :
    InStep p m.tick role i { t with timeout := Countdown.tick t.timeout } where
  slot := by
    show Slots.get? (Pool.tick m.pool) i = _
    rw [Pool.get?_tick, h.slot]
    rfl
  owner := h.owner
  alone j hj := by
    show Slots.get? (Pool.tick m.pool) j = _
    rw [Pool.get?_tick, h.alone j hj]
    rfl
  other r hr := (run_tick m r).preserves Side.idle_of_move (h.other r hr)
  established := (survives_tick h.established).1
  inStep := by
    have hpace := h.inStep
    have hwaits := Countdown.toNat_ne_zero h.waits
    have hbusy := Countdown.toNat_ne_zero h.busy
    rw [conn_tick_of_aging (by rw [h.established]; rfl)]
    show (Countdown.tick (m.conn role).age).toNat + (t.wait p).toNat =
      p.maxAge.toNat + (Countdown.tick t.timeout).toNat
    rw [Countdown.toNat_tick, Countdown.toNat_tick]
    omega

/-! ## A round -/

/-- Empty slots are left alone. -/
theorem resendSlots_of_none {slots : List Nat} (none : ∀ j ∈ slots, m.pool.get? j = none) :
    (steps resend m slots).1 = m := by
  induction slots with
  | nil => rfl
  | cons j slots ih =>
    have hfirst : (m.resend j).machine = m := by
      rw [resend_of_roleAt_none (by rw [roleAt, none j List.mem_cons_self]; rfl)]
    show (steps resend (m.resend j).machine slots).1 = m
    rw [hfirst]
    exact ih fun k hk => none k (List.mem_cons_of_mem j hk)

/-- Where one slot is in use, it alone is looked at. -/
theorem resendDue_of_alone (lt : i < poolSize) (alone : ∀ j, j ≠ i → m.pool.get? j = none) :
    m.resendDue.1 = (m.resend i).machine := by
  obtain ⟨behind, hrange, hbehind⟩ := exists_range_eq lt
  have hfront : (steps resend m (List.range i)).1 = m :=
    resendSlots_of_none fun j hj => alone j (List.mem_range.mp hj).ne
  unfold resendDue
  rw [hrange, steps_append, hfront]
  show (steps resend (m.resend i).machine behind).1 = _
  refine resendSlots_of_none fun j hj => ?_
  have hji : j ≠ i := ne_of_mem_of_not_mem hj hbehind
  by_contra hsome
  obtain ⟨t, ht⟩ := Option.ne_none_iff_exists'.mp hsome
  have hold := get?_of_get?_resend hji.symm ht
  rw [alone j hji] at hold
  cases hold

/-- Where no connection is idle, none is reaped. -/
theorem reapIdle_of_busy (busy : ∀ r, m.isIdle r = false) : m.reapIdle.1 = m := by
  have hreap (r : Role) : (m.reap r).machine = m := by
    unfold reap
    rw [if_neg (by rw [busy r]; decide)]
  show ((m.reap .client).machine.reap .server).machine = m
  rw [hreap, hreap]

/-- A connection that is still open when the idle ones have been reaped was not idle. -/
theorem InStep.reapIdle (h : InStep p m role i t) (waits : t.timeout ≠ 0)
    (open_ : (m.reapIdle.1.conn role).state = .established) : Waiting p m.reapIdle.1 role i t := by
  have hidle : m.isIdle role = false := by
    by_contra hidle
    rw [state_reapIdle, if_pos (eq_true_of_ne_false hidle), h.established] at open_
    cases open_
  have hbusy (r : Role) : m.isIdle r = false := by
    by_cases hr : r = role
    · rw [hr]
      exact hidle
    · unfold isIdle
      simp [h.other r hr]
  rw [reapIdle_of_busy hbusy]
  refine ⟨h, waits, fun hzero => ?_⟩
  unfold isIdle at hidle
  dsimp only at hidle
  rw [h.established, hzero] at hidle
  cases hidle

/-- **Both countdowns are set when the segment is resent**, if the connection is still open when what
is due has been done. -/
theorem InStep.upkeep (h : InStep p m role i t) (timely : Timely p m) (timeout : 1 ≤ p.timeout)
    (open_ : ((m.after .upkeep).conn role).state = .established) :
    ∃ t', Waiting p (m.after .upkeep) role i t' := by
  rw [after_upkeep, resendDue_of_alone (Slots.lt_of_get? h.slot) h.alone] at open_ ⊢
  have hresent := resent_resend m i
  generalize (m.resend i).machine = m' at hresent open_ ⊢
  cases hresent with
  | idle waits => exact ⟨t, h.reapIdle (waits t h.slot) open_⟩
  | gaveUp u slot =>
    obtain rfl : u = t := Option.some.inj (slot.symm.trans h.slot)
    rw [state_reapIdle, conn_giveUp, h.owner, state_reset] at open_
    split at open_ <;> cases open_
  | renewed u slot due left =>
    obtain rfl : u = t := Option.some.inj (slot.symm.trans h.slot)
    have hlt := Slots.lt_of_get? slot
    have hrenewed : InStep p (m.renew i u) role i (u.renewed p) := by
      refine ⟨?_, h.owner, fun j hj => ?_, fun r hr => ?_, ?_, ?_⟩
      · rw [pool_renew, Slots.get?_put_self _ hlt, timely.renewed_eq]
      · rw [pool_renew, Slots.get?_put_of_ne _ hj.symm]
        exact h.alone j hj
      · rw [state_renew]
        exact h.other r hr
      · rw [state_renew]
        exact h.established
      · rw [conn_renew, if_pos h.owner.symm, Tracked.timeout_renewed]
        show m.policy.maxAge.toNat + _ = _
        rw [timely.policy]
    have hwaits : (u.renewed p).timeout ≠ 0 := by
      rw [Tracked.timeout_renewed]
      exact Tracked.wait_ne_zero timeout _
    exact ⟨u.renewed p, hrenewed.reapIdle hwaits open_⟩

/-! ## Rounds -/

/-- Seconds, each with what is due after it. -/
def rounds : Nat → List Operation
  | 0 => []
  | n + 1 => .tick :: .upkeep :: rounds n

theorem attended_rounds (n : Nat) : Attended (rounds n) := by
  induction n with
  | zero => exact .nil
  | succ n ih => exact .second ih

theorem run_rounds (n : Nat) (m : Machine) : m.run (rounds n) = round^[n] m := by
  induction n generalizing m with
  | zero => rfl
  | succ n ih =>
    rw [rounds, run_cons, run_cons, ih]
    exact (Function.iterate_succ_apply round n m).symm

/-- What is due is done after a second. -/
theorem eq_rounds_of_upkeep {n : Nat} {done rest : List Operation}
    (h : rounds n = done ++ .upkeep :: rest) : ∃ k, done = rounds k ++ [.tick] := by
  induction n generalizing done with
  | zero => simp [rounds] at h
  | succ n ih =>
    match done with
    | [] => cases h
    | [op] =>
      cases h
      exact ⟨0, rfl⟩
    | op :: op' :: done =>
      simp only [rounds, List.cons_append, List.cons.injEq] at h
      obtain ⟨rfl, rfl, hrest⟩ := h
      obtain ⟨k, rfl⟩ := ih hrest
      exact ⟨k + 1, rfl⟩

/-- The countdowns go in step as long as the connection is open. -/
theorem Waiting.stays (h : Waiting p m role i t) (timely : Timely p m) (timeout : 1 ≤ p.timeout)
    {k : Nat}
    (open_ : ∀ done, done <+: rounds k → ((m.run done).conn role).state = .established) :
    ∃ t', Waiting p (m.run (rounds k)) role i t' := by
  induction k generalizing m t with
  | zero => exact ⟨t, h⟩
  | succ k ih =>
    have hround (done : List Operation) (hdone : done <+: Machine.rounds k) :
        ((((m.after .tick).after .upkeep).run done).conn role).state = .established := by
      rw [← run_cons, ← run_cons]
      exact open_ _ (List.cons_prefix_cons.mpr ⟨rfl, List.cons_prefix_cons.mpr ⟨rfl, hdone⟩⟩)
    have hopen := hround [] List.nil_prefix
    rw [run_nil] at hopen
    obtain ⟨t', ht'⟩ := h.tick.upkeep timely.tick timeout hopen
    rw [Machine.rounds, run_cons, run_cons]
    exact ih ht' ((timely.after .tick).after .upkeep) hround

/-- **A connection with one segment that ends by retries has the time for the longest wait.** -/
theorem lastWait_le (h : Waiting p (start.run ops) role i t) (timely : Timely p (start.run ops))
    (timeout : 1 ≤ p.timeout) (ends : start.EndsByRetries ops role) : p.lastWait ≤ p.maxAge := by
  rcases ends (rounds p.patience) (attended_rounds _) with hkeeps |
    ⟨done, rest, hsplit, hkeeps, ⟨j, u, slot, howner, hdue, hspent, -⟩, -⟩
  · -- Nothing lasts that long.
    have hopen := (hkeeps _ (List.prefix_refl _)).1
    have hidle := not_aging_of_patience timely role 0
    rw [Nat.add_zero, ← run_rounds, hopen] at hidle
    cases hidle
  · obtain ⟨k, rfl⟩ := eq_rounds_of_upkeep hsplit
    obtain ⟨v, hv⟩ := h.stays timely timeout fun done hdone =>
      (hkeeps done (hdone.trans (List.prefix_append _ _))).1
    have hlast : start.run (ops ++ (rounds k ++ [.tick])) =
        ((start.run ops).run (rounds k)).tick := by
      rw [run_append, run_append]
      rfl
    rw [hlast] at slot
    -- The wait of the only segment is over just now, and the idle time is not.
    obtain rfl : j = i := by
      by_contra hji
      rw [hv.tick.alone j hji] at slot
      cases slot
    obtain rfl := Option.some.inj (slot.symm.trans hv.tick.slot)
    have hpace := hv.inStep
    have hbusy := Countdown.toNat_ne_zero hv.busy
    have hwait : v.wait p = p.lastWait := by
      unfold Tracked.wait Policy.lastWait
      rw [show v.retries = 0 from hspent]
      simp
    have hover : v.timeout.toNat ≤ 1 := by
      have hzero := congrArg UInt8.toNat hdue
      change (Countdown.tick v.timeout).toNat = 0 at hzero
      rw [Countdown.toNat_tick] at hzero
      omega
    rw [hwait] at hpace
    rw [UInt8.le_iff_toNat_le]
    omega

/-! ## An octet under way -/

/-- When the peer answers our SYN, the connection takes up its whole idle time, and nothing is tracked
for it any more. -/
theorem answered_receiveFor {s : Segment} (opening : (m.conn role).state = .synSent)
    (noReset : s.flags.rst = false) (answers : answersSyn (m.conn role) s) :
    ((m.receiveFor role s).machine.conn role).state = .established ∧
      ((m.receiveFor role s).machine.conn role).age = m.policy.maxAge ∧
      ∀ j t, (m.receiveFor role s).machine.pool.get? j = some t →
        m.pool.get? j = some t ∧ t.role ≠ role := by
  let heeded := (m.rejuvenate role).takeAck role s
  let ready := (heeded.setConn role (Side.answered (heeded.conn role) s)).forget role
  obtain ⟨age, lastAcked, window, hconn⟩ := conn_heeded m role s
  have hready : (m.receiveFor role s).machine = ready.rejuvenate role := by
    have hstate : (heeded.conn role).state = .synSent := by
      rw [hconn]
      exact opening
    have hanswers : answersSyn (heeded.conn role) s = true := by
      rw [hconn]
      exact answers
    unfold receiveFor receiveInState
    dsimp only
    rw [noReset, if_neg (by decide), hstate]
    dsimp only
    rw [if_pos hanswers]
    rfl
  have hpolicy : heeded.policy = m.policy ∧
      ∀ j t, heeded.pool.get? j = some t → m.pool.get? j = some t := by
    unfold heeded takeAck rejuvenate
    dsimp only
    split
    · exact ⟨by simp, fun j t slot => by simpa using Pool.get?_of_get?_forgetCovered slot⟩
    · exact ⟨by simp, fun j t slot => by simpa using slot⟩
  rw [hready]
  refine ⟨?_, ?_, fun j t slot => ?_⟩
  · rw [state_rejuvenate, conn_forget, conn_setConn_self]
    rfl
  · unfold rejuvenate
    rw [conn_setConn_self, ← hpolicy.1]
    exact congrArg (·.maxAge) (policy_setConn heeded role _)
  · unfold rejuvenate at slot
    rw [pool_setConn] at slot
    obtain ⟨hslot, hrole⟩ := Pool.get?_forget_eq_some.mp slot
    rw [pool_setConn] at hslot
    exact ⟨hpolicy.2 j t hslot, hrole⟩

/-- A segment that is not for the server port is taken by its owner. -/
theorem receive_of_owner {s : Segment} {remote : Ipv4Address}
    (port : s.dstPort ≠ m.policy.serverPort) (owner : m.owner? s remote = some role) :
    m.receive s remote = (m.mixIn s).receiveFor role s := by
  have hport : s.dstPort ≠ (m.mixIn s).policy.serverPort := by
    rw [policy_mixIn]
    exact port
  unfold receive receiveMixed receiveOwned
  dsimp only
  rw [if_pos hport, owner?_mixIn, owner]

/-- We connect to a host, which answers. -/
theorem exists_established (p : Policy) (seed : UInt32) :
    ∃ ops, (((fresh p seed).run ops).conn .client).state = .established ∧
      (((fresh p seed).run ops).conn .client).age = p.maxAge ∧
      (((fresh p seed).run ops).conn .server).state.isAging = false ∧
      ∀ j, ((fresh p seed).run ops).pool.get? j = none := by
  let peer : Ipv4Address := ⟨10, 0, 0, 2⟩
  let seq := (fresh p seed).client.lastSent + 1
  let answer : Segment := ⟨7, 4000, ⟨100⟩, seq + 1, .SYN ||| .ACK, 1024, none, 0⟩
  let opening := (fresh p seed).run [.listen 80, .connect .client 4000 7 peer true]
  let mixed := opening.mixIn answer
  have hclient : mixed.conn .client =
      Side.opening (fresh p seed).client 4000 7 peer seq p.maxAge := conn_mixIn opening answer .client
  have howner : opening.owner? answer peer = some .client := by
    rw [← owner?_mixIn opening answer]
    unfold owner? Role.all
    rw [List.find?_cons_of_pos]
    rw [hclient]
    simp [Connection.owns, Side.opening, answer]
  have hanswers : answersSyn (mixed.conn .client) answer = true := by
    rw [hclient]
    simp [answersSyn, Side.opening, answer]
    decide
  have hstate : (mixed.conn .client).state = .synSent := by rw [hclient]; rfl
  have hreset : answer.flags.rst = false := show (Flags.SYN ||| Flags.ACK).rst = false by decide
  obtain ⟨hopen, hage, hpool⟩ := answered_receiveFor hstate hreset hanswers
  refine ⟨[.listen 80, .connect .client 4000 7 peer true, .receive answer [] peer], ?_⟩
  have hrun : (fresh p seed).run
      [.listen 80, .connect .client 4000 7 peer true, .receive answer [] peer] =
      (mixed.receiveFor .client answer).machine :=
    congrArg (·.machine)
      (receive_of_owner (show (4000 : UInt16) ≠ 80 by decide) howner)
  rw [hrun]
  refine ⟨hopen, ?_, ?_, fun j => ?_⟩
  · rw [hage, policy_mixIn]
    rfl
  · have hserver := (reacts_receiveFor mixed .client answer).other .server (by decide)
    have hconn := congrArg Side.conn hserver
    change (mixed.receiveFor .client answer).machine.conn .server = mixed.conn .server at hconn
    rw [hconn, conn_mixIn]
    rfl
  · -- Only our SYN has been tracked.
    by_contra hsome
    obtain ⟨t, ht⟩ := Option.ne_none_iff_exists'.mp hsome
    obtain ⟨hslot, hrole⟩ := hpool j t ht
    rw [pool_mixIn] at hslot
    rcases get?_of_get?_track (m := (fresh p seed).setConn .client _) hslot with hold | rfl
    · rw [pool_setConn] at hold
      change Pool.empty.get? j = some t at hold
      rw [Pool.get?_empty] at hold
      cases hold
    · exact hrole rfl

/-- A segment that is tracked while the pool is empty has it for itself. -/
theorem get?_track_of_empty (empty : ∀ j, m.pool.get? j = none) (role : Role) (seq : SeqNumber)
    (len : Nat) (kept : Kept) :
    ∃ i, (m.track role seq len kept).pool.get? i =
        some (.track role seq len kept m.policy.retries m.policy.timeout) ∧
      ∀ j, j ≠ i → (m.track role seq len kept).pool.get? j = none := by
  unfold track
  cases hinsert : m.pool.insert? (.track role seq len kept m.policy.retries m.policy.timeout) with
  | none =>
    have hnone : m.pool.toList = [] := by
      refine List.eq_nil_iff_forall_not_mem.mpr fun t ht => ?_
      obtain ⟨j, hj⟩ := (Slots.mem_toList _ _).mp ht
      rw [empty j] at hj
      cases hj
    have hfull := (Slots.insert?_eq_none_iff _ _).mp hinsert
    unfold Slots.size at hfull
    rw [hnone] at hfull
    cases hfull
  | some placed =>
    obtain ⟨i, hfree, rfl⟩ := Option.map_eq_some_iff.mp hinsert
    obtain ⟨hi, -, -⟩ := List.findIdx?_eq_some_iff_getElem.mp hfree
    rw [m.pool.length_cells] at hi
    refine ⟨i, Slots.get?_put_self _ hi _, fun j hj => ?_⟩
    exact (Slots.get?_put_of_ne _ hj.symm _).trans (empty j)

theorem pieces_one {size : Nat} (pos : 0 < size) : pieces size 0 1 = [⟨0, 1⟩] := by
  have hmin : min 1 size = 1 := by omega
  unfold pieces
  rw [if_neg (by omega), hmin]
  unfold pieces
  simp

/-- An octet of data is under way, and nothing else. -/
theorem exists_waiting (timeout : 1 ≤ p.timeout) (maxAge : 1 ≤ p.maxAge) (seed : UInt32) :
    ∃ ops i t, Waiting p ((fresh p seed).run ops) .client i t ∧ t.kept.isData := by
  obtain ⟨ops, hopen, hage, hserver, hempty⟩ := exists_established p seed
  let m := (fresh p seed).run ops
  have hpolicy := (timely_run p seed ops).policy
  let c := m.conn .client
  let sent := m.setConn .client { c with age := m.policy.maxAge, lastSent := c.lastSent + 1 }
  let source : Source := .lent (.ofBytes [1])
  let kept : Kept := .ofSource source (c.segment c.lastSent .ACK 1) 0
  have hsend : (fresh p seed).run (ops ++ [.send .client source true 1]) =
      sent.track .client c.lastSent 1 kept := by
    rw [run_append]
    show (m.sendPieces .client source true (m.attempted .client source 1)).1 = _
    unfold attempted
    rw [if_pos hopen, show source.size = 1 from rfl, pieces_one (Connection.segmentSize_pos _)]
    rfl
  have hsent : sent.policy = m.policy := policy_setConn m .client _
  obtain ⟨i, hslot, halone⟩ := get?_track_of_empty (m := sent)
    (fun j => by rw [pool_setConn]; exact hempty j) .client c.lastSent 1 kept
  rw [hsent, hpolicy] at hslot
  refine ⟨ops ++ [.send .client source true 1], i,
    .track .client c.lastSent 1 kept p.retries p.timeout, ?_, rfl⟩
  rw [hsend]
  have hconn (r : Role) : (sent.track .client c.lastSent 1 kept).conn r = sent.conn r :=
    conn_track _ _ _ _ _ _
  have hclient : sent.conn .client = { c with age := p.maxAge, lastSent := c.lastSent + 1 } := by
    rw [conn_setConn_self, hpolicy]
  refine ⟨⟨hslot, rfl, halone, fun r hr => ?_, ?_, ?_⟩, Countdown.ne_zero_of_one_le timeout, ?_⟩
  · obtain rfl : r = .server := by cases r <;> first | rfl | exact absurd rfl hr
    rw [hconn, conn_setConn_of_ne _ _ hr]
    exact hserver
  · rw [hconn, hclient]
    exact hopen
  · have hfirst : (Tracked.wait p (.track .client c.lastSent 1 kept p.retries p.timeout)).toNat =
        p.timeout.toNat := by
      unfold Tracked.wait
      rw [toNat_backoff]
      have hlt := p.timeout.toNat_lt
      simp [Tracked.track]
      omega
    rw [hconn, hclient, hfirst]
    rfl
  · rw [hconn, hclient]
    exact Countdown.ne_zero_of_one_le maxAge

/-! ## The race -/

/-- **Every open connection with unacknowledged data ends by retries exactly if the longest wait is no
longer than the idle time.** -/
theorem endsByRetries_iff (p : Policy) (timeout : 1 ≤ p.timeout) (maxAge : 1 ≤ p.maxAge) :
    (∀ seed ops role, (((fresh p seed).run ops).conn role).state = .established →
        (∃ t ∈ ((fresh p seed).run ops).trackedFor role, t.kept.isData) →
        EndsByRetries (fresh p seed) ops role) ↔
      backoff p.timeout p.retries ≤ p.maxAge := by
  constructor
  · intro ends
    obtain ⟨ops, i, t, hwaiting, hdata⟩ := exists_waiting timeout maxAge 1
    have htracked : t ∈ ((fresh p 1).run ops).trackedFor .client := by
      refine List.mem_filter.mpr ⟨(Slots.mem_toList _ _).mpr ⟨i, hwaiting.slot⟩, ?_⟩
      exact decide_eq_true hwaiting.owner
    exact lastWait_le hwaiting (timely_run p 1 ops) timeout
      (ends 1 ops .client hwaiting.established ⟨t, htracked, hdata⟩)
  · rintro last seed ops role hopen ⟨t, htracked, -⟩
    obtain ⟨hmem, hrole⟩ := List.mem_filter.mp htracked
    obtain ⟨i, hslot⟩ := (Slots.mem_toList _ _).mp hmem
    exact endsByRetries_of_lastWait timeout last seed ops hopen
      ⟨t, hslot, of_decide_eq_true hrole, rfl⟩

/-- An octet of data is under way on a connection to a host, and nothing else is tracked. -/
def oneOctet (p : Policy) : List Operation :=
  let peer : Ipv4Address := ⟨10, 0, 0, 2⟩
  let answer : Segment :=
    ⟨7, 4000, ⟨100⟩, (fresh p 1).client.lastSent + 2, .SYN ||| .ACK, 1024, none, 0⟩
  [.connect .client 4000 7 peer true, .receive answer [] peer,
    .send .client (.lent (.ofBytes [1])) true 1]

/-- With eight seconds of idle time for three retries, the last wait is not too long. -/
theorem endsByRetries_oneOctet :
    let p : Policy := ⟨80, 3, 1, 8, true⟩
    1 ≤ p.timeout ∧ 1 ≤ p.maxAge ∧
      (((fresh p 1).run (oneOctet p)).conn .client).state = .established ∧
      (∃ t ∈ ((fresh p 1).run (oneOctet p)).trackedFor .client, t.kept.isData) ∧
      EndsByRetries (fresh p 1) (oneOctet p) .client := by
  intro p
  have hopen : (((fresh p 1).run (oneOctet p)).conn .client).state = .established := by
    decide +kernel
  have hdata : ∃ t ∈ ((fresh p 1).run (oneOctet p)).trackedFor .client, t.kept.isData := by
    decide +kernel
  have hlast : backoff p.timeout p.retries ≤ p.maxAge := by decide
  exact ⟨by decide, by decide, hopen, hdata,
    (endsByRetries_iff p (by decide) (by decide)).mpr hlast 1 (oneOctet p) .client hopen hdata⟩

/-- With five seconds of idle time for three retries, the reaper is faster: after twelve seconds it
closes the connection and forgets the data, three seconds before the last wait is over. -/
theorem not_endsByRetries_oneOctet :
    let p : Policy := ⟨80, 3, 1, 5, true⟩
    let m := (fresh p 1).run (oneOctet p)
    1 ≤ p.timeout ∧ 1 ≤ p.maxAge ∧ (m.conn .client).state = .established ∧
      (∃ t ∈ m.trackedFor .client, t.kept.isData) ∧
      ¬ EndsByRetries (fresh p 1) (oneOctet p) .client ∧
      ((m.run (rounds 12)).conn .client).state = .finWait1 ∧
      (∀ t ∈ (m.run (rounds 12)).trackedFor .client, t.kept.isData = false) ∧
      (m.run (rounds 12)).counts.reaped = 1 ∧ (m.run (rounds 12)).counts.failed = 0 := by
  intro p m
  have hopen : (m.conn .client).state = .established := by decide +kernel
  have hdata : ∃ t ∈ m.trackedFor .client, t.kept.isData := by decide +kernel
  have hend : ((m.run (rounds 12)).conn .client).state = .finWait1 := by decide +kernel
  have hnever : ∀ k ≤ 24, ((m.run ((rounds 12).take k)).conn .client).state ≠ .closed := by
    decide +kernel
  refine ⟨by decide, by decide, hopen, hdata, fun ends => ?_, hend, by decide +kernel,
    by decide +kernel, by decide +kernel⟩
  rcases ends (rounds 12) (attended_rounds 12) with hkeeps | ⟨done, rest, hsplit, -, -, hgives, -⟩
  · have hkept := (hkeeps _ (List.prefix_refl _)).1
    rw [hend] at hkept
    cases hkept
  · -- The connection is never closed.
    have htaken : (rounds 12).take (done.length + 1) = done ++ [.upkeep] := by
      rw [hsplit, List.take_append, List.take_of_length_le (Nat.le_succ _), Nat.add_sub_cancel_left]
      rfl
    have hlength : done.length + 1 ≤ 24 := by
      have hcount := congrArg List.length hsplit
      rw [List.length_append, List.length_cons, show (rounds 12).length = 24 from rfl] at hcount
      omega
    have hopen' := hnever (done.length + 1) hlength
    rw [htaken, run_append] at hopen'
    rw [run_append] at hgives
    exact hopen' hgives

end NetEngine.Tcp.Machine
