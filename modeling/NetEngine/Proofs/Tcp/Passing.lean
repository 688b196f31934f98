import NetEngine.Proofs.Tcp.Outlasting

/-! # A Pass over the Slots

    What is due is found by a **search**: the first slot that is due has its turn,
    and the search goes on behind it.  Meanwhile the pool changes: a segment that
    is given up takes others with it, and one that is resent may be due again at
    once.

    * **Turn**: a segment has its turn if it is due when the pass begins, and its
      connection has not been given up when the pass comes to its slot.  This is
      told by the pool as it is when the pass begins.
    * **Passed**: what a pass has made of the machine when it comes to a slot.
    * **Exact**: the search ends, and what it does is told by the turns: what is
      sent, what stands in each slot, and what is counted. -/

namespace NetEngine.Tcp

/-! ## Turns -/

namespace Pool

variable {p : Pool} {policy : Policy} {role : Role} {i n : Nat} {t : Tracked}

/-- Does slot `i` hold a segment of the role that is due and has no retry left? -/
def isSpent (p : Pool) (role : Role) (i : Nat) : Bool :=
  (p.get? i).any fun t => t.role = role && t.timeout = 0 && t.retries = 0

/-- Is the connection of the role given up for a segment in one of the slots in front of slot `n`? -/
def isLost (p : Pool) (role : Role) (n : Nat) : Bool := (List.range n).any (p.isSpent role)

/-- The segment in slot `i` if it has its turn: it is due, and its connection is not given up
before. -/
def turn? (p : Pool) (i : Nat) : Option Tracked :=
  (p.get? i).filter fun t => t.timeout = 0 && !p.isLost t.role i

/-- What stands in slot `i` when all slots in front of slot `n` have had their turn. -/
def passed (p : Pool) (policy : Policy) (n i : Nat) : Option Tracked :=
  (p.get? i).bind fun t =>
    if p.isLost t.role n then none
    else if i < n ∧ t.timeout = 0 then some (t.renewed policy)
    else some t

theorem turn?_eq_some : p.turn? i = some t ↔
    p.get? i = some t ∧ t.timeout = 0 ∧ p.isLost t.role i = false := by
  simp [turn?, Option.filter_eq_some_iff]

/-- A connection is given up in a turn. -/
theorem isLost_succ (p : Pool) (role : Role) (n : Nat) :
    p.isLost role (n + 1) =
      (p.isLost role n || (p.turn? n).any fun t => t.role = role && t.retries = 0) := by
  have hstep : p.isLost role (n + 1) = (p.isLost role n || p.isSpent role n) := by
    simp [isLost, List.range_succ]
  rw [hstep]
  unfold isSpent turn?
  cases hslot : p.get? n with
  | none => simp
  | some t =>
    by_cases hrole : t.role = role
    · subst hrole
      cases hlost : p.isLost t.role n <;> by_cases hdue : t.timeout = 0 <;>
        simp [Option.filter_some, hlost, hdue]
    · cases hlost : p.isLost t.role n <;> by_cases hdue : t.timeout = 0 <;>
        simp [Option.filter_some, hlost, hrole, hdue]

/-- In front of a slot nothing has been done to it, but for its connection. -/
theorem passed_self : p.passed policy i i = some t ↔
    p.get? i = some t ∧ p.isLost t.role i = false := by
  unfold passed
  cases hslot : p.get? i with
  | none => simp
  | some u =>
    cases hlost : p.isLost u.role i <;> simp [hlost] <;> rintro rfl <;> simp [hlost]

/-- Where no segment has its turn nothing changes. -/
theorem passed_succ_of_none (turn : p.turn? n = none) (i : Nat) :
    p.passed policy (n + 1) i = p.passed policy n i := by
  unfold passed
  cases hslot : p.get? i with
  | none => rfl
  | some t =>
    simp only [Option.bind_some, isLost_succ, turn, Option.any_none, Bool.or_false]
    by_cases hi : i = n
    · -- The slot waits, or its connection has been given up.
      subst hi
      simp only [turn?, hslot, Option.filter_some, ite_eq_right_iff, reduceCtorEq, imp_false] at turn
      cases hlost : p.isLost t.role i
      · have hwaits : t.timeout ≠ 0 := by simpa [hlost] using turn
        simp [hwaits]
      · simp
    · have hlt : i < n + 1 ↔ i < n := by omega
      simp only [hlt]

/-- A segment that is given up takes all of its connection with it. -/
theorem passed_succ_of_spent (turn : p.turn? n = some t) (spent : t.retries = 0) (i : Nat) :
    p.passed policy (n + 1) i = (p.passed policy n i).filter (·.role ≠ t.role) := by
  obtain ⟨hturn, hdue, hlost⟩ := turn?_eq_some.mp turn
  unfold passed
  cases hslot : p.get? i with
  | none => rfl
  | some u =>
    simp only [Option.bind_some, isLost_succ, turn, Option.any_some]
    by_cases hrole : t.role = u.role
    · -- What is lost is lost together.
      rw [if_pos (by simp [hrole, spent])]
      by_cases hbefore : p.isLost u.role n = true
      · simp [hbefore]
      · simp only [hbefore, Bool.false_eq_true, if_false]
        split <;> simp [Option.filter_some, hrole, Tracked.renewed]
    · have hi : i ≠ n := by
        rintro rfl
        rw [hturn] at hslot
        exact hrole (congrArg Tracked.role (Option.some.inj hslot))
      have hlt : i < n + 1 ↔ i < n := by omega
      simp only [hrole, decide_false, Bool.false_and, Bool.or_false, hlt]
      split
      · rfl
      · split <;> simp [Option.filter_some, Ne.symm hrole, Tracked.renewed]

/-- A segment that is resent is renewed in its slot. -/
theorem passed_succ_of_left (turn : p.turn? n = some t) (left : t.retries ≠ 0) (i : Nat) :
    p.passed policy (n + 1) i =
      if i = n then some (t.renewed policy) else p.passed policy n i := by
  obtain ⟨hturn, hdue, hlost⟩ := turn?_eq_some.mp turn
  have hkept (role : Role) : p.isLost role (n + 1) = p.isLost role n := by
    simp [isLost_succ, turn, left]
  unfold passed
  by_cases hi : i = n
  · subst hi
    simp [hturn, hkept, hlost, hdue]
  · have hlt : i < n + 1 ↔ i < n := by omega
    simp only [hkept, hlt, if_neg hi]

end Pool

namespace Machine

variable {m m' : Machine} {role : Role} {i n : Nat} {t : Tracked}

/-- The segments in front of slot `n` that have their turn, in slot order. -/
def turns (m : Machine) (n : Nat) : List Tracked := (List.range n).filterMap m.pool.turn?

theorem turns_succ (m : Machine) (n : Nat) :
    m.turns (n + 1) = m.turns n ++ (m.pool.turn? n).toList := by
  unfold turns
  rw [List.range_succ, List.filterMap_append]
  cases hturn : m.pool.turn? n <;> simp [hturn]

/-! ## What has been passed -/

/-- What a pass that begins at `m` has made of the machine when it comes to slot `n`. -/
structure Passed (m : Machine) (n : Nat) (m' : Machine) : Prop where
  policy : m'.policy = m.policy
  slot : ∀ i, m'.pool.get? i = m.pool.passed m.policy n i
  /-- A connection that is given up is closed.  Apart from its state nothing but its age changes. -/
  conn : ∀ role, ∃ age, m'.conn role = { m.conn role with
    age := age
    state := if m.pool.isLost role n then .closed else (m.conn role).state }
  retransmissions : m'.counts.retransmissions =
    m.counts.retransmissions + .ofNat ((m.turns n).countP (·.retries ≠ 0))
  failed : m'.counts.failed = m.counts.failed + .ofNat ((m.turns n).countP (·.retries = 0))

namespace Passed

/-- When a pass comes to a slot, the slot is due exactly if its segment has its turn. -/
theorem turn?_eq_some (h : Passed m n m') :
    m.pool.turn? n = some t ↔ m'.pool.get? n = some t ∧ t.timeout = 0 := by
  rw [Pool.turn?_eq_some, h.slot, Pool.passed_self]
  exact ⟨fun ⟨hslot, hdue, hlost⟩ => ⟨⟨hslot, hlost⟩, hdue⟩,
    fun ⟨⟨hslot, hlost⟩, hdue⟩ => ⟨hslot, hdue, hlost⟩⟩

theorem isDue_eq (h : Passed m n m') : m'.pool.isDue n = (m.pool.turn? n).isSome := by
  unfold Pool.isDue
  rw [Bool.eq_iff_iff, Option.any_eq_true, Option.isSome_iff_exists]
  simp only [h.turn?_eq_some, decide_eq_true_iff]

/-- Without its age and its state, what is sent on a connection is the same. -/
theorem rebuild_eq (h : Passed m n m') (role : Role) (kept : Kept) :
    rebuild (m'.conn role) kept = rebuild (m.conn role) kept := by
  obtain ⟨age, hconn⟩ := h.conn role
  rw [hconn]
  cases kept <;> rfl

protected theorem zero (m : Machine) : Passed m 0 m where
  policy := rfl
  slot i := by
    unfold Pool.passed
    cases m.pool.get? i <;> simp [Pool.isLost]
  conn role := ⟨(m.conn role).age, by simp [Pool.isLost]⟩
  retransmissions := by simp [turns]
  failed := by simp [turns]

/-- **A pass goes on by a slot.** -/
protected theorem succ (h : Passed m n m') : Passed m (n + 1) (m'.resend n).machine := by
  have hresent := resent_resend m' n
  generalize (m'.resend n).machine = m'' at hresent ⊢
  cases hresent with
  | idle waits =>
    have hturn : m.pool.turn? n = none := by
      rw [Option.eq_none_iff_forall_ne_some]
      intro t turn
      obtain ⟨hslot, hdue⟩ := h.turn?_eq_some.mp turn
      exact waits t hslot hdue
    refine ⟨h.policy, fun i => ?_, fun role => ?_, ?_, ?_⟩
    · rw [h.slot, Pool.passed_succ_of_none hturn]
    · rw [Pool.isLost_succ, hturn]
      simpa using h.conn role
    · rw [h.retransmissions, turns_succ, hturn]
      simp
    · rw [h.failed, turns_succ, hturn]
      simp
  | gaveUp t slot due spent =>
    have hturn : m.pool.turn? n = some t := h.turn?_eq_some.mpr ⟨slot, due⟩
    refine ⟨(policy_setConn _ _ _).trans h.policy, fun i => ?_, fun role => ?_, ?_, ?_⟩
    · rw [Pool.passed_succ_of_spent hturn spent, ← h.slot]
      apply Option.ext
      intro u
      rw [get?_giveUp_eq_some, Option.filter_eq_some_iff]
      simp
    · obtain ⟨age, hconn⟩ := h.conn role
      refine ⟨age, ?_⟩
      rw [conn_giveUp, Pool.isLost_succ, hturn]
      by_cases hrole : role = t.role
      · subst hrole
        have hreset : (m'.reset t.role).conn t.role =
            { m'.conn t.role with state := .closed } := congrArg Side.conn (side_reset m' t.role)
        rw [hreset, hconn]
        simp [spent]
      · have hreset : (m'.reset t.role).conn role = m'.conn role :=
          congrArg Side.conn (side_reset_of_ne hrole)
        rw [hreset, hconn]
        simp [Ne.symm hrole]
    · rw [counts_giveUp, turns_succ, hturn]
      simp [spent, h.retransmissions]
    · rw [counts_giveUp, turns_succ, hturn]
      simp [spent, h.failed, UInt32.ofNat_add, UInt32.add_assoc]
  | renewed t slot due left =>
    have hturn : m.pool.turn? n = some t := h.turn?_eq_some.mpr ⟨slot, due⟩
    have hlost (role : Role) : m.pool.isLost role (n + 1) = m.pool.isLost role n := by
      simp [Pool.isLost_succ, hturn, left]
    refine ⟨(policy_renew m' n t).trans h.policy, fun i => ?_, fun role => ?_, ?_, ?_⟩
    · rw [pool_renew, Pool.passed_succ_of_left hturn left, h.policy]
      by_cases hi : i = n
      · subst hi
        rw [Slots.get?_put_self _ (Slots.lt_of_get? slot), if_pos rfl]
      · rw [Slots.get?_put_of_ne _ (Ne.symm hi), if_neg hi, h.slot]
    · obtain ⟨age, hconn⟩ := h.conn role
      rw [conn_renew, hlost, hconn]
      split
      · exact ⟨_, rfl⟩
      · exact ⟨_, rfl⟩
    · rw [counts_renew, turns_succ, hturn]
      simp [left, h.retransmissions, UInt32.ofNat_add, UInt32.add_assoc]
    · rw [counts_renew, turns_succ, hturn]
      simp [left, h.failed]

/-- In its turn a segment is sent, unless it is given up. -/
theorem out_resend (h : Passed m n m') :
    (m'.resend n).out.toList = ((m.pool.turn? n).toList.filter (·.retries ≠ 0)).map fun t =>
      rebuild (m.conn t.role) t.kept := by
  cases hturn : m.pool.turn? n with
  | none =>
    have hidle : m'.pool.isDue n = false := by rw [h.isDue_eq, hturn]; rfl
    unfold Pool.isDue at hidle
    unfold resend
    cases hslot : m'.pool.get? n with
    | none => rfl
    | some t => simp_all
  | some t =>
    obtain ⟨hslot, hdue⟩ := h.turn?_eq_some.mp hturn
    unfold resend
    rw [hslot]
    by_cases hspent : t.retries = 0 <;> simp [hdue, hspent, h.rebuild_eq]

end Passed

/-- What a pass has made of the machine when it comes to slot `n`. -/
theorem passed_resendSlots (m : Machine) (n : Nat) :
    Passed m n (steps resend m (List.range n)).1 := by
  induction n with
  | zero => exact .zero m
  | succ n ih =>
    rw [List.range_succ, steps_append]
    exact ih.succ

/-- What a pass has sent when it comes to slot `n`. -/
theorem sent_resendSlots (m : Machine) (n : Nat) :
    (steps resend m (List.range n)).2 = ((m.turns n).filter (·.retries ≠ 0)).map fun t =>
      rebuild (m.conn t.role) t.kept := by
  induction n with
  | zero => rfl
  | succ n ih =>
    rw [List.range_succ, steps_append, ih, turns_succ, List.filter_append, List.map_append]
    show _ ++ ((_ : Option Outgoing).toList ++ []) = _
    rw [List.append_nil, (passed_resendSlots m n).out_resend]

/-! ## The search -/

/-- What a search does. -/
structure Pass where
  /-- The slots that have their turn, one after the other. -/
  slots : List Nat
  machine : Machine
  sent : List Outgoing

theorem firstDue_eq_some {p : Pool} {start : Nat} : p.firstDue start = some i ↔
    start ≤ i ∧ i < poolSize ∧ p.isDue i ∧ ∀ j < i, start ≤ j → p.isDue j = false := by
  unfold Pool.firstDue
  rw [List.find?_range_eq_some, List.mem_range]
  simp only [Bool.and_eq_true, decide_eq_true_iff, Bool.not_eq_true', Bool.and_eq_false_imp]
  tauto

/-- From a slot on, the first slot that is due has its turn, and the search goes on behind it in
the machine that it leaves. -/
def search (m : Machine) (start : Nat) : Pass :=
  match _ : m.pool.firstDue start with
  | none => ⟨[], m, []⟩
  | some i =>
    let step := m.resend i
    let others := search step.machine (i + 1)
    ⟨i :: others.slots, others.machine, step.out.toList ++ others.sent⟩
termination_by poolSize - start
decreasing_by
  have hfound := firstDue_eq_some.mp ‹_›
  omega

theorem search_of_none {start : Nat} (none : m.pool.firstDue start = none) :
    m.search start = ⟨[], m, []⟩ := by
  rw [search]
  split
  · rfl
  · simp_all

theorem search_of_some {start : Nat} (found : m.pool.firstDue start = some i) :
    m.search start = ⟨i :: ((m.resend i).machine.search (i + 1)).slots,
      ((m.resend i).machine.search (i + 1)).machine,
      (m.resend i).out.toList ++ ((m.resend i).machine.search (i + 1)).sent⟩ := by
  rw [search]
  split
  · simp_all
  · simp_all

/-- A slot that is not due is passed over. -/
theorem search_of_idle (idle : m.pool.isDue n = false) : m.search n = m.search (n + 1) := by
  have hfirst : m.pool.firstDue n = m.pool.firstDue (n + 1) := by
    unfold Pool.firstDue
    congr 1
    funext k
    by_cases hk : k = n
    · subst hk
      simp [idle]
    · have hle : n ≤ k ↔ n + 1 ≤ k := by omega
      simp only [hle]
  cases hfound : m.pool.firstDue (n + 1) with
  | none => rw [search_of_none (hfirst.trans hfound), search_of_none hfound]
  | some i => rw [search_of_some (hfirst.trans hfound), search_of_some hfound]

theorem resend_of_idle (idle : m.pool.isDue n = false) : m.resend n = { machine := m } := by
  unfold Pool.isDue at idle
  unfold resend
  cases hslot : m.pool.get? n with
  | none => rfl
  | some t =>
    rw [hslot] at idle
    exact if_pos (by simpa using idle)

/-- **The search makes what looking at every slot makes**, and finds the segments that have their
turn. -/
theorem search_eq (h : Passed m n m') (k : Nat) (all : n + k = poolSize) :
    m'.search n = {
      slots := (List.range' n k).filter fun i => (m.pool.turn? i).isSome
      machine := (steps resend m' (List.range' n k)).1
      sent := (steps resend m' (List.range' n k)).2 } := by
  -- The slots that are left grow fewer, and the pass has come to the first of them.
  induction k generalizing n m' with
  | zero =>
    refine search_of_none (Option.eq_none_iff_forall_ne_some.mpr fun i found => ?_)
    have := firstDue_eq_some.mp found
    omega
  | succ k ih =>
    have hrest := ih h.succ (by omega)
    rw [List.range'_succ, List.filter_cons, ← h.isDue_eq]
    by_cases hdue : m'.pool.isDue n = true
    · have hfirst : m'.pool.firstDue n = some n :=
        firstDue_eq_some.mpr ⟨le_rfl, by omega, hdue, fun j hj hle => by omega⟩
      rw [search_of_some hfirst, hrest, if_pos hdue]
      rfl
    · have hidle : m'.pool.isDue n = false := by simpa using hdue
      rw [resend_of_idle hidle] at hrest
      rw [search_of_idle hidle, hrest, if_neg hdue]
      simp [steps, resend_of_idle hidle]

/-! ## What a pass does -/

/-- A segment has its turn: what it leaves when the pass comes to its slot `i` at `m`, and goes on
at `m'`. -/
structure TakesTurn (m : Machine) (i : Nat) (t : Tracked) (m' : Machine) : Prop where
  /-- Nothing has happened to the segment before. -/
  held : m.pool.get? i = some t
  /-- It is resent, which costs it a retry, and waits as many times longer as it has been resent. -/
  resent : t.retries ≠ 0 → ∃ t', m'.pool.get? i = some t' ∧ t'.role = t.role ∧
    t'.pending = t.pending ∧ t'.retries.toNat + 1 = t.retries.toNat ∧
    t'.timeout.toNat =
      min 255 (m.policy.timeout.toNat * 2 ^ (m.policy.retries.toNat - t'.retries.toNat))
  /-- It is given up together with its connection. -/
  givenUp : t.retries = 0 → (m'.conn t.role).state = .closed ∧
    ∀ j u, m'.pool.get? j = some u → u.role ≠ t.role

/-- A pass is exact: what it does can be told when it begins. -/
structure ExactPass (m : Machine) : Prop where
  /-- The search comes to an end, and is what is done. -/
  ends : m.resendDue = ((m.search 0).machine, (m.search 0).sent)
  /-- Each slot has one turn at most, in slot order.  Nothing that was not due when the pass began has
  a turn, and nothing that was due goes without, unless its connection has been given up. -/
  slots : (m.search 0).slots = (List.range poolSize).filter fun i => (m.pool.turn? i).isSome
  /-- What is done in a turn. -/
  turn : ∀ i t, m.pool.turn? i = some t → TakesTurn (steps resend m (List.range i)).1 i t
    (steps resend m (List.range (i + 1))).1
  /-- What is sent is what the turns send. -/
  sent : m.resendDue.2 = ((m.turns poolSize).filter (·.retries ≠ 0)).map fun t =>
    rebuild (m.conn t.role) t.kept
  /-- What was not due has not changed, and what was due has been resent once, unless its connection
  has been given up.  Nothing has come to a free slot. -/
  slot : ∀ i, m.resendDue.1.pool.get? i = (m.pool.get? i).bind fun t =>
    if m.pool.isLost t.role poolSize then none
    else if t.timeout = 0 then some (t.renewed m.policy)
    else some t
  /-- A connection keeps its state unless it has been given up. -/
  state : ∀ role, (m.resendDue.1.conn role).state =
    if m.pool.isLost role poolSize then .closed else (m.conn role).state
  /-- With all that is done afterwards, as many segments are counted as have been resent. -/
  retransmissions : (m.after .upkeep).counts.retransmissions =
    m.counts.retransmissions + .ofNat ((m.turns poolSize).countP (·.retries ≠ 0))
  /-- And as many as have been given up. -/
  failed : (m.after .upkeep).counts.failed =
    m.counts.failed + .ofNat ((m.turns poolSize).countP (·.retries = 0))

theorem takesTurn_of_passed (h : Passed m i m') (turn : m.pool.turn? i = some t) :
    TakesTurn m' i t (m'.resend i).machine := by
  obtain ⟨hslot, hdue⟩ := h.turn?_eq_some.mp turn
  have hnext : m.pool.isLost t.role (i + 1) =
      (m.pool.isLost t.role i || decide (t.retries = 0)) := by
    simp [Pool.isLost_succ, turn]
  refine ⟨hslot, fun hleft => ?_, fun hspent => ?_⟩
  · have hretries := toNat_retries_renewed (p := m.policy) hleft
    refine ⟨t.renewed m.policy, ?_, rfl, rfl, by omega, ?_⟩
    · rw [h.succ.slot, Pool.passed_succ_of_left turn hleft, if_pos rfl]
    · have hlt := m.policy.retries.toNat_lt
      rw [Tracked.timeout_renewed, Tracked.wait, toNat_backoff, UInt8.toNat_ofNat', h.policy,
        Nat.mod_eq_of_lt (by omega)]
  · refine ⟨?_, fun j u slot => ?_⟩
    · obtain ⟨age, hconn⟩ := h.succ.conn t.role
      rw [hconn, hnext]
      simp [hspent]
    · rw [h.succ.slot, Pool.passed_succ_of_spent turn hspent, Option.filter_eq_some_iff] at slot
      simpa using slot.2

/-- **A pass ends and is exact**, whatever the pool holds and whatever has been set. -/
theorem exactPass (m : Machine) : ExactPass m := by
  have hpassed : Passed m poolSize m.resendDue.1 := passed_resendSlots m poolSize
  have hsearch := search_eq (.zero m) poolSize (Nat.zero_add _)
  rw [← List.range_eq_range'] at hsearch
  constructor
  case ends =>
    unfold resendDue
    rw [hsearch]
  case slots => rw [hsearch]
  case turn =>
    intro i t turn
    rw [List.range_succ, steps_append]
    exact takesTurn_of_passed (passed_resendSlots m i) turn
  case sent => exact sent_resendSlots m poolSize
  case slot =>
    intro i
    rw [hpassed.slot]
    unfold Pool.passed
    cases hslot : m.pool.get? i with
    | none => rfl
    | some t => simp [Slots.lt_of_get? hslot]
  case state =>
    intro role
    obtain ⟨age, hconn⟩ := hpassed.conn role
    rw [hconn]
  case retransmissions =>
    -- The reaper resends nothing.
    obtain ⟨u, r, hcounts⟩ := counts_reapIdle m.resendDue.1
    rw [after_upkeep, hcounts, hpassed.retransmissions]
  case failed => rw [after_upkeep, failed_reapIdle, hpassed.failed]

/-- Where there is no time to wait, a SYN that has been resent is due again at once, and is not resent
twice. -/
example :
    let m := (fresh ⟨80, 3, 0, 100, true⟩ 1).after (.connect .client 4000 7 .unspecified true)
    m.resendDue.2.length = 1 ∧ (m.resendDue.1.pool.isDue 0) = true := by decide

end Machine

end NetEngine.Tcp
