import NetEngine.Proofs.Tcp.Retries

/-! # Retries and Idle Time

    Two countdowns run for an open connection with unacknowledged data.  Each of
    its segments waits to be resent, twice as long each time, and the connection
    grows old.  Only resending takes up the idle time again.

    * **Attended**: nothing happens but that seconds pass and, after each of them,
      what is due is done.
    * **Ends by retries**: meanwhile the connection stays open, and its segments
      stay in their slots, until one of them has used up its retries.  The reaper
      is never faster.
    * **Outlasts**: a connection has at least as much time left as each of its
      segments waits.  This is kept up if the longest wait is no longer than the
      idle time, and otherwise the reaper is faster. -/

namespace NetEngine.Tcp

/-! ## Waits -/

theorem toNat_backoff (base attempts : UInt8) :
    (backoff base attempts).toNat = min 255 (base.toNat * 2 ^ attempts.toNat) := by
  unfold backoff
  rw [Nat.shiftLeft_eq, UInt8.toNat_ofNat']
  omega

/-- The more often a segment has been resent, the longer it waits. -/
theorem backoff_mono {base attempts attempts' : UInt8} (le : attempts ≤ attempts') :
    backoff base attempts ≤ backoff base attempts' := by
  rw [UInt8.le_iff_toNat_le, toNat_backoff, toNat_backoff]
  have hpow : 2 ^ attempts.toNat ≤ 2 ^ attempts'.toNat :=
    Nat.pow_le_pow_right (by decide) (UInt8.le_iff_toNat_le.mp le)
  have hmul := Nat.mul_le_mul_left base.toNat hpow
  omega

/-- No wait is shorter than the first one. -/
theorem le_backoff (base attempts : UInt8) : base ≤ backoff base attempts := by
  rw [UInt8.le_iff_toNat_le, toNat_backoff]
  have hpow : 1 ≤ 2 ^ attempts.toNat := Nat.one_le_two_pow
  have hmul := Nat.mul_le_mul_left base.toNat hpow
  have hlt := base.toNat_lt
  omega

/-- The wait of a segment that has been resent as often as it has retries less than there are. -/
def Tracked.wait (p : Policy) (t : Tracked) : Countdown :=
  backoff p.timeout (UInt8.ofNat (p.retries.toNat - t.retries.toNat))

/-- The longest wait, after the last retry. -/
def Policy.lastWait (p : Policy) : Countdown := backoff p.timeout p.retries

namespace Tracked

theorem timeout_renewed (p : Policy) (t : Tracked) : (t.renewed p).timeout = (t.renewed p).wait p :=
  rfl

theorem wait_le (p : Policy) (t : Tracked) : t.wait p ≤ p.lastWait := by
  refine backoff_mono ?_
  have hlt := p.retries.toNat_lt
  rw [UInt8.le_iff_toNat_le, UInt8.toNat_ofNat']
  omega

theorem wait_ne_zero {p : Policy} (timeout : 1 ≤ p.timeout) (t : Tracked) : t.wait p ≠ 0 :=
  Countdown.ne_zero_of_one_le (UInt8.le_trans timeout (le_backoff _ _))

end Tracked

namespace Machine

variable {p : Policy} {m m' start : Machine} {role : Role} {i : Nat} {t : Tracked}
  {ops later : List Operation}

/-! ## Ending by retries -/

/-- Seconds pass, and what is due is done after each of them. -/
inductive Attended : List Operation → Prop
  | nil : Attended []
  | second {ops : List Operation} (rest : Attended ops) : Attended (.tick :: .upkeep :: ops)
  | upkeep {ops : List Operation} (rest : Attended ops) : Attended (.upkeep :: ops)

/-- All along a run the connection of a role is open, and its segments are in their slots. -/
def Keeps (m : Machine) (role : Role) (later : List Operation) : Prop :=
  ∀ done, done <+: later → ((m.run done).conn role).state = .established ∧
    ∀ i z, m.Holds i role z → (m.run done).Holds i role z

/-- After a run, a segment of a role has been resent as often as is allowed, and is due once more. -/
def Exhausted (start : Machine) (ops : List Operation) (role : Role) : Prop :=
  ∃ i t, (start.run ops).pool.get? i = some t ∧ t.role = role ∧ t.timeout = 0 ∧ t.retries = 0 ∧
    ResentTimes start ops i role t.pending (start.run ops).policy.retries.toNat

/-- The connection of a role is given up when what is due is done.  It is counted once, as is the
other one if that is given up as well. -/
def GivesUp (m : Machine) (role : Role) : Prop :=
  ((m.after .upkeep).conn role).state = .closed ∧
    ∃ others ≤ 1, (m.after .upkeep).counts.failed = m.counts.failed + .ofNat (1 + others)

/-- From the run `ops` on the connection of a role is kept open, or it is given up in the end
because one of its segments has used up its retries. -/
def KeepsTrying (start : Machine) (ops : List Operation) (role : Role) (later : List Operation) :
    Prop :=
  (start.run ops).Keeps role later ∨
    ∃ done rest, later = done ++ .upkeep :: rest ∧ (start.run ops).Keeps role done ∧
      start.Exhausted (ops ++ done) role ∧ (start.run (ops ++ done)).GivesUp role

/-- Where nothing arrives and the application asks for nothing, an open connection stays open, and
its segments stay in their slots, until one of them has used up its retries. -/
def EndsByRetries (start : Machine) (ops : List Operation) (role : Role) : Prop :=
  ∀ later, Attended later → start.KeepsTrying ops role later

/-! ## Outlasting -/

/-- A connection has at least as much time left as each of its segments waits. -/
structure Outlasts (p : Policy) (m : Machine) : Prop extends Timely p m where
  outlasts : ∀ i t, m.pool.get? i = some t → t.timeout ≤ (m.conn t.role).age

namespace Outlasts

theorem adjusts (h : Outlasts p m) (first : p.timeout ≤ p.maxAge) (adjusts : Adjusts m m') :
    Outlasts p m' := by
  refine ⟨h.toTimely.adjusts adjusts, ?_⟩
  have hmaxAge : m.policy.maxAge = p.maxAge := by rw [h.policy]
  cases adjusts with
  | conn role c age =>
    intro i t slot
    rw [pool_setConn] at slot
    by_cases hrole : t.role = role
    · subst hrole
      rw [conn_setConn_self]
      rcases age with hkept | hyoung
      · rw [hkept]
        exact h.outlasts i t slot
      · rw [hyoung, hmaxAge]
        exact UInt8.le_trans (h.outlasts i t slot) (h.age t.role)
    · rw [conn_setConn_of_ne _ _ hrole]
      exact h.outlasts i t slot
  | drop pool kept =>
    intro i t slot
    have hage := h.outlasts i t (kept i t slot)
    cases hrole : t.role <;> rw [hrole] at hage <;> exact hage
  | track role seq len kept young =>
    intro i t slot
    rw [conn_track]
    rcases get?_of_get?_track slot with hold | rfl
    · exact h.outlasts i t hold
    · show m.policy.timeout ≤ (m.conn role).age
      rw [young, hmaxAge, h.policy]
      exact first
  | beside m' client server pool =>
    intro i t slot
    rw [pool] at slot
    have hconn : m'.conn t.role = m.conn t.role := by
      cases t.role
      · exact client
      · exact server
    rw [hconn]
    exact h.outlasts i t slot

theorem adjusted (h : Outlasts p m) (first : p.timeout ≤ p.maxAge) (adjusted : Adjusted m m') :
    Outlasts p m' :=
  adjusted.preserves (fun _ _ hadjusts hm => hm.adjusts first hadjusts) h

/-- A second makes both countdowns shorter. -/
theorem tick (h : Outlasts p m) : Outlasts p m.tick := by
  refine ⟨h.toTimely.tick, fun i t slot => ?_⟩
  change Slots.get? (Pool.tick m.pool) i = some t at slot
  rw [Pool.get?_tick] at slot
  obtain ⟨u, hu, rfl⟩ := Option.map_eq_some_iff.mp slot
  have hwaits := UInt8.le_iff_toNat_le.mp (h.outlasts i u hu)
  rw [conn_tick, UInt8.le_iff_toNat_le]
  dsimp only
  unfold Connection.tick
  split
  · rw [Countdown.toNat_tick, Countdown.toNat_tick]
    omega
  · rw [Countdown.toNat_tick]
    omega

/-- A segment that is resent waits no longer than the idle time that is taken up again. -/
theorem resend (h : Outlasts p m) (last : p.lastWait ≤ p.maxAge) (i : Nat) :
    Outlasts p (m.resend i).machine := by
  have htimely := h.toTimely.resend i
  have hresent := resent_resend m i
  generalize (m.resend i).machine = m' at htimely hresent ⊢
  cases hresent with
  | idle => exact h
  | gaveUp t =>
    exact h.adjusted (UInt8.le_trans (le_backoff _ _) last) ((Adjusted.refl m).giveUp t.role)
  | renewed t slot due left =>
    refine ⟨htimely, fun j u hu => ?_⟩
    have hmaxAge : m.policy.maxAge = p.maxAge := by rw [h.policy]
    rw [pool_renew] at hu
    rw [conn_renew]
    by_cases hj : i = j
    · subst hj
      rw [Slots.get?_put_self _ (Slots.lt_of_get? slot)] at hu
      cases hu
      have hrole : (t.renewed m.policy).role = t.role := rfl
      rw [if_pos hrole, h.renewed_eq, Tracked.timeout_renewed, hmaxAge]
      exact UInt8.le_trans (Tracked.wait_le _ _) last
    · rw [Slots.get?_put_of_ne _ hj] at hu
      split
      · rw [hmaxAge]
        exact UInt8.le_trans (h.outlasts j u hu) (h.age u.role)
      · exact h.outlasts j u hu

theorem resendDue (h : Outlasts p m) (last : p.lastWait ≤ p.maxAge) :
    Outlasts p m.resendDue.1 :=
  steps_induction (fun _ i hm => hm.resend last i) h (List.range poolSize)

/-- **Every operation lets the connections outlast their segments.** -/
theorem after (h : Outlasts p m) (last : p.lastWait ≤ p.maxAge) (op : Operation) :
    Outlasts p (m.after op) := by
  have hfirst : p.timeout ≤ p.maxAge := UInt8.le_trans (le_backoff _ _) last
  rcases adjusted_after m op with hadjusted | rfl | rfl
  · exact h.adjusted hfirst hadjusted
  · exact h.tick
  · rw [after_upkeep]
    exact (h.resendDue last).adjusted hfirst (Adjusted.refl _).reapIdle

/-- When what is due has been resent, a connection with a segment is not idle. -/
theorem isIdle_resendDue (h : Outlasts p m) (timeout : 1 ≤ p.timeout)
    (last : p.lastWait ≤ p.maxAge) (slot : m.resendDue.1.pool.get? i = some t) :
    m.resendDue.1.isIdle t.role = false := by
  have hwaits : t.timeout ≠ 0 := by
    obtain ⟨u, -, ⟨hwaits, rfl, -⟩ | ⟨-, -, rfl, -⟩⟩ := looked_resendDue slot
    · exact hwaits
    · rw [h.renewed_eq, Tracked.timeout_renewed]
      exact Tracked.wait_ne_zero timeout _
  have hage := UInt8.le_iff_toNat_le.mp ((h.resendDue last).outlasts i t slot)
  have hyoung : (m.resendDue.1.conn t.role).age ≠ 0 := by
    intro hzero
    rw [hzero] at hage
    exact hwaits (UInt8.toNat_inj.mp (Nat.le_zero.mp hage))
  unfold isIdle
  simp [hyoung]

end Outlasts

theorem outlasts_fresh (policy : Policy) (seed : UInt32) :
    Outlasts policy (fresh policy seed) where
  toTimely := timely_fresh policy seed
  outlasts i t slot := by
    change Pool.empty.get? i = some t at slot
    rw [Pool.get?_empty] at slot
    cases slot

theorem outlasts_run (policy : Policy) (last : policy.lastWait ≤ policy.maxAge) (seed : UInt32)
    (ops : List Operation) : Outlasts policy ((fresh policy seed).run ops) :=
  run_induction (outlasts_fresh policy seed) (fun _ op h => h.after last op) ops

/-! ## What is given up is counted -/

/-- From `m` to `m'` each role has been given up as often as `given` says, and nothing else has been
counted as failed. -/
structure GivenUp (m : Machine) (given : Role → Nat) (m' : Machine) : Prop where
  once : ∀ r, given r ≤ 1
  /-- What is given up has nothing left that could be given up again. -/
  cleared : ∀ r, given r = 1 → m'.pool.pendingOf r = 0
  nothing : ∀ r, m.pool.pendingOf r = 0 → given r = 0 ∧ m'.pool.pendingOf r = 0
  /-- A connection leaves its state only if it is given up. -/
  left : ∀ r, (m'.conn r).state ≠ (m.conn r).state → given r = 1
  failed : m'.counts.failed = m.counts.failed + .ofNat (given .client + given .server)

namespace GivenUp

variable {m'' : Machine} {given given' : Role → Nat}

theorem none (pending : ∀ r, m'.pool.pendingOf r = m.pool.pendingOf r)
    (state : ∀ r, (m'.conn r).state = (m.conn r).state)
    (failed : m'.counts.failed = m.counts.failed) : GivenUp m 0 m' where
  once _ := Nat.zero_le 1
  cleared _ := nofun
  nothing r hr := ⟨rfl, (pending r).trans hr⟩
  left r hleft := absurd (state r) hleft
  failed := failed.trans (UInt32.add_zero _).symm

theorem trans (h : GivenUp m given m') (h' : GivenUp m' given' m'') :
    GivenUp m (fun r => given r + given' r) m'' where
  once r := by
    have honce := h.once r
    have honce' := h'.once r
    -- Who has been given up first has nothing left for the second time.
    have hnothing := fun hr => (h'.nothing r (h.cleared r hr)).1
    omega
  cleared r hr := by
    rcases Nat.eq_zero_or_pos (given r) with hzero | hpos
    · exact h'.cleared r (by omega)
    · have honce := h.once r
      exact (h'.nothing r (h.cleared r (by omega))).2
  nothing r hr := by
    obtain ⟨hgiven, hr'⟩ := h.nothing r hr
    obtain ⟨hgiven', hr''⟩ := h'.nothing r hr'
    exact ⟨by omega, hr''⟩
  left r hleft := by
    by_cases hfirst : (m'.conn r).state = (m.conn r).state
    · have hgiven' := h'.left r (by rwa [hfirst])
      have honce := h.once r
      have hnothing := fun hr => (h'.nothing r (h.cleared r hr)).1
      omega
    · have hgiven := h.left r hfirst
      have hnothing := (h'.nothing r (h.cleared r hgiven)).1
      omega
  failed := by
    -- Sums of counts go round as the counts do.
    rw [h'.failed, h.failed, UInt32.add_assoc, ← UInt32.ofNat_add]
    congr 2
    omega

end GivenUp

/-- Where a segment has used up its retries, its role is given up. -/
theorem givenUp_giveUp {i : Nat} (slot : m.pool.get? i = some t) :
    GivenUp m (fun r => if r = t.role then 1 else 0) (m.giveUp t.role) where
  once r := by
    split
    · exact le_rfl
    · exact Nat.zero_le 1
  cleared r hr := by
    have hrole : r = t.role := by_contra fun h => by simp [h] at hr
    rw [hrole]
    exact congrArg Side.pending (side_reset m t.role)
  nothing r hr := by
    -- The role of the segment has that segment at least.
    have hrole : r ≠ t.role := by
      rintro rfl
      have hmem := mem_pendingOf_of_get? slot
      rw [hr] at hmem
      exact absurd hmem (Multiset.notMem_zero _)
    have hother : (m.giveUp t.role).pool.pendingOf r = m.pool.pendingOf r :=
      congrArg Side.pending (side_reset_of_ne hrole)
    exact ⟨if_neg hrole, hother.trans hr⟩
  left r hleft := by
    by_contra hgiven
    have hrole : r ≠ t.role := fun h => hgiven (if_pos h)
    refine hleft (congrArg (·.conn.state) (?_ : (m.giveUp t.role).side r = m.side r))
    exact side_reset_of_ne hrole
  failed := by
    rw [counts_giveUp]
    cases t.role <;> rfl

theorem givenUp_resend (m : Machine) (i : Nat) : ∃ given, GivenUp m given (m.resend i).machine := by
  have hresent := resent_resend m i
  generalize (m.resend i).machine = m' at hresent ⊢
  cases hresent with
  | idle => exact ⟨_, .none (fun _ => rfl) (fun _ => rfl) rfl⟩
  | gaveUp t slot => exact ⟨_, givenUp_giveUp slot⟩
  | renewed t slot =>
    refine ⟨_, .none (fun r => ?_) (state_renew m i t) ?_⟩
    · rw [pool_renew]
      exact Pool.pendingOf_put_same slot rfl rfl
    · rw [counts_renew]

/-- Each role is given up once at most when the slots are looked at one after the other. -/
theorem givenUp_resendSlots (m : Machine) (slots : List Nat) :
    ∃ given, GivenUp m given (steps Machine.resend m slots).1 := by
  induction slots generalizing m with
  | nil => exact ⟨_, .none (fun _ => rfl) (fun _ => rfl) rfl⟩
  | cons i slots ih =>
    obtain ⟨given, hfirst⟩ := givenUp_resend m i
    obtain ⟨given', hothers⟩ := ih (m.resend i).machine
    exact ⟨_, hfirst.trans hothers⟩

theorem failed_resendDue (m : Machine) (role : Role)
    (left : (m.resendDue.1.conn role).state ≠ (m.conn role).state) :
    ∃ others ≤ 1, m.resendDue.1.counts.failed = m.counts.failed + .ofNat (1 + others) := by
  obtain ⟨given, hgiven⟩ : ∃ given, GivenUp m given m.resendDue.1 := givenUp_resendSlots m _
  have hrole := hgiven.left role left
  cases role with
  | client => exact ⟨given .server, hgiven.once _, by rw [hgiven.failed, hrole]⟩
  | server => exact ⟨given .client, hgiven.once _, by rw [hgiven.failed, hrole, Nat.add_comm]⟩

/-- What tracking counts is at most a segment that found no place. -/
theorem counts_track (m : Machine) (role : Role) (seq : SeqNumber) (len : Nat) (kept : Kept) :
    ∃ u, (m.track role seq len kept).counts = { m.counts with untracked := u } := by
  unfold track
  split
  · exact ⟨m.counts.untracked, rfl⟩
  · exact ⟨m.counts.untracked + 1, rfl⟩

/-- So does closing, which tracks a FIN. -/
theorem counts_close (m : Machine) (role : Role) :
    ∃ u, (m.close role).machine.counts = { m.counts with untracked := u } := by
  have hfin (state : State) : ∃ u, (((m.forget role).setState role state).sendFin role
      ).machine.counts = { m.counts with untracked := u } := by
    obtain ⟨u, hcounts⟩ := counts_track
      (((m.forget role).setState role state).setConn role _) role _ 1 _
    refine ⟨u, hcounts.trans ?_⟩
    simp [setState, forget]
  unfold close
  split
  · exact hfin .finWait1
  · exact hfin .finWait1
  · exact hfin .lastAck
  all_goals exact ⟨m.counts.untracked, by simp [setState, forget]⟩

/-- The reaper counts besides that it reaps, and counts nothing else. -/
theorem counts_reapIdle (m : Machine) :
    ∃ u r, m.reapIdle.1.counts = { m.counts with untracked := u, reaped := r } := by
  refine steps_induction
    (P := fun m' => ∃ u r, m'.counts = { m.counts with untracked := u, reaped := r })
    (fun m' role h => ?_) ⟨m.counts.untracked, m.counts.reaped, rfl⟩ Role.all
  obtain ⟨u, r, h⟩ := h
  unfold reap
  split
  · -- It counts first, and then closes or resets.
    obtain ⟨u', hclose⟩ := counts_close
      { m' with counts := { m'.counts with reaped := m'.counts.reaped + 1 } } role
    dsimp only
    split
    · exact ⟨u', r + 1, by rw [hclose, h]⟩
    · exact ⟨u', r + 1, by rw [hclose, h]⟩
    · exact ⟨u, r + 1, by rw [counts_reset, h]⟩
  · exact ⟨u, r, h⟩

theorem failed_track (m : Machine) (role : Role) (seq : SeqNumber) (len : Nat) (kept : Kept) :
    (m.track role seq len kept).counts.failed = m.counts.failed := by
  obtain ⟨u, hcounts⟩ := counts_track m role seq len kept
  rw [hcounts]

theorem failed_close (m : Machine) (role : Role) :
    (m.close role).machine.counts.failed = m.counts.failed := by
  obtain ⟨u, hcounts⟩ := counts_close m role
  rw [hcounts]

theorem failed_reapIdle (m : Machine) : m.reapIdle.1.counts.failed = m.counts.failed := by
  obtain ⟨u, r, hcounts⟩ := counts_reapIdle m
  rw [hcounts]

/-! ## What is done when it is due -/

/-- **An open connection survives what is due, or one of its segments has used up its retries.** -/
theorem survives_upkeep (h : Outlasts p m) (timeout : 1 ≤ p.timeout)
    (last : p.lastWait ≤ p.maxAge) (established : (m.conn role).state = .established)
    {z : Pending} (holds : m.Holds i role z) :
    (((m.after .upkeep).conn role).state = .established ∧
      ∀ j z, m.Holds j role z → (m.after .upkeep).Holds j role z) ∨
    (∃ j t, m.pool.get? j = some t ∧ t.role = role ∧ t.timeout = 0 ∧ t.retries = 0) ∧
      m.GivesUp role := by
  unfold GivesUp
  rw [after_upkeep]
  rcases state_resendDue m role with hstate | ⟨hclosed, hspent⟩
  · left
    rw [established] at hstate
    -- All of its segments have survived, so that it is not idle.
    have hkept (j : Nat) (z : Pending) (hj : m.Holds j role z) :
        m.resendDue.1.reapIdle.1.Holds j role z ∧ m.resendDue.1.isIdle role = false := by
      obtain ⟨t, slot, rfl, rfl⟩ := hj
      rcases slot_resendDue slot with hclosed | ⟨-, t', ht', hrole, hgoes⟩
      · rw [hstate] at hclosed
        cases hclosed
      · have hbusy := h.isIdle_resendDue timeout last ht'
        refine ⟨⟨t', get?_reapIdle ht' hbusy, hrole, ?_⟩, by rwa [hrole] at hbusy⟩
        rcases hgoes with ⟨-, rfl⟩ | ⟨-, -, rfl⟩ <;> rfl
    refine ⟨?_, fun j z hj => (hkept j z hj).1⟩
    rw [state_reapIdle, if_neg (by rw [(hkept i z holds).2]; decide)]
    exact hstate
  · right
    refine ⟨hspent, ?_, ?_⟩
    · rw [state_reapIdle, hclosed]
      exact ite_self _
    · rw [failed_reapIdle]
      exact failed_resendDue m role (by rw [hclosed, established]; decide)

/-! ## Runs -/

/-- A second passes unnoticed. -/
theorem survives_tick (established : (m.conn role).state = .established) :
    ((m.after .tick).conn role).state = .established ∧
      ∀ j z, m.Holds j role z → (m.after .tick).Holds j role z := by
  refine ⟨?_, ?_⟩
  · show (m.tick.conn role).state = _
    rw [conn_tick_of_aging (by rw [established]; rfl)]
    exact established
  · rintro j z ⟨t, slot, rfl, rfl⟩
    refine ⟨{ t with timeout := Countdown.tick t.timeout }, ?_, rfl, rfl⟩
    show Slots.get? (Pool.tick m.pool) j = _
    rw [Pool.get?_tick, slot]
    rfl

theorem keeps_nil (established : (m.conn role).state = .established) : m.Keeps role [] := by
  intro done hdone
  rw [List.prefix_nil.mp hdone]
  exact ⟨established, fun _ _ holds => holds⟩

theorem Keeps.cons {op : Operation} (established : (m.conn role).state = .established)
    (kept : ∀ j z, m.Holds j role z → (m.after op).Holds j role z)
    (h : (m.after op).Keeps role later) : m.Keeps role (op :: later) := by
  intro done hdone
  cases done with
  | nil => exact ⟨established, fun _ _ holds => holds⟩
  | cons op' done =>
    obtain ⟨rfl, hpart⟩ := List.cons_prefix_cons.mp hdone
    obtain ⟨hstate, hkept⟩ := h done hpart
    exact ⟨hstate, fun j z holds => hkept j z (kept j z holds)⟩

theorem KeepsTrying.cons {op : Operation}
    (established : ((start.run ops).conn role).state = .established)
    (kept : ∀ j z, (start.run ops).Holds j role z → ((start.run ops).after op).Holds j role z)
    (h : start.KeepsTrying (ops ++ [op]) role later) : start.KeepsTrying ops role (op :: later) := by
  unfold KeepsTrying at h
  rw [run_append] at h
  rcases h with hkeeps | ⟨done, rest, rfl, hkeeps, hexhausted, hgives⟩
  · exact .inl (hkeeps.cons established kept)
  · rw [List.append_assoc] at hexhausted hgives
    exact .inr ⟨op :: done, rest, rfl, hkeeps.cons established kept, hexhausted, hgives⟩

theorem Attended.mem {op : Operation} (h : Attended later) (mem : op ∈ later) :
    op = .tick ∨ op = .upkeep := by
  induction h with
  | nil => cases mem
  | second rest ih =>
    rcases List.mem_cons.mp mem with rfl | mem
    · exact .inl rfl
    · exact (List.mem_cons.mp mem).elim .inr ih
  | upkeep rest ih => exact (List.mem_cons.mp mem).elim .inr ih

/-- **Where the longest wait is no longer than the idle time, connections end by retries.** -/
theorem endsByRetries_of_lastWait (timeout : 1 ≤ p.timeout) (last : p.lastWait ≤ p.maxAge)
    (seed : UInt32) (ops : List Operation)
    (established : (((fresh p seed).run ops).conn role).state = .established) {z : Pending}
    (holds : ((fresh p seed).run ops).Holds i role z) : EndsByRetries (fresh p seed) ops role := by
  intro later attended
  have hquiet : ∀ op ∈ later, op = .tick ∨ op = .upkeep := fun _ => attended.mem
  clear attended
  -- The run before grows by the operation that is taken off.
  induction later generalizing ops with
  | nil => exact .inl (keeps_nil established)
  | cons op later ih =>
    have hafter : (fresh p seed).run (ops ++ [op]) = ((fresh p seed).run ops).after op :=
      run_append _ ops [op]
    have hgoesOn (hstate : ((((fresh p seed).run ops).after op).conn role).state = .established)
        (hkept : ∀ j z, ((fresh p seed).run ops).Holds j role z →
          (((fresh p seed).run ops).after op).Holds j role z) :
        (fresh p seed).KeepsTrying ops role (op :: later) := by
      refine KeepsTrying.cons established hkept (ih (ops ++ [op]) ?_ ?_ ?_)
      · rwa [hafter]
      · rw [hafter]
        exact hkept i z holds
      · exact fun op' hop' => hquiet op' (List.mem_cons_of_mem op hop')
    rcases hquiet op List.mem_cons_self with rfl | rfl
    · obtain ⟨hstate, hkept⟩ := survives_tick established
      exact hgoesOn hstate hkept
    · rcases survives_upkeep (outlasts_run p last seed ops) timeout last established holds with
        ⟨hstate, hkept⟩ | ⟨⟨j, t, slot, hrole, hdue, hspent⟩, hgives⟩
      · exact hgoesOn hstate hkept
      · obtain ⟨n, htimes, hn⟩ := resentTimes_run p seed ops slot
        have hretries : ((fresh p seed).run ops).policy.retries.toNat = n := by
          rw [(timely_run p seed ops).policy, ← hn, hspent]
          rfl
        have hexhausted : (fresh p seed).Exhausted ops role :=
          ⟨j, t, slot, hrole, hdue, hspent, by rwa [hretries, ← hrole]⟩
        rw [← List.append_nil ops] at hexhausted hgives
        exact .inr ⟨[], later, rfl, keeps_nil established, hexhausted, hgives⟩

end Machine

end NetEngine.Tcp
