import NetEngine.Proofs.Tcp.Adjusting

/-! # Timers

    Each segment that is tracked waits to be resent, and each connection grows
    old.  How long either can take depends on what has been set.

    * **Life**: the rounds that can pass before a tracked segment is given up.
      A wait of no time lasts one round as well.
    * **Timely**: no segment lives longer than one that has just been sent, and
      no connection has more time left than one that has just been used.

    Everything that the machine does keeps the timers in these bounds, whatever
    it is made of. -/

namespace NetEngine.Tcp

/-! ## Lives -/

/-- The rounds that can pass while a segment is resent `n` more times. -/
def resending (p : Policy) : Nat → Nat
  | 0 => 0
  | n + 1 =>
    max 1 (backoff p.timeout (UInt8.ofNat (p.retries.toNat - n))).toNat + resending p n

/-- The rounds that can pass before a segment is given up. -/
def Tracked.life (p : Policy) (t : Tracked) : Nat :=
  max 1 t.timeout.toNat + resending p t.retries.toNat

/-- The life of a segment that has just been sent. -/
def Policy.lifetime (p : Policy) : Nat := max 1 p.timeout.toNat + resending p p.retries.toNat

namespace Tracked

variable {p : Policy} {t : Tracked}

theorem life_pos (p : Policy) (t : Tracked) : 0 < t.life p := by
  unfold life
  omega

/-- A segment that is resent lives as long as its further retries take. -/
theorem life_renewed (left : t.retries ≠ 0) :
    (t.renewed p).life p = resending p t.retries.toNat := by
  have hpos := Countdown.toNat_ne_zero left
  have hlt := t.retries.toNat_lt
  have hfewer : (t.retries - 1).toNat = t.retries.toNat - 1 := by
    rw [UInt8.toNat_sub]
    simp
    omega
  -- The next wait is the one that is set for the retries that have been used then.
  obtain ⟨n, hn⟩ := Nat.exists_eq_succ_of_ne_zero hpos
  show max 1 (backoff p.timeout (UInt8.ofNat (p.retries.toNat - (t.retries - 1).toNat))).toNat +
    resending p (t.retries - 1).toNat = _
  rw [hfewer, hn]
  rfl

theorem life_renewed_lt (left : t.retries ≠ 0) : (t.renewed p).life p < t.life p := by
  rw [life_renewed left]
  unfold life
  omega

/-- A second does not make a segment live longer. -/
theorem life_tick_le :
    ({ t with timeout := Countdown.tick t.timeout } : Tracked).life p ≤ t.life p := by
  show max 1 (Countdown.tick t.timeout).toNat + resending p t.retries.toNat ≤ t.life p
  unfold life
  rw [Countdown.toNat_tick]
  omega

/-- A segment that is not due after a second has a round less to live. -/
theorem life_tick_lt (waits : Countdown.tick t.timeout ≠ 0) :
    ({ t with timeout := Countdown.tick t.timeout } : Tracked).life p < t.life p := by
  have hwaits := Countdown.toNat_ne_zero waits
  show max 1 (Countdown.tick t.timeout).toNat + resending p t.retries.toNat < t.life p
  unfold life
  rw [Countdown.toNat_tick] at hwaits ⊢
  omega

end Tracked

/-- A second brings no countdown up. -/
theorem tick_le (c : Countdown) : Countdown.tick c ≤ c := by
  rw [UInt8.le_iff_toNat_le, Countdown.toNat_tick]
  omega

namespace Machine

/-! ## Timely machines -/

/-- The timers are in their bounds. -/
structure Timely (p : Policy) (m : Machine) : Prop where
  /-- Nothing that can be set later on matters to the timers. -/
  policy : m.policy = { p with serverPort := m.policy.serverPort }
  life : ∀ i t, m.pool.get? i = some t → t.life p ≤ p.lifetime
  age : ∀ r, (m.conn r).age ≤ p.maxAge

namespace Timely

variable {p : Policy} {m m' : Machine} {role : Role} {s : Segment}

theorem maxAge_le (h : Timely p m) : m.policy.maxAge ≤ p.maxAge := by
  rw [h.policy]
  exact UInt8.le_refl _

theorem renewed_eq (h : Timely p m) (t : Tracked) : t.renewed m.policy = t.renewed p := by
  rw [h.policy]
  rfl

/-- **An adjustment keeps the timers in their bounds.** -/
theorem adjusts (h : Timely p m) (adjusts : Adjusts m m') : Timely p m' := by
  cases adjusts with
  | conn role c age =>
    refine ⟨by simpa using h.policy, by simpa using h.life, fun r => ?_⟩
    by_cases hr : r = role
    · subst hr
      rw [conn_setConn_self]
      rcases age with hkept | hyoung
      · rw [hkept]
        exact h.age r
      · rw [hyoung]
        exact h.maxAge_le
    · rw [conn_setConn_of_ne _ _ hr]
      exact h.age r
  | drop pool kept =>
    refine ⟨h.policy, fun i t slot => h.life i t (kept i t slot), fun r => ?_⟩
    have hage := h.age r
    cases r <;> exact hage
  | track role seq len kept young =>
    refine ⟨by simpa using h.policy, fun i t slot => ?_, by simpa using h.age⟩
    rcases get?_of_get?_track slot with hold | rfl
    · exact h.life i t hold
    · -- The new segment has all of its retries left.
      rw [h.policy]
      exact le_rfl
  | beside m' client server pool policy =>
    refine ⟨?_, by simpa [pool] using h.life, fun r => ?_⟩
    · rw [policy, h.policy]
    · have hconn : m'.conn r = m.conn r := by
        cases r
        · exact client
        · exact server
      rw [hconn]
      exact h.age r

theorem adjusted (h : Timely p m) (adjusted : Adjusted m m') : Timely p m' :=
  adjusted.preserves (fun _ _ hadjusts hm => hm.adjusts hadjusts) h

/-! ### Time -/

theorem tick (h : Timely p m) : Timely p m.tick where
  policy := h.policy
  life i t slot := by
    change Slots.get? (Pool.tick m.pool) i = some t at slot
    rw [Pool.get?_tick] at slot
    obtain ⟨u, hu, rfl⟩ := Option.map_eq_some_iff.mp slot
    exact Tracked.life_tick_le.trans (h.life i u hu)
  age r := by
    rw [conn_tick]
    unfold Connection.tick
    split
    · exact UInt8.le_trans (tick_le _) (h.age r)
    · exact h.age r

theorem resend (h : Timely p m) (i : Nat) : Timely p (m.resend i).machine := by
  have hresent := resent_resend m i
  generalize (m.resend i).machine = m' at hresent ⊢
  cases hresent with
  | idle => exact h
  | gaveUp t => exact h.adjusted ((Adjusted.refl m).giveUp t.role)
  | renewed t slot due left =>
    refine ⟨by simpa using h.policy, fun j u hu => ?_, fun r => ?_⟩
    · rw [pool_renew] at hu
      by_cases hj : i = j
      · subst hj
        rw [Slots.get?_put_self _ (Slots.lt_of_get? slot)] at hu
        cases hu
        -- What has a retry less lives no longer than before.
        rw [h.renewed_eq]
        exact (Tracked.life_renewed_lt left).le.trans (h.life i t slot)
      · rw [Slots.get?_put_of_ne _ hj] at hu
        exact h.life j u hu
    · rw [conn_renew]
      split
      · exact h.maxAge_le
      · exact h.age r

/-! ### Operations -/

/-- **Every operation keeps the timers in their bounds.** -/
theorem after (h : Timely p m) (op : Operation) : Timely p (m.after op) := by
  rcases adjusted_after m op with hadjusted | rfl | rfl
  · exact h.adjusted hadjusted
  · exact h.tick
  · rw [after_upkeep]
    have hresent : Timely p m.resendDue.1 :=
      steps_induction (fun m i hm => hm.resend i) h (List.range poolSize)
    exact hresent.adjusted (Adjusted.refl _).reapIdle

end Timely

theorem timely_fresh (policy : Policy) (seed : UInt32) : Timely policy (fresh policy seed) where
  policy := rfl
  life i t slot := by
    change Pool.empty.get? i = some t at slot
    rw [Pool.get?_empty] at slot
    cases slot
  age r := by cases r <;> exact UInt8.zero_le

theorem timely_run (policy : Policy) (seed : UInt32) (ops : List Operation) :
    Timely policy ((fresh policy seed).run ops) :=
  run_induction (timely_fresh policy seed) (fun _ op h => h.after op) ops

end Machine

end NetEngine.Tcp
