import Mathlib.Data.List.Induction
import NetEngine.Proofs.Tcp.Resending
import NetEngine.Proofs.Tcp.Silence

/-! # How Often a Segment Has Been Resent

    An entry of the pool counts the retries that it has left, and nobody counts
    how often its segment is resent.

    * **Times resent**: the rounds of resending of a run in which something is
      sent for a slot.
    * **Accounted**: a segment has held its slot for a part of the run, and what
      has been sent for the slot meanwhile and the retries that are left are all
      the retries that there are. -/

namespace NetEngine.Tcp.Machine

variable {m m' start : Machine} {role : Role} {i : Nat} {t t' : Tracked} {op : Operation}
  {ops : List Operation}

/-! ## Times resent -/

/-- How often slot `i` is resent by an operation. -/
def resends (m : Machine) (i : Nat) : Operation → Nat
  | .upkeep => if (m.resentFrom i).isSome then 1 else 0
  | _ => 0

/-- How often slot `i` is resent in a run. -/
def timesResent (i : Nat) : Machine → List Operation → Nat
  | _, [] => 0
  | m, op :: ops => m.resends i op + timesResent i (m.after op) ops

theorem timesResent_append (i : Nat) (m : Machine) (ops ops' : List Operation) :
    timesResent i m (ops ++ ops') = timesResent i m ops + timesResent i (m.run ops) ops' := by
  induction ops generalizing m with
  | nil => exact (Nat.zero_add _).symm
  | cons op ops ih =>
    show m.resends i op + timesResent i (m.after op) (ops ++ ops') = _
    rw [ih, ← Nat.add_assoc]
    rfl

/-! ## What a slot has held before -/

/-- Adjusting the timers leaves a segment in its slot as it is, or a new one comes there. -/
theorem Adjusted.slot (h : Adjusted m m') (slot : m'.pool.get? i = some t) :
    m.pool.get? i = some t ∨ t.retries = m.policy.retries := by
  have hslots : m'.policy.retries = m.policy.retries ∧ ∀ t, m'.pool.get? i = some t →
      m.pool.get? i = some t ∨ t.retries = m.policy.retries := by
    refine h.preserves (P := fun m' => m'.policy.retries = m.policy.retries ∧ ∀ t,
      m'.pool.get? i = some t → m.pool.get? i = some t ∨ t.retries = m.policy.retries) ?_
      ⟨rfl, fun t ht => .inl ht⟩
    rintro m₁ m₂ hadjusts ⟨hretries, hslots⟩
    cases hadjusts with
    | conn role c => exact ⟨by simpa using hretries, by simpa using hslots⟩
    | drop pool kept => exact ⟨hretries, fun t ht => hslots t (kept i t ht)⟩
    | track role seq len kept =>
      refine ⟨by simpa using hretries, fun t ht => ?_⟩
      rcases get?_of_get?_track ht with hold | rfl
      · exact hslots t hold
      · exact .inr hretries
    | beside m' client server pool policy =>
      rw [policy, pool]
      exact ⟨hretries, hslots⟩
  exact hslots.2 t slot

/-- What stands in a slot when it has been looked at has waited, or has been resent. -/
theorem looked_resend (slot : m.pool.get? i = some t)
    (later : (m.resend i).machine.pool.get? i = some t') :
    t.timeout ≠ 0 ∧ t' = t ∧ (m.resend i).out = none ∨
      t.timeout = 0 ∧ t.retries ≠ 0 ∧ t' = t.renewed m.policy ∧ (m.resend i).out.isSome := by
  unfold resend at later ⊢
  rw [slot] at later ⊢
  dsimp only at later ⊢
  by_cases hdue : t.timeout = 0
  · rw [if_neg (not_not_intro hdue)] at later ⊢
    by_cases hspent : t.retries = 0
    · -- A segment that is given up leaves its slot.
      rw [if_pos hspent] at later
      obtain ⟨hslot, hrole⟩ := get?_giveUp_eq_some.mp later
      obtain rfl : t = t' := Option.some.inj (slot.symm.trans hslot)
      exact absurd rfl hrole
    · rw [if_neg hspent] at later ⊢
      change (m.renew i t).pool.get? i = some t' at later
      rw [pool_renew, Slots.get?_put_self _ (Slots.lt_of_get? slot)] at later
      exact .inr ⟨hdue, hspent, (Option.some.inj later).symm, rfl⟩
  · rw [if_pos hdue] at later ⊢
    exact .inl ⟨hdue, Option.some.inj (later.symm.trans slot), rfl⟩

/-- The slots in front of slot `i` come first, then itself, then those behind it. -/
theorem exists_range_eq (lt : i < poolSize) :
    ∃ behind, List.range poolSize = List.range i ++ i :: behind ∧ i ∉ behind := by
  obtain ⟨k, hk⟩ := Nat.exists_eq_add_of_le lt
  refine ⟨(List.range k).map (i.succ + ·), ?_, ?_⟩
  · rw [hk, List.range_add, List.range_succ, List.append_assoc]
    rfl
  · simp only [List.mem_map, not_exists, not_and]
    omega

/-- What stands in a slot when all slots have been looked at has waited, or has been resent. -/
theorem looked_resendDue (slot : m.resendDue.1.pool.get? i = some t') :
    ∃ t, m.pool.get? i = some t ∧
      (t.timeout ≠ 0 ∧ t' = t ∧ m.resentFrom i = none ∨
        t.timeout = 0 ∧ t.retries ≠ 0 ∧ t' = t.renewed m.policy ∧ (m.resentFrom i).isSome) := by
  obtain ⟨behind, hrange, hbehind⟩ := exists_range_eq (Slots.lt_of_get? slot)
  let before := (steps resend m (List.range i)).1
  have hturn : (before.resend i).machine.pool.get? i = some t' := by
    unfold resendDue at slot
    rw [hrange, steps_append] at slot
    exact get?_of_get?_resendSlots hbehind slot
  cases hbefore : before.pool.get? i with
  | none =>
    -- Nothing comes to an empty slot.
    rw [resend_of_roleAt_none (by rw [roleAt, hbefore]; rfl), hbefore] at hturn
    cases hturn
  | some t =>
    have hlooked := looked_resend hbefore hturn
    rw [show before.policy = m.policy from policy_resendSlots m _] at hlooked
    exact ⟨t, get?_of_get?_resendSlots (by simp) hbefore, hlooked⟩

/-- Each time that a segment is resent costs it a retry. -/
theorem toNat_retries_renewed {p : Policy} (left : t.retries ≠ 0) :
    1 + (t.renewed p).retries.toNat = t.retries.toNat := by
  have hpos := Countdown.toNat_ne_zero left
  have hlt := t.retries.toNat_lt
  show 1 + (t.retries - 1).toNat = _
  rw [UInt8.toNat_sub]
  simp
  omega

/-- **What a slot holds after an operation**: the segment that it has held before, with a retry less
if it has been resent, or another one with all retries left. -/
theorem slot_after (op : Operation) (slot : (m.after op).pool.get? i = some t') :
    (∃ t, m.pool.get? i = some t ∧ t.role = t'.role ∧ t.pending = t'.pending ∧
      m.resends i op + t'.retries.toNat = t.retries.toNat) ∨ t'.retries = m.policy.retries := by
  cases op with
  | tick =>
    change Slots.get? (Pool.tick m.pool) i = some t' at slot
    rw [Pool.get?_tick] at slot
    obtain ⟨t, ht, rfl⟩ := Option.map_eq_some_iff.mp slot
    exact .inl ⟨t, ht, rfl, rfl, Nat.zero_add _⟩
  | upkeep =>
    rw [after_upkeep] at slot
    rcases (Adjusted.refl _).reapIdle.slot slot with hkept | hnew
    · left
      obtain ⟨t, ht, ⟨-, rfl, hnone⟩ | ⟨-, hleft, rfl, hsome⟩⟩ := looked_resendDue hkept
      · refine ⟨t', ht, rfl, rfl, ?_⟩
        simp [resends, hnone]
      · refine ⟨t, ht, rfl, rfl, ?_⟩
        simp only [resends, hsome, if_true]
        exact toNat_retries_renewed hleft
    · -- The reaper has sent a FIN.
      right
      rw [hnew]
      exact congrArg (·.retries) (policy_resendSlots m _)
  | _ =>
    rcases adjusted_after m _ with hadjusted | hother | hother
    · rcases hadjusted.slot slot with hkept | hnew
      · exact .inl ⟨t', hkept, rfl, rfl, Nat.zero_add _⟩
      · exact .inr hnew
    · cases hother
    · cases hother

/-! ## Accounts -/

/-- Slot `i` holds this segment of a role. -/
def Holds (m : Machine) (i : Nat) (role : Role) (z : Pending) : Prop :=
  ∃ t, m.pool.get? i = some t ∧ t.role = role ∧ t.pending = z

/-- After the run `ops`, slot `i` has held this segment for a part of the run, in which it has been
resent `n` times. -/
def ResentTimes (start : Machine) (ops : List Operation) (i : Nat) (role : Role) (z : Pending)
    (n : Nat) : Prop :=
  ∃ before since, ops = before ++ since ∧
    (∀ done, done <+: since → (start.run (before ++ done)).Holds i role z) ∧
    timesResent i (start.run before) since = n

/-- **The retries are accounted for**: a tracked segment has been resent as often as it has retries
less than there are. -/
theorem resentTimes_run (policy : Policy) (seed : UInt32) (ops : List Operation)
    (slot : ((fresh policy seed).run ops).pool.get? i = some t) :
    ∃ n, ResentTimes (fresh policy seed) ops i t.role t.pending n ∧
      n + t.retries.toNat = policy.retries.toNat := by
  induction ops using List.reverseRecOn generalizing t with
  | nil =>
    change Pool.empty.get? i = some t at slot
    rw [Pool.get?_empty] at slot
    cases slot
  | append_singleton ops op ih =>
    rw [run_append] at slot
    have hholds : ((fresh policy seed).run (ops ++ [op])).Holds i t.role t.pending := by
      rw [run_append]
      exact ⟨t, slot, rfl, rfl⟩
    rcases slot_after op slot with ⟨u, hu, hrole, hpending, hcount⟩ | hnew
    · -- It has been there before.
      obtain ⟨n, ⟨before, since, rfl, hheld, hn⟩, hall⟩ := ih hu
      refine ⟨n + ((fresh policy seed).run (before ++ since)).resends i op,
        ⟨before, since ++ [op], by rw [List.append_assoc], fun done hdone => ?_, ?_⟩, by omega⟩
      · rcases List.prefix_concat_iff.mp hdone with rfl | hearlier
        · rw [← List.append_assoc]
          exact hholds
        · rw [← hrole, ← hpending]
          exact hheld done hearlier
      · rw [timesResent_append, hn, ← run_append]
        rfl
    · -- It has come with this operation.
      refine ⟨0, ⟨ops ++ [op], [], by rw [List.append_nil], fun done hdone => ?_, rfl⟩, ?_⟩
      · rw [List.prefix_nil.mp hdone, List.append_nil]
        exact hholds
      · rw [hnew, (timely_run policy seed ops).policy, Nat.zero_add]

end NetEngine.Tcp.Machine
