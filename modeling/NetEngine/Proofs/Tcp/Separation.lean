import Mathlib.Logic.Function.Basic
import NetEngine.Proofs.Tcp.Halves

/-! # Upkeep, Half by Half

    What is due is resent in slot order, whatever role it belongs to, and then both
    connections are looked at.  Each half goes through this as if it were alone.

    * **Looked at**: a slot changes the half of its segment, and no other one.  For
      a half, the slots of the other one are empty.
    * **Reaped**: whether a connection is given up shows in its own half.
    * **Room**: the reaper may send a FIN, which takes the first slot that the
      other half leaves free.  Nothing else of the other half matters. -/

namespace NetEngine

namespace Tcp

namespace Half

variable {policy : Policy} {x : Half} {i : Nat}

/-! ## What is made of a half -/

/-- The connection is dropped, and what was tracked for it is forgotten. -/
def dropped (x : Half) : Half := ⟨{ x.conn with state := .closed }, fun _ => none⟩

/-- The segment `t` in slot `i` is resent. -/
def renewed (policy : Policy) (x : Half) (i : Nat) (t : Tracked) : Half where
  conn := { x.conn with age := policy.maxAge }
  slots := Function.update x.slots i (some (t.renewed policy))

/-- Slot `i` is looked at. -/
def look (policy : Policy) (x : Half) (i : Nat) : Half :=
  match x.slots i with
  | none => x
  | some t =>
    if t.timeout ≠ 0 then x else if t.retries = 0 then x.dropped else x.renewed policy i t

/-- All slots are looked at. -/
def resent (policy : Policy) (x : Half) : Half := (List.range poolSize).foldl (look policy) x

/-- Has the connection been idle for too long? -/
def isIdle (x : Half) : Bool :=
  x.conn.state.isAging && x.conn.age = 0 &&
    !(x.conn.state.isOpening && (List.range poolSize).any fun i => (x.slots i).isSome)

/-- The first slot that the half leaves free. -/
def room (x : Half) : Option Nat := (List.range poolSize).find? fun i => (x.slots i).isNone

/-- A FIN is sent, and tracked in the slot `place` if there is one. -/
def finished (policy : Policy) (role : Role) (place : Option Nat) (next : State) (x : Half) :
    Half where
  conn := { x.conn with state := next, age := policy.maxAge, lastSent := x.conn.lastSent + 1 }
  slots := fun i =>
    if place = some i then
      some (.track role x.conn.lastSent 1 (.control x.conn.lastSent (.FIN ||| .ACK))
        policy.retries policy.timeout)
    else none

/-- The connection is reaped if it has been idle for too long. -/
def reaped (policy : Policy) (role : Role) (place : Option Nat) (x : Half) : Half :=
  if x.isIdle then
    match x.conn.state with
    | .established => x.finished policy role place .finWait1
    | .closeWait => x.finished policy role place .lastAck
    | _ => x.dropped
  else x

/-! ## Slots of a half -/

theorem look_of_spent {t : Tracked} (slot : x.slots i = some t) (due : t.timeout = 0)
    (spent : t.retries = 0) : x.look policy i = x.dropped := by
  unfold look
  rw [slot]
  dsimp only
  rw [if_neg (not_not_intro due), if_pos spent]

theorem look_of_left {t : Tracked} (slot : x.slots i = some t) (due : t.timeout = 0)
    (left : t.retries ≠ 0) : x.look policy i = x.renewed policy i t := by
  unfold look
  rw [slot]
  dsimp only
  rw [if_neg (not_not_intro due), if_neg left]

theorem look_eq_self (waits : ∀ t, x.slots i = some t → t.timeout ≠ 0) : x.look policy i = x := by
  unfold look
  split
  · rfl
  · exact if_pos (waits _ ‹_›)

/-- Where nothing is due nothing is resent. -/
theorem resent_eq_self (waits : ∀ i t, x.slots i = some t → t.timeout ≠ 0) :
    x.resent policy = x := by
  unfold resent
  induction List.range poolSize with
  | nil => rfl
  | cons i slots ih => rw [List.foldl_cons, look_eq_self (waits i), ih]

theorem isIdle_eq_false (young : x.conn.state.isAging → x.conn.age ≠ 0) : x.isIdle = false := by
  unfold isIdle
  cases haging : x.conn.state.isAging with
  | false => rfl
  | true => simp [young haging]

theorem reaped_eq_self (busy : x.isIdle = false) (role : Role) (place : Option Nat) :
    x.reaped policy role place = x :=
  if_neg (by simp [busy])

end Half

/-! ## Slots of both roles -/

namespace Pool

variable {p : Pool} {role : Role} {i j : Nat} {t : Tracked}

theorem slotOf_forget_self (p : Pool) (role : Role) :
    (p.forget role).slotOf role = fun _ => none := by
  funext i
  apply Option.eq_none_iff_forall_ne_some.mpr
  intro t slot
  obtain ⟨hslot, own⟩ := slotOf_eq_some.mp slot
  exact (get?_forget_eq_some.mp hslot).2 own

theorem slotOf_put (within : j < poolSize) (c : Option Tracked) :
    slotOf (p.put j c) role = Function.update (p.slotOf role) j (c.filter (·.role = role)) := by
  funext i
  unfold slotOf
  by_cases h : i = j
  · subst h
    rw [Slots.get?_put_self _ within, Function.update_self]
  · rw [Slots.get?_put_of_ne _ (Ne.symm h), Function.update_of_ne h]

/-- A slot belongs to one role. -/
theorem slotOf_of_get? (slot : p.get? i = some t) (role : Role) :
    p.slotOf role i = if t.role = role then some t else none := by
  unfold slotOf
  rw [slot, Option.filter_some]
  simp

/-- Where a role has nothing tracked the other one tells which slots are free. -/
theorem isNone_get? (empty : p.slotOf role i = none) :
    (p.get? i).isNone = (p.slotOf role.other i).isNone := by
  unfold slotOf at empty ⊢
  cases hslot : p.get? i with
  | none => rfl
  | some t =>
    rw [hslot] at empty
    have hne : t.role ≠ role := by simpa using empty
    have hother : t.role = role.other := by
      revert hne
      cases t.role <;> cases role <;> simp [Role.other]
    simp [hother]

/-- When the segments of a role have been forgotten the other one tells which slot is free. -/
theorem free?_forget (p : Pool) (role : Role) :
    Slots.free? (p.forget role) =
      (List.range poolSize).find? fun i => (p.slotOf role.other i).isNone := by
  rw [Slots.free?_eq_find?]
  congr 1
  funext i
  rw [isNone_get? (congrFun (slotOf_forget_self p role) i), slotOf_forget_of_ne role.other_ne]

end Pool

namespace Machine

variable {m : Machine} {role r : Role} {i : Nat} {t : Tracked}

/-! ## Resending -/

theorem half_reset (m : Machine) (role : Role) :
    (m.reset role).half role = (m.half role).dropped := by
  have hconn : (m.reset role).conn role = { m.conn role with state := .closed } := by
    unfold reset setState
    rw [conn_setConn_self, conn_forget]
  unfold half
  rw [hconn, pool_reset, Pool.slotOf_forget_self]
  rfl

theorem half_giveUp (m : Machine) (role r : Role) :
    (m.giveUp role).half r = (m.reset role).half r :=
  half_congr (conn_giveUp m role r) rfl

/-- A segment that is resent changes the half of its role. -/
theorem half_renew (slot : m.pool.get? i = some t) :
    (m.renew i t).half t.role = (m.half t.role).renewed m.policy i t := by
  have hown : (some (t.renewed m.policy)).filter (·.role = t.role) = some (t.renewed m.policy) := by
    rw [Option.filter_some, if_pos (decide_eq_true (by rfl))]
  unfold half
  rw [pool_renew, conn_renew, if_pos rfl, Pool.slotOf_put (Slots.lt_of_get? slot), hown]
  rfl

theorem half_renew_of_ne (slot : m.pool.get? i = some t) (h : r ≠ t.role) :
    (m.renew i t).half r = m.half r := by
  have hne : (t.renewed m.policy).role ≠ r := Ne.symm h
  have hother : (some (t.renewed m.policy)).filter (·.role = r) = m.pool.slotOf r i := by
    rw [Option.filter_some, if_neg (by simpa using hne), Pool.slotOf_of_get? slot,
      if_neg (Ne.symm h)]
  unfold half
  rw [pool_renew, conn_renew, if_neg h, Pool.slotOf_put (Slots.lt_of_get? slot), hother,
    Function.update_eq_self]

/-- **A slot that is looked at changes the half of its segment alone.** -/
theorem half_resend (m : Machine) (i : Nat) (role : Role) :
    (m.resend i).machine.half role = (m.half role).look m.policy i := by
  -- For the other half the slot is empty.
  have hother {t : Tracked} (slot : m.pool.get? i = some t) (h : role ≠ t.role) :
      (m.half role).look m.policy i = m.half role := by
    have hnone : (m.half role).slots i = none :=
      (Pool.slotOf_of_get? slot role).trans (if_neg (Ne.symm h))
    apply Half.look_eq_self
    intro u hu
    rw [hnone] at hu
    cases hu
  have hown {t : Tracked} (slot : m.pool.get? i = some t) :
      (m.half t.role).slots i = some t := Pool.slotOf_eq_some.mpr ⟨slot, rfl⟩
  have hresent := resent_resend m i
  generalize (m.resend i).machine = m' at hresent ⊢
  cases hresent with
  | idle waits =>
    refine (Half.look_eq_self fun t ht => ?_).symm
    exact waits t (Pool.slotOf_eq_some.mp ht).1
  | gaveUp t slot due spent =>
    rw [half_giveUp]
    by_cases hrole : role = t.role
    · subst hrole
      rw [half_reset, Half.look_of_spent (hown slot) due spent]
    · rw [half_reset_of_ne hrole, hother slot hrole]
  | renewed t slot due left =>
    by_cases hrole : role = t.role
    · subst hrole
      rw [half_renew slot, Half.look_of_left (hown slot) due left]
    · rw [half_renew_of_ne slot hrole, hother slot hrole]

/-- All slots are looked at for a half as if it were alone. -/
theorem half_resendSlots (m : Machine) (slots : List Nat) (role : Role) :
    (steps resend m slots).1.half role = slots.foldl (Half.look m.policy) (m.half role) := by
  -- The slots are looked at in the machine that the first one leaves, by the same policy.
  induction slots generalizing m with
  | nil => rfl
  | cons i slots ih =>
    have hrest := ih (m.resend i).machine
    rw [policy_resend, half_resend] at hrest
    exact hrest

theorem half_resendDue (m : Machine) (role : Role) :
    m.resendDue.1.half role = (m.half role).resent m.policy :=
  half_resendSlots m _ role

/-! ## Reaping -/

theorem countOf_pos_iff (m : Machine) (role : Role) :
    0 < m.pool.countOf role ↔ ∃ i < poolSize, ((m.half role).slots i).isSome := by
  unfold Pool.countOf
  rw [List.length_pos_iff_exists_mem]
  constructor
  · rintro ⟨t, ht⟩
    obtain ⟨hmem, hrole⟩ := List.mem_filter.mp ht
    obtain ⟨i, slot⟩ := (Slots.mem_toList _ _).mp hmem
    have hown : (m.half role).slots i = some t :=
      Pool.slotOf_eq_some.mpr ⟨slot, of_decide_eq_true hrole⟩
    exact ⟨i, Slots.lt_of_get? slot, by rw [hown]; rfl⟩
  · rintro ⟨i, -, htracked⟩
    obtain ⟨t, ht⟩ := Option.isSome_iff_exists.mp htracked
    obtain ⟨slot, own⟩ := Pool.slotOf_eq_some.mp ht
    exact ⟨t, List.mem_filter.mpr ⟨(Slots.mem_toList _ _).mpr ⟨i, slot⟩, decide_eq_true own⟩⟩

/-- Whether a connection is idle shows in its half. -/
theorem isIdle_eq (m : Machine) (role : Role) : m.isIdle role = (m.half role).isIdle := by
  have htracked : decide (0 < m.pool.countOf role) =
      (List.range poolSize).any fun i => ((m.half role).slots i).isSome := by
    rw [Bool.eq_iff_iff, decide_eq_true_iff, countOf_pos_iff, List.any_eq_true]
    simp only [List.mem_range]
  unfold isIdle Half.isIdle
  rw [← htracked]
  rfl

/-- A segment that is tracked takes the first free slot. -/
theorem half_track (m : Machine) (role : Role) (seq : SeqNumber) (len : Nat) (kept : Kept) :
    (m.track role seq len kept).half role = ⟨m.conn role, fun i =>
      if m.pool.free? = some i then
        some (.track role seq len kept m.policy.retries m.policy.timeout)
      else m.pool.slotOf role i⟩ := by
  unfold track Slots.insert?
  cases hfree : m.pool.free? with
  | none => exact half_congr (by cases role <;> rfl) rfl
  | some j =>
    have hwithin : j < poolSize := by
      rw [Slots.free?_eq_find?] at hfree
      exact List.mem_range.mp (List.find?_range_eq_some.mp hfree).2.1
    show half { m with pool := _ } role = _
    rw [half_withPool, Pool.slotOf_put hwithin]
    congr 1
    funext i
    rw [Function.update_apply, Option.filter_some, if_pos (decide_eq_true (by rfl))]
    simp only [Option.some.injEq, eq_comm]

/-- **A connection that is closed in order uses the room that the other half leaves.** -/
theorem half_finish (m : Machine) (role : Role) (next : State) :
    (((m.forget role).setState role next).sendFin role).machine.half role =
      (m.half role).finished m.policy role (m.half role.other).room next := by
  have hslots : (m.pool.forget role).slotOf role = fun _ => none := Pool.slotOf_forget_self _ _
  have hroom : (m.pool.forget role).free? = (m.half role.other).room := Pool.free?_forget _ _
  have hconn : ((m.forget role).setState role next).conn role =
      { m.conn role with state := next } := by
    unfold setState
    rw [conn_setConn_self, conn_forget]
  have hpolicy : ((m.forget role).setState role next).policy = m.policy := policy_setConn _ _ _
  unfold sendFin
  dsimp only
  rw [half_track, conn_setConn_self, pool_setConn, pool_setState, policy_setConn, hconn, hpolicy]
  show Half.mk _ (fun i => if (m.pool.forget role).free? = some i then _ else
    (m.pool.forget role).slotOf role i) = _
  rw [hroom, hslots]
  rfl

/-- In two states to close a connection is to send a FIN. -/
theorem close_eq_finish {next : State}
    (closes : (m.conn role).state = .established ∧ next = .finWait1 ∨
      (m.conn role).state = .closeWait ∧ next = .lastAck) :
    m.close role = ((m.forget role).setState role next).sendFin role := by
  unfold close
  rcases closes with ⟨h, rfl⟩ | ⟨h, rfl⟩ <;> rw [h]

/-- **A connection is reaped by what its own half tells.** -/
theorem half_reap (m : Machine) (role : Role) :
    (m.reap role).machine.half role =
      (m.half role).reaped m.policy role (m.half role.other).room := by
  let counted : Machine := { m with counts := { m.counts with reaped := m.counts.reaped + 1 } }
  have hcounted (r : Role) : counted.half r = m.half r := half_congr (by cases r <;> rfl) rfl
  have hconn : counted.conn role = m.conn role := congrArg Half.conn (hcounted role)
  have hfinish {next : State}
      (closes : (m.conn role).state = .established ∧ next = .finWait1 ∨
        (m.conn role).state = .closeWait ∧ next = .lastAck) :
      (counted.close role).machine.half role =
        (m.half role).finished m.policy role (m.half role.other).room next := by
    rw [close_eq_finish (by rwa [hconn]), half_finish, hcounted, hcounted]
  have hdrop : (counted.reset role).half role = (m.half role).dropped := by
    rw [half_reset, hcounted]
  unfold reap Half.reaped
  rw [isIdle_eq, show (m.half role).conn.state = (m.conn role).state from rfl]
  split
  · cases hstate : (m.conn role).state
    case established => exact hfinish (.inl ⟨hstate, rfl⟩)
    case closeWait => exact hfinish (.inr ⟨hstate, rfl⟩)
    all_goals exact hdrop
  · rfl

theorem half_reap_of_ne (h : r ≠ role) : (m.reap role).machine.half r = m.half r := by
  unfold reap
  split
  · have hcounted : half { m with counts := { m.counts with reaped := m.counts.reaped + 1 } } r =
        m.half r := half_congr (by cases r <;> rfl) rfl
    dsimp only
    split
    · exact (half_close_of_ne h).trans hcounted
    · exact (half_close_of_ne h).trans hcounted
    · exact (half_reset_of_ne h).trans hcounted
  · rfl

theorem policy_reap (m : Machine) (role : Role) : (m.reap role).machine.policy = m.policy := by
  have hclose (m : Machine) : (m.close role).machine.policy = m.policy := by
    unfold close
    split <;> simp [sendFin, setState, forget]
  unfold reap
  split
  · dsimp only
    split
    · exact hclose _
    · exact hclose _
    · exact policy_setConn _ _ _
  · rfl

/-- The client is reaped first, and leaves its room to the server. -/
theorem half_reapIdle (m : Machine) :
    let client' := (m.half .client).reaped m.policy .client (m.half .server).room
    m.reapIdle.1.half .client = client' ∧
      m.reapIdle.1.half .server = (m.half .server).reaped m.policy .server client'.room := by
  have hclient : (m.reap .client).machine.half .server = m.half .server :=
    half_reap_of_ne (by decide)
  have hserver : m.reapIdle.1.half .client = (m.reap .client).machine.half .client :=
    half_reap_of_ne (by decide)
  constructor
  · rw [hserver]
    exact half_reap m .client
  · have hlast := half_reap (m.reap .client).machine .server
    rw [policy_reap, hclient, Role.other, half_reap m .client] at hlast
    exact hlast

/-! ## Upkeep -/

/-- **Upkeep is a function of the halves.** -/
theorem half_upkeep (m : Machine) :
    let client := (m.half .client).resent m.policy
    let server := (m.half .server).resent m.policy
    let client' := client.reaped m.policy .client server.room
    m.upkeep.1.half .client = client' ∧
      m.upkeep.1.half .server = server.reaped m.policy .server client'.room := by
  have hreaped := half_reapIdle m.resendDue.1
  have hpolicy : m.resendDue.1.policy = m.policy := policy_resendSlots m _
  have hupkeep : m.upkeep.1 = m.resendDue.1.reapIdle.1 := after_upkeep m
  rw [hpolicy, half_resendDue, half_resendDue] at hreaped
  -- The halves are named first: they are not to be computed, but compared as they stand.
  intro client server client'
  rw [hupkeep]
  exact hreaped

/-- Upkeep leaves a half alone in which nothing is due and the connection is not idle. -/
theorem half_upkeep_of_still
    (waits : ∀ i t, m.pool.get? i = some t → t.role = role → t.timeout ≠ 0)
    (young : (m.conn role).state.isAging → (m.conn role).age ≠ 0) :
    m.upkeep.1.half role = m.half role := by
  have hresent : (m.half role).resent m.policy = m.half role := by
    apply Half.resent_eq_self
    intro i t ht
    obtain ⟨slot, own⟩ := Pool.slotOf_eq_some.mp ht
    exact waits i t slot own
  have hreaped (place : Option Nat) :
      ((m.half role).resent m.policy).reaped m.policy role place = m.half role := by
    rw [hresent]
    exact Half.reaped_eq_self (Half.isIdle_eq_false young) role place
  cases role with
  | client => exact (half_upkeep m).1.trans (hreaped _)
  | server => exact (half_upkeep m).2.trans (hreaped _)

end Machine

end Tcp

end NetEngine
