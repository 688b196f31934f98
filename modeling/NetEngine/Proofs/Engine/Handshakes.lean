import NetEngine.Link.Loopback
import NetEngine.Proofs.Engine.Calls
import NetEngine.Proofs.Tcp.Schedule

/-! # Handshakes That Nobody Answers

    A role has sent a SYN, and hears nothing.  Every second brings a tick and a
    round of resending; the other role may be used in between, and the link may
    take what is sent or refuse it.

    * **Course**: what happens meanwhile.
    * **On course**: the half of the role keeps to its schedule along a course, and
      what is counted as failed is told by it and by the other role.

    The schedule is that of the half alone, so that the induction on the course has
    nothing to say about the other half and about the link. -/

namespace NetEngine.Engine

open Tcp (Operation Outgoing Role)
open Tcp.Half (BeforeRound OnSchedule)

variable {L : Type} [Link L]

/-! ## Courses -/

/-- An engine comes from `start` to another one in `n` seconds, each of which brings a tick and then
a round of resending, while the role hears nothing and nothing is called for it.  The round of the
last second may be still `due`; in the rounds that are over the other role has been given up
`others` times. -/
inductive Course (role : Role) (start : Engine L) : Nat → Bool → Nat → Engine L → Prop
  | start : Course role start 0 false 0 start
  /-- Whatever does not concern the transport layer may happen, also to the link. -/
  | beside {n : Nat} {due : Bool} {others : Nat} {e : Engine L} (e' : Engine L)
      (course : Course role start n due others e) (tcp : e'.tcp = e.tcp) :
      Course role start n due others e'
  /-- The other role is used, or a segment arrives that this role does not take. -/
  | other {n : Nat} {due : Bool} {others : Nat} {e : Engine L} (op : Operation) (e' : Engine L)
      (course : Course role start n due others e) (spares : e.tcp.Spares role op)
      (tcp : e'.tcp = e.tcp.after op) : Course role start n due others e'
  | tick {n others : Nat} {e : Engine L} (course : Course role start n false others e) :
      Course role start (n + 1) true others e.tick
  | upkeep {n others : Nat} {e : Engine L} (course : Course role start n true others e) :
      Course role start n false (others + e.tcp.givenUp role.other) e.upkeep

/-- Silence is a course. -/
theorem course_quietRounds (role : Role) (start : Engine L) (n : Nat) :
    ∃ others, Course role start n false others (quietRound^[n] start) := by
  induction n with
  | zero => exact ⟨0, .start⟩
  | succ n ih =>
    obtain ⟨others, course⟩ := ih
    rw [Function.iterate_succ_apply']
    exact ⟨_, course.tick.upkeep⟩

/-! ## On course -/

/-- What a handshake has come to after `n` seconds, with the last round to come or not. -/
structure OnCourse (p : Tcp.Policy) (c : Tcp.Connection) (kept : Tcp.Kept) (i : Nat) (role : Role)
    (failed : UInt32) (n : Nat) (due : Bool) (others : Nat) (m : Tcp.Machine) : Prop where
  timely : m.Timely p
  half : if due then BeforeRound p c kept i n (m.half role) else OnSchedule p c kept i n (m.half role)
  failed : m.counts.failed =
    failed + .ofNat
      (others + if (if due then p.giveUpTime < n else p.giveUpTime ≤ n) then 1 else 0)

namespace OnCourse

variable {p : Tcp.Policy} {c : Tcp.Connection} {kept : Tcp.Kept} {i n others : Nat}
  {failed : UInt32} {role : Role} {due : Bool} {m : Tcp.Machine} {op : Operation}

/-- What spares the role changes nothing. -/
theorem other (h : OnCourse p c kept i role failed n due others m) (spares : m.Spares role op) :
    OnCourse p c kept i role failed n due others (m.after op) where
  timely := h.timely.after op
  half := by
    rw [Tcp.Machine.half_after_of_spares spares]
    exact h.half
  failed := by
    have hop : op ≠ .upkeep := by
      rintro rfl
      exact spares
    rw [Tcp.Machine.failed_after hop]
    exact h.failed

theorem tick (h : OnCourse p c kept i role failed n false others m) :
    OnCourse p c kept i role failed (n + 1) true others m.tick where
  timely := h.timely.tick
  half := by
    rw [Tcp.Machine.half_tick]
    exact OnSchedule.tick h.half
  failed := by
    have hfailed := h.failed
    simp only [Bool.false_eq_true, if_false] at hfailed
    simp only [if_true, Nat.lt_succ_iff]
    exact hfailed

/-- The role is not idle after resending. -/
theorem busy (h : OnCourse p c kept i role failed n true others m) (timeout : 1 ≤ p.timeout) :
    OnSchedule p c kept i n (m.resendDue.1.half role) ∧ m.resendDue.1.isIdle role = false := by
  have hpolicy := h.timely.policy
  have hresent : OnSchedule p c kept i n (m.resendDue.1.half role) := by
    rw [Tcp.Machine.half_resendDue]
    exact BeforeRound.resent h.half timeout (by rw [hpolicy]) (by rw [hpolicy])
  refine ⟨hresent, ?_⟩
  rw [Tcp.Machine.isIdle_eq]
  exact hresent.isIdle

/-- **A round keeps the course.** -/
theorem upkeep (h : OnCourse p c kept i role failed n true others m) (timeout : 1 ≤ p.timeout) :
    OnCourse p c kept i role failed n false (others + m.givenUp role.other) (m.after .upkeep) where
  timely := h.timely.after .upkeep
  half := by
    obtain ⟨place, hhalf⟩ := Tcp.Machine.half_after_upkeep m role
    obtain ⟨hresent, -⟩ := h.busy timeout
    rw [Tcp.Machine.half_resendDue] at hresent
    rw [hhalf, Tcp.Half.reaped_eq_self hresent.isIdle]
    exact hresent
  failed := by
    have hfailed := h.failed
    have hgiven := Tcp.Machine.givenUp_of_beforeRound h.half timeout
    simp only [if_true] at hfailed
    rw [Tcp.Machine.failed_after_upkeep m role, hfailed, hgiven, UInt32.add_assoc,
      ← UInt32.ofNat_add]
    simp only [Bool.false_eq_true, if_false]
    congr 2
    -- The time to give up is now, or it is over, or it is to come.
    split_ifs <;> omega

end OnCourse

/-- **Along a course, the role keeps to its schedule.** -/
theorem onCourse_of_course {role : Role} {start e : Engine L} {n others : Nat} {due : Bool}
    {p : Tcp.Policy} {c : Tcp.Connection} {kept : Tcp.Kept} {i : Nat}
    (course : Course role start n due others e) (timeout : 1 ≤ p.timeout)
    (opened : OnCourse p c kept i role start.tcp.counts.failed 0 false 0 start.tcp) :
    OnCourse p c kept i role start.tcp.counts.failed n due others e.tcp := by
  induction course with
  | start => exact opened
  | beside e' _ tcp ih =>
    rw [tcp]
    exact ih
  | other op e' _ spares tcp ih =>
    rw [tcp]
    exact ih.other spares
  | tick _ ih => exact ih.tick
  | @upkeep n others e _ ih =>
    have htcp : e.upkeep.tcp = e.tcp.after .upkeep := by
      simp only [upkeep, Tcp.Machine.after]
    rw [htcp]
    exact ih.upkeep timeout

/-! ## The schedule -/

/-- What the round of the second `n` does for a role whose SYN nobody answers. -/
structure InRound (p : Tcp.Policy) (role : Role) (syn : Outgoing) (n : Nat) (m : Tcp.Machine) :
    Prop where
  /-- The SYN is resent at its resend times, and nothing else is sent at any time. -/
  sent : m.sentBy role .upkeep = if n ∈ p.resendTimes then [syn] else []
  /-- The connection is never given up for being idle. -/
  busy : m.resendDue.1.isIdle role = false

/-- What has become of a role whose SYN nobody answers after `n` seconds and their rounds. -/
structure AfterRounds (p : Tcp.Policy) (role : Role) (opened : Tcp.Machine) (n others : Nat)
    (m : Tcp.Machine) : Prop where
  opening : n < p.giveUpTime →
    (m.conn role).state = (opened.conn role).state ∧ 0 < m.pool.countOf role
  closed : p.giveUpTime ≤ n → (m.conn role).state = .closed ∧ m.pool.countOf role = 0
  /-- This role has been given up once in all. -/
  failed : m.counts.failed =
    opened.counts.failed + .ofNat (others + if p.giveUpTime ≤ n then 1 else 0)

theorem OnCourse.inRound {p : Tcp.Policy} {c : Tcp.Connection} {kept : Tcp.Kept}
    {i n others : Nat} {failed : UInt32} {role : Role} {m : Tcp.Machine}
    (h : OnCourse p c kept i role failed n true others m) (timeout : 1 ≤ p.timeout) :
    InRound p role (Tcp.Machine.rebuild c kept) n m where
  sent := Tcp.Machine.sentBy_of_beforeRound h.half timeout (h.busy timeout).2
  busy := (h.busy timeout).2

theorem OnCourse.afterRounds {p : Tcp.Policy} {kept : Tcp.Kept} {i n others : Nat} {role : Role}
    {m opened : Tcp.Machine} (timeout : 1 ≤ p.timeout)
    (h : OnCourse p (opened.conn role) kept i role opened.counts.failed n false others m) :
    AfterRounds p role opened n others m := by
  have hmono := Tcp.Policy.resendTime_strictMono timeout
  have hhalf : OnSchedule p (opened.conn role) kept i n (m.half role) := h.half
  have hfailed := h.failed
  simp only [Bool.false_eq_true, if_false] at hfailed
  rcases hhalf with ⟨k, hk, hle, hlt, htrying⟩ | ⟨hle, hover⟩
  · have hbefore : n < p.giveUpTime := hlt.trans_le (hmono.monotone (by omega))
    refine ⟨fun _ => ?_, fun h => absurd h (Nat.not_le.mpr hbefore), hfailed⟩
    obtain ⟨age, hconn⟩ := htrying.conn
    obtain ⟨t, -, -, -, hslots⟩ := htrying.slots
    refine ⟨congrArg (·.state) hconn, ?_⟩
    rw [Tcp.Machine.countOf_pos_iff]
    exact ⟨i, htrying.within, by rw [hslots i, if_pos rfl]; rfl⟩
  · refine ⟨fun h => absurd hle (Nat.not_le.mpr h), fun _ => ⟨hover.closed, ?_⟩, hfailed⟩
    by_contra hne
    obtain ⟨j, -, hslot⟩ := (Tcp.Machine.countOf_pos_iff m role).mp (Nat.pos_of_ne_zero hne)
    rw [hover.empty j] at hslot
    cases hslot

/-- **A SYN that nobody answers is resent on schedule, and given up in the end**, whatever the other
role does and whether the link takes what is sent or not.

The operation `op` sends the SYN, after any others. -/
theorem handshake_on_schedule (policy : Tcp.Policy) (seed : UInt32) (ops : List Operation)
    (op : Operation) (role : Role) (e : Engine L) (timeout : 1 ≤ policy.timeout)
    (before : (((Tcp.Machine.fresh policy seed).run ops).conn role).state.isOpening = false)
    (tcp : e.tcp = ((Tcp.Machine.fresh policy seed).run ops).after op)
    (opening : (e.tcp.conn role).state.isOpening) (tracked : 0 < e.tcp.pool.countOf role) :
    policy.resendTimes.length = policy.retries.toNat ∧
    (policy.resendTimes ++ [policy.giveUpTime]).Pairwise (· < ·) ∧
    ∃ seq flags, flags.syn ∧
      let syn := Tcp.Machine.rebuild (e.tcp.conn role) (.control seq flags)
      ((Tcp.Machine.fresh policy seed).run ops).sentBy role op = [syn] ∧
      ∀ n others e',
        (Course role e n true others e' → InRound policy role syn n e'.tcp) ∧
        (Course role e n false others e' → AfterRounds policy role e.tcp n others e'.tcp) := by
  have htimely := Tcp.Machine.timely_run policy seed ops
  have hpolicy := htimely.policy
  rw [tcp] at opening tracked
  obtain ⟨i, seq, flags, hsyn, htrying, hsent⟩ := Tcp.Machine.sendsSyn_of_opened (p := policy)
    (Tcp.Machine.agrees_run policy seed ops role) ⟨by rw [hpolicy], by rw [hpolicy]⟩
    before opening tracked
  rw [← tcp] at htrying hsent
  have hfirst : policy.resendTime 1 = policy.timeout.toNat := by
    have hlt := policy.timeout.toNat_lt
    simp [Tcp.Policy.resendTime]
    omega
  have hmono := Tcp.Policy.resendTime_strictMono timeout
  have hopened : OnCourse policy (e.tcp.conn role) (.control seq flags) i role
      e.tcp.counts.failed 0 false 0 e.tcp := by
    refine ⟨?_, .inl ⟨0, Nat.zero_le _, le_rfl, hmono Nat.zero_lt_one, ?_⟩, ?_⟩
    · rw [tcp]
      exact htimely.after op
    · rw [Nat.sub_zero, hfirst]
      exact htrying
    · have hlater : ¬ policy.giveUpTime ≤ 0 := Nat.not_le.mpr (hmono (Nat.succ_pos _))
      simp [hlater]
  refine ⟨by simp [Tcp.Policy.resendTimes], Tcp.Policy.pairwise_resendTimes timeout, seq, flags, hsyn,
    hsent, fun n others e' => ⟨fun course => ?_, fun course => ?_⟩⟩
  · exact (onCourse_of_course course timeout hopened).inRound timeout
  · exact (onCourse_of_course course timeout hopened).afterRounds timeout

/-- A client that is left alone is given up after fifteen seconds. -/
theorem givenUp_after_fifteen :
    let policy : Tcp.Policy := ⟨80, 3, 1, 100, true⟩
    let op := Operation.connect .client 4000 7 ⟨192, 168, 0, 2⟩ true
    let idle := Tcp.Machine.fresh policy 1
    let e : Engine Loopback := { start {} ({} : Loopback) with tcp := idle.after op }
    1 ≤ policy.timeout ∧ (idle.conn .client).state.isOpening = false ∧
      (e.tcp.conn .client).state.isOpening ∧ 0 < e.tcp.pool.countOf .client ∧
      policy.resendTimes = [1, 3, 7] ∧ policy.giveUpTime = 15 ∧
      ((quietRound^[15] e).tcp.conn .client).state = .closed := by
  intro policy op idle e
  have htimeout : 1 ≤ policy.timeout := by decide
  have hbefore : (idle.conn .client).state.isOpening = false := by decide
  have hopening : (e.tcp.conn .client).state.isOpening := by decide
  have htracked : 0 < e.tcp.pool.countOf .client := by decide
  have hgiveUp : policy.giveUpTime = 15 := by decide
  obtain ⟨others, hcourse⟩ := course_quietRounds .client e 15
  obtain ⟨-, -, seq, flags, -, -, hafter⟩ :=
    handshake_on_schedule policy 1 [] op .client e htimeout hbefore rfl hopening htracked
  have hclosed := ((hafter 15 others _).2 hcourse).closed hgiveUp.le
  exact ⟨htimeout, hbefore, hopening, htracked, by decide, hgiveUp, hclosed.1⟩

end NetEngine.Engine
