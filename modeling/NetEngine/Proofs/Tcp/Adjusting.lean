import Mathlib.Logic.Relation
import NetEngine.Proofs.Tcp.Reacting
import NetEngine.Proofs.Tcp.Upkeep

/-! # What the Timers See of an Operation

    Besides the passing of time, and what is done when a slot is due, an
    operation does no more to the timers than a few **adjustments**.

    * **Age**: a connection keeps its age, or takes up its whole idle time again.
    * **Pool**: segments are forgotten.  One is tracked with all of its retries,
      for a connection that has just taken up its idle time.

    What each adjustment keeps, a second keeps and a slot that is looked at keeps
    holds after every run. -/

namespace NetEngine.Tcp.Machine

variable {m m₀ m' : Machine} {role : Role} {s : Segment}

/-! ## Adjustments -/

/-- What an operation is made of, as far as the timers are concerned. -/
inductive Adjusts (m : Machine) : Machine → Prop
  | conn (role : Role) (c : Connection)
      (age : c.age = (m.conn role).age ∨ c.age = m.policy.maxAge) : Adjusts m (m.setConn role c)
  | drop (pool : Pool) (kept : ∀ i t, pool.get? i = some t → m.pool.get? i = some t) :
      Adjusts m { m with pool := pool }
  | track (role : Role) (seq : SeqNumber) (len : Nat) (kept : Kept)
      (young : (m.conn role).age = m.policy.maxAge) : Adjusts m (m.track role seq len kept)
  /-- Something has changed that no timer depends on. -/
  | beside (m' : Machine) (client : m'.client = m.client) (server : m'.server = m.server)
      (pool : m'.pool = m.pool)
      (policy : m'.policy = { m.policy with serverPort := m'.policy.serverPort }) : Adjusts m m'

/-- What stands in a slot when a segment has been tracked was there before, or is its entry. -/
theorem get?_of_get?_track {i : Nat} {t : Tracked} {seq : SeqNumber} {len : Nat} {kept : Kept}
    (slot : (m.track role seq len kept).pool.get? i = some t) :
    m.pool.get? i = some t ∨ t = .track role seq len kept m.policy.retries m.policy.timeout := by
  unfold track at slot
  split at slot
  · exact Pool.get?_of_get?_insert ‹_› slot
  · exact .inl slot

/-- One adjustment after the other. -/
def Adjusted : Machine → Machine → Prop := Relation.ReflTransGen Adjusts

namespace Adjusted

theorem refl (m : Machine) : Adjusted m m := Relation.ReflTransGen.refl

theorem tail (h : Adjusted m₀ m) (last : Adjusts m m') : Adjusted m₀ m' :=
  Relation.ReflTransGen.tail h last

/-- What every adjustment keeps is kept. -/
theorem preserves {P : Machine → Prop} (h : Adjusted m m')
    (keep : ∀ m m', Adjusts m m' → P m → P m') (start : P m) : P m' := by
  induction h with
  | refl => exact start
  | tail _ last ih => exact keep _ _ last ih

/-! ### What operations are made of -/

theorem beside (h : Adjusted m₀ m) (client : m'.client = m.client) (server : m'.server = m.server)
    (pool : m'.pool = m.pool) (policy : m'.policy = m.policy) : Adjusted m₀ m' :=
  h.tail (.beside m' client server pool (by rw [policy]))

/-- A connection keeps its age. -/
theorem withConn (h : Adjusted m₀ m) (role : Role) {c : Connection}
    (age : c.age = (m.conn role).age) : Adjusted m₀ (m.setConn role c) :=
  h.tail (.conn role c (.inl age))

/-- A connection takes up its whole idle time again. -/
theorem withYoung (h : Adjusted m₀ m) (role : Role) {c : Connection}
    (age : c.age = m.policy.maxAge) : Adjusted m₀ (m.setConn role c) :=
  h.tail (.conn role c (.inr age))

theorem setState (h : Adjusted m₀ m) (role : Role) (s : State) : Adjusted m₀ (m.setState role s) :=
  h.withConn role rfl

theorem rejuvenate (h : Adjusted m₀ m) (role : Role) : Adjusted m₀ (m.rejuvenate role) :=
  h.withYoung role rfl

theorem forget (h : Adjusted m₀ m) (role : Role) : Adjusted m₀ (m.forget role) :=
  h.tail (.drop _ fun _ _ slot => (Pool.get?_forget_eq_some.mp slot).1)

theorem reset (h : Adjusted m₀ m) (role : Role) : Adjusted m₀ (m.reset role) :=
  (h.forget role).setState role .closed

theorem giveUp (h : Adjusted m₀ m) (role : Role) : Adjusted m₀ (m.giveUp role) :=
  (h.reset role).beside rfl rfl rfl rfl

/-- A segment is sent on a connection, and tracked. -/
theorem trackSent (h : Adjusted m₀ m) (role : Role) {c : Connection}
    (age : c.age = m.policy.maxAge) (seq : SeqNumber) (len : Nat) (kept : Kept) :
    Adjusted m₀ ((m.setConn role c).track role seq len kept) :=
  (h.withYoung role age).tail (.track role seq len kept (by simpa using age))

theorem sendAck (h : Adjusted m₀ m) (role : Role) : Adjusted m₀ (m.sendAck role).machine :=
  h.rejuvenate role

theorem sendFin (h : Adjusted m₀ m) (role : Role) : Adjusted m₀ (m.sendFin role).machine :=
  h.trackSent role rfl _ 1 _

/-! ### Calls of the application -/

theorem connect (h : Adjusted m₀ m) {localPort remotePort : UInt16} {remote : Ipv4Address}
    {step : Step} (called : m.connect role localPort remotePort remote = .ok step) :
    Adjusted m₀ step.machine := by
  unfold Machine.connect at called
  dsimp only at called
  split at called
  · cases called
  · cases called
    exact h.trackSent role rfl _ 1 _

theorem listen (h : Adjusted m₀ m) {port : UInt16} (called : m.listen port = .ok m') :
    Adjusted m₀ m' := by
  unfold Machine.listen at called
  split at called
  · cases called
    have hset : Adjusted m₀ (m.setConn .server
        { m.server with state := .listen, localPort := port }) := h.withConn .server rfl
    exact hset.tail (.beside _ rfl rfl rfl rfl)
  · cases called

theorem sendPiece (h : Adjusted m₀ m) (role : Role) (source : Source) (tracked : Bool)
    (piece : Piece) : Adjusted m₀ (m.sendPiece role source tracked piece).machine := by
  unfold Machine.sendPiece
  dsimp only
  split
  · exact h.trackSent role rfl _ _ _
  · exact h.withYoung role rfl

theorem close (h : Adjusted m₀ m) (role : Role) : Adjusted m₀ (m.close role).machine := by
  have hforget := h.forget role
  unfold Machine.close
  split
  · exact (hforget.setState role _).sendFin role
  · exact (hforget.setState role _).sendFin role
  · exact (hforget.setState role _).sendFin role
  · exact hforget.setState role _
  · exact hforget.setState role _
  · exact hforget

/-! ### Reaping -/

theorem reap (h : Adjusted m₀ m) (role : Role) : Adjusted m₀ (m.reap role).machine := by
  have hcounted : Adjusted m₀
      { m with counts := { m.counts with reaped := m.counts.reaped + 1 } } :=
    h.beside rfl rfl rfl rfl
  unfold Machine.reap
  split
  · dsimp only
    split
    · exact hcounted.close role
    · exact hcounted.close role
    · exact hcounted.reset role
  · exact h

theorem reapIdle (h : Adjusted m₀ m) : Adjusted m₀ m.reapIdle.1 :=
  steps_induction (fun _ role hm => hm.reap role) h Role.all

/-! ### Segments -/

theorem takeAck (h : Adjusted m₀ m) (role : Role) (s : Segment) :
    Adjusted m₀ (m.takeAck role s) := by
  unfold Machine.takeAck
  dsimp only
  split
  · have hnoted : Adjusted m₀ (m.setConn role { m.conn role with
        lastAcked := s.ackNumber, window := s.window }) := h.withConn role rfl
    exact hnoted.tail (.drop _ fun _ _ slot => Pool.get?_of_get?_forgetCovered slot)
  · exact h

/-- What is taken changes no age. -/
theorem setTaken (h : Adjusted m₀ m) {a : Taken} (taken : (m.conn role).take s = some a) :
    Adjusted m₀ (m.setConn role a.conn) := by
  refine h.withConn role ?_
  rw [Connection.conn_of_take taken]

theorem receiveOpen (h : Adjusted m₀ m) (role : Role) (s : Segment) :
    Adjusted m₀ (m.receiveOpen role s).machine := by
  cases htake : (m.conn role).take s with
  | none =>
    rw [Machine.receiveOpen, htake]
    exact h
  | some a =>
    have htaken := h.setTaken htake
    rw [Machine.receiveOpen, htake]
    dsimp only
    split
    · exact (htaken.setState role _).sendFin role
    · split
      · exact htaken.sendAck role
      · exact htaken

theorem receiveClosing (h : Adjusted m₀ m) (role : Role) (s : Segment) :
    Adjusted m₀ (m.receiveClosing role s).machine := by
  cases htake : (m.conn role).take s with
  | none =>
    rw [Machine.receiveClosing, htake]
    exact h
  | some a =>
    rw [Machine.receiveClosing, htake]
    dsimp only
    rw [← settle]
    have hsettled : Adjusted m₀ (m.settle role a).machine := by
      have htaken := h.setTaken htake
      unfold settle
      split
      · exact htaken.sendAck role
      · exact htaken
    split
    · exact hsettled.reset role
    · split
      · exact hsettled.setState role _
      · exact hsettled

theorem receiveInState (h : Adjusted m₀ m) (role : Role) (s : Segment) :
    Adjusted m₀ (m.receiveInState role s).machine := by
  unfold Machine.receiveInState
  dsimp only
  split
  · split
    · have hopened : Adjusted m₀ (m.setConn role (Side.answered (m.conn role) s)) :=
        h.withConn role rfl
      exact (hopened.forget role).sendAck role
    · exact h
  · split
    · have hopened : Adjusted m₀ (m.opened role s) := h.withConn role rfl
      exact hopened.receiveOpen role s
    · exact h
  · exact h.receiveOpen role s
  · exact h.receiveClosing role s
  · exact h.receiveClosing role s
  · split
    · exact h.reset role
    · exact h
  · exact h

theorem receiveFor (h : Adjusted m₀ m) (role : Role) (s : Segment) :
    Adjusted m₀ (m.receiveFor role s).machine := by
  have hyoung := h.rejuvenate role
  unfold Machine.receiveFor
  dsimp only
  split
  · exact hyoung.reset role
  · exact (hyoung.takeAck role s).receiveInState role s

theorem acceptSyn (h : Adjusted m₀ m) (s : Segment) (remote : Ipv4Address) :
    Adjusted m₀ (m.acceptSyn s remote).machine := by
  have haccepted : Adjusted m₀ (m.setConn .server (Side.accepting m.server s remote
      (m.server.lastSent + (1500 + m.isn.draw.1.toNat)) m.policy.maxAge)) :=
    h.withYoung .server rfl
  have hopening : Adjusted m₀ { m with
      isn := m.isn.draw.2
      server := Side.accepting m.server s remote
        (m.server.lastSent + (1500 + m.isn.draw.1.toNat)) m.policy.maxAge } :=
    haccepted.beside rfl rfl rfl rfl
  exact (hopening.forget .server).tail (.track .server _ 1 _ rfl)

theorem receive (h : Adjusted m₀ m) (s : Segment) (remote : Ipv4Address) :
    Adjusted m₀ (m.receive s remote).machine := by
  have hmixed : Adjusted m₀ (m.mixIn s) := by
    unfold mixIn
    split
    · exact h.beside rfl rfl rfl rfl
    · exact h
  have howned : Adjusted m₀ ((m.mixIn s).receiveOwned s remote).machine := by
    unfold receiveOwned
    split
    · exact hmixed.receiveFor _ s
    · exact hmixed
  unfold Machine.receive receiveMixed
  dsimp only
  split
  · exact howned
  · split
    · split
      · exact hmixed.acceptSyn s remote
      · exact hmixed
    · split
      · exact howned
      · split
        · exact hmixed.beside rfl rfl rfl rfl
        · exact hmixed

end Adjusted

/-! ## Operations -/

/-- An operation adjusts the timers, or it lets a second pass or does what is due. -/
theorem adjusted_after (m : Machine) (op : Operation) :
    Adjusted m (m.after op) ∨ op = .tick ∨ op = .upkeep := by
  have h := Adjusted.refl m
  cases op with
  | connect role localPort remotePort remote sent =>
    left
    unfold after
    dsimp only
    split
    · exact h
    · rename_i step hconnect
      have hstep := h.connect hconnect
      split
      · exact hstep
      · exact hstep.reset role
  | listen port =>
    left
    unfold after
    dsimp only
    split
    · exact h
    · exact h.listen ‹_›
  | send role source tracked attempts =>
    exact .inl (steps_induction (fun _ piece hm => hm.sendPiece role source tracked piece) h _)
  | close role => exact .inl (h.close role)
  | abort role => exact .inl (h.reset role)
  | tick => exact .inr (.inl rfl)
  | upkeep => exact .inr (.inr rfl)
  | receive s payload remote => exact .inl (h.receive s remote)

end NetEngine.Tcp.Machine
