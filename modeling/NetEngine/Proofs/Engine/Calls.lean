import NetEngine.Proofs.Engine.Handling
import NetEngine.Proofs.Tcp.Silence

/-! # Calls of the Engine Are Runs of the Transport Layer

    Whatever is called of an engine, and whatever its link does meanwhile, the
    transport layer sees a run of its own operations.

    * **Call**: one function of the engine with its arguments.
    * **Run**: what holds after every run of the transport layer holds in every
      engine, over every link.
    * **Quiet round**: the seconds pass and what is due is done, while nothing
      arrives and nothing else is called. -/

namespace NetEngine.Engine

open Tcp (Operation Role)

/-- What can be called of an engine. -/
inductive Call where
  | setAddress (address netmask gateway : Ipv4Address)
  | useClock (rate : Nat)
  | tick
  | catchUp (now : UInt32)
  | register (b : Udp.Binding)
  | unregister (slot : Nat)
  | freshPort
  | resolve (dst : Ipv4Address)
  | sendDatagram (srcPort dstPort : UInt16) (dst : Ipv4Address) (len : Nat) (source : Supplier)
  | connect (role : Role) (localPort remotePort : UInt16) (remote : Ipv4Address)
  | listen (port : UInt16)
  /-- What is lent is copied on `heap`. -/
  | send (role : Role) (source : Source) (tracked : Bool) (heap : Tcp.Heap)
  | close (role : Role)
  | abort (role : Role)
  | upkeep
  | poll

variable {L : Type} [Link L]

/-- The engine after a call. -/
def after (e : Engine L) : Call → Engine L
  | .setAddress address netmask gateway => e.setAddress address netmask gateway
  | .useClock rate => e.useClock rate
  | .tick => e.tick
  | .catchUp now => e.catchUp now
  | .register b => (e.register b).toOption.elim e (·.2)
  | .unregister slot => (e.unregister slot).toOption.getD e
  | .freshPort => e.freshPort.elim e (·.2)
  | .resolve dst => (e.resolve dst).2
  | .sendDatagram srcPort dstPort dst len source =>
    (e.sendDatagram srcPort dstPort dst len source).2
  | .connect role localPort remotePort remote => (e.connect role localPort remotePort remote).2
  | .listen port => (e.listen port).2
  | .send role source tracked heap => (e.send role source tracked heap).2
  | .close role => (e.close role).2
  | .abort role => (e.abort role).2
  | .upkeep => e.upkeep
  | .poll => e.poll.engine

/-! ## Calls that are one operation -/

/-- The link takes the SYN or refuses it. -/
theorem tcp_connect (e : Engine L) (role : Role) (localPort remotePort : UInt16)
    (remote : Ipv4Address) :
    ∃ sent, (e.connect role localPort remotePort remote).2.tcp =
      e.tcp.after (.connect role localPort remotePort remote sent) := by
  unfold connect
  simp only [Tcp.Machine.after]
  cases hconnect : e.tcp.connect role localPort remotePort remote with
  | error err =>
    -- There is no SYN that the link could refuse.
    exact ⟨true, rfl⟩
  | ok step =>
    dsimp only
    cases hfollow : e.follow step with
    | mk result e' =>
      have htcp : e'.tcp = step.machine := by
        have : (e.follow step).2.tcp = step.machine := rfl
        rwa [hfollow] at this
      cases result with
      | ok => exact ⟨true, htcp⟩
      | error err =>
        -- The link refuses the SYN, and the connection is taken back.
        refine ⟨false, ?_⟩
        show e'.tcp.reset role = step.machine.reset role
        rw [htcp]

omit [Link L] in
theorem tcp_listen (e : Engine L) (port : UInt16) :
    (e.listen port).2.tcp = e.tcp.after (.listen port) := by
  unfold listen
  simp only [Tcp.Machine.after]
  cases e.tcp.listen port <;> rfl

/-- The pieces count as sent up to the first one that the link refuses, or in front of the first one
that can not be copied. -/
theorem tcp_sendPieces (net : Net L) (tcp : Tcp.Machine) (role : Role) (source : Source)
    (tracked : Bool) (heap : Tcp.Heap) (ps : List Tcp.Piece) :
    ∃ attempts, (net.sendPieces tcp role source tracked heap ps).2.2 =
      (tcp.sendPieces role source tracked (ps.take attempts)).1 := by
  induction ps generalizing net tcp with
  | nil => exact ⟨0, rfl⟩
  | cons p ps ih =>
    unfold Net.sendPieces
    dsimp only
    split
    · exact ⟨0, rfl⟩
    · split
      · -- The piece that is refused counts as sent all the same.
        exact ⟨1, rfl⟩
      · rename_i net' _
        obtain ⟨attempts, h⟩ := ih net' (tcp.sendPiece role source tracked p).machine
        exact ⟨attempts + 1, h⟩

theorem tcp_send (e : Engine L) (role : Role) (source : Source) (tracked : Bool)
    (heap : Tcp.Heap) :
    ∃ attempts, (e.send role source tracked heap).2.tcp =
      e.tcp.after (.send role source tracked attempts) := by
  unfold send
  simp only [Tcp.Machine.after, Tcp.Machine.attempted]
  by_cases hopen : (e.tcp.conn role).state = .established
  · obtain ⟨attempts, h⟩ := tcp_sendPieces e.net e.tcp role source tracked heap
      (Tcp.pieces (e.tcp.conn role).segmentSize 0 source.size)
    refine ⟨attempts, ?_⟩
    rw [if_neg (not_not_intro hopen), if_pos hopen]
    exact h
  · -- Nothing is sent on a connection that is not open.
    refine ⟨0, ?_⟩
    rw [if_pos hopen, if_neg hopen]
    rfl

/-! ## Frames -/

/-- What becomes of the transport layer when a frame is taken: nothing, or it receives a segment. -/
def Hears (tcp tcp' : Tcp.Machine) : Prop :=
  tcp' = tcp ∨ ∃ s payload remote, tcp' = tcp.after (.receive s payload remote)

theorem hears_handle (e : Engine L) (frame : Ethernet.View) (c : ChecksumSet) :
    Hears e.tcp (e.handle frame c).engine.tcp := by
  have hhandled := handled_handle e frame c
  generalize e.handle frame c = o at hhandled ⊢
  cases hhandled with
  | left | arp => exact .inl rfl
  | datagram ip o intact parsed transported =>
    -- Only the neighbours were learnt before, which the transport layer does not see.
    cases transported with
    | left | echo | datagram => exact .inl rfl
    | segment s o parsed tcp =>
      exact .inr ⟨s, Tcp.View.payload (frame.drop frame.packetStart), ip.src, tcp⟩

theorem hears_poll (e : Engine L) : Hears e.tcp e.poll.engine.tcp := by
  unfold poll
  split
  · exact .inl rfl
  · exact hears_handle _ _ _

/-! ## Every call -/

omit [Link L] in
theorem tcp_ticks (n : Nat) (e : Engine L) :
    (ticks n e).tcp = e.tcp.run (List.replicate n .tick) := by
  induction n generalizing e with
  | zero => rfl
  | succ n ih => exact ih e.tick

/-- **Every call of an engine is a run of the transport layer.** -/
theorem tcp_after (e : Engine L) (call : Call) : ∃ ops, (e.after call).tcp = e.tcp.run ops := by
  have stay (h : (e.after call).tcp = e.tcp) : ∃ ops, (e.after call).tcp = e.tcp.run ops := ⟨[], h⟩
  have one (op : Operation) (h : (e.after call).tcp = e.tcp.after op) :
      ∃ ops, (e.after call).tcp = e.tcp.run ops := ⟨[op], h⟩
  cases call with
  | setAddress | useClock | resolve | sendDatagram => exact stay rfl
  | register b =>
    refine stay ?_
    show ((e.register b).toOption.elim e (·.2)).tcp = e.tcp
    unfold register
    cases e.ports.register b <;> rfl
  | unregister slot =>
    refine stay ?_
    show ((e.unregister slot).toOption.getD e).tcp = e.tcp
    unfold unregister
    cases e.ports.unregister slot <;> rfl
  | freshPort =>
    refine stay ?_
    show (e.freshPort.elim e (·.2)).tcp = e.tcp
    unfold freshPort
    cases e.ports.freshPort e.tcp.portInUse <;> rfl
  | tick => exact one .tick rfl
  | catchUp now => exact ⟨_, tcp_ticks _ e⟩
  | connect role localPort remotePort remote =>
    obtain ⟨sent, h⟩ := tcp_connect e role localPort remotePort remote
    exact one _ h
  | listen port => exact one _ (tcp_listen e port)
  | send role source tracked heap =>
    obtain ⟨attempts, h⟩ := tcp_send e role source tracked heap
    exact one _ h
  | close role => exact one (.close role) rfl
  | abort role => exact one (.abort role) rfl
  | upkeep =>
    refine one .upkeep ?_
    simp only [after, upkeep, Tcp.Machine.after]
  | poll =>
    rcases hears_poll e with h | ⟨s, payload, remote, h⟩
    · exact stay h
    · exact one _ h

/-- What every operation of the transport layer keeps holds after all calls of an engine. -/
theorem tcp_induction {P : Tcp.Machine → Prop} {e : Engine L} (start : P e.tcp)
    (keep : ∀ m op, P m → P (m.after op)) (calls : List Call) : P (calls.foldl after e).tcp := by
  induction calls generalizing e with
  | nil => exact start
  | cons call calls ih =>
    obtain ⟨ops, hops⟩ := tcp_after e call
    refine ih ?_
    rw [hops]
    exact Tcp.Machine.run_induction start keep ops

/-- The retransmission pool agrees with the connections after all calls of an engine. -/
theorem poolAgrees_calls (c : Config) (link : L) (calls : List Call) (role : Role) :
    (calls.foldl after (start c link)).tcp.PoolAgrees role := by
  have hagrees : Tcp.Side.Agrees role ((calls.foldl after (start c link)).tcp.side role) := by
    apply tcp_induction (P := fun m => Tcp.Side.Agrees role (m.side role))
    · exact Tcp.Machine.agrees_fresh _ _ role
    · intro m op h
      exact Tcp.Machine.agrees_after h op
  exact Tcp.Machine.poolAgrees_of_agrees hagrees

/-! ## Silence -/

/-- A second passes, and what is due is sent, whether the link takes it or not. -/
def quietRound (e : Engine L) : Engine L := e.tick.upkeep

theorem tcp_quietRound (e : Engine L) : e.quietRound.tcp = e.tcp.round := by
  simp only [quietRound, tick, upkeep, Tcp.Machine.round, Tcp.Machine.after]

theorem tcp_quietRounds (n : Nat) (e : Engine L) :
    (quietRound^[n] e).tcp = Tcp.Machine.round^[n] e.tcp := by
  induction n generalizing e with
  | zero => rfl
  | succ n ih =>
    rw [Function.iterate_succ_apply, Function.iterate_succ_apply, ih, tcp_quietRound]

/-- **A silent peer holds no connection**: whatever has happened before, every connection is closed
or listening after the rounds that the policy allows, and no segment is tracked. -/
theorem released_by_silence (e : Engine L) (policy : Tcp.Policy) (seed : UInt32)
    (ops : List Operation) (k : Nat) :
    let before := { e with tcp := (Tcp.Machine.fresh policy seed).run ops }
    let after := (quietRound^[policy.patience + k] before).tcp
    (∀ role, (after.conn role).state = .closed ∨ (after.conn role).state = .listen) ∧
      after.pool.toList = [] := by
  intro before after
  have hafter : after =
      Tcp.Machine.round^[policy.patience + k] ((Tcp.Machine.fresh policy seed).run ops) :=
    tcp_quietRounds _ before
  have htimely := Tcp.Machine.timely_run policy seed ops
  rw [hafter]
  constructor
  · intro role
    have hidle := Tcp.Machine.not_aging_of_patience htimely role k
    revert hidle
    cases (Tcp.Machine.round^[policy.patience + k]
      ((Tcp.Machine.fresh policy seed).run ops) |>.conn role).state <;> simp [Tcp.State.isAging]
  · exact Tcp.Machine.pool_of_patience htimely (Tcp.Machine.agrees_run policy seed ops) k

/-- Where there is no time to wait and no retry, a connection still takes a round to be closed and
another one to be given up. -/
example : Tcp.Policy.patience ⟨80, 0, 0, 0, true⟩ = 2 := by decide

end NetEngine.Engine
