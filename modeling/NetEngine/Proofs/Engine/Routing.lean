import NetEngine.Link.Loopback
import NetEngine.Proofs.Engine.Calls
import NetEngine.Proofs.Tcp.Routing

/-! # Segments Reach Their Connection

    A segment that the checksum, the parser and the flag filter have passed is
    taken for the connection of its peer, if the rules of the server port let it
    through.

    * **Taken for a role**: the frame counts as a segment of ours, and everything
      that it brings about is what the machine does for the role.
    * **Ruled at the port**: the rules of the server port decide alone, and no
      connection in use changes.

    Where both connections have the endpoints of the segment, the client takes
    it. -/

namespace NetEngine.Engine

open Tcp (Operation Role)

variable {L : Type} [Link L] {e : Engine L} {role : Role} {s : Tcp.Segment}
  {remote : Ipv4Address} {o : Outcome L}

/-- A frame has been taken as a segment for the connection of a role. -/
structure TakenFor (e : Engine L) (role : Role) (s : Tcp.Segment) (o : Outcome L) : Prop where
  fate : o.fate = .tcp
  tcp : o.engine.tcp = ((e.tcp.mixIn s).receiveFor role s).machine
  answer : o.engine.net = (e.net.follow ((e.tcp.mixIn s).receiveFor role s).out).2
  event : ∀ event, o.event = .ok (some event) → ∃ d, event = .tcp d ∧ d.role = role
  /-- The engine goes on, unless the segment is empty and half a round away from what the connection
  receives. -/
  goes_on : ¬ (s.flags.rst = false ∧ (e.tcp.conn role).state.receives ∧
    (e.tcp.conn role).IsHalfRoundAway s) → ∃ given, o.event = .ok given
  other : ∀ r, r ≠ role → o.engine.tcp.side r = e.tcp.side r

/-- The rules of the server port have decided on a segment: it is accepted as a SYN that opens the
server, or nobody wants it. -/
structure RuledAtPort (e : Engine L) (s : Tcp.Segment) (remote : Ipv4Address) (o : Outcome L) :
    Prop where
  accepted : e.tcp.server.state.isAging = false ∧ (s.flags.syn && !s.flags.ack) → o.fate = .tcp ∧
    o.engine.tcp = ((e.tcp.mixIn s).acceptSyn s remote).machine
  unwanted : ¬ (e.tcp.server.state.isAging = false ∧ (s.flags.syn && !s.flags.ack)) →
    o.fate = .unhandled ∧ ∀ r, o.engine.tcp.side r = e.tcp.side r
  client : o.engine.tcp.side .client = e.tcp.side .client
  event : o.event = .ok none

/-- A frame counts, answers and brings what the reaction of the machine tells. -/
structure Follows (e : Engine L) (a : Tcp.Reaction) (o : Outcome L) : Prop where
  fate : o.fate = if a.concerned then .tcp else .unhandled
  tcp : o.engine.tcp = a.machine
  answer : o.engine.net = (e.net.follow a.out).2
  event : ∀ event, o.event = .ok (some event) →
    ∃ d given, event = .tcp d ∧ a.delivery = .ok (some given) ∧ given.role = d.role
  stops : ∀ fault, o.event = .error fault → a.delivery = .error fault

/-- What becomes of a frame with a segment that has been decoded. -/
theorem receiveTcp_of_decoded {frame : Bytes} {offset : Nat} {ip : Ipv4.Header} {c : ChecksumSet}
    (decoded : e.tcp.decode (frame.drop offset) ip c = .ok s) :
    ∃ o, e.receiveTcp frame offset ip c = .ok o ∧ e.Follows (e.tcp.receive s ip.src) o := by
  unfold receiveTcp
  dsimp only
  rw [decoded]
  refine ⟨_, rfl, rfl, rfl, rfl, ?_, fun fault => map_eq_error_iff.mp⟩
  intro event hevent
  obtain ⟨given, hgiven, rfl⟩ := brought_of_map hevent
  exact ⟨_, given, rfl, hgiven, rfl⟩

theorem takenFor_of_follows (follows : e.Follows ((e.tcp.mixIn s).receiveFor role s) o) :
    e.TakenFor role s o := by
  have hacts := Tcp.Machine.reacts_receiveFor (e.tcp.mixIn s) role s
  constructor
  case fate =>
    rw [follows.fate, Tcp.Machine.concerned_receiveFor]
    rfl
  case tcp => exact follows.tcp
  case answer => exact follows.answer
  case event =>
    intro event hevent
    obtain ⟨d, given, rfl, hgiven, hrole⟩ := follows.event event hevent
    have hmem : given ∈ ((e.tcp.mixIn s).receiveFor role s).handed.toList := by
      rw [Tcp.Reaction.handed_eq hgiven]
      exact List.mem_singleton_self given
    exact ⟨d, rfl, hrole.symm.trans (Tcp.Machine.role_of_run hacts.own given hmem)⟩
  case goes_on =>
    intro near
    cases hevent : o.event with
    | ok given => exact ⟨given, rfl⟩
    | error fault =>
      have hstops := Tcp.Machine.delivery_receiveFor_eq_error_iff.mp (follows.stops fault hevent)
      rw [Tcp.Machine.conn_mixIn] at hstops
      exact absurd hstops near
  case other =>
    intro r hr
    rw [follows.tcp, hacts.other r hr, Tcp.Machine.side_mixIn]

theorem ruledAtPort_of_follows (kept : ¬ e.tcp.LetsThrough s remote)
    (follows : e.Follows (e.tcp.receive s remote) o) : e.RuledAtPort s remote o := by
  have hnone (h : (e.tcp.receive s remote).delivery = .ok none) : o.event = .ok none := by
    rcases hevent : o.event with fault | _ | event
    · have hfault := follows.stops fault hevent
      rw [h] at hfault
      cases hfault
    · rfl
    · obtain ⟨d, given, -, hgiven, -⟩ := follows.event event hevent
      rw [h] at hgiven
      cases hgiven
  have hkept := Tcp.Machine.receive_of_kept kept
  split at hkept
  · -- A SYN opens the server.
    rename_i hopens
    have hclient : o.engine.tcp.side .client = e.tcp.side .client := by
      have haccepted := (Tcp.Machine.opens_accept (e.tcp.mixIn s) s remote
        (by simpa using hopens.1)).2
      rw [follows.tcp, hkept, haccepted, Tcp.Machine.side_mixIn]
    refine ⟨fun _ => ⟨?_, ?_⟩, fun h => absurd hopens h, hclient, ?_⟩
    · rw [follows.fate, hkept]
      rfl
    · rw [follows.tcp, hkept]
    · apply hnone
      rw [hkept]
      rfl
  · rename_i hopens
    obtain ⟨hconcerned, hdelivery, hsides⟩ := hkept
    have hsame : ∀ r, o.engine.tcp.side r = e.tcp.side r := fun r => by rw [follows.tcp, hsides r]
    refine ⟨fun h => absurd h hopens, fun _ => ⟨?_, hsame⟩, hsame .client, hnone hdelivery⟩
    rw [follows.fate, hconcerned]
    rfl

/-- **A segment reaches the connection of its peer**, or the client if that has the same endpoints,
as long as the rules of the server port let it through.  Two connections have the same endpoints only
after an operation that opened one with the endpoints of the other. -/
theorem segment_reaches (e : Engine L) (policy : Tcp.Policy) (seed : UInt32)
    (ops : List Operation) (frame : Bytes) (offset : Nat) (ip : Ipv4.Header) (c : ChecksumSet) :
    let start := Tcp.Machine.fresh policy seed
    let e := { e with tcp := start.run ops }
    ∀ s role, e.tcp.decode (frame.drop offset) ip c = .ok s → e.tcp.Bears role s ip.src →
      ∃ o, e.receiveTcp frame offset ip c = .ok o ∧
        (e.tcp.LetsThrough s ip.src →
          e.TakenFor role s o ∨ e.tcp.Bears .client s ip.src ∧ e.TakenFor .client s o) ∧
        (¬ e.tcp.LetsThrough s ip.src → e.RuledAtPort s ip.src o) ∧
        ∀ other, other ≠ role → e.tcp.Bears other s ip.src →
          ∃ before op, before ++ [op] <+: ops ∧ (start.run before).Collides op := by
  intro start e s role decoded bears
  have hagrees : Tcp.Side.Agrees .client (e.tcp.side .client) :=
    Tcp.Machine.agrees_run policy seed ops .client
  obtain ⟨o, hresult, hfollows⟩ := receiveTcp_of_decoded decoded
  refine ⟨o, hresult, ?_, fun kept => ruledAtPort_of_follows kept hfollows, ?_⟩
  · intro passes
    obtain ⟨first, hreceive, hbears, hfirst⟩ :=
      Tcp.Machine.receive_of_bears hagrees bears passes
    rw [hreceive] at hfollows
    rcases hfirst with rfl | rfl
    · exact .inl (takenFor_of_follows hfollows)
    · exact .inr ⟨hbears, takenFor_of_follows hfollows⟩
  · intro other ne bearsOther
    exact Tcp.Machine.collided_of_shared (Tcp.Machine.not_shared_fresh policy seed) ops
      (Tcp.Machine.shared_of_bears ne bears bearsOther)

/-- The answer to the SYN of a client reaches the client. -/
theorem segment_reaches_client :
    let peer : Ipv4Address := ⟨10, 0, 0, 2⟩
    let start := Tcp.Machine.fresh ⟨80, 3, 1, 5, true⟩ 1
    let ops : List Operation := [.connect .client 4000 7000 peer true]
    let e := { Engine.start { address := ⟨10, 0, 0, 1⟩ } ({} : Loopback) with tcp := start.run ops }
    let s : Tcp.Segment :=
      ⟨7000, 4000, ⟨100⟩, e.tcp.client.lastSent, .SYN ||| .ACK, 1024, none, 0⟩
    let ip : Ipv4.Header := ⟨peer, ⟨10, 0, 0, 1⟩, .tcp, 20, 64⟩
    ∃ o, e.receiveTcp s.encode 0 ip { tcp := true } = .ok o ∧ e.TakenFor .client s o := by
  intro peer start ops e s ip
  have decoded : e.tcp.decode (s.encode.drop 0) ip { tcp := true } = .ok s := by decide +kernel
  have bears : e.tcp.Bears .client s ip.src := by
    unfold Tcp.Machine.Bears
    decide +kernel
  have passes : e.tcp.LetsThrough s ip.src := .inl (by decide +kernel)
  obtain ⟨o, hresult, htaken, -⟩ :=
    segment_reaches e _ _ ops s.encode 0 ip { tcp := true } s .client decoded bears
  exact ⟨o, hresult, (htaken passes).elim id And.right⟩

/-- The answer to the SYN of a client does not reach it, if it has the port of the server, which is
not in use; and two connections may have the same endpoints. -/
theorem segment_lost_at_port :
    let peer : Ipv4Address := ⟨10, 0, 0, 2⟩
    let start := Tcp.Machine.fresh ⟨80, 3, 1, 5, true⟩ 1
    let ops : List Operation := [.connect .client 80 7000 peer true]
    let e := { Engine.start { address := ⟨10, 0, 0, 1⟩ } ({} : Loopback) with tcp := start.run ops }
    let s : Tcp.Segment :=
      ⟨7000, 80, ⟨100⟩, e.tcp.client.lastSent, .SYN ||| .ACK, 1024, none, 0⟩
    let ip : Ipv4.Header := ⟨peer, ⟨10, 0, 0, 1⟩, .tcp, 20, 64⟩
    e.tcp.decode (s.encode.drop 0) ip { tcp := true } = .ok s ∧ e.tcp.Bears .client s ip.src ∧
      (e.receiveTcp s.encode 0 ip { tcp := true }).toOption.map
          (fun o => (o.fate, o.engine.tcp.client.state)) = some (.unhandled, .synSent) ∧
      (start.run (ops ++ [.connect .server 80 7000 peer true])).Shared := by
  unfold Tcp.Machine.Bears Tcp.Machine.Shared
  decide +kernel

end NetEngine.Engine
