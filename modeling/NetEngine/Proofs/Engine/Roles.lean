import NetEngine.Proofs.Engine.Calls
import NetEngine.Proofs.Tcp.Separation

/-! # Two Roles That Do Not Disturb Each Other

    A client and a server share one engine, one pool and one register for initial
    sequence numbers.  What the application calls for one of them, and what the
    link makes of it, leaves the half of the other one as it is, and so does every
    segment that the other one does not take.

    Upkeep goes through both halves at once, but no half can tell that it is not
    alone, but for the slot in which a FIN of the reaper is tracked. -/

namespace NetEngine

namespace Engine

open Tcp (Role)

variable {L : Type} [Link L]

/-- What can be relied on by one role, whatever happens to the other one. -/
structure RolesApart (e : Engine L) : Prop where
  connect : ∀ role localPort remotePort remote,
    (e.connect role localPort remotePort remote).2.tcp.half role.other = e.tcp.half role.other
  send : ∀ role source tracked heap,
    (e.send role source tracked heap).2.tcp.half role.other = e.tcp.half role.other
  close : ∀ role, (e.close role).2.tcp.half role.other = e.tcp.half role.other
  abort : ∀ role, (e.abort role).2.tcp.half role.other = e.tcp.half role.other
  /-- A segment concerns the role that takes it, if there is one. -/
  receive : ∀ s remote role, e.tcp.responder? s remote ≠ some role →
    (e.tcp.receive s remote).machine.half role = e.tcp.half role
  /-- A frame concerns one role at most. -/
  poll : ∃ role : Role, e.poll.engine.tcp.half role.other = e.tcp.half role.other
  /-- What upkeep makes of a half depends on this half, and on the room that the other one leaves
  for a FIN. -/
  upkeep : let policy := e.tcp.policy
    let client := (e.tcp.half .client).resent policy
    let server := (e.tcp.half .server).resent policy
    let client' := client.reaped policy .client server.room
    e.upkeep.tcp.half .client = client' ∧
      e.upkeep.tcp.half .server = server.reaped policy .server client'.room
  /-- Where nothing of a role is due, and its connection is not idle, upkeep leaves its half as it
  is. -/
  still : ∀ role : Role,
    (∀ i t, e.tcp.pool.get? i = some t → t.role = role → t.timeout ≠ 0) →
    ((e.tcp.conn role).state.isAging → (e.tcp.conn role).age ≠ 0) →
    e.upkeep.tcp.half role = e.tcp.half role

/-- **The roles do not disturb each other**, in any state and over any link. -/
theorem rolesApart (e : Engine L) : RolesApart e := by
  have hupkeep : e.upkeep.tcp = e.tcp.upkeep.1 := by simp only [Engine.upkeep]
  constructor
  case connect =>
    intro role localPort remotePort remote
    obtain ⟨sent, h⟩ := tcp_connect e role localPort remotePort remote
    rw [h]
    exact Tcp.Machine.half_after_connect_of_ne role.other_ne localPort remotePort remote sent
  case send =>
    intro role source tracked heap
    obtain ⟨attempts, h⟩ := tcp_send e role source tracked heap
    rw [h]
    exact Tcp.Machine.half_sendPieces_of_ne role.other_ne source tracked _
  case close => exact fun role => Tcp.Machine.half_close_of_ne role.other_ne
  case abort => exact fun role => Tcp.Machine.half_abort_of_ne role.other_ne
  case receive => exact fun s remote role other => Tcp.Machine.half_receive other
  case poll =>
    rcases hears_poll e with h | ⟨s, payload, remote, h⟩
    · exact ⟨.client, by rw [h]⟩
    · rw [h]
      cases hresponder : e.tcp.responder? s remote with
      | none =>
        refine ⟨.client, Tcp.Machine.half_receive fun taken => ?_⟩
        rw [hresponder] at taken
        cases taken
      | some role =>
        refine ⟨role, Tcp.Machine.half_receive fun taken => ?_⟩
        rw [hresponder] at taken
        exact role.other_ne (Option.some.inj taken).symm
  case upkeep =>
    rw [hupkeep]
    exact Tcp.Machine.half_upkeep e.tcp
  case still =>
    intro role waits young
    rw [hupkeep]
    exact Tcp.Machine.half_upkeep_of_still waits young

end Engine

end NetEngine
