import NetEngine.Proofs.Engine.Calls
import NetEngine.Proofs.Net.Emitting

/-! # What the Engine Sends Is Acceptable

    Over a loopback link, whatever is called of an engine adds frames to those that
    have been sent, and a receiver accepts each of them.

    * **Frames**: a frame that is taken is answered by a packet of address
      resolution, an echo reply or a segment, or by nothing.
    * **Every call**: what a call sends besides is a request, a user datagram, or
      segments, of which those that are resent have a header.  The state of the
      transport layer matters for this alone. -/

namespace NetEngine

open Ethernet.View (Acceptable)

namespace Engine

variable {e : Engine Loopback}

/-! ## Frames -/

/-- What ends in a transport is answered by an echo reply, by a segment, or not at all. -/
theorem emits_of_transported {frame : Ethernet.View} {ip : Ipv4.Header} {c : ChecksumSet}
    {o : Outcome Loopback} (headed : e.tcp.Headed)
    (parsed : Ipv4.Header.parse frame.payload .manual = .ok ip)
    (h : e.Transported frame ip c o) : e.net.Emits o.engine.net := by
  cases h with
  | left | datagram => exact .refl e.net
  | echo reply fate protocol answers =>
    exact Net.emits_sendFrame (Interface.acceptable_echoReply parsed protocol answers)
  | segment s o hs tcp net event =>
    rw [net]
    exact Net.emits_follow (Tcp.Machine.hasHeader_receive headed s ip.src)

theorem emits_noting (e : Engine Loopback) (frame : Ethernet.View) (ip : Ipv4.Header) :
    e.net.Emits (e.noting frame ip).net := by
  refine .silent ?_ rfl
  show (e.net.iface.noteSender ip.src frame.src).addresses.hardware = _
  unfold Interface.noteSender
  split <;> rfl

theorem emits_handle (headed : e.tcp.Headed) (frame : Ethernet.View) (c : ChecksumSet) :
    e.net.Emits (e.handle frame c).engine.net := by
  have hhandled := handled_handle e frame c
  generalize e.handle frame c = o at hhandled ⊢
  cases hhandled with
  | left => exact .refl e.net
  | arp => exact Net.emits_receiveArp e.net frame.payload
  | datagram ip o intact parsed transported =>
    exact (emits_noting e frame ip).trans
      (emits_of_transported (e := e.noting frame ip) headed parsed transported)

theorem emits_poll (headed : e.tcp.Headed) : e.net.Emits e.poll.engine.net := by
  unfold poll
  split
  · rename_i link h
    exact Net.emits_of_receive h
  · rename_i arrival link h
    let taken : Engine Loopback := { e with net := { e.net with link := link } }
    have htaken : e.net.Emits taken.net := Net.emits_of_receive h
    have hhandled := emits_handle (e := taken) headed arrival.resident arrival.checksums
    exact (htaken.trans hhandled).trans (.silent rfl rfl)

/-! ## Every call -/

theorem emits_follow {step : Tcp.Step} (header : ∀ o ∈ step.out, o.HasHeader) :
    e.net.Emits (e.follow step).2.net := Net.emits_follow header

/-- A connection is opened by a new segment. -/
theorem emits_connect (e : Engine Loopback) (role : Tcp.Role) (localPort remotePort : UInt16)
    (remote : Ipv4Address) :
    e.net.Emits (e.connect role localPort remotePort remote).2.net := by
  unfold connect
  cases hconnect : e.tcp.connect role localPort remotePort remote with
  | error err => exact .refl e.net
  | ok step =>
    have hsyn : e.net.Emits (e.follow step).2.net := by
      apply emits_follow
      unfold Tcp.Machine.connect at hconnect
      dsimp only at hconnect
      split at hconnect
      · cases hconnect
      · cases hconnect
        rintro o ⟨⟩
        trivial
    dsimp only
    split
    · rename_i opened h
      rwa [h] at hsyn
    · rename_i err refused h
      rwa [h] at hsyn

theorem emits_send (e : Engine Loopback) (role : Tcp.Role) (source : Source) (tracked : Bool)
    (heap : Tcp.Heap) : e.net.Emits (e.send role source tracked heap).2.net := by
  unfold send
  dsimp only
  split
  · exact .refl e.net
  · exact Net.emits_sendPieces e.net e.tcp role source tracked heap _

theorem emits_ticks (n : Nat) (e : Engine Loopback) : e.net.Emits (ticks n e).net := by
  induction n generalizing e with
  | zero => exact .refl e.net
  | succ n ih =>
    have htick : e.net.Emits e.tick.net := .silent rfl rfl
    exact htick.trans (ih e.tick)

/-- **Every call emits acceptable frames**, as long as every copy that is kept has a header. -/
theorem emits_after (headed : e.tcp.Headed) (call : Call) : e.net.Emits (e.after call).net := by
  have stay (h : (e.after call).net = e.net) : e.net.Emits (e.after call).net := by
    rw [h]
    exact .refl e.net
  cases call with
  | setAddress | useClock | tick => exact .silent rfl rfl
  | catchUp now => exact emits_ticks _ e
  | register b =>
    refine stay ?_
    show ((e.register b).toOption.elim e (·.2)).net = e.net
    unfold register
    cases e.ports.register b <;> rfl
  | unregister slot =>
    refine stay ?_
    show ((e.unregister slot).toOption.getD e).net = e.net
    unfold unregister
    cases e.ports.unregister slot <;> rfl
  | freshPort =>
    refine stay ?_
    show (e.freshPort.elim e (·.2)).net = e.net
    unfold freshPort
    cases e.ports.freshPort e.tcp.portInUse <;> rfl
  | listen port =>
    refine stay ?_
    show (e.listen port).2.net = e.net
    unfold listen
    cases e.tcp.listen port <;> rfl
  | resolve dst => exact Net.emits_resolve e.net dst
  | sendDatagram srcPort dstPort dst len source =>
    exact Net.emits_sendDatagram e.net srcPort dstPort dst len source
  | connect role localPort remotePort remote =>
    exact emits_connect e role localPort remotePort remote
  | send role source tracked heap => exact emits_send e role source tracked heap
  | close role =>
    have hacts := Tcp.Machine.acts_close e.tcp role none
    exact emits_follow (Tcp.Machine.hasHeader_of_acts hacts headed)
  | abort role =>
    have hacts := Tcp.Machine.acts_abort e.tcp role none
    exact emits_follow (Tcp.Machine.hasHeader_of_acts hacts headed)
  | upkeep => exact Net.emits_sendSegments _ (Tcp.Machine.hasHeader_upkeep headed)
  | poll => exact emits_poll headed

/-- **Whatever is sent would be accepted**: of any engine whose transport layer has come about by a
run, and whatever is called of it, the frames that it adds to those sent are acceptable and come
from its station. -/
theorem sent_acceptable (e : Engine Loopback) (policy : Tcp.Policy) (seed : UInt32)
    (ops : List Tcp.Operation) (call : Call) :
    let before := { e with tcp := (Tcp.Machine.fresh policy seed).run ops }
    ∃ new, (before.after call).net.link.sent = before.net.link.sent ++ new ∧
      ∀ frame ∈ new, Acceptable before.net.iface.addresses.hardware frame := by
  intro before
  have hheaded : before.tcp.Headed := Tcp.Machine.headed_run policy seed ops
  exact (emits_after hheaded call).sent

end Engine

end NetEngine
