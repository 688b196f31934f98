import Mathlib.Logic.Relation
import NetEngine.Engine
import NetEngine.Link.Loopback

/-! # What the Network Layer Does to Send

    Whatever is to be sent, and whatever has to be asked for before, the network layer
    does it in moves of three kinds.

    * **Link**: what a link hands out, however it is used.
    * **Moves**: an identifier is taken, something is given to the link, or the link
      is looked at.
    * **Resolution**, **Packets**: each function is a sequence of moves, so that what
      every move keeps is kept by all of them. -/

namespace NetEngine

/-! ## Link -/

namespace Link

variable {L : Type} [Link L]

/-- One use of a link. -/
inductive Use : L → L → Prop
  | receive (link : L) (room : Nat) : Use link (receive link room).2
  | transmit (link : L) (headers : Bytes) (length : Nat) (checksums : ChecksumSet)
      (body : Option Body) : Use link (transmit link headers length checksums body).2
  | done (link : L) : Use link (done link)

/-- However a link is used, every frame that it hands out satisfies `P`.  There is room for what a
poll takes, or for a packet of address resolution. -/
def HandsOut (P : Arrival → Prop) (link : L) : Prop :=
  ∀ link' room arrival, Relation.ReflTransGen Use link link' →
    room = receiveRoom ∨ room = Arp.frameLen → (receive link' room).1 = some arrival → P arrival

theorem HandsOut.used {P : Arrival → Prop} {link link' : L} (handsOut : HandsOut P link)
    (use : Use link link') : HandsOut P link' := by
  intro used room arrival uses
  exact handsOut used room arrival (uses.head use)

/-- The next frame is handed out before any other use of the link. -/
theorem HandsOut.next {P : Arrival → Prop} {link : L} {room : Nat} {arrival : Arrival}
    (handsOut : HandsOut P link) (offered : room = receiveRoom ∨ room = Arp.frameLen)
    (arrived : (receive link room).1 = some arrival) : P arrival :=
  handsOut link room arrival .refl offered arrived

/-- No use of a loopback queues a frame. -/
theorem inbound_of_use {l l' : Loopback} (use : Use l l') : l'.inbound ⊆ l.inbound := by
  cases use with
  | receive room =>
    show (l.receive room).2.inbound ⊆ l.inbound
    unfold Loopback.receive
    cases hinbound : l.inbound with
    | nil => simp [hinbound]
    | cons frame rest => simp
  | transmit headers length checksums body =>
    show (l.transmit headers length checksums body).2.inbound ⊆ l.inbound
    unfold Loopback.transmit
    split <;> exact List.Subset.refl _
  | done => exact List.Subset.refl _

/-- What a loopback hands out are the frames that wait. -/
theorem handsOut_loopback {P : Arrival → Prop} {l : Loopback}
    (queued : ∀ frame ∈ l.inbound, ∀ room, room = receiveRoom ∨ room = Arp.frameLen →
      P ⟨frame.length, Offload.verified frame, frame.take room⟩) : HandsOut P l := by
  intro l' room arrival uses offered arrived
  have hqueued : l'.inbound ⊆ l.inbound := by
    clear arrived
    induction uses with
    | refl => exact List.Subset.refl _
    | tail _ use ih => exact List.Subset.trans (inbound_of_use use) ih
  have hreceive : (l'.receive room).1 = some arrival := arrived
  unfold Loopback.receive at hreceive
  split at hreceive
  · cases hreceive
  · rename_i frame rest hinbound
    cases hreceive
    exact queued frame (hqueued (by simp [hinbound])) room offered

end Link

/-! ## Moves -/

namespace Net

variable {L : Type} [Link L]

/-- One move of the network layer. -/
inductive Move : Net L → Net L → Prop
  | number (net : Net L) : Move net { net with iface := net.iface.nextIdent }
  | transmit (net : Net L) (headers : Bytes) (length : Nat) (checksums : ChecksumSet)
      (body : Option Body) :
      Move net { net with link := (Link.transmit net.link headers length checksums body).2 }
  | look (net : Net L) : Move net net.look

/-- Moves of the network layer, one after the other. -/
def Moves : Net L → Net L → Prop := Relation.ReflTransGen Move

namespace Moves

variable {net net' net'' : Net L}

theorem refl (net : Net L) : net.Moves net := Relation.ReflTransGen.refl

theorem one (move : net.Move net') : net.Moves net' := Relation.ReflTransGen.single move

theorem trans (h : net.Moves net') (h' : net'.Moves net'') : net.Moves net'' :=
  Relation.ReflTransGen.trans h h'

/-- What every move keeps is kept by moves. -/
theorem keep {P : Net L → Prop} (step : ∀ net net' : Net L, net.Move net' → P net → P net')
    (moves : net.Moves net') (h : P net) : P net' := by
  induction moves with
  | refl => exact h
  | tail _ move ih => exact step _ _ move ih

end Moves

/-! ## Resolution -/

theorem moves_sendFrame (net : Net L) (frame : Bytes) : net.Moves (net.sendFrame frame).2 :=
  .one (.transmit net frame frame.length .none none)

theorem moves_awaitWhile (net : Net L) (hop : Ipv4Address) (going : L → Bool) (n : Nat) :
    net.Moves (net.awaitWhile hop going n).2 := by
  induction n generalizing net with
  | zero => exact .refl net
  | succ n ih =>
    have hlook : net.Moves net.look := .one (.look net)
    unfold awaitWhile
    by_cases hgoing : going net.link
    · simp only [hgoing, if_true]
      cases net.look.lookup hop with
      | some hardware => exact hlook
      | none => exact hlook.trans (ih net.look)
    · simp only [hgoing, Bool.false_eq_true, if_false]
      exact .refl net

theorem moves_await (net : Net L) (hop : Ipv4Address) : net.Moves (net.await hop).2 := by
  unfold await
  cases net.iface.patience with
  | looks n => exact moves_awaitWhile net hop _ n
  | ticks n => exact moves_awaitWhile net hop _ _

theorem moves_ask (net : Net L) (hop : Ipv4Address) (n : Nat) : net.Moves (net.ask hop n).2 := by
  induction n generalizing net with
  | zero => exact .refl net
  | succ n ih =>
    have hrequest := moves_sendFrame net ((net.iface.request hop).frame .broadcast)
    unfold ask
    dsimp only
    split
    · rename_i err asked h
      rwa [h] at hrequest
    · rename_i asked h
      rw [h] at hrequest
      have hawait := moves_await asked hop
      split
      · rename_i hardware answered hanswered
        rw [hanswered] at hawait
        exact hrequest.trans hawait
      · rename_i unanswered hunanswered
        rw [hunanswered] at hawait
        exact (hrequest.trans hawait).trans (ih unanswered)

theorem moves_resolve (net : Net L) (target : Ipv4Address) :
    net.Moves (net.resolve target).2 := by
  unfold resolve
  split
  · exact .refl net
  · split
    · exact .refl net
    · split
      · exact .refl net
      · exact moves_ask net _ _

/-! ## Packets -/

theorem moves_deliver (net : Net L) (datagram : Ipv4.View) (length : Nat)
    (checksums : ChecksumSet) (body : Option Body) :
    net.Moves (net.deliver datagram length checksums body).2 := by
  have hresolve := moves_resolve net datagram.dst
  unfold deliver
  split
  · rename_i err resolved h
    rwa [h] at hresolve
  · rename_i hardware resolved h
    rw [h] at hresolve
    exact hresolve.trans (.one (.transmit resolved _ length checksums body))

theorem moves_sendPacket (net : Net L) (dst : Ipv4Address) (protocol : IpProtocol) (len : Nat)
    (headers : Bytes) (checksums : ChecksumSet) (body : Option Body) :
    net.Moves (net.sendPacket dst protocol len headers checksums body).2 := by
  have hnumber : net.Moves { net with iface := net.iface.nextIdent } := .one (.number net)
  exact hnumber.trans (moves_deliver _ _ _ checksums body)

theorem moves_sendDatagram (net : Net L) (srcPort dstPort : UInt16) (dst : Ipv4Address)
    (len : Nat) (source : Supplier) :
    net.Moves (net.sendDatagram srcPort dstPort dst len source).2 := by
  unfold sendDatagram
  split
  · exact .refl net
  · exact moves_sendPacket net dst _ _ _ _ _

theorem moves_sendSegment (net : Net L) (o : Tcp.Outgoing) : net.Moves (net.sendSegment o).2 := by
  cases o with
  | fresh dst segment body => exact moves_sendPacket net dst _ _ _ _ body
  | copy dst octets => exact moves_sendPacket net dst _ _ _ _ _

theorem moves_follow (net : Net L) (out : Option Tcp.Outgoing) :
    net.Moves (net.follow out).2 := by
  cases out with
  | none => exact .refl net
  | some o => exact moves_sendSegment net o

theorem moves_sendSegments (net : Net L) (out : List Tcp.Outgoing) :
    net.Moves (net.sendSegments out) := by
  induction out generalizing net with
  | nil => exact .refl net
  | cons o out ih => exact (moves_sendSegment net o).trans (ih _)

theorem moves_sendPieces (net : Net L) (tcp : Tcp.Machine) (role : Tcp.Role) (source : Source)
    (tracked : Bool) (heap : Tcp.Heap) (ps : List Tcp.Piece) :
    net.Moves (net.sendPieces tcp role source tracked heap ps).2.1 := by
  induction ps generalizing net tcp with
  | nil => exact .refl net
  | cons p ps ih =>
    have hpiece := moves_follow net (tcp.sendPiece role source tracked p).out
    unfold sendPieces
    dsimp only
    split
    · exact .refl net
    · split
      · rename_i err refused h
        rwa [h] at hpiece
      · rename_i sent h
        rw [h] at hpiece
        exact hpiece.trans (ih sent _)

end Net

end NetEngine
