import NetEngine.Engine
import NetEngine.Link.Loopback
import NetEngine.Proofs.Tcp.Pieces

/-! # When Data Can Not Be Sent

    A call that sends data stops at the first segment that the link refuses.
    That segment has been counted as sent before, and has been tracked if that
    was wanted and there was room.  Where a piece can not be copied, the call
    stops in front of it, and nothing has been counted.

    * **Attempt**: a segment that a call gives to the link.
    * **No hole**: the numbers that a call has used up are those of octets that
      the peer will see, as they have gone out or will be resent.  This is so
      exactly if no segment is refused, or the refused one is tracked. -/

namespace NetEngine

open Tcp (Connection Consecutive Piece Role SeqNumber)

/-- A segment that a call gives to the link. -/
structure Attempt where
  /-- The length of its payload. -/
  len : Nat
  /-- Has the link taken it? -/
  taken : Bool
  /-- Has it come to the pool? -/
  tracked : Bool
deriving DecidableEq

namespace Net

variable {L : Type} [Link L] {net : Net L} {tcp : Tcp.Machine} {role : Role} {source : Source}
  {tracked : Bool} {heap : Tcp.Heap} {ps : List Piece} {err : NetError}

/-- The segments that are given to the link when pieces are sent, the last one being the one that it
refuses, if it refuses one. -/
def attempts (net : Net L) (tcp : Tcp.Machine) (role : Role) (source : Source) (tracked : Bool)
    (heap : Tcp.Heap) : List Piece → List Attempt
  | [] => []
  | p :: rest =>
    if !heap.holds source tracked p then []
    else
      let step := tcp.sendPiece role source tracked p
      let place := decide (tcp.pool.size < step.machine.pool.size)
      match net.follow step.out with
      | (.error _, _) => [⟨p.len, false, place⟩]
      | (.ok (), net) =>
        ⟨p.len, true, place⟩ :: net.attempts step.machine role source tracked heap rest

/-! ## Room for a piece -/

/-- A piece has come to the pool if it is to be tracked and there was room. -/
theorem place_iff (tcp : Tcp.Machine) (p : Piece) :
    tcp.pool.size < (tcp.sendPiece role source tracked p).machine.pool.size ↔
      tracked = true ∧ 1 ≤ Tcp.poolSize - tcp.pool.size := by
  rw [Tcp.Machine.size_sendPiece]
  by_cases hroom : tracked = true ∧ tcp.pool.size < Tcp.poolSize
  · rw [if_pos hroom]
    exact iff_of_true (Nat.lt_succ_self _) ⟨hroom.1, Nat.sub_pos_of_lt hroom.2⟩
  · rw [if_neg hroom]
    exact iff_of_false (Nat.lt_irrefl _) fun h => hroom ⟨h.1, Nat.lt_of_sub_pos h.2⟩

/-- There is room for others behind a piece if there is room for one more. -/
theorem room_iff (tcp : Tcp.Machine) (p : Piece) {n : Nat} (pos : 0 < n) :
    n ≤ Tcp.poolSize - (tcp.sendPiece role source true p).machine.pool.size ↔
      n + 1 ≤ Tcp.poolSize - tcp.pool.size := by
  rw [Tcp.Machine.size_sendPiece]
  by_cases hroom : tcp.pool.size < Tcp.poolSize
  · rw [if_pos ⟨rfl, hroom⟩]
    omega
  · rw [if_neg (by simp [hroom])]
    omega

/-! ## Calls that fail -/

/-- What a call has done when it fails: the link has refused the last one of the segments that it has
been given, or it has taken all of them and the next one could not be copied. -/
structure Fails (tcp tcp' : Tcp.Machine) (role : Role) (tracked : Bool) (ps : List Piece)
    (tries : List Attempt) : Prop where
  /-- All of them count as sent. -/
  lastSent : (tcp'.conn role).lastSent = (tcp.conn role).lastSent + (tries.map (·.len)).sum
  refused : (∀ a ∈ tries, a.taken = true) ∨
    ∃ before last, tries = before ++ [last] ∧ (∀ a ∈ before, a.taken = true) ∧
      last.taken = false ∧
      (last.tracked = true ↔ tracked = true ∧ tries.length ≤ Tcp.poolSize - tcp.pool.size)
  lens : ∀ a ∈ tries, ∃ p ∈ ps, p.len = a.len

/-- What holds of the segments behind the first one holds of all of them. -/
theorem Fails.cons {p : Piece} {tcp' : Tcp.Machine} {tries : List Attempt}
    (h : Fails (tcp.sendPiece role source tracked p).machine tcp' role tracked ps tries) :
    Fails tcp tcp' role tracked (p :: ps)
      (⟨p.len, true, decide (tcp.pool.size <
        (tcp.sendPiece role source tracked p).machine.pool.size)⟩ :: tries) where
  lastSent := by
    rw [h.lastSent, Tcp.Machine.conn_sendPiece, List.map_cons, List.sum_cons]
    exact SeqNumber.add_add _ _ _
  refused := by
    rcases h.refused with htaken | ⟨before, last, rfl, htaken, hrefused, hplace⟩
    · left
      simpa using htaken
    · refine .inr ⟨_ :: before, last, rfl, ?_, hrefused, hplace.trans ?_⟩
      · simpa using htaken
      · -- The first one has taken a place, if there was one.
        refine and_congr_right fun htracked => ?_
        subst htracked
        exact room_iff tcp p (by simp)
  lens := by
    intro a ha
    rcases List.mem_cons.mp ha with rfl | ha
    · exact ⟨p, List.mem_cons_self, rfl⟩
    · obtain ⟨q, hq, hlen⟩ := h.lens a ha
      exact ⟨q, List.mem_cons_of_mem _ hq, hlen⟩

theorem fails_of_error (failed : (net.sendPieces tcp role source tracked heap ps).1 = .error err) :
    Fails tcp (net.sendPieces tcp role source tracked heap ps).2.2 role tracked ps
      (net.attempts tcp role source tracked heap ps) := by
  induction ps generalizing net tcp with
  | nil => cases failed
  | cons p ps ih =>
    unfold sendPieces at failed ⊢
    unfold attempts
    dsimp only at failed ⊢
    by_cases hholds : heap.holds source tracked p
    · simp only [hholds, Bool.not_true, Bool.false_eq_true, if_false] at failed ⊢
      rcases hfollow : net.follow (tcp.sendPiece role source tracked p).out with ⟨err' | ⟨⟩, net'⟩
      · -- The first piece is refused.
        rw [hfollow] at failed
        dsimp only
        refine ⟨?_, .inr ⟨[], _, rfl, by simp, rfl, ?_⟩, ?_⟩
        · rw [Tcp.Machine.conn_sendPiece]
          simp
        · exact decide_eq_true_iff.trans (place_iff tcp p)
        · simp
      · rw [hfollow] at failed
        exact (ih failed).cons
    · -- It can not be copied.
      simp only [hholds, Bool.not_false, if_true]
      exact ⟨(SeqNumber.add_zero _).symm, .inl (by simp), by simp⟩

end Net

namespace Engine

variable {L : Type} [Link L]

/-- The segments that a call gives to the link. -/
def attempts (e : Engine L) (role : Role) (source : Source) (tracked : Bool) (heap : Tcp.Heap) :
    List Attempt :=
  if (e.tcp.conn role).state ≠ .established then []
  else e.net.attempts e.tcp role source tracked heap
    (Tcp.pieces (e.tcp.conn role).segmentSize 0 source.size)

/-- A call uses up the numbers of the octets that the link has taken or that are tracked, and no
others. -/
def NoHole (e : Engine L) (role : Role) (source : Source) (tracked : Bool) (heap : Tcp.Heap) :
    Prop :=
  ((e.send role source tracked heap).2.tcp.conn role).lastSent = (e.tcp.conn role).lastSent +
    (((e.attempts role source tracked heap).filter fun a => a.taken || a.tracked).map (·.len)).sum

instance (e : Engine L) (role : Role) (source : Source) (tracked : Bool) (heap : Tcp.Heap) :
    Decidable (e.NoHole role source tracked heap) :=
  inferInstanceAs (Decidable (_ = _))

/-- **A call that fails leaves no hole exactly if the refused segment is tracked**: if that is wanted,
and there is a place for each segment that the link has been given.  There is none either if the link
has refused nothing, and only the next copy could not be made. -/
theorem noHole_iff (e : Engine L) (role : Role) (source : Source) (tracked : Bool) (heap : Tcp.Heap)
    {err : NetError} (established : (e.tcp.conn role).state = .established)
    (failed : (e.send role source tracked heap).1 = .error err) :
    e.NoHole role source tracked heap ↔
      (∀ a ∈ e.attempts role source tracked heap, a.taken = true) ∨
        tracked = true ∧
          (e.attempts role source tracked heap).length ≤ Tcp.poolSize - e.tcp.pool.size := by
  let tries := e.attempts role source tracked heap
  let size := (e.tcp.conn role).segmentSize
  let ps := Tcp.pieces size 0 source.size
  have hcall : e.send role source tracked heap =
      ((e.net.sendPieces e.tcp role source tracked heap ps).1.map fun _ => source.size,
        { e with
          net := (e.net.sendPieces e.tcp role source tracked heap ps).2.1
          tcp := (e.net.sendPieces e.tcp role source tracked heap ps).2.2 }) :=
    if_neg (not_not_intro established)
  have htries : tries = e.net.attempts e.tcp role source tracked heap ps :=
    if_neg (not_not_intro established)
  have herror : (e.net.sendPieces e.tcp role source tracked heap ps).1 = .error err := by
    rw [hcall] at failed
    exact map_eq_error_iff.mp failed
  have hfails := Net.fails_of_error herror
  rw [← htries] at hfails
  have hnoHole : e.NoHole role source tracked heap ↔
      (e.tcp.conn role).lastSent + (tries.map (·.len)).sum = (e.tcp.conn role).lastSent +
        ((tries.filter fun a => a.taken || a.tracked).map (·.len)).sum := by
    unfold NoHole
    rw [hcall, ← hfails.lastSent]
  refine hnoHole.trans ?_
  rcases hfails.refused with htaken | ⟨before, last, hsplit, htaken, hrefused, hplace⟩
  · -- All of them have gone out.
    have hall : tries.filter (fun a => a.taken || a.tracked) = tries :=
      List.filter_eq_self.mpr fun a ha => by simp [htaken a ha]
    rw [hall]
    exact iff_of_true rfl (.inl htaken)
  have hsome : ¬ ∀ a ∈ tries, a.taken = true := fun h => by
    have hlast := h last (by rw [hsplit]; simp)
    rw [hrefused] at hlast
    cases hlast
  -- The refused segment has an octet, and fewer than go round.
  obtain ⟨p, hp, hlen⟩ := hfails.lens last (by rw [hsplit]; simp)
  have hbounds := Tcp.piece_bounds hp
  have hsize : size ≤ 1460 := by
    show max 1 (min _ Tcp.maxSegment) ≤ 1460
    unfold Tcp.maxSegment
    omega
  have hkept : tries.filter (fun a => a.taken || a.tracked) =
      before ++ if last.tracked then [last] else [] := by
    have hbefore : before.filter (fun a => a.taken || a.tracked) = before :=
      List.filter_eq_self.mpr fun a ha => by simp [htaken a ha]
    rw [hsplit, List.filter_append, hbefore]
    cases hlast : last.tracked <;> simp [hrefused, hlast]
  have hsum : (tries.map (·.len)).sum = (before.map (·.len)).sum + last.len := by
    simp [hsplit]
  refine Iff.trans ?_ (hplace.trans (or_iff_right hsome).symm)
  rw [hkept, hsum, SeqNumber.add_eq_add_iff]
  cases hlast : last.tracked with
  | false =>
    simp only [Bool.false_eq_true, if_false, List.append_nil, iff_false]
    omega
  | true => simp

/-- A server whose peer has connected, and has been forgotten by the neighbour cache since.  Nobody
answers when it is asked for. -/
def forgetful : Engine Loopback :=
  let peer : Ipv4Address := ⟨10, 0, 0, 2⟩
  let syn : Tcp.Segment := ⟨4000, 80, ⟨100⟩, ⟨0⟩, .SYN, 1024, none, 0⟩
  let start := Tcp.Machine.fresh ⟨80, 3, 1, 5, true⟩ 1
  let waiting := start.run [.listen 80, .receive syn [] peer]
  let ack : Tcp.Segment := ⟨4000, 80, ⟨101⟩, waiting.server.lastSent, .ACK, 1024, none, 0⟩
  { Engine.start { address := ⟨10, 0, 0, 1⟩ } ({} : Loopback) with
    tcp := waiting.after (.receive ack [] peer) }

/-- If the refused segment is tracked, it will be resent, and there is no hole. -/
theorem noHole_forgetful_tracked :
    (forgetful.tcp.conn .server).state = .established ∧
      forgetful.NoHole .server (.lent (.ofBytes [1, 2, 3, 4, 5])) true .boundless := by
  have hopen : (forgetful.tcp.conn .server).state = .established := by decide +kernel
  have hfailed : (forgetful.send .server (.lent (.ofBytes [1, 2, 3, 4, 5])) true .boundless).1 =
      .error .unreachable := by decide +kernel
  exact ⟨hopen, (noHole_iff forgetful .server _ true .boundless hopen hfailed).mpr
    (.inr ⟨rfl, by decide +kernel⟩)⟩

/-- A call that is not tracked leaves a hole of five octets when its segment can not be sent. -/
theorem hole_forgetful_untracked :
    let data : Source := .lent (.ofBytes [1, 2, 3, 4, 5])
    (forgetful.tcp.conn .server).state = .established ∧
      (forgetful.send .server data false .boundless).1 = .error .unreachable ∧
      ¬ forgetful.NoHole .server data false .boundless := by
  decide +kernel

end Engine

end NetEngine
