import Mathlib.Data.List.Forall2
import Mathlib.Data.List.TakeWhile
import NetEngine.Engine
import NetEngine.Proofs.Net.Segments
import NetEngine.Proofs.Tcp.Pieces

/-! # Sending Data over the Loopback Link

    Data is cut into pieces, each piece becomes a segment, and each segment a
    frame.  Where the source hands out a fixed content and the peer is a known
    neighbour, nothing can fail on the way.

    * **Carries**: a frame carries the segment with a piece of the content.
    * **Segmented**: the frames of a call carry the content from its first octet
      to its last.
    * **Tracked**: of these segments the first ones are tracked. -/

namespace NetEngine

open Tcp (Connection Consecutive Piece Role)

/-! ## Content of consecutive pieces -/

/-- Consecutive pieces make up the slice that they cover. -/
theorem flatMap_slice (content : Bytes) {start : Nat} {ps : List Piece}
    (pieces : Consecutive start ps) :
    (ps.flatMap fun p => slice content p.offset p.len) =
      slice content start (ps.map (·.len)).sum := by
  induction ps generalizing start with
  | nil => simp
  | cons p ps ih =>
    obtain ⟨rfl, hrest⟩ := pieces
    rw [List.flatMap_cons, List.map_cons, List.sum_cons, ih hrest, slice_append_slice]

/-! ## Frames -/

/-- A frame carries the segment with a piece of the content. -/
structure CarriesPiece (src : Ipv4Address) (c : Connection) (content : Bytes) (p : Piece)
    (frame : Bytes) : Prop where
  short : frame.length ≤ Ethernet.maxFrame
  carries : ∃ octets, Offload.carried? frame = some ⟨src, c.remoteAddr, octets⟩ ∧
    Tcp.View.segment octets = Tcp.pieceSegment c p ∧
    Tcp.View.payload octets = slice content p.offset p.len

namespace Net

variable {net : Net Loopback} {tcp : Tcp.Machine} {role : Role} {source : Source}
  {c : Connection} {age : Countdown} {start : Nat} {p : Piece} {ps : List Piece} {content : Bytes}
  {hardware : MacAddress}

/-- A piece of the content goes to a known neighbour in one frame. -/
theorem sendSegment_pieceOut (known : net.iface.hardwareOf? c.remoteAddr = some hardware)
    (holds : source.data.Holds content) (len : p.len ≤ Tcp.maxSegment)
    (within : p.offset + p.len ≤ content.length) :
    ∃ frame, net.sendSegment (Tcp.pieceOut c source p) =
        (.ok (), net.identified.sending frame) ∧
      CarriesPiece net.iface.addresses.address c content p frame := by
  let s := Tcp.pieceSegment c p
  let payload := slice content p.offset p.len
  have hpayload : payload.length = p.len := by
    rw [length_slice]
    omega
  have hthere : (Tcp.pieceOut c source p).octets? = some (s.encode ++ payload) :=
    (Tcp.Outgoing.octets?_sourced holds).mpr ⟨.inr within, rfl⟩
  have hfits : Interface.headersLen + (s.encode ++ payload).length ≤ Ethernet.maxFrame := by
    rw [List.length_append, hpayload, Tcp.Segment.length_encode]
    -- The headers take 54 octets, and 1460 are left.
    show 34 + (20 + p.len) ≤ 1514
    unfold Tcp.maxSegment at len
    omega
  obtain ⟨sum, hsealed⟩ := Offload.exists_sealed net.iface.addresses.address c.remoteAddr s payload
  refine ⟨_, sendSegment_of_known known hthere hfits, ?_, _,
    carried?_segmentFrame net _ _ c.remoteAddr hfits, ?_, ?_⟩
  · rw [length_segmentFrame]
    exact hfits
  · rw [hsealed]
    have hfit : Tcp.Flags.ACK.bits.toNat < 512 := by decide
    exact Tcp.Segment.segment_encodeSummed hfit sum hpayload
  · rw [hsealed]
    exact Tcp.Segment.payload_encodeSummed s sum payload

/-- Memory that is used up cuts off the piece that finds no room, and all behind it. -/
theorem sendPieces_of_heap (heap : Tcp.Heap) {net' : Net Loopback} {tcp' : Tcp.Machine}
    (sends : net.sendPieces tcp role source tracked .boundless
      (ps.takeWhile (heap.holds source tracked)) = (.ok (), net', tcp')) :
    net.sendPieces tcp role source tracked heap ps =
      (if ps.all (heap.holds source tracked) then .ok () else .error .exhausted, net', tcp') := by
  induction ps generalizing net tcp with
  | nil => exact sends
  | cons p ps ih =>
    unfold sendPieces
    rw [List.all_cons]
    by_cases hholds : heap.holds source tracked p
    · -- The first piece goes out with and without the limit, and the others do by induction.
      simp only [hholds, List.takeWhile_cons_of_pos, Bool.not_true, Bool.false_eq_true, if_false,
        Bool.true_and] at sends ⊢
      unfold sendPieces at sends
      simp only [Tcp.Heap.holds_boundless, Bool.not_true, Bool.false_eq_true, if_false] at sends
      rcases hfollow : net.follow (tcp.sendPiece role source tracked p).out with ⟨err | ⟨⟩, sent⟩
      · rw [hfollow] at sends
        cases sends
      · rw [hfollow] at sends
        exact ih sends
    · rw [List.takeWhile_cons_of_neg hholds] at sends
      cases sends
      simp [hholds]

/-- All pieces go to a known neighbour, each in a frame of its own. -/
theorem sendPieces_of_known (known : net.iface.hardwareOf? c.remoteAddr = some hardware)
    (holds : source.data.Holds content) (conn : tcp.conn role = c.advanced age start)
    (tracked : Bool) (pieces : Consecutive start ps) (len : ∀ p ∈ ps, p.len ≤ Tcp.maxSegment)
    (within : ∀ p ∈ ps, p.offset + p.len ≤ content.length) :
    ∃ net' frames, net.sendPieces tcp role source tracked .boundless ps =
        (.ok (), net', (tcp.sendPieces role source tracked ps).1) ∧
      net'.link.sent = net.link.sent ++ frames ∧
      List.Forall₂ (CarriesPiece net.iface.addresses.address c content) ps frames := by
  -- Sending a frame changes neither our address nor the neighbours.
  induction ps generalizing net tcp age start with
  | nil => exact ⟨net, [], rfl, by simp, .nil⟩
  | cons p ps ih =>
    obtain ⟨hnext, hrest⟩ := pieces
    obtain ⟨frame, hsend, hcarries⟩ := sendSegment_pieceOut known holds
      (len p List.mem_cons_self) (within p List.mem_cons_self)
    have hknown : (net.identified.sending frame).iface.hardwareOf? c.remoteAddr = some hardware :=
      known
    obtain ⟨net', frames, hsends, hsent, hframes⟩ := ih hknown
      (Tcp.Machine.conn_sendPiece_advanced conn source tracked p) hrest
      (fun p hp => len p (List.mem_cons_of_mem _ hp))
      (fun p hp => within p (List.mem_cons_of_mem _ hp))
    refine ⟨net', frame :: frames, ?_, ?_, .cons hcarries hframes⟩
    · have hfollow : net.follow (tcp.sendPiece role source tracked p).out =
          (.ok (), net.identified.sending frame) := by
        rw [Tcp.Machine.out_sendPiece conn source tracked hnext]
        exact hsend
      unfold sendPieces
      simp only [Tcp.Heap.holds_boundless, Bool.not_true, Bool.false_eq_true, if_false]
      rw [hfollow]
      exact hsends
    · rw [hsent]
      simp [sending, identified]

end Net

/-! ## A whole call -/

/-- The frames carry `content` to the peer of a connection, in segments of `size` octets. -/
structure Segmented (src : Ipv4Address) (c : Connection) (size : Nat) (content : Bytes)
    (frames : List Bytes) : Prop where
  count : frames.length = (content.length + size - 1) / size
  short : ∀ frame ∈ frames, frame.length ≤ 1514
  /-- The segments follow each other in the sequence space, from the next number on. -/
  carries : ∀ k frame, frames[k]? = some frame →
    ∃ octets, Offload.carried? frame = some ⟨src, c.remoteAddr, octets⟩ ∧
      Tcp.View.segment octets = {
        srcPort := c.localPort
        dstPort := c.remotePort
        seq := c.lastSent + k * size
        ackNumber := c.lastReceived + 1
        flags := .ACK
        window := Tcp.ourWindow
        mss := none
        payloadLen := (slice content (k * size) size).length } ∧
      Tcp.View.payload octets = slice content (k * size) size
  whole : (frames.filterMap Offload.carried?).flatMap (fun x => Tcp.View.payload x.octets) = content

/-- The first segments of a call are tracked, as many as there is room for, and the others are
counted. -/
structure TracksFirst (role : Role) (c : Connection) (size total : Nat) (m m' : Tcp.Machine) :
    Prop where
  entries : ∃ entries : List Tcp.Tracked, m'.pool.toList.Perm (m.pool.toList ++ entries) ∧
    entries.length = min ((total + size - 1) / size) (Tcp.poolSize - m.pool.size) ∧
    ∀ k t, entries[k]? = some t → t.role = role ∧
      t.lastByte = c.lastSent + k * size + (min (total - k * size) size - 1)
  untracked : m'.counts.untracked = m.counts.untracked + .ofNat
    ((total + size - 1) / size - min ((total + size - 1) / size) (Tcp.poolSize - m.pool.size))

/-- What is in the frames is what is in the pieces. -/
theorem flatMap_payload {src : Ipv4Address} {c : Connection} {content : Bytes} {ps : List Piece}
    {frames : List Bytes} (carries : List.Forall₂ (CarriesPiece src c content) ps frames) :
    (frames.filterMap Offload.carried?).flatMap (fun x => Tcp.View.payload x.octets) =
      ps.flatMap fun p => slice content p.offset p.len := by
  induction carries with
  | nil => rfl
  | cons first _ ih =>
    obtain ⟨octets, hcarried, -, hpayload⟩ := first.carries
    rw [List.filterMap_cons_some hcarried, List.flatMap_cons, List.flatMap_cons, hpayload, ih]

/-- Frames that carry the pieces of a content carry all of it. -/
theorem segmented_pieces {src : Ipv4Address} {c : Connection} {size : Nat} {content : Bytes}
    {frames : List Bytes} (pos : 0 < size)
    (carries : List.Forall₂ (CarriesPiece src c content) (Tcp.pieces size 0 content.length) frames) :
    Segmented src c size content frames := by
  have hcount : frames.length = Tcp.pieceCount size content.length := by
    rw [← carries.length_eq, Tcp.length_pieces pos]
  have hframe (k : Nat) (frame : Bytes) (hk : frames[k]? = some frame) :
      CarriesPiece src c content ⟨k * size, min (content.length - k * size) size⟩ frame := by
    obtain ⟨hlt, rfl⟩ := List.getElem?_eq_some_iff.mp hk
    rw [Tcp.pieces_eq pos, List.forall₂_map_left_iff] at carries
    have hget := carries.get (by rw [List.length_range, ← hcount]; exact hlt) hlt
    simpa using hget
  refine ⟨hcount, fun frame hmem => ?_, fun k frame hk => ?_, ?_⟩
  · obtain ⟨k, hk⟩ := List.mem_iff_getElem?.mp hmem
    exact (hframe k frame hk).short
  · obtain ⟨octets, hcarried, hsegment, hpayload⟩ := (hframe k frame hk).carries
    refine ⟨octets, hcarried, ?_, ?_⟩
    · rw [hsegment, length_slice, Nat.min_comm]
      rfl
    · rw [hpayload, slice_min]
  · rw [flatMap_payload carries, flatMap_slice content (Tcp.consecutive_pieces size 0 _),
      Tcp.sum_pieces pos, slice_all]

/-- The pieces that find room are the first ones. -/
theorem tracksFirst_sendPieces {m : Tcp.Machine} {role : Role} {source : Source} {total : Nat}
    {c : Connection} {age : Countdown} (conn : m.conn role = c.advanced age 0) {size : Nat}
    (pos : 0 < size) :
    TracksFirst role c size total m
      (m.sendPieces role source true (Tcp.pieces size 0 total)).1 := by
  obtain ⟨hpool, hcounts⟩ := Tcp.Machine.tracked_sendPieces conn source
    (Tcp.consecutive_pieces size 0 total)
  have hfirst : (Tcp.pieces size 0 total).take (Tcp.poolSize - m.pool.size) =
      (List.range (min (Tcp.poolSize - m.pool.size) (Tcp.pieceCount size total))).map fun k =>
        ⟨0 + k * size, min (total - k * size) size⟩ := by
    rw [Tcp.pieces_eq pos, ← List.map_take, List.take_range]
  rw [Tcp.length_pieces pos] at hcounts
  rw [hfirst, List.map_map] at hpool
  constructor
  · refine ⟨_, hpool, ?_, fun k t hk => ?_⟩
    · rw [List.length_map, List.length_range, Nat.min_comm]
      rfl
    · rw [List.getElem?_map] at hk
      obtain ⟨j, hj, rfl⟩ := Option.map_eq_some_iff.mp hk
      obtain rfl : k = j := by
        rw [List.getElem?_eq_some_iff] at hj
        simpa using hj.2
      refine ⟨rfl, ?_⟩
      show c.lastSent + (0 + k * size) + _ = _
      rw [Nat.zero_add]
  · rw [hcounts]
    show m.counts.untracked + .ofNat (Tcp.pieceCount size total - (Tcp.poolSize - m.pool.size)) =
      m.counts.untracked + .ofNat (Tcp.pieceCount size total -
        min (Tcp.pieceCount size total) (Tcp.poolSize - m.pool.size))
    congr 2
    omega

namespace Engine

section Known

variable (e : Engine Loopback) (role : Role) (source : Source) (content : Bytes) (tracked : Bool)
  (heap : Tcp.Heap) {hardware : MacAddress}
  (established : (e.tcp.conn role).state = .established) (holds : source.data.Holds content)
  (resolved : e.net.iface.hardwareOf? (e.tcp.conn role).remoteAddr = some hardware)

include established holds resolved

/-- To a known neighbour go all pieces in front of the first one that can not be copied. -/
theorem send_of_known :
    let c := e.tcp.conn role
    let ps := Tcp.pieces c.segmentSize 0 content.length
    let done := ps.takeWhile (heap.holds source tracked)
    ∃ net frames, e.send role source tracked heap =
        (if ps.all (heap.holds source tracked) then .ok content.length else .error .exhausted,
          { e with net := net, tcp := (e.tcp.sendPieces role source tracked done).1 }) ∧
      net.link.sent = e.net.link.sent ++ frames ∧
      List.Forall₂ (CarriesPiece e.net.iface.addresses.address c content) done frames := by
  intro c ps done
  have hsize : source.size = content.length := by
    show (source.data.supply 0 0).total = content.length
    rw [holds]
  have hconn : e.tcp.conn role = c.advanced c.age 0 := c.advanced_zero.symm
  have hbounds : ∀ p ∈ done, p.len ≤ c.segmentSize ∧ p.offset + p.len ≤ 0 + content.length :=
    fun p hp => (Tcp.piece_bounds ((List.takeWhile_prefix _).subset hp)).2
  have hfit : ∀ p ∈ done, p.len ≤ Tcp.maxSegment := fun p hp => by
    have hshort := (hbounds p hp).1
    change p.len ≤ max 1 (min _ Tcp.maxSegment) at hshort
    unfold Tcp.maxSegment at hshort ⊢
    omega
  have hwithin : ∀ p ∈ done, p.offset + p.len ≤ content.length := fun p hp => by
    have hlast := (hbounds p hp).2
    omega
  obtain ⟨net, frames, hsends, hsent, hframes⟩ :=
    Net.sendPieces_of_known resolved holds hconn tracked
      ((Tcp.consecutive_pieces c.segmentSize 0 content.length).takeWhile _) hfit hwithin
  refine ⟨net, frames, ?_, hsent, hframes⟩
  have hall := Net.sendPieces_of_heap heap hsends
  unfold send
  rw [if_neg (not_not_intro established), hsize]
  dsimp only
  rw [hall]
  split <;> rfl

/-- **Sending is lossless segmentation**: data from a source of a fixed content goes out on an open
connection to a known neighbour as a whole and in order, and its first segments are tracked, as long
as there is memory for the copies.  Only data that is lent and tracked needs any. -/
theorem send_segmented
    (room : ∀ p ∈ Tcp.pieces (e.tcp.conn role).segmentSize 0 content.length,
      heap.holds source tracked p) :
    let c := e.tcp.conn role
    let size := max 1 (min c.mss.toNat 1460)
    let sent := (e.send role source tracked heap).2
    (e.send role source tracked heap).1 = .ok content.length ∧
      (∃ frames, sent.net.link.sent = e.net.link.sent ++ frames ∧
        Segmented e.net.iface.addresses.address c size content frames) ∧
      (sent.tcp.conn role).lastSent = c.lastSent + content.length ∧
      (tracked = true → TracksFirst role c size content.length e.tcp sent.tcp) ∧
      (tracked = false → sent.tcp.pool = e.tcp.pool ∧ sent.tcp.counts = e.tcp.counts) := by
  intro c size sent
  let ps := Tcp.pieces size 0 content.length
  have hpos : 0 < size := c.segmentSize_pos
  have hconn : e.tcp.conn role = c.advanced c.age 0 := c.advanced_zero.symm
  obtain ⟨net, frames, hcall, hsent, hframes⟩ :=
    send_of_known e role source content tracked heap established holds resolved
  -- No piece is cut off.
  rw [if_pos (List.all_eq_true.mpr room), List.takeWhile_eq_self_iff.mpr room] at hcall
  rw [List.takeWhile_eq_self_iff.mpr room] at hframes
  have hsent' : sent =
      { e with net := net, tcp := (e.tcp.sendPieces role source tracked ps).1 } :=
    congrArg Prod.snd hcall
  refine ⟨congrArg Prod.fst hcall, ⟨frames, ?_, segmented_pieces hpos hframes⟩, ?_, ?_, ?_⟩
  · rw [hsent']
    exact hsent
  · obtain ⟨age, hconn'⟩ := Tcp.Machine.conn_sendPieces hconn source tracked ps
    rw [Tcp.sum_pieces hpos, Nat.zero_add] at hconn'
    rw [hsent']
    dsimp only
    rw [hconn']
    rfl
  · rintro rfl
    rw [hsent']
    exact tracksFirst_sendPieces hconn hpos
  · rintro rfl
    rw [hsent']
    exact Tcp.Machine.untracked_sendPieces e.tcp role source ps

/-- **Where the memory is used up, what has gone out is the start of the content**, and nothing more
counts as sent. -/
theorem send_exhausted
    (full : ∃ p ∈ Tcp.pieces (e.tcp.conn role).segmentSize 0 content.length,
      heap.holds source tracked p = false) :
    let sent := (e.send role source tracked heap).2
    (e.send role source tracked heap).1 = .error .exhausted ∧
      ∃ frames len, sent.net.link.sent = e.net.link.sent ++ frames ∧
        (frames.filterMap Offload.carried?).flatMap (fun x => Tcp.View.payload x.octets) =
          content.take len ∧
        (sent.tcp.conn role).lastSent = (e.tcp.conn role).lastSent + len := by
  intro sent
  obtain ⟨net, frames, hcall, hsent, hframes⟩ :=
    send_of_known e role source content tracked heap established holds resolved
  obtain ⟨p, hp, hfull⟩ := full
  have hcut : ¬ (Tcp.pieces (e.tcp.conn role).segmentSize 0 content.length).all
      (heap.holds source tracked) := fun h => by
    rw [List.all_eq_true.mp h p hp] at hfull
    cases hfull
  rw [if_neg hcut] at hcall
  let done := (Tcp.pieces (e.tcp.conn role).segmentSize 0 content.length).takeWhile
    (heap.holds source tracked)
  have hsent' : sent =
      { e with net := net, tcp := (e.tcp.sendPieces role source tracked done).1 } :=
    congrArg Prod.snd hcall
  refine ⟨congrArg Prod.fst hcall, frames, (done.map (·.len)).sum, ?_, ?_, ?_⟩
  · rw [hsent']
    exact hsent
  · rw [flatMap_payload hframes,
      flatMap_slice content ((Tcp.consecutive_pieces _ 0 _).takeWhile _)]
    rfl
  · obtain ⟨age, hconn⟩ := Tcp.Machine.conn_sendPieces
      (e.tcp.conn role).advanced_zero.symm source tracked done
    rw [Nat.zero_add] at hconn
    rw [hsent']
    dsimp only
    rw [hconn]
    rfl

end Known

/-- Five octets for a neighbour that takes two at a time make three segments. -/
theorem send_segmented_pairs :
    let peer : Ipv4Address := ⟨10, 0, 0, 2⟩
    let server : Connection := { Connection.fresh 7 with
      state := .established, localPort := 80, remotePort := 4000, remoteAddr := peer, mss := 2 }
    let fresh := Engine.start { address := ⟨10, 0, 0, 1⟩ } ({} : Loopback)
    let e : Engine Loopback := { fresh with
      net := { fresh.net with iface := fresh.net.iface.learn peer ⟨2, 0, 0, 0, 0, 2⟩ }
      tcp := { fresh.tcp with server := server } }
    let r := e.send .server (.lent (.ofBytes [1, 2, 3, 4, 5])) true .boundless
    (e.tcp.conn .server).state = .established ∧
      e.net.iface.hardwareOf? peer = some ⟨2, 0, 0, 0, 0, 2⟩ ∧ r.1 = .ok 5 ∧
      ∃ frames, r.2.net.link.sent = frames ∧ frames.length = 3 ∧
        Segmented ⟨10, 0, 0, 1⟩ server 2 [1, 2, 3, 4, 5] frames := by
  intro peer server fresh e r
  have hopen : (e.tcp.conn .server).state = .established := rfl
  have hknown : e.net.iface.hardwareOf? peer = some ⟨2, 0, 0, 0, 0, 2⟩ := by decide
  obtain ⟨hresult, ⟨frames, hsent, hframes⟩, -⟩ := send_segmented e .server
    (.lent (.ofBytes [1, 2, 3, 4, 5])) [1, 2, 3, 4, 5] true .boundless hopen
    (Supplier.holds_ofBytes _) hknown (fun _ _ => Tcp.Heap.holds_boundless _ _ _)
  have hsize : max 1 (min (e.tcp.conn .server).mss.toNat 1460) = 2 := by decide
  rw [hsize] at hframes
  exact ⟨hopen, hknown, hresult, frames, hsent, hframes.count, hframes⟩

end Engine

end NetEngine
