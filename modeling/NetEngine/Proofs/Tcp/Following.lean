import NetEngine.Proofs.Tcp.Stopping

/-! # Following the Stream of the Peer

    The peer sends a stream of `total` octets, and a FIN behind them perhaps.
    Octet number `i` of the stream has the sequence number `b + (1 + i)`.

    * **Slice**: a segment that carries a part of the stream.
    * **Follows**: the side has received the first `k` octets, and the FIN if
      `ended` says so.
    * **Hands**: what is handed to the application goes on where it ended before.

    As long as all segments are slices, every move keeps following.  The stream
    is shorter than half a round, so that no slice is mistaken for another. -/

namespace NetEngine.Tcp

/-- A segment carries `len` octets of the stream from number `start` on. -/
structure SliceAt (b : SeqNumber) (total start len : Nat) (s : Segment) : Prop where
  seq : s.seq = b + (1 + start)
  length : s.payloadLen = len
  fits : start + len ≤ total
  /-- The FIN stands behind the last octet. -/
  fin : s.flags.fin → start + len = total

/-! ## Taking a slice -/

namespace Connection

variable {b : SeqNumber} {total start len k : Nat} {c : Connection} {s : Segment}

/-- The distance of a slice tells where it starts. -/
theorem distance_slice (short : total + 1 < 2 ^ 31) (slice : SliceAt b total start len s)
    (received : c.lastReceived = b + k) (within : k ≤ total) :
    s.seq.distance c.lastReceived = 1 + start - k := by
  have hfits := slice.fits
  -- The stream is shorter than half a round, and so is the distance.
  rw [slice.seq, received, SeqNumber.distance_add_add b (by omega) (by omega)]
  omega

/-- A slice is never half a round away. -/
theorem not_far_of_slice (short : total + 1 < 2 ^ 31) (slice : SliceAt b total start len s)
    (received : c.lastReceived = b + k) (within : k ≤ total) : ¬ c.IsHalfRoundAway s := by
  intro far
  have hd := ((isHalfRoundAway_iff c s).mp far).2
  rw [distance_slice short slice received within] at hd
  omega

/-- The gain of a slice tells where it ends. -/
theorem gain_slice (short : total + 1 < 2 ^ 31) (slice : SliceAt b total start len s)
    (received : c.lastReceived = b + k) (within : k ≤ total) :
    c.gain s = start + s.span - k := by
  have hfits := slice.fits
  have hlen := slice.length
  have hfin := Bool.toNat_le s.flags.fin
  have hspan : s.span = len + s.flags.fin.toNat := by
    unfold Segment.span
    rw [hlen]
  have hlast : s.seq + s.span - 1 = b + (start + s.span) := by
    rw [slice.seq, SeqNumber.add_add, SeqNumber.add_sub_of_le b (by omega)]
    congr 1
    omega
  rw [gain, hlast, received, SeqNumber.distance_add_add b (by omega) (by omega)]
  omega

/-- A slice that is taken leaves no gap; what is new of it are the octets behind those received
before, and its FIN. -/
theorem take_slice {a : Taken} (short : total + 1 < 2 ^ 31) (slice : SliceAt b total start len s)
    (received : c.lastReceived = b + k) (within : k ≤ total) (taken : c.take s = some a) :
    start ≤ k ∧ a.count = start + len - k ∧ a.fin = s.flags.fin ∧
      a.conn.lastReceived = b + (k + a.count + a.fin.toNat) := by
  obtain ⟨hd, rfl⟩ := take_eq_some taken
  have hgain := gain_slice short slice received within
  rw [distance_slice short slice received within] at hd
  have hspan : s.span = len + s.flags.fin.toNat := by
    unfold Segment.span
    rw [slice.length]
  have hlast : (c.taken s).conn.lastReceived =
      b + (k + (c.taken s).count + (c.taken s).fin.toNat) := by
    rw [taken_conn]
    show c.lastReceived + _ = _
    rw [received, SeqNumber.add_add, Nat.add_assoc]
  refine ⟨by omega, ?_, ?_, hlast⟩
  · simp only [Connection.taken]
    omega
  · -- A FIN is new, since it stands behind the whole stream.
    cases hfin : s.flags.fin with
    | false => simp [Connection.taken, hfin]
    | true =>
      have hend := slice.fin hfin
      have hpos : 0 < c.gain s := by
        rw [hgain, hspan, hfin]
        simp only [Bool.toNat_true]
        omega
      simp [Connection.taken, hfin, hpos]

end Connection

namespace Side

variable {role : Role} {heard : Option Segment} {x y : Side} {b : SeqNumber}
  {total start len k : Nat} {ended : Bool}

/-! ## Following -/

/-- The side has received `k` octets of the stream, and the FIN if `ended` says so. -/
structure Follows (b : SeqNumber) (total k : Nat) (ended : Bool) (x : Side) : Prop where
  received : x.conn.lastReceived = b + (k + ended.toNat)
  within : k ≤ total
  complete : ended = true → k = total
  /-- Once the connection is over nothing is left that could be sent. -/
  state : (x.conn.state = .established ∨ x.conn.state = .finWait1 ∨ x.conn.state = .finWait2) ∧
      ended = false ∨
    x.conn.state = .lastAck ∧ ended = true ∨ x.conn.state = .closed ∧ x.pending = 0

/-- What is handed over goes on where it ended before, and is the end of its segment. -/
def Hands (start len : Nat) : Nat → List Delivery → Nat → Prop
  | k, [], k' => k' = k
  | k, d :: ds, k' =>
    start + d.skip = k ∧ d.skip + d.count = len ∧ Hands start len (k + d.count) ds k'

theorem Hands.append {k k' k'' : Nat} {ds ds' : List Delivery} (h : Hands start len k ds k')
    (h' : Hands start len k' ds' k'') : Hands start len k (ds ++ ds') k'' := by
  induction ds generalizing k with
  | nil =>
    obtain rfl : k' = k := h
    exact h'
  | cons d ds ih => exact ⟨h.1, h.2.1, ih h.2.2⟩

theorem Hands.le {k k' : Nat} {ds : List Delivery} (h : Hands start len k ds k') : k ≤ k' := by
  induction ds generalizing k with
  | nil => exact Nat.le_of_eq h.symm
  | cons d ds ih => exact (Nat.le_add_right _ _).trans (ih h.2.2)

/-! ## Acknowledgment numbers -/

/-- A new segment acknowledges what the connection has received, if it acknowledges anything. -/
def SpeaksFor (c : Connection) (o : Outgoing) : Prop :=
  ∀ dst segment body, o = .fresh dst segment body → segment.flags.ack →
    segment.ackNumber = c.ackNumber

theorem speaksFor_segment {c c' : Connection} (h : c'.lastReceived = c.lastReceived)
    (dst : Ipv4Address) (seq : SeqNumber) (flags : Flags) (payloadLen : Nat) (body : Option Body) :
    SpeaksFor c' (.fresh dst (c.segment seq flags payloadLen) body) := by
  intro dst' segment body' heq hack
  cases heq
  have hflags : flags.ack := hack
  show (if flags.ack then c.ackNumber else ⟨0⟩) = c'.ackNumber
  rw [if_pos hflags, Connection.ackNumber, Connection.ackNumber, h]

theorem speaksFor_rebuild (c : Connection) (kept : Kept) :
    SpeaksFor c (Machine.rebuild c kept) := by
  cases kept with
  | copy octets =>
    intro dst segment body heq
    cases heq
  | generated g offset seq len => exact speaksFor_segment rfl _ _ _ _ _
  | control seq flags => exact speaksFor_segment rfl _ _ _ _ _

/-- Whatever a move sends speaks for the connection after it. -/
theorem speaksFor_of_move {out : Option Outgoing} {given : Option Delivery}
    (h : Move role heard x out given y) : ∀ o ∈ out, SpeaksFor y.conn o := by
  intro o ho
  cases h with
  | resend e mem =>
    cases ho
    exact speaksFor_rebuild _ _
  | take s a =>
    cases hack : a.ack <;> rw [hack] at ho <;> cases ho
    exact speaksFor_segment rfl _ _ _ _ _
  | piece | finish | abort | answer | answerFin | endByFin =>
    cases ho
    exact speaksFor_segment rfl _ _ _ _ _
  | age | forget | drop | acknowledge | complete | finAcked => cases ho

theorem Follows.acknowledged (h : Follows b total k ended x) {o : Outgoing}
    (speaks : SpeaksFor x.conn o) {dst : Ipv4Address} {segment : Segment} {body : Option Body}
    (fresh : o = .fresh dst segment body) (ack : segment.flags.ack) :
    segment.ackNumber = b + (1 + k + ended.toNat) := by
  rw [speaks dst segment body fresh ack, Connection.ackNumber, h.received, SeqNumber.add_add]
  congr 1
  omega

/-! ## Moves -/

/-- A move that takes no data keeps following where it is. -/
theorem Follows.congr {c : Connection} {p : Multiset Pending} (h : Follows b total k ended x)
    (received : c.lastReceived = x.conn.lastReceived)
    (state : (c.state = .established ∨ c.state = .finWait1 ∨ c.state = .finWait2) ∧ ended = false ∨
      c.state = .lastAck ∧ ended = true ∨ c.state = .closed ∧ p = 0) :
    Follows b total k ended ⟨c, p⟩ :=
  ⟨received.trans h.received, h.within, h.complete, state⟩

/-- What is handed over of a slice, and where following is then. -/
theorem hands_take (role : Role) {c : Connection} {s : Segment} {a : Taken}
    (short : total + 1 < 2 ^ 31) (slice : SliceAt b total start len s)
    (received : c.lastReceived = b + k) (within : k ≤ total)
    (taken : c.take s = some a) :
    Hands start len k (a.handed role s).toList (k + a.count) ∧ k + a.count ≤ total ∧
      (a.fin = true → k + a.count = total) ∧
      a.conn.lastReceived = b + (k + a.count + a.fin.toNat) := by
  obtain ⟨hstart, hcount, hfin, hlast⟩ :=
    Connection.take_slice short slice received within taken
  have hfits := slice.fits
  refine ⟨?_, by omega, ?_, hlast⟩
  · -- A slice has all octets that are new of it.
    obtain ⟨given, hgiven, hnew⟩ := a.exists_delivery role s (by rw [slice.length]; omega)
    rw [Taken.handed_eq hgiven]
    cases given with
    | none =>
      show k + a.count = k
      rw [← hnew]
      rfl
    | some d =>
      obtain ⟨-, -, hdcount, hpos, hskip⟩ := Taken.delivery_eq_some_iff.mp hgiven
      rw [slice.length] at hskip
      refine ⟨by omega, hskip, ?_⟩
      show k + a.count = k + d.count
      omega
  · intro h
    have := slice.fin (hfin ▸ h)
    omega

theorem Follows.not_ended (h : Follows b total k ended x)
    (receives : x.conn.state = .established ∨ x.conn.state = .finWait1 ∨
      x.conn.state = .finWait2) : ended = false := by
  rcases h.state with ⟨-, h⟩ | ⟨hstate, -⟩ | ⟨hstate, -⟩
  · exact h
  · rw [hstate] at receives
    rcases receives with h | h | h <;> cases h
  · rw [hstate] at receives
    rcases receives with h | h | h <;> cases h

/-- A connection that follows has its handshake behind it, and waits for no user to close it. -/
theorem Follows.state_ne (h : Follows b total k ended x) {state : State}
    (opening : state = .synSent ∨ state = .synReceived ∨ state = .closeWait) :
    x.conn.state ≠ state := by
  rintro rfl
  rcases h.state with ⟨hstate | hstate | hstate, -⟩ | ⟨hstate, -⟩ | ⟨hstate, -⟩ <;>
    rw [hstate] at opening <;> rcases opening with h | h | h <;> cases h

/-- From the first `k` octets on, the side follows the first `k'` when `handed` has been handed
over.  The FIN is not accepted before it has arrived. -/
structure GoesOn (b : SeqNumber) (total start len : Nat) (heard : Option Segment) (k : Nat)
    (ended : Bool) (handed : List Delivery) (y : Side) (k' : Nat) (ended' : Bool) : Prop where
  follows : Follows b total k' ended' y
  hands : Hands start len k handed k'
  stays : ended = true → ended' = true
  fin : ended' = true → ended = true ∨ ∃ s ∈ heard, s.flags.fin

namespace GoesOn

theorem refl (h : Follows b total k ended x) :
    GoesOn b total start len heard k ended [] x k ended :=
  ⟨h, rfl, id, .inl⟩

theorem trans {handed handed' : List Delivery} {z : Side} {j k' : Nat} {endedj ended' : Bool}
    (h : GoesOn b total start len heard k ended handed y j endedj)
    (h' : GoesOn b total start len heard j endedj handed' z k' ended') :
    GoesOn b total start len heard k ended (handed ++ handed') z k' ended' where
  follows := h'.follows
  hands := h.hands.append h'.hands
  stays hended := h'.stays (h.stays hended)
  fin hended := by
    rcases h'.fin hended with hbefore | harrived
    · exact h.fin hbefore
    · exact .inr harrived

/-- What is new of a slice comes next in the stream.  Its FIN stands behind the last octet, so that
the stream is complete with it. -/
theorem of_take {c : Connection} {p : Multiset Pending} {s : Segment} {a : Taken}
    (short : total + 1 < 2 ^ 31) (slices : ∀ s ∈ heard, SliceAt b total start len s)
    (arrived : s ∈ heard) (hx : Follows b total k ended ⟨c, p⟩)
    (receives : c.state = .established ∨ c.state = .finWait1 ∨ c.state = .finWait2)
    (taken : c.take s = some a) (received : y.conn.lastReceived = a.conn.lastReceived)
    (state : (y.conn.state = .established ∨ y.conn.state = .finWait1 ∨
        y.conn.state = .finWait2) ∧ a.fin = false ∨
      y.conn.state = .lastAck ∧ a.fin = true ∨ y.conn.state = .closed ∧ y.pending = 0) :
    GoesOn b total start len heard k ended (a.handed role s).toList y (k + a.count) a.fin := by
  obtain rfl := hx.not_ended receives
  obtain ⟨hhands, hwithin, hcomplete, hlast⟩ :=
    hands_take role short (slices s arrived) hx.received hx.within taken
  have hfollows : Follows b total (k + a.count) a.fin y :=
    ⟨received.trans hlast, hwithin, hcomplete, state⟩
  refine ⟨hfollows, hhands, nofun, ?_⟩
  intro hfin
  exact .inr ⟨s, arrived, Connection.fin_of_take taken hfin⟩

end GoesOn

/-- **Every move keeps following**: it hands over what comes next, if anything. -/
theorem follows_move {out : Option Outgoing} {given : Option Delivery} (short : total + 1 < 2 ^ 31)
    (slices : ∀ s ∈ heard, SliceAt b total start len s) (h : Move role heard x out given y)
    (hx : Follows b total k ended x) :
    ∃ k' ended', GoesOn b total start len heard k ended given.toList y k' ended' := by
  have stay {z : Side} (hz : Follows b total k ended z) :
      ∃ k' ended', GoesOn b total start len heard k ended [] z k' ended' := ⟨k, ended, .refl hz⟩
  cases h with
  | age => exact stay (hx.congr rfl hx.state)
  | resend => exact stay hx
  | piece source offset len open_ tracked =>
    exact stay (hx.congr rfl (.inl ⟨.inl open_, hx.not_ended (.inl open_)⟩))
  | finish next closes tracked =>
    rcases closes with ⟨hstate | hstate, rfl⟩ | ⟨hstate, -⟩
    · exact stay (hx.congr rfl (.inl ⟨.inr (.inl rfl), hx.not_ended (.inl hstate)⟩))
    · exact absurd hstate (hx.state_ne (.inr (.inl rfl)))
    · exact absurd hstate (hx.state_ne (.inr (.inr rfl)))
  | forget =>
    -- Where nothing was pending, nothing is.
    refine stay (hx.congr rfl ?_)
    rcases hx.state with h | h | ⟨h, -⟩
    · exact .inl h
    · exact .inr (.inl h)
    · exact .inr (.inr ⟨h, rfl⟩)
  | drop => exact stay (hx.congr rfl (.inr (.inr ⟨rfl, rfl⟩)))
  | abort => exact stay (hx.congr rfl (.inr (.inr ⟨rfl, rfl⟩)))
  | acknowledge s arrived ack later =>
    rename_i c p
    refine stay (hx.congr rfl ?_)
    rcases hx.state with h | h | ⟨h, hp⟩
    · exact .inl h
    · exact .inr (.inl h)
    · have hzero : p = 0 := hp
      exact .inr (.inr ⟨h, by rw [hzero]; rfl⟩)
  | answer s arrived opening answers => exact absurd opening (hx.state_ne (.inl rfl))
  | complete s arrived opening => exact absurd opening (hx.state_ne (.inr (.inl rfl)))
  | take s a arrived receives taken more =>
    refine ⟨_, _, .of_take short slices arrived hx receives taken rfl (.inl ⟨?_, more⟩)⟩
    rw [Connection.conn_of_take taken]
    exact receives
  | answerFin s a arrived open_ taken fin tracked =>
    exact ⟨_, _, .of_take short slices arrived hx (.inl open_) taken rfl (.inr (.inl ⟨rfl, fin⟩))⟩
  | endByFin s a arrived closing taken fin =>
    exact ⟨_, _, .of_take short slices arrived hx (.inr closing) taken rfl (.inr (.inr ⟨rfl, rfl⟩))⟩
  | finAcked s arrived closing acked =>
    exact stay (hx.congr rfl (.inl ⟨.inr (.inr rfl), hx.not_ended (.inr (.inl closing))⟩))

/-- No acknowledgment in a new segment goes beyond the first `k` octets, but for one that counts the
FIN where `ended` says that it has been accepted. -/
def AcksWithin (b : SeqNumber) (total k : Nat) (ended : Bool) (sent : List Outgoing) : Prop :=
  ∀ dst segment body, .fresh dst segment body ∈ sent → segment.flags.ack →
    (∃ j ≤ k, segment.ackNumber = b + (1 + j)) ∨
      ended = true ∧ segment.ackNumber = b + (1 + total + 1)

/-- What speaks for a connection that follows is within what may be acknowledged from then on. -/
theorem GoesOn.acksWithin {handed : List Delivery} {k' : Nat} {ended' : Bool}
    (hx : Follows b total k ended x)
    (h : GoesOn b total start len heard k ended handed y k' ended') {out : Option Outgoing}
    (speaks : ∀ o ∈ out, SpeaksFor x.conn o) : AcksWithin b total k' ended' out.toList := by
  intro dst segment body ho hack
  have hnumber := hx.acknowledged (speaks _ (Option.mem_toList.mp ho)) rfl hack
  cases ended with
  | false => exact .inl ⟨k, h.hands.le, hnumber⟩
  | true =>
    right
    rw [hx.complete rfl] at hnumber
    exact ⟨h.stays rfl, hnumber⟩

/-- Every run keeps following, and acknowledges no octet before it is handed over. -/
theorem follows_run {sent : List Outgoing} {handed : List Delivery} (short : total + 1 < 2 ^ 31)
    (slices : ∀ s ∈ heard, SliceAt b total start len s) (h : Run role heard x sent handed y)
    (hx : Follows b total k ended x) :
    ∃ k' ended', GoesOn b total start len heard k ended handed y k' ended' ∧
      AcksWithin b total k' ended' sent := by
  induction h generalizing k ended with
  | nil => exact ⟨k, ended, .refl hx, nofun⟩
  | cons move _ ih =>
    obtain ⟨j, endedj, hmove⟩ := follows_move short slices move hx
    obtain ⟨k', ended', hrest, hsent⟩ := ih hmove.follows
    refine ⟨k', ended', hmove.trans hrest, ?_⟩
    have hfirst := hrest.acksWithin hmove.follows (speaksFor_of_move move)
    intro dst segment body ho hack
    rcases List.mem_append.mp ho with ho | ho
    · exact hfirst dst segment body ho hack
    · exact hsent dst segment body ho hack

end Side

end NetEngine.Tcp
