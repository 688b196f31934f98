import NetEngine.Proofs.Slots
import NetEngine.Proofs.Tcp.SeqNumber
import NetEngine.Proofs.Tcp.Sides

/-! # Data Cut into Pieces

    * **Pieces**: the octets of a source are cut from the front, each piece as
      long as a segment may be, and the last one shorter.
    * **Consecutive**: each piece starts where the one before it ends.  A segment
      that carries a piece then has the number of the first octet, counted from
      the number before the call.
    * **Tracking**: the pieces come to the pool one after the other, as long as
      there is a place. -/

namespace NetEngine.Tcp

/-! ## Pieces -/

/-- The number of pieces into which `rest` octets are cut. -/
def pieceCount (size rest : Nat) : Nat := (rest + size - 1) / size

theorem pieceCount_zero {size : Nat} (pos : 0 < size) : pieceCount size 0 = 0 :=
  Nat.div_eq_of_lt (by omega)

/-- A piece that is cut off is one of them. -/
theorem pieceCount_of_pos {size rest : Nat} (pos : 0 < size) (more : 0 < rest) :
    pieceCount size rest = pieceCount size (rest - min rest size) + 1 := by
  unfold pieceCount
  by_cases hlast : rest ≤ size
  · have hone : rest + size - 1 = rest - 1 + size := by omega
    have hnone : rest - min rest size + size - 1 = size - 1 := by omega
    rw [hone, hnone, Nat.add_div_right _ pos, Nat.div_eq_of_lt (by omega),
      Nat.div_eq_of_lt (by omega)]
  · have hmore : rest + size - 1 = rest - min rest size + size - 1 + size := by omega
    rw [hmore, Nat.add_div_right _ pos]

/-- The pieces one after the other. -/
theorem pieces_eq {size : Nat} (pos : 0 < size) (offset rest : Nat) :
    pieces size offset rest = (List.range (pieceCount size rest)).map fun k =>
      ⟨offset + k * size, min (rest - k * size) size⟩ := by
  fun_induction pieces size offset rest with
  | case1 offset rest nothing =>
    rw [nothing.resolve_left pos.ne', pieceCount_zero pos]
    rfl
  | case2 offset rest more len ih =>
    rw [pieceCount_of_pos pos (by omega), List.range_succ_eq_map, List.map_cons, List.map_map, ih]
    congr 1
    · simp [len]
    · apply List.map_congr_left
      intro k hk
      -- There is another piece only behind one of full length.
      have hfull : len = size := by
        by_contra hshort
        have hnone : rest - len = 0 := by omega
        change k ∈ List.range (pieceCount size (rest - len)) at hk
        rw [hnone, pieceCount_zero pos] at hk
        cases hk
      show Piece.mk _ _ = Piece.mk _ _
      rw [hfull, Nat.succ_mul]
      congr 1 <;> omega

theorem length_pieces {size : Nat} (pos : 0 < size) (offset rest : Nat) :
    (pieces size offset rest).length = pieceCount size rest := by
  rw [pieces_eq pos, List.length_map, List.length_range]

/-- Each piece starts where the one before it ends. -/
def Consecutive : Nat → List Piece → Prop
  | _, [] => True
  | start, p :: rest => p.offset = start ∧ Consecutive (start + p.len) rest

theorem consecutive_pieces (size offset rest : Nat) :
    Consecutive offset (pieces size offset rest) := by
  fun_induction pieces size offset rest with
  | case1 => trivial
  | case2 offset rest more len ih => exact ⟨rfl, ih⟩

/-- What is in front of some piece is consecutive as well. -/
theorem Consecutive.takeWhile {start : Nat} {ps : List Piece} (h : Consecutive start ps)
    (q : Piece → Bool) : Consecutive start (ps.takeWhile q) := by
  induction ps generalizing start with
  | nil => trivial
  | cons p ps ih =>
    rw [List.takeWhile_cons]
    split
    · exact ⟨h.1, ih h.2⟩
    · trivial

theorem sum_pieces {size : Nat} (pos : 0 < size) (offset rest : Nat) :
    ((pieces size offset rest).map (·.len)).sum = rest := by
  fun_induction pieces size offset rest with
  | case1 offset rest nothing => exact (nothing.resolve_left pos.ne').symm
  | case2 offset rest more len ih =>
    rw [List.map_cons, List.sum_cons, ih]
    show len + (rest - len) = rest
    omega

/-- Every piece has an octet, is not too long, and lies within the data. -/
theorem piece_bounds {size offset rest : Nat} {p : Piece} (mem : p ∈ pieces size offset rest) :
    0 < p.len ∧ p.len ≤ size ∧ p.offset + p.len ≤ offset + rest := by
  fun_induction pieces size offset rest with
  | case1 => cases mem
  | case2 offset rest more len ih =>
    rcases List.mem_cons.mp mem with rfl | hmem
    · dsimp only
      omega
    · have := ih hmem
      omega

/-! ## Segments that carry a piece -/

section Segments

variable (c : Connection) (source : Source) (p : Piece)

/-- The segment that carries a piece, where the first octet of the data has the number that comes
next on the connection. -/
def pieceSegment : Segment := c.segment (c.lastSent + p.offset) .ACK p.len

/-- What is given to the link. -/
def pieceOut : Outgoing := .fresh c.remoteAddr (pieceSegment c p) (some ⟨source.data, p.offset⟩)

/-- What is tracked of it. -/
def pieceEntry (policy : Policy) (role : Role) : Tracked :=
  .track role (c.lastSent + p.offset) p.len (.ofSource source (pieceSegment c p) p.offset)
    policy.retries policy.timeout

/-- The connection when the data up to `sent` octets has been sent. -/
def Connection.advanced (age : Countdown) (sent : Nat) : Connection :=
  { c with age := age, lastSent := c.lastSent + sent }

theorem Connection.advanced_zero : c.advanced c.age 0 = c := by
  unfold advanced
  rw [SeqNumber.add_zero]

end Segments

namespace Machine

variable {m : Machine} {role : Role} {source : Source} {tracked : Bool} {c : Connection}
  {p : Piece} {ps : List Piece} {age : Countdown} {start : Nat}

/-! ## Tracking -/

/-- A segment comes to the pool if there is a place for it, and is counted if there is none. -/
theorem track_cases (m : Machine) (role : Role) (seq : SeqNumber) (len : Nat) (kept : Kept) :
    let e := Tracked.track role seq len kept m.policy.retries m.policy.timeout
    let m' := m.track role seq len kept
    m.pool.size < poolSize ∧ m'.pool.toList.Perm (m.pool.toList ++ [e]) ∧ m'.counts = m.counts ∨
      m.pool.size = poolSize ∧ m'.pool = m.pool ∧
        m'.counts = { m.counts with untracked := m.counts.untracked + 1 } := by
  intro e m'
  cases hinsert : m.pool.insert? e with
  | none =>
    right
    have hm' : m' = { m with counts := { m.counts with untracked := m.counts.untracked + 1 } } := by
      unfold m' track
      rw [hinsert]
    rw [hm']
    exact ⟨(Slots.insert?_eq_none_iff _ _).mp hinsert, rfl, rfl⟩
  | some found =>
    left
    have hm' : m' = { m with pool := found.2 } := by
      unfold m' track
      rw [hinsert]
    have hroom : m.pool.size ≠ poolSize := by
      intro hfull
      rw [(Slots.insert?_eq_none_iff _ e).mpr hfull] at hinsert
      cases hinsert
    rw [hm']
    exact ⟨lt_of_le_of_ne (Slots.size_le _) hroom, Slots.toList_insert? hinsert, rfl⟩

theorem size_track (m : Machine) (role : Role) (seq : SeqNumber) (len : Nat) (kept : Kept) :
    (m.track role seq len kept).pool.size =
      m.pool.size + if m.pool.size < poolSize then 1 else 0 := by
  rcases track_cases m role seq len kept with ⟨hroom, hperm, -⟩ | ⟨hfull, hsame, -⟩
  · rw [if_pos hroom]
    unfold Slots.size
    rw [hperm.length_eq, List.length_append]
    rfl
  · rw [hsame, if_neg (by omega)]
    rfl

/-! ## Sending a piece -/

@[simp] theorem policy_sendPiece (m : Machine) (role : Role) (source : Source) (tracked : Bool)
    (p : Piece) : (m.sendPiece role source tracked p).machine.policy = m.policy := by
  unfold sendPiece
  dsimp only
  split <;> simp

/-- Whether a piece is tracked or not, the next number is the one behind it. -/
theorem conn_sendPiece (m : Machine) (role : Role) (source : Source) (tracked : Bool) (p : Piece) :
    (m.sendPiece role source tracked p).machine.conn role =
      { m.conn role with age := m.policy.maxAge, lastSent := (m.conn role).lastSent + p.len } := by
  unfold sendPiece
  dsimp only
  split <;> simp

/-- A piece takes a place if it is to be tracked and there is room. -/
theorem size_sendPiece (m : Machine) (role : Role) (source : Source) (tracked : Bool) (p : Piece) :
    (m.sendPiece role source tracked p).machine.pool.size =
      m.pool.size + if tracked ∧ m.pool.size < poolSize then 1 else 0 := by
  unfold sendPiece
  dsimp only
  cases tracked with
  | false => simp
  | true => simp [size_track]

/-- After a piece, the connection has come as far as the piece reaches. -/
theorem conn_sendPiece_advanced (conn : m.conn role = c.advanced age start) (source : Source)
    (tracked : Bool) (p : Piece) :
    (m.sendPiece role source tracked p).machine.conn role =
      c.advanced m.policy.maxAge (start + p.len) := by
  rw [conn_sendPiece, conn]
  show { c with age := m.policy.maxAge, lastSent := c.lastSent + start + p.len } = _
  rw [SeqNumber.add_add]
  rfl

/-- A piece that starts as far as the connection has come goes out with its number. -/
theorem out_sendPiece (conn : m.conn role = c.advanced age start) (source : Source)
    (tracked : Bool) (next : p.offset = start) :
    (m.sendPiece role source tracked p).out = some (pieceOut c source p) := by
  show some (Outgoing.fresh (m.conn role).remoteAddr
    ((m.conn role).segment (m.conn role).lastSent .ACK p.len) _) = _
  rw [conn, ← next]
  rfl

/-- What becomes of the pool when a piece is sent that is to be tracked. -/
theorem tracked_sendPiece (conn : m.conn role = c.advanced age start) (source : Source)
    (next : p.offset = start) :
    let m' := (m.sendPiece role source true p).machine
    m.pool.size < poolSize ∧
        m'.pool.toList.Perm (m.pool.toList ++ [pieceEntry c source p m.policy role]) ∧
        m'.counts = m.counts ∨
      m.pool.size = poolSize ∧ m'.pool = m.pool ∧
        m'.counts = { m.counts with untracked := m.counts.untracked + 1 } := by
  intro m'
  let sent := m.setConn role (c.advanced m.policy.maxAge (start + p.len))
  have hm' : m' = sent.track role (c.lastSent + p.offset) p.len
      (.ofSource source (pieceSegment c p) p.offset) := by
    show (m.setConn role { m.conn role with
        age := m.policy.maxAge, lastSent := (m.conn role).lastSent + p.len }).track role
      (m.conn role).lastSent p.len (.ofSource source
        ((m.conn role).segment (m.conn role).lastSent .ACK p.len) p.offset) = _
    unfold sent pieceSegment
    rw [conn, next]
    unfold Connection.advanced
    rw [← SeqNumber.add_add]
    rfl
  have hpool : sent.pool = m.pool := pool_setConn _ _ _
  have hpolicy : sent.policy = m.policy := policy_setConn _ _ _
  have hcounts : sent.counts = m.counts := counts_setConn _ _ _
  have hcases := track_cases sent role (c.lastSent + p.offset) p.len
    (.ofSource source (pieceSegment c p) p.offset)
  rw [hpool, hpolicy, hcounts, ← hm'] at hcases
  exact hcases

theorem untracked_sendPiece (m : Machine) (role : Role) (source : Source) (p : Piece) :
    (m.sendPiece role source false p).machine.pool = m.pool ∧
      (m.sendPiece role source false p).machine.counts = m.counts :=
  ⟨pool_setConn _ _ _, counts_setConn _ _ _⟩

/-! ## Sending all pieces -/

theorem conn_sendPieces (conn : m.conn role = c.advanced age start) (source : Source)
    (tracked : Bool) (ps : List Piece) :
    ∃ age', (m.sendPieces role source tracked ps).1.conn role =
      c.advanced age' (start + (ps.map (·.len)).sum) := by
  induction ps generalizing m age start with
  | nil => exact ⟨age, conn⟩
  | cons p ps ih =>
    rw [List.map_cons, List.sum_cons, ← Nat.add_assoc]
    exact ih (conn_sendPiece_advanced conn source _ p)

/-- What is not to be tracked leaves the pool alone. -/
theorem untracked_sendPieces (m : Machine) (role : Role) (source : Source) (ps : List Piece) :
    (m.sendPieces role source false ps).1.pool = m.pool ∧
      (m.sendPieces role source false ps).1.counts = m.counts := by
  induction ps generalizing m with
  | nil => exact ⟨rfl, rfl⟩
  | cons p ps ih =>
    obtain ⟨hpool, hcounts⟩ := untracked_sendPiece m role source p
    obtain ⟨hpool', hcounts'⟩ := ih (m.sendPiece role source false p).machine
    exact ⟨hpool'.trans hpool, hcounts'.trans hcounts⟩

/-- The first pieces are tracked, as many as there are places, and the others are counted. -/
theorem tracked_sendPieces (conn : m.conn role = c.advanced age start) (source : Source)
    (pieces : Consecutive start ps) :
    let m' := (m.sendPieces role source true ps).1
    let room := poolSize - m.pool.size
    m'.pool.toList.Perm
        (m.pool.toList ++ (ps.take room).map fun p => pieceEntry c source p m.policy role) ∧
      m'.counts = { m.counts with untracked := m.counts.untracked + .ofNat (ps.length - room) } := by
  induction ps generalizing m age start with
  | nil => simp [sendPieces, steps]
  | cons p ps ih =>
    obtain ⟨hnext, hrest⟩ := pieces
    obtain ⟨hpool, hcounts⟩ := ih (conn_sendPiece_advanced conn source _ p) hrest
    rw [policy_sendPiece] at hpool
    rcases tracked_sendPiece conn source hnext with
      ⟨hroom, hperm, hsame⟩ | ⟨hfull, hsame, hcounted⟩
    · -- The piece takes a place, so that there is one less for the others.
      have hsize : (m.sendPiece role source true p).machine.pool.size = m.pool.size + 1 := by
        rw [size_sendPiece, if_pos ⟨rfl, hroom⟩]
      obtain ⟨room, hroom'⟩ : ∃ room, poolSize - m.pool.size = room + 1 :=
        Nat.exists_eq_succ_of_ne_zero (by omega)
      have hless : poolSize - (m.sendPiece role source true p).machine.pool.size = room := by
        omega
      rw [hless] at hpool hcounts
      rw [hsame] at hcounts
      intro m' room'
      have hroom'' : room' = room + 1 := hroom'
      rw [hroom'', List.take_succ_cons, List.map_cons, List.length_cons, Nat.add_sub_add_right]
      refine ⟨?_, hcounts⟩
      refine hpool.trans ((hperm.append_right _).trans ?_)
      rw [List.append_assoc]
      rfl
    · -- There is no place for this one, nor for those that follow.
      have hnone : poolSize - m.pool.size = 0 := by omega
      rw [hsame, hnone, List.take_zero] at hpool
      rw [hsame, hnone, hcounted] at hcounts
      intro m' room'
      have hroom' : room' = 0 := hnone
      rw [hroom', List.take_zero]
      refine ⟨hpool, hcounts.trans ?_⟩
      have hmore : m.counts.untracked + 1 + .ofNat ps.length =
          m.counts.untracked + .ofNat (ps.length + 1) := by
        rw [UInt32.ofNat_add, UInt32.add_assoc, UInt32.add_comm 1]
        rfl
      rw [List.length_cons, Nat.sub_zero, Nat.sub_zero, ← hmore]

end Machine

end NetEngine.Tcp
