import NetEngine.Link.Offload

/-! # The Loopback Link

    A link in memory.  Frames are queued for it to take, and the frames that it
    sends are held until somebody collects them or has them **looped back**. -/

namespace NetEngine

/-- A link between two queues of frames. -/
structure Loopback where
  /-- The frames that wait, the next one first. -/
  inbound : List Bytes := []
  /-- The frame taken last, until it is done. -/
  current : Option Bytes := none
  /-- The place in it that is read next. -/
  cursor : Nat := 0
  /-- The frames sent, the latest one last. -/
  sent : List Bytes := []

namespace Loopback

/-! ### Queues -/

/-- Queue a frame. -/
def enqueue (l : Loopback) (frame : Bytes) : Loopback := { l with inbound := l.inbound ++ [frame] }

/-- Collect the frames sent. -/
def collect (l : Loopback) : List Bytes × Loopback := (l.sent, { l with sent := [] })

/-- Queue the frames sent behind those that wait. -/
def loopBack (l : Loopback) : Loopback := { l with inbound := l.inbound ++ l.sent, sent := [] }

/-! ### Reading the frame taken last -/

/-- Octets of the frame taken last, none if there is no frame. -/
def readFrom (l : Loopback) (offset n : Nat) : Bytes := slice (l.current.getD []) offset n

/-- Go to a place of the frame. -/
def seek (l : Loopback) (offset : Nat) : Loopback := { l with cursor := offset }

/-- Read up to `n` octets and go on behind them. -/
def read (l : Loopback) (n : Nat) : Bytes × Loopback :=
  let got := l.readFrom l.cursor n
  (got, { l with cursor := l.cursor + got.length })

/-! ### Frames -/

/-- Take the next frame. -/
def receive (l : Loopback) (capacity : Nat) : Option Arrival × Loopback :=
  match l.inbound with
  | [] => (none, l)
  | frame :: rest =>
    let resident := frame.take capacity
    (some { length := frame.length, checksums := Offload.verified frame, resident := resident },
      { l with inbound := rest, current := some frame, cursor := resident.length })

/-- Let go of the frame taken last. -/
def done (l : Loopback) : Loopback := { l with current := none, cursor := 0 }

/-- The most octets that are pulled from a source at once. -/
def chunk : Nat := 64

/-- The room that a source writes into.  What has been written stays until it is written over. -/
structure Room where
  octets : Bytes
  length_octets : octets.length = chunk

namespace Room

/-- The room that nobody has written into. -/
def blank : Room := ⟨List.replicate chunk 0, List.length_replicate⟩

/-- The room after a source that was offered the first `want` octets of it has written. -/
def write (room : Room) (want : Nat) (written : Bytes) : Room where
  octets := readInto room.octets (written.take (min want chunk))
  length_octets := by
    have hlength := room.length_octets
    unfold readInto
    rw [length_overwrite, hlength]
    rw [List.length_take]
    omega

end Room

/-- The number of octets that a source tells it has, of `want` octets from `offset` on. -/
def available (answer : Supplied) (offset want : Nat) : Nat := min (answer.total - offset) want

/-- Pull `missing` octets from a source, from `offset` on, through a room.  A source that has none of
the octets that it is asked for ends it. -/
def pullInto (source : Supplier) (room : Room) (offset missing : Nat) : Option Bytes :=
  if _h : missing = 0 then some []
  else
    let want := min missing chunk
    let answer := source.supply offset want
    let got := available answer offset want
    if _h' : got = 0 then none
    else
      -- A source may give less than is asked for, and is then asked again behind it.
      let room' := room.write want answer.bytes
      (pullInto source room' (offset + got) (missing - got)).map (room'.octets.take got ++ ·)
  termination_by missing
  decreasing_by exact Nat.sub_lt (Nat.pos_of_ne_zero _h) (Nat.pos_of_ne_zero _h')

/-- Pull `missing` octets from a source, from `offset` on. -/
def pull (source : Supplier) (offset missing : Nat) : Option Bytes :=
  pullInto source .blank offset missing

/-- No more than a chunk is pulled at once. -/
theorem available_le (answer : Supplied) (offset missing : Nat) :
    available answer offset (min missing chunk) ≤ missing ∧
      available answer offset (min missing chunk) ≤ chunk := by
  unfold available
  omega

theorem length_take_octets (room : Room) {n : Nat} (small : n ≤ chunk) :
    (room.octets.take n).length = n := by
  have hlength := room.length_octets
  exact List.length_take_of_le (by omega)

theorem length_of_pullInto {source : Supplier} {room : Room} {offset missing : Nat} {b : Bytes}
    (h : pullInto source room offset missing = some b) : b.length = missing := by
  fun_induction pullInto source room offset missing generalizing b with
  | case1 => simp_all
  | case2 => simp at h
  | case3 room offset missing _ want answer got hgot room' =>
    rename_i ih
    obtain ⟨hmissing, hchunk⟩ := available_le answer offset missing
    obtain ⟨rest, hr, rfl⟩ := Option.map_eq_some_iff.1 h
    rw [List.length_append, ih hr, length_take_octets room' hchunk]
    exact Nat.add_sub_of_le hmissing

/-- A source that can be pulled gives as many octets as are missing. -/
theorem length_of_pull {source : Supplier} {offset missing : Nat} {b : Bytes}
    (h : pull source offset missing = some b) : b.length = missing :=
  length_of_pullInto h

/-- Put a frame of `length` octets together. -/
def assemble (headers : Bytes) (length : Nat) (body : Option Body) :
    Except NetError Bytes :=
  if length > Ethernet.maxFrame ∨ headers.length > length then .error .badSize
  else match body with
    | none => if headers.length = length then .ok headers else .error .badSize
    | some a => match pull a.source a.offset (length - headers.length) with
      | none => .error .badSize
      | some payload => .ok (headers ++ payload)

/-- Send a frame. -/
def transmit (l : Loopback) (headers : Bytes) (length : Nat) (checksums : ChecksumSet)
    (body : Option Body) : Except NetError Unit × Loopback :=
  match assemble headers length body with
  | .error e => (.error e, l)
  | .ok frame => (.ok (), { l with sent := l.sent ++ [Offload.fill frame checksums] })

end Loopback

instance : Link Loopback where
  receive := Loopback.receive
  readFrom := Loopback.readFrom
  done := Loopback.done
  transmit := Loopback.transmit
  waiting l := l.inbound.length
  now _ := 0

end NetEngine
