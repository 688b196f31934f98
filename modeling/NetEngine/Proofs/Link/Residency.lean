import NetEngine.Payload
import NetEngine.Proofs.Link.Datagrams
import NetEngine.Proofs.Link.Pulling
import NetEngine.Proofs.Udp.Header

/-! # Payloads Read Like the Frame

    Of a frame that arrives the first octets only are at hand.  The headers are read
    in them, and so is the payload as far as it reaches; the rest is read from the
    link, at places that count from the start of the frame.

    * **Content**: the payload of a whole frame, which its length fields bound and
      not its end.
    * **Found**: the headers tell the same of the first octets as of the whole
      frame, so that the payload starts and ends at the same places.
    * **Reader**: whoever reads goes to a place of the link, which then stands
      behind what has been read.  What he gets does not depend on where it stood. -/

namespace NetEngine

/-! ## Parts of slices -/

section Slices

variable (b : Bytes)

theorem take_slice (i m n : Nat) : (slice b i m).take n = slice b i (min n m) := List.take_take

theorem drop_slice (i m n : Nat) : (slice b i m).drop n = slice b (i + n) (m - n) := by
  unfold slice
  rw [List.drop_take, List.drop_drop]

theorem slice_slice (i m j n : Nat) :
    slice (slice b i m) j n = slice b (i + j) (min n (m - j)) := by
  rw [slice, drop_slice, take_slice]

theorem drop_take_eq_slice (i m : Nat) : (b.take m).drop i = slice b i (m - i) := List.drop_take

theorem byteAt_drop (i j : Nat) : byteAt (b.drop i) j = byteAt b (i + j) := by
  simp [byteAt]

variable {b}

theorem wordAt_slice {i m j : Nat} (within : j + 1 < m) :
    wordAt (slice b i m) j = wordAt b (i + j) := by
  unfold wordAt slice
  rw [byteAt_take_of_lt _ (by omega), byteAt_take_of_lt _ within, byteAt_drop, byteAt_drop]
  rfl

end Slices

/-! ## Readers -/

/-- Whoever reads gets up to `n` octets from `start` on, with the help of the link. -/
abbrev Reader : Type := (start n : Nat) → Loopback → Bytes × Loopback

namespace Reader

variable {r : Reader} {frame content : Bytes}

/-- What is read by one request after the other, each of which finds the link as the one before has
left it. -/
def answers (r : Reader) : List (Nat × Nat) → Loopback → List Bytes
  | [], _ => []
  | (start, n) :: requests, link =>
    let first := r start n link
    first.1 :: r.answers requests first.2

/-- As long as the link holds a frame, every request is answered by a slice of `content`, and the
frame stays. -/
def Reads (r : Reader) (frame content : Bytes) : Prop :=
  ∀ start n (link : Loopback), link.current = some frame →
    (r start n link).1 = slice content start n ∧ (r start n link).2.current = some frame

/-- **Requests are answered by slices**, whatever their order and however often they are made. -/
theorem Reads.answers (h : r.Reads frame content) (requests : List (Nat × Nat)) {link : Loopback}
    (held : link.current = some frame) :
    r.answers requests link = requests.map fun q => slice content q.1 q.2 := by
  induction requests generalizing link with
  | nil => rfl
  | cons q requests ih =>
    obtain ⟨hfirst, hstays⟩ := h q.1 q.2 link held
    unfold Reader.answers
    dsimp only
    rw [hfirst, ih hstays]
    rfl

end Reader

namespace Payload

/-- A read that takes what is resident, and goes to the link for what is behind it. -/
def reader (p : Payload Loopback) : Reader := fun start n link =>
  let wanted := min n (p.len - start)
  let near := slice p.resident start wanted
  if near.length < wanted then
    let far := (link.seek (p.offset + start + near.length)).read (wanted - near.length)
    (near ++ far.1, far.2)
  else (near, link)

/-- A read does not depend on where the link stands, but on the frame that it holds. -/
theorem reader_eq (p : Payload Loopback) (start n : Nat) {link : Loopback}
    (same : link.current = p.link.current) :
    (p.reader start n link).1 = p.readAt start n ∧
      (p.reader start n link).2.current = link.current := by
  let wanted := min n (p.len - start)
  let near := slice p.resident start wanted
  have hread : p.readAt start n = near ++
      slice (link.current.getD []) (p.offset + start + near.length) (wanted - near.length) := by
    rw [same]
    rfl
  unfold reader
  dsimp only
  split
  · rw [hread]
    exact ⟨rfl, rfl⟩
  · -- Everything that is wanted is resident.
    rename_i hall
    have hnone : wanted - near.length = 0 := Nat.sub_eq_zero_of_le (Nat.le_of_not_lt hall)
    rw [hread, hnone, slice_none, List.append_nil]
    exact ⟨rfl, rfl⟩

/-- A payload of the frame that the link holds shows `content` at every place. -/
structure Shows (p : Payload Loopback) (frame content : Bytes) : Prop where
  held : p.link.current = some frame
  len : p.len = content.length
  slices : ∀ start n, p.readAt start n = slice content start n

/-- Whoever reads the payload reads its content. -/
theorem Shows.reads {p : Payload Loopback} {frame content : Bytes} (shows : p.Shows frame content) :
    p.reader.Reads frame content := by
  intro start n link hlink
  obtain ⟨hread, hstays⟩ := p.reader_eq start n (hlink.trans shows.held.symm)
  exact ⟨hread.trans (shows.slices start n), hstays.trans hlink⟩

/-- **What is resident and what is read from the link join without a seam**, if the resident octets
are those of the frame. -/
theorem readAt_ofResident {link : Loopback} {frame octets : Bytes} {len offset k : Nat}
    (held : link.current = some frame) (near : octets.take len = slice frame offset k)
    (start n : Nat) :
    (ofResident octets len offset link).readAt start n =
      slice (slice frame offset len) start n := by
  let wanted := min n (len - start)
  let got := slice (octets.take len) start wanted
  have hgot : got = slice frame (offset + start) (min wanted (k - start)) := by
    simp only [got]
    rw [near, slice_slice]
  have hlength : got.length = min (min wanted (k - start)) (frame.length - (offset + start)) := by
    rw [hgot, length_slice]
  have hfront : got = slice frame (offset + start) got.length := by
    rw [hlength, Nat.min_comm, slice_min]
    exact hgot
  have hread : (ofResident octets len offset link).readAt start n = got ++
      slice (link.current.getD []) (offset + start + got.length) (wanted - got.length) := rfl
  rw [hread, held]
  calc got ++ slice frame (offset + start + got.length) (wanted - got.length)
    _ = slice frame (offset + start) (got.length + (wanted - got.length)) := by
      rw [← slice_append_slice, ← hfront]
    _ = slice frame (offset + start) wanted := by
      congr 1
      omega
    _ = slice (slice frame offset len) start n := by rw [slice_slice]

theorem shows_ofResident {link : Loopback} {frame octets : Bytes} {len offset k : Nat}
    (held : link.current = some frame) (near : octets.take len = slice frame offset k)
    (within : offset + len ≤ frame.length) :
    (ofResident octets len offset link).Shows frame (slice frame offset len) where
  held := held
  len := by
    have hlen : (ofResident octets len offset link).len = len := rfl
    rw [hlen, length_slice]
    omega
  slices := readAt_ofResident held near

end Payload

/-! ## Contents -/

namespace Ethernet.View

variable (f : View)

/-- The datagram in a frame, without the padding behind it. -/
def datagram : Ipv4.View := f.payload.take (Ipv4.View.totalLen f.payload)

/-- The transport packet in a frame. -/
def packet : Bytes := Ipv4.View.payload f.datagram

/-- What a user datagram carries, as far as its own length field reaches. -/
def userPayload : Bytes := Udp.View.payload f.packet

/-- What a segment carries behind its header and its options. -/
def segmentPayload : Bytes := Tcp.View.payload f.packet

end Ethernet.View

/-! ## Headers in the first octets -/

/-- A frame is there as a whole, if the header in it has been found correct. -/
theorem Offload.whole_of_verified {frame : Ethernet.View} (intact : (verified frame).ipv4 = true) :
    Ipv4.View.totalLen frame.payload ≤ frame.payload.length := by
  unfold verified at intact
  split at intact
  · cases intact
  · rename_i p hp
    unfold datagram? at hp
    split at hp
    · split at hp
      · unfold leading? at hp
        split at hp
        · assumption
        · cases hp
      · cases hp
    · cases hp

section Found

open Ethernet.View (payload packetStart)

variable {frame : Ethernet.View} {room offset : Nat} {ip : Ipv4.Header}

/-- The header of the datagram is among the first octets, and tells where the packet is. -/
theorem packet_eq_slice (parsed : Ipv4.Header.parse (payload (frame.take room)) .manual = .ok ip)
    (whole : Ipv4.View.totalLen frame.payload ≤ frame.payload.length) :
    frame.packet = slice frame (packetStart (frame.take room)) ip.payloadLen ∧
      packetStart (frame.take room) + ip.payloadLen ≤ frame.length := by
  unfold packetStart
  have hnear : payload (frame.take room) = frame.payload.take (room - Ethernet.headerLen) :=
    List.drop_take
  obtain ⟨hcheck, -, -, -, -, rfl⟩ := Ipv4.Header.parse_eq_ok parsed
  rw [hnear] at hcheck ⊢
  obtain ⟨hlong, hthere, hbound⟩ := Ipv4.View.check_eq_ok hcheck
  have hroom : 20 ≤ room - Ethernet.headerLen := by
    have := List.length_take_le (room - Ethernet.headerLen) frame.payload
    unfold Ipv4.headerLen at hlong
    omega
  have hfields (n : Nat) (h : 20 ≤ n) :
      Ipv4.View.headerLen (frame.payload.take n) = Ipv4.View.headerLen frame.payload ∧
        Ipv4.View.totalLen (frame.payload.take n) = Ipv4.View.totalLen frame.payload := by
    have hcongr := Ipv4.View.fields_congr (p := frame.payload) (q := frame.payload.take n)
      fun i hi => byteAt_take_of_lt frame.payload (by omega)
    exact ⟨hcongr.1, hcongr.2.2.1⟩
  obtain ⟨hheader, htotal⟩ := hfields _ hroom
  rw [hheader, htotal] at hbound
  rw [hheader] at hlong
  dsimp only
  rw [hheader, htotal]
  unfold Ipv4.headerLen at hlong
  have hdatagram : Ipv4.View.headerLen frame.datagram = Ipv4.View.headerLen frame.payload :=
    (hfields (Ipv4.View.totalLen frame.payload) (by omega)).1
  constructor
  · show frame.datagram.drop (Ipv4.View.headerLen frame.datagram) = _
    rw [hdatagram]
    exact drop_slice frame Ethernet.headerLen _ _
  · have hlength : frame.payload.length = frame.length - Ethernet.headerLen := List.length_drop
    omega

/-- The payload of a user datagram is where the first octets tell, as far as they reach. -/
theorem userPayload_eq_slice {header : Udp.Header}
    (found : frame.packet = slice frame offset ip.payloadLen)
    (parsed : Udp.Header.parse ((frame.take room).drop offset) ip .ignored = .ok header) :
    frame.userPayload = slice frame (offset + Udp.headerLen) header.payloadLen ∧
      Udp.headerLen + header.payloadLen ≤ ip.payloadLen ∧
      ∃ k, (Udp.View.payload ((frame.take room).drop offset)).take header.payloadLen =
        slice frame (offset + Udp.headerLen) k := by
  rw [drop_take_eq_slice] at parsed ⊢
  obtain ⟨hcheck, hbound, -, -, rfl⟩ := Udp.Header.parse_eq_ok parsed
  obtain ⟨hthere, hlong⟩ := Udp.View.check_eq_ok hcheck
  rw [length_slice] at hthere
  dsimp only
  unfold Udp.headerLen at hthere hlong ⊢
  -- Both the first octets and the whole packet have the field.
  have hnear : Udp.View.lenField (slice frame offset (room - offset)) = wordAt frame (offset + 4) :=
    wordAt_slice (by omega)
  rw [hnear] at hlong hbound ⊢
  have hwhole : Udp.View.lenField (slice frame offset ip.payloadLen) = wordAt frame (offset + 4) :=
    wordAt_slice (by omega)
  have hpayload (m : Nat)
      (h : Udp.View.lenField (slice frame offset m) = wordAt frame (offset + 4)) :
      Udp.View.payload (slice frame offset m) =
        slice frame (offset + 8) (min (wordAt frame (offset + 4)).toNat m - 8) := by
    unfold Udp.View.payload
    rw [h, take_slice, drop_slice]
    rfl
  refine ⟨?_, by omega, ?_⟩
  · unfold Ethernet.View.userPayload
    rw [found, hpayload _ hwhole, Nat.min_eq_left hbound]
  · rw [hpayload _ hnear, take_slice]
    exact ⟨_, rfl⟩

/-- The payload of a segment is where the first octets tell, as far as they reach. -/
theorem segmentPayload_eq_slice {s : Tcp.Segment}
    (found : frame.packet = slice frame offset ip.payloadLen)
    (parsed : Tcp.Segment.parse ((frame.take room).drop offset) ip .ignored = .ok s) :
    frame.segmentPayload =
        slice frame (offset + Tcp.View.headerLen ((frame.take room).drop offset)) s.payloadLen ∧
      Tcp.View.headerLen ((frame.take room).drop offset) + s.payloadLen ≤ ip.payloadLen ∧
      ∃ k, (Tcp.View.payload ((frame.take room).drop offset)).take s.payloadLen =
        slice frame (offset + Tcp.View.headerLen ((frame.take room).drop offset)) k := by
  rw [drop_take_eq_slice] at parsed ⊢
  obtain ⟨hthere, hlong, hbound, rfl⟩ := Tcp.Segment.parse_eq_ok parsed
  rw [length_slice] at hthere
  dsimp only
  unfold Tcp.headerLen at hthere hlong
  have hfield (m : Nat) (h : 20 ≤ m) :
      Tcp.View.headerLen (slice frame offset m) =
        (wordAt frame (offset + 12)).toNat / 4096 * 4 := by
    unfold Tcp.View.headerLen
    rw [wordAt_slice (by omega)]
  have hwhole : Tcp.View.headerLen (slice frame offset ip.payloadLen) =
      Tcp.View.headerLen (slice frame offset (room - offset)) := by
    rw [hfield _ (by omega), hfield _ (by omega)]
  refine ⟨?_, by omega, ?_⟩
  · unfold Ethernet.View.segmentPayload
    rw [found]
    unfold Tcp.View.payload
    rw [hwhole, drop_slice]
  · unfold Tcp.View.payload
    rw [drop_slice, take_slice]
    exact ⟨_, rfl⟩

end Found

end NetEngine
