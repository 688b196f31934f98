import NetEngine.Proofs.Bounds.Filling
import NetEngine.Proofs.Link.Assembling

/-! # Frames Leave Whole or Not at All

    The loopback link puts a frame together, writes the checksums that are asked for,
    and records it.

    * **Guarded**: to send a frame, without any access outside it.
    * **Exact**: whatever a source answers, one frame is recorded or none.  If it has
      the content that it tells of, the frame has its octets, but for the checksums
      that are asked for. -/

namespace NetEngine

namespace Loopback

variable {l : Loopback} {headers frame content : Bytes} {length : Nat} {c : ChecksumSet}
  {body : Option Body}

/-! ## Guarded -/

/-- Send a frame. -/
def transmit? (l : Loopback) (headers : Bytes) (length : Nat) (c : ChecksumSet)
    (body : Option Body) : Guarded (Except NetError Unit × Loopback) :=
  match assemble headers length body with
  | .error err => return (.error err, l)
  | .ok frame => do
    let filled ← Offload.fill? frame c
    return (.ok (), { l with sent := l.sent ++ [filled] })

/-- No access is outside if the checksums that are asked for are not. -/
theorem transmit?_of_within
    (within : ∀ frame, assemble headers length body = .ok frame → Offload.FieldsWithin frame c) :
    l.transmit? headers length c body = pure (l.transmit headers length c body) := by
  unfold transmit? transmit
  cases hframe : assemble headers length body with
  | error err => rfl
  | ok frame =>
    dsimp only
    rw [Offload.fill?_of_within (within frame hframe), pure_bind]

/-! ## Exact -/

theorem transmit_of_ok (assembled : assemble headers length body = .ok frame) :
    l.transmit headers length c body =
      (.ok (), { l with sent := l.sent ++ [Offload.fill frame c] }) := by
  unfold transmit
  rw [assembled]

theorem transmit_of_error {err : NetError} (refused : assemble headers length body = .error err) :
    l.transmit headers length c body = (.error err, l) := by
  unfold transmit
  rw [refused]

theorem transmit_eq_ok_iff : (l.transmit headers length c body).1 = .ok () ↔
    ∃ frame, assemble headers length body = .ok frame := by
  cases hframe : assemble headers length body with
  | error err => simp [transmit_of_error hframe]
  | ok frame => simp [transmit_of_ok hframe]

/-- What can be relied on when a frame is handed in to be sent. -/
structure TransmitsExactly (l : Loopback) (headers : Bytes) (length : Nat) (c : ChecksumSet)
    (body : Option Body) : Prop where
  /-- Whatever comes as an answer, the link has come to an end when it has got as many answers as
  octets are missing, and a source could have given them. -/
  ends : ∀ (answers : List Supplied) (offset : Nat), length - headers.length ≤ answers.length →
    ∃ source, pullWith answers .blank offset (length - headers.length) =
      some (pull source offset (length - headers.length))
  /-- A source is asked no more often than octets are missing, and its answers come to what is
  pulled. -/
  asks : ∀ a, body = some a →
    (answersOf a.source a.offset (length - headers.length)).length ≤ length - headers.length ∧
      pullWith (answersOf a.source a.offset (length - headers.length)) .blank a.offset
        (length - headers.length) = some (pull a.source a.offset (length - headers.length))
  /-- No access is outside, if the packet reaches over the checksum that is asked for. -/
  inside : (∀ frame, assemble headers length body = .ok frame → Offload.FieldsWithin frame c) →
    l.transmit? headers length c body = pure (l.transmit headers length c body)
  /-- What is refused leaves the link as it is. -/
  refused : ∀ err, (l.transmit headers length c body).1 = .error err →
    (l.transmit headers length c body).2 = l
  /-- What is sent is one frame of the length that was told. -/
  sends : (l.transmit headers length c body).1 = .ok () →
    ∃ frame, (l.transmit headers length c body).2 = { l with sent := l.sent ++ [frame] } ∧
      frame.length = length
  /-- Of a source with a fixed content a frame comes exactly if the content reaches that far. -/
  succeeds : ∀ content, (∀ a, body = some a → a.source.Holds content) →
    ((l.transmit headers length c body).1 = .ok () ↔
      headers.length ≤ length ∧ length ≤ 1514 ∧ (length = headers.length ∨
        ∃ a, body = some a ∧ a.offset + length - headers.length ≤ content.length))
  /-- The frame is the headers and the part of the content that was missing, but for the checksums
  that are asked for. -/
  records : ∀ content, (∀ a, body = some a → a.source.Holds content) →
    ∀ frame, (l.transmit headers length c body).1 = .ok () →
      (l.transmit headers length c body).2 = { l with sent := l.sent ++ [frame] } →
        (intended headers length body content).length = length ∧
          ∀ i, ¬ Offload.AskedIn (intended headers length body content) c i →
            byteAt frame i = byteAt (intended headers length body content) i

/-- **A frame is sent exactly as it was meant, or not at all.** -/
theorem transmits_exactly (l : Loopback) (headers : Bytes) (length : Nat) (c : ChecksumSet)
    (body : Option Body) : TransmitsExactly l headers length c body := by
  constructor
  case ends =>
    intro answers offset enough
    exact ⟨_, pullWith_eq_pullInto_replay answers .blank offset _ enough⟩
  case asks =>
    intro a _
    exact ⟨length_answersOf a.source a.offset _, pullWith_answersOf a.source .blank a.offset _⟩
  case inside => exact transmit?_of_within
  case refused =>
    intro err hrefused
    cases hframe : assemble headers length body with
    | error _ => rw [transmit_of_error hframe]
    | ok frame =>
      rw [transmit_of_ok hframe] at hrefused
      cases hrefused
  case sends =>
    intro hok
    obtain ⟨frame, hframe⟩ := transmit_eq_ok_iff.mp hok
    refine ⟨Offload.fill frame c, ?_, ?_⟩
    · rw [transmit_of_ok hframe]
    · rw [Offload.length_fill, length_of_assemble hframe]
  case succeeds =>
    intro content holds
    rw [transmit_eq_ok_iff]
    simp only [assemble_eq_ok_iff]
    constructor
    · rintro ⟨frame, hshort, hfits, hframe⟩
      exact ⟨hshort, hfits, ((packet?_eq_some_iff holds hshort).mp hframe).1⟩
    · rintro ⟨hshort, hfits, hcovered⟩
      exact ⟨_, hshort, hfits, (packet?_eq_some_iff holds hshort).mpr ⟨hcovered, rfl⟩⟩
  case records =>
    intro content holds sent hok hsent
    obtain ⟨frame, hframe⟩ := transmit_eq_ok_iff.mp hok
    obtain ⟨hshort, -, hpacket⟩ := assemble_eq_ok_iff.mp hframe
    obtain ⟨-, hintended⟩ := (packet?_eq_some_iff holds hshort).mp hpacket
    -- The frame that is recorded last is the one that has been put together.
    obtain rfl : Offload.fill frame c = sent := by
      rw [transmit_of_ok hframe] at hsent
      have hlists : l.sent ++ [Offload.fill frame c] = l.sent ++ [sent] :=
        congrArg Loopback.sent hsent
      exact List.singleton_inj.mp (List.append_cancel_left hlists)
    rw [← hintended]
    exact ⟨length_of_assemble hframe, fun i beside => Offload.byteAt_fill beside⟩

/-- The header of the transport is at hand as a whole. -/
def TransportResident (p : Ipv4.View) : Prop :=
  match p.protocol with
  | .icmp => Icmp.headerLen ≤ p.payload.length
  | .tcp => Tcp.View.check p.payload = .ok ()
  | .udp => Udp.headerLen ≤ p.payload.length
  | .unknown _ => False

/-- A frame whose segment is cut off behind the checksum, two octets before its header ends. -/
def cutSegment : Bytes :=
  [2, 0, 0, 0, 0, 2, 2, 0, 0, 0, 0, 1, 8, 0] ++
    [0x45, 0, 0, 38, 0, 0, 0, 0, 64, 6, 0, 0, 192, 168, 1, 10, 192, 168, 1, 20] ++
    [0, 80, 0, 81, 0, 0, 0, 1, 0, 0, 0, 2, 0x50, 0x10, 4, 0, 0, 0]

/-- A frame whose segment is cut off in front of the checksum. -/
def bareSegment : Bytes :=
  [2, 0, 0, 0, 0, 2, 2, 0, 0, 0, 0, 1, 8, 0] ++
    [0x45, 0, 0, 30, 0, 0, 0, 0, 64, 6, 0, 0, 192, 168, 1, 10, 192, 168, 1, 20] ++
    [0, 80, 0, 81, 0, 0, 0, 1, 0, 0]

/-- **Checksums are written also where the header of the transport is not there**: that of the
datagram, which does not depend on it, and that of the transport as soon as its field is there.
Where the field is not there either, an access lies outside. -/
theorem fills_cut_segment :
    (∃ frame, transmit {} cutSegment cutSegment.length { ipv4 := true, tcp := true } none =
        (.ok (), { sent := [frame] }) ∧
      ¬ ∀ i, ¬ (∃ p j, Offload.datagram? cutSegment = some p ∧ TransportResident p ∧
          Offload.Asked p { ipv4 := true, tcp := true } j ∧ i = Ethernet.headerLen + j) →
        byteAt frame i = byteAt cutSegment i) ∧
    transmit? {} bareSegment bareSegment.length { tcp := true } none = ExceptT.mk none := by
  constructor
  case left =>
    let c : ChecksumSet := { ipv4 := true, tcp := true }
    have hassembled : assemble cutSegment cutSegment.length none = .ok cutSegment := by rfl
    have hfound : Offload.datagram? cutSegment = some (cutSegment.drop 14) := by rfl
    have hcut : ¬ TransportResident (cutSegment.drop 14) := by
      show ¬ (Tcp.View.check (cutSegment.drop 34) = .ok ())
      have hshort : Tcp.View.check (cutSegment.drop 34) = .error .truncated := by rfl
      rw [hshort]
      exact nofun
    refine ⟨Offload.fill cutSegment c, transmit_of_ok hassembled, ?_⟩
    intro unchanged
    have hspared : ¬ ∃ p j, Offload.datagram? cutSegment = some p ∧ TransportResident p ∧
        Offload.Asked p c j ∧ 24 = Ethernet.headerLen + j := by
      rintro ⟨p, j, hp, hresident, -⟩
      rw [hfound] at hp
      cases hp
      exact hcut hresident
    have hwritten : byteAt (Offload.fill cutSegment c) 24 = 0xf7 := by decide +kernel
    have hbefore : byteAt cutSegment 24 = 0 := by rfl
    have h := unchanged 24 hspared
    rw [hwritten, hbefore] at h
    exact absurd h (by decide)
  case right => rfl

end Loopback

end NetEngine
