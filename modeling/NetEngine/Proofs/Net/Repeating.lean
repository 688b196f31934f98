import NetEngine.Proofs.Net.Segments
import NetEngine.Proofs.Tcp.Resending

/-! # Resent Segments Repeat the Original

    A segment that is resent goes out in another frame, long after the original
    and on a connection that has moved on.

    * **Repeats**: it goes between the same hosts and ports, with the same number,
      the same control bits and the same payload.  A copy has the same octets; what
      is built again speaks for the connection as it is now, in its acknowledgment
      and nothing else.
    * **Reliable**: a source gives the same octets each time it is asked. -/

namespace NetEngine

open Tcp (Connection Kept Machine NewlyPending Operation Original Outgoing Pending Policy Role SameRoute
  Segment Side SeqNumber)
open Offload (Carried carried? sealed)

/-- The segment `again` repeats the segment `first`, of which `kept` has been kept, on the connection
`c`. -/
structure Repeats (c : Connection) (kept : Kept) (first again : Carried) : Prop where
  dst : again.dst = first.dst
  /-- Ports, number, control bits, window and option are the same. -/
  fields : Tcp.View.segment again.octets =
    { Tcp.View.segment first.octets with
      ackNumber := (Tcp.View.segment again.octets).ackNumber }
  payload : Tcp.View.payload again.octets = Tcp.View.payload first.octets
  /-- A copy is sent octet for octet, and our address being the same has the same sum. -/
  copied : (∃ octets, kept = .copy octets) → again.src = first.src → again.octets = first.octets
  /-- What is built again has the acknowledgment of today, and a sum that fits it. -/
  rebuilt : (¬ ∃ octets, kept = .copy octets) →
    ∃ sum, again.octets = overwriteAt (overwriteAt first.octets 8
      (ofLong (if (Tcp.View.segment first.octets).flags.ack then c.lastReceived + 1
        else ⟨0⟩ : SeqNumber).val)) 16 (ofWord sum)

/-- The source of a segment, if it has one, gives the same octets each time. -/
def Reliable (o : Outgoing) : Prop := ∀ b, o.body = some b → ∃ content, b.source.Holds content

namespace Repeats

variable {c c' : Connection} {z : Pending} {o : Outgoing}

/-- A segment that is built again on the same route. -/
theorem of_rebuilt (own own' : Ipv4Address) (route : SameRoute c c') {kept : Kept}
    (built : ¬ ∃ octets, kept = .copy octets) (seq : SeqNumber) {flags : Tcp.Flags}
    (fit : flags.bits.toNat < 512) {len : Nat} {payload : Bytes} (length : payload.length = len) :
    Repeats c' kept
      ⟨own, c.remoteAddr, sealed own c.remoteAddr ((c.segment seq flags len).encode ++ payload)⟩
      ⟨own', c'.remoteAddr, sealed own' c'.remoteAddr
        ((c'.segment seq flags len).encode ++ payload)⟩ := by
  let s := c.segment seq flags len
  let s' := c'.segment seq flags len
  have hs' : s' = { s with
      ackNumber := if flags.ack then c'.lastReceived + 1 else ⟨0⟩ } := route.segment_eq seq flags len
  obtain ⟨sum, hfirst⟩ := Offload.exists_sealed own c.remoteAddr s payload
  obtain ⟨sum', hagain⟩ := Offload.exists_sealed own' c'.remoteAddr s' payload
  have hsegment : Tcp.View.segment (s.encodeSummed sum ++ payload) = s :=
    Segment.segment_encodeSummed fit sum length
  have hsegment' : Tcp.View.segment (s'.encodeSummed sum' ++ payload) = s' :=
    Segment.segment_encodeSummed (s := s') fit sum' length
  refine ⟨route.remoteAddr, ?_, ?_, fun hcopy => absurd hcopy built, fun _ => ⟨sum', ?_⟩⟩
  · dsimp only
    rw [hfirst, hagain, hsegment, hsegment', hs']
  · dsimp only
    rw [hfirst, hagain, Segment.payload_encodeSummed, Segment.payload_encodeSummed]
  · dsimp only
    rw [hfirst, hagain, hsegment, hs']
    exact Segment.encodeSummed_withAck s _ sum sum' payload

/-- A segment of which a copy is sent. -/
theorem of_copied (own own' dst : Ipv4Address) {kept : Kept}
    (copied : ∃ octets, kept = .copy octets) {s : Segment} (fit : s.flags.bits.toNat < 512)
    {payload : Bytes} (length : payload.length = s.payloadLen) :
    Repeats c kept ⟨own, dst, sealed own dst (s.encode ++ payload)⟩
      ⟨own', dst, sealed own' dst (s.encode ++ payload)⟩ := by
  obtain ⟨sum, hfirst⟩ := Offload.exists_sealed own dst s payload
  obtain ⟨sum', hagain⟩ := Offload.exists_sealed own' dst s payload
  refine ⟨rfl, ?_, ?_, ?_, fun hbuilt => absurd copied hbuilt⟩
  · dsimp only
    rw [hfirst, hagain, Segment.segment_encodeSummed fit sum length,
      Segment.segment_encodeSummed fit sum' length]
  · dsimp only
    rw [hfirst, hagain, Segment.payload_encodeSummed, Segment.payload_encodeSummed]
  · rintro - rfl
    rfl

theorem kept_control (seq : SeqNumber) (flags : Tcp.Flags) :
    ¬ ∃ octets, Kept.control seq flags = .copy octets := by
  rintro ⟨octets, h⟩
  cases h

theorem kept_generated (g : Supplier) (offset : Nat) (seq : SeqNumber) (len : Nat) :
    ¬ ∃ octets, Kept.generated g offset seq len = .copy octets := by
  rintro ⟨octets, h⟩
  cases h

/-- **What is kept of a segment repeats it**, on every connection with the same route. -/
theorem of_original {octets octets' : Bytes} (own own' : Ipv4Address)
    (original : Original c z o) (route : SameRoute c c') (reliable : Reliable o)
    (first : o.octets? = some octets)
    (again : (Machine.rebuild c' z.kept).octets? = some octets') :
    Repeats c' z.kept ⟨own, o.dst, sealed own o.dst octets⟩
      ⟨own', (Machine.rebuild c' z.kept).dst,
        sealed own' (Machine.rebuild c' z.kept).dst octets'⟩ := by
  cases original with
  | control seq flags fit =>
    -- Both are headers alone.
    obtain rfl : (c.segment seq flags 0).encode = octets :=
      Option.some.inj ((Outgoing.octets?_bare rfl).symm.trans first)
    obtain rfl : (c'.segment seq flags 0).encode = octets' :=
      Option.some.inj ((Outgoing.octets?_bare rfl).symm.trans again)
    have hrepeats := of_rebuilt own own' route (kept_control seq flags) seq fit List.length_nil
    rw [List.append_nil, List.append_nil] at hrepeats
    exact hrepeats
  | data source offset seq len =>
    obtain ⟨content, holds⟩ := reliable _ rfl
    obtain ⟨hreach, rfl⟩ := (Outgoing.octets?_sourced holds).mp first
    have hpayload : (slice content offset len).length = len := by
      change len = 0 ∨ offset + len ≤ content.length at hreach
      rw [length_slice]
      omega
    have hfit : Tcp.Flags.ACK.bits.toNat < 512 := by decide
    cases source with
    | generator g =>
      change Outgoing.octets? (.fresh c'.remoteAddr (c'.segment seq .ACK len) (some ⟨g, offset⟩)) =
        some octets' at again
      obtain ⟨-, rfl⟩ := (Outgoing.octets?_sourced holds).mp again
      exact of_rebuilt own own' route (kept_generated g offset seq len) seq hfit hpayload
    | lent d =>
      -- The copy that has been taken is what the link has pulled.
      have hkept : readInto (List.replicate len 0) (d.supply offset len).bytes =
          slice content offset len := by
        have hsupply : d.supply offset len = ⟨slice content offset len, content.length⟩ :=
          holds offset len
        rw [hsupply]
        unfold readInto overwrite
        rw [hpayload, List.drop_of_length_le (by simp), List.append_nil]
      obtain rfl : (c.segment seq .ACK len).encode ++
          readInto (List.replicate len 0) (d.supply offset len).bytes = octets' :=
        Option.some.inj ((Outgoing.octets?_copy _ _).symm.trans again)
      show Repeats c' _ _ ⟨own', c'.remoteAddr, sealed own' c'.remoteAddr _⟩
      rw [hkept, route.remoteAddr]
      exact of_copied own own' c.remoteAddr ⟨_, rfl⟩ hfit hpayload

end Repeats

namespace Tcp.Machine

/-! ## Runs -/

/-- Whatever goes out for a slot that holds `z` for the role repeats what goes out for the segment
`o`, whoever has to be asked for the address of the peer before. -/
def ResendsFaithfully (now : Machine) (role : Role) (z : Pending) (o : Outgoing) : Prop :=
  ∀ i t again, now.pool.get? i = some t → t.role = role → t.pending = z →
    now.resentFrom i = some again →
    ∀ (net net' : Net Loopback) (frame frame' : Bytes), Reliable o →
      net.frameFor? o = some frame → net'.frameFor? again = some frame' →
      ∃ x y, carried? frame = some x ∧ carried? frame' = some y ∧
        Repeats (now.conn role) z.kept x y

theorem resendsFaithfully_of_original {now : Machine} {role : Role} {z : Pending} {o : Outgoing}
    {c : Connection} (original : Original c z o) (route : SameRoute c (now.conn role)) :
    now.ResendsFaithfully role z o := by
  rintro i t again slot rfl rfl out net net' frame frame' reliable hfirst hagain
  obtain rfl := resentFrom_eq slot out
  obtain ⟨octets, hoctets, hcarried⟩ := Net.carried?_of_frameFor? hfirst
  obtain ⟨octets', hoctets', hcarried'⟩ := Net.carried?_of_frameFor? hagain
  exact ⟨_, _, hcarried, hcarried', .of_original _ _ original route reliable hoctets hoctets'⟩

/-- **Resends are faithful**: what an operation tracks for a role it has sent, and as long as it stays
pending, whatever happens meanwhile, that segment is repeated when it is resent. -/
theorem resendsFaithfully_of_tracked (policy : Policy) (seed : UInt32) (before : List Operation)
    (op : Operation) (role : Role) (z : Pending) :
    let m := (fresh policy seed).run before
    NewlyPending z (m.pool.pendingOf role) ((m.after op).pool.pendingOf role) →
    ∃ c o, Original c z o ∧ o ∈ m.sentBy role op ∧
      ∀ later, (∀ done, done <+: later → z ∈ ((m.after op).run done).pool.pendingOf role) →
        ((m.after op).run later).ResendsFaithfully role z o := by
  intro m tracked
  obtain ⟨c, o, hroute, horiginal, hsent⟩ := original_of_after op tracked
  have hagrees : Side.Agrees role ((m.after op).side role) :=
    agrees_after (agrees_run policy seed before role) op
  refine ⟨c, o, horiginal, hsent, fun later pending => ?_⟩
  exact resendsFaithfully_of_original horiginal
    (hroute.trans (sameRoute_of_pending hagrees pending))

/-- The SYN of a client, which is due after a second. -/
theorem resendsFaithfully_syn :
    let m := fresh ⟨80, 3, 1, 5, true⟩ 1
    let seq := m.client.lastSent + 1
    let z : Pending := .of seq 1 (.control seq .SYN)
    let op : Operation := .connect .client 4000 80 .unspecified true
    ((m.after op).run [.tick]).resentFrom 0 ≠ none ∧
      ∃ c o, Original c z o ∧ o ∈ m.sentBy .client op ∧
        ((m.after op).run [.tick]).ResendsFaithfully .client z o := by
  intro m seq z op
  have hmem : z ∈ (m.after op).pool.pendingOf .client :=
    Tcp.Pool.mem_pendingOf.mpr ⟨_, List.mem_cons_self, rfl, rfl⟩
  have hnew : NewlyPending z (m.pool.pendingOf .client) ((m.after op).pool.pendingOf .client) := by
    have hnone : m.pool.pendingOf .client = 0 := Tcp.Pool.pendingOf_empty .client
    rw [hnone]
    exact .of_mem (Multiset.notMem_zero z) hmem
  obtain ⟨c, o, horiginal, hsent, hlater⟩ :=
    resendsFaithfully_of_tracked ⟨80, 3, 1, 5, true⟩ 1 [] op .client z hnew
  refine ⟨by decide, c, o, horiginal, hsent, hlater [.tick] fun done hdone => ?_⟩
  -- A second does not change what is pending.
  have htick : ((m.after op).after .tick).pool.pendingOf .client =
      (m.after op).pool.pendingOf .client := Tcp.Pool.pendingOf_tick
  rcases List.prefix_concat_iff.mp (show done <+: [] ++ [Operation.tick] from hdone) with
    rfl | hnil
  · show z ∈ ((m.after op).after .tick).pool.pendingOf .client
    rw [htick]
    exact hmem
  · rw [List.prefix_nil.mp hnil]
    exact hmem

end Tcp.Machine

end NetEngine
