import NetEngine.Payload
import NetEngine.Proofs.Bounds.Guarded
import NetEngine.Proofs.Link.Residency
import NetEngine.Tcp.Machine.Receive

/-! # Transport Packets Are Read Inside

    The lengths that a transport packet tells are compared with the datagram that
    carries it, not with the octets at hand: these are what there is of it.

    * **User datagrams**: what is at hand of the payload ends with the shorter one.
    * **Options**: the search ends where an option does not fit the header.
    * **Segments**: the header is there as a whole.
    * **Payloads**: what is at hand is read from the octets, and only the rest from
      the link. -/

namespace NetEngine

open Guarded

/-- Of a part that is cut at a length, no more is there than octets. -/
theorem slice_min_sub (b : Bytes) (i n : Nat) :
    slice b i (min n b.length - i) = (b.take n).drop i := by
  rw [drop_take_eq_slice]
  unfold slice
  rw [List.take_eq_take_iff, List.length_drop]
  omega

/-! ## User datagrams -/

namespace Udp.View

def lenField? (p : View) : Guarded UInt16 := field? p 4 2 wordAt

/-- Is the header there, and is its length possible? -/
def check? (p : View) : Guarded Unit :=
  if p.length < headerLen then throw .truncated
  else do
    let len ← p.lenField?
    if len.toNat < headerLen then throw .malformed else return ()

/-- Does the checksum add up, or is there none? -/
def verifyChecksum? (p : View) (src dst : Ipv4Address) : Guarded Bool := do
  let checksum ← field? p 6 2 wordAt
  if checksum = 0 then return true
  else do
    let len ← p.lenField?
    match leading? p len.toNat with
    | none => throw .truncated
    | some covered => return p.sum src dst covered = 0xffff

/-- The payload, as far as it is at hand. -/
def payload? (p : View) : Guarded Bytes := do
  let len ← p.lenField?
  between? p headerLen (min len.toNat p.length)

variable {p : View}

theorem lenField?_of_long (long : headerLen ≤ p.length) : p.lenField? = pure p.lenField := by
  unfold headerLen at long
  unfold lenField?
  rw [field?_of_le (by omega)]
  rfl

theorem check?_eq (p : View) : p.check? = of p.check := by
  unfold check? check
  rw [of_ite]
  by_cases hshort : p.length < headerLen
  · rw [if_pos hshort, if_pos hshort]
    rfl
  · rw [if_neg hshort, if_neg hshort, lenField?_of_long (Nat.not_lt.mp hshort), pure_bind, of_ite]
    rfl

theorem verifyChecksum?_of_long (long : headerLen ≤ p.length) (src dst : Ipv4Address) :
    p.verifyChecksum? src dst = of (p.verifyChecksum src dst) := by
  have hlen := lenField?_of_long long
  unfold headerLen at long
  unfold verifyChecksum? verifyChecksum
  rw [field?_of_le (by omega), pure_bind, hlen, pure_bind, of_ite]
  unfold checksum
  by_cases hnone : wordAt p 6 = 0
  · rw [if_pos hnone, if_pos hnone]
    rfl
  · rw [if_neg hnone, if_neg hnone]
    cases leading? p p.lenField.toNat <;> rfl

theorem payload?_of_checked (checked : p.check = .ok ()) : p.payload? = pure p.payload := by
  obtain ⟨hlong, hlen⟩ := check_eq_ok checked
  unfold payload?
  rw [lenField?_of_long hlong, pure_bind, between?_of_le (by omega) (by omega), slice_min_sub]
  rfl

end Udp.View

namespace Udp.Header

/-- Read the header of a user datagram carried by `ip`. -/
def parse? (p : View) (ip : Ipv4.Header) (mode : Checksum.Mode) : Guarded Header := do
  p.check?
  let len ← p.lenField?
  if len.toNat > ip.payloadLen then throw .truncated
  else do
    let dstPort ← field? p 2 2 wordAt
    if dstPort = 0 then throw .malformed
    else do
      let intact ← if mode = .manual then p.verifyChecksum? ip.src ip.dst else pure true
      if ¬ intact then throw .wrongChecksum
      else do
        let srcPort ← field? p 0 2 wordAt
        let payloadLen ← minus? len.toNat headerLen
        return ⟨srcPort, dstPort, payloadLen⟩

theorem parse?_eq (p : View) (ip : Ipv4.Header) (mode : Checksum.Mode) :
    parse? p ip mode = of (parse p ip mode) := by
  unfold parse? parse
  rw [View.check?_eq]
  apply of_bind_congr
  intro _ hcheck
  obtain ⟨hlong, hlen⟩ := View.check_eq_ok hcheck
  have hthere : 8 ≤ p.length := hlong
  simp (disch := omega) only [View.lenField?_of_long hlong, View.verifyChecksum?_of_long hlong,
    field?_of_le, minus?_of_le, pure_bind, of_ite, of_bind]
  cases mode <;> rfl

end Udp.Header

/-! ## Options -/

namespace Tcp

/-- The value of the first segment size option, as far as the options can be read. -/
def mssOption? : Bytes → Guarded (Option UInt16)
  | [] => return none
  | kind :: rest =>
    if kind = 0 then return none
    else if kind = 1 then mssOption? rest
    else match rest.head? with
      | none => return none
      | some len =>
        if _h : len.toNat < 2 ∨ rest.length + 1 < len.toNat then return none
        else if kind = 2 ∧ len.toNat = mssOptionLen then do
          let size ← field? (kind :: rest) 2 2 wordAt
          return some size
        else do
          require (len.toNat ≤ rest.length + 1)
          mssOption? ((kind :: rest).drop len.toNat)
  termination_by options => options.length
  decreasing_by all_goals simp only [List.length_drop, List.length_cons]; omega

theorem mssOption?_eq (options : Bytes) : mssOption? options = pure (mssOption options) := by
  -- The induction is on the guarded search, the other one is opened one option at a time.
  rw [mssOption.eq_def]
  fun_induction mssOption? options with
  | case1 => rfl
  | case2 rest => rfl
  | case3 rest hend ih =>
    rw [← mssOption.eq_def] at ih
    dsimp only
    rw [if_neg hend, if_pos rfl]
    exact ih
  | case4 kind rest hend hpad hlast =>
    rw [List.head?_eq_none_iff] at hlast
    subst hlast
    dsimp only
    rw [if_neg hend, if_neg hpad]
  | case5 kind rest hend hpad len hlen hbad =>
    obtain ⟨body, rfl⟩ := List.head?_eq_some_iff.mp hlen
    replace hbad : len.toNat < 2 ∨ body.length + 2 < len.toNat := hbad
    dsimp only
    rw [if_neg hend, if_neg hpad, if_pos hbad]
  | case6 kind rest hend hpad len hlen hfits hsize =>
    obtain ⟨body, rfl⟩ := List.head?_eq_some_iff.mp hlen
    replace hfits : ¬ (len.toNat < 2 ∨ body.length + 2 < len.toNat) := hfits
    have hthere : 2 + 2 ≤ (kind :: len :: body).length := by
      unfold mssOptionLen at hsize
      simp only [List.length_cons]
      omega
    rw [field?_of_le hthere, pure_bind]
    dsimp only
    rw [if_neg hend, if_neg hpad, if_neg hfits, if_pos hsize]
    rfl
  | case7 kind rest hend hpad len hlen hfits hother ih =>
    obtain ⟨body, rfl⟩ := List.head?_eq_some_iff.mp hlen
    replace hfits : ¬ (len.toNat < 2 ∨ body.length + 2 < len.toNat) := hfits
    -- The option fits, so that dropping its length does not go past the end.
    have hrest : (kind :: len :: body).drop len.toNat = body.drop (len.toNat - 2) := by
      obtain ⟨n, hn⟩ : ∃ n, len.toNat = n + 2 := ⟨len.toNat - 2, by omega⟩
      rw [hn]
      rfl
    rw [← mssOption.eq_def] at ih
    rw [require_eq_pure_iff.mpr (by simp only [List.length_cons]; omega), pure_bind, ih, hrest]
    dsimp only
    rw [if_neg hend, if_neg hpad, if_neg hfits, if_neg hother]

/-! ## Segments -/

namespace View

def headerLen? (p : View) : Guarded Nat := do
  let word ← field? p 12 2 wordAt
  return word.toNat / 4096 * 4

/-- Is the header there as a whole? -/
def check? (p : View) : Guarded Unit :=
  if p.length < Tcp.headerLen then throw .truncated
  else do
    let headerLen ← p.headerLen?
    if headerLen < Tcp.headerLen then throw .malformed
    else if p.length < headerLen then throw .truncated
    else return ()

/-- The segment size that the sender is willing to receive, if it says so. -/
def mss? (p : View) : Guarded (Option UInt16) := do
  let headerLen ← p.headerLen?
  let options ← between? p Tcp.headerLen headerLen
  mssOption? options

/-- What follows the header, as far as it is at hand. -/
def payload? (p : View) : Guarded Bytes := do
  let headerLen ← p.headerLen?
  from? p headerLen

variable {p : View}

theorem headerLen?_of_long (long : Tcp.headerLen ≤ p.length) :
    p.headerLen? = pure p.headerLen := by
  unfold Tcp.headerLen at long
  unfold headerLen?
  rw [field?_of_le (by omega), pure_bind]
  rfl

theorem check?_eq (p : View) : p.check? = of p.check := by
  unfold check? check
  rw [of_ite]
  by_cases hshort : p.length < Tcp.headerLen
  · rw [if_pos hshort, if_pos hshort]
    rfl
  · rw [if_neg hshort, if_neg hshort, headerLen?_of_long (Nat.not_lt.mp hshort)]
    simp only [pure_bind, of_ite]
    rfl

theorem check_eq_ok (checked : p.check = .ok ()) :
    Tcp.headerLen ≤ p.headerLen ∧ p.headerLen ≤ p.length := by
  unfold check at checked
  repeat' split at checked
  all_goals first | omega | cases checked

theorem mss?_of_checked (checked : p.check = .ok ()) : p.mss? = pure p.mss := by
  obtain ⟨hlong, hthere⟩ := check_eq_ok checked
  have hoptions : slice p Tcp.headerLen (p.headerLen - Tcp.headerLen) = p.options :=
    (drop_take_eq_slice _ _ _).symm
  unfold mss?
  rw [headerLen?_of_long (by omega), pure_bind, between?_of_le hlong hthere, pure_bind, hoptions,
    mssOption?_eq]
  rfl

theorem payload?_of_checked (checked : p.check = .ok ()) : p.payload? = pure p.payload := by
  obtain ⟨hlong, hthere⟩ := check_eq_ok checked
  unfold payload?
  rw [headerLen?_of_long (by omega), pure_bind, from?_of_le hthere]
  rfl

end View

/-- Read the header of a segment carried by `ip`. -/
def Segment.parse? (p : View) (ip : Ipv4.Header) (mode : Checksum.Mode) : Guarded Segment := do
  p.check?
  let headerLen ← p.headerLen?
  if headerLen > ip.payloadLen then throw .truncated
  else do
    let srcPort ← field? p 0 2 wordAt
    let dstPort ← field? p 2 2 wordAt
    if srcPort = 0 ∨ dstPort = 0 then throw .malformed
    else do
      let intact ← if mode = .manual then of (p.verifyChecksum ip.src ip.dst ip.payloadLen)
        else pure true
      if ¬ intact then throw .wrongChecksum
      else do
        let seq ← field? p 4 4 longAt
        let ackNumber ← field? p 8 4 longAt
        let flags ← field? p 12 2 wordAt
        let window ← field? p 14 2 wordAt
        let mss ← p.mss?
        let payloadLen ← minus? ip.payloadLen headerLen
        return {
          srcPort := srcPort
          dstPort := dstPort
          seq := ⟨seq⟩
          ackNumber := ⟨ackNumber⟩
          flags := ⟨UInt16.ofNat (flags.toNat % 512)⟩
          window := window
          mss := mss
          payloadLen := payloadLen }

theorem Segment.parse?_eq (p : View) (ip : Ipv4.Header) (mode : Checksum.Mode) :
    parse? p ip mode = of (parse p ip mode) := by
  unfold parse? parse
  rw [View.check?_eq]
  apply of_bind_congr
  intro _ hcheck
  obtain ⟨hlong, hthere⟩ := View.check_eq_ok hcheck
  have hfixed : 20 ≤ p.length := Nat.le_trans hlong hthere
  rw [View.headerLen?_of_long hfixed, pure_bind, of_ite]
  by_cases hcarried : p.headerLen > ip.payloadLen
  · rw [if_pos hcarried, if_pos hcarried]
    rfl
  · rw [if_neg hcarried, if_neg hcarried]
    simp (disch := omega) only [field?_of_le, View.mss?_of_checked hcheck, minus?_of_le, pure_bind,
      of_ite, of_bind]
    cases mode <;> rfl

/-- Decode a segment. -/
def Machine.decode? (m : Machine) (p : View) (ip : Ipv4.Header) (c : ChecksumSet) :
    Guarded Segment :=
  if !c.tcp then throw .wrongChecksum
  else do
    let s ← Segment.parse? p ip .ignored
    if m.policy.filterFlags && !s.flags.isPlausible then throw .malformed else return s

theorem Machine.decode?_eq (m : Machine) (p : View) (ip : Ipv4.Header) (c : ChecksumSet) :
    m.decode? p ip c = of (m.decode p ip c) := by
  unfold decode? decode
  rw [of_ite, Segment.parse?_eq]
  congr 1
  apply of_bind_congr
  intro s _
  rw [of_ite]
  rfl

end Tcp

/-! ## Payloads -/

namespace Payload

variable {L : Type}

/-- The payload of `len` octets at `offset`, whose first octets are those of `octets`. -/
def ofResident? (octets : Bytes) (len offset : Nat) (link : L) : Guarded (Payload L) := do
  let resident ← upTo? octets (min octets.length len)
  return ⟨resident, len, offset, link⟩

theorem ofResident?_eq (octets : Bytes) (len offset : Nat) (link : L) :
    ofResident? octets len offset link = pure (ofResident octets len offset link) := by
  have hcut : octets.take (min octets.length len) = octets.take len := by
    rw [List.take_eq_take_iff]
    omega
  unfold ofResident?
  rw [upTo?_of_le (Nat.min_le_left _ _), pure_bind, hcut]
  rfl

/-- Read the payload from `start` on over the octets of `buffer`, as many as fit. -/
def readInto? [Link L] (p : Payload L) (start : Nat) (buffer : Bytes) : Guarded Bytes := do
  let wanted := min buffer.length (p.len - start)
  let resident := if start ≤ p.resident.length then p.resident.drop start else []
  let done := min resident.length wanted
  let near ← upTo? resident done
  let buffer ← write? buffer 0 near
  if done < wanted then do
    -- The link writes into the part that it is offered, and not beyond.
    let room ← between? buffer done wanted
    let far := (Link.readFrom p.link (p.offset + start + done) room.length).take room.length
    write? buffer done far
  else return buffer

/-- What is written behind the octets written first joins them. -/
theorem overwriteAt_overwrite (buffer front back : Bytes) :
    overwriteAt (overwrite buffer front) front.length back = overwrite buffer (front ++ back) := by
  unfold overwriteAt overwrite
  rw [List.take_left, ← List.drop_drop, List.drop_left, List.drop_drop, List.length_append]

/-- What is read stands at the front of the buffer, and the rest of the buffer stays. -/
theorem readInto?_eq [Link L] (p : Payload L) (start : Nat) (buffer : Bytes) :
    p.readInto? start buffer = pure (overwrite buffer
      ((p.readAt start buffer.length).take (min buffer.length (p.len - start)))) := by
  let wanted := min buffer.length (p.len - start)
  let near := slice p.resident start wanted
  have hresident : (if start ≤ p.resident.length then p.resident.drop start else []) =
      p.resident.drop start := by
    by_cases hinside : start ≤ p.resident.length
    · rw [if_pos hinside]
    · rw [if_neg hinside, List.drop_eq_nil_of_le (by omega)]
  have hdone : min (p.resident.drop start).length wanted = near.length := by
    rw [List.length_drop, length_slice]
    omega
  have hnear : (p.resident.drop start).take near.length = near := by
    have hleast : min (min (p.resident.drop start).length wanted) (p.resident.drop start).length =
        min wanted (p.resident.drop start).length := by omega
    rw [← hdone, List.take_eq_take_iff.mpr hleast]
    rfl
  have hfits : near.length ≤ wanted := by omega
  obtain ⟨rest, hrest⟩ : ∃ rest, Link.readFrom p.link (p.offset + start + near.length)
      (wanted - near.length) = rest := ⟨_, rfl⟩
  have hread : p.readAt start buffer.length = near ++ rest := by
    rw [← hrest]
    rfl
  have hwritten : overwriteAt buffer 0 near = overwrite buffer near := by
    simp [overwriteAt, overwrite]
  unfold readInto?
  dsimp only
  rw [hresident, hdone, upTo?_of_le (by omega), pure_bind, hnear, write?_of_le (by omega),
    pure_bind, hwritten, hread]
  by_cases hmore : near.length < wanted
  · -- The link is offered what is left of the buffer, and what it reads fits there.
    have hbuffer : (overwrite buffer near).length = buffer.length := length_overwrite (by omega)
    have hroom : (slice (overwrite buffer near) near.length (wanted - near.length)).length =
        wanted - near.length := by
      rw [length_slice]
      omega
    have htaken : (rest.take (wanted - near.length)).length ≤ wanted - near.length :=
      List.length_take_le _ _
    rw [if_pos hmore, between?_of_le (by omega) (by omega), pure_bind, hroom, hrest,
      write?_of_le (by omega), overwriteAt_overwrite, List.take_append,
      List.take_of_length_le hfits]
  · -- Everything that is wanted was at hand.
    rw [if_neg hmore, List.take_left' (by omega)]

end Payload

end NetEngine
