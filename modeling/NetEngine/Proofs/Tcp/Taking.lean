import NetEngine.Proofs.Tcp.SeqNumber
import NetEngine.Tcp.Machine.Receive

/-! # Taking a Segment in Order

    What `Connection.take` does, said without its cases.

    * **Span**: the places that the octets and the FIN of a segment take.
    * **Gain**: how far the last of these places lies behind what has been
      received.  What is new of a segment is counted by it.
    * **Soundness**: no count leaves its range, and what is handed to the
      application is the end of the payload.  It fails for one sort of segment
      only, an empty one that is half a round away. -/

namespace NetEngine.Tcp

/-! ## Span and gain -/

/-- The places that the octets and the FIN of a segment take. -/
def Segment.span (s : Segment) : Nat := s.payloadLen + s.flags.fin.toNat

namespace Connection

/-- How far the last place of a segment lies behind what has been received. -/
def gain (c : Connection) (s : Segment) : Int := (s.seq + s.span - 1).distance c.lastReceived

theorem gain_eq_bmod (c : Connection) (s : Segment) :
    c.gain s = Int.bmod (s.seq.distance c.lastReceived + s.span - 1) (2 ^ 32) := by
  rw [gain, SeqNumber.distance_sub, SeqNumber.distance_add, Int.bmod_sub_bmod]
  rfl

theorem gain_lt (c : Connection) (s : Segment) : c.gain s < 2 ^ 31 := SeqNumber.distance_lt _ _

/-- What becomes of a segment that leaves no gap. -/
def taken (c : Connection) (s : Segment) : Taken where
  conn := { c with lastReceived := c.lastReceived + (c.gain s).toNat }
  count := (c.gain s).toNat - s.flags.fin.toNat
  fin := s.flags.fin && decide (0 < c.gain s)
  ack := s.payloadLen ≠ 0 || s.flags.fin

/-- A segment is taken unless it leaves a gap. -/
theorem take_eq (c : Connection) (s : Segment) :
    c.take s = if 1 < s.seq.distance c.lastReceived then none else some (c.taken s) := by
  have hgain : (s.seq + (s.payloadLen + s.flags.fin.toNat) - 1).distance c.lastReceived
    = c.gain s := rfl
  simp only [take, hgain]
  split
  · rfl
  · by_cases hnew : c.gain s ≤ 0
    · -- Nothing is new, and the gain does not count.
      have hzero : (c.gain s).toNat = 0 := Int.toNat_of_nonpos hnew
      rw [if_pos hnew]
      simp [taken, hzero, Int.not_lt.mpr hnew]
    · -- The last place of the segment is where the gain leads.
      have hpos : 0 < c.gain s := Int.not_le.mp hnew
      have hlast : c.lastReceived + (c.gain s).toNat = s.seq + s.span - 1 :=
        SeqNumber.add_toNat_distance (Int.le_of_lt hpos)
      rw [if_neg hnew]
      simp only [taken, hlast, hpos, decide_true, Bool.and_true]
      rfl

theorem take_eq_some {c : Connection} {s : Segment} {a : Taken} (h : c.take s = some a) :
    s.seq.distance c.lastReceived ≤ 1 ∧ a = c.taken s := by
  rw [take_eq] at h
  split at h
  · cases h
  · exact ⟨Int.not_lt.mp ‹_›, (Option.some.inj h).symm⟩

/-! ## What is new of a segment -/

/-- The FIN is among the places that are new, if there are any. -/
theorem fin_le_gain {c : Connection} {s : Segment} (h : 0 < c.gain s) :
    (s.flags.fin.toNat : Int) ≤ c.gain s := by
  have := Bool.toNat_le s.flags.fin
  omega

/-- The octets and the FIN that are new make up the gain. -/
theorem count_add_fin (c : Connection) (s : Segment) :
    (c.taken s).count + (c.taken s).fin.toNat = (c.gain s).toNat := by
  by_cases hpos : 0 < c.gain s
  · have := fin_le_gain hpos
    simp only [taken, hpos, decide_true, Bool.and_true]
    omega
  · have hzero : (c.gain s).toNat = 0 := Int.toNat_of_nonpos (Int.not_lt.mp hpos)
    simp [taken, hzero, hpos]

/-- What has been received moves forward by the octets and the FIN that are new. -/
theorem taken_conn (c : Connection) (s : Segment) :
    (c.taken s).conn =
      { c with lastReceived := c.lastReceived + ((c.taken s).count + (c.taken s).fin.toNat) } := by
  rw [count_add_fin]
  rfl

/-- Taking changes nothing but what has been received. -/
theorem conn_of_take {c : Connection} {s : Segment} {a : Taken} (h : c.take s = some a) :
    a.conn = { c with lastReceived := a.conn.lastReceived } := by
  obtain ⟨-, rfl⟩ := take_eq_some h
  rw [taken_conn]

/-- A FIN that is new stands in the segment. -/
theorem fin_of_take {c : Connection} {s : Segment} {a : Taken} (h : c.take s = some a)
    (fin : a.fin = true) : s.flags.fin = true := by
  obtain ⟨-, rfl⟩ := take_eq_some h
  simp only [taken, Bool.and_eq_true] at fin
  exact fin.1

/-- A FIN that is new is acknowledged. -/
theorem ack_of_fin {c : Connection} {s : Segment} {a : Taken} (h : c.take s = some a)
    (fin : a.fin = true) : a.ack = true := by
  have hfin := fin_of_take h fin
  obtain ⟨-, rfl⟩ := take_eq_some h
  simp [taken, hfin]

/-- An empty segment that is half a round away from what has been received. -/
def IsHalfRoundAway (c : Connection) (s : Segment) : Prop :=
  s.payloadLen = 0 ∧ s.flags.fin = false ∧ s.seq = c.lastReceived + 2 ^ 31

instance (c : Connection) (s : Segment) : Decidable (c.IsHalfRoundAway s) :=
  inferInstanceAs (Decidable (_ ∧ _ ∧ _))

theorem isHalfRoundAway_iff (c : Connection) (s : Segment) :
    c.IsHalfRoundAway s ↔ s.span = 0 ∧ s.seq.distance c.lastReceived = -2 ^ 31 := by
  have hspan : s.span = 0 ↔ s.payloadLen = 0 ∧ s.flags.fin = false := by
    unfold Segment.span
    cases s.flags.fin <;> simp
  have hseq : s.seq = c.lastReceived + 2 ^ 31 ↔ s.seq.distance c.lastReceived = -2 ^ 31 := by
    -- Half a round forward is half a round back, and is told as the latter.
    have hs := s.seq.toNat_lt
    have hc := c.lastReceived.toNat_lt
    constructor
    · intro h
      rw [h, SeqNumber.distance_add, SeqNumber.distance_self]
      rfl
    · intro h
      apply SeqNumber.eq_of_toNat
      rw [SeqNumber.distance_eq_bmod] at h
      rw [SeqNumber.toNat_add]
      simp only [Int.bmod] at h
      omega
  rw [hspan, ← hseq]
  exact and_assoc.symm

/-- Not more places are new than the segment takes, unless it is empty and half a round away. -/
theorem gain_le_span {c : Connection} {s : Segment} (hd : s.seq.distance c.lastReceived ≤ 1)
    (hfar : ¬ c.IsHalfRoundAway s) : c.gain s ≤ s.span := by
  rw [isHalfRoundAway_iff] at hfar
  have hlo := SeqNumber.le_distance s.seq c.lastReceived
  have hlt := c.gain_lt s
  -- Only at the far end of the distances does one less come out at the near end.
  rw [gain_eq_bmod] at hlt ⊢
  simp only [Int.bmod] at hlt ⊢
  omega

end Connection

/-! ## What is handed to the application -/

/-- What the application gets of a segment: nothing where the engine stops. -/
def Taken.handed (a : Taken) (role : Role) (s : Segment) : Option Delivery :=
  (a.delivery role s).toOption.join

section Handed

variable {a : Taken} {role : Role} {s : Segment} {d : Delivery} {fault : Fault}

theorem Taken.handed_eq {given : Option Delivery} (h : a.delivery role s = .ok given) :
    a.handed role s = given := by
  rw [handed, h]
  rfl

/-- The engine stops if more octets count as new than the payload has. -/
theorem Taken.delivery_eq_error_iff :
    a.delivery role s = .error fault ↔ s.payloadLen < a.count := by
  unfold Taken.delivery
  split
  · simp_all
  · have hunder : takeAway s.payloadLen a.count = .error fault ↔ _ := takeAway_eq_error_iff
    rw [← hunder]
    cases takeAway s.payloadLen a.count <;> simp [bind, Except.bind, pure, Except.pure]

/-- The octets that are handed over are those that count as new, and there are some.  Those in front
of them are the rest of the payload. -/
theorem Taken.delivery_eq_some_iff : a.delivery role s = .ok (some d) ↔ d.role = role ∧
    d.seq = s.seq ∧ d.count = a.count ∧ 0 < d.count ∧ d.skip + d.count = s.payloadLen := by
  obtain ⟨role', seq, count, skip⟩ := d
  unfold Taken.delivery
  split
  · simp_all
  · rename_i hcount
    constructor
    · intro h
      obtain ⟨rest, hrest, hd⟩ := exists_of_bind_eq_ok h
      cases hd
      exact ⟨rfl, rfl, rfl, Nat.pos_of_ne_zero hcount, takeAway_eq_ok_iff.mp hrest⟩
    · rintro ⟨rfl, rfl, rfl, -, hskip⟩
      rw [takeAway_eq_ok_iff.mpr hskip]
      rfl

theorem Taken.delivery_eq_none_iff : a.delivery role s = .ok none ↔ a.count = 0 := by
  unfold Taken.delivery
  split
  · simp_all
  · cases takeAway s.payloadLen a.count <;> simp_all [bind, Except.bind, pure, Except.pure]

theorem Taken.handed_eq_some_iff : a.handed role s = some d ↔ d.role = role ∧
    d.seq = s.seq ∧ d.count = a.count ∧ 0 < d.count ∧ d.skip + d.count = s.payloadLen := by
  rw [← Taken.delivery_eq_some_iff]
  unfold Taken.handed
  cases a.delivery role s <;> simp [Except.toOption]

/-- Where the payload has all octets that count as new, they are handed over. -/
theorem Taken.exists_delivery (a : Taken) (role : Role) (s : Segment)
    (hle : a.count ≤ s.payloadLen) : ∃ given, a.delivery role s = .ok given ∧
      given.elim 0 (·.count) = a.count := by
  cases hgiven : a.delivery role s with
  | error fault => exact absurd (Taken.delivery_eq_error_iff.mp hgiven) (Nat.not_lt.mpr hle)
  | ok given =>
    refine ⟨given, rfl, ?_⟩
    cases given with
    | none => exact (Taken.delivery_eq_none_iff.mp hgiven).symm
    | some d => exact (Taken.delivery_eq_some_iff.mp hgiven).2.2.1

end Handed

namespace Connection

/-- As many octets are new as the payload has, unless the segment is empty and half a round away. -/
theorem count_le {c : Connection} {s : Segment} (hd : s.seq.distance c.lastReceived ≤ 1)
    (hfar : ¬ c.IsHalfRoundAway s) : (c.taken s).count ≤ s.payloadLen := by
  have hle := gain_le_span hd hfar
  simp only [taken]
  unfold Segment.span at hle
  omega

/-! ## Soundness -/

/-- A segment is taken soundly: no count leaves its range, the application gets the end of the
payload, and what has been received moves forward by what is new and by nothing else. -/
structure TakesSoundly (c : Connection) (s : Segment) : Prop where
  /-- The sum of the payload and the FIN fits a word. -/
  span_fits : s.span < 2 ^ 64
  /-- The FIN can be taken off the places that are new. -/
  fin_le : 0 < c.gain s → (s.flags.fin.toNat : Int) ≤ c.gain s
  /-- The octets that are new can be taken off the payload, so that the engine does not stop. -/
  goes_on : ∀ a role, c.take s = some a → ∃ given, a.delivery role s = .ok given
  /-- The application gets the last octets of the payload, and at least one. -/
  delivery : ∀ a role d, c.take s = some a → a.delivery role s = .ok (some d) →
    0 < d.count ∧ d.count ≤ s.payloadLen ∧ d.skip + d.count = s.payloadLen
  /-- What has been received moves forward by the octets handed over, and by a FIN that is new. -/
  advance : ∀ a role given, c.take s = some a → a.delivery role s = .ok given → a.conn = { c with
    lastReceived := c.lastReceived + (given.elim 0 (·.count) + a.fin.toNat) }
  /-- Nothing happens if no place of the segment is new. -/
  idle : (∀ i < s.span, (s.seq + i).distance c.lastReceived ≤ 0) →
    ∀ a role, c.take s = some a → a.conn = c ∧ a.fin = false ∧ a.delivery role s = .ok none

/-- The gain is that of the last place, so that some place is new if there is a gain. -/
theorem exists_new_of_gain {c : Connection} {s : Segment} (hspan : 0 < s.span)
    (hpos : 0 < c.gain s) : ∃ i < s.span, 0 < (s.seq + i).distance c.lastReceived := by
  refine ⟨s.span - 1, by omega, ?_⟩
  rw [← SeqNumber.add_sub_of_le s.seq hspan]
  exact hpos

theorem gain_nonpos_of_empty {c : Connection} {s : Segment} (hspan : s.span = 0)
    (hd : s.seq.distance c.lastReceived ≤ 1) (hfar : ¬ c.IsHalfRoundAway s) : c.gain s ≤ 0 := by
  have := gain_le_span hd hfar
  omega

/-- No gain, no change. -/
theorem taken_of_gain_nonpos {c : Connection} {s : Segment} (h : c.gain s ≤ 0) (role : Role) :
    (c.taken s).conn = c ∧ (c.taken s).fin = false ∧
      (c.taken s).delivery role s = .ok none := by
  have hzero : (c.gain s).toNat = 0 := Int.toNat_of_nonpos h
  simp [taken, Taken.delivery, hzero, Int.not_lt.mpr h]

/-- Taking is sound for every segment that is not empty and half a round away. -/
theorem takesSoundly_of_not_far {c : Connection} {s : Segment} (hfit : s.span < 2 ^ 64)
    (hfar : ¬ c.IsHalfRoundAway s) : c.TakesSoundly s where
  span_fits := hfit
  fin_le := fin_le_gain
  goes_on := by
    intro a role h
    obtain ⟨hd, rfl⟩ := take_eq_some h
    obtain ⟨given, hgiven, -⟩ := Taken.exists_delivery _ role s (count_le hd hfar)
    exact ⟨given, hgiven⟩
  delivery := by
    intro a role d h hgiven
    obtain ⟨-, -, -, hpos, hskip⟩ := Taken.delivery_eq_some_iff.mp hgiven
    exact ⟨hpos, by omega, hskip⟩
  advance := by
    intro a role given h hgiven
    obtain ⟨hd, rfl⟩ := take_eq_some h
    obtain ⟨given', hgiven', hcount⟩ := Taken.exists_delivery _ role s (count_le hd hfar)
    rw [hgiven, Except.ok.injEq] at hgiven'
    subst hgiven'
    rw [hcount]
    exact taken_conn c s
  idle := by
    intro hold a role h
    obtain ⟨hd, rfl⟩ := take_eq_some h
    apply taken_of_gain_nonpos
    rcases Nat.eq_zero_or_pos s.span with hspan | hspan
    · exact gain_nonpos_of_empty hspan hd hfar
    · -- The last place would be new.
      apply Int.not_lt.mp
      intro hpos
      obtain ⟨i, hi, hnew⟩ := exists_new_of_gain hspan hpos
      exact absurd (hold i hi) (Int.not_le.mpr hnew)

/-- An empty segment half a round away counts as one that is all new. -/
theorem gain_of_halfRoundAway {c : Connection} {s : Segment} (h : c.IsHalfRoundAway s) :
    s.seq.distance c.lastReceived ≤ 1 ∧ c.gain s = 2 ^ 31 - 1 := by
  obtain ⟨hspan, hd⟩ := (isHalfRoundAway_iff c s).mp h
  rw [gain_eq_bmod, hd, hspan]
  exact ⟨by decide, by decide⟩

/-- **The engine stops exactly at an empty segment that is half a round away**, if it takes it. -/
theorem delivery_eq_error_iff {c : Connection} {s : Segment} {a : Taken} {role : Role}
    (h : c.take s = some a) : a.delivery role s = .error .underflow ↔ c.IsHalfRoundAway s := by
  obtain ⟨hd, rfl⟩ := take_eq_some h
  rw [Taken.delivery_eq_error_iff]
  constructor
  · intro hless
    by_contra hfar
    exact absurd (count_le hd hfar) (Nat.not_le.mpr hless)
  · intro hfar
    simp only [taken, (gain_of_halfRoundAway hfar).2, hfar.1, hfar.2.1]
    decide

theorem not_takesSoundly_of_far {c : Connection} {s : Segment} (h : c.IsHalfRoundAway s) :
    ¬ c.TakesSoundly s := by
  intro hsound
  have htake : c.take s = some (c.taken s) := by
    rw [take_eq, if_neg (Int.not_lt.mpr (gain_of_halfRoundAway h).1)]
  obtain ⟨given, hgiven⟩ := hsound.goes_on _ .client htake
  rw [(delivery_eq_error_iff htake).mpr h] at hgiven
  cases hgiven

/-- **Taking is sound** exactly for the segments that fit a word and are not empty and half a round
away from what has been received. -/
theorem takesSoundly_iff (c : Connection) (s : Segment) :
    c.TakesSoundly s ↔ s.span < 2 ^ 64 ∧ ¬ c.IsHalfRoundAway s :=
  ⟨fun h => ⟨h.span_fits, fun hfar => not_takesSoundly_of_far hfar h⟩,
    fun h => takesSoundly_of_not_far h.1 h.2⟩

/-- An empty segment half a round away has moved what has been received by nearly half a round when
the engine stops at it. -/
theorem not_takesSoundly_empty_far :
    let last : SeqNumber := ⟨100⟩
    let c := { Connection.fresh 0 with state := .established, lastReceived := last }
    let s : Segment := ⟨40000, 80, last + 2 ^ 31, ⟨1⟩, .ACK, 1024, none, 0⟩
    ¬ c.TakesSoundly s ∧
      (c.take s).map (·.conn.lastReceived) = some (last + (2 ^ 31 - 1)) ∧
      (c.take s).map (·.delivery .server s) = some (.error .underflow) :=
  ⟨not_takesSoundly_of_far (by decide), by decide, by decide⟩

end Connection

end NetEngine.Tcp
