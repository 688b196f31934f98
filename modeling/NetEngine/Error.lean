/-! # Causes of Failure

    A packet is refused for one of five causes, an operation of the engine for
    one of four.  The two kinds do not mix: where an operation meets a packet
    that it cannot read, the operation is **not permitted**.

    A **fault** is neither.  Nobody refuses anything: the arithmetic is checked,
    and the engine stops where a count does not come out. -/

namespace NetEngine

/-- Why a packet is refused. -/
inductive PacketError where
  /-- The octets end before the header or the length field does. -/
  | truncated
  /-- A checksum does not add up. -/
  | wrongChecksum
  /-- A well-formed packet of a kind that is not spoken here. -/
  | unrecognized
  /-- A field has a value that no packet may have. -/
  | malformed
  /-- A feature of the protocol that is left out, such as fragments. -/
  | unsupported
deriving DecidableEq

/-- The wording of a refused packet. -/
def PacketError.message : PacketError → String
  | .truncated => "truncated packet"
  | .wrongChecksum => "checksum error"
  | .unrecognized => "unrecognized packet"
  | .malformed => "malformed packet"
  | .unsupported => "unsupported feature"

/-- Why an operation fails. -/
inductive NetError where
  /-- The operation makes no sense in the present state. -/
  | illegal
  /-- The octets offered do not fit the frame, or are too few for it. -/
  | badSize
  /-- No hardware address is known for the destination, or none can be. -/
  | unreachable
  /-- A table is full. -/
  | exhausted
deriving DecidableEq

/-- The wording of a failed operation. -/
def NetError.message : NetError → String
  | .illegal => "operation not permitted"
  | .badSize => "payload does not fit"
  | .unreachable => "destination unreachable"
  | .exhausted => "resources exhausted"

/-- What stops the engine. -/
inductive Fault where
  /-- More is taken away from a count than there is. -/
  | underflow
deriving DecidableEq

/-- What is left of `m` when `n` is taken away, if there is that much. -/
def takeAway (m n : Nat) : Except Fault Nat := if n ≤ m then .ok (m - n) else .error .underflow

theorem takeAway_eq_ok_iff {m n k : Nat} : takeAway m n = .ok k ↔ k + n = m := by
  unfold takeAway
  split
  · rw [Except.ok.injEq]
    omega
  · simp only [reduceCtorEq, false_iff]
    omega

theorem takeAway_eq_error_iff {m n : Nat} {fault : Fault} :
    takeAway m n = .error fault ↔ m < n := by
  unfold takeAway
  cases fault
  split <;> simp <;> omega

/-- A computation that succeeds has succeeded up to each of its steps. -/
theorem exists_of_bind_eq_ok {ε α β : Type} {x : Except ε α} {f : α → Except ε β} {b : β}
    (h : x >>= f = .ok b) : ∃ a, x = .ok a ∧ f a = .ok b := by
  cases x with
  | error err => cases h
  | ok a => exact ⟨a, rfl, h⟩

section Map

variable {ε α β : Type} {x : Except ε α} {f : α → β}

theorem map_eq_ok_iff {b : β} : x.map f = .ok b ↔ ∃ a, x = .ok a ∧ f a = b := by
  cases x <;> simp [Except.map]

/-- What is brought under a map has been brought before it. -/
theorem brought_of_map {x : Except ε (Option α)} {b : β}
    (h : x.map (Option.map f) = .ok (some b)) : ∃ a, x = .ok (some a) ∧ f a = b := by
  obtain ⟨given, rfl, hgiven⟩ := map_eq_ok_iff.mp h
  obtain ⟨a, rfl, hb⟩ := Option.map_eq_some_iff.mp hgiven
  exact ⟨a, rfl, hb⟩

theorem map_eq_error_iff {err : ε} : x.map f = .error err ↔ x = .error err := by
  cases x <;> simp [Except.map]

end Map

end NetEngine
