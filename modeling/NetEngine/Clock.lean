/-! # The Clock

    A timer fires at a fixed rate.  The clock counts its interrupts and rolls
    them over into **seconds**, whose 32-bit count goes round. -/

namespace NetEngine

/-- A count of timer interrupts. -/
structure Clock where
  /-- Interrupts per second. -/
  rate : Nat
  /-- Interrupts since the last whole second. -/
  subsecond : Nat
  /-- Whole seconds. -/
  seconds : UInt32
  subsecond_lt : subsecond < rate

namespace Clock

/-- A clock at zero.  A timer that never fires is taken for one that fires every second. -/
def ofRate (rate : UInt16) : Clock := ⟨max 1 rate.toNat, 0, 0, by omega⟩

/-- Count one interrupt. -/
def interrupt (c : Clock) : Clock :=
  if h : c.subsecond + 1 < c.rate then
    { c with subsecond := c.subsecond + 1, subsecond_lt := h }
  else
    { c with
      subsecond := 0
      seconds := c.seconds + 1
      subsecond_lt := Nat.lt_of_le_of_lt (Nat.zero_le _) c.subsecond_lt }

/-- Count `n` interrupts. -/
def interrupts : Nat → Clock → Clock
  | 0, c => c
  | n + 1, c => interrupts n c.interrupt

/-- The interrupts in all seconds counted. -/
def ticks (c : Clock) : Nat := c.seconds.toNat * c.rate + c.subsecond

end Clock

/-- The interrupts between two readings of a 64-bit count. -/
def ticksBetween (start now : Nat) : Nat := (now + UInt64.size - start) % UInt64.size

end NetEngine
