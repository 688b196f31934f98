/-! # Initial Sequence Numbers

    The numbers at which connections start come from a **shift register** of 32
    bits with linear feedback: it is shifted to the right, and where a one falls
    out, the taps are flipped.  Its state is never zero, where it would stay.
    Sequence numbers that arrive from outside are mixed into it. -/

namespace NetEngine.Tcp

/-- The shift register, whose state is the last number drawn. -/
structure ShiftRegister where
  state : UInt32
deriving DecidableEq

namespace ShiftRegister

/-- The bits that a one falling out flips. -/
def taps : UInt32 := 0x80200003

/-- A register with a given seed. -/
def ofSeed (seed : UInt32) : ShiftRegister := ⟨if seed = 0 then 1 else seed⟩

/-- Shift once. -/
def shift (r : ShiftRegister) : ShiftRegister :=
  let shifted := r.state >>> 1
  ⟨if r.state.toNat % 2 = 1 then shifted ^^^ taps else shifted⟩

/-- Shift `n` times. -/
def shifts : Nat → ShiftRegister → ShiftRegister
  | 0, r => r
  | n + 1, r => shifts n r.shift

/-- Draw a 16-bit number, for which every bit of it is new. -/
def draw (r : ShiftRegister) : UInt16 × ShiftRegister :=
  let r := r.shifts 16
  (UInt16.ofNat (r.state.toNat % 65536), r)

/-- Mix a number from outside into the state. -/
def mix (r : ShiftRegister) (value : UInt32) : ShiftRegister :=
  let mixed := r.state ^^^ value
  (ShiftRegister.mk (if mixed = 0 then taps else mixed)).shift

end ShiftRegister

end NetEngine.Tcp
