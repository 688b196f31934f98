/-! # Sequence Numbers

    The octets of a connection are numbered with 32 bits, and the numbers go
    round.  Which of two numbers is the later one is told by their **signed
    distance**: a number is later than another if it is reached from it in less
    than half a round. -/

namespace NetEngine.Tcp

/-- The number of an octet. -/
structure SeqNumber where
  val : UInt32
deriving DecidableEq

namespace SeqNumber

instance : Inhabited SeqNumber := ⟨⟨0⟩⟩

/-- The number `n` places later. -/
def add (s : SeqNumber) (n : Nat) : SeqNumber := ⟨s.val + UInt32.ofNat n⟩

/-- The number `n` places earlier. -/
def sub (s : SeqNumber) (n : Nat) : SeqNumber := ⟨s.val - UInt32.ofNat n⟩

instance : HAdd SeqNumber Nat SeqNumber := ⟨add⟩

instance : HSub SeqNumber Nat SeqNumber := ⟨sub⟩

/-- The number read as one with a sign. -/
def signed (s : SeqNumber) : Int := s.val.toBitVec.toInt

/-- How far `s` lies behind `t`, negative if it lies in front of it. -/
def distance (s t : SeqNumber) : Int := signed ⟨s.val - t.val⟩

@[simp] theorem distance_self (s : SeqNumber) : s.distance s = 0 := by
  unfold distance signed
  rw [UInt32.sub_self]
  rfl

/-- Is `s` earlier than `t`, the same, or later? -/
def order (s t : SeqNumber) : Ordering := compare (s.distance t) 0

def text (s : SeqNumber) : String := toString s.val.toNat

end SeqNumber

end NetEngine.Tcp
