import NetEngine.Bytes

/-! # The Internet Checksum

    The checksum of a string of octets is the **ones-complement sum** of its
    big-endian words, a last odd octet being the high half of a word.  A header
    carries the complement of the sum over everything it protects, so a packet
    that arrived whole sums to all ones.

    - **RunningSum**: the running sum of a string that comes in pieces.  A
      piece may end in the middle of a word; its last octet then waits for the
      next piece, so the sum does not depend on where the pieces were cut.
    - **ofParts**: the sum of parts that were summed on their own. -/

namespace NetEngine.Checksum

/-- Who answers for a checksum. -/
inductive Mode where
  /-- It is computed and compared here. -/
  | manual
  /-- The link has computed or compared it. -/
  | ignored
deriving DecidableEq

/-! ### Folding -/

/-- Add the high half of a sum to its low half. -/
def foldOnce (sum : Nat) : Nat := sum / 65536 + sum % 65536

/-- Bring a sum of words to one word.  Two steps suffice below `2 ^ 32`. -/
def fold (sum : Nat) : UInt16 := UInt16.ofNat (foldOnce (foldOnce sum))

/-- The checksum field that belongs to a sum. -/
def field (sum : Nat) : UInt16 := ~~~fold sum

/-! ### Sums of Octets That Arrive in Pieces -/

/-- The sum of the octets seen so far. -/
structure RunningSum where
  /-- The sum of the whole words. -/
  sum : Nat := 0
  /-- The first half of a word whose second half has not arrived. -/
  pending : Option UInt8 := none
deriving DecidableEq

namespace RunningSum

/-- Count one word, and fold where the sum would leave 31 bits. -/
def addWord (acc : RunningSum) (w : UInt16) : RunningSum :=
  let sum := acc.sum + w.toNat
  { acc with sum := if sum < 0x80000000 then sum else foldOnce sum }

/-- Count one octet. -/
def addByte (acc : RunningSum) (b : UInt8) : RunningSum :=
  match acc.pending with
  | none => { acc with pending := some b }
  | some high => { acc with pending := none }.addWord (word high b)

/-- Count the octets of a piece. -/
def feed (acc : RunningSum) (piece : Bytes) : RunningSum := piece.foldl addByte acc

/-- Where a string is cut makes no difference. -/
theorem feed_append (acc : RunningSum) (a b : Bytes) :
    acc.feed (a ++ b) = (acc.feed a).feed b := List.foldl_append

theorem sum_addWord_lt {acc : RunningSum} (h : acc.sum < 0x80000000) (w : UInt16) :
    (acc.addWord w).sum < 0x80000000 := by
  have := w.toNat_lt
  simp only [addWord, foldOnce]
  split <;> omega

/-- The sum so far, a waiting octet counting as the high half of a word. -/
def total (acc : RunningSum) : Nat :=
  acc.sum + match acc.pending with
    | none => 0
    | some high => high.toNat * 256

/-- The checksum field that belongs to the octets so far. -/
def field (acc : RunningSum) : UInt16 := Checksum.field acc.total

end RunningSum

/-! ### Whole Strings -/

/-- The ones-complement sum of a string. -/
def ofBytes (b : Bytes) : UInt16 := fold (({} : RunningSum).feed b).total

/-- The ones-complement sum of parts that have been summed. -/
def ofParts (sums : List UInt16) : UInt16 := fold (sums.foldl (fun sum w => sum + w.toNat) 0)

/-- Does a packet sum to all ones, as it must? -/
def isIntact (b : Bytes) : Bool := ofBytes b = 0xffff

/-- Write into the field at index `i` the checksum of `b` with that field cleared. -/
def fillAt (b : Bytes) (i : Nat) : Bytes :=
  let cleared := putWord b i 0
  putWord cleared i (~~~ofBytes cleared)

end NetEngine.Checksum
