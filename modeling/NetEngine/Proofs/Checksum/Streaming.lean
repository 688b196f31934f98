import NetEngine.Proofs.Checksum

/-! # Strings That Come in Pieces

    A running sum counts octets as they come, wherever the string was cut.

    * **Absorbing**: a piece is counted word by word.  Its first octet completes
      the word that waits, and a last odd octet waits for the next piece.  This is
      the same as to count octet by octet.
    * **Room**: the sum stays below `2 ^ 31`, so that there is room for another word
      below `2 ^ 32`.
    * **Ones sum**: the one word that a string sums to.  Zero and all ones stand for
      the same residue, but only a string of zeros sums to zero. -/

namespace NetEngine

namespace Checksum

/-! ## Counting whole words -/

namespace RunningSum

/-- Count whole words, and let a last odd octet wait. -/
def addWords (acc : RunningSum) : Bytes → RunningSum
  | [] => acc
  | [high] => { acc with pending := some high }
  | high :: low :: rest => (acc.addWord (word high low)).addWords rest

/-- Count a piece word by word, its first octet together with the one that waits. -/
def absorb (acc : RunningSum) (piece : Bytes) : RunningSum :=
  match acc.pending, piece with
  | none, piece => acc.addWords piece
  | some _, [] => acc
  | some high, low :: rest => ({ acc with pending := none }.addWord (word high low)).addWords rest

theorem addWords_eq_feed {acc : RunningSum} (whole : acc.pending = none) (b : Bytes) :
    acc.addWords b = acc.feed b := by
  induction b using wordSum.induct generalizing acc with
  | case1 => rfl
  | case2 high =>
    show { acc with pending := some high } = acc.addByte high
    unfold addByte
    rw [whole]
  | case3 high low rest ih =>
    rw [feed_cons_cons whole]
    exact ih whole

/-- **Words are counted like their octets**, whether an octet waits or not. -/
theorem absorb_eq_feed (acc : RunningSum) (piece : Bytes) : acc.absorb piece = acc.feed piece := by
  unfold absorb
  split
  · exact addWords_eq_feed ‹_› _
  · rfl
  · -- The first octet of the piece ends a word, and the rest starts with a new one.
    rename_i high low rest waiting
    show _ = (acc.addByte low).feed rest
    unfold addByte
    rw [waiting]
    exact addWords_eq_feed rfl rest

/-- Pieces that come one after the other count as one string. -/
theorem foldl_absorb (acc : RunningSum) (pieces : List Bytes) :
    pieces.foldl absorb acc = acc.absorb pieces.flatten := by
  induction pieces generalizing acc with
  | nil => rw [absorb_eq_feed]; rfl
  | cons piece pieces ih =>
    rw [List.foldl_cons, ih, List.flatten_cons, absorb_eq_feed, absorb_eq_feed, absorb_eq_feed,
      feed_append]

/-! ## Room -/

theorem sum_addByte_lt {acc : RunningSum} (small : acc.sum < 2 ^ 31) (b : UInt8) :
    (acc.addByte b).sum < 2 ^ 31 := by
  unfold addByte
  split
  · exact small
  · exact sum_addWord_lt small _

/-- Whatever is counted, the sum stays small. -/
theorem sum_feed_lt {acc : RunningSum} (small : acc.sum < 2 ^ 31) (b : Bytes) :
    (acc.feed b).sum < 2 ^ 31 := by
  induction b generalizing acc with
  | nil => exact small
  | cons octet b ih => exact ih (sum_addByte_lt small octet)

end RunningSum

/-! ## The sum of a string -/

/-- `r` is the ones-complement sum of a string: it is congruent to the sum of its words, and zero
for a string of zeros only. -/
structure OnesSum (b : Bytes) (r : UInt16) : Prop where
  congruent : r.toNat % 65535 = wordSum b % 65535
  zero_iff : r = 0 ↔ ∀ octet ∈ b, octet = 0

/-- Only zeros have the sum zero. -/
theorem wordSum_eq_zero_iff (b : Bytes) : wordSum b = 0 ↔ ∀ octet ∈ b, octet = 0 := by
  have hzero (octet : UInt8) : octet = 0 ↔ octet.toNat = 0 := UInt8.toNat_inj.symm
  induction b using wordSum.induct with
  | case1 => simp [wordSum]
  | case2 high =>
    simp only [wordSum, List.mem_singleton, forall_eq]
    rw [hzero]
    omega
  | case3 high low rest ih =>
    simp only [wordSum, toNat_word, List.mem_cons, forall_eq_or_imp, ← ih]
    rw [hzero high, hzero low]
    omega

/-- A string has one sum. -/
theorem OnesSum.unique {b : Bytes} {r r' : UInt16} (h : OnesSum b r) (h' : OnesSum b r') :
    r = r' := by
  have hr := r.toNat_lt
  have hr' := r'.toNat_lt
  have hzero : r.toNat = 0 ↔ r'.toNat = 0 := by
    have hiff := h.zero_iff.trans h'.zero_iff.symm
    rwa [← UInt16.toNat_inj, ← UInt16.toNat_inj] at hiff
  have hmod := h.congruent.trans h'.congruent.symm
  apply UInt16.toNat_inj.mp
  omega

theorem onesSum_of_same {b : Bytes} {r : UInt16} (same : Same r.toNat (wordSum b)) :
    OnesSum b r where
  congruent := same.1
  zero_iff := by
    rw [← wordSum_eq_zero_iff, ← same.2, ← UInt16.toNat_inj]
    rfl

theorem ofBytes_eq_iff {b : Bytes} {r : UInt16} : ofBytes b = r ↔ OnesSum b r := by
  have hsum := onesSum_of_same (same_ofBytes b)
  constructor
  · intro heq
    rwa [← heq]
  · exact hsum.unique

/-- Parts of whole words, the last one apart, make up the sum of the string. -/
theorem wordSum_flatten {parts : List Bytes} (even : ∀ part ∈ parts.dropLast, part.length % 2 = 0) :
    wordSum parts.flatten = (parts.map wordSum).sum := by
  induction parts with
  | nil => rfl
  | cons part parts ih =>
    cases parts with
    | nil => simp
    | cons next parts =>
      rw [List.dropLast_cons_cons] at even
      rw [List.flatten_cons, wordSum_append (even part List.mem_cons_self),
        ih fun p hp => even p (List.mem_cons_of_mem _ hp)]
      rfl

theorem sum_ofBytes_le (parts : List Bytes) :
    ((parts.map ofBytes).map (·.toNat)).sum ≤ parts.length * 65535 := by
  induction parts with
  | nil => exact Nat.le_refl _
  | cons part parts ih =>
    have := (ofBytes part).toNat_lt
    simp only [List.map_cons, List.sum_cons, List.length_cons]
    omega

theorem same_sum_ofBytes (parts : List Bytes) :
    Same ((parts.map ofBytes).map (·.toNat)).sum (parts.map wordSum).sum := by
  induction parts with
  | nil => exact .refl _
  | cons part parts ih => exact (same_ofBytes part).add ih

/-- **Parts that were summed on their own are combined to the sum of the whole.** -/
theorem ofParts_eq_ofBytes {parts : List Bytes} (few : parts.length ≤ 65537)
    (even : ∀ part ∈ parts.dropLast, part.length % 2 = 0) :
    ofParts (parts.map ofBytes) = ofBytes parts.flatten := by
  have hsmall := sum_ofBytes_le parts
  have hparts : Same (ofParts (parts.map ofBytes)).toNat (wordSum parts.flatten) := by
    rw [wordSum_flatten even]
    exact (same_ofParts (by omega)).trans (same_sum_ofBytes parts)
  have hlt := (ofParts (parts.map ofBytes)).toNat_lt
  have hlt' := (ofBytes parts.flatten).toNat_lt
  exact UInt16.toNat_inj.mp ((hparts.trans (same_ofBytes _).symm).eq_of_le (by omega) (by omega))

/-! ## Streaming -/

/-- What can be relied on when a string comes in pieces. -/
structure Streams (pieces : List Bytes) : Prop where
  /-- Whatever has been counted before, sum and waiting octet are those of one call. -/
  joined : ∀ acc : RunningSum, pieces.foldl .absorb acc = acc.absorb pieces.flatten ∧
    pieces.foldl .feed acc = acc.absorb pieces.flatten
  /-- At every moment there is room for another word. -/
  room : ∀ seen, seen <+: pieces.flatten → (({} : RunningSum).feed seen).sum < 2 ^ 31 ∧
    ∀ w : UInt16, (({} : RunningSum).feed seen).sum + w.toNat < 2 ^ 32
  /-- Two folds leave one word. -/
  folded : foldOnce (foldOnce (pieces.foldl .feed ({} : RunningSum)).total) < 2 ^ 16
  /-- The checksum field is the complement of the sum. -/
  exact : ∀ r, OnesSum pieces.flatten r ↔ (pieces.foldl .feed ({} : RunningSum)).field = ~~~r
  /-- The sums of some pieces fit 32 bits.  Where all pieces but the last one have whole words, they
  are combined to the sum of the whole. -/
  combined : pieces.length ≤ 65537 → (∀ piece ∈ pieces.dropLast, piece.length % 2 = 0) →
    ((pieces.map ofBytes).map (·.toNat)).sum < 2 ^ 32 ∧
      ofParts (pieces.map ofBytes) = ofBytes pieces.flatten

/-- **A running sum does not depend on the pieces**, is exact and never overflows. -/
theorem streams (pieces : List Bytes) : Streams pieces := by
  let start : RunningSum := {}
  have hfeed (acc : RunningSum) : pieces.foldl .feed acc = acc.feed pieces.flatten := by
    have hsame : RunningSum.feed = RunningSum.absorb := by
      funext acc piece
      exact (RunningSum.absorb_eq_feed acc piece).symm
    rw [hsame]
    exact RunningSum.foldl_absorb acc pieces
  have htotal : (start.feed pieces.flatten).total < 2 ^ 32 :=
    (RunningSum.same_total_feed rfl (by decide) _).2
  constructor
  case joined =>
    intro acc
    rw [hfeed, RunningSum.absorb_eq_feed]
    exact ⟨(RunningSum.foldl_absorb acc pieces).trans (RunningSum.absorb_eq_feed _ _), rfl⟩
  case room =>
    intro seen _
    have hlt : (start.feed seen).sum < 2 ^ 31 := RunningSum.sum_feed_lt (by decide) seen
    refine ⟨hlt, fun w => ?_⟩
    have := w.toNat_lt
    show (start.feed seen).sum + w.toNat < 2 ^ 32
    omega
  case folded =>
    rw [hfeed, ← toNat_fold htotal]
    exact UInt16.toNat_lt _
  case exact =>
    intro r
    have hsum := onesSum_of_same (same_ofBytes pieces.flatten)
    rw [hfeed]
    show _ ↔ ~~~ofBytes pieces.flatten = ~~~r
    rw [UInt16.not_inj]
    exact ⟨hsum.unique, fun heq => heq ▸ hsum⟩
  case combined =>
    intro few even
    have hle := sum_ofBytes_le pieces
    exact ⟨by omega, ofParts_eq_ofBytes few even⟩

/-- An empty piece does not disturb the octet that waits. -/
example : [[0x12], [], [0x34, 0x56]].foldl .absorb ({} : RunningSum) = ⟨0x1234, some 0x56⟩ := by
  decide

end Checksum

end NetEngine
