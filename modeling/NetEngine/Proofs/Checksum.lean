import Mathlib.Algebra.GroupWithZero.Nat
import NetEngine.Checksum

/-! # Sums of Octets

    The internet checksum does not depend on how a sum has been brought to one
    word, nor on the pieces in which octets were counted.

    * **Same**: two numbers stand for one ones-complement sum.  What is folded
      stays the same.
    * **Word sum**: the sum of the words of a string, without any folding.  Every
      checksum is the same as a word sum.
    * **All ones**: the sum of a packet that is intact.  A sum together with its
      complement is one. -/

namespace NetEngine

namespace Checksum

/-! ## Sums that are the same -/

/-- Two numbers stand for one ones-complement sum: they differ by a multiple of 65535, and zero
stands for nothing else. -/
def Same (m n : Nat) : Prop := m % 65535 = n % 65535 ∧ (m = 0 ↔ n = 0)

/-- A number stands for the sum all ones. -/
def AllOnes (n : Nat) : Prop := Same n 65535

namespace Same

variable {m n k l : Nat}

theorem refl (n : Nat) : Same n n := ⟨rfl, Iff.rfl⟩

theorem symm (h : Same m n) : Same n m := ⟨h.1.symm, h.2.symm⟩

theorem trans (h : Same m n) (h' : Same n k) : Same m k := ⟨h.1.trans h'.1, h.2.trans h'.2⟩

theorem add (h : Same m n) (h' : Same k l) : Same (m + k) (n + l) := by
  obtain ⟨hmod, hzero⟩ := h
  obtain ⟨hmod', hzero'⟩ := h'
  exact ⟨by omega, by omega⟩

/-- A word stands for one sum. -/
theorem eq_of_le (h : Same m n) (hm : m ≤ 65535) (hn : n ≤ 65535) : m = n := by
  obtain ⟨hmod, hzero⟩ := h
  omega

end Same

/-! ## Folding -/

theorem same_foldOnce (n : Nat) : Same (foldOnce n) n := by
  unfold foldOnce
  exact ⟨by omega, by omega⟩

/-- Two steps bring a sum to one word. -/
theorem toNat_fold {n : Nat} (small : n < 2 ^ 32) :
    (fold n).toNat = foldOnce (foldOnce n) := by
  unfold fold foldOnce
  rw [UInt16.toNat_ofNat']
  omega

theorem same_fold {n : Nat} (small : n < 2 ^ 32) : Same (fold n).toNat n := by
  rw [toNat_fold small]
  exact (same_foldOnce _).trans (same_foldOnce n)

/-- A word is all ones exactly if the sum that it comes from stands for all ones. -/
theorem eq_ones_iff {w : UInt16} {n : Nat} (same : Same w.toNat n) : w = 0xffff ↔ AllOnes n := by
  have hw := w.toNat_lt
  constructor
  · rintro rfl
    exact same.symm
  · intro h
    have hones : w.toNat = 65535 := (same.trans h).eq_of_le (by omega) (by omega)
    exact UInt16.toNat_inj.mp hones

theorem fold_eq_ones_iff {n : Nat} (small : n < 2 ^ 32) : fold n = 0xffff ↔ AllOnes n :=
  eq_ones_iff (same_fold small)

theorem toNat_complement (w : UInt16) : (~~~w).toNat = 65535 - w.toNat := by
  rw [UInt16.toNat_not]
  rfl

/-- A sum and its complement add up to all ones. -/
theorem allOnes_add_complement {w : UInt16} {n : Nat} (same : Same w.toNat n) :
    AllOnes (n + (~~~w).toNat) := by
  have hw := w.toNat_lt
  obtain ⟨hmod, hzero⟩ := same
  rw [toNat_complement]
  exact ⟨by omega, by omega⟩

/-- The checksum field of a sum is zero exactly if the sum stands for all ones. -/
theorem field_eq_zero_iff {n : Nat} (small : n < 2 ^ 32) : field n = 0 ↔ AllOnes n := by
  have hfold := (fold n).toNat_lt
  rw [← fold_eq_ones_iff small, ← UInt16.toNat_inj, ← UInt16.toNat_inj, field, toNat_complement]
  show 65535 - (fold n).toNat = 0 ↔ (fold n).toNat = 65535
  omega

/-! ## Word sums -/

/-- The sum of the words of a string, a last odd octet being the high half of a word. -/
def wordSum : Bytes → Nat
  | [] => 0
  | [high] => high.toNat * 256
  | high :: low :: rest => (word high low).toNat + wordSum rest

/-- Behind whole words the words of a string are its own. -/
theorem wordSum_append {a : Bytes} (even : a.length % 2 = 0) (b : Bytes) :
    wordSum (a ++ b) = wordSum a + wordSum b := by
  induction a using wordSum.induct with
  | case1 => simp [wordSum]
  | case2 high => cases even
  | case3 high low rest ih =>
    rw [List.length_cons, List.length_cons] at even
    show (word high low).toNat + wordSum (rest ++ b) = (word high low).toNat + wordSum rest + _
    rw [ih (by omega), Nat.add_assoc]

theorem wordSum_ofWord_append (w : UInt16) (b : Bytes) :
    wordSum (ofWord w ++ b) = w.toNat + wordSum b :=
  congrArg (fun v : UInt16 => v.toNat + wordSum b) (word_div_mod w)

/-- A field between whole words counts as what it holds. -/
theorem wordSum_putWord {b : Bytes} {i : Nat} (even : i % 2 = 0) (within : i + 1 < b.length)
    (w : UInt16) : wordSum (putWord b i w) = wordSum (putWord b i 0) + w.toNat := by
  have hfront : (b.take i).length % 2 = 0 := by
    rw [List.length_take]
    omega
  rw [putWord_eq within, putWord_eq within, wordSum_append hfront, wordSum_append hfront,
    wordSum_ofWord_append, wordSum_ofWord_append]
  simp only [UInt16.toNat_zero]
  omega

/-! ## Running sums -/

namespace RunningSum

theorem same_addWord (acc : RunningSum) (w : UInt16) :
    Same (acc.addWord w).sum (acc.sum + w.toNat) := by
  unfold addWord
  dsimp only
  split
  · exact .refl _
  · exact same_foldOnce _

/-- Where no octet waits, two octets are counted as one word. -/
theorem feed_cons_cons {acc : RunningSum} (whole : acc.pending = none) (high low : UInt8)
    (rest : Bytes) : acc.feed (high :: low :: rest) = (acc.addWord (word high low)).feed rest := by
  show ((acc.addByte high).addByte low).feed rest = _
  unfold addByte
  rw [whole]
  dsimp only
  rw [← whole]

/-- A running sum that has whole words goes on by the word sum of a piece. -/
theorem same_total_feed {acc : RunningSum} (whole : acc.pending = none)
    (small : acc.sum < 0x80000000) (b : Bytes) :
    Same (acc.feed b).total (acc.sum + wordSum b) ∧ (acc.feed b).total < 2 ^ 32 := by
  induction b using wordSum.induct generalizing acc with
  | case1 =>
    have htotal : (acc.feed []).total = acc.sum := by
      show acc.total = acc.sum
      unfold total
      rw [whole]
      rfl
    rw [htotal]
    exact ⟨.refl _, by omega⟩
  | case2 high =>
    have htotal : (acc.feed [high]).total = acc.sum + high.toNat * 256 := by
      show (acc.addByte high).total = _
      unfold addByte
      rw [whole]
      rfl
    have := high.toNat_lt
    rw [htotal]
    exact ⟨.refl _, by omega⟩
  | case3 high low rest ih =>
    have hwhole : (acc.addWord (word high low)).pending = none := whole
    obtain ⟨hsame, hlt⟩ := ih hwhole (sum_addWord_lt small _)
    rw [feed_cons_cons whole]
    refine ⟨hsame.trans ?_, hlt⟩
    show Same _ (acc.sum + ((word high low).toNat + wordSum rest))
    rw [← Nat.add_assoc]
    exact (same_addWord acc _).add (.refl _)

end RunningSum

/-! ## Whole strings -/

/-- **The checksum of a string is that of its word sum.** -/
theorem same_ofBytes (b : Bytes) : Same (ofBytes b).toNat (wordSum b) := by
  let start : RunningSum := {}
  have hwhole : start.pending = none := rfl
  have hsum : start.sum + wordSum b = wordSum b := Nat.zero_add _
  obtain ⟨hsame, hlt⟩ := RunningSum.same_total_feed hwhole (by decide) b
  rw [hsum] at hsame
  exact (same_fold hlt).trans hsame

theorem isIntact_iff (b : Bytes) : isIntact b ↔ AllOnes (wordSum b) := by
  unfold isIntact
  rw [decide_eq_true_iff]
  exact eq_ones_iff (same_ofBytes b)

/-- The sum of parts that were summed on their own. -/
theorem same_ofParts {sums : List UInt16} (small : (sums.map (·.toNat)).sum < 2 ^ 32) :
    Same (ofParts sums).toNat (sums.map (·.toNat)).sum := by
  have hfoldl : ∀ n, sums.foldl (fun sum w => sum + w.toNat) n = n + (sums.map (·.toNat)).sum := by
    clear small
    induction sums with
    | nil => exact fun n => rfl
    | cons w sums ih => exact fun n => (ih _).trans (Nat.add_assoc _ _ _)
  unfold ofParts
  rw [hfoldl, Nat.zero_add]
  exact same_fold small

/-- The sum of a word and of a string that was summed on its own. -/
theorem same_ofParts_pair (w : UInt16) (b : Bytes) :
    Same (ofParts [w, ofBytes b]).toNat (w.toNat + wordSum b) := by
  have hword := w.toNat_lt
  have hbytes := (ofBytes b).toNat_lt
  refine (same_ofParts ?_).trans ?_
  · simp only [List.map_cons, List.map_nil, List.sum_cons, List.sum_nil]
    omega
  · simp only [List.map_cons, List.map_nil, List.sum_cons, List.sum_nil, Nat.add_zero]
    exact (Same.refl _).add (same_ofBytes b)

/-- **A checksum that has been written makes a packet intact.** -/
theorem isIntact_fillAt {b : Bytes} {i : Nat} (even : i % 2 = 0) (within : i + 1 < b.length) :
    isIntact (fillAt b i) := by
  rw [isIntact_iff]
  unfold fillAt
  dsimp only
  rw [wordSum_putWord even (by rwa [length_putWord]), putWord_putWord]
  exact allOnes_add_complement (same_ofBytes _)

end Checksum

end NetEngine
