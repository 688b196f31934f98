import Mathlib.Data.Nat.Bitwise
import Mathlib.Dynamics.PeriodicPts.Lemmas
import Mathlib.Order.Interval.Finset.Nat
import Mathlib.Tactic.NormNum.Prime
import NetEngine.Tcp.ShiftRegister

/-! # The Shift Register Goes Through All Numbers

    Read as polynomials over the field with two elements, the highest bit first, the
    states are the remainders of one polynomial, and a shift multiplies by the
    unknown.  The polynomial has been chosen so that all remainders but zero are
    powers of the unknown.

    * **Shifts of numbers**: a shift is linear, with exclusive or for the sum.
    * **Products**: the product of two states, by which a state that many shifts
      lead to is found in few steps.
    * **Period**: the top bit alone comes again after `2 ^ 32 - 1` shifts and not
      before, since it does not after any of their largest divisors.
    * **One cycle**: so it goes through every state but zero, and so does every
      other one.
    * **Use**: whatever is drawn and mixed in, the state is never zero. -/

namespace NetEngine.Tcp.ShiftRegister

open Function (IsPeriodicPt minimalPeriod)

variable {a b k m n : Nat}

/-! ## Shifts of numbers -/

/-- A number where a bit is set, and zero where it is not. -/
def gate (bit : Bool) (n : Nat) : Nat := if bit then n else 0

theorem gate_xor (p q : Bool) (n : Nat) : gate (p ^^ q) n = gate p n ^^^ gate q n := by
  cases p <;> cases q <;> simp [gate]

/-- The state after a shift, as a number. -/
def shiftNat (s : Nat) : Nat := s / 2 ^^^ gate (s.testBit 0) taps.toNat

theorem toNat_shift (r : ShiftRegister) : r.shift.state.toNat = shiftNat r.state.toNat := by
  unfold shift shiftNat
  rw [Nat.testBit_zero]
  dsimp only
  split
  · simp_all [gate, Nat.shiftRight_succ]
  · simp_all [gate, Nat.shiftRight_succ]

theorem toNat_shifts (n : Nat) (r : ShiftRegister) :
    (r.shifts n).state.toNat = shiftNat^[n] r.state.toNat := by
  induction n generalizing r with
  | zero => rfl
  | succ n ih =>
    unfold shifts
    rw [ih, toNat_shift, Function.iterate_succ_apply]

theorem shiftNat_lt (h : a < 2 ^ 32) : shiftNat a < 2 ^ 32 := by
  refine Nat.xor_lt_two_pow (by omega) ?_
  cases a.testBit 0 <;> decide

theorem iterate_shiftNat_lt (h : a < 2 ^ 32) (n : Nat) : shiftNat^[n] a < 2 ^ 32 := by
  induction n with
  | zero => exact h
  | succ n ih =>
    rw [Function.iterate_succ_apply']
    exact shiftNat_lt ih

/-- What falls out of a state is found again at the top. -/
theorem shiftNat_ne_zero (h : a < 2 ^ 32) (nonzero : a ≠ 0) : shiftNat a ≠ 0 := by
  unfold shiftNat
  rw [Nat.testBit_zero]
  intro hzero
  by_cases hodd : a % 2 = 1
  · -- The taps have the top bit, which no half of a state has.
    have htaps : a / 2 = taps.toNat := by
      simpa [gate, hodd, Nat.xor_eq_zero_iff] using hzero
    have : taps.toNat = 0x80200003 := rfl
    omega
  · have hhalf : a / 2 = 0 := by simpa [gate, hodd] using hzero
    omega

theorem shiftNat_zero : shiftNat 0 = 0 := by decide

theorem shiftNat_xor (a b : Nat) : shiftNat (a ^^^ b) = shiftNat a ^^^ shiftNat b := by
  unfold shiftNat
  rw [Nat.xor_div_two, Nat.testBit_xor, gate_xor]
  ac_rfl

theorem shiftNat_gate (p : Bool) (n : Nat) : shiftNat (gate p n) = gate p (shiftNat n) := by
  cases p with
  | true => rfl
  | false => exact shiftNat_zero

/-! ## Products -/

/-- The sum of the states that `b` goes through at the steps at which the lowest `k` bits of `a` are
set, the highest of them first. -/
def product : (k : Nat) → (a b : Nat) → Nat
  | 0, _, _ => 0
  | k + 1, a, b => gate (a.testBit k) b ^^^ product k a (shiftNat b)

theorem product_xor_left (k a a' b : Nat) :
    product k (a ^^^ a') b = product k a b ^^^ product k a' b := by
  induction k generalizing b with
  | zero => exact (Nat.xor_self 0).symm
  | succ k ih =>
    unfold product
    rw [Nat.testBit_xor, gate_xor, ih]
    ac_rfl

theorem product_zero_left (k b : Nat) : product k 0 b = 0 := by
  induction k generalizing b with
  | zero => rfl
  | succ k ih => simp [product, gate, ih]

theorem product_gate_left (k : Nat) (p : Bool) (a b : Nat) :
    product k (gate p a) b = gate p (product k a b) := by
  cases p with
  | true => rfl
  | false => exact product_zero_left k b

/-- The lowest bit comes last. -/
theorem product_succ (k a b : Nat) :
    product (k + 1) a b = product k (a / 2) b ^^^ gate (a.testBit 0) (shiftNat^[k] b) := by
  induction k generalizing b with
  | zero => simp [product]
  | succ k ih =>
    rw [product, ih, product, Nat.testBit_div_two, Function.iterate_succ_apply, Nat.xor_assoc]

/-- A bit above the lowest `k` does not count. -/
theorem product_two_pow_of_le (h : k ≤ m) (b : Nat) : product k (2 ^ m) b = 0 := by
  induction k generalizing b with
  | zero => rfl
  | succ k ih =>
    have hother : m ≠ k := by omega
    rw [product, ih (Nat.le_of_succ_le h), Nat.testBit_two_pow, decide_eq_false hother]
    exact Nat.xor_self 0

theorem shiftNat_product (k a b : Nat) :
    shiftNat (product k a b) = product k a (shiftNat b) := by
  induction k generalizing b with
  | zero => exact shiftNat_zero
  | succ k ih =>
    unfold product
    rw [shiftNat_xor, shiftNat_gate, ih]

theorem iterate_shiftNat_product (n k a b : Nat) :
    shiftNat^[n] (product k a b) = product k a (shiftNat^[n] b) := by
  induction n generalizing b with
  | zero => rfl
  | succ n ih =>
    rw [Function.iterate_succ_apply, shiftNat_product, ih, ← Function.iterate_succ_apply]

/-- What falls out of `a` is made good by `b`, if 32 shifts take it where the taps tell. -/
theorem product_shiftNat (h : a < 2 ^ 32) (returns : shiftNat^[32] b = product 32 taps.toNat b) :
    product 32 (shiftNat a) b = product 32 a (shiftNat b) := by
  have htop : a.testBit 32 = false := Nat.testBit_lt_two_pow h
  have hhalf : product 32 (a / 2) b = product 31 (a / 2) (shiftNat b) := by
    rw [product, Nat.testBit_div_two, htop]
    exact Nat.zero_xor _
  calc product 32 (shiftNat a) b
      = product 32 (a / 2) b ^^^ gate (a.testBit 0) (product 32 taps.toNat b) := by
        rw [shiftNat, product_xor_left, product_gate_left]
    _ = product 31 (a / 2) (shiftNat b) ^^^ gate (a.testBit 0) (shiftNat^[31] (shiftNat b)) := by
        rw [hhalf, ← returns, Function.iterate_succ_apply]
    _ = product 32 a (shiftNat b) := (product_succ 31 a (shiftNat b)).symm

/-- The state in which the top bit alone is set. -/
def top : Nat := 2 ^ 31

theorem iterate_top_lt (n : Nat) : shiftNat^[n] top < 2 ^ 32 := iterate_shiftNat_lt (by decide) n

theorem product_top (b : Nat) : product 32 top b = b := by
  have hbit : top.testBit 31 = true := by decide
  have hrest : product 31 top (shiftNat b) = 0 := product_two_pow_of_le (Nat.le_refl 31) _
  rw [product, hbit, hrest]
  exact Nat.xor_zero b

/-- After 32 shifts the top bit has just fallen out. -/
theorem iterate_top_thirtyTwo : shiftNat^[32] top = product 32 taps.toNat top := by
  decide +kernel

/-- **Shifts are multiplied by adding them up.** -/
theorem product_iterate_top (n m : Nat) :
    product 32 (shiftNat^[n] top) (shiftNat^[m] top) = shiftNat^[n + m] top := by
  -- By induction on the first factor, whose last shift is handed on to the second one.
  induction n generalizing m with
  | zero =>
    rw [Nat.zero_add]
    exact product_top _
  | succ n ih =>
    have hreturns : shiftNat^[32] (shiftNat^[m] top) =
        product 32 taps.toNat (shiftNat^[m] top) := by
      rw [← Function.iterate_add_apply, Nat.add_comm, Function.iterate_add_apply,
        iterate_top_thirtyTwo, iterate_shiftNat_product]
    rw [Function.iterate_succ_apply', product_shiftNat (iterate_top_lt n) hreturns,
      ← Function.iterate_succ_apply' shiftNat, ih, Nat.succ_add, Nat.add_succ]

/-- The state that `n` shifts of the top bit lead to, for an `n` of `k` bits. -/
def leap : (k : Nat) → (n : Nat) → Nat
  | 0, _ => top
  | k + 1, n =>
    let half := leap k (n / 2)
    let square := product 32 half half
    if n % 2 = 1 then shiftNat square else square

theorem leap_eq (h : n < 2 ^ k) : leap k n = shiftNat^[n] top := by
  induction k generalizing n with
  | zero =>
    obtain rfl : n = 0 := by omega
    rfl
  | succ k ih =>
    -- A square has been shifted twice as often, and an odd number leaves one shift to do.
    have hhalf : leap k (n / 2) = shiftNat^[n / 2] top := ih (by omega)
    unfold leap
    dsimp only
    rw [hhalf, product_iterate_top]
    split
    · rw [← Function.iterate_succ_apply' shiftNat]
      congr 1
      omega
    · congr 1
      omega

/-! ## Period -/

/-- If a state comes again after `n` steps, but not after any of the largest divisors of `n`, then it
does not come again before. -/
theorem minimalPeriod_eq_of_prime {α : Type} {f : α → α} {x : α} (returns : IsPeriodicPt f n x)
    (later : ∀ p, p.Prime → p ∣ n → ¬ IsPeriodicPt f (n / p) x) : minimalPeriod f x = n := by
  obtain ⟨q, hq⟩ := returns.minimalPeriod_dvd
  by_contra hne
  -- A prime in the quotient would leave a divisor after which the state comes again.
  have hq1 : q ≠ 1 := by
    rintro rfl
    exact hne (by omega)
  obtain ⟨p, hp, r, rfl⟩ := Nat.exists_prime_and_dvd hq1
  have hn : n = p * (minimalPeriod f x * r) := hq.trans (Nat.mul_left_comm _ _ _)
  refine later p hp ⟨_, hn⟩ ?_
  rw [hn, Nat.mul_div_cancel_left _ hp.pos]
  exact (Function.isPeriodicPt_minimalPeriod f x).mul_const r

/-- The number of states that are not zero. -/
def cycleLen : Nat := 2 ^ 32 - 1

theorem prime_dvd_cycleLen {p : Nat} (prime : p.Prime) (h : p ∣ cycleLen) :
    p = 3 ∨ p = 5 ∨ p = 17 ∨ p = 257 ∨ p = 65537 := by
  have hfactors : cycleLen = 3 * 5 * 17 * 257 * 65537 := rfl
  rw [hfactors] at h
  simp only [prime.dvd_mul] at h
  have heq {q : Nat} (hq : q.Prime) (h : p ∣ q) : p = q :=
    (Nat.prime_dvd_prime_iff_eq prime hq).mp h
  rcases h with (((h | h) | h) | h) | h
  · exact .inl (heq (by norm_num) h)
  · exact .inr (.inl (heq (by norm_num) h))
  · exact .inr (.inr (.inl (heq (by norm_num) h)))
  · exact .inr (.inr (.inr (.inl (heq (by norm_num) h))))
  · exact .inr (.inr (.inr (.inr (heq (by norm_num) h))))

theorem isPeriodicPt_top_iff (h : n < 2 ^ 32) : IsPeriodicPt shiftNat n top ↔ leap 32 n = top := by
  rw [leap_eq h]
  rfl

/-- **The top bit alone comes again when all states can have been gone through**, and not before. -/
theorem minimalPeriod_top : minimalPeriod shiftNat top = cycleLen := by
  apply minimalPeriod_eq_of_prime
  · rw [isPeriodicPt_top_iff (by decide)]
    decide +kernel
  · intro p prime divides
    -- Five numbers of shifts are left, each of them reached in 32 squarings.
    rw [isPeriodicPt_top_iff (Nat.lt_of_le_of_lt (Nat.div_le_self _ _) (by decide))]
    rcases prime_dvd_cycleLen prime divides with rfl | rfl | rfl | rfl | rfl
    all_goals decide +kernel

/-! ## One cycle -/

theorem iterate_shiftNat_ne_zero (h : a < 2 ^ 32) (nonzero : a ≠ 0) (n : Nat) :
    shiftNat^[n] a ≠ 0 := by
  induction n with
  | zero => exact nonzero
  | succ n ih =>
    rw [Function.iterate_succ_apply']
    exact shiftNat_ne_zero (iterate_shiftNat_lt h n) ih

/-- A state that does not come again before it might goes through all others meanwhile. -/
theorem image_iterate (h : a < 2 ^ 32) (nonzero : a ≠ 0)
    (period : minimalPeriod shiftNat a = cycleLen) :
    (Finset.range cycleLen).image (shiftNat^[·] a) = Finset.Ico 1 (2 ^ 32) := by
  -- The states before the period are all different, and as many as there are numbers.
  apply Finset.eq_of_subset_of_card_le
  · intro b hb
    obtain ⟨n, -, rfl⟩ := Finset.mem_image.mp hb
    rw [Finset.mem_Ico]
    exact ⟨Nat.pos_of_ne_zero (iterate_shiftNat_ne_zero h nonzero n), iterate_shiftNat_lt h n⟩
  · have hinj : Set.InjOn (shiftNat^[·] a) (Finset.range cycleLen) := by
      rw [Finset.coe_range, ← period]
      exact Function.iterate_injOn_Iio_minimalPeriod
    rw [Finset.card_image_of_injOn hinj, Finset.card_range, Nat.card_Ico]
    exact Nat.le_refl _

/-- **There is one cycle**, and every state but zero is on it. -/
theorem minimalPeriod_shiftNat (h : a < 2 ^ 32) (nonzero : a ≠ 0) :
    minimalPeriod shiftNat a = cycleLen := by
  -- The top bit alone comes to this state, which then has the same period.
  have ha : a ∈ Finset.Ico 1 (2 ^ 32) := Finset.mem_Ico.mpr ⟨Nat.pos_of_ne_zero nonzero, h⟩
  rw [← image_iterate (iterate_top_lt 0) (by decide) minimalPeriod_top, Finset.mem_image] at ha
  obtain ⟨n, -, rfl⟩ := ha
  have hreturns : top ∈ Function.periodicPts shiftNat := by
    apply Function.minimalPeriod_pos_iff_mem_periodicPts.mp
    rw [minimalPeriod_top]
    decide
  exact (Function.minimalPeriod_apply_iterate hreturns n).trans minimalPeriod_top

theorem existsUnique_iterate (h : a < 2 ^ 32) (nonzero : a ≠ 0) (hb : b < 2 ^ 32)
    (nonzero' : b ≠ 0) : ∃! n, n < cycleLen ∧ shiftNat^[n] a = b := by
  have period := minimalPeriod_shiftNat h nonzero
  have hmem : b ∈ Finset.Ico 1 (2 ^ 32) := Finset.mem_Ico.mpr ⟨Nat.pos_of_ne_zero nonzero', hb⟩
  rw [← image_iterate h nonzero period, Finset.mem_image] at hmem
  obtain ⟨n, hn, rfl⟩ := hmem
  refine ⟨n, ⟨Finset.mem_range.mp hn, rfl⟩, ?_⟩
  rintro m ⟨hm, heq⟩
  rw [← period] at hm
  rw [Finset.mem_range, ← period] at hn
  exact Function.iterate_injOn_Iio_minimalPeriod hm hn heq

/-! ## Use -/

variable {r : ShiftRegister}

theorem toNat_ne_zero {v : UInt32} (h : v ≠ 0) : v.toNat ≠ 0 :=
  fun hzero => h (UInt32.toNat_inj.mp hzero)

theorem shifts_ne_zero (h : r.state ≠ 0) (n : Nat) : (r.shifts n).state ≠ 0 := by
  intro hzero
  have hnat := congrArg UInt32.toNat hzero
  rw [toNat_shifts] at hnat
  exact iterate_shiftNat_ne_zero r.state.toNat_lt (toNat_ne_zero h) n hnat

theorem ofSeed_ne_zero (seed : UInt32) : (ofSeed seed).state ≠ 0 := by
  unfold ofSeed
  dsimp only
  split
  · decide
  · assumption

/-- Where mixing would leave nothing, the taps are put in. -/
theorem mix_ne_zero (r : ShiftRegister) (value : UInt32) : (r.mix value).state ≠ 0 := by
  unfold mix
  dsimp only
  split
  · exact shifts_ne_zero (r := ⟨taps⟩) (by decide) 1
  · rename_i h
    exact shifts_ne_zero (r := ⟨r.state ^^^ value⟩) h 1

/-- What can be done with a register. -/
inductive Use where
  | shift
  | draw
  | mix (value : UInt32)

/-- The register after it has been used. -/
def after (r : ShiftRegister) : Use → ShiftRegister
  | .shift => r.shift
  | .draw => r.draw.2
  | .mix value => r.mix value

theorem after_ne_zero (h : r.state ≠ 0) (use : Use) : (r.after use).state ≠ 0 := by
  cases use with
  | shift => exact shifts_ne_zero h 1
  | draw => exact shifts_ne_zero h 16
  | mix value => exact mix_ne_zero r value

/-- What can be relied on by who starts sequence numbers from a register. -/
structure NeverDegenerates : Prop where
  /-- The register never stands still, whatever its seed and however it is used. -/
  alive : ∀ (seed : UInt32) (uses : List Use), (uses.foldl after (ofSeed seed)).state ≠ 0
  /-- From any state that it can have, it goes through all of them. -/
  everyOnce : ∀ r : ShiftRegister, r.state ≠ 0 → ∀ v : UInt32, v ≠ 0 →
    ∃! n, n < 2 ^ 32 - 1 ∧ (r.shifts (n + 1)).state = v
  /-- Zero is not among the numbers that it goes through. -/
  neverZero : ∀ r : ShiftRegister, r.state ≠ 0 → ∀ n, (r.shifts n).state ≠ 0

/-- **The register never degenerates**: it goes through all numbers but zero, from wherever mixing has
left it. -/
theorem never_degenerates : NeverDegenerates := by
  constructor
  case alive =>
    intro seed uses
    induction uses using List.reverseRecOn with
    | nil => exact ofSeed_ne_zero seed
    | append_singleton uses use ih =>
      rw [List.foldl_append]
      exact after_ne_zero ih use
  case everyOnce =>
    intro r h v hv
    have hnext : shiftNat r.state.toNat ≠ 0 :=
      shiftNat_ne_zero r.state.toNat_lt (toNat_ne_zero h)
    have hiff (n : Nat) : (r.shifts (n + 1)).state = v ↔
        shiftNat^[n] (shiftNat r.state.toNat) = v.toNat := by
      rw [← UInt32.toNat_inj, toNat_shifts, Function.iterate_succ_apply]
    simp only [hiff]
    exact existsUnique_iterate (shiftNat_lt r.state.toNat_lt) hnext v.toNat_lt (toNat_ne_zero hv)
  case neverZero => exact fun r h => shifts_ne_zero h

end NetEngine.Tcp.ShiftRegister
