import Mathlib.Algebra.Order.Ring.Int
import NetEngine.Tcp.SeqNumber

/-! # Counting with Sequence Numbers

    Numbers that are reached from a common one are compared by counting.

    * **Sums**: going forward and back cancel, as for integers.
    * **Distances**: the signed distance of two numbers is the difference of
      their counts, taken into the range of half a round on either side. -/

namespace NetEngine.Tcp.SeqNumber

/-! ## Sums -/

theorem eq_of_toNat {s t : SeqNumber} (h : s.val.toNat = t.val.toNat) : s = t := by
  cases s
  cases t
  exact congrArg mk (UInt32.toNat_inj.mp h)

theorem toNat_lt (s : SeqNumber) : s.val.toNat < 2 ^ 32 := s.val.toNat_lt

theorem toNat_add (s : SeqNumber) (n : Nat) :
    (s + n).val.toNat = (s.val.toNat + n) % 2 ^ 32 := by
  show (s.val + UInt32.ofNat n).toNat = _
  rw [UInt32.toNat_add, UInt32.toNat_ofNat']
  omega

theorem toNat_sub (s : SeqNumber) (n : Nat) :
    (s - n).val.toNat = (s.val.toNat + (2 ^ 32 - n % 2 ^ 32)) % 2 ^ 32 := by
  show (s.val - UInt32.ofNat n).toNat = _
  rw [UInt32.toNat_sub, UInt32.toNat_ofNat']
  omega

@[simp] theorem add_zero (s : SeqNumber) : s + 0 = s := by
  apply eq_of_toNat
  have := s.toNat_lt
  rw [toNat_add]
  omega

theorem add_add (s : SeqNumber) (m n : Nat) : s + m + n = s + (m + n) := by
  apply eq_of_toNat
  rw [toNat_add, toNat_add, toNat_add]
  omega

/-- Going forward by two counts comes to the same number if they differ by whole rounds. -/
theorem add_eq_add_iff (s : SeqNumber) {m n : Nat} : s + m = s + n ↔ m % 2 ^ 32 = n % 2 ^ 32 := by
  have := s.toNat_lt
  constructor
  · intro h
    have hval : (s + m).val.toNat = (s + n).val.toNat := by rw [h]
    rw [toNat_add, toNat_add] at hval
    omega
  · intro h
    apply eq_of_toNat
    rw [toNat_add, toNat_add]
    omega

@[simp] theorem add_sub_cancel (s : SeqNumber) (n : Nat) : s + n - n = s := by
  apply eq_of_toNat
  have := s.toNat_lt
  rw [toNat_sub, toNat_add]
  omega

@[simp] theorem sub_add_cancel (s : SeqNumber) (n : Nat) : s - n + n = s := by
  apply eq_of_toNat
  have := s.toNat_lt
  rw [toNat_add, toNat_sub]
  omega

/-- Going forward by `m` and back by less comes out in front. -/
theorem add_sub_of_le (s : SeqNumber) {m n : Nat} (h : n ≤ m) : s + m - n = s + (m - n) := by
  obtain ⟨k, rfl⟩ := Nat.exists_eq_add_of_le' h
  rw [← add_add, add_sub_cancel, Nat.add_sub_cancel]

/-- Going forward by `m` and back by more comes out behind. -/
theorem add_sub_of_ge (s : SeqNumber) {m n : Nat} (h : m ≤ n) : s + m - n = s - (n - m) := by
  apply eq_of_toNat
  have := s.toNat_lt
  rw [toNat_sub, toNat_add, toNat_sub]
  omega

/-! ## Distances -/

theorem distance_eq_bmod (s t : SeqNumber) :
    s.distance t = Int.bmod (s.val.toNat - t.val.toNat) (2 ^ 32) := by
  have hs := s.toNat_lt
  have ht := t.toNat_lt
  unfold distance signed
  -- To read the difference as signed is to take it into the range around zero.
  rw [BitVec.toInt_eq_toNat_bmod, UInt32.toNat_toBitVec, UInt32.toNat_sub]
  simp only [Int.bmod]
  omega

theorem distance_lt (s t : SeqNumber) : s.distance t < 2 ^ 31 := by
  rw [distance_eq_bmod]
  simp only [Int.bmod]
  omega

theorem le_distance (s t : SeqNumber) : -2 ^ 31 ≤ s.distance t := by
  rw [distance_eq_bmod]
  simp only [Int.bmod]
  omega

theorem distance_add (s t : SeqNumber) (n : Nat) :
    (s + n).distance t = Int.bmod (s.distance t + n) (2 ^ 32) := by
  rw [distance_eq_bmod, distance_eq_bmod, toNat_add]
  simp only [Int.bmod]
  omega

theorem distance_sub (s t : SeqNumber) (n : Nat) :
    (s - n).distance t = Int.bmod (s.distance t - n) (2 ^ 32) := by
  rw [distance_eq_bmod, distance_eq_bmod, toNat_sub]
  simp only [Int.bmod]
  omega

/-- Two numbers that are reached from `b` are as far apart as they are counted, as long as that is
less than half a round. -/
theorem distance_add_add (b : SeqNumber) {i k : Nat} (hlo : -2 ^ 31 ≤ (i : Int) - k)
    (hhi : (i : Int) - k < 2 ^ 31) : (b + i).distance (b + k) = i - k := by
  rw [distance_eq_bmod, toNat_add, toNat_add]
  simp only [Int.bmod]
  omega

/-- A number is as far from an earlier one as it has been taken back to it. -/
theorem distance_sub_self (s : SeqNumber) {n : Nat} (h : n < 2 ^ 31) : s.distance (s - n) = n := by
  have := s.toNat_lt
  rw [distance_eq_bmod, toNat_sub]
  simp only [Int.bmod]
  omega

/-- A number is as far from a later one as it has been taken forward to it. -/
theorem distance_add_self (s : SeqNumber) {n : Nat} (h : n < 2 ^ 31) : (s + n).distance s = n := by
  have := s.toNat_lt
  rw [distance_eq_bmod, toNat_add]
  simp only [Int.bmod]
  omega

/-- Of two numbers only one is later than the other. -/
theorem not_distance_pos {s t : SeqNumber} (h : 0 ≤ s.distance t) : ¬ 0 < t.distance s := by
  have hs := s.toNat_lt
  have ht := t.toNat_lt
  rw [distance_eq_bmod] at h ⊢
  simp only [Int.bmod] at h ⊢
  omega

/-- No number lies between two that follow each other. -/
theorem eq_of_distance_pos {s t : SeqNumber} (h : 0 < s.distance (t - 1))
    (h' : ¬ 0 < s.distance t) : s = t := by
  apply eq_of_toNat
  have hs := s.toNat_lt
  have ht := t.toNat_lt
  rw [distance_eq_bmod] at h h'
  rw [toNat_sub] at h
  simp only [Int.bmod] at h h'
  omega

/-- A number that is not earlier is reached in as many steps as the distance tells. -/
theorem add_toNat_distance {s t : SeqNumber} (h : 0 ≤ s.distance t) :
    t + (s.distance t).toNat = s := by
  apply eq_of_toNat
  have hs := s.toNat_lt
  have ht := t.toNat_lt
  rw [distance_eq_bmod] at h ⊢
  rw [toNat_add]
  simp only [Int.bmod] at h ⊢
  omega

/-- A number that is later than `s`, and not later than the one `d` places behind it, is one of those
in between. -/
theorem exists_add_of_between {s a : SeqNumber} {d : Nat} (small : d < 2 ^ 31)
    (later : 0 < a.distance s) (within : 0 ≤ (s + d).distance a) : ∃ i ≤ d, a = s + i := by
  have hlt := distance_lt a s
  have heq : s + (a.distance s).toNat = a := add_toNat_distance (Int.le_of_lt later)
  refine ⟨(a.distance s).toNat, ?_, heq.symm⟩
  have hdistance : (s + d).distance a = d - (a.distance s).toNat := by
    rw [← heq, distance_add_add s (by omega) (by omega), heq]
  omega

/-- A number that is not later than `s`, while the one `d` places behind `s` is not earlier, is not
later than those in between. -/
theorem not_distance_pos_add {s a : SeqNumber} {d f : Nat} (hf : f ≤ d) (small : d < 2 ^ 31)
    (before : ¬ 0 < a.distance s) (within : 0 ≤ (s + d).distance a) :
    ¬ 0 < a.distance (s + f) := by
  have hs := s.toNat_lt
  have ha := a.toNat_lt
  rw [distance_eq_bmod] at before within ⊢
  rw [toNat_add] at within ⊢
  simp only [Int.bmod] at before within ⊢
  omega

end NetEngine.Tcp.SeqNumber
