import Mathlib.Algebra.GroupWithZero.Nat
import NetEngine.Clock

/-! # What a Clock Has Counted

    A clock shows how often its timer has fired: the whole seconds as far as 32 bits
    tell, and the interrupts since the last one.

    * **Seconds**: one interrupt ends a second or falls within it.
    * **Shows**: what a clock shows after `n` interrupts.  One interrupt takes this
      from `n` to `n + 1`, also where it ends a second or the seconds go round, so
      that the clock does not drift. -/

namespace NetEngine

/-! ## Seconds -/

/-- The interrupts per second at a given rate. -/
def perSecond (rate : UInt16) : Nat := max 1 rate.toNat

/-- The whole seconds in the first `n` interrupts. -/
def secondsIn (rate : UInt16) (n : Nat) : Nat := n / perSecond rate

section Seconds

variable {rate : UInt16} {n : Nat}

theorem perSecond_pos (rate : UInt16) : 0 < perSecond rate := by
  unfold perSecond
  omega

theorem secondsIn_succ_within (within : n % perSecond rate + 1 < perSecond rate) :
    secondsIn rate (n + 1) = secondsIn rate n ∧
      (n + 1) % perSecond rate = n % perSecond rate + 1 := by
  refine (Nat.div_mod_unique (perSecond_pos rate)).mpr ⟨?_, within⟩
  have hn := Nat.mod_add_div n (perSecond rate)
  unfold secondsIn
  omega

theorem secondsIn_succ_last (last : ¬ n % perSecond rate + 1 < perSecond rate) :
    secondsIn rate (n + 1) = secondsIn rate n + 1 ∧ (n + 1) % perSecond rate = 0 := by
  have hpos := perSecond_pos rate
  refine (Nat.div_mod_unique hpos).mpr ⟨?_, hpos⟩
  have hn := Nat.mod_add_div n (perSecond rate)
  have hmod := Nat.mod_lt n hpos
  unfold secondsIn
  rw [Nat.mul_succ]
  omega

theorem secondsIn_mono (rate : UInt16) {m n : Nat} (h : m ≤ n) :
    secondsIn rate m ≤ secondsIn rate n := Nat.div_le_div_right h

/-- Not more seconds end in a stretch than it has interrupts. -/
theorem secondsIn_add_le (rate : UInt16) (n stretch : Nat) :
    secondsIn rate (n + stretch) ≤ secondsIn rate n + stretch := by
  induction stretch with
  | zero => exact Nat.le_refl _
  | succ stretch ih =>
    rw [← Nat.add_assoc]
    by_cases h : (n + stretch) % perSecond rate + 1 < perSecond rate
    · rw [(secondsIn_succ_within h).1]
      omega
    · rw [(secondsIn_succ_last h).1]
      omega

end Seconds

namespace Clock

variable {rate : UInt16} {n : Nat} {c : Clock}

/-! ## What a clock shows -/

/-- A clock of a given rate shows `n` interrupts. -/
structure Shows (rate : UInt16) (n : Nat) (c : Clock) : Prop where
  perSecond : c.rate = perSecond rate
  subsecond : c.subsecond = n % NetEngine.perSecond rate
  /-- The count of seconds goes round. -/
  seconds : c.seconds.toNat = secondsIn rate n % 2 ^ 32

theorem shows_ofRate (rate : UInt16) : Shows rate 0 (ofRate rate) := by
  refine ⟨rfl, (Nat.zero_mod _).symm, ?_⟩
  unfold secondsIn
  rw [Nat.zero_div]
  rfl

namespace Shows

/-- **An interrupt is counted once**, whether it ends a second or not. -/
theorem interrupt (shows : Shows rate n c) : Shows rate (n + 1) c.interrupt := by
  obtain ⟨hrate, hsub, hseconds⟩ := shows
  unfold Clock.interrupt
  split
  case isTrue within =>
    rw [hsub, hrate] at within
    obtain ⟨hsame, hnext⟩ := secondsIn_succ_within within
    refine ⟨hrate, ?_, ?_⟩
    · rw [hnext, ← hsub]
    · rw [hsame, ← hseconds]
  case isFalse last =>
    rw [hsub, hrate] at last
    obtain ⟨hnext, hzero⟩ := secondsIn_succ_last last
    refine ⟨hrate, hzero.symm, ?_⟩
    show (c.seconds + 1).toNat = _
    rw [UInt32.toNat_add, hseconds, hnext]
    exact Nat.mod_add_mod _ _ _

/-- A run of interrupts is counted from any of them on. -/
theorem interrupts (shows : Shows rate n c) (k : Nat) : Shows rate (n + k) (c.interrupts k) := by
  induction k generalizing n c with
  | zero => exact shows
  | succ k ih =>
    have h := ih shows.interrupt
    rwa [Nat.add_right_comm] at h

theorem seconds_eq (shows : Shows rate n c) : c.seconds = UInt32.ofNat (secondsIn rate n) := by
  apply UInt32.toNat_inj.mp
  rw [shows.seconds, UInt32.toNat_ofNat']

/-- The count of interrupts goes round together with the count of seconds. -/
theorem ticks_eq (shows : Shows rate n c) : c.ticks = n % (2 ^ 32 * NetEngine.perSecond rate) := by
  obtain ⟨hrate, hsub, hseconds⟩ := shows
  unfold ticks
  rw [hrate, hsub, hseconds, Nat.mul_comm (2 ^ 32), Nat.mod_mul, Nat.mul_comm, Nat.add_comm]
  rfl

/-- Before the seconds go round the clock shows all interrupts. -/
theorem ticks_of_lt (shows : Shows rate n c) (early : secondsIn rate n < 2 ^ 32) : c.ticks = n := by
  rw [shows.ticks_eq]
  apply Nat.mod_eq_of_lt
  exact (Nat.div_lt_iff_lt_mul (perSecond_pos rate)).mp early

end Shows

/-- What a clock shows after so many interrupts. -/
theorem shows_interrupts (rate : UInt16) (n : Nat) : Shows rate n ((ofRate rate).interrupts n) := by
  have h := (shows_ofRate rate).interrupts n
  rwa [Nat.zero_add] at h

end Clock

end NetEngine
