/-! # Countdowns

    Lifetimes, timeouts and ages are counts of seconds that fit an octet.  They
    run down to zero and stay there. -/

namespace NetEngine

/-- A count of seconds that runs down. -/
abbrev Countdown : Type := UInt8

/-- One second less, but never less than none. -/
def Countdown.tick (c : Countdown) : Countdown := if c = 0 then 0 else c - 1

theorem Countdown.toNat_ne_zero {c : Countdown} (h : c ≠ 0) : c.toNat ≠ 0 :=
  fun h0 => h (UInt8.toNat_inj.mp h0)

theorem Countdown.ne_zero_of_one_le {c : Countdown} (h : 1 ≤ c) : c ≠ 0 := by
  rintro rfl
  exact absurd h (by decide)

theorem Countdown.toNat_tick (c : Countdown) : (Countdown.tick c).toNat = c.toNat - 1 := by
  unfold Countdown.tick
  split
  · subst_vars; rfl
  · rename_i h
    have hc := Countdown.toNat_ne_zero h
    have := c.toNat_lt
    rw [UInt8.toNat_sub]
    simp
    omega

end NetEngine
