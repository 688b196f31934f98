import NetEngine.Proofs.Link.Checking
import NetEngine.Proofs.Udp.Header

/-! # Flipped Bits Are Detected

    A bit of an octet is worth a power of two in the word sum, 32768 at most.
    No two numbers that are so little apart both stand for all ones, so a packet
    that is intact is no longer intact when one of its bits is flipped.

    * **Weight**: what an octet counts in a word sum, and what a flipped bit
      changes.
    * **Protection**: how a kind of packet uses its checksum.  One that is written
      is found correct, and one that was found correct is no longer so after a bit
      was flipped. -/

namespace NetEngine

open Checksum (Same AllOnes wordSum)

/-! ## One bit of a string -/

/-- The string with one bit of the octet at index `i` turned over, the least significant bit being
bit zero. -/
def flipBit (b : Bytes) (i : Nat) (bit : Fin 8) : Bytes :=
  b.set i (byteAt b i ^^^ UInt8.ofNat (2 ^ bit.val))

variable {b : Bytes} {i j : Nat} {bit : Fin 8}

@[simp] theorem length_flipBit : (flipBit b i bit).length = b.length := by
  simp [flipBit]

theorem byteAt_flipBit_of_ne (h : j ≠ i) : byteAt (flipBit b i bit) j = byteAt b j :=
  byteAt_set_of_ne b h _

theorem wordAt_flipBit_of_ne (h : j ≠ i) (h' : j + 1 ≠ i) :
    wordAt (flipBit b i bit) j = wordAt b j := by
  unfold wordAt
  rw [byteAt_flipBit_of_ne h, byteAt_flipBit_of_ne h']

theorem take_flipBit (b : Bytes) (i : Nat) (bit : Fin 8) {n : Nat} (h : i < n) :
    (flipBit b i bit).take n = flipBit (b.take n) i bit := by
  unfold flipBit
  rw [List.take_set, byteAt_take_of_lt b h]

/-- A bit above the low four leaves the low four as they are. -/
theorem toNat_xor_high (o : UInt8) (high : 4 ≤ bit.val) :
    (o ^^^ UInt8.ofNat (2 ^ bit.val)).toNat % 16 = o.toNat % 16 := by
  have hall : ∀ n < 256, ∀ bit : Fin 8, 4 ≤ bit.val → (n ^^^ 2 ^ bit.val) % 16 = n % 16 := by
    decide +kernel
  have hbit : 2 ^ bit.val < 256 := Nat.pow_lt_pow_right (by decide) bit.isLt
  rw [UInt8.toNat_xor, UInt8.toNat_ofNat_of_lt' hbit]
  exact hall _ o.toNat_lt bit high

/-- A flipped bit moves the value of an octet up or down by what the bit is worth. -/
theorem toNat_xor_bit (o : UInt8) (bit : Fin 8) :
    (o ^^^ UInt8.ofNat (2 ^ bit.val)).toNat = o.toNat + 2 ^ bit.val ∨
      (o ^^^ UInt8.ofNat (2 ^ bit.val)).toNat + 2 ^ bit.val = o.toNat := by
  have hall : ∀ n < 256, ∀ bit : Fin 8,
      n ^^^ 2 ^ bit.val = n + 2 ^ bit.val ∨ (n ^^^ 2 ^ bit.val) + 2 ^ bit.val = n := by
    decide +kernel
  have hbit : 2 ^ bit.val < 256 := Nat.pow_lt_pow_right (by decide) bit.isLt
  rw [UInt8.toNat_xor, UInt8.toNat_ofNat_of_lt' hbit]
  exact hall _ o.toNat_lt bit

namespace Checksum

/-! ## What an octet counts -/

/-- What an octet counts in a word sum: it is the high or the low half of a word. -/
def weight (i : Nat) : Nat := if i % 2 = 0 then 256 else 1

/-- An octet that is replaced takes its share of the word sum with it. -/
theorem wordSum_set (b : Bytes) {i : Nat} (within : i < b.length) (o : UInt8) :
    wordSum (b.set i o) + (byteAt b i).toNat * weight i = wordSum b + o.toNat * weight i := by
  induction b using wordSum.induct generalizing i with
  | case1 => simp at within
  | case2 high =>
    have hi : i = 0 := by
      simp at within
      exact within
    subst hi
    simp [wordSum, weight, byteAt, Nat.add_comm]
  | case3 high low rest ih =>
    -- The first two places make up the first word, and the others belong to the rest.
    rcases i with _ | _ | i
    · simp [wordSum, weight, byteAt, toNat_word]
      omega
    · simp [wordSum, weight, byteAt, toNat_word]
      omega
    · have hrest : i < rest.length := by
        simp at within
        exact within
      have hweight : weight (i + 2) = weight i := by simp [weight]
      have hbyte : byteAt (high :: low :: rest) (i + 2) = byteAt rest i := by simp [byteAt]
      have := ih hrest
      rw [hweight, hbyte]
      simp only [List.set_cons_succ, wordSum]
      omega

/-- **A flipped bit moves a word sum by less than a whole turn.** -/
theorem wordSum_flipBit (bit : Fin 8) (within : i < b.length) :
    ∃ d, 0 < d ∧ d < 65535 ∧
      (wordSum (flipBit b i bit) = wordSum b + d ∨ wordSum (flipBit b i bit) + d = wordSum b) := by
  have hset := wordSum_set b within (byteAt b i ^^^ UInt8.ofNat (2 ^ bit.val))
  have hpos : 0 < 2 ^ bit.val := Nat.two_pow_pos _
  have hbit : 2 ^ bit.val ≤ 128 := Nat.pow_le_pow_right (by decide) (by omega : bit.val ≤ 7)
  have hmoved := toNat_xor_bit (byteAt b i) bit
  have hweight : weight i = 256 ∨ weight i = 1 := by
    unfold weight
    split <;> simp
  refine ⟨2 ^ bit.val * weight i, ?_, ?_, ?_⟩
  · rcases hweight with h | h <;> rw [h] <;> omega
  · rcases hweight with h | h <;> rw [h] <;> omega
  · unfold flipBit
    rcases hweight with h | h <;> rw [h] at hset ⊢ <;> omega

/-- **A sum that stands for all ones does so no longer when a bit is flipped**, whatever is added to
the words. -/
theorem not_allOnes_flipBit {n : Nat} (bit : Fin 8) (within : i < b.length)
    (intact : AllOnes (n + wordSum b)) : ¬ AllOnes (n + wordSum (flipBit b i bit)) := by
  obtain ⟨d, hpos, hlt, hmoved⟩ := wordSum_flipBit bit within
  obtain ⟨hmod, hzero⟩ := intact
  intro hflipped
  obtain ⟨hmod', hzero'⟩ := hflipped
  omega

theorem isIntact_flipBit (within : i < b.length) (intact : isIntact b) :
    isIntact (flipBit b i bit) = false := by
  have hones : AllOnes (0 + wordSum b) := by
    rw [Nat.zero_add]
    exact (isIntact_iff b).mp intact
  have hflipped := not_allOnes_flipBit bit within hones
  rw [Nat.zero_add, ← isIntact_iff] at hflipped
  exact Bool.not_eq_true _ ▸ hflipped

/-! ## Protection -/

/-- How a kind of packet uses its checksum. -/
structure Protection where
  /-- Write the checksum. -/
  fill : Bytes → Bytes
  /-- Is the checksum correct? -/
  verify : Bytes → Except PacketError Bool
  /-- The packets that a checksum can be written into. -/
  fills : Bytes → Prop
  /-- The bits that the checksum of a packet covers, by octet and bit. -/
  covers : Bytes → Nat → Fin 8 → Prop

/-- A checksum does what it is for. -/
structure Protection.Holds (c : Protection) : Prop where
  /-- A checksum that has been written is found correct. -/
  filled : ∀ p, c.fills p → c.verify (c.fill p) = .ok true
  /-- Where a checksum was found correct, it is found wrong after one bit was flipped. -/
  flipped : ∀ p, c.verify p = .ok true → ∀ i bit, c.covers p i bit →
    c.verify (flipBit p i bit) = .ok false

end Checksum

open Checksum (Protection)

/-- What has been read was there. -/
theorem eq_take_of_leading? {covered : Bytes} {n : Nat} (h : leading? b n = some covered) :
    n ≤ b.length ∧ covered = b.take n := by
  unfold leading? at h
  by_cases there : n ≤ b.length
  · rw [if_pos there] at h
    exact ⟨there, (Option.some.inj h).symm⟩
  · rw [if_neg there] at h
    cases h

/-- A flipped bit of octets that are read is read. -/
theorem leading?_flipBit {covered : Bytes} {n : Nat} (h : leading? b n = some covered)
    (within : i < n) : leading? (flipBit b i bit) n = some (flipBit covered i bit) := by
  obtain ⟨there, rfl⟩ := eq_take_of_leading? h
  unfold leading?
  rw [length_flipBit, if_pos there, take_flipBit b i bit within]

namespace Ipv4.View

/-- The checksum of a header covers all of it, options included, but for the low half of the first
octet: it tells how long the header is.  It is written over a header that is there as a whole, and
nothing is asked of the datagram behind it. -/
def protection : Protection where
  fill := fillChecksum
  verify p := .ok (verifyChecksum p)
  fills p := Ipv4.headerLen ≤ headerLen p ∧ headerLen p ≤ p.length
  covers p i bit := i < (header p).length ∧ (i = 0 → 4 ≤ bit.val)

variable {p : View}

/-- Where a bit beside the header length is flipped, the header keeps its length. -/
theorem header_flipBit (within : i < p.header.length) (beside : i = 0 → 4 ≤ bit.val) :
    View.header (flipBit p i bit) = flipBit p.header i bit := by
  unfold header at within
  rw [List.length_take] at within
  have hlen : View.headerLen (flipBit p i bit) = p.headerLen := by
    unfold headerLen
    by_cases hfirst : i = 0
    · subst hfirst
      have hbyte : byteAt (flipBit p 0 bit) 0 = byteAt p 0 ^^^ UInt8.ofNat (2 ^ bit.val) := by
        have hsome : 0 < p.length := by omega
        simp [flipBit, byteAt, hsome]
      rw [hbyte, toNat_xor_high _ (beside rfl)]
    · rw [byteAt_flipBit_of_ne (Ne.symm hfirst)]
  unfold header
  rw [hlen, take_flipBit p i bit (by omega)]

theorem protection_holds : protection.Holds := by
  constructor
  case filled =>
    intro p ⟨long, there⟩
    exact congrArg Except.ok (verifyChecksum_fillChecksum long there)
  case flipped =>
    intro p verified i bit ⟨within, beside⟩
    have hintact : Checksum.isIntact (header p) := Except.ok.inj verified
    show Except.ok (Checksum.isIntact (View.header (flipBit p i bit))) = _
    rw [header_flipBit within beside, Checksum.isIntact_flipBit within hintact]

end Ipv4.View

namespace Icmp.View

/-- The checksum of a message covers all of it. -/
def protection : Protection where
  fill := fillChecksum
  verify m := .ok (verifyChecksum m)
  fills m := check m = .ok ()
  covers m i _ := i < m.length

theorem protection_holds : protection.Holds := by
  constructor
  case filled =>
    intro m checked
    have hlong : 2 + 1 < m.length := by
      unfold protection check headerLen at checked
      grind
    exact congrArg Except.ok (Checksum.isIntact_fillAt (by decide) hlong)
  case flipped =>
    intro m verified i bit within
    exact congrArg Except.ok (Checksum.isIntact_flipBit within (Except.ok.inj verified))

end Icmp.View

namespace Udp.View

variable (src dst : Ipv4Address)

/-- The checksum of a user datagram that has one covers all of it, but for the length, which tells
what is covered, and the checksum itself, which would be none if it were zero.  It is written over
what is at hand, which has to be the whole datagram. -/
def protection : Protection where
  fill p := fillChecksum p src dst
  verify p := verifyChecksum p src dst
  fills p := check p = .ok () ∧ (lenField p).toNat ≤ p.length
  covers p i _ := checksum p ≠ 0 ∧ i < (lenField p).toNat ∧ (i < 4 ∨ 8 ≤ i)

/-- A user datagram that has a checksum is correct where it is there as a whole and sums to all
ones. -/
theorem verifyChecksum_eq_true_iff {p : View} (summed : p.checksum ≠ 0) :
    p.verifyChecksum src dst = .ok true ↔ ∃ covered, leading? p p.lenField.toNat = some covered ∧
      AllOnes ((Ipv4.pseudoHeader src dst .udp p.lenField).toNat + wordSum covered) := by
  unfold verifyChecksum
  rw [if_neg summed]
  cases leading? p p.lenField.toNat with
  | none => simp
  | some covered => simp [Checksum.eq_ones_iff (same_sum p src dst covered)]

theorem protection_holds : (protection src dst).Holds := by
  constructor
  case filled =>
    intro p ⟨checked, there⟩
    exact verifyChecksum_fillChecksum p src dst (check_eq_ok checked).2 there
  case flipped =>
    intro p verified i bit ⟨summed, within, beside⟩
    obtain ⟨covered, hcovered, hones⟩ := (verifyChecksum_eq_true_iff src dst summed).mp verified
    have hchecksum : checksum (flipBit p i bit) = checksum p :=
      wordAt_flipBit_of_ne (by omega) (by omega)
    have hlen : lenField (flipBit p i bit) = lenField p :=
      wordAt_flipBit_of_ne (by omega) (by omega)
    have hlong : i < covered.length := by
      obtain ⟨there, rfl⟩ := eq_take_of_leading? hcovered
      rw [List.length_take]
      omega
    have hflipped := Checksum.not_allOnes_flipBit bit hlong hones
    show verifyChecksum (flipBit p i bit) src dst = _
    unfold verifyChecksum
    rw [hchecksum, if_neg summed, hlen, leading?_flipBit hcovered within]
    simp [Checksum.eq_ones_iff (same_sum _ src dst _), hlen, hflipped]

end Udp.View

namespace Tcp.View

variable (src dst : Ipv4Address) (len : Nat)

/-- The checksum of a segment covers all of it.  How long it is, is told by the datagram that carries
it; other octets may follow. -/
def protection : Protection where
  fill p := fillChecksum p src dst
  verify p := verifyChecksum p src dst len
  fills p := Tcp.headerLen ≤ p.length ∧ p.length = len
  covers _ i _ := i < len

theorem protection_holds : (protection src dst len).Holds := by
  constructor
  case filled =>
    intro p ⟨long, whole⟩
    have hlen : (fillChecksum p src dst).length = len := by
      simp [fillChecksum, whole]
    unfold Tcp.headerLen at long
    show verifyChecksum (fillChecksum p src dst) src dst len = _
    rw [← hlen, verifyChecksum_whole]
    simp [sum_fillChecksum src dst (by omega : 18 ≤ p.length)]
  case flipped =>
    intro p verified i bit within
    unfold protection verifyChecksum at verified ⊢
    dsimp only at verified ⊢
    cases hcovered : leading? p len with
    | none => simp [hcovered] at verified
    | some covered =>
      obtain ⟨there, rfl⟩ := eq_take_of_leading? hcovered
      have hlong : i < (p.take len).length := by
        rw [List.length_take]
        exact Nat.lt_min.mpr ⟨within, Nat.lt_of_lt_of_le within there⟩
      simp only [hcovered, Except.ok.injEq, decide_eq_true_iff] at verified
      rw [Checksum.eq_ones_iff (same_sum src dst _)] at verified
      have hflipped := Checksum.not_allOnes_flipBit bit hlong verified
      rw [leading?_flipBit hcovered within]
      simp only [Except.ok.injEq, decide_eq_false_iff_not]
      rw [Checksum.eq_ones_iff (same_sum src dst _), length_flipBit]
      exact hflipped

end Tcp.View

namespace Checksum

/-- **Every checksum that is written is found correct, and every flipped bit that it covers is
found**, for all contents, lengths and addresses. -/
theorem protections_hold (src dst : Ipv4Address) :
    Ipv4.View.protection.Holds ∧ Icmp.View.protection.Holds ∧
      (Udp.View.protection src dst).Holds ∧ ∀ len, (Tcp.View.protection src dst len).Holds :=
  ⟨Ipv4.View.protection_holds, Icmp.View.protection_holds, Udp.View.protection_holds src dst,
    Tcp.View.protection_holds src dst⟩

/-- A flipped bit of the header length may be missed: a header of 24 octets becomes one of 28, and the
four that it takes in make up for the bit. -/
example : let p : Bytes := [0x46, 0, 0xb9, 0xff] ++ List.replicate 20 0 ++ [0xfe, 0xff, 0, 0]
    Ipv4.View.verifyChecksum p ∧ Ipv4.View.verifyChecksum (flipBit p 0 0) := by
  decide

end Checksum

end NetEngine
