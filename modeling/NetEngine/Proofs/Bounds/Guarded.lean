import NetEngine.Arp.Packet

/-! # Guarded Access

    Reads are total: an octet past the end reads as zero, and a part that is too long
    is cut.  Nobody should rely on that.  Here every access is guarded, and a
    computation that reaches outside the octets it has been given comes to no result
    at all.

    * **Guarded**: what such a computation is, and how it agrees with one that is not
      guarded.
    * **Access**: fields, parts, differences of lengths, and writing in place. -/

namespace NetEngine

variable {α β : Type}

/-- A computation that may refuse a packet, and has no result where it reaches outside. -/
abbrev Guarded : Type → Type := ExceptT PacketError Option

namespace Guarded

/-! ## Guarded -/

/-- What is found without any access. -/
def of (r : Except PacketError α) : Guarded α := ExceptT.mk (some r)

/-- Go on only if `p` holds. -/
def require (p : Prop) [Decidable p] : Guarded Unit := if p then pure () else ExceptT.mk none

/-- A guard lets through what holds, and nothing else. -/
theorem require_eq_pure_iff {p : Prop} [Decidable p] : require p = pure () ↔ p := by
  unfold require
  by_cases h : p
  · simp [h]
  · rw [if_neg h]
    simp only [h, iff_false]
    intro hnothing
    cases hnothing

@[simp] theorem of_ok (a : α) : of (.ok a) = pure a := rfl

@[simp] theorem of_error (err : PacketError) : (of (.error err) : Guarded α) = throw err := rfl

theorem of_bind (x : Except PacketError α) (f : α → Except PacketError β) :
    of (x >>= f) = of x >>= fun a => of (f a) := by
  cases x <;> rfl

theorem of_ite (p : Prop) [Decidable p] (x y : Except PacketError α) :
    of (if p then x else y) = if p then of x else of y := apply_ite of p x y

/-- What follows a step that may refuse need agree only where it does not. -/
theorem of_bind_congr {x : Except PacketError α} {f : α → Guarded β}
    {g : α → Except PacketError β} (same : ∀ a, x = .ok a → f a = of (g a)) :
    of x >>= f = of (x >>= g) := by
  cases x with
  | error err => rfl
  | ok a => exact same a rfl

/-- Go on with what `x` tells, or else with `refused` if it refuses the packet. -/
def settle (x : Guarded α) (refused : β) (go : α → Guarded β) : Guarded β := ExceptT.mk do
  match ← x.run with
  | .error _ => return .ok refused
  | .ok a => (go a).run

@[simp] theorem settle_error (err : PacketError) (refused : β) (go : α → Guarded β) :
    settle (of (.error err)) refused go = pure refused := rfl

@[simp] theorem settle_ok (a : α) (refused : β) (go : α → Guarded β) :
    settle (of (.ok a)) refused go = go a := rfl

/-! ## Access -/

/-- The field of `n` octets at index `i`, as `read` tells it. -/
def field? (b : Bytes) (i n : Nat) (read : Bytes → Nat → α) : Guarded α := do
  require (i + n ≤ b.length)
  return read b i

/-- The octets from index `i` on. -/
def from? (b : Bytes) (i : Nat) : Guarded Bytes := do
  require (i ≤ b.length)
  return b.drop i

/-- The first `n` octets. -/
def upTo? (b : Bytes) (n : Nat) : Guarded Bytes := do
  require (n ≤ b.length)
  return b.take n

/-- The octets from index `i` to index `j`. -/
def between? (b : Bytes) (i j : Nat) : Guarded Bytes := do
  require (i ≤ j ∧ j ≤ b.length)
  return slice b i (j - i)

/-- What is left of a length when `n` is taken away. -/
def minus? (m n : Nat) : Guarded Nat := do
  require (n ≤ m)
  return m - n

/-- Write over the octets from index `i` on. -/
def write? (b : Bytes) (i : Nat) (new : Bytes) : Guarded Bytes := do
  require (i + new.length ≤ b.length)
  return overwriteAt b i new

/-- Change the octets from index `i` to index `j` in place. -/
def inPlace? (b : Bytes) (i j : Nat) (change : Bytes → Guarded Bytes) : Guarded Bytes := do
  let part ← between? b i j
  let changed ← change part
  return b.take i ++ (changed ++ b.drop j)

section

variable {b new : Bytes} {i j m n : Nat}

theorem field?_of_le (inside : i + n ≤ b.length) (read : Bytes → Nat → α) :
    field? b i n read = pure (read b i) := by
  unfold field?
  rw [require_eq_pure_iff.mpr inside, pure_bind]

theorem from?_of_le (inside : i ≤ b.length) : from? b i = pure (b.drop i) := by
  unfold from?
  rw [require_eq_pure_iff.mpr inside, pure_bind]

theorem upTo?_of_le (inside : n ≤ b.length) : upTo? b n = pure (b.take n) := by
  unfold upTo?
  rw [require_eq_pure_iff.mpr inside, pure_bind]

theorem between?_of_le (ordered : i ≤ j) (inside : j ≤ b.length) :
    between? b i j = pure (slice b i (j - i)) := by
  unfold between?
  rw [require_eq_pure_iff.mpr ⟨ordered, inside⟩, pure_bind]

theorem minus?_of_le (less : n ≤ m) : minus? m n = pure (m - n) := by
  unfold minus?
  rw [require_eq_pure_iff.mpr less, pure_bind]

theorem write?_of_le (inside : i + new.length ≤ b.length) :
    write? b i new = pure (overwriteAt b i new) := by
  unfold write?
  rw [require_eq_pure_iff.mpr inside, pure_bind]

/-- A part that is changed stands between what was in front of it and what was behind it. -/
theorem inPlace?_append {front part : Bytes} {change : Bytes → Guarded Bytes} (back : Bytes)
    (start : front.length = i) (finish : front.length + part.length = j)
    (changed : change part = pure new) :
    inPlace? (front ++ (part ++ back)) i j change = pure (front ++ (new ++ back)) := by
  subst start finish
  have hpart : slice (front ++ (part ++ back)) front.length
      (front.length + part.length - front.length) = part := by
    unfold slice
    rw [List.drop_left, Nat.add_sub_cancel_left, List.take_left]
  have hback : (front ++ (part ++ back)).drop (front.length + part.length) = back := by
    rw [← List.drop_drop, List.drop_left, List.drop_left]
  unfold inPlace?
  rw [between?_of_le (by omega) (by simp), pure_bind, hpart, changed, pure_bind, List.take_left,
    hback]

end

end Guarded

end NetEngine
