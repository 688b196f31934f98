import Mathlib.Algebra.Order.Group.Multiset
import Mathlib.Data.Multiset.Filter
import NetEngine.Tcp.Pool

/-! # What Is Pending for a Role

    The roles share the pool, but each segment that is tracked belongs to one of
    them.  **Pending** is what is tracked of a segment, but for its timer; slots
    and timers do not matter to it.

    The lemmas tell what each operation of the pool does to what is pending for
    a role, and that it leaves the other role alone. -/

namespace NetEngine.Tcp

/-! ## What is pending -/

/-- What is tracked of a segment, but for its timer. -/
structure Pending where
  /-- The number of its last octet. -/
  lastByte : SeqNumber
  kept : Kept

/-- What is tracked of a segment that takes `len` places from `seq` on. -/
def Pending.of (seq : SeqNumber) (len : Nat) (kept : Kept) : Pending := ⟨seq + (len - 1), kept⟩

/-- Does an acknowledgment number cover the whole segment? -/
def Pending.isCoveredBy (x : Pending) (ack : SeqNumber) : Bool := 0 < ack.distance x.lastByte

def Tracked.pending (e : Tracked) : Pending := ⟨e.lastByte, e.kept⟩

/-- What the content of a slot holds for a role. -/
def pendingIn (role : Role) (cell : Option Tracked) : Option Pending :=
  cell.bind fun e => if e.role = role then some e.pending else none

/-- What is pending for a role. -/
def Pool.pendingOf (p : Pool) (role : Role) : Multiset Pending :=
  ↑(p.cells.filterMap (pendingIn role))

namespace Pool

variable {p : Pool} {role : Role}

/-- What is pending for a role are its tracked segments without their timers. -/
theorem pendingOf_eq_map (p : Pool) (role : Role) :
    p.pendingOf role = ↑((p.toList.filter (·.role = role)).map Tracked.pending) := by
  unfold pendingOf Slots.toList
  congr 1
  induction p.cells with
  | nil => rfl
  | cons cell cells ih =>
    cases cell with
    | none => exact ih
    | some e => by_cases he : e.role = role <;> simp [pendingIn, he, ih]

/-- As many segments are tracked for a role as are pending. -/
theorem countOf_eq_card (p : Pool) (role : Role) : p.countOf role = (p.pendingOf role).card := by
  rw [pendingOf_eq_map, Multiset.coe_card, List.length_map]
  rfl

theorem mem_pendingOf {x : Pending} :
    x ∈ p.pendingOf role ↔ ∃ e ∈ p.toList, e.role = role ∧ e.pending = x := by
  rw [pendingOf_eq_map]
  simp [and_assoc]

@[simp] theorem pendingOf_empty (role : Role) : empty.pendingOf role = 0 := by
  simp [pendingOf, empty, Slots.empty, pendingIn]

/-- A change that keeps role, number and content of each segment does not show. -/
theorem pendingOf_update {f : Tracked → Option Tracked}
    (h : ∀ e, pendingIn role (f e) = pendingIn role (some e)) :
    pendingOf (p.update f) role = p.pendingOf role := by
  unfold pendingOf Slots.update
  rw [List.filterMap_map]
  congr 1
  apply List.filterMap_congr
  rintro (_ | e) -
  · rfl
  · exact h e

/-- Erasing the segments of a role that satisfy `q` leaves those that do not. -/
theorem pendingOf_eraseWhere {q : Tracked → Bool} (q' : Pending → Bool)
    (h : ∀ e, e.role = role → q e = q' e.pending) :
    pendingOf (p.eraseWhere q) role = (p.pendingOf role).filter (fun x => q' x = false) := by
  unfold pendingOf Slots.eraseWhere Slots.update
  rw [List.filterMap_map, Multiset.filter_coe, List.filter_filterMap]
  congr 1
  apply List.filterMap_congr
  rintro (_ | e) -
  · rfl
  · by_cases he : e.role = role
    · by_cases hq : q' e.pending = true <;> simp [pendingIn, Option.filter_some, he, h e he, hq]
    · -- A segment of the other role does not show, erased or not.
      by_cases hq : q e = true <;> simp [pendingIn, he, hq]

/-- The timers do not show in what is pending. -/
@[simp] theorem pendingOf_tick : pendingOf (Pool.tick p) role = p.pendingOf role :=
  pendingOf_update fun _ => rfl

@[simp] theorem pendingOf_forget : pendingOf (Pool.forget p role) role = 0 := by
  unfold Pool.forget
  rw [pendingOf_eraseWhere (fun _ => true) (fun e he => decide_eq_true he)]
  simp

theorem pendingOf_forget_of_ne {role' : Role} (h : role' ≠ role) :
    pendingOf (Pool.forget p role) role' = p.pendingOf role' := by
  unfold Pool.forget
  rw [pendingOf_eraseWhere (fun _ => false) (fun e he => decide_eq_false (he ▸ h))]
  simp

@[simp] theorem pendingOf_forgetCovered (ack : SeqNumber) :
    pendingOf (Pool.forgetCovered p role ack) role =
      (p.pendingOf role).filter (fun x => x.isCoveredBy ack = false) := by
  unfold Pool.forgetCovered
  exact pendingOf_eraseWhere _ fun e he => by simp [he]; rfl

theorem pendingOf_forgetCovered_of_ne {role' : Role} (h : role' ≠ role) (ack : SeqNumber) :
    pendingOf (Pool.forgetCovered p role ack) role' = p.pendingOf role' := by
  unfold Pool.forgetCovered
  rw [pendingOf_eraseWhere (fun _ => false) (fun e he => by simp [he, h])]
  simp

/-- Putting something into a slot exchanges what the slot holds. -/
theorem pendingOf_put (role : Role) {i : Nat} {old : Option Tracked} (h : p.cells[i]? = some old)
    (new : Option Tracked) :
    pendingOf (p.put i new) role + ((pendingIn role old).toList : Multiset Pending) =
      p.pendingOf role + ((pendingIn role new).toList : Multiset Pending) := by
  obtain ⟨hi, hget⟩ := List.getElem?_eq_some_iff.mp h
  -- The slots are those in front of slot `i`, itself, and those behind it.
  have hold : p.cells = p.cells.take i ++ old :: p.cells.drop (i + 1) := by
    rw [← hget, ← List.drop_eq_getElem_cons hi, List.take_append_drop]
  have hnew : (p.put i new).cells = p.cells.take i ++ new :: p.cells.drop (i + 1) := by
    show p.cells.set i new = _
    rw [List.set_eq_take_append_cons_drop, if_pos hi]
  have hcons : ∀ c (l : List (Option Tracked)), (c :: l).filterMap (pendingIn role) =
      (pendingIn role c).toList ++ l.filterMap (pendingIn role) := by
    intro c l
    cases hc : pendingIn role c <;> simp [hc]
  unfold pendingOf
  rw [hnew, List.filterMap_append, hcons]
  conv_rhs => rw [hold, List.filterMap_append, hcons]
  simp only [← Multiset.coe_add]
  ac_rfl

/-- Replacing a segment by one with the same role, number and content does not show. -/
theorem pendingOf_put_same {i : Nat} {t u : Tracked} (hi : p.get? i = some t)
    (hrole : u.role = t.role) (hpend : u.pending = t.pending) :
    pendingOf (p.put i (some u)) role = p.pendingOf role := by
  have hsame : pendingIn role (some u) = pendingIn role (some t) := by
    simp [pendingIn, hrole, hpend]
  have hput := pendingOf_put role (Option.join_eq_some_iff.mp hi) (some u)
  rw [hsame] at hput
  exact Multiset.add_left_inj.mp hput

/-- A segment that finds a place is pending from then on, on its own side only. -/
theorem pendingOf_insert {e : Tracked} {i : Nat} {p' : Pool} (h : p.insert? e = some (i, p')) :
    p'.pendingOf role =
      p.pendingOf role + ((pendingIn role (some e)).toList : Multiset Pending) := by
  obtain ⟨j, hfree, heq⟩ := Option.map_eq_some_iff.mp h
  cases heq
  obtain ⟨hi, hnone, -⟩ := List.findIdx?_eq_some_iff_getElem.mp hfree
  have hcell : p.cells[i]? = some none := by
    rw [List.getElem?_eq_getElem hi, Option.isNone_iff_eq_none.mp hnone]
  simpa [pendingIn] using pendingOf_put role hcell (some e)

end Pool

end NetEngine.Tcp
