/-! # Tables of Fixed Size

    The engine keeps every table in a fixed number of **slots**, each of them
    free or taken.  A new entry goes to the first free slot and stays there
    until it is erased, so the number of a slot names its entry meanwhile, and
    holes left by erased entries are filled again from the front. -/

namespace NetEngine

/-- A table of `n` slots. -/
structure Slots (α : Type) (n : Nat) where
  /-- The content of the slots, `none` for a free one. -/
  cells : List (Option α)
  length_cells : cells.length = n

namespace Slots

variable {α : Type} {n : Nat}

/-- The table with no entry. -/
def empty (α : Type) (n : Nat) : Slots α n := ⟨List.replicate n none, List.length_replicate⟩

/-- The entry in slot `i`. -/
def get? (s : Slots α n) (i : Nat) : Option α := (s.cells[i]?).join

/-- The entries in slot order. -/
def toList (s : Slots α n) : List α := s.cells.filterMap id

/-- The number of entries. -/
def size (s : Slots α n) : Nat := s.toList.length

/-- Is every slot taken? -/
def isFull (s : Slots α n) : Bool := s.cells.all Option.isSome

/-- The first free slot. -/
def free? (s : Slots α n) : Option Nat := s.cells.findIdx? Option.isNone

/-- The first slot whose entry satisfies `p`. -/
def position? (s : Slots α n) (p : α → Bool) : Option Nat := s.cells.findIdx? fun c => c.any p

/-- Replace the content of slot `i`. -/
def put (s : Slots α n) (i : Nat) (c : Option α) : Slots α n :=
  ⟨s.cells.set i c, by simp [s.length_cells]⟩

/-- Place an entry in the first free slot. -/
def insert? (s : Slots α n) (a : α) : Option (Nat × Slots α n) :=
  s.free?.map fun i => (i, s.put i (some a))

/-- Change each entry, or erase it. -/
def update (s : Slots α n) (f : α → Option α) : Slots α n :=
  ⟨s.cells.map fun c => c.bind f, by simp [s.length_cells]⟩

/-- Erase the entries that satisfy `p`. -/
def eraseWhere (s : Slots α n) (p : α → Bool) : Slots α n :=
  s.update fun a => if p a then none else some a

/-! ### Slots after a change -/

theorem get?_put_self (s : Slots α n) {i : Nat} (h : i < n) (c : Option α) :
    (s.put i c).get? i = c := by
  simp [get?, put, s.length_cells, h]

theorem get?_put_of_ne (s : Slots α n) {i j : Nat} (h : i ≠ j) (c : Option α) :
    (s.put i c).get? j = s.get? j := by
  simp [get?, put, List.getElem?_set_ne h]

theorem get?_update (s : Slots α n) (f : α → Option α) (i : Nat) :
    (s.update f).get? i = (s.get? i).bind f := by
  simp only [get?, update, List.getElem?_map]
  rcases s.cells[i]? with _ | _ | a <;> rfl

/-- The entries are what the slots hold. -/
theorem mem_toList (s : Slots α n) (a : α) : a ∈ s.toList ↔ ∃ i, s.get? i = some a := by
  unfold toList get?
  rw [List.mem_filterMap]
  constructor
  · rintro ⟨c, hc, hca⟩
    obtain ⟨i, hi⟩ := List.mem_iff_getElem?.1 hc
    exact ⟨i, by rw [hi]; exact hca⟩
  · rintro ⟨i, hi⟩
    exact ⟨some a, List.mem_iff_getElem?.2 ⟨i, Option.join_eq_some_iff.1 hi⟩, rfl⟩

end Slots

end NetEngine
