import NetEngine.Slots

/-! # Room in a Table

    A table has room as long as it has fewer entries than slots.  A new entry
    finds a place exactly then, and comes to those that are there, whatever slot
    it gets.  A change that keeps every entry keeps the table. -/

namespace NetEngine.Slots

variable {α : Type} {n i : Nat} {s s' : Slots α n} {a : α}

theorem size_le (s : Slots α n) : s.size ≤ n :=
  Nat.le_trans (List.length_filterMap_le _ _) (Nat.le_of_eq s.length_cells)

/-- A table is full if it has as many entries as slots. -/
theorem isFull_iff (s : Slots α n) : s.isFull = true ↔ s.size = n := by
  unfold isFull size toList
  have hcount : s.cells.countP Option.isSome = s.cells.length ↔ _ := List.countP_eq_length
  rw [List.all_eq_true, List.length_filterMap_eq_countP, ← hcount, s.length_cells]
  rfl

/-- There is a free slot unless the table is full. -/
theorem free?_eq_none_iff (s : Slots α n) : s.free? = none ↔ s.isFull = true := by
  unfold free? isFull
  rw [List.findIdx?_eq_none_iff, List.all_eq_true]
  simp only [Option.isNone_eq_false_iff]

theorem get?_eq_getElem {j : Nat} (s : Slots α n) (h : j < s.cells.length) :
    s.get? j = s.cells[j] := by
  unfold get?
  rw [List.getElem?_eq_getElem h]
  rfl

/-- A slot in use is one of the slots of the table. -/
theorem lt_of_get? (h : s.get? i = some a) : i < n := by
  obtain ⟨hi, -⟩ := List.getElem?_eq_some_iff.mp (Option.join_eq_some_iff.mp h)
  rwa [s.length_cells] at hi

/-- The free slot is the first one that holds nothing. -/
theorem free?_eq_find? (s : Slots α n) :
    s.free? = (List.range n).find? fun j => (s.get? j).isNone := by
  have hlength := s.length_cells
  apply Option.ext
  intro j
  unfold free?
  rw [List.findIdx?_eq_some_iff_getElem, List.find?_range_eq_some, List.mem_range]
  constructor
  · rintro ⟨hj, hnone, hbefore⟩
    refine ⟨by rwa [s.get?_eq_getElem hj], by omega, fun k hk => ?_⟩
    rw [s.get?_eq_getElem (Nat.lt_trans hk hj), Bool.not_eq_true', ← Bool.not_eq_true]
    exact hbefore k hk
  · rintro ⟨hnone, hwithin, hbefore⟩
    have hj : j < s.cells.length := by omega
    refine ⟨hj, by rwa [s.get?_eq_getElem hj] at hnone, fun k hk => ?_⟩
    have hk' := hbefore k hk
    rwa [s.get?_eq_getElem (Nat.lt_trans hk hj), Bool.not_eq_true', ← Bool.not_eq_true] at hk'

/-- A free slot is one of the slots of the table, and holds nothing. -/
theorem get?_of_free? (h : s.free? = some i) : s.get? i = none ∧ i < n := by
  rw [free?_eq_find?, List.find?_range_eq_some, List.mem_range] at h
  exact ⟨Option.isNone_iff_eq_none.mp h.1, h.2.1⟩

/-- The first entry of a kind is found in its slot, and there is none in front of it. -/
theorem position?_eq_some_iff (s : Slots α n) (p : α → Bool) :
    s.position? p = some i ↔ ∃ a, s.get? i = some a ∧ p a ∧
      ∀ j < i, ∀ b, s.get? j = some b → p b = false := by
  -- What a slot holds that satisfies `p` is an entry that does.
  have hany (j : Nat) (hj : j < s.cells.length) :
      (s.cells[j].any p = true) ↔ ∃ a, s.get? j = some a ∧ p a := by
    rw [s.get?_eq_getElem hj, Option.any_eq_true]
  unfold position?
  rw [List.findIdx?_eq_some_iff_getElem]
  constructor
  · rintro ⟨hi, hfound, hbefore⟩
    obtain ⟨a, ha, hp⟩ := (hany i hi).mp hfound
    refine ⟨a, ha, hp, fun j hj b hb => ?_⟩
    rw [← Bool.not_eq_true]
    intro hpb
    exact hbefore j hj ((hany j (Nat.lt_trans hj hi)).mpr ⟨b, hb, hpb⟩)
  · rintro ⟨a, ha, hp, hbefore⟩
    have hi : i < s.cells.length := Nat.lt_of_lt_of_eq (lt_of_get? ha) s.length_cells.symm
    refine ⟨hi, (hany i hi).mpr ⟨a, ha, hp⟩, fun j hj hfound => ?_⟩
    obtain ⟨b, hb, hpb⟩ := (hany j (Nat.lt_trans hj hi)).mp hfound
    rw [hbefore j hj b hb] at hpb
    cases hpb

/-- No entry of a kind is found if there is none. -/
theorem position?_eq_none_iff (s : Slots α n) (p : α → Bool) :
    s.position? p = none ↔ ∀ a ∈ s.toList, p a = false := by
  unfold position? toList
  rw [List.findIdx?_eq_none_iff]
  constructor
  · intro h a ha
    obtain ⟨c, hc, rfl⟩ := List.mem_filterMap.mp ha
    simpa using h _ hc
  · rintro h (_ | a) hc
    · rfl
    · simpa using h a (List.mem_filterMap.mpr ⟨_, hc, rfl⟩)

theorem insert?_eq_none_iff (s : Slots α n) (a : α) : s.insert? a = none ↔ s.size = n := by
  unfold insert?
  rw [Option.map_eq_none_iff, free?_eq_none_iff, isFull_iff]

/-- A new entry comes to those that are there. -/
theorem toList_insert? (h : s.insert? a = some (i, s')) : s'.toList.Perm (s.toList ++ [a]) := by
  obtain ⟨j, hfree, heq⟩ := Option.map_eq_some_iff.mp h
  cases heq
  obtain ⟨hi, hnone, -⟩ := List.findIdx?_eq_some_iff_getElem.mp hfree
  -- The slots are those in front of the free one, itself, and those behind it.
  have hold : s.cells = s.cells.take i ++ none :: s.cells.drop (i + 1) := by
    rw [← Option.isNone_iff_eq_none.mp hnone, ← List.drop_eq_getElem_cons hi, List.take_append_drop]
  have hnew : (s.put i (some a)).cells = s.cells.take i ++ some a :: s.cells.drop (i + 1) := by
    show s.cells.set i (some a) = _
    rw [List.set_eq_take_append_cons_drop, if_pos hi]
  unfold toList
  rw [hnew]
  conv =>
    rhs
    rw [hold]
  simp only [List.filterMap_append, List.filterMap_cons, id]
  refine (List.perm_middle).trans ?_
  exact (List.perm_append_singleton _ _).symm

/-- What holds between the entries of any two slots holds between any two entries. -/
theorem pairwise_toList {R : α → α → Prop}
    (between : ∀ i j a b, i < j → s.get? i = some a → s.get? j = some b → R a b) :
    s.toList.Pairwise R := by
  unfold toList
  rw [List.pairwise_filterMap, List.pairwise_iff_getElem]
  intro i j hi hj hij a ha b hb
  exact between i j a b hij ((s.get?_eq_getElem hi).trans ha) ((s.get?_eq_getElem hj).trans hb)

theorem update_eq_self {f : α → Option α} (keeps : ∀ i a, s.get? i = some a → f a = some a) :
    s.update f = s := by
  have hcells : s.cells.map (fun c => c.bind f) = s.cells := by
    conv =>
      rhs
      rw [← List.map_id s.cells]
    apply List.map_congr_left
    intro c hc
    cases c with
    | none => rfl
    | some a =>
      obtain ⟨i, hi⟩ := (s.mem_toList a).mp (List.mem_filterMap.mpr ⟨some a, hc, rfl⟩)
      exact keeps i a hi
  unfold update
  cases s
  simpa using hcells

end NetEngine.Slots
