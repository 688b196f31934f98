import Mathlib.Data.Finset.Max
import NetEngine.Arp.Cache
import NetEngine.Proofs.Slots

/-! # What the Neighbour Cache Remembers

    * **Room**: there is a slot for every neighbour, if need be that of the one who
      would be forgotten first.
    * **Learning**: one slot is taken by the neighbour who is learnt, and the others
      stay as they are.
    * **Lookup**: an address is found if some neighbour has it.
    * **Time**: a second brings nobody into the cache.
    * **Distinctness**: nobody has two slots, whatever is done. -/

namespace NetEngine.Arp.Cache

variable {c : Cache} {a : Ipv4Address} {hardware : MacAddress} {n : Neighbour}

/-! ## Room -/

/-- Among the neighbours of a cache that remembers some there is one who is forgotten first. -/
theorem exists_first_forgotten (some_known : c.toList ≠ []) :
    ∃ e ∈ c.toList, ∀ other ∈ c.toList, e.ticks ≤ other.ticks := by
  obtain ⟨e, he, hfirst⟩ := Finset.exists_min_image c.toList.toFinset (·.ticks.toNat)
    (List.toFinset_nonempty_iff _ |>.mpr some_known)
  refine ⟨e, List.mem_toFinset.mp he, fun other hother => ?_⟩
  exact UInt8.le_iff_toNat_le.mpr (hfirst other (List.mem_toFinset.mpr hother))

/-- Where no slot is free, somebody can be forgotten. -/
theorem isSome_victim? (full : c.slots.free? = none) : c.victim?.isSome := by
  have htaken : ∀ cell ∈ c.slots.cells, cell.isSome := by
    simpa [Slots.free?, Option.isSome_iff_ne_none] using full
  have hknown : c.toList ≠ [] := by
    have hlength := c.slots.length_cells
    obtain ⟨first, rest, hcells⟩ : ∃ first rest, c.slots.cells = first :: rest := by
      cases hcells : c.slots.cells with
      | nil =>
        rw [hcells] at hlength
        cases hlength
      | cons first rest => exact ⟨first, rest, rfl⟩
    obtain ⟨e, rfl⟩ := Option.isSome_iff_exists.mp (htaken first (by simp [hcells]))
    simp [toList, Slots.toList, hcells]
  obtain ⟨e, he, hfirst⟩ := exists_first_forgotten hknown
  unfold victim? Slots.position?
  rw [List.findIdx?_isSome, List.any_eq_true]
  obtain ⟨cell, hcell, rfl⟩ := List.mem_filterMap.mp he
  exact ⟨_, hcell, by simpa using hfirst⟩

/-- Of all neighbours, the one in a given slot is forgotten first.  Where others are forgotten at the
same time, their slots are behind it. -/
structure ForgottenFirst (c : Cache) (slot : Nat) (e : Neighbour) : Prop where
  held : c.slots.get? slot = some e
  soonest : ∀ n ∈ c.toList, e.ticks ≤ n.ticks
  first : ∀ j < slot, ∀ n, c.slots.get? j = some n → e.ticks < n.ticks

theorem forgottenFirst_of_victim? {slot : Nat} (h : c.victim? = some slot) :
    ∃ e, c.ForgottenFirst slot e := by
  obtain ⟨e, held, hall, hbefore⟩ := (Slots.position?_eq_some_iff _ _).mp h
  have hsoonest : ∀ n ∈ c.toList, e.ticks ≤ n.ticks := by simpa using hall
  refine ⟨e, held, hsoonest, fun j hj n hn => ?_⟩
  -- Whoever is in front of it outlasts somebody, and so outlasts the victim.
  obtain ⟨other, hother, hlt⟩ : ∃ other ∈ c.toList, other.ticks < n.ticks := by
    simpa using hbefore j hj n hn
  exact UInt8.lt_of_le_of_lt (hsoonest other hother) hlt

/-- How a neighbour with a given address comes to a slot. -/
inductive Admits (c : Cache) (a : Ipv4Address) (slot : Nat) : Prop
  /-- It is its own. -/
  | own (e : Neighbour) (held : c.slots.get? slot = some e) (same : e.protocol = a)
  /-- The neighbour is new, and the slot is free. -/
  | free (unknown : ∀ e ∈ c.toList, e.protocol ≠ a) (nobody : c.slots.get? slot = none)
  /-- The neighbour is new, and every slot is taken. -/
  | evicting (e : Neighbour) (unknown : ∀ e ∈ c.toList, e.protocol ≠ a)
    (full : c.toList.length = capacity) (victim : c.ForgottenFirst slot e)

/-- There is a slot for every neighbour. -/
theorem exists_slotFor (c : Cache) (a : Ipv4Address) :
    ∃ slot < capacity, c.slotFor a = some slot ∧ c.Admits a slot := by
  unfold slotFor
  cases hown : c.slots.position? (·.protocol = a) with
  | some slot =>
    obtain ⟨e, held, same, -⟩ := (Slots.position?_eq_some_iff _ _).mp hown
    exact ⟨slot, Slots.lt_of_get? held, rfl, .own e held (by simpa using same)⟩
  | none =>
    have hunknown : ∀ e ∈ c.toList, e.protocol ≠ a := fun e he => by
      simpa using (Slots.position?_eq_none_iff _ _).mp hown e he
    cases hfree : c.slots.free? with
    | some slot =>
      rw [Slots.free?_eq_find?, List.find?_range_eq_some] at hfree
      obtain ⟨hnobody, hwithin, -⟩ := hfree
      exact ⟨slot, List.mem_range.mp hwithin, rfl, .free hunknown (by simpa using hnobody)⟩
    | none =>
      obtain ⟨slot, hvictim⟩ := Option.isSome_iff_exists.mp (isSome_victim? hfree)
      obtain ⟨e, victim⟩ := forgottenFirst_of_victim? hvictim
      have hfull : c.toList.length = capacity :=
        (Slots.isFull_iff _).mp ((Slots.free?_eq_none_iff _).mp hfree)
      exact ⟨slot, Slots.lt_of_get? victim.held, hvictim, .evicting e hunknown hfull victim⟩

/-! ## Learning -/

theorem learn_admitted (learnable : isLearnable a) (c : Cache) (hardware : MacAddress) :
    ∃ slot < capacity, c.Admits a slot ∧ c.learn a hardware =
      { c with slots := c.slots.put slot (some ⟨a, hardware, c.lifetime⟩) } := by
  obtain ⟨slot, hlt, hslot, hadmits⟩ := exists_slotFor c a
  refine ⟨slot, hlt, hadmits, ?_⟩
  unfold learn
  rw [if_pos learnable, hslot]

/-- **One slot is taken by the neighbour who is learnt.** -/
theorem learn_eq (learnable : isLearnable a) (c : Cache) (hardware : MacAddress) :
    ∃ slot < capacity, c.learn a hardware =
      { c with slots := c.slots.put slot (some ⟨a, hardware, c.lifetime⟩) } := by
  obtain ⟨slot, hlt, -, heq⟩ := learn_admitted learnable c hardware
  exact ⟨slot, hlt, heq⟩

theorem learn_of_not_learnable (refused : ¬ isLearnable a) (c : Cache) (hardware : MacAddress) :
    c.learn a hardware = c := if_neg refused

/-- Who is remembered after somebody has been learnt was remembered before or is the one. -/
theorem mem_learn (h : n ∈ (c.learn a hardware).toList) :
    n ∈ c.toList ∨ isLearnable a ∧ n = ⟨a, hardware, c.lifetime⟩ := by
  by_cases hlearnable : isLearnable a
  · obtain ⟨slot, hlt, heq⟩ := learn_eq hlearnable c hardware
    rw [heq] at h
    obtain ⟨i, hi⟩ := (Slots.mem_toList _ _).mp h
    by_cases hslot : slot = i
    · subst hslot
      rw [Slots.get?_put_self _ hlt] at hi
      exact .inr ⟨hlearnable, (Option.some.inj hi).symm⟩
    · rw [Slots.get?_put_of_ne _ hslot] at hi
      exact .inl ((Slots.mem_toList _ _).mpr ⟨i, hi⟩)
  · rw [learn_of_not_learnable hlearnable] at h
    exact .inl h

/-- Who has been learnt is remembered. -/
theorem mem_learn_self (learnable : isLearnable a) (c : Cache) (hardware : MacAddress) :
    ⟨a, hardware, c.lifetime⟩ ∈ (c.learn a hardware).toList := by
  obtain ⟨slot, hlt, heq⟩ := learn_eq learnable c hardware
  rw [heq]
  exact (Slots.mem_toList _ _).mpr ⟨slot, Slots.get?_put_self _ hlt _⟩

/-! ## Lookup -/

/-- Whose hardware address is looked up is remembered with it. -/
theorem exists_of_lookup (h : c.lookup a = some hardware) :
    ∃ e ∈ c.toList, e.protocol = a ∧ e.hardware = hardware := by
  obtain ⟨e, hfound, rfl⟩ := Option.map_eq_some_iff.mp h
  exact ⟨e, List.mem_of_find?_eq_some hfound, by simpa using List.find?_some hfound, rfl⟩

/-- Nothing is found for an address that nobody has. -/
theorem lookup_eq_none_iff : c.lookup a = none ↔ ∀ e ∈ c.toList, e.protocol ≠ a := by
  simp [lookup, entry?]

/-- For an address that was not known, what has been learnt is found. -/
theorem lookup_learn_eq_some_iff {b : Ipv4Address} {hardware' : MacAddress}
    (unknown : c.lookup b = none) :
    (c.learn a hardware).lookup b = some hardware' ↔
      isLearnable a ∧ a = b ∧ hardware = hardware' := by
  rw [lookup_eq_none_iff] at unknown
  have honly (found : MacAddress) (h : (c.learn a hardware).lookup b = some found) :
      isLearnable a ∧ a = b ∧ hardware = found := by
    obtain ⟨e, hknown, hsame, rfl⟩ := exists_of_lookup h
    rcases mem_learn hknown with hold | ⟨hlearnable, rfl⟩
    · exact absurd hsame (unknown e hold)
    · exact ⟨hlearnable, hsame, rfl⟩
  constructor
  · exact honly hardware'
  · rintro ⟨hlearnable, rfl, rfl⟩
    cases hfound : (c.learn a hardware).lookup a with
    | none =>
      exact absurd rfl (lookup_eq_none_iff.mp hfound _ (mem_learn_self hlearnable c hardware))
    | some found => rw [(honly found hfound).2.2]

/-! ## Time -/

/-- What is in a slot after a second was there before, with a second more to go. -/
theorem get?_tick_eq_some {i : Nat} (h : c.tick.slots.get? i = some n) :
    ∃ m, c.slots.get? i = some m ∧ Countdown.tick m.ticks ≠ 0 ∧
      n = { m with ticks := Countdown.tick m.ticks } := by
  have hupdate : (c.slots.get? i).bind _ = some n := (Slots.get?_update c.slots _ i).symm.trans h
  obtain ⟨m, hm, hleft⟩ := Option.bind_eq_some_iff.mp hupdate
  dsimp only at hleft
  split at hleft
  · cases hleft
  · cases hleft
    exact ⟨m, hm, ‹_›, rfl⟩

/-- Who is remembered after a second was remembered before, with the same addresses. -/
theorem mem_tick (h : n ∈ c.tick.toList) :
    ∃ m ∈ c.toList, m.protocol = n.protocol ∧ m.hardware = n.hardware := by
  obtain ⟨i, hi⟩ := (Slots.mem_toList _ _).mp h
  obtain ⟨m, hm, -, rfl⟩ := get?_tick_eq_some hi
  exact ⟨m, (Slots.mem_toList _ _).mpr ⟨i, hm⟩, rfl, rfl⟩

/-- A neighbour who has more than a second to go is still there after it. -/
theorem mem_tick_of_lasting (known : n ∈ c.toList) (lasting : 1 < n.ticks.toNat) :
    { n with ticks := Countdown.tick n.ticks } ∈ c.tick.toList := by
  obtain ⟨i, hi⟩ := (Slots.mem_toList _ _).mp known
  have hleft : Countdown.tick n.ticks ≠ 0 := by
    intro hzero
    have htick := Countdown.toNat_tick n.ticks
    rw [hzero] at htick
    simp at htick
    omega
  refine (Slots.mem_toList _ _).mpr ⟨i, (Slots.get?_update c.slots _ i).trans ?_⟩
  rw [hi, Option.bind_some]
  exact if_neg hleft

/-! ## Removal -/

/-- One slot is cleared where a neighbour is removed who is known. -/
theorem remove_cases (c : Cache) (a : Ipv4Address) :
    (∀ e ∈ c.toList, e.protocol ≠ a) ∧ c.remove a = c ∨
      ∃ slot e, c.slots.get? slot = some e ∧ e.protocol = a ∧
        c.remove a = { c with slots := c.slots.put slot none } := by
  unfold remove
  cases hown : c.slots.position? (·.protocol = a) with
  | none =>
    refine .inl ⟨fun e he => ?_, rfl⟩
    simpa using (Slots.position?_eq_none_iff _ _).mp hown e he
  | some slot =>
    obtain ⟨e, held, same, -⟩ := (Slots.position?_eq_some_iff _ _).mp hown
    exact .inr ⟨slot, e, held, by simpa using same, rfl⟩

/-- Whoever is in a slot after a removal was there before. -/
theorem get?_remove_eq_some {i : Nat} (h : (c.remove a).slots.get? i = some n) :
    c.slots.get? i = some n := by
  rcases remove_cases c a with ⟨-, heq⟩ | ⟨slot, e, held, -, heq⟩
  · rwa [heq] at h
  · rw [heq] at h
    by_cases hslot : slot = i
    · subst hslot
      rw [Slots.get?_put_self _ (Slots.lt_of_get? held)] at h
      cases h
    · rwa [Slots.get?_put_of_ne _ hslot] at h

/-- A removal does not concern other neighbours. -/
theorem mem_remove_of_ne (known : n ∈ c.toList) (other : n.protocol ≠ a) :
    n ∈ (c.remove a).toList := by
  rcases remove_cases c a with ⟨-, heq⟩ | ⟨slot, e, held, same, heq⟩
  · rwa [heq]
  · obtain ⟨i, hi⟩ := (Slots.mem_toList _ _).mp known
    have hslot : slot ≠ i := by
      rintro rfl
      rw [held] at hi
      cases hi
      exact other same
    rw [heq]
    exact (Slots.mem_toList _ _).mpr ⟨i, (Slots.get?_put_of_ne _ hslot _).trans hi⟩

/-! ## Distinctness -/

/-- Nobody has two slots. -/
def Distinct (c : Cache) : Prop :=
  ∀ i j e e', c.slots.get? i = some e → c.slots.get? j = some e' → e.protocol = e'.protocol → i = j

theorem distinct_empty (lifetime : Countdown) : (empty lifetime).Distinct := by
  intro i j e e' hi
  have hnobody : e ∈ (empty lifetime).toList := (Slots.mem_toList _ _).mpr ⟨i, hi⟩
  cases hnobody

/-- Whoever is learnt has no other slot than the new one. -/
theorem Distinct.learn (h : c.Distinct) (a : Ipv4Address) (hardware : MacAddress) :
    (c.learn a hardware).Distinct := by
  by_cases hlearnable : isLearnable a
  · obtain ⟨slot, hlt, hadmits, heq⟩ := learn_admitted hlearnable c hardware
    -- A neighbour elsewhere has another address than the one who is learnt.
    have helsewhere {i : Nat} {e : Neighbour} (hi : c.slots.get? i = some e) (hne : slot ≠ i) :
        e.protocol ≠ a := by
      have hknown : e ∈ c.toList := (Slots.mem_toList _ _).mpr ⟨i, hi⟩
      cases hadmits with
      | own old held same =>
        rintro rfl
        exact hne (h slot i old e held hi same)
      | free unknown | evicting _ unknown => exact unknown e hknown
    rw [heq]
    intro i j e e' hi hj hsame
    by_cases hslot : slot = i <;> by_cases hslot' : slot = j
    · omega
    · subst hslot
      rw [Slots.get?_put_self _ hlt] at hi
      rw [Slots.get?_put_of_ne _ hslot'] at hj
      cases hi
      exact absurd hsame.symm (helsewhere hj hslot')
    · subst hslot'
      rw [Slots.get?_put_of_ne _ hslot] at hi
      rw [Slots.get?_put_self _ hlt] at hj
      cases hj
      exact absurd hsame (helsewhere hi hslot)
    · rw [Slots.get?_put_of_ne _ hslot] at hi
      rw [Slots.get?_put_of_ne _ hslot'] at hj
      exact h i j e e' hi hj hsame
  · rwa [learn_of_not_learnable hlearnable]

theorem Distinct.remove (h : c.Distinct) (a : Ipv4Address) : (c.remove a).Distinct := by
  intro i j e e' hi hj hsame
  exact h i j e e' (get?_remove_eq_some hi) (get?_remove_eq_some hj) hsame

theorem Distinct.tick (h : c.Distinct) : c.tick.Distinct := by
  intro i j e e' hi hj hsame
  obtain ⟨m, hm, -, rfl⟩ := get?_tick_eq_some hi
  obtain ⟨m', hm', -, rfl⟩ := get?_tick_eq_some hj
  exact h i j m m' hm hm' hsame

/-- The addresses of the neighbours are different from each other. -/
theorem Distinct.nodup (h : c.Distinct) : (c.toList.map (·.protocol)).Nodup := by
  refine List.pairwise_map.mpr (Slots.pairwise_toList fun i j e e' hij hi hj hsame => ?_)
  exact Nat.ne_of_lt hij (h i j e e' hi hj hsame)

theorem Distinct.eq_of_mem (h : c.Distinct) {m : Neighbour} (hm : m ∈ c.toList)
    (hn : n ∈ c.toList) (same : m.protocol = n.protocol) : m = n := by
  obtain ⟨i, hi⟩ := (Slots.mem_toList _ _).mp hm
  obtain ⟨j, hj⟩ := (Slots.mem_toList _ _).mp hn
  obtain rfl := h i j m n hi hj same
  exact Option.some.inj (hi.symm.trans hj)

/-- Whoever is known after somebody has been learnt is the one, or was known before under another
address. -/
theorem Distinct.mem_learn (h : c.Distinct) (learnable : isLearnable a)
    (known : n ∈ (c.learn a hardware).toList) :
    n = ⟨a, hardware, c.lifetime⟩ ∨ n ∈ c.toList ∧ n.protocol ≠ a := by
  by_cases hsame : n.protocol = a
  · exact .inl ((h.learn a hardware).eq_of_mem known (mem_learn_self learnable c hardware) hsame)
  · rcases Cache.mem_learn known with hold | ⟨-, rfl⟩
    · exact .inr ⟨hold, hsame⟩
    · exact absurd rfl hsame

/-- Nobody is remembered under an address that has been removed. -/
theorem Distinct.ne_of_mem_remove (h : c.Distinct) (known : n ∈ (c.remove a).toList) :
    n.protocol ≠ a := by
  obtain ⟨i, hi⟩ := (Slots.mem_toList _ _).mp known
  have hold := get?_remove_eq_some hi
  rcases remove_cases c a with ⟨unknown, -⟩ | ⟨slot, e, held, same, heq⟩
  · exact unknown n ((Slots.mem_toList _ _).mpr ⟨i, hold⟩)
  · intro hsame
    obtain rfl := h slot i e n held hold (same.trans hsame.symm)
    rw [heq, Slots.get?_put_self _ (Slots.lt_of_get? held)] at hi
    cases hi

end NetEngine.Arp.Cache
