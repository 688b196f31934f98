import Mathlib.Data.List.Induction
import NetEngine.Proofs.Slots
import NetEngine.Udp.PortTable

/-! # Which Binding a User Datagram Is For

    The table of bindings has holes where bindings have been given up, and new
    ones fill them again.  What it answers can be told from the calls alone.

    * **Calls**: what is done to a table, and which registrations are live
      after it.
    * **Slots**: the table holds the live registrations and nothing else, each
      in the slot that its caller was told.
    * **Dispatch**: a datagram goes to the live registration that names both of
      its ports, or else to the one that names its destination only. -/

namespace NetEngine.Udp.PortTable

variable {t t' : PortTable} {b : Binding} {slot slot' : Nat}

/-! ## Registering and giving up -/

theorem register_eq_illegal_iff (t : PortTable) (b : Binding) :
    t.register b = .error .illegal ↔ b ∈ t.slots.toList := by
  unfold register
  split
  · simp_all
  · split <;> simp_all

theorem register_eq_exhausted_iff (t : PortTable) (b : Binding) :
    t.register b = .error .exhausted ↔ b ∉ t.slots.toList ∧ t.slots.size = maxBindings := by
  rw [← Slots.insert?_eq_none_iff t.slots b]
  unfold register
  split
  · simp_all
  · split <;> simp_all

/-- A binding that is added was not there, and takes the first free slot. -/
theorem register_eq_ok_iff : t.register b = .ok (slot, t') ↔
    b ∉ t.slots.toList ∧ t.slots.free? = some slot ∧
      t' = { t with slots := t.slots.put slot (some b) } := by
  unfold register Slots.insert?
  cases t.slots.free? with
  | none => split <;> simp_all
  | some first =>
    split
    · simp_all
    · simp only [Option.map_some, Except.ok.injEq, Prod.mk.injEq, Option.some.injEq]
      constructor
      · rintro ⟨rfl, rfl⟩
        exact ⟨‹_›, rfl, rfl⟩
      · rintro ⟨-, rfl, rfl⟩
        exact ⟨rfl, rfl⟩

/-- There is no other way for a registration to end. -/
theorem register_cases (t : PortTable) (b : Binding) :
    t.register b = .error .illegal ∨ t.register b = .error .exhausted ∨
      ∃ slot t', t.register b = .ok (slot, t') := by
  unfold register
  split
  · exact .inl rfl
  · split
    · exact .inr (.inl rfl)
    · exact .inr (.inr ⟨_, _, rfl⟩)

/-! ## Calls -/

/-- What is done to a table. -/
inductive Call where
  | register (b : Binding)
  | unregister (slot : Nat)
deriving DecidableEq

/-- The table after a call.  One that is refused leaves it as it is. -/
def after (t : PortTable) : Call → PortTable
  | .register b => match t.register b with
    | .ok (_, t') => t'
    | .error _ => t
  | .unregister slot => match t.unregister slot with
    | .ok t' => t'
    | .error _ => t

/-- The table after calls, from one without bindings. -/
def run (calls : List Call) : PortTable := calls.foldl after .empty

/-- The binding was registered in the slot, and has not been given up since. -/
def Live (calls : List Call) (slot : Nat) (b : Binding) : Prop :=
  ∃ before since t, calls = before ++ .register b :: since ∧
    (run before).register b = .ok (slot, t) ∧ .unregister slot ∉ since

variable {calls : List Call} {call : Call}

theorem run_snoc (calls : List Call) (call : Call) :
    run (calls ++ [call]) = (run calls).after call := by
  simp [run]

theorem not_live_nil : ¬ Live [] slot b := by
  rintro ⟨before, since, t, hsplit, -⟩
  simp at hsplit

/-- **What is live after one more call**: what has just been registered, and what was live before and
is not given up. -/
theorem live_snoc_iff : Live (calls ++ [call]) slot b ↔
    (call = .register b ∧ ∃ t, (run calls).register b = .ok (slot, t)) ∨
      (Live calls slot b ∧ call ≠ .unregister slot) := by
  constructor
  · rintro ⟨before, since, t, hsplit, hregister, hkept⟩
    -- The last call is the registration, or one of those since.
    rcases List.eq_nil_or_concat since with rfl | ⟨past, last, rfl⟩
    · obtain ⟨rfl, rfl⟩ := List.append_singleton_inj.mp hsplit
      exact .inl ⟨rfl, t, hregister⟩
    · rw [List.concat_eq_append] at hsplit hkept
      rw [← List.cons_append, ← List.append_assoc] at hsplit
      obtain ⟨rfl, rfl⟩ := List.append_singleton_inj.mp hsplit
      rw [List.mem_append, not_or, List.mem_singleton] at hkept
      exact .inr ⟨⟨before, past, t, rfl, hregister, hkept.1⟩, Ne.symm hkept.2⟩
  · rintro (⟨rfl, t, hregister⟩ | ⟨⟨before, since, t, rfl, hregister, hkept⟩, hother⟩)
    · exact ⟨calls, [], t, rfl, hregister, List.not_mem_nil⟩
    · refine ⟨before, since ++ [call], t, by simp, hregister, ?_⟩
      rw [List.mem_append, not_or, List.mem_singleton]
      exact ⟨hkept, Ne.symm hother⟩

/-! ## Slots -/

theorem get?_empty (slot : Nat) : PortTable.empty.slots.get? slot = none := by
  unfold PortTable.empty Slots.empty Slots.get?
  rw [List.getElem?_replicate]
  split <;> rfl

/-- A registration fills the slot that it names, which was free, and no other. -/
theorem get?_after_register_iff {c : Binding} :
    (t.after (.register c)).slots.get? slot = some b ↔
      (c = b ∧ ∃ t', t.register c = .ok (slot, t')) ∨ t.slots.get? slot = some b := by
  unfold after
  dsimp only
  cases hregister : t.register c with
  | error err => simp
  | ok result =>
    obtain ⟨first, t'⟩ := result
    obtain ⟨-, hfree, rfl⟩ := register_eq_ok_iff.mp hregister
    obtain ⟨hnone, hlt⟩ := Slots.get?_of_free? hfree
    dsimp only
    by_cases hsame : first = slot
    · subst hsame
      rw [Slots.get?_put_self _ hlt, hnone]
      simp
    · rw [Slots.get?_put_of_ne _ hsame]
      simp [hsame]

/-- A slot that is given up is free, and the others stay as they are. -/
theorem get?_after_unregister_iff :
    (t.after (.unregister slot')).slots.get? slot = some b ↔
      t.slots.get? slot = some b ∧ slot' ≠ slot := by
  unfold after unregister
  dsimp only
  cases hheld : t.slots.get? slot' with
  | none =>
    have hother (h : t.slots.get? slot = some b) : slot' ≠ slot := by
      rintro rfl
      rw [hheld] at h
      cases h
    exact ⟨fun h => ⟨h, hother h⟩, fun h => h.1⟩
  | some c =>
    dsimp only
    by_cases hsame : slot' = slot
    · subst hsame
      rw [Slots.get?_put_self _ (Slots.lt_of_get? hheld)]
      simp
    · rw [Slots.get?_put_of_ne _ hsame]
      simp [hsame]

/-- What one call does to the slots. -/
theorem get?_after_iff : (t.after call).slots.get? slot = some b ↔
    (call = .register b ∧ ∃ t', t.register b = .ok (slot, t')) ∨
      (t.slots.get? slot = some b ∧ call ≠ .unregister slot) := by
  cases call with
  | register c =>
    rw [get?_after_register_iff]
    constructor
    · rintro (⟨rfl, h⟩ | h)
      · exact .inl ⟨rfl, h⟩
      · exact .inr ⟨h, by simp⟩
    · rintro (⟨heq, h⟩ | ⟨h, -⟩)
      · cases heq
        exact .inl ⟨rfl, h⟩
      · exact .inr h
  | unregister i =>
    rw [get?_after_unregister_iff]
    simp

/-- **The table holds what is live**, each binding in the slot that its caller was told. -/
theorem get?_run_iff : (run calls).slots.get? slot = some b ↔ Live calls slot b := by
  induction calls using List.reverseRecOn with
  | nil =>
    show PortTable.empty.slots.get? slot = some b ↔ _
    rw [get?_empty]
    exact iff_of_false (by simp) not_live_nil
  | append_singleton calls call ih =>
    -- The slots and the live registrations take the same step.
    rw [run_snoc, get?_after_iff, live_snoc_iff, ih]

theorem mem_run_iff : b ∈ (run calls).slots.toList ↔ ∃ slot, Live calls slot b := by
  simp only [Slots.mem_toList, get?_run_iff]

/-- **No binding is live twice.** -/
theorem Live.slot_unique (h : Live calls slot b) (h' : Live calls slot' b) : slot = slot' := by
  induction calls using List.reverseRecOn with
  | nil => exact absurd h not_live_nil
  | append_singleton calls call ih =>
    -- What can be registered is not live before.
    have hfresh {i j : Nat} {t : PortTable} (hregister : (run calls).register b = .ok (i, t)) :
        ¬ Live calls j b := fun hlive =>
      (register_eq_ok_iff.mp hregister).1 (mem_run_iff.mpr ⟨j, hlive⟩)
    rcases live_snoc_iff.mp h with ⟨-, t, hnow⟩ | ⟨hlive, -⟩
    · rcases live_snoc_iff.mp h' with ⟨-, t', hnow'⟩ | ⟨hlive', -⟩
      · rw [hnow] at hnow'
        cases hnow'
        rfl
      · exact absurd hlive' (hfresh hnow)
    · rcases live_snoc_iff.mp h' with ⟨-, t', hnow'⟩ | ⟨hlive', -⟩
      · exact absurd hlive (hfresh hnow')
      · exact ih hlive hlive'

theorem nodup_run (calls : List Call) : (run calls).slots.toList.Nodup := by
  refine Slots.pairwise_toList fun i j a b hlt ha hb => ?_
  rintro rfl
  exact absurd ((get?_run_iff.mp ha).slot_unique (get?_run_iff.mp hb)) (Nat.ne_of_lt hlt)

/-! ## Dispatch -/

/-- **A binding that is live is found in its slot**, wherever that is. -/
theorem position?_run (h : Live calls slot b) :
    (run calls).slots.position? (· = b) = some slot := by
  rw [Slots.position?_eq_some_iff]
  refine ⟨b, get?_run_iff.mpr h, by simp, fun i hlt c hc => ?_⟩
  rw [decide_eq_false_iff_not]
  rintro rfl
  exact absurd ((get?_run_iff.mp hc).slot_unique h) (Nat.ne_of_lt hlt)

theorem position?_run_none (h : ∀ slot, ¬ Live calls slot b) :
    (run calls).slots.position? (· = b) = none := by
  rw [Slots.position?_eq_none_iff]
  rintro c hc
  rw [decide_eq_false_iff_not]
  rintro rfl
  obtain ⟨slot, hlive⟩ := mem_run_iff.mp hc
  exact h slot hlive

/-- A registration that names the source goes before one that does not. -/
theorem lookup_run_of_source {d s : UInt16} (h : Live calls slot ⟨d, some s⟩) :
    (run calls).lookup d s = some slot := by
  unfold lookup
  rw [position?_run h]
  rfl

theorem lookup_run_of_any {d s : UInt16} (unnamed : ∀ i, ¬ Live calls i ⟨d, some s⟩)
    (h : Live calls slot ⟨d, none⟩) : (run calls).lookup d s = some slot := by
  unfold lookup
  rw [position?_run_none unnamed, position?_run h]
  rfl

theorem lookup_run_none {d s : UInt16} (unnamed : ∀ i, ¬ Live calls i ⟨d, some s⟩)
    (unasked : ∀ i, ¬ Live calls i ⟨d, none⟩) : (run calls).lookup d s = none := by
  unfold lookup
  rw [position?_run_none unnamed, position?_run_none unasked]
  rfl

/-- A datagram finds a binding that names both of its ports, or else one that names its destination
only. -/
theorem bind_lookup_run (calls : List Call) (d s : UInt16) :
    ((run calls).lookup d s).bind (run calls).slots.get? =
      if ⟨d, some s⟩ ∈ (run calls).slots.toList then some ⟨d, some s⟩
      else if ⟨d, none⟩ ∈ (run calls).slots.toList then some ⟨d, none⟩ else none := by
  split
  · rename_i hnamed
    obtain ⟨slot, hlive⟩ := mem_run_iff.mp hnamed
    rw [lookup_run_of_source hlive]
    exact get?_run_iff.mpr hlive
  · rename_i hunnamed
    rw [mem_run_iff, not_exists] at hunnamed
    split
    · rename_i hasked
      obtain ⟨slot, hlive⟩ := mem_run_iff.mp hasked
      rw [lookup_run_of_any hunnamed hlive]
      exact get?_run_iff.mpr hlive
    · rename_i hunasked
      rw [mem_run_iff, not_exists] at hunasked
      rw [lookup_run_none hunnamed hunasked]
      rfl

/-- What a table answers after calls, told by the registrations that are live. -/
structure FollowsLive (calls : List Call) : Prop where
  /-- The bindings in the table are those that are live. -/
  listed : ∀ b, b ∈ (run calls).slots.toList ↔ ∃ slot, Live calls slot b
  distinct : (run calls).slots.toList.Nodup
  few : (run calls).slots.toList.length ≤ 4
  illegal_iff : ∀ b, (run calls).register b = .error .illegal ↔ ∃ slot, Live calls slot b
  exhausted_iff : ∀ b, (run calls).register b = .error .exhausted ↔
    (∀ slot, ¬ Live calls slot b) ∧ (run calls).slots.toList.length = 4
  /-- Any other binding is registered. -/
  registered : ∀ b, (∀ slot, ¬ Live calls slot b) → (run calls).slots.toList.length ≠ 4 →
    ∃ slot t, (run calls).register b = .ok (slot, t) ∧ Live (calls ++ [.register b]) slot b
  /-- What is refused changes nothing. -/
  refused : ∀ b err, (run calls).register b = .error err → run (calls ++ [.register b]) = run calls
  refused_unregister : ∀ slot err, (run calls).unregister slot = .error err →
    run (calls ++ [.unregister slot]) = run calls
  /-- A registration that names the source goes before one that does not. -/
  source : ∀ d s slot, Live calls slot ⟨d, some s⟩ → (run calls).lookup d s = some slot
  any : ∀ d s slot, (∀ i, ¬ Live calls i ⟨d, some s⟩) → Live calls slot ⟨d, none⟩ →
    (run calls).lookup d s = some slot
  nobody : ∀ d s, (∀ i, ¬ Live calls i ⟨d, some s⟩) → (∀ i, ¬ Live calls i ⟨d, none⟩) →
    (run calls).lookup d s = none
  /-- Whatever calls have made the same registrations live, a datagram finds the same one. -/
  unordered : ∀ calls', (∀ b, (∃ slot, Live calls slot b) ↔ ∃ slot, Live calls' slot b) →
    ∀ d s, ((run calls).lookup d s).bind (run calls).slots.get? =
      ((run calls').lookup d s).bind (run calls').slots.get?

/-- **The table follows the live registrations**, in whatever order they were made and whatever
holes others have left. -/
theorem follows_live (calls : List Call) : FollowsLive calls := by
  have hlive (b : Binding) : b ∉ (run calls).slots.toList ↔ ∀ slot, ¬ Live calls slot b := by
    rw [mem_run_iff, not_exists]
  have hillegal (b : Binding) :
      (run calls).register b = .error .illegal ↔ ∃ slot, Live calls slot b := by
    rw [register_eq_illegal_iff, mem_run_iff]
  have hexhausted (b : Binding) : (run calls).register b = .error .exhausted ↔
      (∀ slot, ¬ Live calls slot b) ∧ (run calls).slots.toList.length = 4 := by
    rw [register_eq_exhausted_iff, hlive]
    rfl
  constructor
  case listed => exact fun _ => mem_run_iff
  case distinct => exact nodup_run calls
  case few => exact Slots.size_le _
  case illegal_iff => exact hillegal
  case exhausted_iff => exact hexhausted
  case registered =>
    intro b hfresh hroom
    rcases register_cases (run calls) b with h | h | ⟨slot, t, h⟩
    · obtain ⟨slot, hknown⟩ := (hillegal b).mp h
      exact absurd hknown (hfresh slot)
    · exact absurd ((hexhausted b).mp h).2 hroom
    · exact ⟨slot, t, h, live_snoc_iff.mpr (.inl ⟨rfl, t, h⟩)⟩
  case refused =>
    intro b err h
    rw [run_snoc]
    unfold after
    dsimp only
    rw [h]
  case refused_unregister =>
    intro slot err h
    rw [run_snoc]
    unfold after
    dsimp only
    rw [h]
  case source => exact fun _ _ _ => lookup_run_of_source
  case any => exact fun _ _ _ => lookup_run_of_any
  case nobody => exact fun _ _ => lookup_run_none
  case unordered =>
    intro calls' hsame d s
    have hsame' (b : Binding) : b ∈ (run calls).slots.toList ↔ b ∈ (run calls').slots.toList := by
      rw [mem_run_iff, mem_run_iff, hsame]
    simp only [bind_lookup_run, hsame']

end NetEngine.Udp.PortTable
