import NetEngine.Proofs.Udp.Dispatching

/-! # What a Handle Stands For

    Who registers a binding is told its slot, and shows it again when the binding
    is to be given up.  This is his **handle**.  It is the number of a slot and
    nothing more, and the slot can be taken by others.

    * **Giving up**: what is accepted, and what it changes.
    * **Handles**: those that the registrations among calls have returned.
    * **Naming**: a handle names its registration if it is accepted as long as the
      registration is live, and refused from then on.  It does so until its slot
      is taken again. -/

namespace NetEngine.Udp.PortTable

variable {t t' : PortTable} {b c : Binding} {handle slot : Nat} {calls before since : List Call}

/-! ## Giving up -/

theorem unregister_eq_illegal_iff (t : PortTable) (slot : Nat) :
    t.unregister slot = .error .illegal ↔ t.slots.get? slot = none := by
  unfold unregister
  cases t.slots.get? slot <;> simp

theorem unregister_eq_ok_iff : t.unregister slot = .ok t' ↔
    (∃ b, t.slots.get? slot = some b) ∧ t' = { t with slots := t.slots.put slot none } := by
  unfold unregister
  cases t.slots.get? slot with
  | none => simp
  | some b => simp [eq_comm]

theorem exists_unregister_iff :
    (∃ t', t.unregister slot = .ok t') ↔ ∃ b, t.slots.get? slot = some b := by
  simp only [unregister_eq_ok_iff, exists_and_left, exists_eq, and_true]

/-! ## Handles -/

/-- The handle that a call returns, if it registers a binding. -/
def handle? (t : PortTable) : Call → Option Nat
  | .register b => (t.register b).toOption.map (·.1)
  | .unregister _ => none

/-- The handles that calls of a table return, in turn. -/
def handlesFrom (t : PortTable) : List Call → List Nat
  | [] => []
  | call :: calls => (t.handle? call).toList ++ (t.after call).handlesFrom calls

/-- The handles that calls return, of a table without bindings at first. -/
def handles (calls : List Call) : List Nat := PortTable.empty.handlesFrom calls

theorem handlesFrom_append (t : PortTable) (calls more : List Call) :
    t.handlesFrom (calls ++ more) =
      t.handlesFrom calls ++ (calls.foldl after t).handlesFrom more := by
  induction calls generalizing t with
  | nil => rfl
  | cons call calls ih =>
    simp only [List.cons_append, handlesFrom, List.foldl_cons]
    rw [ih, List.append_assoc]

theorem handles_append (calls more : List Call) :
    handles (calls ++ more) = handles calls ++ (run calls).handlesFrom more :=
  handlesFrom_append _ calls more

theorem handle?_eq_some_iff {call : Call} : t.handle? call = some handle ↔
    ∃ b t', call = .register b ∧ t.register b = .ok (handle, t') := by
  cases call with
  | unregister slot => simp [handle?]
  | register b =>
    unfold handle?
    cases hregister : t.register b with
    | error err => simp [hregister, Except.toOption]
    | ok result =>
      obtain ⟨slot, t'⟩ := result
      simp [hregister, Except.toOption]

/-- A handle has been returned by a registration among the calls. -/
theorem mem_handles_iff : handle ∈ handles calls ↔
    ∃ before b since t, calls = before ++ .register b :: since ∧
      (run before).register b = .ok (handle, t) := by
  constructor
  · intro hmem
    induction calls using List.reverseRecOn with
    | nil => cases hmem
    | append_singleton calls call ih =>
      rw [handles_append, List.mem_append] at hmem
      rcases hmem with hmem | hmem
      · obtain ⟨before, b, since, t, rfl, hregister⟩ := ih hmem
        exact ⟨before, b, since ++ [call], t, by simp, hregister⟩
      · have hlast : (run calls).handle? call = some handle := by
          simpa [handlesFrom] using hmem
        obtain ⟨b, t, rfl, hregister⟩ := handle?_eq_some_iff.mp hlast
        exact ⟨calls, b, [], t, rfl, hregister⟩
  · rintro ⟨before, b, since, t, rfl, hregister⟩
    have hfirst : (run before).handle? (.register b) = some handle :=
      handle?_eq_some_iff.mpr ⟨b, t, rfl, hregister⟩
    rw [handles_append, handlesFrom, hfirst]
    simp

/-! ## Naming -/

/-- In a table, a handle names the registration of a binding and nothing else, whether or not this
registration is live. -/
structure Names (t : PortTable) (handle : Nat) (b : Binding) (live : Prop) : Prop where
  accepted_iff : (∃ t', t.unregister handle = .ok t') ↔ live
  /-- What is given up is the registration that is named, and no other. -/
  removes : ∀ t', t.unregister handle = .ok t' → t.slots.get? handle = some b ∧
    ∀ slot, t'.slots.get? slot = if slot = handle then none else t.slots.get? slot
  told : ∀ p, t.localPort? handle = some p → live ∧ p = b.localPort
  refused : ¬ live → t.unregister handle = .error .illegal

/-- A registration that has not been given up is in the slot that it was told. -/
theorem get?_of_kept (returned : (run before).register b = .ok (handle, t))
    (kept : .unregister handle ∉ since) :
    (run (before ++ .register b :: since)).slots.get? handle = some b :=
  get?_run_iff.mpr ⟨before, since, t, rfl, returned, kept⟩

/-- **A handle names its registration** exactly if nobody is in its slot once the registration has
been given up. -/
theorem names_iff (returned : (run before).register b = .ok (handle, t)) :
    Names (run (before ++ .register b :: since)) handle b (.unregister handle ∉ since) ↔
      (.unregister handle ∈ since →
        (run (before ++ .register b :: since)).slots.get? handle = none) := by
  constructor
  · intro names past
    exact (unregister_eq_illegal_iff _ _).mp (names.refused (not_not_intro past))
  · intro free
    -- What is in the slot is the registration itself.
    have hheld {c : Binding}
        (held : (run (before ++ .register b :: since)).slots.get? handle = some c) :
        .unregister handle ∉ since ∧ c = b := by
      have hkept : .unregister handle ∉ since := by
        intro past
        rw [free past] at held
        cases held
      rw [get?_of_kept returned hkept] at held
      cases held
      exact ⟨hkept, rfl⟩
    constructor
    case accepted_iff =>
      rw [exists_unregister_iff]
      constructor
      · rintro ⟨c, held⟩
        exact (hheld held).1
      · exact fun kept => ⟨b, get?_of_kept returned kept⟩
    case removes =>
      intro t' accepted
      obtain ⟨⟨c, held⟩, rfl⟩ := unregister_eq_ok_iff.mp accepted
      obtain rfl := (hheld held).2
      refine ⟨held, fun slot => ?_⟩
      by_cases hsame : slot = handle
      · rw [if_pos hsame, hsame]
        exact Slots.get?_put_self _ (Slots.lt_of_get? held) none
      · rw [if_neg hsame]
        exact Slots.get?_put_of_ne _ (Ne.symm hsame) none
    case told =>
      intro p hport
      obtain ⟨c, held, rfl⟩ := Option.map_eq_some_iff.mp hport
      obtain ⟨kept, rfl⟩ := hheld held
      exact ⟨kept, rfl⟩
    case refused =>
      intro past
      exact (unregister_eq_illegal_iff _ _).mpr (free (not_not.mp past))

/-- Throughout the calls, every handle names the registration that has returned it. -/
def NamesThroughout (calls : List Call) : Prop :=
  ∀ before b since later handle t, calls = before ++ .register b :: (since ++ later) →
    (run before).register b = .ok (handle, t) →
      Names (run (before ++ .register b :: since)) handle b (.unregister handle ∉ since)

/-- A handle that is returned again has been returned by two registrations. -/
theorem not_nodup_handles {mid rest : List Call}
    (first : (run before).register b = .ok (handle, t))
    (second : (run (before ++ .register b :: mid)).register c = .ok (handle, t')) :
    ¬ (handles (before ++ .register b :: (mid ++ .register c :: rest))).Nodup := by
  intro nodup
  have hsplit : before ++ .register b :: (mid ++ .register c :: rest) =
      (before ++ .register b :: mid) ++ .register c :: rest := by simp
  have hagain : (run (before ++ .register b :: mid)).handle? (.register c) = some handle :=
    handle?_eq_some_iff.mpr ⟨c, t', rfl, second⟩
  rw [hsplit, handles_append, handlesFrom, hagain, List.nodup_append] at nodup
  exact nodup.2.2 handle (mem_handles_iff.mpr ⟨before, b, mid, t, rfl, first⟩) handle (by simp) rfl

/-- As long as no handle is returned again, the slot of a registration that has been given up stays
free. -/
theorem get?_of_past (nodup : (handles (before ++ .register b :: since)).Nodup)
    (returned : (run before).register b = .ok (handle, t)) (past : .unregister handle ∈ since) :
    (run (before ++ .register b :: since)).slots.get? handle = none := by
  by_contra hheld
  obtain ⟨c, hc⟩ := Option.ne_none_iff_exists'.mp hheld
  -- The slot has been taken by a registration that is live.
  obtain ⟨before', since', t', hsplit, hreturned, hkept⟩ := get?_run_iff.mp hc
  rcases List.append_eq_append_iff.mp hsplit with
    ⟨_ | ⟨call, mid⟩, rfl, hlater⟩ | ⟨_ | ⟨call, mid⟩, rfl, hearlier⟩
  · cases hlater
    exact hkept past
  · obtain ⟨rfl, rfl⟩ := List.cons.inj hlater
    exact not_nodup_handles returned hreturned nodup
  · cases hearlier
    exact hkept past
  · -- One that came before has been given up as well.
    obtain ⟨rfl, rfl⟩ := List.cons.inj hearlier
    exact hkept (List.mem_append_right _ (List.mem_cons_of_mem _ past))

/-- A slot is not given to others as long as its registration is live. -/
theorem past_of_returned_again (first : (run before).register b = .ok (handle, t))
    (second : (run (before ++ .register b :: since)).register c = .ok (handle, t')) :
    .unregister handle ∈ since := by
  by_contra hkept
  obtain ⟨-, hfree, -⟩ := register_eq_ok_iff.mp second
  have hnone := (Slots.get?_of_free? hfree).1
  rw [get?_of_kept first hkept] at hnone
  cases hnone

theorem NamesThroughout.of_append {more : List Call} (h : NamesThroughout (calls ++ more)) :
    NamesThroughout calls := by
  rintro before b since later handle t rfl returned
  exact h before b since (later ++ more) handle t (by simp) returned

/-- **Handles name their registrations throughout** exactly if no two registrations are told the same
slot. -/
theorem namesThroughout_iff (calls : List Call) : NamesThroughout calls ↔ (handles calls).Nodup := by
  constructor
  · intro names
    -- By induction from the end: only the last call can return a handle once more.
    induction calls using List.reverseRecOn with
    | nil => exact List.nodup_nil
    | append_singleton calls call ih =>
      rw [handles_append, List.nodup_append]
      have hlast (h : Nat) : h ∈ (run calls).handlesFrom [call] ↔
          (run calls).handle? call = some h := by simp [handlesFrom]
      refine ⟨ih names.of_append, ?_, ?_⟩
      · cases hcall : (run calls).handle? call <;> simp [handlesFrom, hcall]
      · rintro handle hold _ hnew rfl
        obtain ⟨c, t', rfl, second⟩ := handle?_eq_some_iff.mp ((hlast handle).mp hnew)
        obtain ⟨before, b, since, t, rfl, first⟩ := mem_handles_iff.mp hold
        have hpast := past_of_returned_again first second
        have hnames := names before b (since ++ [.register c]) [] handle t (by simp) first
        have hfree := (names_iff first).mp hnames (List.mem_append_left _ hpast)
        -- But the slot has just been taken.
        have htaken : (run (before ++ .register b :: (since ++ [.register c]))).slots.get? handle =
            some c :=
          get?_run_iff.mpr ⟨before ++ .register b :: since, [], t', by simp, second,
            List.not_mem_nil⟩
        rw [htaken] at hfree
        cases hfree
  · rintro nodup before b since later handle t rfl returned
    have hsplit : before ++ .register b :: (since ++ later) =
        (before ++ .register b :: since) ++ later := by simp
    rw [hsplit, handles_append] at nodup
    exact (names_iff returned).mpr fun past =>
      get?_of_past (List.nodup_append.mp nodup).1 returned past

/-- **A binding is lost to a handle that has been used up**: the slot of the first registration is
taken by another one, which the first handle then gives up. -/
theorem other_binding_lost :
    let calls := [.register ⟨1000, none⟩, .unregister 0, .register ⟨2000, none⟩]
    ¬ NamesThroughout calls ∧ (run calls).slots.toList = [⟨2000, none⟩] ∧
      (run (calls ++ [.unregister 0])).slots.toList = [] := by
  refine ⟨fun names => ?_, rfl, rfl⟩
  have hnames := names [] ⟨1000, none⟩ [.unregister 0, .register ⟨2000, none⟩] [] 0 _ rfl rfl
  exact hnames.accepted_iff.mp ⟨_, rfl⟩ (by simp)

end NetEngine.Udp.PortTable
