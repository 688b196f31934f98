import NetEngine.Proofs.Arp.Cache

/-! # What the Neighbour Cache Has Been Told

    The cache holds three neighbours.  What it answers can be told from all that has
    been done to it: who was learnt, who was removed, how many seconds have passed,
    and who had to give way.

    * **Actions**: what is done to a cache, and when somebody is evicted by it.
    * **Accounts**: when an address was learnt last, and what has happened to it
      since.
    * **Keeping**: every neighbour is accounted for, after each action as before.
    * **Remembering**: an address is remembered exactly if the account says so. -/

namespace NetEngine.Arp.Cache

/-! ## Actions -/

/-- What is done to a cache. -/
inductive Action where
  | learn (a : Ipv4Address) (hardware : MacAddress)
  | remove (a : Ipv4Address)
  | tick
deriving DecidableEq

/-- The cache after an action. -/
def after (c : Cache) : Action → Cache
  | .learn a hardware => c.learn a hardware
  | .remove a => c.remove a
  | .tick => c.tick

/-- The cache after actions, from one that remembers nobody. -/
def run (lifetime : Countdown) (actions : List Action) : Cache :=
  actions.foldl after (.empty lifetime)

/-- Somebody is learnt, and a neighbour who was known is not known any more. -/
def Evicts (c : Cache) (action : Action) (e : Neighbour) : Prop :=
  (∃ a hardware, action = .learn a hardware) ∧ e ∈ c.toList ∧
    ∀ n ∈ (c.after action).toList, n.protocol ≠ e.protocol

variable {c : Cache} {lifetime : Countdown} {actions since : List Action} {action : Action}
  {a : Ipv4Address} {hardware hardware' : MacAddress} {e : Neighbour}

theorem run_snoc (lifetime : Countdown) (actions : List Action) (action : Action) :
    run lifetime (actions ++ [action]) = (run lifetime actions).after action := by
  simp [run]

@[simp] theorem lifetime_after (c : Cache) (action : Action) :
    (c.after action).lifetime = c.lifetime := by
  cases action with
  | learn a hardware =>
    show (c.learn a hardware).lifetime = c.lifetime
    unfold learn
    split
    · split <;> rfl
    · rfl
  | remove a =>
    show (c.remove a).lifetime = c.lifetime
    unfold remove
    split <;> rfl
  | tick => rfl

@[simp] theorem lifetime_run (lifetime : Countdown) (actions : List Action) :
    (run lifetime actions).lifetime = lifetime := by
  induction actions using List.reverseRecOn with
  | nil => rfl
  | append_singleton actions action ih => rw [run_snoc, lifetime_after, ih]

theorem distinct_run (lifetime : Countdown) (actions : List Action) :
    (run lifetime actions).Distinct := by
  induction actions using List.reverseRecOn with
  | nil => exact distinct_empty lifetime
  | append_singleton actions action ih =>
    rw [run_snoc]
    cases action with
    | learn a hardware => exact ih.learn a hardware
    | remove a => exact ih.remove a
    | tick => exact ih.tick

/-- What an eviction is: somebody new comes to a full cache, and takes the slot of the neighbour who
would be forgotten first. -/
structure Eviction (c : Cache) (a : Ipv4Address) (hardware : MacAddress) (slot : Nat)
    (e : Neighbour) : Prop where
  learnable : isLearnable a
  unknown : ∀ n ∈ c.toList, n.protocol ≠ a
  full : c.toList.length = capacity
  victim : c.ForgottenFirst slot e
  /-- The other slots stay as they are. -/
  replaced : c.learn a hardware =
    { c with slots := c.slots.put slot (some ⟨a, hardware, c.lifetime⟩) }

/-- **Nobody is evicted but by an eviction.** -/
theorem eviction_of_evicts (evicts : c.Evicts action e) :
    ∃ a hardware slot, action = .learn a hardware ∧ c.Eviction a hardware slot e := by
  obtain ⟨⟨a, hardware, rfl⟩, hknown, hgone⟩ := evicts
  replace hgone : ∀ n ∈ (c.learn a hardware).toList, n.protocol ≠ e.protocol := hgone
  have hlearnable : isLearnable a := by
    rw [← Bool.not_eq_false]
    intro hrefused
    rw [learn_of_not_learnable (by simp [hrefused])] at hgone
    exact hgone e hknown rfl
  have hother : a ≠ e.protocol := hgone _ (mem_learn_self hlearnable c hardware)
  obtain ⟨slot, hlt, hadmits, heq⟩ := learn_admitted hlearnable c hardware
  -- The neighbour was in the slot that is taken, since every other slot stays as it is.
  obtain ⟨i, hi⟩ := (Slots.mem_toList _ _).mp hknown
  obtain rfl : slot = i := by
    by_contra hne
    refine hgone e ?_ rfl
    rw [heq]
    exact (Slots.mem_toList _ _).mpr ⟨i, (Slots.get?_put_of_ne _ hne _).trans hi⟩
  cases hadmits with
  | own n held same =>
    rw [hi] at held
    cases held
    exact absurd same.symm hother
  | free unknown nobody =>
    rw [hi] at nobody
    cases nobody
  | evicting n unknown full victim =>
    have hvictim := victim.held
    rw [hi] at hvictim
    cases hvictim
    exact ⟨a, hardware, slot, rfl, hlearnable, unknown, full, victim, heq⟩

/-! ## Accounts -/

/-- The address was learnt last as that of `hardware`, and `since` is what has been done since. -/
def LastLearnt (actions : List Action) (a : Ipv4Address) (hardware : MacAddress)
    (since : List Action) : Prop :=
  isLearnable a ∧ (∀ other, .learn a other ∉ since) ∧
    ∃ before, actions = before ++ .learn a hardware :: since

/-- Somebody with that address has been evicted by one of the last actions. -/
def EvictedIn (lifetime : Countdown) (actions since : List Action) (a : Ipv4Address) : Prop :=
  ∃ past action rest e, actions = past ++ action :: rest ∧ action :: rest <:+ since ∧
    (run lifetime past).Evicts action e ∧ e.protocol = a

/-- The address was learnt last as that of `hardware`, `n` seconds ago, and has been neither removed
nor evicted since. -/
def Stands (lifetime : Countdown) (actions : List Action) (a : Ipv4Address)
    (hardware : MacAddress) (n : Nat) : Prop :=
  ∃ since, LastLearnt actions a hardware since ∧ since.count .tick = n ∧ .remove a ∉ since ∧
    ¬ EvictedIn lifetime actions since a

theorem lastLearnt_snoc_iff : LastLearnt (actions ++ [action]) a hardware since ↔
    isLearnable a ∧ since = [] ∧ action = .learn a hardware ∨
      ∃ past, since = past ++ [action] ∧ LastLearnt actions a hardware past ∧
        ∀ other, action ≠ .learn a other := by
  constructor
  · rintro ⟨hlearnable, hnever, before, hsplit⟩
    rcases List.eq_nil_or_concat since with rfl | ⟨past, last, rfl⟩
    · obtain ⟨-, hlast⟩ := List.append_singleton_inj.mp hsplit
      exact .inl ⟨hlearnable, rfl, hlast⟩
    · rw [List.concat_eq_append] at hsplit hnever ⊢
      rw [← List.cons_append, ← List.append_assoc] at hsplit
      obtain ⟨hactions, rfl⟩ := List.append_singleton_inj.mp hsplit
      refine .inr ⟨past, rfl, ⟨hlearnable, fun other hmem => ?_, before, hactions⟩, ?_⟩
      · exact hnever other (List.mem_append_left _ hmem)
      · rintro other rfl
        exact hnever other (by simp)
  · rintro (⟨hlearnable, rfl, rfl⟩ | ⟨past, rfl, ⟨hlearnable, hnever, before, rfl⟩, hother⟩)
    · exact ⟨hlearnable, by simp, actions, rfl⟩
    · refine ⟨hlearnable, fun other hmem => ?_, before, by simp⟩
      rcases List.mem_append.mp hmem with hmem | hmem
      · exact hnever other hmem
      · exact hother other (List.mem_singleton.mp hmem).symm

theorem not_evictedIn_nil : ¬ EvictedIn lifetime actions [] a := by
  rintro ⟨past, action, rest, e, -, hsuffix, -⟩
  simp at hsuffix

theorem evictedIn_snoc_iff : EvictedIn lifetime (actions ++ [action]) (since ++ [action]) a ↔
    EvictedIn lifetime actions since a ∨
      ∃ e, (run lifetime actions).Evicts action e ∧ e.protocol = a := by
  constructor
  · rintro ⟨past, evicting, rest, e, hsplit, hsuffix, hevicts, hsame⟩
    -- Either the last action is the one, or it is one of those before.
    rcases List.eq_nil_or_concat rest with rfl | ⟨rest, last, rfl⟩
    · obtain ⟨rfl, rfl⟩ := List.append_singleton_inj.mp hsplit
      exact .inr ⟨e, hevicts, hsame⟩
    · rw [List.concat_eq_append, ← List.cons_append] at hsplit hsuffix
      rw [← List.append_assoc] at hsplit
      obtain ⟨rfl, rfl⟩ := List.append_singleton_inj.mp hsplit
      have hbefore : evicting :: rest <:+ since :=
        ((List.suffix_append_inj_of_length_eq rfl).mp hsuffix).1
      exact .inl ⟨past, evicting, rest, e, rfl, hbefore, hevicts, hsame⟩
  · rintro (⟨past, evicting, rest, e, rfl, hsuffix, hevicts, hsame⟩ | ⟨e, hevicts, hsame⟩)
    · refine ⟨past, evicting, rest ++ [action], e, by simp, ?_, hevicts, hsame⟩
      rw [← List.cons_append]
      exact (List.suffix_append_inj_of_length_eq rfl).mpr ⟨hsuffix, rfl⟩
    · exact ⟨actions, action, [], e, rfl, List.suffix_append since [action], hevicts, hsame⟩

theorem not_stands_nil {n : Nat} : ¬ Stands lifetime [] a hardware n := by
  rintro ⟨since, ⟨-, -, before, hsplit⟩, -⟩
  simp at hsplit

/-- **What an account says after one more action**: the address has just been learnt, or it stood
before and the action has not disturbed it. -/
theorem stands_snoc_iff {n : Nat} : Stands lifetime (actions ++ [action]) a hardware n ↔
    isLearnable a ∧ action = .learn a hardware ∧ n = 0 ∨
      ∃ m, Stands lifetime actions a hardware m ∧ n = m + [action].count .tick ∧
        (∀ other, action ≠ .learn a other) ∧ action ≠ .remove a ∧
        ¬ ∃ e, (run lifetime actions).Evicts action e ∧ e.protocol = a := by
  constructor
  · rintro ⟨since, hlast, rfl, hremoved, hevicted⟩
    rcases lastLearnt_snoc_iff.mp hlast with ⟨hlearnable, rfl, hnow⟩ | ⟨past, rfl, hpast, hother⟩
    · exact .inl ⟨hlearnable, hnow, rfl⟩
    · rw [evictedIn_snoc_iff, not_or] at hevicted
      rw [List.mem_append, not_or, List.mem_singleton] at hremoved
      have hstood : Stands lifetime actions a hardware (past.count .tick) :=
        ⟨past, hpast, rfl, hremoved.1, hevicted.1⟩
      exact .inr ⟨_, hstood, List.count_append, hother, Ne.symm hremoved.2, hevicted.2⟩
  · rintro (⟨hlearnable, hnow, rfl⟩ |
      ⟨m, ⟨past, hpast, rfl, hremoved, hevicted⟩, rfl, hother, hkept, hspared⟩)
    · have hlast : LastLearnt (actions ++ [action]) a hardware [] :=
        lastLearnt_snoc_iff.mpr (.inl ⟨hlearnable, rfl, hnow⟩)
      refine ⟨[], hlast, rfl, List.not_mem_nil, not_evictedIn_nil⟩
    · refine ⟨past ++ [action], lastLearnt_snoc_iff.mpr (.inr ⟨past, rfl, hpast, hother⟩),
        List.count_append, ?_, ?_⟩
      · rw [List.mem_append, not_or, List.mem_singleton]
        exact ⟨hremoved, Ne.symm hkept⟩
      · rw [evictedIn_snoc_iff, not_or]
        exact ⟨hevicted, hspared⟩

/-- There is one account of an address. -/
theorem Stands.unique {n n' : Nat} (h : Stands lifetime actions a hardware n)
    (h' : Stands lifetime actions a hardware' n') : hardware = hardware' ∧ n = n' := by
  induction actions using List.reverseRecOn generalizing n n' with
  | nil => exact absurd h not_stands_nil
  | append_singleton actions action ih =>
    rcases stands_snoc_iff.mp h with ⟨-, rfl, rfl⟩ | ⟨m, hstood, rfl, hother, -⟩
    · rcases stands_snoc_iff.mp h' with ⟨-, heq, rfl⟩ | ⟨m', -, -, hother', -⟩
      · cases heq
        exact ⟨rfl, rfl⟩
      · exact absurd rfl (hother' hardware)
    · rcases stands_snoc_iff.mp h' with ⟨-, rfl, -⟩ | ⟨m', hstood', rfl, -⟩
      · exact absurd rfl (hother hardware')
      · obtain ⟨rfl, rfl⟩ := ih hstood hstood'
        exact ⟨rfl, rfl⟩

theorem Stands.learnable {n : Nat} (h : Stands lifetime actions a hardware n) :
    isLearnable a := by
  obtain ⟨since, ⟨hlearnable, -⟩, -⟩ := h
  exact hlearnable

/-! ## Keeping -/

/-- The neighbour is accounted for: the seconds that it has to go and those since it was learnt make
up a lifetime. -/
def Accounted (lifetime : Countdown) (actions : List Action) (e : Neighbour) : Prop :=
  ∃ n, Stands lifetime actions e.protocol e.hardware n ∧
    e.ticks.toNat + n = lifetime.toNat ∧ 0 < e.ticks.toNat

/-- **Every neighbour is accounted for**, if neighbours are remembered for some time at all. -/
theorem accounted_run (lasting : 0 < lifetime.toNat) (known : e ∈ (run lifetime actions).toList) :
    Accounted lifetime actions e := by
  induction actions using List.reverseRecOn generalizing e with
  | nil => cases known
  | append_singleton actions action ih =>
    have hdistinct := distinct_run lifetime actions
    rw [run_snoc] at known
    -- Who is still known has not been evicted.
    have hspared : ¬ ∃ old, (run lifetime actions).Evicts action old ∧
        old.protocol = e.protocol := by
      rintro ⟨old, ⟨-, -, hgone⟩, hsame⟩
      exact hgone e known hsame.symm
    cases action with
    | learn a hardware =>
      replace known : e ∈ ((run lifetime actions).learn a hardware).toList := known
      have hold (hknown : e ∈ (run lifetime actions).toList) (hother : e.protocol ≠ a) :
          Accounted lifetime (actions ++ [.learn a hardware]) e := by
        obtain ⟨n, hstands, hsum, hleft⟩ := ih hknown
        refine ⟨n, stands_snoc_iff.mpr (.inr ⟨n, hstands, rfl, ?_, by simp, hspared⟩), hsum, hleft⟩
        rintro other heq
        cases heq
        exact hother rfl
      by_cases hlearnable : isLearnable a
      · rcases hdistinct.mem_learn hlearnable known with rfl | ⟨hknown, hother⟩
        · rw [lifetime_run]
          exact ⟨0, stands_snoc_iff.mpr (.inl ⟨hlearnable, rfl, rfl⟩), rfl, lasting⟩
        · exact hold hknown hother
      · rw [learn_of_not_learnable hlearnable] at known
        obtain ⟨n, hstands, -⟩ := ih known
        refine hold known ?_
        rintro rfl
        exact hlearnable hstands.learnable
    | remove a =>
      replace known : e ∈ ((run lifetime actions).remove a).toList := known
      have hother : e.protocol ≠ a := hdistinct.ne_of_mem_remove known
      obtain ⟨i, hi⟩ := (Slots.mem_toList _ _).mp known
      obtain ⟨n, hstands, hsum, hleft⟩ :=
        ih ((Slots.mem_toList _ _).mpr ⟨i, get?_remove_eq_some hi⟩)
      refine ⟨n, stands_snoc_iff.mpr (.inr ⟨n, hstands, rfl, by simp, ?_, hspared⟩), hsum, hleft⟩
      rintro heq
      cases heq
      exact hother rfl
    | tick =>
      obtain ⟨i, hi⟩ := (Slots.mem_toList _ _).mp known
      obtain ⟨m, hm, hleft, rfl⟩ := get?_tick_eq_some hi
      obtain ⟨n, hstands, hsum, -⟩ := ih ((Slots.mem_toList _ _).mpr ⟨i, hm⟩)
      have htick := Countdown.toNat_tick m.ticks
      have hpos := Countdown.toNat_ne_zero hleft
      refine ⟨n + 1, stands_snoc_iff.mpr (.inr ⟨n, hstands, rfl, by simp, by simp, hspared⟩), ?_, ?_⟩
      · dsimp only
        omega
      · exact Nat.pos_of_ne_zero hpos

/-- Whoever stands in the account for less than a lifetime is known. -/
theorem exists_mem_of_stands {n : Nat} (stands : Stands lifetime actions a hardware n)
    (recent : n < lifetime.toNat) : ∃ e ∈ (run lifetime actions).toList, e.protocol = a := by
  induction actions using List.reverseRecOn generalizing n with
  | nil => exact absurd stands not_stands_nil
  | append_singleton actions action ih =>
    rw [run_snoc]
    rcases stands_snoc_iff.mp stands with
      ⟨hlearnable, rfl, -⟩ | ⟨m, hstood, rfl, hother, hkept, hspared⟩
    · exact ⟨_, mem_learn_self hlearnable _ hardware, rfl⟩
    · obtain ⟨e, hknown, rfl⟩ := ih hstood (by omega)
      cases action with
      | learn b hardware =>
        -- If nobody had the address afterwards, its neighbour would have been evicted.
        by_contra hgone
        simp only [not_exists, not_and] at hgone
        exact hspared ⟨e, ⟨⟨b, hardware, rfl⟩, hknown, hgone⟩, rfl⟩
      | remove b =>
        have hne : e.protocol ≠ b := by
          rintro rfl
          exact hkept rfl
        exact ⟨e, mem_remove_of_ne hknown hne, rfl⟩
      | tick =>
        have hlasting : 0 < lifetime.toNat := by omega
        obtain ⟨k, hstands, hsum, -⟩ := accounted_run hlasting hknown
        obtain ⟨-, rfl⟩ := hstood.unique hstands
        have hcount : [Action.tick].count .tick = 1 := rfl
        exact ⟨_, mem_tick_of_lasting hknown (by omega), rfl⟩

/-! ## Remembering -/

/-- **An address is looked up as the account says.** -/
theorem lookup_run_eq_some_iff (lasting : 0 < lifetime.toNat) :
    (run lifetime actions).lookup a = some hardware ↔
      ∃ n < lifetime.toNat, Stands lifetime actions a hardware n := by
  constructor
  · intro hfound
    obtain ⟨e, hknown, rfl, rfl⟩ := exists_of_lookup hfound
    obtain ⟨n, hstands, hsum, hleft⟩ := accounted_run lasting hknown
    exact ⟨n, by omega, hstands⟩
  · rintro ⟨n, hrecent, hstands⟩
    obtain ⟨e, hknown, rfl⟩ := exists_mem_of_stands hstands hrecent
    cases hfound : (run lifetime actions).lookup e.protocol with
    | none => exact absurd rfl (lookup_eq_none_iff.mp hfound e hknown)
    | some found =>
      -- What is found has an account too, and there is one account only.
      obtain ⟨other, hother, hsame, rfl⟩ := exists_of_lookup hfound
      obtain ⟨m, hstands', -⟩ := accounted_run lasting hother
      rw [hsame] at hstands'
      rw [(hstands'.unique hstands).1]

/-- The cache is a map with three places and with deadlines, and holds what has been told to it. -/
structure Remembers (lifetime : Countdown) (actions : List Action) : Prop where
  few : (run lifetime actions).toList.length ≤ 3
  distinct : ((run lifetime actions).toList.map (·.protocol)).Nodup
  hosts : ∀ e ∈ (run lifetime actions).toList, e.protocol ≠ .unspecified ∧ e.protocol ≠ .broadcast
  /-- A neighbour has as many seconds to go as are left of a lifetime since it was learnt last. -/
  counted : ∀ e ∈ (run lifetime actions).toList, ∃ since,
    LastLearnt actions e.protocol e.hardware since ∧
      e.ticks.toNat = lifetime.toNat - since.count .tick ∧
      1 ≤ e.ticks.toNat ∧ e.ticks.toNat ≤ lifetime.toNat
  /-- An address belongs to the neighbour that it was last learnt of, for less than a lifetime, if it
  has been neither removed nor evicted since. -/
  lookup_iff : ∀ a hardware, (run lifetime actions).lookup a = some hardware ↔ ∃ since,
    LastLearnt actions a hardware since ∧ since.count .tick < lifetime.toNat ∧
      .remove a ∉ since ∧ ¬ EvictedIn lifetime actions since a
  /-- Whoever is evicted gives way to somebody new, where three neighbours are known, and is the first
  one of those who have the fewest seconds to go.  Nobody else is concerned. -/
  evicted : ∀ action e, (run lifetime actions).Evicts action e →
    ∃ a hardware slot, action = .learn a hardware ∧
      (run lifetime actions).Eviction a hardware slot e

/-- **The cache remembers what it has been told**, whatever has been done to it. -/
theorem remembers_run (lasting : 1 ≤ lifetime) (actions : List Action) :
    Remembers lifetime actions := by
  have hlasting : 0 < lifetime.toNat := UInt8.le_iff_toNat_le.mp lasting
  constructor
  case few => exact Slots.size_le _
  case distinct => exact (distinct_run lifetime actions).nodup
  case hosts =>
    intro e hknown
    obtain ⟨n, hstands, -⟩ := accounted_run hlasting hknown
    simpa [isLearnable, Ipv4Address.isUnspecified, Ipv4Address.isBroadcast]
      using hstands.learnable
  case counted =>
    intro e hknown
    obtain ⟨n, ⟨since, hlast, rfl, -⟩, hsum, hleft⟩ := accounted_run hlasting hknown
    exact ⟨since, hlast, by omega, hleft, by omega⟩
  case lookup_iff =>
    intro a hardware
    rw [lookup_run_eq_some_iff hlasting]
    constructor
    · rintro ⟨n, hrecent, since, hlast, rfl, hremoved, hevicted⟩
      exact ⟨since, hlast, hrecent, hremoved, hevicted⟩
    · rintro ⟨since, hlast, hrecent, hremoved, hevicted⟩
      exact ⟨_, hrecent, since, hlast, rfl, hremoved, hevicted⟩
  case evicted =>
    intro action e hevicts
    exact eviction_of_evicts hevicts

/-- Three neighbours are known, one of them longer than the others, who gives way to a fourth one. -/
theorem remembers_run_evicting :
    let host (d : UInt8) : Ipv4Address := ⟨10, 0, 0, d⟩
    let station (d : UInt8) : MacAddress := ⟨2, 0, 0, 0, 0, d⟩
    let told (d : UInt8) : Action := .learn (host d) (station d)
    let actions := [told 1, told 2, .tick, told 3, told 1]
    Remembers 3 actions ∧ (run 3 actions).Evicts (told 4) ⟨host 2, station 2, 2⟩ ∧
      (run 3 (actions ++ [told 4])).lookup (host 1) = some (station 1) := by
  intro host station told actions
  have hevicts : (run 3 actions).Evicts (told 4) ⟨host 2, station 2, 2⟩ :=
    ⟨⟨host 4, station 4, rfl⟩, by decide, by decide⟩
  exact ⟨remembers_run (by decide) actions, hevicts, by decide⟩

end NetEngine.Arp.Cache
