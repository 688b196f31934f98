import Mathlib.Data.List.Nodup
import Mathlib.Data.List.Perm.Subperm
import NetEngine.Proofs.Slots
import NetEngine.Udp.PortTable

/-! # Ephemeral Ports in Turn

    A fresh port is looked for from the cursor on, past those that are taken and
    round about.  The search would go on for ever if all of them were taken.

    * **Range**: the ports and their places, and what comes after the last one.
    * **Ahead**: the places that a search tries, in turn.  The search finds the
      first one that is free.
    * **Turns**: searches one after the other find the free places in turn, so
      that no port comes twice before all have come.
    * **Counting**: few ports are taken, so that nearly all places are free. -/

namespace NetEngine.Udp.PortTable

variable {taken alsoTaken : UInt16 → Bool} {c d : Fin ephemeralCount} {m n : Nat} {t : PortTable}

/-! ## Range -/

theorem toNat_ephemeral (c : Fin ephemeralCount) : (ephemeral c).toNat = 0xc080 + c.val := by
  have hc := c.isLt
  unfold ephemeralCount ephemeralStart at hc
  unfold ephemeral ephemeralStart
  rw [UInt16.toNat_ofNat']
  omega

theorem ephemeral_injective : Function.Injective ephemeral := by
  intro c d h
  have hnat := congrArg UInt16.toNat h
  rw [toNat_ephemeral, toNat_ephemeral] at hnat
  exact Fin.ext (Nat.add_left_cancel hnat)

theorem val_succ (c : Fin ephemeralCount) : (c + 1).val = (c.val + 1) % 16256 := rfl

/-- Behind the last port comes the first one. -/
theorem ephemeral_succ (c : Fin ephemeralCount) :
    (ephemeral (c + 1)).toNat =
      if (ephemeral c).toNat = 0xffff then 0xc080 else (ephemeral c).toNat + 1 := by
  have hc : c.val < 16256 := c.isLt
  rw [toNat_ephemeral, toNat_ephemeral, val_succ]
  split <;> omega

/-! ## Ahead -/

/-- `n` places in turn, from `c` on. -/
def ahead : Nat → Fin ephemeralCount → List (Fin ephemeralCount)
  | 0, _ => []
  | n + 1, c => c :: ahead n (c + 1)

@[simp] theorem length_ahead (n : Nat) (c : Fin ephemeralCount) : (ahead n c).length = n := by
  induction n generalizing c with
  | zero => rfl
  | succ n ih => rw [ahead, List.length_cons, ih]

/-- A place that is ahead is so many steps ahead. -/
theorem exists_of_mem_ahead : d ∈ ahead n c → ∃ i < n, d.val = (c.val + i) % 16256 := by
  induction n generalizing c with
  | zero => exact fun h => absurd h List.not_mem_nil
  | succ n ih =>
    intro h
    rcases List.mem_cons.mp h with rfl | h
    · exact ⟨0, Nat.succ_pos n, (Nat.mod_eq_of_lt d.isLt).symm⟩
    · obtain ⟨i, hi, hd⟩ := ih h
      refine ⟨i + 1, Nat.succ_lt_succ hi, ?_⟩
      rw [hd, val_succ]
      omega

/-- No place comes twice in one round. -/
theorem nodup_ahead (round : n ≤ ephemeralCount) : (ahead n c).Nodup := by
  induction n generalizing c with
  | zero => exact List.nodup_nil
  | succ n ih =>
    refine List.nodup_cons.mpr ⟨fun h => ?_, ih (Nat.le_of_succ_le round)⟩
    -- It takes a whole round to come back to where the search has begun.
    obtain ⟨i, hi, hc⟩ := exists_of_mem_ahead h
    have hlt : c.val < 16256 := c.isLt
    have hround : n + 1 ≤ 16256 := round
    rw [val_succ] at hc
    omega

/-- The free ones of `n` places, from `c` on. -/
def freeAhead (taken : UInt16 → Bool) (n : Nat) (c : Fin ephemeralCount) :
    List (Fin ephemeralCount) :=
  (ahead n c).filter fun d => !taken (ephemeral d)

theorem freeAhead_succ_of_taken (h : taken (ephemeral c)) (n : Nat) :
    freeAhead taken (n + 1) c = freeAhead taken n (c + 1) :=
  List.filter_cons_of_neg (by simp [h])

theorem freeAhead_succ_of_free (h : taken (ephemeral c) = false) (n : Nat) :
    freeAhead taken (n + 1) c = c :: freeAhead taken n (c + 1) :=
  List.filter_cons_of_pos (by simp [h])

/-- **A search finds the first free place** of those that it tries. -/
theorem firstFree_eq_head? (taken : UInt16 → Bool) (n : Nat) (c : Fin ephemeralCount) :
    firstFree taken n c = (freeAhead taken n c).head? := by
  induction n generalizing c with
  | zero => rfl
  | succ n ih =>
    unfold firstFree
    cases h : taken (ephemeral c) with
    | true => rw [freeAhead_succ_of_taken h, ← ih, if_pos rfl]
    | false => simp [freeAhead_succ_of_free h]

theorem free_of_firstFree (found : firstFree taken n c = some d) : taken (ephemeral d) = false := by
  rw [firstFree_eq_head?] at found
  have hd : d ∈ freeAhead taken n c := List.mem_of_head? found
  simpa using (List.mem_filter.mp hd).2

theorem exists_firstFree (free : 0 < (freeAhead taken n c).length) :
    ∃ d, firstFree taken n c = some d := by
  rw [firstFree_eq_head?, ← Option.isSome_iff_exists, List.isSome_head?]
  exact List.ne_nil_of_length_pos free

/-- A search that may try more places finds the same one. -/
theorem firstFree_of_le (found : firstFree taken n c = some d) (more : n ≤ m) :
    firstFree taken m c = some d := by
  induction n generalizing c m with
  | zero => cases found
  | succ n ih =>
    obtain ⟨m, rfl⟩ := Nat.exists_eq_add_of_le' (Nat.lt_of_lt_of_le (Nat.succ_pos n) more)
    unfold firstFree at found ⊢
    split
    · rename_i h
      rw [if_pos h] at found
      exact ih found (Nat.le_of_succ_le_succ more)
    · rename_i h
      rwa [if_neg h] at found

/-! ## Turns -/

/-- A port is taken by a binding, or by somebody else. -/
def isTaken (t : PortTable) (alsoTaken : UInt16 → Bool) (port : UInt16) : Bool :=
  t.inUse port || alsoTaken port

/-- Ask for `n` ports, one after the other. -/
def freshPorts (alsoTaken : UInt16 → Bool) :
    (n : Nat) → PortTable → Option (List UInt16 × PortTable)
  | 0, t => some ([], t)
  | n + 1, t => do
    let (port, t) ← t.freshPort alsoTaken
    let (ports, t) ← freshPorts alsoTaken n t
    return (port :: ports, t)

theorem freshPort_eq_some_iff {port : UInt16} {t' : PortTable} :
    t.freshPort alsoTaken = some (port, t') ↔
      ∃ d, firstFree (t.isTaken alsoTaken) ephemeralCount t.cursor = some d ∧
        port = ephemeral d ∧ t' = { t with cursor := d + 1 } := by
  unfold freshPort
  rw [Option.map_eq_some_iff]
  constructor
  · rintro ⟨d, found, h⟩
    cases h
    exact ⟨d, found, rfl, rfl⟩
  · rintro ⟨d, found, rfl, rfl⟩
    exact ⟨d, found, rfl⟩

/-- If a free place is ahead, a taken one at the cursor makes no difference. -/
theorem freshPort_of_taken (h : t.isTaken alsoTaken (ephemeral t.cursor))
    (round : m + 1 ≤ ephemeralCount)
    (found : firstFree (t.isTaken alsoTaken) m (t.cursor + 1) = some d) :
    t.freshPort alsoTaken = { t with cursor := t.cursor + 1 }.freshPort alsoTaken := by
  have hhere : firstFree (t.isTaken alsoTaken) (m + 1) t.cursor = some d := by
    unfold firstFree
    rwa [if_pos h]
  have hfirst : t.freshPort alsoTaken = some (ephemeral d, { t with cursor := d + 1 }) :=
    freshPort_eq_some_iff.mpr ⟨d, firstFree_of_le hhere round, rfl, rfl⟩
  rw [hfirst, eq_comm]
  exact freshPort_eq_some_iff.mpr ⟨d, firstFree_of_le found (Nat.le_of_succ_le round), rfl, rfl⟩

/-- **Searches one after the other find the free places in turn**, and leave all but the cursor as it
is. -/
theorem freshPorts_eq (round : m ≤ ephemeralCount)
    (enough : n ≤ (freeAhead (t.isTaken alsoTaken) m t.cursor).length) :
    ∃ cursor, freshPorts alsoTaken n t =
      some (((freeAhead (t.isTaken alsoTaken) m t.cursor).take n).map ephemeral,
        { t with cursor := cursor }) := by
  -- By induction on the places ahead: each one is either found by the next search, or passed.
  induction m generalizing n t with
  | zero =>
    obtain rfl : n = 0 := Nat.le_zero.mp enough
    exact ⟨t.cursor, rfl⟩
  | succ m ih =>
    let next : PortTable := { t with cursor := t.cursor + 1 }
    have hround : m ≤ ephemeralCount := Nat.le_of_succ_le round
    cases n with
    | zero => exact ⟨t.cursor, rfl⟩
    | succ n =>
      cases h : t.isTaken alsoTaken (ephemeral t.cursor) with
      | true =>
        rw [freeAhead_succ_of_taken h] at enough ⊢
        obtain ⟨cursor, hports⟩ := ih (t := next) hround enough
        refine ⟨cursor, ?_⟩
        obtain ⟨d, hd⟩ := exists_firstFree (Nat.lt_of_lt_of_le (Nat.succ_pos n) enough)
        have hpassed : freshPorts alsoTaken (n + 1) t = freshPorts alsoTaken (n + 1) next := by
          unfold freshPorts
          rw [freshPort_of_taken h round hd]
        exact hpassed.trans hports
      | false =>
        rw [freeAhead_succ_of_free h] at enough ⊢
        obtain ⟨cursor, hports⟩ := ih (t := next) hround (Nat.le_of_succ_le_succ enough)
        refine ⟨cursor, ?_⟩
        have hfound : firstFree (t.isTaken alsoTaken) (m + 1) t.cursor = some t.cursor := by
          rw [firstFree_eq_head?, freeAhead_succ_of_free h]
          rfl
        have hport : t.freshPort alsoTaken = some (ephemeral t.cursor, next) :=
          freshPort_eq_some_iff.mpr ⟨t.cursor, firstFree_of_le hfound round, rfl, rfl⟩
        unfold freshPorts
        rw [hport, Option.bind_eq_bind, Option.bind_some]
        dsimp only
        rw [hports]
        rfl

/-! ## Counting -/

/-- Of the places in one round, no more are taken than there are ports that can be. -/
theorem le_length_freeAhead {ports : List UInt16} (round : n ≤ ephemeralCount)
    (listed : ∀ p, taken p → p ∈ ports) :
    n ≤ (freeAhead taken n c).length + ports.length := by
  -- The places that are not free have different ports, all of them listed.
  let taking := (ahead n c).filter fun d => taken (ephemeral d)
  have hcount : taking.length + (freeAhead taken n c).length = n := by
    have hlength := (ahead n c).length_eq_length_filter_add fun d => taken (ephemeral d)
    rw [length_ahead] at hlength
    exact hlength.symm
  have hnodup : (taking.map ephemeral).Nodup :=
    ((nodup_ahead round).filter _).map ephemeral_injective
  have hsubset : taking.map ephemeral ⊆ ports := by
    intro p hp
    obtain ⟨d, hd, rfl⟩ := List.mem_map.mp hp
    exact listed _ (List.mem_filter.mp hd).2
  have hfew := (List.subperm_of_subset hnodup hsubset).length_le
  rw [List.length_map] at hfew
  omega

end NetEngine.Udp.PortTable
