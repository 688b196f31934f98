import NetEngine.Link.Loopback

/-! # Pulling from a Source

    The loopback link asks a source again and again, for a chunk of octets at a
    time.

    * **Contents**: where the source hands out a fixed content, what has been pulled
      in the end is the **slice** of the content that was asked for, or nothing if
      the content does not reach that far.
    * **Answers**: a source may answer what it likes, and tell another length each
      time.  It is asked no more often than octets are missing. -/

namespace NetEngine

/-! ## Slices -/

@[simp] theorem length_slice (b : Bytes) (start len : Nat) :
    (slice b start len).length = min len (b.length - start) := by
  simp [slice]

/-- A slice and the one behind it make up a longer one. -/
theorem slice_append_slice (b : Bytes) (start m n : Nat) :
    slice b start m ++ slice b (start + m) n = slice b start (m + n) := by
  simp only [slice]
  rw [← List.drop_drop, List.take_add]

@[simp] theorem slice_none (b : Bytes) (start : Nat) : slice b start 0 = [] := by
  simp [slice]

@[simp] theorem slice_all (b : Bytes) : slice b 0 b.length = b := by
  simp [slice]

/-- A slice that would reach beyond the end is what is left. -/
theorem slice_min (b : Bytes) (start len : Nat) :
    slice b start (min (b.length - start) len) = slice b start len := by
  simp only [slice]
  rw [List.take_eq_take_iff, List.length_drop]
  omega

namespace Loopback

variable {source : Supplier} {content : Bytes}

/-! ## Contents -/

/-- What has been written stands in front of what was there before. -/
theorem take_write (room : Room) {written : Bytes} {want : Nat} (fits : written.length ≤ want)
    (small : want ≤ chunk) : (room.write want written).octets.take written.length = written := by
  have hall : written.take (min want chunk) = written := List.take_of_length_le (by omega)
  show (readInto room.octets (written.take (min want chunk))).take written.length = written
  rw [hall]
  exact List.take_left

/-- A source with a fixed content tells how many octets it has, and has written them. -/
theorem take_write_of_holds (holds : source.Holds content) (room : Room) (offset missing : Nat) :
    (room.write (min missing chunk) (source.supply offset (min missing chunk)).bytes).octets.take
        (available (source.supply offset (min missing chunk)) offset (min missing chunk)) =
      slice content offset (min missing chunk) := by
  let part := slice content offset (min missing chunk)
  have hlength : part.length = min (min missing chunk) (content.length - offset) := length_slice _ _ _
  have hpart : (room.write (min missing chunk) part).octets.take part.length = part :=
    take_write room (by omega) (Nat.min_le_right _ _)
  rw [holds]
  unfold available
  rwa [Nat.min_comm, ← hlength]

/-- What a source with a fixed content gives is the slice that was asked for, which the content must
reach.  Nothing of the room is left in it. -/
theorem pullInto_eq_some_iff (holds : source.Holds content) {room : Room} {offset missing : Nat}
    {b : Bytes} : pullInto source room offset missing = some b ↔
      (missing = 0 ∨ offset + missing ≤ content.length) ∧ b = slice content offset missing := by
  fun_induction pullInto source room offset missing generalizing b with
  | case1 room offset => simp [eq_comm]
  | case2 room offset missing hmissing want answer got =>
    -- The content has ended before.
    rename_i hgot
    have hlength : got = min (content.length - offset) want := by
      simp only [got, answer, holds offset want, available]
    have hchunk : chunk = 64 := rfl
    simp only [reduceCtorEq, false_iff]
    rintro ⟨hreach, -⟩
    omega
  | case3 room offset missing hmissing want answer got hgot room' =>
    rename_i ih
    have hslice : room'.octets.take got = slice content offset want :=
      take_write_of_holds holds room offset missing
    have hlength : got = min (content.length - offset) want := by
      simp only [got, answer, holds offset want, available]
    have hchunk : chunk = 64 := rfl
    simp only [Option.map_eq_some_iff, ih]
    constructor
    · rintro ⟨rest, ⟨hreach, rfl⟩, rfl⟩
      -- The rest is a slice that begins where the first chunk has ended.
      have hfull : got = want := by omega
      refine ⟨.inr (by omega), ?_⟩
      rw [hslice, hfull, slice_append_slice]
      congr 1
      omega
    · rintro ⟨hreach, rfl⟩
      -- A chunk comes short only where the content ends.
      have hfull : got = want := by omega
      refine ⟨_, ⟨by omega, rfl⟩, ?_⟩
      rw [hslice, hfull, slice_append_slice]
      congr 1
      omega

theorem pull_eq_some_iff (holds : source.Holds content) {offset missing : Nat} {b : Bytes} :
    pull source offset missing = some b ↔
      (missing = 0 ∨ offset + missing ≤ content.length) ∧ b = slice content offset missing :=
  pullInto_eq_some_iff holds

/-- What is asked for within the content is pulled. -/
theorem pull_of_holds (holds : source.Holds content) {offset missing : Nat}
    (within : offset + missing ≤ content.length) :
    pull source offset missing = some (slice content offset missing) :=
  (pull_eq_some_iff holds).mpr ⟨.inr within, rfl⟩

/-! ## Answers -/

/-- What the link comes to with the answers that it gets, one after the other, and nothing if it would
go on asking. -/
def pullWith : (answers : List Supplied) → Room → (offset missing : Nat) → Option (Option Bytes)
  | _, _, _, 0 => some (some [])
  | [], _, _, _ + 1 => none
  | answer :: answers, room, offset, missing + 1 =>
    let want := min (missing + 1) chunk
    let got := available answer offset want
    if got = 0 then some none
    else
      let room' := room.write want answer.bytes
      (pullWith answers room' (offset + got) (missing + 1 - got)).map fun rest =>
        rest.map (room'.octets.take got ++ ·)

/-- The answers that a source gives, as long as it is asked. -/
def answersOf (source : Supplier) (offset missing : Nat) : List Supplied :=
  if _h : missing = 0 then []
  else
    let answer := source.supply offset (min missing chunk)
    let got := available answer offset (min missing chunk)
    if _h' : got = 0 then [answer] else answer :: answersOf source (offset + got) (missing - got)
  termination_by missing
  decreasing_by exact Nat.sub_lt (Nat.pos_of_ne_zero _h) (Nat.pos_of_ne_zero _h')

/-- A source is asked once for each octet that is missing, at most. -/
theorem length_answersOf (source : Supplier) (offset missing : Nat) :
    (answersOf source offset missing).length ≤ missing := by
  fun_induction answersOf source offset missing with
  | case1 => exact Nat.zero_le _
  | case2 offset missing hmissing => exact Nat.pos_of_ne_zero hmissing
  | case3 offset missing hmissing answer got hgot ih =>
    rw [List.length_cons]
    omega

/-- **What is pulled from a source is what its answers come to.** -/
theorem pullWith_answersOf (source : Supplier) (room : Room) (offset missing : Nat) :
    pullWith (answersOf source offset missing) room offset missing =
      some (pullInto source room offset missing) := by
  fun_induction pullInto source room offset missing with
  | case1 room offset =>
    unfold pullWith
    rfl
  | case2 room offset missing hmissing want answer got =>
    rename_i hgot
    obtain ⟨n, rfl⟩ := Nat.exists_eq_succ_of_ne_zero hmissing
    unfold answersOf
    rw [dif_neg hmissing]
    dsimp only
    rw [dif_pos hgot]
    unfold pullWith
    dsimp only
    rw [if_pos hgot]
  | case3 room offset missing hmissing want answer got hgot room' =>
    rename_i ih
    obtain ⟨n, rfl⟩ := Nat.exists_eq_succ_of_ne_zero hmissing
    unfold answersOf
    rw [dif_neg hmissing]
    dsimp only
    rw [dif_neg hgot]
    unfold pullWith
    dsimp only
    rw [if_neg hgot, ih]
    rfl

/-- What is pulled does not depend on what a source would say in front of the place. -/
theorem pullInto_congr {source' : Supplier} {room : Room} {offset missing : Nat}
    (same : ∀ place want, offset ≤ place → source.supply place want = source'.supply place want) :
    pullInto source room offset missing = pullInto source' room offset missing := by
  fun_induction pullInto source room offset missing with
  | case1 =>
    unfold pullInto
    rfl
  | case2 room offset missing hmissing want answer got =>
    rename_i hgot
    have hanswer : source'.supply offset want = answer := (same _ _ (Nat.le_refl _)).symm
    unfold pullInto
    rw [dif_neg hmissing]
    dsimp only
    rw [hanswer, dif_pos hgot]
  | case3 room offset missing hmissing want answer got hgot room' =>
    rename_i ih
    have hanswer : source'.supply offset want = answer := (same _ _ (Nat.le_refl _)).symm
    rw [ih fun place want behind => same place want (Nat.le_of_add_right_le behind)]
    conv =>
      rhs
      unfold pullInto
    rw [dif_neg hmissing]
    dsimp only
    rw [hanswer, dif_neg hgot]

/-- A source that gives those answers, one after the other.  It is never asked twice for one place,
since every answer brings an octet. -/
def replay : (answers : List Supplied) → (offset missing : Nat) → Supplier
  | [], _, _ => .ofBytes []
  | answer :: answers, offset, missing =>
    let got := available answer offset (min missing chunk)
    ⟨fun place want =>
      if place ≤ offset then answer
      else (replay answers (offset + got) (missing - got)).supply place want⟩

/-- **Whatever answers come, the link comes to an end with them**: with what it would have pulled from
a source that has them ready. -/
theorem pullWith_eq_pullInto_replay (answers : List Supplied) (room : Room) (offset missing : Nat)
    (enough : missing ≤ answers.length) : pullWith answers room offset missing =
      some (pullInto (replay answers offset missing) room offset missing) := by
  induction answers generalizing room offset missing with
  | nil =>
    obtain rfl : missing = 0 := Nat.le_zero.mp enough
    unfold pullWith pullInto
    rfl
  | cons answer answers ih =>
    cases missing with
    | zero =>
      unfold pullWith pullInto
      rfl
    | succ missing =>
      let want := min (missing + 1) chunk
      let got := available answer offset want
      rw [List.length_cons] at enough
      have hfirst : (replay (answer :: answers) offset (missing + 1)).supply offset want = answer :=
        if_pos (Nat.le_refl _)
      unfold pullWith pullInto
      rw [dif_neg (Nat.succ_ne_zero _)]
      dsimp only
      rw [hfirst]
      by_cases hgot : got = 0
      · rw [if_pos hgot, dif_pos hgot]
      · -- Behind the first answer the others are ready.
        have hrest (place want : Nat) (behind : offset + got ≤ place) :
            (replay answers (offset + got) (missing + 1 - got)).supply place want =
              (replay (answer :: answers) offset (missing + 1)).supply place want :=
          (if_neg (by omega)).symm
        have hshort : missing + 1 - got ≤ answers.length := by omega
        rw [if_neg hgot, dif_neg hgot, ih _ _ _ hshort, pullInto_congr hrest]
        rfl

end Loopback

end NetEngine
