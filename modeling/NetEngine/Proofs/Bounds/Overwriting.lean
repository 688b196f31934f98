import NetEngine.Proofs.Bounds.Guarded

/-! # Writing in Place

    A string of octets is written over field by field, in any order that comes handy,
    and is then the same as if it had been put together from front to back.

    * **Windows**: what a write leaves alone, and what it does not.
    * **Order**: fields that do not overlap are written in any order, and fields side
      by side at once.
    * **Parts**: what is written into one part of a string leaves the others alone. -/

namespace NetEngine

variable {b a c new : Bytes} {i j : Nat}

/-! ## Windows -/

theorem byteAt_of_lt (inside : i < b.length) : byteAt b i = b[i] := by
  simp [byteAt, inside]

/-- Two strings of one length are the same if their octets are. -/
theorem ext_byteAt (length : a.length = b.length) (same : ∀ i, byteAt a i = byteAt b i) :
    a = b := by
  apply List.ext_getElem length
  intro i hi hj
  have h := same i
  rwa [byteAt_of_lt hi, byteAt_of_lt hj] at h

/-- An octet is new inside the window that is written, and old outside. -/
theorem byteAt_overwriteAt (inside : i + new.length ≤ b.length) (j : Nat) :
    byteAt (overwriteAt b i new) j =
      if i ≤ j ∧ j < i + new.length then byteAt new (j - i) else byteAt b j := by
  have hfront : (b.take i).length = i := List.length_take_of_le (by omega)
  unfold overwriteAt
  by_cases hbefore : j < i
  · rw [if_neg (by omega), List.append_assoc, byteAt_append_of_lt _ (by omega),
      byteAt_take_of_lt b hbefore]
  · obtain ⟨k, rfl⟩ := Nat.exists_eq_add_of_le (Nat.not_lt.mp hbefore)
    rw [List.append_assoc]
    have hplace := byteAt_append_add (b.take i) (new ++ b.drop (i + new.length)) k
    rw [hfront] at hplace
    rw [hplace]
    by_cases hwritten : k < new.length
    · rw [if_pos (by omega), byteAt_append_of_lt _ hwritten, Nat.add_sub_cancel_left]
    · obtain ⟨m, rfl⟩ := Nat.exists_eq_add_of_le (Nat.not_lt.mp hwritten)
      rw [if_neg (by omega), byteAt_append_add, ← Nat.add_assoc]
      unfold byteAt
      simp

/-! ## Order -/

/-- Fields that do not overlap are written in any order. -/
theorem overwriteAt_comm (disjoint : i + a.length ≤ j) (inside : j + c.length ≤ b.length) :
    overwriteAt (overwriteAt b i a) j c = overwriteAt (overwriteAt b j c) i a := by
  have hfirst : (overwriteAt b i a).length = b.length := length_overwriteAt (by omega)
  have hsecond : (overwriteAt b j c).length = b.length := length_overwriteAt inside
  -- No index lies in both windows.
  apply ext_byteAt
  · rw [length_overwriteAt (hfirst ▸ inside), hfirst, length_overwriteAt (by omega), hsecond]
  · intro k
    rw [byteAt_overwriteAt (by omega), byteAt_overwriteAt (by omega),
      byteAt_overwriteAt (by omega), byteAt_overwriteAt (by omega)]
    by_cases hk : i ≤ k ∧ k < i + a.length
    · have hother : ¬ (j ≤ k ∧ k < j + c.length) := by omega
      simp only [if_pos hk, if_neg hother]
    · simp only [if_neg hk]

/-- Fields side by side are written at once. -/
theorem overwriteAt_beside (inside : i + a.length + c.length ≤ b.length) :
    overwriteAt (overwriteAt b (i + a.length) c) i a = overwriteAt b i (a ++ c) := by
  have hfirst : (overwriteAt b (i + a.length) c).length = b.length := length_overwriteAt inside
  have hboth : (a ++ c).length = a.length + c.length := List.length_append
  apply ext_byteAt
  · rw [length_overwriteAt (by omega), hfirst, length_overwriteAt (by omega)]
  · intro k
    rw [byteAt_overwriteAt (by omega), byteAt_overwriteAt (by omega),
      byteAt_overwriteAt (by omega)]
    by_cases hk : i ≤ k ∧ k < i + a.length
    · rw [if_pos hk, if_pos (by omega), byteAt_append_of_lt _ (by omega)]
    · rw [if_neg hk]
      by_cases hk' : i + a.length ≤ k ∧ k < i + a.length + c.length
      · obtain ⟨m, rfl⟩ := Nat.exists_eq_add_of_le hk'.1
        have hplace : i + a.length + m - i = a.length + m := by omega
        rw [if_pos hk', if_pos (by omega), Nat.add_sub_cancel_left, hplace, byteAt_append_add]
      · rw [if_neg hk', if_neg (by omega)]

theorem putWord_eq_overwriteAt (inside : i + 1 < b.length) (w : UInt16) :
    putWord b i w = overwriteAt b i (ofWord w) := by
  rw [putWord_eq inside]
  unfold overwriteAt
  rw [List.append_assoc, length_ofWord]

theorem set_eq_overwriteAt (inside : i < b.length) (o : UInt8) :
    b.set i o = overwriteAt b i [o] := by
  rw [List.set_eq_take_append_cons_drop, if_pos inside]
  simp [overwriteAt]

/-! ## Parts -/

/-- What is written into the first part leaves the second one alone. -/
theorem overwriteAt_append_left (inside : i + new.length ≤ a.length) (b : Bytes) :
    overwriteAt (a ++ b) i new = overwriteAt a i new ++ b := by
  unfold overwriteAt
  rw [List.take_append_of_le_length (by omega), List.drop_append_of_le_length inside,
    List.append_assoc, List.append_assoc, List.append_assoc]

theorem Guarded.write?_append_left (inside : i + new.length ≤ a.length) (b : Bytes) :
    write? (a ++ b) i new = pure (overwriteAt a i new ++ b) := by
  have hinside : i + new.length ≤ (a ++ b).length := by
    rw [List.length_append]
    omega
  rw [write?_of_le hinside, overwriteAt_append_left inside]

/-- A field holds the two octets that its number is made of. -/
theorem ofWord_word (hi lo : UInt8) : ofWord (word hi lo) = [hi, lo] := by
  have hhi := hi.toNat_lt
  have hlo := lo.toNat_lt
  unfold ofWord
  rw [toNat_word]
  have hhigh : UInt8.ofNat ((hi.toNat * 256 + lo.toNat) / 256) = hi := by
    apply UInt8.toNat_inj.mp
    rw [UInt8.toNat_ofNat']
    omega
  have hlow : UInt8.ofNat ((hi.toNat * 256 + lo.toNat) % 256) = lo := by
    apply UInt8.toNat_inj.mp
    rw [UInt8.toNat_ofNat']
    omega
  rw [hhigh, hlow]

theorem ofWord_wordAt (inside : i + 2 ≤ b.length) : ofWord (wordAt b i) = slice b i 2 := by
  have hslice : slice b i 2 = [b[i], b[i + 1]] := by
    unfold slice
    rw [List.drop_eq_getElem_cons (by omega), List.drop_eq_getElem_cons (by omega)]
    rfl
  unfold wordAt
  rw [ofWord_word, hslice, byteAt_of_lt (by omega), byteAt_of_lt (by omega)]

end NetEngine
