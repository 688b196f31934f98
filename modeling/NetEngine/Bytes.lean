/-! # Octet Strings

    Frames, headers and payloads are lists of octets in wire order.  Every
    multi-octet field is **big-endian**: the octet at the lower index is the
    more significant one.

    Reads are total: an octet past the end reads as zero.  Callers read
    inside the part they have checked, and the reads of a field name its
    offset only, so a bound on one index is all a proof needs.

    Writes keep the length: `putWord` replaces two octets in place and
    `overwrite` replaces a leading part. -/

namespace NetEngine

/-- Octets in wire order. -/
abbrev Bytes : Type := List UInt8

/-! ### Reading fields -/

/-- The octet at index `i`, zero past the end. -/
def byteAt (b : Bytes) (i : Nat) : UInt8 := b.getD i 0

/-- The 16-bit number written as the octets `hi`, `lo`. -/
def word (hi lo : UInt8) : UInt16 := UInt16.ofNat (hi.toNat * 256 + lo.toNat)

/-- The 16-bit field at index `i`. -/
def wordAt (b : Bytes) (i : Nat) : UInt16 := word (byteAt b i) (byteAt b (i + 1))

/-- The 32-bit field at index `i`. -/
def longAt (b : Bytes) (i : Nat) : UInt32 :=
  UInt32.ofNat ((wordAt b i).toNat * 65536 + (wordAt b (i + 2)).toNat)

/-- The `len` octets from index `start` on, fewer where the string ends. -/
def slice (b : Bytes) (start len : Nat) : Bytes := (b.drop start).take len

/-- The first `n` octets, refused where the string is shorter. -/
def leading? (b : Bytes) (n : Nat) : Option Bytes :=
  if n ≤ b.length then some (b.take n) else none

/-! ### Writing fields -/

/-- The two octets of a 16-bit field. -/
def ofWord (w : UInt16) : Bytes := [UInt8.ofNat (w.toNat / 256), UInt8.ofNat (w.toNat % 256)]

/-- The four octets of a 32-bit field. -/
def ofLong (l : UInt32) : Bytes :=
  ofWord (UInt16.ofNat (l.toNat / 65536)) ++ ofWord (UInt16.ofNat (l.toNat % 65536))

/-- Replace the 16-bit field at index `i`. -/
def putWord (b : Bytes) (i : Nat) (w : UInt16) : Bytes :=
  (b.set i (UInt8.ofNat (w.toNat / 256))).set (i + 1) (UInt8.ofNat (w.toNat % 256))

/-- Write `new` over the octets of `buffer` from index `i` on. -/
def overwriteAt (buffer : Bytes) (i : Nat) (new : Bytes) : Bytes :=
  buffer.take i ++ new ++ buffer.drop (i + new.length)

/-- Write `header` over the first octets of `buffer` and leave the others alone. -/
def overwrite (buffer header : Bytes) : Bytes := header ++ buffer.drop header.length

theorem overwriteAt_append {front old new : Bytes} {i : Nat} (back : Bytes)
    (start : front.length = i) (length : old.length = new.length) :
    overwriteAt (front ++ (old ++ back)) i new = front ++ (new ++ back) := by
  subst start
  unfold overwriteAt
  rw [List.take_left, ← length, ← List.drop_drop, List.drop_left, List.drop_left, List.append_assoc]

/-! ### Fields read back -/

theorem toNat_word (hi lo : UInt8) : (word hi lo).toNat = hi.toNat * 256 + lo.toNat := by
  have := hi.toNat_lt
  have := lo.toNat_lt
  simp only [word, UInt16.toNat_ofNat']
  omega

/-- The two octets of a 16-bit field make up the field. -/
theorem word_div_mod (w : UInt16) :
    word (UInt8.ofNat (w.toNat / 256)) (UInt8.ofNat (w.toNat % 256)) = w := by
  have := w.toNat_lt
  apply UInt16.toNat_inj.mp
  rw [toNat_word]
  simp only [UInt8.toNat_ofNat']
  omega

theorem longAt_ofLong_append (l : UInt32) (b : Bytes) : longAt (ofLong l ++ b) 0 = l := by
  have := l.toNat_lt
  have h : longAt (ofLong l ++ b) 0 =
      UInt32.ofNat ((UInt16.ofNat (l.toNat / 65536)).toNat * 65536 +
        (UInt16.ofNat (l.toNat % 65536)).toNat) := by
    rw [← word_div_mod (UInt16.ofNat (l.toNat / 65536)),
      ← word_div_mod (UInt16.ofNat (l.toNat % 65536))]
    rfl
  rw [h]
  apply UInt32.toNat_inj.mp
  simp only [UInt32.toNat_ofNat', UInt16.toNat_ofNat']
  omega

/-- Behind a string, octets are counted from its end. -/
theorem byteAt_append_add (a b : Bytes) (i : Nat) :
    byteAt (a ++ b) (a.length + i) = byteAt b i := by
  simp [byteAt, List.getElem?_append_right]

theorem byteAt_append_of_lt {a : Bytes} (b : Bytes) {i : Nat} (h : i < a.length) :
    byteAt (a ++ b) i = byteAt a i := by
  simp [byteAt, List.getElem?_append_left h]

/-! ### Fields written over -/

theorem putWord_append (front : Bytes) (hi lo : UInt8) (back : Bytes) (w : UInt16) :
    putWord (front ++ hi :: lo :: back) front.length w = front ++ (ofWord w ++ back) := by
  simp [putWord, ofWord]

/-- A field that is written stands between what was in front of it and what was behind it. -/
theorem putWord_eq {b : Bytes} {i : Nat} (within : i + 1 < b.length) (w : UInt16) :
    putWord b i w = b.take i ++ (ofWord w ++ b.drop (i + 2)) := by
  have hfront : (b.take i).length = i := List.length_take_of_le (by omega)
  have hsplit : b = b.take i ++ b[i] :: b[i + 1] :: b.drop (i + 2) := by
    rw [← List.drop_eq_getElem_cons, ← List.drop_eq_getElem_cons, List.take_append_drop]
  have h := putWord_append (b.take i) b[i] b[i + 1] (b.drop (i + 2)) w
  rwa [← hsplit, hfront] at h

/-- What is written into a field replaces what was written there before. -/
theorem putWord_putWord (b : Bytes) (i : Nat) (v w : UInt16) :
    putWord (putWord b i v) i w = putWord b i w := by
  unfold putWord
  rw [List.set_comm _ _ (by omega : i + 1 ≠ i), List.set_set, List.set_set]

theorem take_putWord (b : Bytes) (i n : Nat) (w : UInt16) :
    (putWord b i w).take n = putWord (b.take n) i w := by
  unfold putWord
  rw [List.take_set, List.take_set]

/-! ### Octets beside a field -/

theorem byteAt_take_of_lt (b : Bytes) {i n : Nat} (h : i < n) :
    byteAt (b.take n) i = byteAt b i := by
  simp [byteAt, h]

theorem byteAt_set_of_ne (b : Bytes) {i j : Nat} (h : j ≠ i) (o : UInt8) :
    byteAt (b.set i o) j = byteAt b j := by
  simp [byteAt, List.getElem?_set_ne h.symm]

/-- An octet beside a field stays when the field is written. -/
theorem byteAt_putWord_of_ne (b : Bytes) {i j : Nat} (h : j ≠ i) (h' : j ≠ i + 1) (w : UInt16) :
    byteAt (putWord b i w) j = byteAt b j := by
  unfold putWord
  rw [byteAt_set_of_ne _ h', byteAt_set_of_ne _ h]

/-- What has been written into a field is read back. -/
theorem wordAt_putWord_self {b : Bytes} {i : Nat} (within : i + 1 < b.length) (w : UInt16) :
    wordAt (putWord b i w) i = w := by
  have hfront : (b.take i).length = i := List.length_take_of_le (by omega)
  have hhigh := byteAt_append_add (b.take i) (ofWord w ++ b.drop (i + 2)) 0
  have hlow := byteAt_append_add (b.take i) (ofWord w ++ b.drop (i + 2)) 1
  rw [← putWord_eq within, hfront] at hhigh hlow
  rw [Nat.add_zero] at hhigh
  unfold wordAt
  rw [hhigh, hlow]
  exact word_div_mod w

/-- What stands in front of a place is not written over from there on. -/
theorem byteAt_overwriteAt_of_lt {b : Bytes} {i j : Nat} (h : j < i) (within : i ≤ b.length)
    (new : Bytes) : byteAt (overwriteAt b i new) j = byteAt b j := by
  have hfront : (b.take i).length = i := List.length_take_of_le within
  unfold overwriteAt
  rw [List.append_assoc, byteAt_append_of_lt _ (by omega), byteAt_take_of_lt b h]

/-! ### Lengths -/

@[simp] theorem length_ofWord (w : UInt16) : (ofWord w).length = 2 := rfl

@[simp] theorem length_ofLong (l : UInt32) : (ofLong l).length = 4 := rfl

@[simp] theorem length_putWord (b : Bytes) (i : Nat) (w : UInt16) :
    (putWord b i w).length = b.length := by
  simp [putWord]

theorem length_overwriteAt {b new : Bytes} {i : Nat} (within : i + new.length ≤ b.length) :
    (overwriteAt b i new).length = b.length := by
  simp [overwriteAt]
  omega

theorem length_overwrite {buffer header : Bytes} (h : header.length ≤ buffer.length) :
    (overwrite buffer header).length = buffer.length := by
  simp [overwrite]; omega

end NetEngine
