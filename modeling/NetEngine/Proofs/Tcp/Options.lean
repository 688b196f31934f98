import NetEngine.Proofs.Bounds.Transports

/-! # The Search for the Segment Size

    The options of a header come one after the other, and each tells where the next
    one starts.  The search goes from one to the next until it finds a segment size,
    and gives up where it can not go on.

    * **Grammar**: what the search passes over, and what it looks for.  It finds a
      size exactly if the options have the form that the grammar gives.
    * **Turns**: the search with every access guarded, one option at a time.  A turn
      settles the result, or it leaves fewer octets to be searched. -/

namespace NetEngine.Tcp

/-! ## Grammar -/

/-- An item that the search passes over: padding, or an option that tells no segment size. -/
inductive Skipped : Bytes → Prop
  | padding : Skipped [1]
  | option {kind len : UInt8} {body : Bytes} (notEnd : kind ≠ 0) (notPadding : kind ≠ 1)
      (whole : len.toNat = body.length + 2) (other : ¬ (kind = 2 ∧ len = 4)) :
      Skipped (kind :: len :: body)

/-- Behind items that are passed over, the options tell a segment size.  Anything may follow. -/
def Offers (options : Bytes) (size : UInt16) : Prop :=
  ∃ (items : List Bytes) (hi lo : UInt8) (rest : Bytes), (∀ item ∈ items, Skipped item) ∧
    options = items.flatten ++ [2, 4, hi, lo] ++ rest ∧
    size.toNat = hi.toNat * 256 + lo.toNat

variable {options item rest : Bytes} {size : UInt16}

theorem toNat_len_eq_iff (len : UInt8) : len.toNat = mssOptionLen ↔ len = 4 :=
  UInt8.toNat_inj (b := 4)

/-- The search passes over an item. -/
theorem mssOption_append (skipped : Skipped item) (rest : Bytes) :
    mssOption (item ++ rest) = mssOption rest := by
  cases skipped with
  | padding =>
    rw [List.singleton_append, mssOption.eq_def]
    simp
  | @option kind len body notEnd notPadding whole other =>
    -- The option is as long as it says, so that the search goes on right behind it.
    have hfits : ¬ (len.toNat < 2 ∨ (body ++ rest).length + 2 < len.toNat) := by
      rw [List.length_append]
      omega
    have hother : ¬ (kind = 2 ∧ len.toNat = mssOptionLen) := by rwa [toNat_len_eq_iff]
    have hbehind : (body ++ rest).drop (len.toNat - 2) = rest := by
      rw [whole, Nat.add_sub_cancel, List.drop_left]
    rw [List.cons_append, List.cons_append, mssOption, if_neg notEnd, if_neg notPadding,
      if_neg hfits, if_neg hother, hbehind]

/-- A segment size option ends the search. -/
theorem mssOption_size (hi lo : UInt8) (rest : Bytes) :
    mssOption ([2, 4, hi, lo] ++ rest) = some (word hi lo) := by
  have hfits : ¬ ((4 : UInt8).toNat < 2 ∨ (hi :: lo :: rest).length + 2 < (4 : UInt8).toNat) := by
    simp
  show mssOption (2 :: 4 :: hi :: lo :: rest) = _
  rw [mssOption, if_neg (by decide), if_neg (by decide), if_neg hfits, if_pos ⟨rfl, rfl⟩]
  rfl

theorem Offers.append (offers : Offers rest size) (skipped : Skipped item) :
    Offers (item ++ rest) size := by
  obtain ⟨items, hi, lo, back, hitems, rfl, hsize⟩ := offers
  refine ⟨item :: items, hi, lo, back, ?_, ?_, hsize⟩
  · intro i hmem
    rcases List.mem_cons.mp hmem with rfl | hmem
    · exact skipped
    · exact hitems i hmem
  · simp

/-- Whatever the search finds has been offered. -/
theorem offers_of_mssOption (found : mssOption options = some size) : Offers options size := by
  -- The induction is on the search, which goes from one item to the next.
  fun_induction mssOption options with
  | case1 | case2 | case4 | case5 => cases found
  | case3 rest _ ih => exact (ih found).append .padding
  | case6 kind notEnd notPadding len body hfits hsize =>
    obtain ⟨rfl, hlen⟩ := hsize
    obtain rfl : len = 4 := (toNat_len_eq_iff len).mp hlen
    have hlong : 2 ≤ body.length := by
      have hfour : (4 : UInt8).toNat = 4 := rfl
      omega
    rcases body with _ | ⟨hi, _ | ⟨lo, rest⟩⟩
    · simp at hlong
    · simp at hlong
    cases found
    exact ⟨[], hi, lo, rest, by simp, rfl, toNat_word hi lo⟩
  | case7 kind notEnd notPadding len body hfits hother ih =>
    have hwhole : len.toNat = (body.take (len.toNat - 2)).length + 2 := by
      rw [List.length_take]
      omega
    rw [toNat_len_eq_iff] at hother
    have hoffers := (ih found).append (.option notEnd notPadding hwhole hother)
    rwa [List.cons_append, List.cons_append, List.take_append_drop] at hoffers

/-- **The search finds what is offered, and nothing else.** -/
theorem mssOption_eq_some_iff : mssOption options = some size ↔ Offers options size := by
  constructor
  · exact offers_of_mssOption
  · rintro ⟨items, hi, lo, rest, hitems, rfl, hsize⟩
    have hword : word hi lo = size := UInt16.toNat_inj.mp ((toNat_word hi lo).trans hsize.symm)
    induction items with
    | nil => rw [← hword, List.flatten_nil, List.nil_append, mssOption_size]
    | cons item items ih =>
      have hrest := ih fun i hmem => hitems i (List.mem_cons_of_mem _ hmem)
      rw [List.flatten_cons, List.append_assoc, List.append_assoc,
        mssOption_append (hitems item List.mem_cons_self), ← List.append_assoc, hrest]

/-! ## Turns -/

/-- What a turn of the search comes to. -/
inductive SearchTurn where
  /-- The search is over. -/
  | over (result : Option UInt16)
  /-- It goes on with what is left. -/
  | goesOn (rest : Bytes)

/-- One turn of the search, with every access guarded. -/
def searchOnce? : Bytes → Guarded SearchTurn
  | [] => return .over none
  | kind :: rest =>
    if kind = 0 then return .over none
    else if kind = 1 then return .goesOn rest
    else match rest with
      | [] => return .over none
      | len :: body =>
        if len.toNat < 2 ∨ body.length + 2 < len.toNat then return .over none
        else if kind = 2 ∧ len.toNat = mssOptionLen then do
          let size ← Guarded.field? (kind :: len :: body) 2 2 wordAt
          return .over (some size)
        else do
          let rest ← Guarded.from? (kind :: len :: body) len.toNat
          return .goesOn rest

/-- A turn settles the result of the search, or it leaves the result to fewer octets, the last ones
of those that it has been given. -/
def SearchTurn.Advances (options : Bytes) : SearchTurn → Prop
  | .over result => mssOption options = result
  | .goesOn rest =>
    mssOption options = mssOption rest ∧ rest <:+ options ∧ rest.length < options.length

/-- **Every turn stays inside the octets that it has been given, and the search advances by it.** -/
theorem searchOnce?_advances (options : Bytes) :
    ∃ turn, searchOnce? options = pure turn ∧ turn.Advances options := by
  fun_cases searchOnce? options with
  | case1 => exact ⟨.over none, rfl, by rw [SearchTurn.Advances, mssOption]⟩
  | case2 rest =>
    refine ⟨.over none, rfl, ?_⟩
    rw [SearchTurn.Advances, mssOption.eq_def]
    simp
  | case3 rest hend =>
    refine ⟨.goesOn rest, rfl, mssOption_append .padding rest, List.suffix_cons 1 rest, ?_⟩
    simp
  | case4 kind hend hpadding =>
    refine ⟨.over none, rfl, ?_⟩
    rw [SearchTurn.Advances, mssOption.eq_def]
    simp [hend, hpadding]
  | case5 kind hend hpadding len body hbad =>
    refine ⟨.over none, rfl, ?_⟩
    rw [SearchTurn.Advances, mssOption, if_neg hend, if_neg hpadding, if_pos hbad]
  | case6 kind hend hpadding len body hfits hsize =>
    have hthere : 2 + 2 ≤ (kind :: len :: body).length := by
      unfold mssOptionLen at hsize
      simp only [List.length_cons]
      omega
    refine ⟨.over (some (wordAt body 0)), ?_, ?_⟩
    · rw [Guarded.field?_of_le hthere, pure_bind]
      rfl
    · rw [SearchTurn.Advances, mssOption, if_neg hend, if_neg hpadding, if_neg hfits,
        if_pos hsize]
  | case7 kind hend hpadding len body hfits hother =>
    -- What is passed over is the whole option, and no octet behind it.
    let left := (kind :: len :: body).drop len.toNat
    have hleft : left.length + len.toNat = (kind :: len :: body).length := by
      simp only [left, List.length_drop, List.length_cons]
      omega
    refine ⟨.goesOn left, ?_, ?_, List.drop_suffix _ _, by omega⟩
    · rw [Guarded.from?_of_le (by omega), pure_bind]
    · have hbody : left = body.drop (len.toNat - 2) := by
        obtain ⟨n, hn⟩ : ∃ n, len.toNat = n + 2 := ⟨len.toNat - 2, by omega⟩
        simp only [left, hn]
        rfl
      rw [hbody, mssOption, if_neg hend, if_neg hpadding, if_neg hfits, if_neg hother]

/-! ## Segments -/

/-- **Of a segment whose header is there, the size is found exactly if the options offer it.**  No
access leaves the options, and the search gets through them turn by turn. -/
theorem View.mss_by_grammar {p : View} (checked : p.check = .ok ()) :
    (∀ size, p.mss = some size ↔ Offers p.options size) ∧ p.mss? = pure p.mss ∧
      ∀ options, ∃ turn, searchOnce? options = pure turn ∧ turn.Advances options :=
  ⟨fun _ => mssOption_eq_some_iff, mss?_of_checked checked, searchOnce?_advances⟩

/-- Padding and a window scale stand in front of the size. -/
theorem View.mss_by_grammar_behind :
    let p : View := List.replicate 12 0 ++ [0x80, 2] ++ List.replicate 6 0 ++
      [1, 3, 3, 7, 2, 4, 5, 0xb4, 0, 0, 0, 0]
    p.check = .ok () ∧ Offers p.options 1460 ∧ p.mss = some 1460 := by
  intro p
  have hchecked : p.check = .ok () := check_of_lengths (by decide) (by decide)
  have hscale : Skipped [3, 3, 7] := .option (by decide) (by decide) rfl (by decide)
  have hoffers : Offers p.options 1460 := by
    refine ⟨[[1], [3, 3, 7]], 5, 0xb4, [0, 0, 0, 0], ?_, by decide, rfl⟩
    simp [hscale, Skipped.padding]
  exact ⟨hchecked, hoffers, ((mss_by_grammar hchecked).1 1460).mpr hoffers⟩

end NetEngine.Tcp
