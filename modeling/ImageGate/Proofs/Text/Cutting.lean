import ImageGate.Text.Cut

/-! Cutting undoes joining. Pieces that are free of the separator come back from their join, a first
cut finds the separator behind a part without one and a last cut the one in front of such a part,
and the last occurrence of a pattern is the one behind which the pattern does not occur. -/
namespace ImageGate.Text
set_option autoImplicit false

variable {α : Type} [DecidableEq α]

/-! ## Pieces -/

theorem pieces_eq_splitOn (sep : α) (xs : List α) : pieces sep xs = xs.splitOn sep := by
  induction xs with
  | nil => rfl
  | cons x xs ih =>
    rw [List.splitOn_cons_eq_if_modifyHead, ← ih, pieces]
    by_cases hx : x = sep
    · simp [hx]
    · rw [if_neg hx, if_neg (by simpa using hx)]
      obtain ⟨p, ps, hp⟩ := List.exists_cons_of_ne_nil (pieces_ne_nil sep xs)
      rw [hp]
      rfl

theorem pieces_intercalate {sep : α} {ps : List (List α)} (h : ∀ p ∈ ps, sep ∉ p)
    (hne : ps ≠ []) : pieces sep ([sep].intercalate ps) = ps := by
  rw [pieces_eq_splitOn]
  exact List.splitOn_intercalate sep h hne

theorem mem_intercalate {β : Type} {sep : List β} {ps : List (List β)} {c : β}
    (h : c ∈ sep.intercalate ps) : c ∈ sep ∨ ∃ p ∈ ps, c ∈ p := by
  induction ps with
  | nil => cases h
  | cons p ps ih =>
    cases ps with
    | nil => exact .inr ⟨p, List.mem_singleton_self p, by simpa using h⟩
    | cons q qs =>
      rw [List.intercalate_cons_cons, List.mem_append, List.mem_append] at h
      rcases h with (h | h) | h
      · exact .inr ⟨p, List.mem_cons_self, h⟩
      · exact .inl h
      · rcases ih h with h | ⟨r, hr, hc⟩
        · exact .inl h
        · exact .inr ⟨r, List.mem_cons_of_mem p hr, hc⟩

theorem pieces_append_cons (sep : α) (xs ys : List α) :
    pieces sep (xs ++ sep :: ys) = pieces sep xs ++ pieces sep ys := by
  induction xs with
  | nil => simp [pieces]
  | cons x xs ih =>
    rw [List.cons_append, pieces, pieces]
    by_cases hx : x = sep
    · rw [if_pos hx, if_pos hx, ih, List.cons_append]
    · obtain ⟨p, ps, hp⟩ := List.exists_cons_of_ne_nil (pieces_ne_nil sep xs)
      rw [if_neg hx, if_neg hx, ih, hp]
      rfl

theorem pieces_of_not_mem {sep : α} {xs : List α} (h : sep ∉ xs) : pieces sep xs = [xs] := by
  have hfree : ∀ p ∈ [xs], sep ∉ p := by simpa using h
  have hp := pieces_intercalate hfree (List.cons_ne_nil _ _)
  simpa using hp

/-- What is free of the separator only lengthens the last piece. -/
theorem exists_pieces_append {sep : α} {ys : List α} (h : sep ∉ ys) (xs : List α) :
    ∃ last, pieces sep (xs ++ ys) = (pieces sep xs).dropLast ++ [last ++ ys] := by
  induction xs with
  | nil => exact ⟨[], by simp [pieces_of_not_mem h, pieces]⟩
  | cons x xs ih =>
    obtain ⟨last, ih⟩ := ih
    obtain ⟨p, ps, hp⟩ := List.exists_cons_of_ne_nil (pieces_ne_nil sep xs)
    rw [List.cons_append, pieces, pieces, ih, hp]
    by_cases hx : x = sep
    · exact ⟨last, by rw [if_pos hx, if_pos hx]; rfl⟩
    · rw [if_neg hx, if_neg hx]
      cases ps with
      | nil => exact ⟨x :: last, rfl⟩
      | cons q qs => exact ⟨last, rfl⟩

/-- Every piece with a separator in front. -/
theorem flatMap_pieces (sep : α) (xs : List α) :
    (pieces sep xs).flatMap (fun p => sep :: p) = sep :: xs := by
  induction xs with
  | nil => rfl
  | cons x xs ih =>
    rw [pieces]
    by_cases hx : x = sep
    · rw [if_pos hx, List.flatMap_cons, ih, hx]
      rfl
    · obtain ⟨p, ps, hp⟩ := List.exists_cons_of_ne_nil (pieces_ne_nil sep xs)
      rw [hp, List.flatMap_cons, List.cons_append, List.cons.injEq] at ih
      rw [if_neg hx, hp]
      simp [ih.2]

/-- What is not a separator stands in one of the pieces. -/
theorem exists_mem_pieces {sep x : α} {xs : List α} (hx : x ∈ xs) (hne : x ≠ sep) :
    ∃ p ∈ pieces sep xs, x ∈ p := by
  have hmem : x ∈ (pieces sep xs).flatMap fun p => sep :: p := by
    rw [flatMap_pieces]
    exact List.mem_cons_of_mem sep hx
  obtain ⟨p, hp, hxp⟩ := List.mem_flatMap.1 hmem
  exact ⟨p, hp, (List.mem_cons.1 hxp).resolve_left hne⟩

/-- Pieces come back from their join with a separator in front of each. -/
theorem pieces_flatMap_cons {sep : α} {ps : List (List α)} (h : ∀ p ∈ ps, sep ∉ p) :
    pieces sep (ps.flatMap fun p => sep :: p) = [] :: ps := by
  have hbehind : ∀ front : List α, pieces sep (front ++ ps.flatMap fun p => sep :: p)
      = pieces sep front ++ ps := by
    induction ps with
    | nil => simp
    | cons p ps ih =>
      intro front
      have hp : pieces sep p = [p] := pieces_of_not_mem (h p List.mem_cons_self)
      have hrest := ih (fun q hq => h q (List.mem_cons_of_mem _ hq)) (front ++ sep :: p)
      rw [List.flatMap_cons, ← List.append_assoc, hrest, pieces_append_cons, hp,
        List.append_assoc, List.singleton_append]
  exact hbehind []

theorem length_le_of_mem_pieces {sep : α} {xs p : List α} (h : p ∈ pieces sep xs) :
    p.length ≤ xs.length := by
  have hsub : (sep :: p).Sublist ((pieces sep xs).flatMap fun q => sep :: q) := by
    rw [List.flatMap_def]
    exact List.sublist_flatten_of_mem (List.mem_map_of_mem h)
  rw [flatMap_pieces] at hsub
  exact Nat.le_of_succ_le_succ hsub.length_le

theorem not_mem_of_mem_pieces {sep : α} {xs p : List α} (h : p ∈ pieces sep xs) : sep ∉ p := by
  induction xs generalizing p with
  | nil =>
    rw [List.mem_singleton.1 h]
    exact List.not_mem_nil
  | cons x xs ih =>
    rw [pieces] at h
    by_cases hx : x = sep
    · rw [if_pos hx] at h
      rcases List.mem_cons.1 h with rfl | h
      · exact List.not_mem_nil
      · exact ih h
    · obtain ⟨q, qs, hq⟩ := List.exists_cons_of_ne_nil (pieces_ne_nil sep xs)
      rw [if_neg hx, hq] at h
      rcases List.mem_cons.1 h with rfl | h
      · have hmem : sep ∉ q := ih (by rw [hq]; exact List.mem_cons_self)
        simp [hmem, Ne.symm hx]
      · exact ih (by rw [hq]; exact List.mem_cons_of_mem _ h)

/-- The parts with the separator between them, which stands in none of them. -/
structure IsJoin (sep : α) (parts : List (List α)) (xs : List α) : Prop where
  ne : parts ≠ []
  free : ∀ part ∈ parts, sep ∉ part
  join : xs = [sep].intercalate parts

/-- The pieces are the only parts that a sequence is joined from. -/
theorem pieces_eq_iff {sep : α} {parts : List (List α)} {xs : List α} :
    pieces sep xs = parts ↔ IsJoin sep parts xs := by
  constructor
  · rintro rfl
    refine ⟨pieces_ne_nil sep xs, fun part => not_mem_of_mem_pieces, ?_⟩
    rw [pieces_eq_splitOn, List.intercalate_splitOn]
  · rintro ⟨hne, hfree, rfl⟩
    exact pieces_intercalate hfree hne

/-- Pieces are cut alike before and after a rewriting that keeps separators apart. -/
theorem pieces_flatMap {sep : α} {f : α → List α} (hsep : f sep = [sep])
    (hf : ∀ x, x ≠ sep → sep ∉ f x) (xs : List α) :
    pieces sep (xs.flatMap f) = (pieces sep xs).map fun p => p.flatMap f := by
  induction xs with
  | nil => rfl
  | cons x xs ih =>
    rw [List.flatMap_cons, pieces]
    by_cases hx : x = sep
    · rw [if_pos hx, hx, hsep, List.singleton_append, pieces, if_pos rfl, ih]
      rfl
    · obtain ⟨p, ps, hp⟩ := List.exists_cons_of_ne_nil (pieces_ne_nil sep xs)
      obtain ⟨q, qs, hq⟩ := List.exists_cons_of_ne_nil (pieces_ne_nil sep (xs.flatMap f))
      rw [hp, hq, List.map_cons, List.cons.injEq] at ih
      have hfront : ∀ front, sep ∉ front →
          pieces sep (front ++ xs.flatMap f) = (front ++ q) :: qs := by
        intro front hfront
        induction front with
        | nil => exact hq
        | cons y front ihfront =>
          rw [List.mem_cons, not_or] at hfront
          rw [List.cons_append, pieces, if_neg (Ne.symm hfront.1), ihfront hfront.2]
          rfl
      rw [if_neg hx, hp, hfront _ (hf x hx), ih.1, ih.2]
      rfl

/-! ## One cut -/

theorem cutFirst_append_cons {sep : α} {a : List α} (h : sep ∉ a) (b : List α) :
    cutFirst sep (a ++ sep :: b) = some (a, b) := by
  induction a with
  | nil => simp [cutFirst]
  | cons x a ih =>
    rw [List.mem_cons, not_or] at h
    rw [List.cons_append, cutFirst, if_neg (Ne.symm h.1), ih h.2]
    rfl

theorem cutFirst_eq_some_iff {sep : α} {xs a b : List α} :
    cutFirst sep xs = some (a, b) ↔ xs = a ++ sep :: b ∧ sep ∉ a := by
  refine ⟨cutFirst_eq_some, ?_⟩
  rintro ⟨rfl, ha⟩
  exact cutFirst_append_cons ha b

theorem cutFirst_of_not_mem {sep : α} {xs : List α} (h : sep ∉ xs) : cutFirst sep xs = none := by
  cases hcut : cutFirst sep xs with
  | none => rfl
  | some parts => exact absurd (by rw [(cutFirst_eq_some hcut).1]; simp) h

theorem cutLast_of_not_mem {sep : α} {xs : List α} (h : sep ∉ xs) : cutLast sep xs = none := by
  induction xs with
  | nil => rfl
  | cons x xs ih =>
    rw [List.mem_cons, not_or] at h
    rw [cutLast, ih h.2, if_neg (Ne.symm h.1)]

theorem cutLast_append_cons {sep : α} {b : List α} (h : sep ∉ b) (a : List α) :
    cutLast sep (a ++ sep :: b) = some (a, b) := by
  induction a with
  | nil => simp [cutLast, cutLast_of_not_mem h]
  | cons x a ih => rw [List.cons_append, cutLast, ih]

theorem cutLast_eq_none_iff {sep : α} {xs : List α} : cutLast sep xs = none ↔ sep ∉ xs := by
  refine ⟨fun hnone => ?_, cutLast_of_not_mem⟩
  induction xs with
  | nil => exact List.not_mem_nil
  | cons x xs ih =>
    rw [cutLast] at hnone
    split at hnone
    · cases hnone
    · next hrest =>
      split at hnone
      · cases hnone
      · next hx => simp [Ne.symm hx, ih hrest]

theorem cutLast_eq_some_iff {sep : α} {xs a b : List α} :
    cutLast sep xs = some (a, b) ↔ xs = a ++ sep :: b ∧ sep ∉ b := by
  constructor
  · intro h
    refine ⟨cutLast_eq_some h, ?_⟩
    induction xs generalizing a with
    | nil => cases h
    | cons x xs ih =>
      rw [cutLast] at h
      split at h
      · next hrest =>
        cases h
        exact ih hrest
      · next hrest =>
        obtain ⟨-, h⟩ := Option.ite_none_right_eq_some.1 h
        cases h
        exact cutLast_eq_none_iff.1 hrest
  · rintro ⟨rfl, hb⟩
    exact cutLast_append_cons hb a

/-- Where no separator follows, no cut is further back. -/
theorem length_le_of_last {β : Type} {sep : β} {a b c d : List β} (hlast : sep ∉ b)
    (h : a ++ sep :: b = c ++ sep :: d) : c.length ≤ a.length := by
  rcases List.append_eq_append_iff.1 h with ⟨m, rfl, hm⟩ | ⟨m, rfl, -⟩
  · cases m with
    | nil => simp
    | cons x m =>
      rw [List.cons_append, List.cons.injEq] at hm
      exact absurd (by rw [hm.2]; simp) hlast
  · rw [List.length_append]
    exact Nat.le_add_right _ _

@[simp] theorem afterPrefix?_append (lead rest : List α) :
    afterPrefix? lead (lead ++ rest) = some rest := afterPrefix?_eq_some.2 rfl

/-! ## Runs -/

theorem span_append {β : Type} {p : β → Bool} {ys : List β} (h : ∀ y ∈ ys.head?, p y = false)
    (xs : List β) :
    (xs ++ ys).takeWhile p = xs.takeWhile p ∧ (xs ++ ys).dropWhile p = xs.dropWhile p ++ ys := by
  induction xs with
  | nil =>
    cases ys with
    | nil => simp
    | cons y ys => simp [h y rfl]
  | cons x xs ih =>
    by_cases hx : p x = true
    · simp [hx, ih]
    · simp [hx]

theorem mem_dropWhile_of_not {β : Type} {p : β → Bool} {xs : List β} {x : β} (hx : x ∈ xs)
    (hp : p x = false) : x ∈ xs.dropWhile p := by
  rw [← List.takeWhile_append_dropWhile (p := p) (l := xs), List.mem_append] at hx
  rcases hx with hx | hx
  · exact absurd (List.all_eq_true.1 List.all_takeWhile x hx) (by simp [hp])
  · exact hx

/-! ## Ends -/

theorem beforeSuffix?_eq_some {tail xs front : List α} (h : beforeSuffix? tail xs = some front) :
    xs = front ++ tail := by
  obtain ⟨back, hback, rfl⟩ := Option.map_eq_some_iff.1 h
  rw [afterPrefix?_eq_some] at hback
  rw [← List.reverse_reverse xs, hback, List.reverse_append, List.reverse_reverse]

theorem beforeSuffix?_eq_some_iff {tail xs front : List α} :
    beforeSuffix? tail xs = some front ↔ xs = front ++ tail := by
  refine ⟨beforeSuffix?_eq_some, ?_⟩
  rintro rfl
  rw [beforeSuffix?, List.reverse_append, afterPrefix?_append, Option.map_some,
    List.reverse_reverse]

theorem exists_dropEndWhile (c : α) (xs : List α) :
    ∃ k, xs = dropEndWhile c xs ++ List.replicate k c := by
  let ends := xs.reverse.takeWhile fun x => decide (x = c)
  have hends : ends = List.replicate ends.length c := by
    refine List.eq_replicate_of_mem fun x hx => ?_
    exact of_decide_eq_true (List.all_eq_true.1 List.all_takeWhile x hx)
  refine ⟨ends.length, ?_⟩
  rw [← List.reverse_replicate, ← hends, dropEndWhile, ← List.reverse_append,
    List.takeWhile_append_dropWhile, List.reverse_reverse]

theorem dropEndWhile_append_replicate (c : α) (xs : List α) (k : Nat) :
    dropEndWhile c (xs ++ List.replicate k c) = dropEndWhile c xs := by
  rw [dropEndWhile, List.reverse_append, List.reverse_replicate]
  induction k with
  | zero => rfl
  | succ k ih => simpa [List.replicate_succ] using ih

theorem dropEndWhile_append_of_not_mem {c : α} {ys : List α} (h : c ∉ ys) (hne : ys ≠ [])
    (xs : List α) : dropEndWhile c (xs ++ ys) = xs ++ ys := by
  rcases List.eq_nil_or_concat ys with rfl | ⟨front, y, rfl⟩
  · exact absurd rfl hne
  · have hy : y ≠ c := fun he => h (by rw [he]; simp)
    simp [dropEndWhile, hy]

/-- A part in front of marks is cut alike whatever stands in their place. -/
theorem cutFirst_append {sep : α} {xs marks a b : List α} (hmarks : sep ∉ marks)
    (h : cutFirst sep (xs ++ marks) = some (a, b)) :
    ∃ behind, b = behind ++ marks ∧
      ∀ ys, cutFirst sep (xs ++ ys) = some (a, behind ++ ys) := by
  obtain ⟨hjoin, ha⟩ := cutFirst_eq_some h
  rcases List.append_eq_append_iff.1 hjoin with ⟨m, -, hm⟩ | ⟨m, hxs, hm⟩
  · exact absurd (by rw [hm]; simp) hmarks
  · cases m with
    | nil => exact absurd (by rw [← List.nil_append marks, ← hm]; exact List.mem_cons_self) hmarks
    | cons x behind =>
      rw [List.cons_append, List.cons.injEq] at hm
      refine ⟨behind, hm.2, fun ys => ?_⟩
      rw [hxs, ← hm.1, List.append_assoc, List.cons_append, cutFirst_append_cons ha]

/-! ## The last occurrence -/

theorem cutLastOccurrence_eq_some {pattern xs a b : List α}
    (h : cutLastOccurrence pattern xs = some (a, b)) : xs = a ++ (pattern ++ b) := by
  induction xs generalizing a with
  | nil => simp [cutLastOccurrence] at h
  | cons x xs ih =>
    unfold cutLastOccurrence at h
    split at h
    · next hc =>
      cases h
      rw [ih hc, List.cons_append]
    · obtain ⟨c, hc, he⟩ := Option.map_eq_some_iff.1 h
      cases he
      rw [afterPrefix?_eq_some.1 hc, List.nil_append]

theorem cutLastOccurrence_of_not_infix {pattern xs : List α} (h : ¬ pattern <:+: xs) :
    cutLastOccurrence pattern xs = none := by
  cases hc : cutLastOccurrence pattern xs with
  | none => rfl
  | some c =>
    exact absurd ⟨c.1, c.2, by rw [List.append_assoc]; exact (cutLastOccurrence_eq_some hc).symm⟩ h

theorem cutLastOccurrence_append_cons {x : α} {pattern b : List α}
    (h : ¬ (x :: pattern) <:+: pattern ++ b) (a : List α) :
    cutLastOccurrence (x :: pattern) (a ++ (x :: pattern ++ b)) = some (a, b) := by
  induction a with
  | nil =>
    rw [List.nil_append, List.cons_append, cutLastOccurrence, cutLastOccurrence_of_not_infix h,
      ← List.cons_append, afterPrefix?_append]
    rfl
  | cons y a ih => rw [List.cons_append, cutLastOccurrence, ih]

/-- The pattern stands between the two parts and begins at no later place. -/
structure IsLastCut (pattern xs a b : List α) : Prop where
  join : xs = a ++ (pattern ++ b)
  last : ∀ c d, xs = c ++ (pattern ++ d) → c.length ≤ a.length

theorem IsLastCut.unique {β : Type} {pattern xs a b c d : List β} (h : IsLastCut pattern xs a b)
    (hother : IsLastCut pattern xs c d) : a = c ∧ b = d := by
  have hlength : a.length = c.length :=
    Nat.le_antisymm (hother.last _ _ h.join) (h.last _ _ hother.join)
  obtain ⟨hac, hbd⟩ := List.append_inj (h.join.symm.trans hother.join) hlength
  exact ⟨hac, List.append_cancel_left hbd⟩

theorem cutLastOccurrence_eq_none_iff {pattern xs : List α} (hne : pattern ≠ []) :
    cutLastOccurrence pattern xs = none ↔ ¬ pattern <:+: xs := by
  refine ⟨fun hnone => ?_, cutLastOccurrence_of_not_infix⟩
  induction xs with
  | nil => rwa [List.infix_nil]
  | cons x xs ih =>
    rw [cutLastOccurrence] at hnone
    split at hnone
    · cases hnone
    · next hrest =>
      rw [List.infix_cons_iff, not_or]
      refine ⟨fun ⟨behind, hbehind⟩ => ?_, ih hrest⟩
      rw [afterPrefix?_eq_some.2 hbehind.symm] at hnone
      cases hnone

theorem isLastCut_of_cutLastOccurrence {pattern xs a b : List α} (hne : pattern ≠ [])
    (h : cutLastOccurrence pattern xs = some (a, b)) : IsLastCut pattern xs a b := by
  refine ⟨cutLastOccurrence_eq_some h, ?_⟩
  induction xs generalizing a with
  | nil => cases h
  | cons x xs ih =>
    rintro (_ | ⟨y, c⟩) d hjoin
    · exact Nat.zero_le _
    · rw [List.cons_append, List.cons.injEq] at hjoin
      rw [cutLastOccurrence] at h
      split at h
      · next hrest =>
        cases h
        exact Nat.succ_le_succ (ih hrest c d hjoin.2)
      · next hrest =>
        have hinfix : pattern <:+: xs := ⟨c, d, by rw [hjoin.2, List.append_assoc]⟩
        exact absurd hinfix ((cutLastOccurrence_eq_none_iff hne).1 hrest)

theorem cutLastOccurrence_eq_some_iff {pattern xs a b : List α} (hne : pattern ≠ []) :
    cutLastOccurrence pattern xs = some (a, b) ↔ IsLastCut pattern xs a b := by
  refine ⟨isLastCut_of_cutLastOccurrence hne, fun h => ?_⟩
  cases hcut : cutLastOccurrence pattern xs with
  | none =>
    have hinfix : pattern <:+: xs := ⟨a, b, by rw [h.join, List.append_assoc]⟩
    exact absurd hinfix ((cutLastOccurrence_eq_none_iff hne).1 hcut)
  | some parts =>
    obtain ⟨ha, hb⟩ := (isLastCut_of_cutLastOccurrence hne hcut).unique h
    rw [← ha, ← hb]

/-- A pattern from `c` to `d` does not lie across a part without `c` and a part without `d`. -/
theorem not_infix_append {β : Type} {c d : β} {u v : List β} (hc : c ∉ u) (hd : d ∉ v)
    (w : List β) : ¬ (c :: (w ++ [d])) <:+: u ++ v := by
  rintro ⟨s, t, h⟩
  rw [List.append_assoc] at h
  rcases List.append_eq_append_iff.1 h with ⟨m, hu, hm⟩ | ⟨m, -, hm⟩
  · cases m with
    | nil => exact hd (by rw [← List.nil_append v, ← hm]; simp)
    | cons e m =>
      rw [List.cons_append, List.cons_append, List.cons.injEq] at hm
      exact hc (by rw [hu, hm.1]; simp)
  · exact hd (by rw [hm]; simp)

end ImageGate.Text
