import ImageGate.Proofs.Number.Numerals
import ImageGate.Proofs.Request.RuleOrder

/-! Profiles. A text is cut into five pieces if it has the shape of a profile at all, and then the pieces
are judged. The two steps together accept exactly five counts between their marks: a mark that stands
once too often ends up inside a piece, where it is no digit, or leaves no shape. -/
namespace ImageGate
open Text Number
set_option autoImplicit false

/-! ## What a profile is -/

/-- Digits from 0 to 9, and a value that 32 bits hold. -/
def IsCount (part : List Char) : Prop := isRunOf isPlainDigit part = true ∧ ofDigits part < 2 ^ 32

/-- The five pieces with their marks between them. -/
def profileText (r x1 y1 x2 y2 : List Char) : List Char :=
  r ++ ':' :: (x1 ++ ',' :: ((y1 ++ '-' :: x2) ++ ',' :: y2))

/-- Five pieces, none of them empty; of the minus signs in the middle the last that leaves something
behind it is the mark. -/
structure HasProfileShape (cs r x1 y1 x2 y2 : List Char) : Prop where
  join : cs = profileText r x1 y1 x2 y2
  given : ∀ piece ∈ [r, x1, y1, x2, y2], piece ≠ []
  colon : ':' ∉ r
  commas : ∀ piece ∈ [x1, y1, x2, y2], ',' ∉ piece
  last : ∀ front back, y1 ++ '-' :: x2 = front ++ '-' :: back → back ≠ [] → front.length ≤ y1.length

variable {cs r x1 y1 x2 y2 : List Char}

theorem isProfileNumber_iff {part : List Char} : isProfileNumber part = true ↔ IsCount part := by
  rw [isProfileNumber, IsCount]
  constructor
  · intro h
    split at h
    · next n hread =>
      obtain ⟨hrun, rfl⟩ := readDigits?_eq_some_iff.1 hread
      exact ⟨hrun, of_decide_eq_true h⟩
    · cases h
  · rintro ⟨hrun, hvalue⟩
    rw [readDigits?_eq_some_iff.2 ⟨hrun, rfl⟩]
    exact decide_eq_true hvalue

/-- Counts between the marks have the shape: no mark is a digit. -/
theorem hasProfileShape_of_counts (hcounts : ∀ part ∈ [r, x1, y1, x2, y2], IsCount part) :
    HasProfileShape (profileText r x1 y1 x2 y2) r x1 y1 x2 y2 where
  join := rfl
  given part hpart hnil := by
    have hrun := (hcounts part hpart).1
    rw [hnil] at hrun
    cases hrun
  colon := not_mem_run (by decide) (hcounts r (by simp)).1
  commas part hpart := not_mem_run (by decide) (hcounts part (List.mem_cons_of_mem r hpart)).1
  last front back hjoin _ := length_le_of_last (not_mem_run (by decide) (hcounts x2 (by simp)).1) hjoin

/-! ## Cutting a text into its pieces -/

/-- The last character is set aside: a minus sign there would leave nothing behind it. -/
theorem cutAtMinus?_concat (front : List Char) (z : Char) :
    cutAtMinus? (front ++ [z])
      = match cutLast '-' front with
        | some (a :: before, after) => some (a :: before, after ++ [z])
        | _ => none := by
  rw [cutAtMinus?, List.reverse_append]
  show (match cutLast '-' front.reverse.reverse with
    | some (a :: before, after) => some (a :: before, after ++ [z])
    | _ => none) = _
  rw [List.reverse_reverse]

theorem cutAtMinus?_eq_some_iff {middle : List Char} :
    cutAtMinus? middle = some (y1, x2) ↔ middle = y1 ++ '-' :: x2 ∧ y1 ≠ [] ∧ x2 ≠ [] ∧
      ∀ front back, middle = front ++ '-' :: back → back ≠ [] → front.length ≤ y1.length := by
  constructor
  · intro h
    rcases List.eq_nil_or_concat' middle with rfl | ⟨before, z, rfl⟩
    · cases h
    · rw [cutAtMinus?_concat] at h
      split at h
      · next a rest after hcut =>
        obtain ⟨hbefore, hafter⟩ := cutLast_eq_some_iff.1 hcut
        cases h
        refine ⟨by rw [hbefore, List.append_assoc]; rfl, List.cons_ne_nil _ _, by simp, ?_⟩
        intro front back hjoin hback
        obtain ⟨back, w, rfl⟩ := (List.eq_nil_or_concat' back).resolve_left hback
        rw [← List.cons_append, ← List.append_assoc] at hjoin
        exact length_le_of_last hafter (hbefore.symm.trans (List.append_inj' hjoin rfl).1)
      · cases h
  · rintro ⟨rfl, hy1, hx2, hlast⟩
    obtain ⟨x2, z, rfl⟩ := (List.eq_nil_or_concat' x2).resolve_left hx2
    obtain ⟨a, y1, rfl⟩ := List.exists_cons_of_ne_nil hy1
    -- A minus sign in front of the last character would be a later place to cut.
    have hfree : '-' ∉ x2 := by
      intro hmem
      obtain ⟨s, t, rfl⟩ := List.append_of_mem hmem
      have hlonger := hlast ((a :: y1) ++ '-' :: s) (t ++ [z]) (by simp) (by simp)
      simp at hlonger
    rw [← List.cons_append, ← List.append_assoc, cutAtMinus?_concat, cutLast_append_cons hfree]

theorem profileParts?_of_shape (h : HasProfileShape cs r x1 y1 x2 y2) :
    profileParts? cs = some [r, x1, y1, x2, y2] := by
  obtain ⟨hr, hx1, hy1, hx2, hy2⟩ : r ≠ [] ∧ x1 ≠ [] ∧ y1 ≠ [] ∧ x2 ≠ [] ∧ y2 ≠ [] := by
    simpa using h.given
  obtain ⟨hcx1, hcy1, hcx2, hcy2⟩ : ',' ∉ x1 ∧ ',' ∉ y1 ∧ ',' ∉ x2 ∧ ',' ∉ y2 := by
    simpa using h.commas
  have hfirst : cutFirst ':' cs = some (r, x1 ++ ',' :: ((y1 ++ '-' :: x2) ++ ',' :: y2)) :=
    cutFirst_eq_some_iff.2 ⟨h.join, h.colon⟩
  have hmiddle : ',' ∉ y1 ++ '-' :: x2 := by simp [hcy1, hcx2]
  have hpieces : pieces ',' (x1 ++ ',' :: ((y1 ++ '-' :: x2) ++ ',' :: y2))
      = [x1, y1 ++ '-' :: x2, y2] := by
    rw [pieces_append_cons, pieces_append_cons, pieces_of_not_mem hcx1, pieces_of_not_mem hmiddle,
      pieces_of_not_mem hcy2]
    rfl
  have hminus : cutAtMinus? (y1 ++ '-' :: x2) = some (y1, x2) :=
    cutAtMinus?_eq_some_iff.2 ⟨rfl, hy1, hx2, h.last⟩
  simp only [profileParts?, Option.bind_eq_bind, hfirst, Option.bind_some, hpieces, hminus]
  simp [hr, hx1, hy2]

theorem shape_of_profileParts? {parts : List (List Char)} (h : profileParts? cs = some parts) :
    ∃ r x1 y1 x2 y2, parts = [r, x1, y1, x2, y2] ∧ HasProfileShape cs r x1 y1 x2 y2 := by
  simp only [profileParts?, Option.bind_eq_bind, Option.bind_eq_some_iff, Prod.exists] at h
  obtain ⟨r, rest, hfirst, h⟩ := h
  split at h
  · next x1 middle y2 hpieces =>
    simp only [Option.bind_eq_some_iff, Prod.exists, Option.ite_none_left_eq_some, Option.some.injEq] at h
    obtain ⟨y1, x2, hminus, hgiven, rfl⟩ := h
    obtain ⟨hjoin, hcolon⟩ := cutFirst_eq_some_iff.1 hfirst
    obtain ⟨-, hfree, hrest⟩ := pieces_eq_iff.1 hpieces
    obtain ⟨rfl, hy1, hx2, hlast⟩ := cutAtMinus?_eq_some_iff.1 hminus
    refine ⟨r, x1, y1, x2, y2, rfl, ?_, ?_, hcolon, ?_, hlast⟩
    · rw [hjoin, hrest]
      simp [profileText]
    · simpa [hy1, hx2, and_assoc] using hgiven
    · simpa [and_assoc] using hfree
  · cases h

/-! ## The check -/

/-- The profile is refused; the complaint is about this part of it. -/
def RefusesProfile (profile field reason value : String) : Prop :=
  Complains (checkProfile profile) ⟨field, reason, some value⟩

theorem checkProfile_of_parts {profile : String} {good rest : List (List Char)} {part : List Char}
    (hshape : profileParts? profile.toList = some (good ++ part :: rest))
    (hlength : good.length < profileComponents.length)
    (hgood : ∀ g ∈ good, IsCount g) (hpart : ¬ IsCount part) :
    checkProfile profile
      = .error (.profilePart profileComponents[good.length] (String.ofList part)) := by
  have hbroken : isProfileNumber part = false := Bool.eq_false_iff.2 (mt isProfileNumber_iff.1 hpart)
  rw [checkProfile, hshape]
  exact forM_zip_require (fun component part => .profilePart component (String.ofList part))
    (List.getElem?_eq_getElem hlength)
    (fun g hg => isProfileNumber_iff.2 (hgood g hg)) hbroken

theorem checkProfile_eq_ok_iff {profile : String} :
    checkProfile profile = .ok () ↔ ∃ r x1 y1 x2 y2,
      profile.toList = profileText r x1 y1 x2 y2 ∧ ∀ part ∈ [r, x1, y1, x2, y2], IsCount part := by
  constructor
  · intro h
    rw [checkProfile] at h
    split at h
    · cases h
    · next parts hparts =>
      obtain ⟨r, x1, y1, x2, y2, rfl, hshape⟩ := shape_of_profileParts? hparts
      refine ⟨r, x1, y1, x2, y2, hshape.join, fun part hpart => isProfileNumber_iff.1 ?_⟩
      exact (forM_zip_require_eq_ok_iff profileComponents isProfileNumber
        (fun component part => .profilePart component (String.ofList part)) le_rfl).1 h part hpart
  · rintro ⟨r, x1, y1, x2, y2, hjoin, hcounts⟩
    have hshape := hasProfileShape_of_counts hcounts
    rw [checkProfile, hjoin, profileParts?_of_shape hshape]
    exact (forM_zip_require_eq_ok_iff profileComponents isProfileNumber
      (fun component part => .profilePart component (String.ofList part)) le_rfl).2
      fun part hpart => isProfileNumber_iff.2 (hcounts part hpart)

/-- A profile is accepted exactly if it is five counts between their marks. A text of its shape is refused
for the first piece that is no count, which the complaint names and quotes, and any other text as a
whole. -/
theorem checkProfile_shape (profile : String) :
    (checkProfile profile = .ok () ↔ ∃ r x1 y1 x2 y2,
      profile.toList = profileText r x1 y1 x2 y2 ∧ ∀ part ∈ [r, x1, y1, x2, y2], IsCount part) ∧
    (∀ r x1 y1 x2 y2 good part rest, HasProfileShape profile.toList r x1 y1 x2 y2 →
      [r, x1, y1, x2, y2] = good ++ part :: rest → (∀ g ∈ good, IsCount g) → ¬ IsCount part →
      let text := String.ofList part
      ∃ name, ["r", "x1", "y1", "x2", "y2"][good.length]? = some name ∧ RefusesProfile profile name
        s!"The value of {name} in PFL needs to be a non-negative integer, but was: '{text}'" text) ∧
    ((¬ ∃ r x1 y1 x2 y2, HasProfileShape profile.toList r x1 y1 x2 y2) →
      RefusesProfile profile "PFL"
        s!"The value of PFL needs to be defined specifically as r:x1,y1-x2,y2 but was: '{profile}'"
        profile) := by
  refine ⟨checkProfile_eq_ok_iff, ?_, fun hshapeless => ?_⟩
  · intro r x1 y1 x2 y2 good part rest hshape hparts hgood hpart text
    have hpieces : profileParts? profile.toList = some (good ++ part :: rest) := by
      rw [profileParts?_of_shape hshape, hparts]
    have hlength : good.length < profileComponents.length := by
      have hfive : 5 = (good ++ part :: rest).length := congrArg List.length hparts
      rw [List.length_append, List.length_cons] at hfive
      show good.length < 5
      omega
    exact ⟨_, List.getElem?_eq_getElem hlength, _, checkProfile_of_parts hpieces hlength hgood hpart, rfl⟩
  · have hnone : profileParts? profile.toList = none := by
      refine Option.eq_none_iff_forall_ne_some.2 fun parts hparts => hshapeless ?_
      obtain ⟨r, x1, y1, x2, y2, -, hshape⟩ := shape_of_profileParts? hparts
      exact ⟨r, x1, y1, x2, y2, hshape⟩
    refine ⟨.profileShape profile, ?_, rfl⟩
    rw [checkProfile, hnone]

/-- A minus sign too many makes the piece in front of the last one wrong. -/
theorem checkProfile_shape_minus :
    RefusesProfile "800:20,-5-440,4+4" "y1"
      "The value of y1 in PFL needs to be a non-negative integer, but was: '-5'" "-5" := by
  have hshape : HasProfileShape "800:20,-5-440,4+4".toList "800".toList "20".toList "-5".toList
      "440".toList "4+4".toList := by
    obtain ⟨r, x1, y1, x2, y2, hparts, hshape⟩ := shape_of_profileParts?
      (by decide +kernel : profileParts? "800:20,-5-440,4+4".toList
        = some ["800".toList, "20".toList, "-5".toList, "440".toList, "4+4".toList])
    cases hparts
    exact hshape
  have hgood : ∀ g ∈ ["800".toList, "20".toList], IsCount g := fun g hg =>
    isProfileNumber_iff.1 ((by decide : ∀ g ∈ ["800".toList, "20".toList], isProfileNumber g = true) g hg)
  have hpart : ¬ IsCount "-5".toList := mt isProfileNumber_iff.2 (by decide)
  obtain ⟨name, hname, hrefuses⟩ := (checkProfile_shape "800:20,-5-440,4+4").2.1 _ _ _ _ _
    ["800".toList, "20".toList] "-5".toList ["440".toList, "4+4".toList] hshape rfl hgood hpart
  cases hname
  exact hrefuses

end ImageGate
