import ImageGate.Proofs.Request.LastValues
import ImageGate.Proofs.Request.RuleOrder

/-! Colour twists as matrices. The check takes exactly the rows of three finite numbers that are written
between brackets, and of anything else it names the first place that is wrong: the brackets, or else in the
first bad row the number of its pieces, or else its first piece that is no finite number. What follows the
bad place never counts. -/
namespace ImageGate
open Text Number
set_option autoImplicit false

/-! ## What a matrix is -/

/-- Without the blanks around it this is a finite number. -/
def IsNumberText (cs : List Char) : Prop := ∃ x, WritesFinite Format.single (trimChars cs) x

/-- Three numbers between commas. -/
def IsTwistRow (row : List Char) : Prop :=
  ∃ values, IsJoin ',' values row ∧ values.length = 3 ∧ ∀ value ∈ values, IsNumberText value

/-- The twist is brackets around `inner`, and blanks around the brackets. -/
def IsBracketed (twist : String) (inner : List Char) : Prop :=
  trimChars twist.toList = '[' :: (inner ++ [']'])

/-- Rows between semicolons, in brackets. -/
def IsTwist (twist : String) : Prop :=
  ∃ inner rows, IsBracketed twist inner ∧ IsJoin ';' rows inner ∧ ∀ row ∈ rows, IsTwistRow row

/-- The twist is refused for this reason; the complaint is about the whole of it. -/
def RefusesTwist (twist reason : String) : Prop :=
  Complains (checkTwist (some twist)) ⟨"CTW", reason, some twist⟩

/-! ## Numbers and brackets -/

theorem isFiniteNumber_iff {cs : List Char} : isFiniteNumber cs = true ↔ IsNumberText cs := by
  unfold isFiniteNumber IsNumberText WritesFinite
  cases Binary.read? Format.single (trimChars cs) <;> simp

theorem insideBrackets?_eq_some_iff {twist : String} {inner : List Char} :
    insideBrackets? twist.toList = some inner ↔ IsBracketed twist inner := by
  have hbind : insideBrackets? twist.toList
      = (afterPrefix? ['['] (trimChars twist.toList)).bind (beforeSuffix? [']']) := rfl
  rw [hbind, Option.bind_eq_some_iff, IsBracketed]
  constructor
  · rintro ⟨rest, hrest, hinner⟩
    rw [afterPrefix?_eq_some.1 hrest, beforeSuffix?_eq_some hinner]
    rfl
  · intro h
    exact ⟨inner ++ [']'], afterPrefix?_eq_some.2 h, beforeSuffix?_eq_some_iff.2 rfl⟩

/-! ## One row -/

variable {whole : String} {row : Nat} {cs : List Char} {values : List (List Char)}

theorem checkTwistRow_eq_ok_iff : checkTwistRow whole row cs = .ok () ↔ IsTwistRow cs := by
  have hvalues := fun hcount : (pieces ',' cs).length = 3 =>
    forM_zip_require_eq_ok_iff twistComponents isFiniteNumber
      (fun component v => .twistNumber component row (String.ofList v) whole) (Nat.le_of_eq hcount)
  rw [checkTwistRow, check_bind_eq_ok_iff, require_eq_ok_iff, beq_iff_eq]
  constructor
  · rintro ⟨hcount, hnumbers⟩
    refine ⟨pieces ',' cs, pieces_eq_iff.1 rfl, hcount, fun value hvalue => ?_⟩
    exact isFiniteNumber_iff.1 ((hvalues hcount).1 hnumbers value hvalue)
  · rintro ⟨values, hjoin, hcount, hnumbers⟩
    cases pieces_eq_iff.2 hjoin
    exact ⟨hcount, (hvalues hcount).2 fun value hvalue => isFiniteNumber_iff.2 (hnumbers value hvalue)⟩

theorem checkTwistRow_of_count (hjoin : IsJoin ',' values cs) (hcount : values.length ≠ 3) :
    checkTwistRow whole row cs = .error (.twistRow row (String.ofList cs) whole) := by
  have hbroken : (values.length == 3) = false := beq_eq_false_iff_ne.2 hcount
  rw [checkTwistRow, pieces_eq_iff.2 hjoin, require, hbroken]
  rfl

theorem checkTwistRow_of_number {good rest : List (List Char)} {value : List Char} {component : String}
    (hjoin : IsJoin ',' (good ++ value :: rest) cs) (hcount : (good ++ value :: rest).length = 3)
    (hgood : ∀ g ∈ good, IsNumberText g) (hvalue : ¬ IsNumberText value)
    (hcomponent : twistComponents[good.length]? = some component) :
    checkTwistRow whole row cs
      = .error (.twistNumber component row (String.ofList value) whole) := by
  have hkept : ((good ++ value :: rest).length == 3) = true := beq_iff_eq.2 hcount
  have hbroken : isFiniteNumber value = false := Bool.eq_false_iff.2 (mt isFiniteNumber_iff.1 hvalue)
  rw [checkTwistRow, pieces_eq_iff.2 hjoin, require, hkept]
  exact forM_zip_require (fun component v => .twistNumber component row (String.ofList v) whole)
    hcomponent (fun g hg => isFiniteNumber_iff.2 (hgood g hg)) hbroken

/-! ## All rows -/

theorem checkTwistRows_eq_ok_iff {rows : List (List Char)} :
    checkTwistRows whole row rows = .ok () ↔ ∀ cs ∈ rows, IsTwistRow cs := by
  induction rows generalizing row with
  | nil => exact iff_of_true rfl nofun
  | cons cs rows ih =>
    rw [checkTwistRows, check_bind_eq_ok_iff, checkTwistRow_eq_ok_iff, ih, List.forall_mem_cons]

/-- Rows that are right are passed over, and counted. -/
theorem checkTwistRows_append {before : List (List Char)} (hbefore : ∀ cs ∈ before, IsTwistRow cs)
    (rest : List (List Char)) :
    checkTwistRows whole row (before ++ rest) = checkTwistRows whole (row + before.length) rest := by
  induction before generalizing row with
  | nil => rfl
  | cons cs before ih =>
    obtain ⟨hcs, hbefore⟩ := List.forall_mem_cons.1 hbefore
    have hrow : checkTwistRow whole row cs = .ok () := checkTwistRow_eq_ok_iff.2 hcs
    rw [List.cons_append, checkTwistRows, hrow, List.length_cons, Nat.add_comm before.length,
      ← Nat.add_assoc]
    exact ih hbefore

/-- The first bad row is the one that is reported. -/
theorem checkTwist_of_row {twist : String} {inner : List Char} {before after : List (List Char)}
    {violation : Violation} (hbrackets : IsBracketed twist inner)
    (hrows : IsJoin ';' (before ++ cs :: after) inner) (hbefore : ∀ cs ∈ before, IsTwistRow cs)
    (hrow : checkTwistRow twist (before.length + 1) cs = .error violation) :
    checkTwist (some twist) = .error violation := by
  rw [checkTwist, checkGiven, checkTwistText, insideBrackets?_eq_some_iff.2 hbrackets]
  show checkTwistRows twist 1 (pieces ';' inner) = _
  rw [pieces_eq_iff.2 hrows, checkTwistRows_append hbefore, checkTwistRows, Nat.add_comm 1, hrow]
  rfl

theorem checkTwistText_eq_ok_iff {twist : String} : checkTwistText twist = .ok () ↔ IsTwist twist := by
  rw [checkTwistText]
  constructor
  · intro h
    cases hinside : insideBrackets? twist.toList with
    | none =>
      rw [hinside] at h
      cases h
    | some inner =>
      rw [hinside] at h
      exact ⟨inner, pieces ';' inner, insideBrackets?_eq_some_iff.1 hinside, pieces_eq_iff.1 rfl,
        checkTwistRows_eq_ok_iff.1 h⟩
  · rintro ⟨inner, rows, hbrackets, hjoin, hrows⟩
    rw [insideBrackets?_eq_some_iff.2 hbrackets]
    show checkTwistRows twist 1 (pieces ';' inner) = _
    rw [pieces_eq_iff.2 hjoin, checkTwistRows_eq_ok_iff]
    exact hrows

/-- A twist is accepted exactly if it is a matrix. Otherwise the complaint quotes all of it and is about its
brackets, or about its first bad row: that this has not three pieces, or else which of the three is its
first that is no number. -/
theorem checkTwist_matrices (twist : String) :
    (checkTwist (some twist) = .ok () ↔ IsTwist twist) ∧
    ((¬ ∃ inner, IsBracketed twist inner) → RefusesTwist twist
      ("CTW has to be defined as [array;array;array] using ; between arrays and , between numbers, "
        ++ s!"but was: '{twist}'")) ∧
    ∀ inner before cs after values, IsBracketed twist inner →
      IsJoin ';' (before ++ cs :: after) inner → (∀ earlier ∈ before, IsTwistRow earlier) →
      IsJoin ',' values cs →
      let row := before.length + 1
      (values.length ≠ 3 →
        let text := String.ofList cs
        RefusesTwist twist
          s!"array{row} in CTW has to contain exactly three comma-separated numbers, but was: '{text}'") ∧
      ∀ good value rest, values.length = 3 → values = good ++ value :: rest →
        (∀ g ∈ good, IsNumberText g) → ¬ IsNumberText value →
        let text := String.ofList value
        ∃ component, ["r", "g", "b"][good.length]? = some component ∧ RefusesTwist twist
          s!"The value of {component} in array{row} needs to be a number, but was: {text}" := by
  refine ⟨checkTwistText_eq_ok_iff, fun hbrackets => ?_, ?_⟩
  · have hnone : insideBrackets? twist.toList = none := by
      refine Option.eq_none_iff_forall_ne_some.2 fun inner hinner => hbrackets ⟨inner, ?_⟩
      exact insideBrackets?_eq_some_iff.1 hinner
    refine ⟨.twistBrackets twist, ?_, rfl⟩
    rw [checkTwist, checkGiven, checkTwistText, hnone]
  · intro inner before cs after values hbrackets hrows hbefore hjoin row
    refine ⟨fun hcount => ?_, fun good value rest hcount hvalues hgood hvalue => ?_⟩
    · have hrow := @checkTwistRow_of_count twist row _ _ hjoin hcount
      exact ⟨_, checkTwist_of_row hbrackets hrows hbefore hrow, rfl⟩
    · subst hvalues
      have hlength : good.length < twistComponents.length := by
        rw [List.length_append, List.length_cons] at hcount
        show good.length < 3
        omega
      have hcomponent := List.getElem?_eq_getElem hlength
      have hrow := @checkTwistRow_of_number twist row _ _ _ _ _ hjoin hcount hgood hvalue
        hcomponent
      exact ⟨_, hcomponent, _, checkTwist_of_row hbrackets hrows hbefore hrow, rfl⟩

/-- An infinite number in the second row is reported before the third row, which is too short. -/
theorem checkTwist_matrices_infinite_number :
    let twist := " [1, -.5e1,0;0,1e39,x;1]"
    RefusesTwist twist "The value of g in array2 needs to be a number, but was: 1e39" := by
  intro twist
  have hbrackets : IsBracketed twist "1, -.5e1,0;0,1e39,x;1".toList :=
    insideBrackets?_eq_some_iff.1 (by decide)
  have hrows : IsJoin ';' (["1, -.5e1,0".toList] ++ "0,1e39,x".toList :: ["1".toList])
      "1, -.5e1,0;0,1e39,x;1".toList := pieces_eq_iff.1 (by decide)
  have hvalues : IsJoin ',' ["0".toList, "1e39".toList, "x".toList] "0,1e39,x".toList :=
    pieces_eq_iff.1 (by decide)
  have hfirst : IsTwistRow "1, -.5e1,0".toList :=
    checkTwistRow_eq_ok_iff.1 (by decide +kernel : checkTwistRow "" 1 "1, -.5e1,0".toList = .ok ())
  have hnumber : IsNumberText "0".toList := isFiniteNumber_iff.1 (by decide +kernel)
  have hinfinite : ¬ IsNumberText "1e39".toList := mt isFiniteNumber_iff.2 (by decide +kernel)
  have hplace := (checkTwist_matrices twist).2.2 _ _ _ _ _ hbrackets hrows
    (List.forall_mem_singleton.2 hfirst) hvalues
  obtain ⟨component, hcomponent, hrefuses⟩ :=
    hplace.2 ["0".toList] "1e39".toList ["x".toList] rfl rfl (List.forall_mem_singleton.2 hnumber) hinfinite
  cases hcomponent
  exact hrefuses

end ImageGate
