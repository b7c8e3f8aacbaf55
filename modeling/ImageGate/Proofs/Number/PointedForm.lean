import ImageGate.Proofs.Number.NearestValue

/-! The form of the numbers in an address. Whatever finite value is written, the text is a decimal to which
the value is the nearest one. It has a point with digits on both sides, except for the whole values from
about `10 ^ 15` on: these are written like a fraction, with the fewest digits, which need no point there. -/
namespace ImageGate.Number
open ImageGate.Text
set_option autoImplicit false

/-! ## Digits around a point -/

/-- Digits, a point and digits, behind a minus sign or none. -/
def IsPointed (cs : List Char) : Prop :=
  ∃ sign whole fraction, cs = sign ++ (whole ++ '.' :: fraction) ∧ (sign = [] ∨ sign = ['-']) ∧
    isRunOf isPlainDigit whole = true ∧ isRunOf isPlainDigit fraction = true

theorem isRunOf_of_ne_nil {p : Char → Bool} {cs : List Char} (hne : cs ≠ []) (h : cs.all p = true) :
    isRunOf p cs = true := by
  rw [isRunOf, h, Bool.and_true, Bool.not_eq_true', List.isEmpty_eq_false_iff]
  exact hne

theorem isPointed_signText (negative : Bool) {whole fraction : List Char}
    (hwhole : isRunOf isPlainDigit whole = true) (hfraction : isRunOf isPlainDigit fraction = true) :
    IsPointed (signText negative ++ (whole ++ '.' :: fraction)) := by
  refine ⟨signText negative, whole, fraction, rfl, ?_, hwhole, hfraction⟩
  cases negative with
  | true => exact .inr rfl
  | false => exact .inl rfl

theorem IsPointed.point_mem {cs : List Char} (h : IsPointed cs) : '.' ∈ cs := by
  obtain ⟨sign, whole, fraction, rfl, -⟩ := h
  simp

theorem isRunOf_positional (n : Nat) {place : Int} (h : 0 ≤ place) :
    isRunOf isPlainDigit (positional n place) = true := by
  rw [positional_of_nonneg n h]
  apply isRunOf_of_ne_nil (by simp)
  rw [List.all_append, all_isPlainDigit_toDigits, all_isPlainDigit_zeros]
  rfl

theorem exists_pointed_positional (n : Nat) {place : Int} (h : place < 0) :
    ∃ whole fraction, positional n place = whole ++ '.' :: fraction ∧
      isRunOf isPlainDigit whole = true ∧ isRunOf isPlainDigit fraction = true ∧
      fraction.length = (-place).toNat ∧ ofDigits (whole ++ fraction) = n := by
  obtain ⟨whole, fraction, hshape, hne, hwhole, hfraction, hlength, hvalue⟩ := exists_positional n h
  have hsome : fraction ≠ [] := List.ne_nil_of_length_pos (by omega)
  exact ⟨whole, fraction, hshape, isRunOf_of_ne_nil hne hwhole, isRunOf_of_ne_nil hsome hfraction,
    hlength, hvalue⟩

/-- There is a point exactly where the last digit stands behind the units. -/
theorem isPointed_positional_iff (negative : Bool) (n : Nat) (place : Int) :
    IsPointed (signText negative ++ positional n place) ↔ place < 0 := by
  constructor
  · intro hpointed
    by_contra hplace
    have hdigits : '.' ∉ positional n place :=
      not_mem_run (by decide) (isRunOf_positional n (Int.not_lt.1 hplace))
    rcases List.mem_append.1 hpointed.point_mem with hsign | hpoint
    · cases negative <;> simp [signText] at hsign
    · exact hdigits hpoint
  · intro hplace
    obtain ⟨whole, fraction, hshape, hwhole, hfraction, -⟩ := exists_pointed_positional n hplace
    rw [hshape]
    exact isPointed_signText negative hwhole hfraction

/-- What is written for `n * 10 ^ place` is a decimal of that value. -/
theorem writesDecimal_positional (n : Nat) (place : Int) :
    WritesDecimal (positional n place) ((n * 10 ^ place.toNat : Nat) / (10 ^ (-place).toNat : Nat)) := by
  by_cases hplace : 0 ≤ place
  · have hvalue : ofDigits (positional n place) = n * 10 ^ place.toNat := by
      rw [positional_of_nonneg n hplace, ofDigits_append, ofDigits_toDigits, ofDigits_replicate_zero,
        List.length_replicate, Nat.add_zero]
    have hzero : (-place).toNat = 0 := by omega
    rw [hzero, Nat.pow_zero, Nat.cast_one, div_one, ← hvalue]
    exact .whole (isRunOf_positional n hplace)
  · obtain ⟨whole, fraction, hshape, hwhole, hfraction, hlength, hdigits⟩ :=
      exists_pointed_positional n (Int.lt_of_not_ge hplace)
    have hzero : place.toNat = 0 := by omega
    have hwrites := WritesDecimal.pointed hwhole hfraction
    rw [← ofDigits_append_div, hdigits, hlength] at hwrites
    rw [hshape, hzero, Nat.pow_zero, Nat.mul_one, Nat.cast_pow, Nat.cast_ofNat]
    exact hwrites

/-! ## The place of the last digit -/

namespace Format
variable {F : Format} {units : Nat}

/-- A whole value is on the grid of the whole numbers. -/
theorem place_nonneg_of_whole (hF : F.unit ≤ F.limit) (hpos : 0 < units)
    (hwhole : units % 2 ^ F.unit = 0) : 0 ≤ (shortest F units).2 := by
  have hgrid : onGrid? F units 0 ≠ none := by
    apply onGrid?_ne_none hpos
    simpa using Nat.dvd_of_mod_eq_zero hwhole
  refine (shortestFrom_spec hgrid ?_ ?_).2
  · omega
  · omega

/-- A window holds no multiple of the spacing but its number. -/
theorem InWindow.eq_of_dvd {n : Nat} (h : F.Fits units) (hin : F.InWindow units n 1)
    (hdvd : F.spacing units ∣ n) : n = units := by
  have hspacing := F.spacing_pos units
  have hlow := hin.low
  have hhigh := hin.high
  rcases Nat.lt_trichotomy n units with hlt | heq | hgt
  · have hgap := add_le_of_dvd hdvd h.spacing_dvd hlt
    omega
  · exact heq
  · have hgap := add_le_of_dvd h.spacing_dvd hdvd hgt
    omega

/-- The spacing of a value that is not whole divides the whole numbers. -/
theorem Fits.spacing_dvd_unit (h : F.Fits units) (hwhole : units % 2 ^ F.unit ≠ 0) :
    F.spacing units ∣ 2 ^ F.unit := by
  apply Nat.pow_dvd_pow
  by_contra hlarge
  have hcoarse : 2 ^ F.unit ∣ F.spacing units := Nat.pow_dvd_pow 2 (by omega)
  exact hwhole (Nat.mod_eq_zero_of_dvd (hcoarse.trans h.spacing_dvd))

/-- So on a grid of whole numbers there is nothing in its window. -/
theorem place_neg_of_not_whole (hholds : F.Holds units) (hwhole : units % 2 ^ F.unit ≠ 0) :
    (shortest F units).2 < 0 := by
  by_contra hplace
  have hpos : 0 < units := Nat.pos_of_ne_zero fun hzero => hwhole (by rw [hzero, Nat.zero_mod])
  have hzero : (-(shortest F units).2).toNat = 0 := by omega
  have hin := inWindow_of_onGrid? (onGrid?_shortest (F := F) hpos)
  rw [hzero, Nat.pow_zero] at hin
  have hunits := hin.eq_of_dvd hholds.fits ((hholds.fits.spacing_dvd_unit hwhole).mul_left _)
  exact hwhole (by rw [← hunits, Nat.mul_mod_left])

/-- Values with more bits than the precision in front of the point are whole. -/
theorem Holds.lt_of_not_whole (h : F.Holds units) (hwhole : units % 2 ^ F.unit ≠ 0) :
    units < 2 ^ (F.unit + F.precision) := by
  by_contra hle
  have hlarge : 2 ^ (F.unit + F.precision) ≤ units := Nat.not_lt.1 hle
  have hne : units ≠ 0 := fun hzero => hwhole (by rw [hzero, Nat.zero_mod])
  have hlog : F.unit + F.precision ≤ units.log2 := (Nat.le_log2 hne).2 hlarge
  have hcoarse : 2 ^ F.unit ∣ F.spacing units := Nat.pow_dvd_pow 2 (by omega)
  exact hwhole (Nat.mod_eq_zero_of_dvd (hcoarse.trans h.spacing_dvd))

end Format

/-! ## Single values -/

namespace Binary

/-- The single value nearest to `10 ^ 15`. -/
def pointLimit : Nat := 999999986991104

theorem ofNat_pointLimit : (ofNat (10 ^ 15) : Single) = ofNat pointLimit := by decide +kernel

theorem holds_pointLimit : Format.single.Holds (pointLimit * 2 ^ Format.single.unit) := by
  decide +kernel

variable {negative : Bool} {units : Nat} {holds : Format.single.Holds units}

theorem value_finite_false :
    (finite false units holds : Single).value = units / 2 ^ Format.single.unit := by
  simp [value, signedUnits]

theorem abs_value : |(finite negative units holds : Single).value| = units / 2 ^ Format.single.unit := by
  rw [value, abs_div, abs_of_pos (unit_pos Format.single)]
  cases negative <;> simp [signedUnits]

theorem abs_value_lt_iff {n : Nat} :
    |(finite negative units holds : Single).value| < n ↔ units < n * 2 ^ Format.single.unit := by
  rw [abs_value, div_lt_iff₀ (by positivity)]
  exact_mod_cast Iff.rfl

/-- Up to there whole values are written with all their digits. -/
theorem lt_ofNat_iff (negative : Bool) : lt (finite false units holds : Single) (ofNat (10 ^ 15)) = true ↔
    |(finite negative units holds : Single).value| < pointLimit := by
  rw [ofNat_pointLimit, lt_iff_value_lt rfl (isFinite_ofNat holds_pointLimit),
    value_ofNat holds_pointLimit, value_finite_false, abs_value]

/-- The two ways in which a finite value is written. -/
theorem toList_pointedText (negative : Bool) (units : Nat) (holds : Format.single.Holds units) :
    let x : Single := .finite negative units holds
    let best := shortest Format.single units
    (units % 2 ^ Format.single.unit = 0 ∧ |x.value| < pointLimit ∧ x.pointedText.toList
      = signText negative ++ (Nat.toDigits 10 (units / 2 ^ Format.single.unit) ++ '.' :: ['0'])) ∨
    (¬ (units % 2 ^ Format.single.unit = 0 ∧ |x.value| < pointLimit) ∧ 0 < units ∧
      x.pointedText.toList = signText negative ++ positional best.1 best.2) := by
  intro x best
  by_cases hsmall : units % 2 ^ Format.single.unit = 0 ∧ |x.value| < pointLimit
  · have hlt : lt (.finite false units holds : Single) (ofNat (10 ^ 15)) = true :=
      (lt_ofNat_iff negative).2 hsmall.2
    refine .inl ⟨hsmall.1, hsmall.2, ?_⟩
    rw [pointedText, hlt, if_pos (by simpa using hsmall.1), String.toList_ofList, List.append_assoc]
    rfl
  · have hpos : 0 < units := by
      refine Nat.pos_of_ne_zero fun hzero => hsmall ⟨by rw [hzero, Nat.zero_mod], ?_⟩
      rw [abs_value_lt_iff, hzero]
      decide +kernel
    refine .inr ⟨hsmall, hpos, ?_⟩
    rw [pointedText, if_neg, text, if_neg (Nat.ne_of_gt hpos), String.toList_ofList]
    rw [Bool.and_eq_true, decide_eq_true_eq, lt_ofNat_iff negative]
    exact hsmall

/-- There is a point with digits on both sides unless the value is too large. -/
theorem isPointed_pointedText_iff {x : Single} (h : x.isFinite = true) :
    IsPointed x.pointedText.toList ↔ |x.value| < pointLimit := by
  cases x with
  | nan | infinite => cases h
  | finite negative units holds =>
    rcases toList_pointedText negative units holds with ⟨-, hsmall, htext⟩ | ⟨hlarge, hpos, htext⟩
    · rw [htext]
      exact iff_of_true (isPointed_signText negative (isRunOf_toDigits _) (by decide)) hsmall
    · rw [htext, isPointed_positional_iff]
      by_cases hwhole : units % 2 ^ Format.single.unit = 0
      · have hplace := Format.place_nonneg_of_whole (F := Format.single) (by decide) hpos hwhole
        exact iff_of_false (Int.not_lt.2 hplace) fun hsmall => hlarge ⟨hwhole, hsmall⟩
      · refine iff_of_true (Format.place_neg_of_not_whole holds hwhole) ?_
        have hbits : 2 ^ (Format.single.unit + Format.single.precision)
            ≤ pointLimit * 2 ^ Format.single.unit := by decide +kernel
        exact abs_value_lt_iff.2 (Nat.lt_of_lt_of_le (holds.lt_of_not_whole hwhole) hbits)

/-! ## The value of what is written -/

/-- The text stands for a finite value: behind its sign it is a decimal to which the value is the nearest
one, and reading gives the value. -/
structure StandsFor {F : Format} (cs : List Char) (x : Binary F) : Prop where
  nearest : ∃ negative units holds digits v, x = .finite negative units holds ∧
    cs = signText negative ++ digits ∧ WritesDecimal digits v ∧ F.IsNearest units v
  read : read? F cs = some x

theorem standsFor_pointedText {x : Single} (h : x.isFinite = true) :
    StandsFor x.pointedText.toList x := by
  refine ⟨?_, read?_pointedText h⟩
  cases x with
  | nan | infinite => cases h
  | finite negative units holds =>
    rcases toList_pointedText negative units holds with ⟨hwhole, -, htext⟩ | ⟨-, hpos, htext⟩
    · have hwrites := WritesDecimal.pointed (isRunOf_toDigits (units / 2 ^ Format.single.unit))
        (by decide : isRunOf isPlainDigit ['0'] = true)
      refine ⟨negative, units, holds, _, _, rfl, htext, hwrites, ?_⟩
      have hexact : ((units / 2 ^ Format.single.unit : Nat) : ℚ) = units / 2 ^ Format.single.unit := by
        rw [eq_div_iff (by positivity)]
        exact_mod_cast Nat.div_mul_cancel (Nat.dvd_of_mod_eq_zero hwhole)
      rw [ofDigits_toDigits, hexact, show ofDigits ['0'] = 0 from rfl, Nat.cast_zero, zero_div, add_zero]
      exact Format.single.isNearest_self units
    · have hin := Format.inWindow_of_onGrid? (Format.onGrid?_shortest (F := Format.single) hpos)
      exact ⟨negative, units, holds, _, _, rfl, htext, writesDecimal_positional _ _,
        hin.isNearest (by decide) (Nat.pow_pos (by decide)) holds.fits⟩

end Binary

end ImageGate.Number
