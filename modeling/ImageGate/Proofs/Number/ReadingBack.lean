import ImageGate.Proofs.Number.Numerals
import ImageGate.Proofs.Number.Rounding
import Mathlib.Data.List.Induction
import Mathlib.Data.List.TakeWhile

/-! Reading back what was written. The digits written for a finite value lie in its window, so reading
rounds them to the value again, with its sign and also at the zeros. The search for the fewest
digits ends at the latest on the grid of the unit, where every value has its exact digits. -/
namespace ImageGate.Number
open ImageGate.Text
set_option autoImplicit false

/-! ## Digits -/

theorem ofDigits_append (xs ys : List Char) :
    ofDigits (xs ++ ys) = ofDigits xs * 10 ^ ys.length + ofDigits ys := by
  induction ys using List.reverseRecOn with
  | nil => simp [ofDigits]
  | append_singleton ys y ih =>
    rw [← List.append_assoc, ofDigits_append_singleton, ih, ofDigits_append_singleton,
      List.length_append, List.length_singleton, Nat.pow_succ]
    grind

theorem ofDigits_replicate_zero (k : Nat) : ofDigits (List.replicate k '0') = 0 := by
  induction k with
  | zero => rfl
  | succ k ih =>
    rw [List.replicate_succ', ofDigits_append_singleton, ih]
    rfl

theorem all_isPlainDigit_zeros (k : Nat) : (List.replicate k '0').all isPlainDigit = true := by
  apply List.all_eq_true.2
  intro c hc
  rw [(List.mem_replicate.1 hc).2]
  decide

theorem all_isPlainDigit_toDigits (n : Nat) : (Nat.toDigits 10 n).all isPlainDigit = true :=
  List.all_eq_true.2 fun _ => isPlainDigit_of_mem_toDigits

/-! ## Reading plain digits -/

theorem readPlain?_digits (negative : Bool) {cs : List Char} (hne : cs ≠ [])
    (h : cs.all isPlainDigit = true) : readPlain? negative cs = some ⟨negative, ofDigits cs, 0⟩ := by
  have hdrop : cs.dropWhile isPlainDigit = [] := List.dropWhile_eq_nil_iff.2 (List.all_eq_true.1 h)
  have htake : cs.takeWhile isPlainDigit = cs := List.takeWhile_eq_self_iff.2 (List.all_eq_true.1 h)
  unfold readPlain?
  simp only [hdrop, htake]
  rw [if_neg (by simpa using hne)]

theorem readPlain?_pointed (negative : Bool) {whole fraction : List Char} (hne : whole ≠ [])
    (hwhole : whole.all isPlainDigit = true) (hfraction : fraction.all isPlainDigit = true) :
    readPlain? negative (whole ++ '.' :: fraction)
      = some ⟨negative, ofDigits (whole ++ fraction), -(fraction.length : Int)⟩ := by
  have hdrop : (whole ++ '.' :: fraction).dropWhile isPlainDigit = '.' :: fraction := by
    rw [List.dropWhile_append_of_pos (List.all_eq_true.1 hwhole)]
    rfl
  have htake : (whole ++ '.' :: fraction).takeWhile isPlainDigit = whole := by
    rw [List.takeWhile_append_of_pos (List.all_eq_true.1 hwhole)]
    simp [show isPlainDigit '.' = false from rfl]
  unfold readPlain?
  simp only [hdrop, htake]
  rw [if_pos]
  simp [hfraction, hne]

theorem positional_of_nonneg (n : Nat) {place : Int} (h : 0 ≤ place) :
    positional n place = Nat.toDigits 10 n ++ List.replicate place.toNat '0' := by
  rw [positional]
  simp only
  rw [if_pos h]

theorem exists_positional (n : Nat) {place : Int} (h : place < 0) :
    ∃ whole fraction, positional n place = whole ++ '.' :: fraction ∧ whole ≠ [] ∧
      whole.all isPlainDigit = true ∧ fraction.all isPlainDigit = true ∧
      fraction.length = (-place).toNat ∧ ofDigits (whole ++ fraction) = n := by
  let after := (-place).toNat
  let padded := List.replicate (after + 1 - (Nat.toDigits 10 n).length) '0' ++ Nat.toDigits 10 n
  have hdigits : padded.all isPlainDigit = true := by
    rw [List.all_append, all_isPlainDigit_toDigits, all_isPlainDigit_zeros]
    rfl
  have hlength : after < padded.length := by
    simp only [padded, List.length_append, List.length_replicate]
    omega
  have hparts : padded.take (padded.length - after) ++ padded.drop (padded.length - after)
      = padded := List.take_append_drop _ _
  have hvalue : ofDigits padded = n := by
    rw [ofDigits_append, ofDigits_replicate_zero, ofDigits_toDigits]
    omega
  rw [← hparts, List.all_append, Bool.and_eq_true] at hdigits
  refine ⟨padded.take (padded.length - after), padded.drop (padded.length - after), ?_, ?_,
    hdigits.1, hdigits.2, ?_, ?_⟩
  · rw [positional]
    simp only
    rw [if_neg (by omega)]
  · apply List.ne_nil_of_length_pos
    rw [List.length_take]
    omega
  · rw [List.length_drop]
    omega
  · rw [hparts, hvalue]

/-- Zeros on either side of the digits, with or without a point, do not change what is read. -/
theorem readPlain?_positional (negative : Bool) (n : Nat) (place : Int) :
    readPlain? negative (positional n place)
      = some ⟨negative, n * 10 ^ place.toNat, -((-place).toNat : Int)⟩ := by
  by_cases hplace : 0 ≤ place
  · have hdigits : (Nat.toDigits 10 n ++ List.replicate place.toNat '0').all isPlainDigit = true := by
      rw [List.all_append, all_isPlainDigit_toDigits, all_isPlainDigit_zeros]
      rfl
    have hzero : (-place).toNat = 0 := by omega
    rw [positional_of_nonneg n hplace, readPlain?_digits negative (by simp) hdigits, ofDigits_append,
      ofDigits_toDigits, ofDigits_replicate_zero, List.length_replicate, hzero]
    rfl
  · obtain ⟨whole, fraction, hshape, hne, hwhole, hfraction, hlength, hvalue⟩ :=
      exists_positional n (Int.lt_of_not_ge hplace)
    have hzero : place.toNat = 0 := by omega
    rw [hshape, readPlain?_pointed negative hne hwhole hfraction, hvalue, hlength, hzero,
      Nat.pow_zero, Nat.mul_one]

/-! ## Reading a signed numeral -/

/-- Digits with a point among them, and a digit in front. -/
structure IsNumeral (cs : List Char) : Prop where
  head : ∃ c rest, cs = c :: rest ∧ isPlainDigit c = true
  chars : ∀ c ∈ cs, isPlainDigit c = true ∨ c = '.'

theorem isNumeral_append {whole rest : List Char} (hne : whole ≠ [])
    (hwhole : whole.all isPlainDigit = true) (hrest : ∀ c ∈ rest, isPlainDigit c = true ∨ c = '.') :
    IsNumeral (whole ++ rest) := by
  rw [List.all_eq_true] at hwhole
  constructor
  · obtain ⟨c, tail, rfl⟩ := List.exists_cons_of_ne_nil hne
    exact ⟨c, tail ++ rest, rfl, hwhole c List.mem_cons_self⟩
  · intro c hc
    rcases List.mem_append.1 hc with hc | hc
    · exact .inl (hwhole c hc)
    · exact hrest c hc

theorem isNumeral_digits {cs : List Char} (hne : cs ≠ []) (h : cs.all isPlainDigit = true) :
    IsNumeral cs := by
  have hnumeral : IsNumeral (cs ++ []) := isNumeral_append hne h nofun
  rwa [List.append_nil] at hnumeral

theorem isNumeral_pointed {whole fraction : List Char} (hne : whole ≠ [])
    (hwhole : whole.all isPlainDigit = true) (hfraction : fraction.all isPlainDigit = true) :
    IsNumeral (whole ++ '.' :: fraction) := by
  apply isNumeral_append hne hwhole
  intro c hc
  rcases List.mem_cons.1 hc with hpoint | hc
  · exact .inr hpoint
  · exact .inl (List.all_eq_true.1 hfraction c hc)

theorem isNumeral_positional (n : Nat) (place : Int) : IsNumeral (positional n place) := by
  by_cases hplace : 0 ≤ place
  · rw [positional_of_nonneg n hplace]
    apply isNumeral_append Nat.toDigits_ne_nil (all_isPlainDigit_toDigits n)
    intro c hc
    exact .inl (List.all_eq_true.1 (all_isPlainDigit_zeros _) c hc)
  · obtain ⟨whole, fraction, hshape, hne, hwhole, hfraction, -, -⟩ :=
      exists_positional n (Int.lt_of_not_ge hplace)
    rw [hshape]
    exact isNumeral_pointed hne hwhole hfraction

theorem takeSign_signText (negative : Bool) {cs : List Char} (h : IsNumeral cs) :
    takeSign (signText negative ++ cs) = (negative, cs) := by
  obtain ⟨c, rest, rfl, hc⟩ := h.head
  cases negative with
  | true => rfl
  | false =>
    have hminus : c ≠ '-' := by
      rintro rfl
      exact absurd hc (by decide)
    have hplus : c ≠ '+' := by
      rintro rfl
      exact absurd hc (by decide)
    show takeSign (c :: rest) = _
    unfold takeSign
    split
    · next he => exact absurd (List.cons.inj he).1 hminus
    · next he => exact absurd (List.cons.inj he).1 hplus
    · rfl

theorem lowerAscii_of_isPlainDigit {c : Char} (h : isPlainDigit c = true) : lowerAscii c = c := by
  simp only [isPlainDigit, Bool.and_eq_true, decide_eq_true_eq] at h
  have h9 : '9'.toNat = 0x39 := rfl
  have hA : 'A'.toNat = 0x41 := rfl
  rw [lowerAscii, if_neg]
  simp only [Bool.and_eq_true, decide_eq_true_eq]
  omega

/-- A numeral is none of the words for infinity and for what is not a number. -/
theorem IsNumeral.ne_word {cs : List Char} (h : IsNumeral cs) {c : Char} {word : List Char}
    (hc : isPlainDigit c = false) : String.ofList (cs.map lowerAscii) ≠ String.ofList (c :: word) := by
  obtain ⟨d, rest, rfl, hd⟩ := h.head
  intro he
  have hlist := congrArg String.toList he
  rw [String.toList_ofList, String.toList_ofList, List.map_cons, lowerAscii_of_isPlainDigit hd,
    List.cons.injEq] at hlist
  rw [hlist.1, hc] at hd
  cases hd

theorem readUnsigned?_of_isNumeral (negative : Bool) {cs : List Char} (h : IsNumeral cs) :
    readUnsigned? negative cs = readPlain? negative cs := by
  have hplain : cs.all (fun c => !(c == 'e' || c == 'E')) = true := by
    apply List.all_eq_true.2
    intro c hc
    rcases h.chars c hc with hd | rfl
    · have he : c ≠ 'e' := by
        rintro rfl
        exact absurd hd (by decide)
      have hE : c ≠ 'E' := by
        rintro rfl
        exact absurd hd (by decide)
      simp [he, hE]
    · decide
  have hdrop := List.dropWhile_eq_nil_iff.2 (List.all_eq_true.1 hplain)
  unfold readUnsigned?
  simp only [hdrop]

theorem Binary.read?_signText (F : Format) (negative : Bool) {cs : List Char} (h : IsNumeral cs) :
    Binary.read? F (signText negative ++ cs)
      = (readPlain? negative cs).map (·.toBinary F) := by
  have hinf : String.ofList (cs.map lowerAscii) ≠ "inf" := h.ne_word (c := 'i') (by decide)
  have hinfinity : String.ofList (cs.map lowerAscii) ≠ "infinity" := h.ne_word (c := 'i') (by decide)
  have hnan : String.ofList (cs.map lowerAscii) ≠ "nan" := h.ne_word (c := 'n') (by decide)
  unfold Binary.read?
  rw [takeSign_signText negative h]
  simp only
  rw [if_neg (by simp [hinf, hinfinity]), if_neg (by simp [hnan]),
    readUnsigned?_of_isNumeral negative h]

/-! ## Rounding what was read -/

namespace Decimal
variable {F : Format} {units coefficient down : Nat}

/-- What lies in a window is not nothing, and neither more than twice its number. -/
theorem bounds_of_inWindow (h : F.Holds units) (hpos : 0 < units)
    (hin : F.InWindow units coefficient down) :
    units * down ≤ 2 * coefficient ∧ coefficient ≤ 2 * (units * down) := by
  have hspacing : F.spacing units * down ≤ units * down :=
    Nat.mul_le_mul_right down (Nat.le_of_dvd hpos h.spacing_dvd)
  have hlow := hin.low
  have hhigh := hin.high
  omega

theorem length_toDigits_le (h : F.Holds units) (hpos : 0 < units) {place : Nat}
    (hhigh : coefficient * 2 ^ F.unit ≤ 2 * (units * 10 ^ place)) :
    (Nat.toDigits 10 coefficient).length ≤ F.limit + place := by
  have hlimit : 0 < F.limit := by
    apply Nat.pos_of_ne_zero
    intro hzero
    have hlt := h.2
    rw [hzero, Nat.pow_zero] at hlt
    omega
  have hten : 2 * 2 ^ F.limit ≤ 10 ^ F.limit := by
    rw [show 10 = 5 * 2 from rfl, Nat.mul_pow]
    apply Nat.mul_le_mul_right
    exact Nat.le_trans (by decide) (Nat.pow_le_pow_right (by decide) hlimit)
  rw [Nat.length_toDigits_le_iff (by decide) (Nat.add_pos_left hlimit place)]
  calc
    coefficient ≤ coefficient * 2 ^ F.unit := Nat.le_mul_of_pos_right _ (Nat.two_pow_pos _)
    _ ≤ 2 * (units * 10 ^ place) := hhigh
    _ = 2 * units * 10 ^ place := (Nat.mul_assoc 2 units _).symm
    _ < 2 * 2 ^ F.limit * 10 ^ place :=
      Nat.mul_lt_mul_of_pos_right (Nat.mul_lt_mul_of_pos_left h.2 (by decide))
        (Nat.pow_pos (by decide))
    _ ≤ 10 ^ F.limit * 10 ^ place := Nat.mul_le_mul_right _ hten
    _ = 10 ^ (F.limit + place) := (Nat.pow_add 10 _ _).symm

theorem le_length_toDigits (hpos : 0 < units) {place : Nat}
    (hlow : units * 10 ^ place ≤ 2 * (coefficient * 2 ^ F.unit)) :
    place ≤ (Nat.toDigits 10 coefficient).length + (F.unit + 1) := by
  let digits := (Nat.toDigits 10 coefficient).length
  have hdigits : 0 < digits := Nat.length_toDigits_pos
  have hcoefficient : coefficient < 10 ^ digits :=
    (Nat.length_toDigits_le_iff (by decide) hdigits).1 (Nat.le_refl digits)
  have hlt : 10 ^ place < 10 ^ (digits + (F.unit + 1)) := by
    calc
      10 ^ place ≤ units * 10 ^ place := Nat.le_mul_of_pos_left _ hpos
      _ ≤ 2 * (coefficient * 2 ^ F.unit) := hlow
      _ = coefficient * 2 ^ (F.unit + 1) := by rw [Nat.pow_succ]; grind
      _ < 10 ^ digits * 2 ^ (F.unit + 1) :=
        Nat.mul_lt_mul_of_pos_right hcoefficient (Nat.two_pow_pos _)
      _ ≤ 10 ^ digits * 10 ^ (F.unit + 1) :=
        Nat.mul_le_mul_left _ (Nat.pow_le_pow_left (by decide) _)
      _ = 10 ^ (digits + (F.unit + 1)) := (Nat.pow_add 10 _ _).symm
  exact Nat.le_of_lt ((Nat.pow_lt_pow_iff_right (by decide)).1 hlt)

theorem toBinary_zero (F : Format) (negative : Bool) (exponent : Int) :
    (Decimal.mk negative 0 exponent).toBinary F = .ofUnits negative 0 := if_pos rfl

/-- The size of what is read is neither too large nor too small to be rounded. -/
theorem toBinary_eq (h : F.Holds units) (hpos : 0 < units) (negative : Bool) {place : Nat}
    (hin : F.InWindow units (coefficient * 2 ^ F.unit) (10 ^ place)) :
    (Decimal.mk negative coefficient (-(place : Int))).toBinary F = .finite negative units h := by
  obtain ⟨hlow, hhigh⟩ := bounds_of_inWindow h hpos hin
  have hdown : 0 < 10 ^ place := Nat.pow_pos (by decide)
  have hcoefficient : coefficient ≠ 0 := by
    rintro rfl
    have hunits : 10 ^ place ≤ units * 10 ^ place := Nat.le_mul_of_pos_left _ hpos
    rw [Nat.zero_mul] at hlow
    omega
  have hlarge := length_toDigits_le h hpos hhigh
  have hsmall := le_length_toDigits hpos hlow
  have hround : Binary.roundUnits F (coefficient * 2 ^ F.unit) (10 ^ place) = units :=
    Format.roundUnits_eq hdown h hpos hin
  unfold toBinary
  simp only
  rw [if_neg hcoefficient, if_neg (by omega), if_neg (by omega)]
  by_cases hplace : 0 ≤ -(place : Int)
  · have hzero : place = 0 := by omega
    subst hzero
    have hup : (-((0 : Nat) : Int)).toNat = 0 := rfl
    rw [Nat.pow_zero] at hround
    rw [if_pos hplace, Binary.ofRatio, hup, Nat.pow_zero, Nat.mul_one, hround, Binary.ofUnits,
      dif_pos h]
  · have hback : (-(-(place : Int))).toNat = place := by omega
    rw [if_neg hplace, hback, Binary.ofRatio, hround, Binary.ofUnits, dif_pos h]

end Decimal

/-! ## The search for the fewest digits -/

namespace Format
variable {F : Format} {units : Nat}

/-- A point is taken only if the window has it. -/
theorem has_of_onGrid? {place : Int} {n : Nat} (h : onGrid? F units place = some n) :
    (F.window units).has (n * (4 * 2 ^ F.unit * 10 ^ place.toNat)) (10 ^ (-place).toNat) = true := by
  unfold onGrid? at h
  simp only at h
  split at h
  · next hboth =>
    rw [Bool.and_eq_true] at hboth
    rw [Option.some.injEq] at h
    subst h
    split
    · exact hboth.1
    · exact hboth.2
  · split at h
    · next hlow =>
      rw [Option.some.injEq] at h
      subst h
      exact hlow
    · split at h
      · next hhigh =>
        rw [Option.some.injEq] at h
        subst h
        exact hhigh
      · cases h

theorem inWindow_of_onGrid? {place : Int} {n : Nat} (h : onGrid? F units place = some n) :
    F.InWindow units (n * 10 ^ place.toNat * 2 ^ F.unit) (10 ^ (-place).toNat) := by
  apply inWindow_of_has (Nat.pow_pos (by decide))
  rw [← has_of_onGrid? h]
  congr 1
  grind

/-- On a grid that it lies on a value is written exactly. -/
theorem onGrid?_ne_none (hpos : 0 < units) {place : Int}
    (hdvd : 2 ^ F.unit * 10 ^ place.toNat ∣ units * 10 ^ (-place).toNat) :
    onGrid? F units place ≠ none := by
  let num := units * 10 ^ (-place).toNat
  let den := 2 ^ F.unit * 10 ^ place.toNat
  have hexact : num / den * (4 * 2 ^ F.unit * 10 ^ place.toNat) = 4 * num := by
    rw [Nat.mul_assoc 4, Nat.mul_left_comm, Nat.div_mul_cancel hdvd]
  have hhas : (F.window units).has (4 * num) (10 ^ (-place).toNat) = true :=
    has_exact hpos (Nat.pow_pos (by decide))
  unfold onGrid?
  simp only [num, den] at hexact hhas
  simp only [hexact, hhas, Bool.true_and, if_true]
  split <;> exact Option.some_ne_none _

/-- The grid of the unit itself is one for every value. -/
theorem onGrid?_unit_ne_none (hpos : 0 < units) :
    onGrid? F units (-(F.unit : Int)) ≠ none := by
  have hup : (-(F.unit : Int)).toNat = 0 := by omega
  have hdown : (-(-(F.unit : Int))).toNat = F.unit := by omega
  have htwo : 10 ^ F.unit = 2 ^ F.unit * 5 ^ F.unit := by rw [← Nat.mul_pow]
  apply onGrid?_ne_none hpos
  rw [hup, hdown, Nat.pow_zero, Nat.mul_one, htwo]
  exact Nat.dvd_mul_left_of_dvd (Nat.dvd_mul_right _ _) _

/-- The search finds a point, and not on a finer grid than any target. -/
theorem shortestFrom_spec {target : Int} (htarget : onGrid? F units target ≠ none)
    {tries : Nat} {place : Int} (hplace : target ≤ place) (htries : place < target + tries) :
    onGrid? F units (shortestFrom F units tries place).2
        = some (shortestFrom F units tries place).1 ∧
      target ≤ (shortestFrom F units tries place).2 := by
  -- Every try goes down by one place, and by `htries` the target is reached before they end.
  induction tries generalizing place with
  | zero => omega
  | succ tries ih =>
    unfold shortestFrom
    cases hgrid : onGrid? F units place with
    | some n => exact ⟨hgrid, hplace⟩
    | none =>
      have hne : target ≠ place := by
        rintro rfl
        exact htarget hgrid
      apply ih
      · omega
      · omega

theorem onGrid?_shortest (hpos : 0 < units) :
    onGrid? F units (shortest F units).2 = some (shortest F units).1 := by
  refine (shortestFrom_spec (onGrid?_unit_ne_none hpos) ?_ ?_).1
  · omega
  · omega

end Format

/-! ## Any finite value -/

namespace Binary
variable {F : Format}

theorem read?_text {x : Binary F} (h : x.isFinite = true) :
    read? F (text x).toList = some x := by
  cases x with
  | nan => cases h
  | infinite negative => cases h
  | finite negative units holds =>
    rw [text]
    by_cases hzero : units = 0
    · subst hzero
      have hnumeral : IsNumeral ['0'] := isNumeral_digits (by decide) (by decide)
      rw [if_pos rfl, String.toList_ofList, read?_signText F negative hnumeral,
        readPlain?_digits negative (by decide) (by decide), Option.map_some]
      have hvalue : ofDigits ['0'] = 0 := rfl
      rw [hvalue, Decimal.toBinary_zero, ofUnits, dif_pos holds]
    · have hpos : 0 < units := Nat.pos_of_ne_zero hzero
      have hin := Format.inWindow_of_onGrid? (Format.onGrid?_shortest (F := F) hpos)
      rw [if_neg hzero, String.toList_ofList, read?_signText F negative (isNumeral_positional _ _),
        readPlain?_positional, Option.map_some, Decimal.toBinary_eq holds hpos negative hin]

theorem read?_whole {units : Nat} (h : F.Holds units) (negative : Bool)
    (hwhole : units % 2 ^ F.unit = 0) :
    read? F (signText negative ++ (Nat.toDigits 10 (units / 2 ^ F.unit) ++ ".0".toList))
      = some (.finite negative units h) := by
  let n := units / 2 ^ F.unit
  have hunits : n * 2 ^ F.unit = units := Nat.div_mul_cancel (Nat.dvd_of_mod_eq_zero hwhole)
  have hfraction : ['0'].all isPlainDigit = true := by decide
  have hnumeral : IsNumeral (Nat.toDigits 10 n ++ ".0".toList) :=
    isNumeral_pointed Nat.toDigits_ne_nil (all_isPlainDigit_toDigits n) hfraction
  have hread : readPlain? negative (Nat.toDigits 10 n ++ ".0".toList)
      = some ⟨negative, n * 10, -((1 : Nat) : Int)⟩ := by
    have hplain := readPlain?_pointed negative Nat.toDigits_ne_nil (all_isPlainDigit_toDigits n)
      hfraction
    rw [ofDigits_append, ofDigits_toDigits] at hplain
    exact hplain
  rw [read?_signText F negative hnumeral, hread, Option.map_some]
  by_cases hzero : units = 0
  · have hnone : n * 10 = 0 := by
      simp only [n, hzero, Nat.zero_div, Nat.zero_mul]
    subst hzero
    rw [hnone, Decimal.toBinary_zero, ofUnits, dif_pos h]
  · have hpos : 0 < units := Nat.pos_of_ne_zero hzero
    have hin : F.InWindow units (n * 10 * 2 ^ F.unit) (10 ^ 1) := by
      apply Format.inWindow_of_has (by decide)
      rw [Nat.mul_right_comm, hunits]
      exact Format.has_exact hpos (by decide)
    rw [Decimal.toBinary_eq h hpos negative hin]

/-- The form of an address reads back too: a whole value with a zero behind the point is exact. -/
theorem read?_pointedText {x : Binary F} (h : x.isFinite = true) :
    read? F (pointedText x).toList = some x := by
  cases x with
  | nan => cases h
  | infinite negative => cases h
  | finite negative units holds =>
    rw [pointedText]
    split
    · next hwhole =>
      rw [Bool.and_eq_true, decide_eq_true_eq] at hwhole
      rw [String.toList_ofList, List.append_assoc, read?_whole holds negative hwhole.1]
    · exact read?_text h

end Binary

end ImageGate.Number
