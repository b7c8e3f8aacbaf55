import ImageGate.Proofs.Number.ExactValue
import ImageGate.Proofs.Number.ReadingBack
import ImageGate.Proofs.Text.Cutting
import Mathlib.Tactic.FieldSimp
import Mathlib.Tactic.Positivity

/-! Comparing what was read with a whole number. A numeral is rounded before it is compared, so numerals
up to half a spacing above the number still count as not above it. That bound is exact: what rounds to
at most the number is what lies at most half a spacing above it, the tie going to the number where its
last bit is even. -/
namespace ImageGate.Number
open ImageGate.Text
set_option autoImplicit false

/-! ## Rounding keeps the order -/

namespace Binary

theorem nearest_le {num den k : Nat} (hden : 0 < den) (h : num ≤ k * den) : nearest num den ≤ k := by
  have hdivision : num / den * den + num % den = num := Nat.div_add_mod' num den
  have hfloor : num / den ≤ k := Nat.div_le_of_le_mul (by rwa [Nat.mul_comm])
  unfold nearest
  simp only
  split
  · -- Something is left over, so the quotient is not `k` itself.
    next hup =>
    simp only [Bool.or_eq_true, Bool.and_eq_true, decide_eq_true_eq] at hup
    have hne : num / den ≠ k := by
      rintro rfl
      omega
    omega
  · exact hfloor

theorem le_nearest {num den k : Nat} (hden : 0 < den) (h : k * den ≤ num) : k ≤ nearest num den := by
  have hfloor : k ≤ num / den := (Nat.le_div_iff_mul_le hden).2 h
  unfold nearest
  simp only
  split
  · exact Nat.le_succ_of_le hfloor
  · exact hfloor

/-- More than halfway to the next whole number. -/
theorem lt_nearest {num den k : Nat} (hden : 0 < den) (h : 2 * (k * den) + den < 2 * num) :
    k < nearest num den := by
  have hproduct : (k + 1) * den = k * den + den := Nat.succ_mul k den
  by_cases hnext : (k + 1) * den ≤ num
  · exact le_nearest hden hnext
  · have hround : nearest num den = k + 1 :=
      nearest_eq hden (by omega) (by omega) fun _ => ⟨by omega, by omega⟩
    omega

end Binary

namespace Format
variable {F : Format} {units num den : Nat}

theorem log2_le_log2 {m n : Nat} (h : m ≤ n) : m.log2 ≤ n.log2 := by
  by_cases hm : m = 0
  · rw [hm, Nat.log2_zero]
    exact Nat.zero_le _
  · exact (Nat.le_log2 (by omega)).2 (Nat.le_trans (Nat.log2_self_le hm) h)

theorem spacing_dvd_of_log2_le {m n : Nat} (h : m.log2 ≤ n.log2) : F.spacing m ∣ F.spacing n :=
  Nat.pow_dvd_pow 2 (by omega)

theorem dvd_roundUnits (F : Format) (num den : Nat) :
    F.spacing (num / den) ∣ Binary.roundUnits F num den := Nat.dvd_mul_left _ _

/-- Multiples of the spacing bound what is rounded. -/
theorem roundUnits_le (hden : 0 < den) (hdvd : F.spacing (num / den) ∣ units)
    (h : num ≤ units * den) : Binary.roundUnits F num den ≤ units := by
  obtain ⟨k, rfl⟩ := hdvd
  rw [Nat.mul_comm]
  refine Nat.mul_le_mul_right _ (Binary.nearest_le (Nat.mul_pos hden (F.spacing_pos _)) ?_)
  rw [Nat.mul_comm den, ← Nat.mul_assoc, Nat.mul_comm k]
  exact h

theorem le_roundUnits (hden : 0 < den) (hdvd : F.spacing (num / den) ∣ units)
    (h : units * den ≤ num) : units ≤ Binary.roundUnits F num den := by
  obtain ⟨k, rfl⟩ := hdvd
  rw [Nat.mul_comm]
  refine Nat.mul_le_mul_right _ (Binary.le_nearest (Nat.mul_pos hden (F.spacing_pos _)) ?_)
  rw [Nat.mul_comm den, ← Nat.mul_assoc, Nat.mul_comm k]
  exact h

/-- What is rounded to less than the limit is held: it has as many bits as the quotient, or it is the
next power of two. -/
theorem holds_roundUnits (hF : 0 < F.precision) (hden : 0 < den)
    (hlt : Binary.roundUnits F num den < 2 ^ F.limit) : F.Holds (Binary.roundUnits F num den) := by
  let log := (num / den).log2
  have hquotient : num < 2 ^ (log + 1) * den := (Nat.div_lt_iff_lt_mul hden).1 Nat.lt_log2_self
  have hle : Binary.roundUnits F num den ≤ 2 ^ (log + 1) :=
    roundUnits_le hden (Nat.pow_dvd_pow 2 (by omega)) (Nat.le_of_lt hquotient)
  refine ⟨Nat.mod_eq_zero_of_dvd ?_, hlt⟩
  rcases Nat.lt_or_eq_of_le hle with hbelow | hpower
  · have hlog : (Binary.roundUnits F num den).log2 ≤ log := by
      by_cases hzero : Binary.roundUnits F num den = 0
      · rw [hzero, Nat.log2_zero]
        exact Nat.zero_le log
      · exact Nat.le_of_lt_succ ((Nat.log2_lt hzero).2 hbelow)
    exact (spacing_dvd_of_log2_le hlog).trans (F.dvd_roundUnits num den)
  · rw [hpower, spacing, Nat.log2_two_pow]
    exact Nat.pow_dvd_pow 2 (by omega)

/-- A bound whose last bit is even is kept up to half a spacing above it. -/
theorem roundUnits_le_iff (hF : 0 < F.precision) (hden : 0 < den) (hholds : F.Holds units)
    (hpos : 0 < units) (heven : units / F.spacing units % 2 = 0) :
    Binary.roundUnits F num den ≤ units ↔ 2 * num ≤ (2 * units + F.spacing units) * den := by
  have hproduct : (2 * units + F.spacing units) * den = 2 * (units * den) + F.spacing units * den := by
    rw [Nat.add_mul, Nat.mul_assoc]
  rw [hproduct]
  constructor
  · -- Past the half spacing the quotient has the bits of the bound, or more of them.
    intro hle
    apply Decidable.byContradiction
    intro hpast
    have hquotient : units ≤ num / den := (Nat.le_div_iff_mul_le hden).2 (by omega)
    rcases Nat.lt_or_eq_of_le (log2_le_log2 hquotient) with hlog | hlog
    · have hlarge : 2 ^ (num / den).log2 ≤ num / den := Nat.log2_self_le (by omega)
      have hdvd : F.spacing (num / den) ∣ 2 ^ (num / den).log2 := Nat.pow_dvd_pow 2 (by omega)
      have hround := le_roundUnits hden hdvd ((Nat.le_div_iff_mul_le hden).1 hlarge)
      have hbits : 2 ^ (units.log2 + 1) ≤ 2 ^ (num / den).log2 :=
        Nat.pow_le_pow_right (by decide) hlog
      have hunits : units < 2 ^ (units.log2 + 1) := Nat.lt_log2_self
      omega
    · have hspacing : F.spacing (num / den) = F.spacing units := spacing_eq_of_log2_eq hlog.symm
      have hmultiple : units / F.spacing units * F.spacing units = units :=
        Nat.div_mul_cancel hholds.spacing_dvd
      have hscale : units / F.spacing units * (den * F.spacing units) = units * den := by
        rw [Nat.mul_comm den, ← Nat.mul_assoc, hmultiple]
      have hround : units / F.spacing units < Binary.nearest num (den * F.spacing units) := by
        apply Binary.lt_nearest (Nat.mul_pos hden (F.spacing_pos units))
        rw [hscale, Nat.mul_comm den]
        omega
      have hscaled := Nat.mul_lt_mul_of_pos_right hround (F.spacing_pos units)
      rw [hmultiple] at hscaled
      have hunits : Binary.roundUnits F num den
          = Binary.nearest num (den * F.spacing units) * F.spacing units := by
        rw [Binary.roundUnits, hspacing]
      omega
  · intro hhalf
    by_cases hbelow : num ≤ units * den
    · have hquotient : num / den ≤ units := Nat.div_le_of_le_mul (by rwa [Nat.mul_comm])
      have hdvd := (spacing_dvd_of_log2_le (log2_le_log2 hquotient)).trans hholds.spacing_dvd
      exact roundUnits_le hden hdvd hbelow
    · have hin : F.InWindow units num den :=
        ⟨by omega, by omega, fun hodd => by omega, fun _ _ => by omega⟩
      exact Nat.le_of_eq (roundUnits_eq hden hholds hpos hin)

end Format

/-! ## Numerals -/

/-- A run of digits, or two of them around a point, and the number that they write. -/
inductive WritesDecimal : List Char → ℚ → Prop
  | whole {digits : List Char} (h : isRunOf isPlainDigit digits = true) :
      WritesDecimal digits (ofDigits digits)
  | pointed {whole fraction : List Char} (hwhole : isRunOf isPlainDigit whole = true)
      (hfraction : isRunOf isPlainDigit fraction = true) :
      WritesDecimal (whole ++ '.' :: fraction)
        (ofDigits whole + ofDigits fraction / 10 ^ fraction.length)

theorem WritesDecimal.unique {cs : List Char} {v w : ℚ} (hv : WritesDecimal cs v)
    (hw : WritesDecimal cs w) : v = w := by
  have hpoint : ∀ {whole fraction : List Char}, isRunOf isPlainDigit (whole ++ '.' :: fraction) ≠ true :=
    fun hrun => not_mem_run (by decide) hrun (List.mem_append_right _ List.mem_cons_self)
  cases hv with
  | whole hrun =>
    cases hw with
    | whole => rfl
    | pointed => exact absurd hrun hpoint
  | pointed hwhole _ =>
    generalize htext : _ ++ '.' :: _ = text at hw
    cases hw with
    | whole hrun => exact absurd (htext ▸ hrun) hpoint
    | pointed hwhole' _ =>
      have hcut := congrArg (cutFirst '.') htext
      rw [cutFirst_append_cons (not_mem_run (by decide) hwhole),
        cutFirst_append_cons (not_mem_run (by decide) hwhole')] at hcut
      cases hcut
      rfl

theorem ofDigits_append_div (whole fraction : List Char) :
    (ofDigits (whole ++ fraction) : ℚ) / 10 ^ fraction.length
      = ofDigits whole + ofDigits fraction / 10 ^ fraction.length := by
  have hten : (10 : ℚ) ^ fraction.length ≠ 0 := pow_ne_zero _ (by norm_num)
  rw [ofDigits_append, Nat.cast_add, Nat.cast_mul, Nat.cast_pow, Nat.cast_ofNat, add_div,
    mul_div_cancel_right₀ _ hten]

/-- A numeral is read as its digits and the number of them behind the point. -/
theorem WritesDecimal.exists_read? {cs : List Char} {v : ℚ} (h : WritesDecimal cs v) (F : Format) :
    ∃ coefficient places : Nat, v = coefficient / 10 ^ places ∧
      Binary.read? F cs = some ((Decimal.mk false coefficient (-(places : Int))).toBinary F) := by
  cases h with
  | whole hrun =>
    rw [isRunOf, Bool.and_eq_true, Bool.not_eq_true', List.isEmpty_eq_false_iff] at hrun
    refine ⟨ofDigits cs, 0, by simp, ?_⟩
    have hread := Binary.read?_signText F false (isNumeral_digits hrun.1 hrun.2)
    rw [readPlain?_digits false hrun.1 hrun.2] at hread
    exact hread
  | @pointed whole fraction hwhole hfraction =>
    rw [isRunOf, Bool.and_eq_true, Bool.not_eq_true', List.isEmpty_eq_false_iff] at hwhole hfraction
    refine ⟨ofDigits (whole ++ fraction), fraction.length, ?_, ?_⟩
    · exact (ofDigits_append_div whole fraction).symm
    · have hread := Binary.read?_signText F false (isNumeral_pointed hwhole.1 hwhole.2 hfraction.2)
      rw [readPlain?_pointed false hwhole.1 hwhole.2 hfraction.2] at hread
      exact hread

namespace Decimal
variable {F : Format} {units coefficient place : Nat}

theorem le_ofUnits_iff {rounded : Nat} (hheld : rounded < 2 ^ F.limit → F.Holds rounded)
    (hholds : F.Holds units) :
    Binary.le (.ofUnits false rounded) (.finite false units hholds) = true ↔ rounded ≤ units := by
  by_cases h : F.Holds rounded
  · rw [Binary.ofUnits, dif_pos h, Binary.le, decide_eq_true_eq]
    simp [Binary.signedUnits]
  · have hlimit : 2 ^ F.limit ≤ rounded := Nat.le_of_not_lt (mt hheld h)
    have hunits := hholds.2
    rw [Binary.ofUnits, dif_neg h]
    exact iff_of_false (by simp [Binary.le]) (by omega)

/-- The comparison of what was read with a held number. -/
theorem le_toBinary_iff (hF : 0 < F.precision) (hholds : F.Holds units) (hpos : 0 < units)
    (heven : units / F.spacing units % 2 = 0) :
    Binary.le ((Decimal.mk false coefficient (-(place : Int))).toBinary F)
        (.finite false units hholds) = true ↔
      2 * (coefficient * 2 ^ F.unit) ≤ (2 * units + F.spacing units) * 10 ^ place := by
  let digits := (Nat.toDigits 10 coefficient).length
  have hten : 0 < 10 ^ place := Nat.pow_pos (by decide)
  have hspacing : F.spacing units ≤ units := Nat.le_of_dvd hpos hholds.spacing_dvd
  have hbound : (2 * units + F.spacing units) * 10 ^ place ≤ 4 * (units * 10 ^ place) := by
    rw [← Nat.mul_assoc]
    exact Nat.mul_le_mul_right _ (by omega)
  have hleast : 10 ^ place ≤ (2 * units + F.spacing units) * 10 ^ place :=
    Nat.le_mul_of_pos_left _ (by omega)
  have hround : Binary.le (.ofRatio false coefficient (10 ^ place)) (.finite false units hholds) = true ↔
      2 * (coefficient * 2 ^ F.unit) ≤ (2 * units + F.spacing units) * 10 ^ place := by
    rw [Binary.ofRatio, le_ofUnits_iff (Format.holds_roundUnits hF hten),
      Format.roundUnits_le_iff hF hten hholds hpos heven]
  have hzeroLe : Binary.le (.ofUnits false 0) (.finite false units hholds) = true :=
    (le_ofUnits_iff (fun _ => ⟨Nat.zero_mod _, Nat.two_pow_pos _⟩) hholds).2 (Nat.zero_le _)
  unfold toBinary
  simp only
  by_cases hzero : coefficient = 0
  · rw [if_pos hzero, hzero]
    exact iff_of_true hzeroLe (by omega)
  rw [if_neg hzero]
  by_cases hlarge : (F.limit : Int) < -(place : Int) + (digits : Int)
  · -- More digits than any number below the limit has.
    rw [if_pos hlarge]
    refine iff_of_false (by simp [Binary.le]) fun hle => ?_
    have hfew : digits ≤ F.limit + place := length_toDigits_le hholds hpos (by omega)
    omega
  rw [if_neg hlarge]
  by_cases hsmall : -(place : Int) + (digits : Int) < -((F.unit : Int) + 1)
  · rw [if_pos hsmall]
    refine iff_of_true hzeroLe ?_
    have hmany : 1 * 10 ^ place ≤ 2 * (coefficient * 2 ^ F.unit) → place ≤ digits + (F.unit + 1) :=
      le_length_toDigits Nat.one_pos
    omega
  rw [if_neg hsmall]
  by_cases hplace : 0 ≤ -(place : Int)
  · have hnone : place = 0 := by omega
    subst hnone
    rw [if_pos hplace]
    simpa using hround
  · have hback : (-(-(place : Int))).toNat = place := by omega
    rw [if_neg hplace, hback]
    exact hround

end Decimal

/-- A numeral counts as not above a whole number up to half a spacing above it. -/
theorem WritesDecimal.exists_le_ofNat_iff {cs : List Char} {v : ℚ} (h : WritesDecimal cs v) {F : Format}
    (hF : 0 < F.precision) {n : Nat} (hn : 0 < n) (hholds : F.Holds (n * 2 ^ F.unit))
    (heven : n * 2 ^ F.unit / F.spacing (n * 2 ^ F.unit) % 2 = 0) :
    ∃ x, Binary.read? F cs = some x ∧ (Binary.le x (.ofNat n) = true ↔
      v ≤ n + (F.spacing (n * 2 ^ F.unit) : ℚ) / (2 * 2 ^ F.unit)) := by
  obtain ⟨coefficient, places, hv, hread⟩ := h.exists_read? F
  refine ⟨_, hread, ?_⟩
  have hpos : 0 < n * 2 ^ F.unit := Nat.mul_pos hn (Nat.two_pow_pos _)
  have hten : (0 : ℚ) < 10 ^ places := by positivity
  have htwo : (0 : ℚ) < 2 * 2 ^ F.unit := by positivity
  have hsum : (n : ℚ) + (F.spacing (n * 2 ^ F.unit) : ℚ) / (2 * 2 ^ F.unit)
      = (2 * (n * 2 ^ F.unit) + F.spacing (n * 2 ^ F.unit)) / (2 * 2 ^ F.unit) := by
    field_simp
  rw [Binary.ofNat_of_holds hholds, Decimal.le_toBinary_iff hF hholds hpos heven, hv, hsum,
    div_le_div_iff₀ hten htwo, ← Nat.cast_le (α := ℚ)]
  push_cast
  rw [mul_left_comm]

end ImageGate.Number
