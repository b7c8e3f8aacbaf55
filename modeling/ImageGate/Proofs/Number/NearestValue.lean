import ImageGate.Proofs.Number.Comparison
import Mathlib.Data.Nat.Dist

/-! The nearest value. What lies in the window of a held number is nearer to it than to any other number of
as many bits, and where another is as near, the last bit of the held one is even. The other numbers may lie
past the limit of the format, so what is nearest to a held number does not overflow. -/
namespace ImageGate.Number
open ImageGate.Text
set_option autoImplicit false

namespace Format
variable {F : Format} {units num den n : Nat}

/-! ## Gaps between numbers -/

/-- The number is a power of two, and the spacing below it is halved. -/
def IsStep (F : Format) (units : Nat) : Prop := units = 2 ^ units.log2 ∧ 1 < F.spacing units

/-- Above a number the gap is one spacing. -/
theorem Fits.add_spacing_le_of_gt (h : F.Fits units) (hn : F.Fits n) (hlt : units < n) :
    units + F.spacing units ≤ n := by
  have hdvd : F.spacing units ∣ F.spacing n :=
    spacing_dvd_of_log2_le (log2_le_log2 (Nat.le_of_lt hlt))
  exact add_le_of_dvd h.spacing_dvd (hdvd.trans hn.spacing_dvd) hlt

/-- Below it the gap is one spacing, too, unless it is a step. -/
theorem Fits.add_spacing_le_of_lt (h : F.Fits units) (hn : F.Fits n) (hlt : n < units)
    (hstep : ¬ F.IsStep units) : n + F.spacing units ≤ units := by
  have hpos : 0 < units := Nat.lt_of_le_of_lt (Nat.zero_le n) hlt
  rcases Nat.lt_or_eq_of_le (log2_le_log2 (Nat.le_of_lt hlt)) with hlog | hlog
  · by_cases hlarge : 1 < F.spacing units
    · -- A power of two lies between the two numbers.
      have hpower : n < 2 ^ units.log2 :=
        Nat.lt_of_lt_of_le Nat.lt_log2_self (Nat.pow_le_pow_right (by decide) hlog)
      have hle : 2 ^ units.log2 ≤ units := Nat.log2_self_le (Nat.ne_of_gt hpos)
      have hne : units ≠ 2 ^ units.log2 := fun heq => hstep ⟨heq, hlarge⟩
      have hgap := add_le_of_dvd (h.spacing_dvd_pow hpos) h.spacing_dvd (by omega)
      omega
    · have hone := F.spacing_pos units
      omega
  · have hspacing : F.spacing n = F.spacing units := spacing_eq_of_log2_eq hlog
    rw [← hspacing]
    exact add_le_of_dvd hn.spacing_dvd (hspacing ▸ h.spacing_dvd) hlt

/-- Below a step it is half a spacing. -/
theorem Fits.two_mul_add_spacing_le (h : F.Fits units) (hn : F.Fits n) (hlt : n < units)
    (hstep : F.IsStep units) : 2 * n + F.spacing units ≤ 2 * units := by
  obtain ⟨hunits, hlarge⟩ := hstep
  have hpos : 0 < units := Nat.lt_of_le_of_lt (Nat.zero_le n) hlt
  have hreach : F.spacing units ≤ units := Nat.le_of_dvd hpos h.spacing_dvd
  have hnext : 2 ^ (n.log2 + 1) ≤ units := by
    rw [hunits]
    apply Nat.pow_le_pow_right (by decide)
    by_cases hzero : n = 0
    · rw [hzero, Nat.log2_zero]
      refine Nat.pos_of_ne_zero fun hlog => ?_
      rw [hlog] at hunits
      omega
    · exact (Nat.log2_lt hzero).2 (hunits ▸ hlt)
  have hfew : n < 2 ^ (n.log2 + 1) := Nat.lt_log2_self
  rw [hunits, Nat.pow_le_pow_iff_right (by decide)] at hnext
  rcases Nat.lt_or_eq_of_le hnext with hlog | hlog
  · have hhalf : 2 * 2 ^ (n.log2 + 1) ≤ units := by
      rw [hunits, ← Nat.pow_succ']
      exact Nat.pow_le_pow_right (by decide) hlog
    omega
  · have htwice := two_mul_spacing hlog hlarge
    have hdvd : F.spacing n ∣ units := (Dvd.intro_left 2 htwice).trans h.spacing_dvd
    have hgap := add_le_of_dvd hn.spacing_dvd hdvd hlt
    omega

/-- A step has one bit, and the precision more. -/
theorem IsStep.even (hF : 1 < F.precision) (h : F.IsStep units) :
    units / F.spacing units % 2 = 0 := by
  obtain ⟨hunits, hlarge⟩ := h
  have hexponent := exponent_pos hlarge
  have hquotient : units / F.spacing units = 2 ^ (units.log2 - (units.log2 + 1 - F.precision)) := by
    rw [spacing]
    nth_rewrite 1 [hunits]
    exact Nat.pow_div (by omega) (by decide)
  obtain ⟨k, hk⟩ : ∃ k, units.log2 - (units.log2 + 1 - F.precision) = k + 1 :=
    ⟨units.log2 - (units.log2 + 1 - F.precision) - 1, by omega⟩
  rw [hquotient, hk, Nat.pow_succ, Nat.mul_mod_left]

/-! ## Distances -/

theorem cast_dist (m n : Nat) : (Nat.dist m n : ℚ) = |(m : ℚ) - n| := by
  rcases Nat.le_total m n with hle | hle
  · have hcast : (m : ℚ) ≤ n := Nat.cast_le.2 hle
    rw [Nat.dist_eq_sub_of_le hle, Nat.cast_sub hle, abs_of_nonpos (sub_nonpos.2 hcast), neg_sub]
  · have hcast : (n : ℚ) ≤ m := Nat.cast_le.2 hle
    rw [Nat.dist_eq_sub_of_le_right hle, Nat.cast_sub hle, abs_of_nonneg (sub_nonneg.2 hcast)]

/-- Nothing is nearer than the number in whose window it is, and if another is as near, it is a tie. -/
theorem InWindow.dist_le (hF : 1 < F.precision) (hin : F.InWindow units num den)
    (hunits : F.Fits units) (hn : F.Fits n) (hne : n ≠ units) :
    Nat.dist (units * den) num ≤ Nat.dist (n * den) num ∧
      (Nat.dist (units * den) num = Nat.dist (n * den) num → units / F.spacing units % 2 = 0) := by
  obtain ⟨hlow, hhigh, htie, hpower⟩ := hin
  unfold Nat.dist
  rcases Nat.lt_or_gt_of_ne hne with hlt | hgt
  · by_cases hstep : F.IsStep units
    · have hgap := Nat.mul_le_mul_right den (hunits.two_mul_add_spacing_le hn hlt hstep)
      have hquarter := hpower hstep.1 hstep.2
      rw [Nat.add_mul, Nat.mul_assoc, Nat.mul_assoc] at hgap
      exact ⟨by omega, fun _ => hstep.even hF⟩
    · have hgap := Nat.mul_le_mul_right den (hunits.add_spacing_le_of_lt hn hlt hstep)
      rw [Nat.add_mul] at hgap
      refine ⟨by omega, fun hequal => ?_⟩
      by_contra hodd
      have hends := htie (by omega)
      omega
  · have hgap := Nat.mul_le_mul_right den (hunits.add_spacing_le_of_gt hn hgt)
    rw [Nat.add_mul] at hgap
    refine ⟨by omega, fun hequal => ?_⟩
    by_contra hodd
    have hends := htie (by omega)
    omega

/-- The number of units is the nearest one to the value, of two such numbers the one with an even last
bit. -/
structure IsNearest (F : Format) (units : Nat) (v : ℚ) : Prop where
  closest : ∀ n, F.Fits n → |units / 2 ^ F.unit - v| ≤ |n / 2 ^ F.unit - v|
  tie : ∀ n, F.Fits n → n ≠ units → |units / 2 ^ F.unit - v| = |n / 2 ^ F.unit - v| →
    units / F.spacing units % 2 = 0

/-- A number is the nearest one to its own value. -/
theorem isNearest_self (F : Format) (units : Nat) : F.IsNearest units (units / 2 ^ F.unit) := by
  constructor
  · intro n _
    rw [sub_self, abs_zero]
    exact abs_nonneg _
  · intro n _ hne hequal
    have htwo : (2 : ℚ) ^ F.unit ≠ 0 := pow_ne_zero _ two_ne_zero
    rw [sub_self, abs_zero, eq_comm, abs_eq_zero, sub_eq_zero, div_left_inj' htwo, Nat.cast_inj] at hequal
    exact absurd hequal hne

theorem abs_sub_eq_dist (hden : 0 < den) (coefficient n : Nat) :
    |(n : ℚ) / 2 ^ F.unit - coefficient / den|
      = (Nat.dist (n * den) (coefficient * 2 ^ F.unit) : ℚ) / (2 ^ F.unit * den) := by
  have htwo : (0 : ℚ) < 2 ^ F.unit := by positivity
  have hpositive : (0 : ℚ) < den := by exact_mod_cast hden
  rw [div_sub_div _ _ htwo.ne' hpositive.ne', abs_div, abs_of_pos (mul_pos htwo hpositive), cast_dist]
  push_cast
  rw [mul_comm (2 ^ F.unit : ℚ)]

theorem InWindow.isNearest {coefficient : Nat} (hF : 1 < F.precision) (hden : 0 < den)
    (hunits : F.Fits units) (hin : F.InWindow units (coefficient * 2 ^ F.unit) den) :
    F.IsNearest units (coefficient / den) := by
  have hscale : (0 : ℚ) < 2 ^ F.unit * den := by positivity
  constructor
  · intro n hn
    rw [abs_sub_eq_dist hden, abs_sub_eq_dist hden, div_le_div_iff_of_pos_right hscale, Nat.cast_le]
    by_cases hne : n = units
    · rw [hne]
    · exact (hin.dist_le hF hunits hn hne).1
  · intro n hn hne hequal
    rw [abs_sub_eq_dist hden, abs_sub_eq_dist hden, div_left_inj' hscale.ne', Nat.cast_inj] at hequal
    exact (hin.dist_le hF hunits hn hne).2 hequal

end Format

end ImageGate.Number
