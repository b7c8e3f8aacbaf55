import ImageGate.Number.Decimal

/-! Rounding to a format. A number of units that a format holds is a whole multiple of its spacing,
and its window reaches halfway to the neighbours on both sides. So whatever lies in the window of a
held number rounds to it, also where the spacing is halved just below a power of two. -/
namespace ImageGate.Number
set_option autoImplicit false

/-! ## The nearest whole number -/

theorem Binary.nearest_eq {q num den : Nat} (hden : 0 < den) (hlow : 2 * (q * den) ≤ 2 * num + den)
    (hhigh : 2 * num ≤ 2 * (q * den) + den)
    (htie : q % 2 = 1 → 2 * (q * den) ≠ 2 * num + den ∧ 2 * num ≠ 2 * (q * den) + den) :
    nearest num den = q := by
  have hdivision : num / den * den + num % den = num := Nat.div_add_mod' num den
  have hrest : num % den < den := Nat.mod_lt num hden
  have hlower : num / den ≤ q := by
    apply Nat.le_of_lt_succ
    apply Nat.lt_of_mul_lt_mul_right (a := den)
    rw [Nat.succ_mul]
    omega
  have hupper : q ≤ num / den + 1 := by
    apply Nat.le_of_lt_succ
    apply Nat.lt_of_mul_lt_mul_right (a := den)
    rw [Nat.succ_mul, Nat.succ_mul]
    omega
  unfold nearest
  simp only
  by_cases hq : q = num / den
  · rw [if_neg]
    · exact hq.symm
    · rw [← hq] at hdivision ⊢
      simp only [Bool.or_eq_true, Bool.and_eq_true, decide_eq_true_eq]
      omega
  · have hnext : q = num / den + 1 := by omega
    have hproduct : q * den = num / den * den + den := by rw [hnext, Nat.succ_mul]
    rw [if_pos]
    · exact hnext.symm
    · simp only [Bool.or_eq_true, Bool.and_eq_true, decide_eq_true_eq]
      omega

/-! ## Bounds -/

theorem Window.bounds_of_has {w : Window} {num den : Nat} (h : w.has num den = true) :
    w.lower * den ≤ num ∧ num ≤ w.upper * den ∧
      (w.closed = false → w.lower * den ≠ num ∧ num ≠ w.upper * den) := by
  unfold Window.has at h
  cases hclosed : w.closed with
  | true =>
    rw [hclosed, if_pos rfl, Bool.and_eq_true, decide_eq_true_eq, decide_eq_true_eq] at h
    exact ⟨h.1, h.2, nofun⟩
  | false =>
    rw [hclosed, if_neg Bool.false_ne_true, Bool.and_eq_true, decide_eq_true_eq,
      decide_eq_true_eq] at h
    exact ⟨Nat.le_of_lt h.1, Nat.le_of_lt h.2, fun _ => ⟨Nat.ne_of_lt h.1, Nat.ne_of_lt h.2⟩⟩

/-! ## Spacing -/

namespace Format
variable {F : Format} {units num den : Nat}

theorem spacing_pos (F : Format) (units : Nat) : 0 < F.spacing units := Nat.two_pow_pos _

/-- The bits of the number fit into the precision, however large it is. -/
def Fits (F : Format) (units : Nat) : Prop := units % F.spacing units = 0

theorem Fits.spacing_dvd (h : F.Fits units) : F.spacing units ∣ units :=
  Nat.dvd_of_mod_eq_zero h

theorem Fits.spacing_dvd_pow (h : F.Fits units) (hpos : 0 < units) :
    F.spacing units ∣ 2 ^ units.log2 := by
  have hle : F.spacing units ≤ units := Nat.le_of_dvd hpos h.spacing_dvd
  have hlt : 2 ^ (units.log2 + 1 - F.precision) < 2 ^ (units.log2 + 1) :=
    Nat.lt_of_le_of_lt hle Nat.lt_log2_self
  have hexponent := (Nat.pow_lt_pow_iff_right (by decide)).1 hlt
  apply Nat.pow_dvd_pow
  omega

theorem Holds.fits (h : F.Holds units) : F.Fits units := h.1

theorem Holds.spacing_dvd (h : F.Holds units) : F.spacing units ∣ units := h.fits.spacing_dvd

theorem Holds.spacing_dvd_pow (h : F.Holds units) (hpos : 0 < units) :
    F.spacing units ∣ 2 ^ units.log2 := h.fits.spacing_dvd_pow hpos

theorem spacing_eq_of_log2_eq {n : Nat} (h : n.log2 = units.log2) :
    F.spacing n = F.spacing units := by
  rw [spacing, spacing, h]

theorem log2_le_of_lt_two_pow {n k : Nat} (h : n < 2 ^ k) : n.log2 ≤ k := by
  by_cases hn : n = 0
  · rw [hn, Nat.log2_zero]
    exact Nat.zero_le k
  · exact Nat.le_of_lt ((Nat.log2_lt hn).2 h)

/-- The smallest spacing is also that of all smaller numbers. -/
theorem spacing_eq_of_log2_le {n : Nat} (hn : n.log2 ≤ units.log2)
    (hsmall : ¬ 1 < F.spacing units) : F.spacing n = F.spacing units := by
  have hexponent : units.log2 + 1 - F.precision = 0 :=
    Decidable.byContradiction fun hne => hsmall (Nat.one_lt_two_pow hne)
  rw [spacing, spacing, hexponent]
  congr 1
  omega

theorem exponent_pos (hlarge : 1 < F.spacing units) : 0 < units.log2 + 1 - F.precision := by
  apply Nat.pos_of_ne_zero
  intro hzero
  rw [spacing, hzero] at hlarge
  exact absurd hlarge (Nat.lt_irrefl 1)

theorem two_mul_spacing {n : Nat} (hn : n.log2 + 1 = units.log2) (hlarge : 1 < F.spacing units) :
    2 * F.spacing n = F.spacing units := by
  have hexponent := exponent_pos hlarge
  rw [spacing, spacing, ← Nat.pow_succ']
  congr 1
  omega

/-- Multiples of one spacing are at least so far apart. -/
theorem add_le_of_dvd {s a b : Nat} (ha : s ∣ a) (hb : s ∣ b) (hlt : a < b) : a + s ≤ b := by
  have hgap : s ≤ b - a := Nat.le_of_dvd (by omega) (Nat.dvd_sub hb ha)
  omega

/-! ## Windows -/

/-- How far a window reaches below its number, in quarters of a unit. -/
def below (F : Format) (units : Nat) : Nat :=
  if units = 2 ^ units.log2 ∧ 1 < F.spacing units then F.spacing units else 2 * F.spacing units

theorem lower_window (F : Format) (units : Nat) :
    (F.window units).lower = 4 * units - F.below units := by
  simp [window, below]

theorem below_le (F : Format) (units : Nat) : F.below units ≤ 2 * F.spacing units := by
  unfold below
  split <;> omega

theorem below_pos (F : Format) (units : Nat) : 0 < F.below units := by
  have hspacing := F.spacing_pos units
  unfold below
  split <;> omega

/-- A value lies in its own window. -/
theorem has_exact (hpos : 0 < units) (hden : 0 < den) :
    (F.window units).has (4 * (units * den)) den = true := by
  have hlower : (F.window units).lower * den < 4 * (units * den) := by
    rw [lower_window, ← Nat.mul_assoc]
    have hbelow := F.below_pos units
    exact Nat.mul_lt_mul_of_pos_right (by omega) hden
  have hupper : 4 * (units * den) < (F.window units).upper * den := by
    show 4 * (units * den) < (4 * units + 2 * F.spacing units) * den
    rw [← Nat.mul_assoc]
    have hspacing := F.spacing_pos units
    exact Nat.mul_lt_mul_of_pos_right (by omega) hden
  unfold Window.has
  split
  · rw [Bool.and_eq_true, decide_eq_true_eq, decide_eq_true_eq]
    exact ⟨Nat.le_of_lt hlower, Nat.le_of_lt hupper⟩
  · rw [Bool.and_eq_true, decide_eq_true_eq, decide_eq_true_eq]
    exact ⟨hlower, hupper⟩

/-- What lies in a window, in whole units: `num / den` is at most half a spacing away from `units`,
and only a quarter below a power of two. -/
structure InWindow (F : Format) (units num den : Nat) : Prop where
  low : 4 * (units * den) ≤ 4 * num + 2 * (F.spacing units * den)
  high : 4 * num ≤ 4 * (units * den) + 2 * (F.spacing units * den)
  tie : units / F.spacing units % 2 = 1 →
    4 * (units * den) ≠ 4 * num + 2 * (F.spacing units * den) ∧
      4 * num ≠ 4 * (units * den) + 2 * (F.spacing units * den)
  power : units = 2 ^ units.log2 → 1 < F.spacing units →
    4 * (units * den) ≤ 4 * num + F.spacing units * den

theorem inWindow_of_has (hden : 0 < den) (h : (F.window units).has (4 * num) den = true) :
    F.InWindow units num den := by
  obtain ⟨hlow, hhigh, hopen⟩ := Window.bounds_of_has h
  have hstep : 0 < F.spacing units * den := Nat.mul_pos (F.spacing_pos units) hden
  have hupper : (F.window units).upper * den
      = 4 * (units * den) + 2 * (F.spacing units * den) := by
    show (4 * units + 2 * F.spacing units) * den = _
    grind
  have hbelow : F.below units * den ≤ 2 * (F.spacing units * den) := by
    rw [← Nat.mul_assoc]
    exact Nat.mul_le_mul_right den (F.below_le units)
  rw [lower_window, Nat.sub_mul, Nat.mul_assoc 4] at hlow hopen
  rw [hupper] at hhigh hopen
  refine ⟨by omega, hhigh, fun hodd => ?_, fun hunits hspacing => ?_⟩
  · have hclosed : (F.window units).closed = false := by
      show decide (units / F.spacing units % 2 = 0) = false
      rw [decide_eq_false_iff_not]
      omega
    have hends := hopen hclosed
    omega
  · rw [below, if_pos ⟨hunits, hspacing⟩] at hlow
    omega

/-! ## Rounding -/

theorem roundUnits_of_spacing_eq (hden : 0 < den) (hholds : F.Holds units)
    (hin : F.InWindow units num den) (hspacing : F.spacing (num / den) = F.spacing units) :
    Binary.roundUnits F num den = units := by
  have hunits : units / F.spacing units * F.spacing units = units :=
    Nat.div_mul_cancel hholds.spacing_dvd
  have hproduct : units / F.spacing units * (den * F.spacing units) = units * den := by
    rw [Nat.mul_comm den, ← Nat.mul_assoc, hunits]
  have hstep : F.spacing units * den = den * F.spacing units := Nat.mul_comm _ _
  obtain ⟨hlow, hhigh, htie, -⟩ := hin
  rw [hstep] at hlow hhigh htie
  unfold Binary.roundUnits
  simp only [hspacing]
  rw [Binary.nearest_eq (q := units / F.spacing units)]
  · exact hunits
  · exact Nat.mul_pos hden (F.spacing_pos units)
  · rw [hproduct]
    omega
  · rw [hproduct]
    omega
  · intro hodd
    have hends := htie hodd
    rw [hproduct]
    omega

/-- Below a power of two the spacing is half as large, and the power itself is twice the number of
spacings. -/
theorem roundUnits_of_spacing_half (hden : 0 < den) (hholds : F.Holds units)
    (hin : F.InWindow units num den) (hunits : units = 2 ^ units.log2)
    (hlarge : 1 < F.spacing units) (hbelow : num < units * den)
    (hspacing : 2 * F.spacing (num / den) = F.spacing units) :
    Binary.roundUnits F num den = units := by
  have htwice : 2 * (units / F.spacing units) * F.spacing (num / den) = units := by
    rw [Nat.mul_comm 2, Nat.mul_assoc, hspacing]
    exact Nat.div_mul_cancel hholds.spacing_dvd
  have hproduct : 2 * (units / F.spacing units) * (den * F.spacing (num / den)) = units * den := by
    rw [Nat.mul_comm den, ← Nat.mul_assoc, htwice]
  have hstep : F.spacing units * den = 2 * (den * F.spacing (num / den)) := by
    rw [← hspacing]
    grind
  have hlow := hin.power hunits hlarge
  rw [hstep] at hlow
  unfold Binary.roundUnits
  simp only
  rw [Binary.nearest_eq (q := 2 * (units / F.spacing units))]
  · exact htwice
  · exact Nat.mul_pos hden (F.spacing_pos _)
  · rw [hproduct]
    omega
  · rw [hproduct]
    omega
  · omega

/-! ## The size of the quotient -/

/-- What lies in the window and not below the power of two has as many bits as the number. -/
theorem InWindow.log2_div_eq (hin : F.InWindow units num den) (hden : 0 < den)
    (hholds : F.Holds units) (hpos : 0 < units) (hfloor : 2 ^ units.log2 ≤ num / den) :
    (num / den).log2 = units.log2 := by
  have hhigh := hin.high
  have hstep : 0 < F.spacing units * den := Nat.mul_pos (F.spacing_pos units) hden
  have hnext : units + F.spacing units ≤ 2 ^ (units.log2 + 1) := by
    apply add_le_of_dvd hholds.spacing_dvd _ Nat.lt_log2_self
    rw [Nat.pow_succ]
    exact Nat.dvd_mul_right_of_dvd (hholds.spacing_dvd_pow hpos) 2
  have hscaled := Nat.mul_le_mul_right den hnext
  rw [Nat.add_mul] at hscaled
  have hceiling : num / den < 2 ^ (units.log2 + 1) := by
    rw [Nat.div_lt_iff_lt_mul hden]
    omega
  have hpositive : num / den ≠ 0 := by
    have hpower := Nat.two_pow_pos units.log2
    omega
  exact (Nat.log2_eq_iff hpositive).2 ⟨hfloor, hceiling⟩

/-- Only the window of a power of two reaches below it. -/
theorem InWindow.eq_two_pow (hin : F.InWindow units num den) (hden : 0 < den)
    (hholds : F.Holds units) (hpos : 0 < units) (hbelow : num < 2 ^ units.log2 * den) :
    units = 2 ^ units.log2 := by
  have hlow := hin.low
  have hstep : 0 < F.spacing units * den := Nat.mul_pos (F.spacing_pos units) hden
  have hleast : 2 ^ units.log2 ≤ units := Nat.log2_self_le (Nat.ne_of_gt hpos)
  apply Decidable.byContradiction
  intro hne
  have hnext := add_le_of_dvd (hholds.spacing_dvd_pow hpos) hholds.spacing_dvd (by omega)
  have hscaled := Nat.mul_le_mul_right den hnext
  rw [Nat.add_mul] at hscaled
  omega

/-- The window of a power of two reaches a quarter of a spacing below it, so one bit is lost at most. -/
theorem InWindow.log2_div_add_one (hin : F.InWindow units num den) (hden : 0 < den)
    (hholds : F.Holds units) (hpos : 0 < units) (hunits : units = 2 ^ units.log2)
    (hlarge : 1 < F.spacing units) (hquotient : num / den < units) :
    (num / den).log2 + 1 = units.log2 := by
  have hreach : F.spacing units ≤ units := Nat.le_of_dvd hpos hholds.spacing_dvd
  have hlogpos : units.log2 ≠ 0 := by
    intro hzero
    rw [hzero, Nat.pow_zero] at hunits
    omega
  obtain ⟨k, hk⟩ := Nat.exists_eq_add_one_of_ne_zero hlogpos
  have hquarters := hin.power hunits hlarge
  have hsmall : F.spacing units * den ≤ units * den := Nat.mul_le_mul_right den hreach
  have hdouble : units * den = 2 * (2 ^ k * den) := by
    rw [hunits, hk, Nat.pow_succ]
    grind
  have hfloor : 2 ^ k ≤ num / den := by
    rw [Nat.le_div_iff_mul_le hden]
    omega
  have hpositive : num / den ≠ 0 := by
    have hpower := Nat.two_pow_pos k
    omega
  rw [hk, Nat.add_right_cancel_iff, Nat.log2_eq_iff hpositive]
  refine ⟨hfloor, ?_⟩
  rw [← hk]
  omega

/-- A held number is what everything in its window rounds to. -/
theorem roundUnits_eq (hden : 0 < den) (hholds : F.Holds units) (hpos : 0 < units)
    (hin : F.InWindow units num den) : Binary.roundUnits F num den = units := by
  by_cases hfloor : 2 ^ units.log2 ≤ num / den
  · exact roundUnits_of_spacing_eq hden hholds hin
      (spacing_eq_of_log2_eq (hin.log2_div_eq hden hholds hpos hfloor))
  · -- The quotient has fewer bits than `units`, and the spacing may be half as large there.
    have hbelow : num < 2 ^ units.log2 * den := (Nat.div_lt_iff_lt_mul hden).1 (by omega)
    have hunits := hin.eq_two_pow hden hholds hpos hbelow
    rw [← hunits] at hbelow
    have hquotient : num / den < units := (Nat.div_lt_iff_lt_mul hden).2 hbelow
    by_cases hlarge : 1 < F.spacing units
    · have hlog := hin.log2_div_add_one hden hholds hpos hunits hlarge hquotient
      exact roundUnits_of_spacing_half hden hholds hin hunits hlarge hbelow
        (two_mul_spacing hlog hlarge)
    · have hlog : (num / den).log2 ≤ units.log2 := log2_le_of_lt_two_pow (by omega)
      exact roundUnits_of_spacing_eq hden hholds hin (spacing_eq_of_log2_le hlog hlarge)

end Format
end ImageGate.Number
