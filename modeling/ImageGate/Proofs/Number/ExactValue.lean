import ImageGate.Proofs.Number.Rounding
import Mathlib.Data.Rat.Cast.Order
import Mathlib.Algebra.Order.Field.Rat

/-! The exact values of finite numbers. Comparing two finite numbers compares their values as
fractions, so the two zeros count as one, and a whole number in the format has its own value. -/
namespace ImageGate.Number.Binary
set_option autoImplicit false

variable {F : Format}

/-- A fraction over the unit of the format. What is not finite has no value, and zero stands here. -/
def value : Binary F → ℚ
  | .finite negative units _ => (signedUnits negative units : ℚ) / ((2 ^ F.unit : Nat) : ℚ)
  | _ => 0

theorem unit_pos (F : Format) : (0 : ℚ) < ((2 ^ F.unit : Nat) : ℚ) := by
  exact_mod_cast Nat.two_pow_pos F.unit

theorem le_iff_value_le {x y : Binary F} (hx : x.isFinite = true) (hy : y.isFinite = true) :
    le x y = true ↔ x.value ≤ y.value := by
  cases x with
  | nan | infinite => cases hx
  | finite s m hm =>
    cases y with
    | nan | infinite => cases hy
    | finite t n hn =>
      rw [le, decide_eq_true_eq, value, value, div_le_div_iff_of_pos_right (unit_pos F),
        Int.cast_le]

theorem lt_iff_value_lt {x y : Binary F} (hx : x.isFinite = true) (hy : y.isFinite = true) :
    lt x y = true ↔ x.value < y.value := by
  rw [lt, Bool.and_eq_true, Bool.not_eq_true', ← Bool.not_eq_true, le_iff_value_le hx hy,
    le_iff_value_le hy hx, lt_iff_le_not_ge]

/-! ## Whole numbers -/

theorem ofUnits_of_holds {units : Nat} (h : F.Holds units) (negative : Bool) :
    ofUnits negative units = .finite negative units h := dif_pos h

/-- A whole number whose units the format holds is not rounded. -/
theorem ofNat_of_holds {n : Nat} (h : F.Holds (n * 2 ^ F.unit)) :
    (ofNat n : Binary F) = .finite false (n * 2 ^ F.unit) h := by
  have hround : roundUnits F (n * 2 ^ F.unit) 1 = n * 2 ^ F.unit := by
    have hpos := Format.spacing_pos F (n * 2 ^ F.unit)
    have hwhole : n * 2 ^ F.unit / F.spacing (n * 2 ^ F.unit) * F.spacing (n * 2 ^ F.unit)
        = n * 2 ^ F.unit := Nat.div_mul_cancel h.spacing_dvd
    rw [roundUnits, Nat.div_one, Nat.one_mul]
    refine (congrArg (· * _) (nearest_eq hpos ?_ ?_ fun _ => ⟨?_, ?_⟩)).trans hwhole
    all_goals omega
  rw [ofNat, ofRatio, hround, ofUnits_of_holds h]

theorem isFinite_ofNat {n : Nat} (h : F.Holds (n * 2 ^ F.unit)) :
    (ofNat n : Binary F).isFinite = true := by
  rw [ofNat_of_holds h]
  rfl

theorem value_ofNat {n : Nat} (h : F.Holds (n * 2 ^ F.unit)) : (ofNat n : Binary F).value = n := by
  rw [ofNat_of_holds h, value, signedUnits, if_neg Bool.false_ne_true, Int.cast_natCast,
    Nat.cast_mul, mul_div_cancel_right₀ _ (unit_pos F).ne']

end ImageGate.Number.Binary
