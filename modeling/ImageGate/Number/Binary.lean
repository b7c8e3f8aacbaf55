import ImageGate.Number.Power

/-! Binary floating-point values. The finite values of a format are whole multiples of one smallest
unit, a power of two: a value is its sign and its number of units. The numbers of units that a
format can hold are those whose bits fit into its precision; rounding takes the nearest such number,
and of two equally near ones the one with an even last bit. -/
namespace ImageGate.Number
set_option autoImplicit false

/-! ## Formats -/

/-- A format has `precision` bits, its unit is `2 ^ (-unit)`, and its finite values lie below
`2 ^ limit` units. -/
structure Format where
  precision : Nat
  unit : Nat
  limit : Nat
  deriving DecidableEq, Repr

def Format.single : Format := ⟨24, 149, 277⟩

def Format.double : Format := ⟨53, 1074, 2098⟩

/-- The distance, in units, between neighbouring values of this size. -/
def Format.spacing (F : Format) (units : Nat) : Nat := 2 ^ (units.log2 + 1 - F.precision)

def Format.Holds (F : Format) (units : Nat) : Prop :=
  units % F.spacing units = 0 ∧ units < 2 ^ F.limit

instance (F : Format) (units : Nat) : Decidable (F.Holds units) :=
  inferInstanceAs (Decidable (_ ∧ _))

/-! ## Values -/

inductive Binary (F : Format) where
  | nan
  | infinite (negative : Bool)
  | finite (negative : Bool) (units : Nat) (holds : F.Holds units)
  deriving DecidableEq

abbrev Single := Binary Format.single

abbrev Double := Binary Format.double

namespace Binary
variable {F : Format}

/-- What the format does not hold lies past its finite values. -/
def ofUnits (negative : Bool) (units : Nat) : Binary F :=
  if h : F.Holds units then .finite negative units h else .infinite negative

/-- The nearest whole number to `num / den`, ties to the even one. -/
def nearest (num den : Nat) : Nat :=
  let low := num / den
  let twice := 2 * (num % den)
  if den < twice || (twice = den && low % 2 = 1) then low + 1 else low

/-- The number of units nearest to `num / den` units. -/
def roundUnits (F : Format) (num den : Nat) : Nat :=
  let spacing := F.spacing (num / den)
  nearest num (den * spacing) * spacing

/-- The value nearest to `num / den`. -/
def ofRatio (negative : Bool) (num den : Nat) : Binary F :=
  ofUnits negative (roundUnits F (num * 2 ^ F.unit) den)

def ofNat (n : Nat) : Binary F := ofRatio false n 1

def isFinite : Binary F → Bool
  | .finite .. => true
  | _ => false

/-- Units with their sign. -/
def signedUnits (negative : Bool) (units : Nat) : Int :=
  if negative then -(units : Int) else (units : Int)

/-- The two zeros are equal, and nothing compares with what is not a number. -/
def le : Binary F → Binary F → Bool
  | .nan, _ => false
  | _, .nan => false
  | .infinite s, .infinite t => s || !t
  | .infinite s, .finite .. => s
  | .finite .., .infinite t => !t
  | .finite s m _, .finite t n _ => decide (signedUnits s m ≤ signedUnits t n)

def lt (x y : Binary F) : Bool := le x y && !le y x

end Binary

end ImageGate.Number
