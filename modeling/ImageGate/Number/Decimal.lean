import ImageGate.Number.Binary
import ImageGate.Number.Integer

/-! Decimal text for floating-point values. Reading rounds the exact value of the digits once;
writing uses the fewest digits that read back as the same value and never an exponent. -/
namespace ImageGate.Number
open ImageGate.Text
set_option autoImplicit false

/-! ## Reading -/

/-- `coefficient * 10 ^ exponent`, with a sign. -/
structure Decimal where
  negative : Bool
  coefficient : Nat
  exponent : Int
  deriving DecidableEq, Repr

/-- A far too large exponent is decided by the number of digits alone. -/
def Decimal.toBinary (F : Format) (d : Decimal) : Binary F :=
  if d.coefficient = 0 then .ofUnits d.negative 0
  else
    let size := d.exponent + ((Nat.toDigits 10 d.coefficient).length : Int)
    if (F.limit : Int) < size then .infinite d.negative
    else if size < -((F.unit : Int) + 1) then .ofUnits d.negative 0
    else if 0 ≤ d.exponent then .ofRatio d.negative (d.coefficient * 10 ^ d.exponent.toNat) 1
    else .ofRatio d.negative d.coefficient (10 ^ (-d.exponent).toNat)

/-- Takes a sign off the front; no sign is a plus. -/
def takeSign : List Char → Bool × List Char
  | '-' :: rest => (true, rest)
  | '+' :: rest => (false, rest)
  | cs => (false, cs)

def readExponent? (cs : List Char) : Option Int :=
  let (negative, digits) := takeSign cs
  (readDigits? digits).map fun n => if negative then -(n : Int) else (n : Int)

/-- Digits before the point, after it, or on both sides. -/
def readPlain? (negative : Bool) (cs : List Char) : Option Decimal :=
  let whole := cs.takeWhile isPlainDigit
  match cs.dropWhile isPlainDigit with
  | [] => if whole.isEmpty then none else some ⟨negative, ofDigits whole, 0⟩
  | '.' :: fraction =>
    if fraction.all isPlainDigit && !(whole.isEmpty && fraction.isEmpty) then
      some ⟨negative, ofDigits (whole ++ fraction), -(fraction.length : Int)⟩
    else none
  | _ => none

/-- A plain number, or one with an exponent after an `e`. -/
def readUnsigned? (negative : Bool) (cs : List Char) : Option Decimal :=
  let isMark := fun c : Char => c == 'e' || c == 'E'
  match cs.dropWhile fun c => !isMark c with
  | [] => readPlain? negative cs
  | _ :: exponent => do
    let d ← readPlain? negative (cs.takeWhile fun c => !isMark c)
    let e ← readExponent? exponent
    return { d with exponent := d.exponent + e }

def lowerAscii (c : Char) : Char :=
  if 'A'.toNat ≤ c.toNat && c.toNat ≤ 'Z'.toNat then Char.ofNat (c.toNat + 32) else c

/-- A decimal, or one of the words for infinity and for what is not a number. -/
def Binary.read? (F : Format) (cs : List Char) : Option (Binary F) :=
  let (negative, body) := takeSign cs
  let word := String.ofList (body.map lowerAscii)
  if word == "inf" || word == "infinity" then some (.infinite negative)
  else if word == "nan" then some .nan
  else (readUnsigned? negative body).map (·.toBinary F)

/-! ## Writing -/

/-- The values that round to `units`, in quarters of a unit: the halfway points to the neighbours,
which belong to it when its last bit is even. Below a power of two the spacing is halved. -/
structure Window where
  lower : Nat
  upper : Nat
  closed : Bool

def Format.window (F : Format) (units : Nat) : Window :=
  let spacing := F.spacing units
  let below := if units = 2 ^ units.log2 && 1 < spacing then spacing else 2 * spacing
  ⟨4 * units - below, 4 * units + 2 * spacing, units / spacing % 2 = 0⟩

/-- Whether `num / den` quarters of a unit lie in the window. -/
def Window.has (w : Window) (num den : Nat) : Bool :=
  if w.closed then w.lower * den ≤ num && num ≤ w.upper * den
  else w.lower * den < num && num < w.upper * den

/-- The multiple of `10 ^ place` that is written for `units`: of the two around it the one in the
window, of two such the nearer, and halfway the larger. -/
def onGrid? (F : Format) (units : Nat) (place : Int) : Option Nat :=
  let up := 10 ^ place.toNat
  let down := 10 ^ (-place).toNat
  let num := units * down
  let den := 2 ^ F.unit * up
  let low := num / den
  let quarters := 4 * 2 ^ F.unit * up
  let window := F.window units
  let lowFits := window.has (low * quarters) down
  let highFits := window.has ((low + 1) * quarters) down
  if lowFits && highFits then some (if 2 * (num % den) < den then low else low + 1)
  else if lowFits then some low
  else if highFits then some (low + 1)
  else none

/-- The coarsest grid on which some point is written for `units`, from `10 ^ place` downwards. -/
def shortestFrom (F : Format) (units : Nat) : Nat → Int → Nat × Int
  | 0, place => (0, place)
  | tries + 1, place =>
    match onGrid? F units place with
    | some n => (n, place)
    | none => shortestFrom F units tries (place - 1)

/-- The fewest digits that read back as `units`. The search starts above the largest value and ends
at the unit, where every value has its exact digits. -/
def shortest (F : Format) (units : Nat) : Nat × Int :=
  shortestFrom F units (F.limit + 1) ((F.limit : Int) - F.unit)

/-- Writes `n * 10 ^ place` without an exponent. -/
def positional (n : Nat) (place : Int) : List Char :=
  let digits := Nat.toDigits 10 n
  if 0 ≤ place then digits ++ List.replicate place.toNat '0'
  else
    let after := (-place).toNat
    let padded := List.replicate (after + 1 - digits.length) '0' ++ digits
    padded.take (padded.length - after) ++ '.' :: padded.drop (padded.length - after)

def signText (negative : Bool) : List Char := if negative then ['-'] else []

namespace Binary
variable {F : Format}

/-- A whole number has no point. -/
def text : Binary F → String
  | .nan => "NaN"
  | .infinite negative => String.ofList (signText negative ++ "inf".toList)
  | .finite negative units _ =>
    if units = 0 then String.ofList (signText negative ++ ['0'])
    else
      let (n, place) := shortest F units
      String.ofList (signText negative ++ positional n place)

/-- The exact digits of a whole value below `10 ^ 15`, with `.0` behind them; any other value as
`text` writes it. -/
def pointedText : Binary F → String
  | .finite negative units h =>
    if units % 2 ^ F.unit = 0 && lt (.finite false units h) (ofNat (10 ^ 15)) then
      String.ofList (signText negative ++ Nat.toDigits 10 (units / 2 ^ F.unit) ++ ".0".toList)
    else text (.finite negative units h)
  | x => text x

end Binary

end ImageGate.Number
