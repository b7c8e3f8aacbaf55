import ImageGate.Number.Power
import ImageGate.Text.Digit

/-! Whole numbers as text: digits from 0 to 9, with an optional sign in front, read within bounds. -/
namespace ImageGate.Number
open ImageGate.Text
set_option autoImplicit false

/-- The number that a run of digits writes, most significant digit first. -/
def ofDigits (cs : List Char) : Nat := cs.foldl (fun n c => n * 10 + digitValue c) 0

def readDigits? (cs : List Char) : Option Nat :=
  if isRunOf isPlainDigit cs then some (ofDigits cs) else none

/-- A number below `bound`; a plus sign may stand in front. -/
def readNat? (bound : Nat) (cs : List Char) : Option Nat :=
  (readDigits? (match cs with
    | '+' :: rest => rest
    | _ => cs)).filter (· < bound)

/-- A number of `bits` bits in two's complement; either sign may stand in front. -/
def readInt? (bits : Nat) (cs : List Char) : Option Int :=
  let value := match cs with
    | '-' :: rest => (readDigits? rest).map fun n => -(n : Int)
    | '+' :: rest => (readDigits? rest).map fun n => (n : Int)
    | _ => (readDigits? cs).map fun n => (n : Int)
  value.filter fun i => -(2 ^ (bits - 1) : Int) ≤ i && i < (2 ^ (bits - 1) : Int)

def natText (n : Nat) : String := String.ofList (Nat.toDigits 10 n)

def intText : Int → String
  | .ofNat n => natText n
  | .negSucc n => "-" ++ natText (n + 1)

theorem ofDigits_append_singleton (cs : List Char) (c : Char) :
    ofDigits (cs ++ [c]) = ofDigits cs * 10 + digitValue c := by
  simp [ofDigits]

end ImageGate.Number
