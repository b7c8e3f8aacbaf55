import ImageGate.Text.Cut

/-! Encoded labels of international domain names. A label in ASCII holds its plain characters, a
hyphen, and then the places and the values of all others as numbers in a variable base of 36. -/
namespace ImageGate.Url.Punycode
open ImageGate.Text
set_option autoImplicit false

def digitValue? (c : Char) : Option Nat :=
  let n := c.toNat
  if 0x61 ≤ n && n ≤ 0x7a then some (n - 0x61)
  else if 0x41 ≤ n && n ≤ 0x5a then some (n - 0x41)
  else if 0x30 ≤ n && n ≤ 0x39 then some (n - 0x30 + 26)
  else none

/-- Digits below the threshold end a number; `weight` counts the digits in steps of the base. -/
def threshold (weight bias : Nat) : Nat :=
  if weight ≤ bias then 1 else if bias + 26 ≤ weight then 26 else weight - bias

/-- Divides by 35 until the rest is small, and counts the base for each division. -/
def scaleDown (delta count : Nat) : Nat × Nat :=
  if 455 < delta then scaleDown (delta / 35) (count + 36) else (delta, count)
termination_by delta
decreasing_by exact Nat.div_lt_self (by omega) (by omega)

/-- The bias after a number was read: thresholds follow the size of the last numbers. -/
def adapt (delta points : Nat) (isFirst : Bool) : Nat :=
  let delta := if isFirst then delta / 700 else delta / 2
  let (rest, count) := scaleDown (delta + delta / points) 0
  count + 36 * rest / (rest + 38)

/-- Reads a number, least digit first, and adds it to `sum`. -/
def readNumber? (bias : Nat) : List Char → Nat → Nat → Nat → Option (Nat × List Char)
  | [], _, _, _ => none
  | c :: rest, weight, unit, sum => do
    let digit ← digitValue? c
    let t := threshold weight bias
    if digit < t then some (sum + digit * unit, rest)
    else readNumber? bias rest (weight + 36) (unit * (36 - t)) (sum + digit * unit)

theorem readNumber?_length {bias weight unit sum : Nat} {cs rest : List Char} {n : Nat}
    (h : readNumber? bias cs weight unit sum = some (n, rest)) : rest.length < cs.length := by
  induction cs generalizing weight unit sum with
  | nil => simp [readNumber?] at h
  | cons c cs ih =>
    simp only [readNumber?, Option.bind_eq_bind, Option.bind_eq_some_iff] at h
    obtain ⟨digit, -, h⟩ := h
    split at h
    · cases h; simp
    · have := ih h; simp only [List.length_cons]; omega

def isScalar (n : Nat) : Bool := n < 0xd800 || (0xdfff < n && n < 0x110000)

/-- Inserts the characters that the numbers name into `out`, in the order of their values. -/
def insertAll (bias point place : Nat) (out : List Char) (cs : List Char) : Option (List Char) :=
  match cs with
  | [] => some out
  | c :: rest =>
    match _hn : readNumber? bias (c :: rest) 36 1 place with
    | none => none
    | some (sum, rest') =>
      let count := out.length + 1
      let point := point + sum / count
      if isScalar point then
        insertAll (adapt (sum - place) count (place == 0)) point (sum % count + 1)
          (out.insertIdx (sum % count) (Char.ofNat point)) rest'
      else none
termination_by cs.length
decreasing_by exact readNumber?_length _hn

/-- Plain characters stand before the last hyphen. -/
def decode? (cs : List Char) : Option (List Char) :=
  let (plain, numbers) := (cutLast '-' cs).getD ([], cs)
  if plain.all fun c => c.toNat < 0x80 then insertAll 72 128 0 plain numbers else none

end ImageGate.Url.Punycode
