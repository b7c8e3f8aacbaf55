import ImageGate.Number.Decimal
import ImageGate.Toml.Text
import ImageGate.Toml.Value

/-! Numbers, truth values and dates of settings files. -/
namespace ImageGate.Toml
open Text Number
set_option autoImplicit false

/-! ## Digits -/

def isDigitBelow (base : Nat) (c : Char) : Bool := (hexValue? c).any (· < base)

/-- Digits, which single underscores may separate. -/
def digits? (base : Nat) : Reader (List Char)
  | [] => none
  | [c] => if isDigitBelow base c then some ([c], []) else none
  | c :: '_' :: rest =>
    if isDigitBelow base c then (digits? base rest).map fun (more, rest) => (c :: more, rest)
    else none
  | c :: d :: rest =>
    if !isDigitBelow base c then none
    else if isDigitBelow base d then
      (digits? base (d :: rest)).map fun (more, rest) => (c :: more, rest)
    else some ([c], d :: rest)

def signLength (cs : List Char) : Nat :=
  match cs with
  | '+' :: _ | '-' :: _ => 1
  | _ => 0

/-- A whole number in base ten with an optional sign. A zero has no digits behind it. -/
def whole? (cs : List Char) : Option (List Char × List Char) := do
  let sign := cs.take (signLength cs)
  let (digits, rest) ← match cs.drop (signLength cs) with
    | '0' :: rest => some (['0'], rest)
    | cs => digits? 10 cs
  return (sign ++ digits, rest)

/-! ## Integers -/

def signedInt (negative : Bool) (n : Nat) : Int := if negative then -(n : Int) else n

/-- Integers have 64 bits. -/
def inRange (i : Int) : Option Int :=
  if -(2 ^ 63 : Int) ≤ i && i < (2 ^ 63 : Int) then some i else none

def valueIn (base : Nat) (digits : List Char) : Nat :=
  digits.foldl (fun n c => n * base + (hexValue? c).getD 0) 0

def basedInteger? (base : Nat) (cs : List Char) : Option (Int × List Char) := do
  let (digits, rest) ← digits? base cs
  return (← inRange (valueIn base digits), rest)

/-- In base 16, 8 or 2 behind a mark, or in base ten. -/
def integer? : Reader Int
  | '0' :: 'x' :: rest => basedInteger? 16 rest
  | '0' :: 'o' :: rest => basedInteger? 8 rest
  | '0' :: 'b' :: rest => basedInteger? 2 rest
  | cs => do
    let (text, rest) ← whole? cs
    let (negative, digits) := takeSign text
    return (← inRange (signedInt negative (valueIn 10 digits)), rest)

/-! ## Floating-point numbers -/

def fraction? : Reader (List Char)
  | '.' :: rest => (digits? 10 rest).map fun (digits, rest) => ('.' :: digits, rest)
  | _ => none

def exponent? : Reader (List Char)
  | c :: rest =>
    if c == 'e' || c == 'E' then
      let sign := rest.take (signLength rest)
      (digits? 10 (rest.drop (signLength rest))).map fun (digits, rest) =>
        ('e' :: sign ++ digits, rest)
    else none
  | [] => none

/-- A fraction, an exponent or both, behind a whole number. -/
def floatTail? (cs : List Char) : Option (List Char × List Char) :=
  match fraction? cs with
  | none => exponent? cs
  | some (fraction, rest) =>
    match exponent? rest with
    | none => some (fraction, rest)
    | some (exponent, rest) => some (fraction ++ exponent, rest)

/-- A number past the largest one is refused. -/
def decimalFloat? (cs : List Char) : Option (Double × List Char) := do
  let (whole, rest) ← whole? cs
  let (tail, rest) ← floatTail? rest
  let value ← Binary.read? Format.double (whole ++ tail)
  if value = .infinite false then none else some (value, rest)

def namedFloat? (cs : List Char) : Option (Double × List Char) :=
  let negative := cs.head? == some '-'
  match cs.drop (signLength cs) with
  | 'i' :: 'n' :: 'f' :: rest => some (.infinite negative, rest)
  | 'n' :: 'a' :: 'n' :: rest => some (.nan, rest)
  | _ => none

/-! ## Dates and times -/

/-- So many digits as a number between the bounds. -/
def field? (digits low high : Nat) (cs : List Char) : Option (Nat × List Char) := do
  let text := cs.take digits
  let n ← readDigits? text
  if text.length = digits && low ≤ n && n ≤ high then some (n, cs.drop digits) else none

def mark? (c : Char) (cs : List Char) : Option (List Char) := afterPrefix? [c] cs

def isLeapYear (year : Nat) : Bool := year % 4 = 0 && (year % 100 ≠ 0 || year % 400 = 0)

def daysIn (year month : Nat) : Nat :=
  match month with
  | 2 => if isLeapYear year then 29 else 28
  | 4 | 6 | 9 | 11 => 30
  | _ => 31

def afterDate? (cs : List Char) : Option (List Char) := do
  let (year, rest) ← field? 4 0 9999 cs
  let (month, rest) ← field? 2 1 12 (← mark? '-' rest)
  let (_, rest) ← field? 2 1 (daysIn year month) (← mark? '-' rest)
  return rest

/-- A leap second is allowed, and so is any fraction of a second. -/
def afterTime? (cs : List Char) : Option (List Char) := do
  let (_, rest) ← field? 2 0 23 cs
  let (_, rest) ← field? 2 0 59 (← mark? ':' rest)
  let (_, rest) ← field? 2 0 60 (← mark? ':' rest)
  match rest with
  | '.' :: d :: more =>
    if isPlainDigit d then return more.dropWhile isPlainDigit else return rest
  | _ => return rest

def afterOffset? (cs : List Char) : Option (List Char) :=
  match cs with
  | c :: rest =>
    if c == 'Z' || c == 'z' then some rest
    else if c == '+' || c == '-' then do
      let (_, rest) ← field? 2 0 23 rest
      let (_, rest) ← field? 2 0 59 (← mark? ':' rest)
      return rest
    else none
  | [] => none

def isTimeMark (c : Char) : Bool := c == 'T' || c == 't' || c == ' '

/-- A date, a time, or a date and a time with an optional offset. -/
def afterDateTime? (cs : List Char) : Option (List Char) :=
  match afterDate? cs with
  | none => afterTime? cs
  | some rest =>
    match rest with
    | c :: more =>
      match if isTimeMark c then afterTime? more else none with
      | some rest => some ((afterOffset? rest).getD rest)
      | none => some rest
    | [] => some rest

/-! ## Any of them -/

def isNumberStart (c : Char) : Bool := c == '+' || c == '-' || isPlainDigit c

/-- The reading that goes furthest is tried first. -/
def number? (cs : List Char) : Option (Value × List Char) :=
  match afterDateTime? cs with
  | some rest => some (.dateTime, rest)
  | none =>
    match (decimalFloat? cs).or (namedFloat? cs) with
    | some (value, rest) => some (.float value, rest)
    | none => (integer? cs).map fun (value, rest) => (.integer value, rest)

def scalar? (cs : List Char) : Option (Value × List Char) :=
  match cs with
  | 't' :: 'r' :: 'u' :: 'e' :: rest => some (.boolean true, rest)
  | 'f' :: 'a' :: 'l' :: 's' :: 'e' :: rest => some (.boolean false, rest)
  | c :: _ =>
    if isNumberStart c then number? cs
    else if c == '"' || c == '\'' then (string? cs).map fun (text, rest) => (.string text, rest)
    else (namedFloat? cs).map fun (value, rest) => (.float value, rest)
  | [] => none

end ImageGate.Toml
