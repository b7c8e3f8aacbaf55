import ImageGate.Text.Percent

/-! JSON text. The writer quotes strings and joins members without blanks; the reader takes single
pieces off the front of a sequence of bytes: a string, a number, or any value whose content does
not matter. -/
namespace ImageGate.Text.Json
set_option autoImplicit false

/-! ## Writing -/

def hexLower (n : Nat) : Char :=
  if n < 10 then Char.ofNat (0x30 + n) else Char.ofNat (0x57 + n)

def escapeChar (c : Char) : List Char :=
  match c with
  | '"' => ['\\', '"']
  | '\\' => ['\\', '\\']
  | '\n' => ['\\', 'n']
  | '\r' => ['\\', 'r']
  | '\t' => ['\\', 't']
  | '\x08' => ['\\', 'b']
  | '\x0c' => ['\\', 'f']
  | _ =>
    if c.toNat < 0x20 then ['\\', 'u', '0', '0', hexLower (c.toNat / 16), hexLower (c.toNat % 16)]
    else [c]

def quote (s : String) : String :=
  String.ofList ('"' :: s.toList.flatMap escapeChar ++ ['"'])

def array (items : List String) : String := "[" ++ ",".intercalate items ++ "]"

/-- The values are JSON text already. -/
def object (members : List (String × String)) : String :=
  "\x7b" ++ ",".intercalate (members.map fun (name, value) => quote name ++ ":" ++ value) ++ "\x7d"

/-! ## Reading -/

abbrev Bytes := List UInt8

def isSpace (b : UInt8) : Bool := b == 0x20 || b == 0x0a || b == 0x0d || b == 0x09

def skipSpace (bs : Bytes) : Bytes := bs.dropWhile isSpace

/-- Takes the byte `b` off the front, after blanks. -/
def expect? (b : UInt8) (bs : Bytes) : Option Bytes :=
  match skipSpace bs with
  | c :: rest => if c = b then some rest else none
  | [] => none

def hex4? (a b c d : UInt8) : Option Nat := do
  let high ← Percent.pairValue? a b
  let low ← Percent.pairValue? c d
  return high.toNat * 256 + low.toNat

def isHighSurrogate (n : Nat) : Bool := 0xd800 ≤ n && n < 0xdc00

def isLowSurrogate (n : Nat) : Bool := 0xdc00 ≤ n && n < 0xe000

/-- The byte that a one-letter escape stands for. -/
def escaped? (b : UInt8) : Option UInt8 :=
  match b with
  | 0x22 => some 0x22
  | 0x5c => some 0x5c
  | 0x2f => some 0x2f
  | 0x62 => some 0x08
  | 0x66 => some 0x0c
  | 0x6e => some 0x0a
  | 0x72 => some 0x0d
  | 0x74 => some 0x09
  | _ => none

/-- The content of a string, from behind its opening quote to its closing one. Surrogates come in
pairs and control characters are escaped. -/
def stringBytes? : Bytes → Option (Bytes × Bytes)
  | [] => none
  | 0x22 :: rest => some ([], rest)
  | 0x5c :: 0x75 :: a :: b :: c :: d :: rest => do
    let n ← hex4? a b c d
    if isLowSurrogate n then none
    else if isHighSurrogate n then
      match rest with
      | 0x5c :: 0x75 :: a :: b :: c :: d :: rest => do
        let m ← hex4? a b c d
        if isLowSurrogate m then
          let point := 0x10000 + (n - 0xd800) * 0x400 + (m - 0xdc00)
          let (content, rest) ← stringBytes? rest
          return (Utf8.bytes (String.singleton (Char.ofNat point)) ++ content, rest)
        else none
      | _ => none
    else
      let (content, rest) ← stringBytes? rest
      return (Utf8.bytes (String.singleton (Char.ofNat n)) ++ content, rest)
  | 0x5c :: e :: rest => do
    let b ← escaped? e
    let (content, rest) ← stringBytes? rest
    return (b :: content, rest)
  | b :: rest =>
    if b < 0x20 then none
    else (stringBytes? rest).map fun (content, rest) => (b :: content, rest)

/-- A string that is a text. -/
def string? (bs : Bytes) : Option (String × Bytes) := do
  let (content, rest) ← stringBytes? (← expect? 0x22 bs)
  return (← Utf8.text? content, rest)

/-- Skips the content of a string; what its escapes stand for does not matter. -/
def skipString? : Bytes → Option Bytes
  | [] => none
  | 0x22 :: rest => some rest
  | 0x5c :: 0x75 :: a :: b :: c :: d :: rest =>
    if (hex4? a b c d).isSome then skipString? rest else none
  | 0x5c :: e :: rest => if (escaped? e).isSome then skipString? rest else none
  | b :: rest => if b < 0x20 then none else skipString? rest

def isDigit (b : UInt8) : Bool := 0x30 ≤ b && b ≤ 0x39

/-- Skips at least one digit. -/
def skipDigits? (bs : Bytes) : Option Bytes :=
  match bs with
  | b :: rest => if isDigit b then some (rest.dropWhile isDigit) else none
  | [] => none

def skipFraction? (bs : Bytes) : Option Bytes :=
  match bs with
  | 0x2e :: rest => skipDigits? rest
  | _ => some bs

def skipExponent? (bs : Bytes) : Option Bytes :=
  match bs with
  | b :: rest =>
    if b == 0x65 || b == 0x45 then
      match rest with
      | s :: more => if s == 0x2b || s == 0x2d then skipDigits? more else skipDigits? rest
      | [] => none
    else some bs
  | [] => some bs

/-- A zero in front of further digits is no number. -/
def skipWhole? (bs : Bytes) : Option Bytes :=
  match bs with
  | 0x30 :: b :: rest => if isDigit b then none else some (b :: rest)
  | 0x30 :: [] => some []
  | _ => skipDigits? bs

def skipNumber? (bs : Bytes) : Option Bytes := do
  let bs := match bs with
    | 0x2d :: rest => rest
    | _ => bs
  skipExponent? (← skipFraction? (← skipWhole? bs))

def skipWord? (word : String) (bs : Bytes) : Option Bytes :=
  let w := Utf8.bytes word
  if bs.take w.length = w then some (bs.drop w.length) else none

mutual

/-- Skips a value that nests at most as deep as `depth`. -/
def skipValue? (depth : Nat) (bs : Bytes) : Option Bytes :=
  match depth with
  | 0 => none
  | depth + 1 =>
    match skipSpace bs with
    | 0x22 :: rest => skipString? rest
    | 0x5b :: rest =>
      match skipSpace rest with
      | 0x5d :: rest => some rest
      | rest => skipItems? depth rest
    | 0x7b :: rest =>
      match skipSpace rest with
      | 0x7d :: rest => some rest
      | rest => skipMembers? depth rest
    | 0x74 :: rest => skipWord? "rue" rest
    | 0x66 :: rest => skipWord? "alse" rest
    | 0x6e :: rest => skipWord? "ull" rest
    | bs => skipNumber? bs

/-- Skips the items of an array and its closing bracket. -/
def skipItems? (depth : Nat) (bs : Bytes) : Option Bytes :=
  match depth with
  | 0 => none
  | depth + 1 =>
    match skipValue? depth bs with
    | none => none
    | some rest =>
      match skipSpace rest with
      | 0x5d :: rest => some rest
      | 0x2c :: rest => skipItems? depth rest
      | _ => none

/-- Skips the members of an object and its closing brace. -/
def skipMembers? (depth : Nat) (bs : Bytes) : Option Bytes :=
  match depth with
  | 0 => none
  | depth + 1 =>
    match (expect? 0x22 bs).bind skipString? |>.bind (expect? 0x3a) |>.bind (skipValue? depth) with
    | none => none
    | some rest =>
      match skipSpace rest with
      | 0x7d :: rest => some rest
      | 0x2c :: rest => skipMembers? depth rest
      | _ => none

end

/-- Skips any value: one cannot nest deeper than twice its length. -/
def skipAny? (bs : Bytes) : Option Bytes := skipValue? (2 * bs.length + 1) bs

/-- The strings of an array, from behind its opening bracket. -/
def stringItems? : Nat → Bytes → Option (List String × Bytes)
  | 0, _ => none
  | count + 1, bs => do
    let (s, rest) ← string? bs
    match skipSpace rest with
    | 0x5d :: rest => return ([s], rest)
    | 0x2c :: rest =>
      let (more, rest) ← stringItems? count rest
      return (s :: more, rest)
    | _ => none

/-- An array of strings. -/
def strings? (bs : Bytes) : Option (List String × Bytes) := do
  let rest ← expect? 0x5b bs
  match skipSpace rest with
  | 0x5d :: rest => return ([], rest)
  | rest => stringItems? rest.length rest

end ImageGate.Text.Json
