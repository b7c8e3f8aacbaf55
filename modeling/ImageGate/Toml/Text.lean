import ImageGate.Number.Integer
import ImageGate.Text.Cut

/-! The smallest parts of settings files: blanks, comments, line ends, strings and keys. A reader
takes one part off the front of a text, and gives what it stands for and the rest. -/
namespace ImageGate.Toml
open Text
set_option autoImplicit false

abbrev Reader (α : Type) := List Char → Option (α × List Char)

/-! ## Blanks, comments and line ends -/

def isWs (c : Char) : Bool := c == ' ' || c == '\t'

def skipWs (cs : List Char) : List Char := cs.dropWhile isWs

/-- Every character but the control characters of ASCII; a tab is one that is allowed. -/
def isPrintable (c : Char) : Bool := c == '\t' || (0x20 ≤ c.toNat && c.toNat != 0x7f)

/-- What follows a line end, which is a line feed or a carriage return and a line feed. -/
def afterNewline? : List Char → Option (List Char)
  | '\n' :: rest => some rest
  | '\r' :: '\n' :: rest => some rest
  | _ => none

/-- Skips a comment up to the end of its line. -/
def skipComment (cs : List Char) : List Char :=
  match cs with
  | '#' :: rest => rest.dropWhile isPrintable
  | _ => cs

/-- Skips blanks and a comment, and then needs the end of the line or of the text. -/
def afterLine? (cs : List Char) : Option (List Char) :=
  match skipComment (skipWs cs) with
  | [] => some []
  | rest => afterNewline? rest

/-- Skips blanks, comments and line ends. -/
def skipLines (count : Nat) (cs : List Char) : List Char :=
  match count with
  | 0 => cs
  | count + 1 =>
    let rest := skipComment (skipWs cs)
    match afterNewline? rest with
    | some rest => skipLines count rest
    | none => rest

def skipAll (cs : List Char) : List Char := skipLines (cs.length + 1) cs

/-! ## Escapes -/

/-- The character that so many hexadecimal digits name. -/
def codePoint? (digits : Nat) (cs : List Char) : Option (Char × List Char) := do
  if cs.length < digits then none
  let n ← (cs.take digits).foldlM (fun n c => (hexValue? c).map (n * 16 + ·)) 0
  if n < 0xd800 || (0xdfff < n && n < 0x110000) then some (Char.ofNat n, cs.drop digits) else none

/-- The character of an escape, from behind its backslash. -/
def escaped? : List Char → Option (Char × List Char)
  | 'b' :: rest => some ('\x08', rest)
  | 't' :: rest => some ('\t', rest)
  | 'n' :: rest => some ('\n', rest)
  | 'f' :: rest => some ('\x0c', rest)
  | 'r' :: rest => some ('\r', rest)
  | '"' :: rest => some ('"', rest)
  | '\\' :: rest => some ('\\', rest)
  | 'u' :: rest => codePoint? 4 rest
  | 'U' :: rest => codePoint? 8 rest
  | _ => none

/-! ## Strings on one line -/

/-- The text up to the closing quotation mark. Each step takes at least one of `count`
characters. -/
def basicBody? : Nat → Reader (List Char)
  | 0, _ => none
  | count + 1, cs =>
    match cs with
    | '"' :: rest => some ([], rest)
    | '\\' :: rest => do
      let (c, rest) ← escaped? rest
      let (text, rest) ← basicBody? count rest
      return (c :: text, rest)
    | c :: rest =>
      if isPrintable c then (basicBody? count rest).map fun (text, rest) => (c :: text, rest)
      else none
    | [] => none

/-- The text up to the closing apostrophe, without escapes. -/
def literalBody? : Reader (List Char)
  | [] => none
  | '\'' :: rest => some ([], rest)
  | c :: rest =>
    if isPrintable c then (literalBody? rest).map fun (text, rest) => (c :: text, rest) else none

/-! ## Strings on many lines -/

/-- The number of quotes at the front that belong to the text, if the string ends there: three
close it, and at most two more stand before those. -/
def closingQuotes? (quote : Char) (cs : List Char) : Option Nat :=
  let run := (cs.takeWhile (· == quote)).length
  if run < 3 then none else some (min (run - 3) 2)

/-- After a backslash at the end of a line, the break and all blanks and breaks that follow. -/
def afterFold? (cs : List Char) : Option (List Char) :=
  (afterNewline? (skipWs cs)).map fun rest => skipBreaks (rest.length + 1) rest
where
  skipBreaks (count : Nat) (cs : List Char) : List Char :=
    match count with
    | 0 => cs
    | count + 1 =>
      match afterNewline? (skipWs cs) with
      | some rest => skipBreaks count rest
      | none => skipWs cs

/-- The text up to three closing quotes. Every line end counts as a line feed; with escapes, a
backslash either starts one or folds the line. -/
def longBody? (quote : Char) (hasEscapes : Bool) : Nat → Reader (List Char)
  | 0, _ => none
  | count + 1, cs =>
    let next (c : Char) (rest : List Char) :=
      (longBody? quote hasEscapes count rest).map fun (text, rest) => (c :: text, rest)
    match closingQuotes? quote cs, afterNewline? cs with
    | some extra, _ => some (List.replicate extra quote, cs.drop (extra + 3))
    | none, some rest => next '\n' rest
    | none, none =>
      match cs with
      | [] => none
      | c :: rest =>
        if hasEscapes && c == '\\' then
          match afterFold? rest with
          | some rest => longBody? quote hasEscapes count rest
          | none => (escaped? rest).bind fun (c, rest) => next c rest
        else if isPrintable c then next c rest
        else none

/-- A line end right behind the opening quotes does not count. -/
def longText? (quote : Char) (hasEscapes : Bool) (cs : List Char) : Option (List Char × List Char) :=
  let cs := (afterNewline? cs).getD cs
  longBody? quote hasEscapes (cs.length + 1) cs

def asText (parsed : List Char × List Char) : String × List Char :=
  (String.ofList parsed.1, parsed.2)

def string? : Reader String
  | '"' :: '"' :: '"' :: rest => (longText? '"' true rest).map asText
  | '\'' :: '\'' :: '\'' :: rest => (longText? '\'' false rest).map asText
  | '"' :: rest => (basicBody? (rest.length + 1) rest).map asText
  | '\'' :: rest => (literalBody? rest).map asText
  | _ => none

/-! ## Keys -/

def isBareChar (c : Char) : Bool :=
  c.isAlpha || isPlainDigit c || c == '_' || c == '-'

/-- One part of a key: a string on one line or a bare word. -/
def simpleKey? (cs : List Char) : Option (String × List Char) :=
  match cs with
  | '"' :: rest => (basicBody? (rest.length + 1) rest).map asText
  | '\'' :: rest => (literalBody? rest).map asText
  | _ =>
    let word := cs.takeWhile isBareChar
    if word.isEmpty then none else some (String.ofList word, cs.drop word.length)

/-- The parts of a key between dots, with blanks around each of them. -/
def keyParts? : Nat → Reader (List String)
  | 0, _ => none
  | count + 1, cs => do
    let (part, rest) ← simpleKey? (skipWs cs)
    match skipWs rest with
    | '.' :: rest =>
      let (parts, rest) ← keyParts? count rest
      return (part :: parts, rest)
    | rest => return ([part], rest)

/-- Keys and values nest less deep than this. -/
def depthLimit : Nat := 80

/-- A key as the path to a table and the name in it. -/
def key? (cs : List Char) : Option ((List String × String) × List Char) := do
  let (parts, rest) ← keyParts? (depthLimit - 1) cs
  return ((parts.dropLast, ← parts.getLast?), rest)

end ImageGate.Toml
