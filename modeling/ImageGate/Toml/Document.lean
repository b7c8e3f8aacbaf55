import ImageGate.Toml.Scalar

/-! Whole settings files: values that nest, and the lines with headers and keys. -/
namespace ImageGate.Toml
open Text
set_option autoImplicit false

/-! ## Nested values -/

/-- The items of an array, from behind its opening bracket or a comma. Each step takes at least one
of `count` characters. -/
def items? (item : Reader Value) : Nat → Reader (List Value)
  | 0, _ => none
  | count + 1, cs =>
    match skipAll cs with
    | ']' :: rest => some ([], rest)
    | cs => do
      let (first, rest) ← item cs
      match skipAll rest with
      | ']' :: rest => return ([first], rest)
      | ',' :: rest =>
        let (more, rest) ← items? item count rest
        return (first :: more, rest)
      | _ => none

/-- A key, an equals sign and a value, with blanks around the value. -/
def pair? (item : Reader Value) (cs : List Char) :
    Option ((List String × String × Value) × List Char) := do
  let ((path, key), rest) ← key? cs
  let rest ← afterPrefix? ['='] rest
  let (value, rest) ← item (skipWs rest)
  return ((path, key, value), skipWs rest)

/-- The entries of a table in braces; unlike in an array, no comma stands at the end. -/
def entries? (item : Reader Value) (entries : Entries) : Nat → Reader Entries
  | 0, _ => none
  | count + 1, cs => do
    let ((path, key, value), rest) ← pair? item cs
    let entries ← entries.add path key value
    match rest with
    | '\x7d' :: rest => return (entries, rest)
    | ',' :: rest => entries? item entries count rest
    | _ => none

def braces? (item : Reader Value) (cs : List Char) : Option (Value × List Char) :=
  match skipWs cs with
  | '\x7d' :: rest => some (.table .braces [], rest)
  | _ => (entries? item [] (cs.length + 1) cs).map fun (entries, rest) =>
    (.table .braces entries, rest)

/-- A value that nests at most as deep as `depth`. -/
def value? (depth : Nat) (cs : List Char) : Option (Value × List Char) :=
  match depth, cs with
  | 0, '[' :: _ => none
  | 0, '\x7b' :: _ => none
  | depth + 1, '[' :: rest =>
    (items? (value? depth) (rest.length + 1) rest).map fun (items, rest) => (.array items, rest)
  | depth + 1, '\x7b' :: rest => braces? (value? depth) rest
  | _, _ => scalar? cs

/-! ## Lines -/

def closers (isItem : Bool) : List Char := if isItem then [']', ']'] else [']']

/-- A header, from behind its opening brackets, and the rest of its line. -/
def headerLine? (draft : Draft) (isItem : Bool) (cs : List Char) : Option (Draft × List Char) := do
  let ((path, key), rest) ← key? cs
  let rest ← afterLine? (← afterPrefix? (closers isItem) rest)
  return (← draft.start { path, key, isItem }, rest)

def pairLine? (draft : Draft) (cs : List Char) : Option (Draft × List Char) := do
  let ((path, key, value), rest) ← pair? (value? (depthLimit - 1)) cs
  return (← draft.add path key value, ← afterLine? rest)

/-- One line; blank lines and comments change nothing. -/
def line? (draft : Draft) (cs : List Char) : Option (Draft × List Char) :=
  match skipWs cs with
  | '[' :: '[' :: rest => headerLine? draft true rest
  | '[' :: rest => headerLine? draft false rest
  | rest =>
    match afterLine? rest with
    | some rest => some (draft, rest)
    | none => pairLine? draft rest

/-- Reads lines to the end; each takes at least one of `count` characters. -/
def lines? (draft : Draft) : Nat → List Char → Option Draft
  | _, [] => some draft
  | 0, _ => none
  | count + 1, cs => do
    let (draft, rest) ← line? draft cs
    lines? draft count rest

def byteOrderMark : Char := '\uFEFF'

/-- The outermost table of a whole text. A mark of the byte order may stand in front. -/
def read? (text : String) : Option Entries := do
  let cs := text.toList
  let cs := (afterPrefix? [byteOrderMark] cs).getD cs
  (← lines? {} cs.length cs).close

end ImageGate.Toml
