import ImageGate.Number.Binary

/-! Values of settings files, and tables that grow while a file is read. How a table came about
decides what may still be added to it. -/
namespace ImageGate.Toml
set_option autoImplicit false

/-! ## Values -/

/-- How a table came about: written in braces, by a header of its own, by the header of a table
inside it, or by a key with dots. -/
inductive Origin where
  | braces
  | header
  | implied
  | dotted
  deriving DecidableEq, Repr

inductive Value where
  | string (text : String)
  | integer (value : Int)
  | float (value : Number.Double)
  | boolean (value : Bool)
  | dateTime
  | array (items : List Value)
  | table (origin : Origin) (entries : List (String × Value))
  /-- An array of tables with a header each. -/
  | tables (items : List (List (String × Value)))

abbrev Entries := List (String × Value)

/-! ## Growing tables -/

namespace Entries

def put (key : String) (value : Value) (entries : Entries) : Entries :=
  if (entries.lookup key).isSome then
    entries.map fun (k, v) => (k, if k = key then value else v)
  else entries ++ [(key, value)]

def remove (key : String) (entries : Entries) : Entries := entries.filter fun e => e.1 ≠ key

/-- A change of a table that may be refused and that may bring something back. -/
abbrev Change (α : Type) := Origin → Entries → Option (Entries × α)

/-- Changes the table at the end of a path. Missing tables on the way come about in the way `made`.
A key with dots does not reach into a table with a header, and nothing reaches into a value. In an
array of tables the last one is meant. -/
def changeAt {α : Type} (made : Origin) (change : Change α) : List String → Change α
  | [], origin, entries => change origin entries
  | key :: path, _, entries =>
    match entries.lookup key with
    | none => do
      let (inner, a) ← changeAt made change path made []
      return (entries ++ [(key, .table made inner)], a)
    | some (.table origin inner) =>
      if origin = .braces || (made = .dotted && origin = .header) then none
      else do
        let (inner, a) ← changeAt made change path origin inner
        return (put key (.table origin inner) entries, a)
    | some (.tables items) => do
      let last ← items.getLast?
      let (last, a) ← changeAt made change path .header last
      return (put key (.tables (items.dropLast ++ [last])) entries, a)
    | some _ => none

/-- Adds a value under a new key. A key with dots only adds to tables that such keys made. -/
def add (path : List String) (key : String) (value : Value) (entries : Entries) : Option Entries :=
  let change : Change Unit := fun origin entries =>
    if !path.isEmpty && origin ≠ .dotted then none
    else if (entries.lookup key).isSome then none
    else some (entries ++ [(key, value)], ())
  (changeAt .dotted change path .header entries).map (·.1)

end Entries

/-! ## Documents -/

/-- A header: the path of its table, and whether it starts an item of an array of tables. -/
structure Header where
  path : List String
  key : String
  isItem : Bool
  deriving DecidableEq, Repr

/-- A document that is being read: the tables so far, and the one whose keys come next. Before the
first header that is the outermost table. -/
structure Draft where
  root : Entries := []
  header : Option Header := none
  entries : Entries := []

namespace Draft

def add (draft : Draft) (path : List String) (key : String) (value : Value) : Option Draft := do
  return { draft with entries := ← draft.entries.add path key value }

/-- Puts the current table into its place. -/
def close (draft : Draft) : Option Entries :=
  match draft.header with
  | none => some draft.entries
  | some header =>
    let change : Entries.Change Unit := fun _ entries =>
      if header.isItem then
        match entries.lookup header.key with
        | some (.tables items) =>
          some (entries.put header.key (.tables (items ++ [draft.entries])), ())
        | _ => none
      else some (entries.put header.key (.table .header draft.entries), ())
    (Entries.changeAt .implied change header.path .header draft.root).map (·.1)

/-- A table has one header. One that was only implied may still get its own, and keeps what is in
it. -/
def startTable (header : Header) : Entries.Change Entries := fun _ entries =>
  match entries.lookup header.key with
  | none => some (entries, [])
  | some (.table .implied inner) => some (entries.remove header.key, inner)
  | some _ => none

def startItem (header : Header) : Entries.Change Entries := fun _ entries =>
  match entries.lookup header.key with
  | none => some (entries ++ [(header.key, .tables [])], [])
  | some (.tables _) => some (entries, [])
  | some _ => none

def start (draft : Draft) (header : Header) : Option Draft := do
  let root ← draft.close
  let change := if header.isItem then startItem header else startTable header
  let (root, entries) ← Entries.changeAt .implied change header.path .header root
  return { root, header := some header, entries }

end Draft

end ImageGate.Toml
