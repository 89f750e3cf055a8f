/-!
# TOML tables

Every table may be defined once. A dotted key may extend tables that only dotted keys or headers
passed through; a header may pass through any table that is not inline, and through the last row of
rows. So a table remembers how it came to be.
-/

namespace LatentCache.Toml

inductive Origin where
  /-- Written between braces. -/
  | inline
  /-- Passed through by a dotted key. -/
  | dotted
  /-- Passed through by a header. -/
  | implied
  /-- Named by a header of its own. -/
  | header
deriving DecidableEq

/-- Floats and date-times are kept as they were written. Rows are tables under a doubly bracketed
header. -/
inductive Value where
  | string (s : String)
  | integer (n : Int)
  | float (text : String)
  | bool (b : Bool)
  | dateTime (text : String)
  | array (items : List Value)
  | table (origin : Origin) (entries : List (String × Value))
  | rows (rows : List (List (String × Value)))

abbrev Entries := List (String × Value)

namespace Entries

def set (entries : Entries) (key : String) (value : Value) : Entries :=
  entries.map fun entry => if entry.1 == key then (key, value) else entry

def get? (entries : Entries) (key : String) : Option Value := entries.lookup key

def changeLast (change : Entries → Option Entries) : List Entries → Option (List Entries)
  | [] => none
  | [row] => (change row).map ([·])
  | row :: rows => (changeLast change rows).map (row :: ·)

def insertDotted (entries : Entries) (path : List String) (value : Value) : Option Entries :=
  match path with
  | [] => none
  | [key] => if (entries.get? key).isSome then none else some (entries ++ [(key, value)])
  | key :: next :: rest =>
    let inner (sub : Entries) : Option Entries := insertDotted sub (next :: rest) value
    match entries.get? key with
    | none => (inner []).map fun sub => entries ++ [(key, .table .dotted sub)]
    | some (.table .dotted sub) => (inner sub).map fun sub => entries.set key (.table .dotted sub)
    | some (.table .implied sub) =>
      if rest.isEmpty then none
      else (inner sub).map fun sub => entries.set key (.table .implied sub)
    | some (.rows rows) =>
      if rest.isEmpty then none
      else (changeLast inner rows).map fun rows => entries.set key (.rows rows)
    | _ => none

/-- Applies a change to the table that a header's path leads to. -/
def modifyAt (entries : Entries) (path : List String) (change : Entries → Option Entries) :
    Option Entries :=
  match path with
  | [] => change entries
  | key :: rest =>
    let inner (sub : Entries) : Option Entries := modifyAt sub rest change
    match entries.get? key with
    | none => (inner []).map fun sub => entries ++ [(key, .table .implied sub)]
    | some (.table origin sub) =>
      if origin = .inline then none
      else (inner sub).map fun sub => entries.set key (.table origin sub)
    | some (.rows rows) => (changeLast inner rows).map fun rows => entries.set key (.rows rows)
    | _ => none

def openTable (entries : Entries) (path : List String) : Option Entries :=
  match path.getLast? with
  | none => none
  | some key => entries.modifyAt path.dropLast fun parent =>
    match parent.get? key with
    | none => some (parent ++ [(key, .table .header [])])
    | some (.table .implied sub) => some (parent.set key (.table .header sub))
    | _ => none

def addRow (entries : Entries) (path : List String) : Option Entries :=
  match path.getLast? with
  | none => none
  | some key => entries.modifyAt path.dropLast fun parent =>
    match parent.get? key with
    | none => some (parent ++ [(key, .rows [[]])])
    | some (.rows rows) => some (parent.set key (.rows (rows ++ [[]])))
    | _ => none

end Entries

end LatentCache.Toml
