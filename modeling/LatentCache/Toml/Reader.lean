import LatentCache.Toml.Number
import LatentCache.Toml.Table

/-!
# Reading TOML

A document is a list of statements, one a line: a header or a value under a key. They are read one
after another and then applied in their order.
-/

namespace LatentCache.Toml

def textBetween (cs rest : List Char) : String := String.ofList (cs.take (cs.length - rest.length))

/-- A number, date or time; the text before it must not end in the middle of a word. -/
def readNumber (cs : List Char) : Option (Value × List Char) :=
  match afterDateTime? cs <|> afterTime? cs with
  | some rest => some (.dateTime (textBetween cs rest), rest)
  | none =>
    match afterFloat? cs with
    | some rest => some (.float (textBetween cs rest), rest)
    | none => (scanInteger cs).map fun (n, rest) => (.integer n, rest)

def readScalar : List Char → Option (Value × List Char)
  | 't' :: 'r' :: 'u' :: 'e' :: rest => some (.bool true, rest)
  | 'f' :: 'a' :: 'l' :: 's' :: 'e' :: rest => some (.bool false, rest)
  | c :: rest =>
    if c = '"' ∨ c = '\'' then
      (scanString (c :: rest)).map fun (body, rest) => (.string (String.ofList body), rest)
    else readNumber (c :: rest)
  | [] => none

mutual

/-- Reads one value in at most `fuel` steps, opening at most `depth` arrays and inline tables
inside each other. -/
def readValue : (fuel depth : Nat) → List Char → Option (Value × List Char)
  | 0, _, _ => none
  | _ + 1, 0, cs => match cs with
    | '[' :: _ => none
    | '\x7b' :: _ => none
    | _ => readScalar cs
  | fuel + 1, depth + 1, cs => match cs with
    | '[' :: rest =>
      match skipLines rest with
      | ']' :: rest => some (.array [], rest)
      | rest => (readItems fuel depth rest).map fun (items, rest) => (.array items, rest)
    | '\x7b' :: rest =>
      match skipBlanks rest with
      | '\x7d' :: rest => some (.table .inline [], rest)
      | rest => (readPairs fuel depth rest []).map fun (entries, rest) =>
        (.table .inline entries, rest)
    | _ => readScalar cs

def readItems : (fuel depth : Nat) → List Char → Option (List Value × List Char)
  | 0, _, _ => none
  | fuel + 1, depth, cs =>
    match readValue fuel depth cs with
    | none => none
    | some (item, rest) =>
      match skipLines rest with
      | ']' :: rest => some ([item], rest)
      | ',' :: rest =>
        match skipLines rest with
        | ']' :: rest => some ([item], rest)
        | rest => (readItems fuel depth rest).map fun (items, rest) => (item :: items, rest)
      | _ => none

/-- Keys with values up to the brace that closes their inline table; `entries` are those read
before. -/
def readPairs : (fuel depth : Nat) → List Char → Entries → Option (Entries × List Char)
  | 0, _, _, _ => none
  | fuel + 1, depth, cs, entries =>
    match scanKey cs with
    | some (key, '=' :: rest) =>
      match readValue fuel depth (skipBlanks rest) with
      | none => none
      | some (value, rest) =>
        match entries.insertDotted key value, skipBlanks rest with
        | some entries, '\x7d' :: rest => some (entries, rest)
        | some entries, ',' :: rest => readPairs fuel depth rest entries
        | _, _ => none
    | _ => none

end

inductive Statement where
  | assign (key : List String) (value : Value)
  | table (path : List String)
  | row (path : List String)

/-- A value under a key. No chain of steps takes more than two steps a character. -/
def readAssignment (cs : List Char) : Option (Statement × List Char) :=
  match scanKey cs with
  | some (key, '=' :: rest) =>
    (readValue (2 * rest.length + 2) (depthLimit - 1) (skipBlanks rest)).map fun (value, rest) =>
      (.assign key value, rest)
  | _ => none

def readStatement : List Char → Option (Statement × List Char)
  | '[' :: '[' :: rest =>
    match scanKey rest with
    | some (path, ']' :: ']' :: rest) => some (.row path, rest)
    | _ => none
  | '[' :: rest =>
    match scanKey rest with
    | some (path, ']' :: rest) => some (.table path, rest)
    | _ => none
  | cs => readAssignment cs

def readStatements (cs : List Char) : Option (List Statement) :=
  match cs with
  | [] => some []
  | c :: rest =>
    match endLine? (c :: rest) with
    | some tail => if tail.length < (c :: rest).length then readStatements tail else none
    | none => do
      let (statement, tail) ← readStatement (skipBlanks (c :: rest))
      let tail ← endLine? tail
      if tail.length < (c :: rest).length then
        let statements ← readStatements tail
        some (statement :: statements)
      else none
termination_by cs.length
decreasing_by all_goals assumption

/-- Applies a statement to a document; `path` leads to the table that the last header named. -/
def Statement.apply (path : List String) (root : Entries) :
    Statement → Option (List String × Entries)
  | assign key value => (root.modifyAt path (·.insertDotted key value)).map ((path, ·))
  | table path => (root.openTable path).map ((path, ·))
  | row path => (root.addRow path).map ((path, ·))

/-- The table that a text denotes. A byte order mark in front is skipped. -/
def parse? (cs : List Char) : Option Entries := do
  let cs := match cs with
    | '\ufeff' :: rest => rest
    | _ => cs
  let statements ← readStatements cs
  let (_, root) ← statements.foldlM (fun (path, root) statement => statement.apply path root)
    ([], [])
  some root

end LatentCache.Toml
