import LatentCache.Pattern.Escape

/-!
# Sets between brackets

The reading of a bracketed set: items and ranges, nested brackets, named ASCII sets, and operations
that group from left to right.
-/

namespace LatentCache.Pattern

def asciiNames : List String :=
  ["alnum", "alpha", "ascii", "blank", "cntrl", "digit", "graph", "lower", "print", "punct",
    "space", "upper", "word", "xdigit"]

/-- A named ASCII set after its opening bracket: whether it is negated, and the text after it. -/
def asciiSet? : List Char → Option (Bool × List Char)
  | ':' :: rest =>
    let (negated, rest) := match rest with
      | '^' :: rest => (true, rest)
      | _ => (false, rest)
    let name := rest.takeWhile (· != ':')
    match rest.drop name.length with
    | ':' :: ']' :: rest =>
      if asciiNames.contains (String.ofList name) then some (negated, rest) else none
    | _ => none
  | _ => none

structure OpenBracket where
  negated : Bool
  /-- Whether there were only hyphens so far. -/
  atStart : Bool := true
  /-- The operation before the items, with its left side. -/
  pending? : Option (SetOperation × CharClass) := none
  /-- The latest item comes first. -/
  items : List CharClass := []

namespace OpenBracket

def add (b : OpenBracket) (item : CharClass) : OpenBracket :=
  { b with atStart := false, items := item :: b.items }

/-- Hyphens at the start stand for themselves. -/
def addHyphen (b : OpenBracket) : OpenBracket :=
  { b with items := .literal ⟨'-', false⟩ :: b.items }

def content (b : OpenBracket) : CharClass :=
  let items := CharClass.ofItems b.items.reverse
  match b.pending? with
  | some (op, left) => .operation op left items
  | none => items

def operate (b : OpenBracket) (op : SetOperation) : OpenBracket :=
  { b with atStart := false, pending? := some (op, b.content), items := [] }

def start (extended : Bool) (cs : List Char) : OpenBracket × List Char :=
  match skip extended cs with
  | '^' :: rest => ({ negated := true }, rest)
  | cs => ({ negated := false }, cs)

end OpenBracket

/-- An operation is a character written twice. -/
def operation? : Char → List Char → Option (SetOperation × List Char)
  | '&', '&' :: rest => some (.intersection, rest)
  | '-', '-' :: rest => some (.difference, rest)
  | '~', '~' :: rest => some (.symmetricDifference, rest)
  | _, _ => none

def setItem? (extended : Bool) : List Char → Option (CharClass × List Char)
  | [] => none
  | '\\' :: rest =>
    match escape? extended rest with
    | some (.literal l, rest) => some (.literal l, rest)
    | some (.shorthand negated, rest) => some (.shorthand negated, rest)
    | some (.property, rest) => some (.property, rest)
    | _ => none
  | c :: rest => some (.literal ⟨c, false⟩, rest)

/-- The character that decides whether a hyphen makes a range, in the text after the hyphen. In
extended mode blanks are passed over, and one number sign with the blanks after it. -/
def afterHyphen? (extended : Bool) (cs : List Char) : Option Char :=
  if extended then
    match cs.dropWhile Text.isBlank with
    | '#' :: rest => (rest.dropWhile Text.isBlank).head?.or cs.head?
    | rest => rest.head?.or cs.head?
  else cs.head?

/-- One item of a set or a range. A hyphen before a closing bracket or before another hyphen makes
no range. -/
def setRange? (extended : Bool) (cs : List Char) : Option (CharClass × List Char) := do
  let (first, rest) ← setItem? extended cs
  match skip extended rest with
  | '-' :: rest =>
    if afterHyphen? extended rest ∈ [some ']', some '-'] then return (first, '-' :: rest)
    let (last, rest) ← setItem? extended (skip extended rest)
    match first, last with
    | .literal low, .literal high =>
      if low.char.toNat ≤ high.char.toNat then return (.range low high, rest) else none
    | _, _ => none
  | rest => return (first, rest)

/-- Reads a set to the bracket that closes it, which is not in the first place. Every step takes a
character at least, so that the length of the text is fuel enough. -/
def bracketRest? (extended : Bool) :
    (fuel : Nat) → OpenBracket → List OpenBracket → List Char → Option (Pattern × List Char)
  | 0, _, _, _ => none
  | fuel + 1, b, outer, cs =>
    match skip extended cs with
    | [] => none
    | '[' :: rest =>
      match asciiSet? rest with
      | some (negated, rest) => bracketRest? extended fuel (b.add (.named negated)) outer rest
      | none =>
        let (inner, rest) := OpenBracket.start extended rest
        bracketRest? extended fuel inner (b :: outer) rest
    | ']' :: rest =>
      if b.atStart && b.items.isEmpty then
        bracketRest? extended fuel (b.add (.literal ⟨']', false⟩)) outer rest
      else
        match outer with
        | [] => some (.bracket b.negated b.content, rest)
        | next :: outer =>
          bracketRest? extended fuel (next.add (.bracket b.negated b.content)) outer rest
    | c :: rest =>
      if c == '-' && b.atStart then bracketRest? extended fuel b.addHyphen outer rest
      else
        match operation? c rest with
        | some (op, rest) => bracketRest? extended fuel (b.operate op) outer rest
        | none => do
          let (item, rest) ← setRange? extended (c :: rest)
          bracketRest? extended fuel (b.add item) outer rest

def bracket? (extended : Bool) (cs : List Char) : Option (Pattern × List Char) :=
  let (b, rest) := OpenBracket.start extended cs
  bracketRest? extended (rest.length + 1) b [] rest

end LatentCache.Pattern
