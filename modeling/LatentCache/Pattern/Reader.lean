import LatentCache.Pattern.Bracket
import LatentCache.Text.Character

/-!
# Reading patterns

A pattern is read from left to right, with a stack of the groups that are still open. `read?`
refuses texts that are no pattern and patterns that are nested too deeply. Counted repetitions,
looking around and going back to a group are refused as well.
-/

namespace LatentCache.Pattern

/-- The flags that stand before a colon or a closing parenthesis. Each is named once; a hyphen,
which is not the last character, clears the flags after it. -/
def changes? : (seen : List Flag) → (cleared : Bool) → List Char → Option Changes
  | _, _, [] => some []
  | seen, cleared, '-' :: rest => if cleared || rest.isEmpty then none else changes? seen true rest
  | seen, cleared, c :: rest => do
    let flag ← Flag.named? c
    if seen.contains flag then none
    return (flag, !cleared) :: (← changes? (flag :: seen) cleared rest)

/-- A name of a group, which ends with an angle bracket, and the text after it. -/
def groupName? (cs : List Char) : Option (List Char × List Char) :=
  let name := cs.takeWhile (· != '>')
  let startsName (c : Char) : Bool := c == '_' || Text.isAlphabetic c
  let isNameChar (c : Char) : Bool :=
    c == '_' || c == '.' || c == '[' || c == ']' || Text.isAlphanumeric c
  match cs.drop name.length with
  | [] => none
  | _ :: rest =>
    if name.head?.any startsName && name.all isNameChar then some (name, rest) else none

inductive GroupStart where
  | opening (changes : Changes)
  | naming (name : List Char)
  | setting (changes : Changes)

def isLookaround : List Char → Bool
  | '?' :: '=' :: _ | '?' :: '!' :: _ | '?' :: '<' :: '=' :: _ | '?' :: '<' :: '!' :: _ => true
  | _ => false

def groupStart? (cs : List Char) : Option (GroupStart × List Char) :=
  if isLookaround cs then none
  else
    match cs with
    | '?' :: 'P' :: '<' :: rest => (groupName? rest).map fun (name, rest) => (.naming name, rest)
    | '?' :: '<' :: rest => (groupName? rest).map fun (name, rest) => (.naming name, rest)
    | '?' :: rest => do
      let text := rest.takeWhile fun c => c != ':' && c != ')'
      let changes ← changes? [] false text
      match rest.drop text.length with
      | ':' :: rest => return (.opening changes, rest)
      | ')' :: rest => if text.isEmpty then none else return (.setting changes, rest)
      | _ => none
    | _ => some (.opening [], cs)

/-- The branches of a group that is still open; the latest branch and the latest item come first. -/
structure OpenGroup where
  changes : Changes := []
  /-- Whether blanks count after the group. -/
  extendedAfter : Bool := false
  branches : List Pattern := []
  items : List Pattern := []

namespace OpenGroup

def add (g : OpenGroup) (item : Pattern) : OpenGroup := { g with items := item :: g.items }

def branch (g : OpenGroup) : OpenGroup :=
  { g with branches := sequenceOf g.items.reverse :: g.branches, items := [] }

def content (g : OpenGroup) : Pattern := alternationOf g.branch.branches.reverse

/-- Repeats the latest item; there has to be one, and flags are none. -/
def repeatLast? (g : OpenGroup) : Option OpenGroup :=
  match g.items with
  | [] => none
  | item :: items => if item.isFlags then none else some { g with items := .repeated item :: items }

end OpenGroup

/-- A text after a repetition and the question mark that makes it reluctant. -/
def afterRepetition : List Char → List Char
  | '?' :: rest => rest
  | cs => cs

def ofEscape : Escape → Pattern
  | .literal l => literal l
  | .shorthand negated => shorthand negated
  | .property => property
  | .edgeOfText => edgeOfText
  | .edgeOfWord => edgeOfWord

/-- One item that is no group and no bracket. -/
def item? (extended : Bool) : Char → List Char → Option (Pattern × List Char)
  | '\\', rest => (escape? extended rest).map fun (escape, rest) => (ofEscape escape, rest)
  | '.', rest => some (any, rest)
  | '^', rest => some (edgeOfText, rest)
  | '$', rest => some (edgeOfText, rest)
  | c, rest => some (literal ⟨c, false⟩, rest)

/-- Reads a pattern to its end. Every step takes a character at least, so that the length of the
text is fuel enough. -/
def rest? : (fuel : Nat) → (extended : Bool) → (names : List (List Char)) → OpenGroup →
    List OpenGroup → List Char → Option Pattern
  | 0, _, _, _, _, _ => none
  | fuel + 1, extended, names, g, outer, cs =>
    match skip extended cs with
    | [] => if outer.isEmpty then some g.content else none
    | '(' :: rest => do
      let inside (changes : Changes) : OpenGroup :=
        { changes := changes, extendedAfter := extended }
      match ← groupStart? (skip extended rest) with
      | (.opening changes, rest) =>
        let extended := (changes.lookup .extended).getD extended
        rest? fuel extended names (inside changes) (g :: outer) rest
      | (.naming name, rest) =>
        if names.contains name then none
        else rest? fuel extended (name :: names) (inside []) (g :: outer) rest
      | (.setting changes, rest) =>
        let extended := (changes.lookup .extended).getD extended
        rest? fuel extended names (g.add (flags changes)) outer rest
    | ')' :: rest =>
      match outer with
      | [] => none
      | next :: outer =>
        rest? fuel g.extendedAfter names (next.add (group g.changes g.content)) outer rest
    | '|' :: rest => rest? fuel extended names g.branch outer rest
    | '[' :: rest => do
      let (set, rest) ← bracket? extended rest
      rest? fuel extended names (g.add set) outer rest
    | '\x7b' :: _ => none
    | c :: rest =>
      if c == '*' || c == '+' || c == '?' then do
        rest? fuel extended names (← g.repeatLast?) outer (afterRepetition rest)
      else do
        let (item, rest) ← item? extended c rest
        rest? fuel extended names (g.add item) outer rest

def deepest : Nat := 250

def read? (cs : List Char) : Option Pattern := do
  let p ← rest? (cs.length + 1) false [] {} [] cs
  if p.levels ≤ deepest then some p else none

end LatentCache.Pattern
