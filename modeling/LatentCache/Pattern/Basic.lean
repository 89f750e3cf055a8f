/-!
# Patterns

Regular expressions as trees. `levels` says how deep one is nested.
-/

namespace LatentCache

namespace Pattern

/-- A character that stands for itself. -/
structure Literal where
  char : Char
  /-- Whether it was written as the two hexadecimal digits of a byte. -/
  isByte : Bool := false
deriving DecidableEq

inductive SetOperation where
  | intersection
  | difference
  | symmetricDifference
deriving DecidableEq

inductive CharClass where
  | empty
  | literal (l : Literal)
  | range (low high : Literal)
  /-- A set of ASCII characters that has a name, or all other characters. -/
  | named (negated : Bool)
  /-- Digits, blanks or letters, or all other characters. -/
  | shorthand (negated : Bool)
  | property
  | bracket (negated : Bool) (inner : CharClass)
  | union (items item : CharClass)
  | operation (op : SetOperation) (left right : CharClass)
deriving DecidableEq

namespace CharClass

def ofItems : List CharClass → CharClass
  | [] => empty
  | item :: items => items.foldl union item

def isUnion : CharClass → Bool
  | union _ _ => true
  | _ => false

/-- The depth of nesting; a union of any number of items is one level. -/
def levels : CharClass → Nat
  | bracket _ inner => inner.levels + 1
  | union items item =>
    max (if items.isUnion then items.levels else items.levels + 1) (item.levels + 1)
  | operation _ left right => max left.levels right.levels + 1
  | _ => 0

end CharClass

inductive Flag where
  | ignoreCase
  | multiLine
  | dotMatchesAll
  | swapGreed
  | unicode
  | crlf
  | extended
deriving DecidableEq

def Flag.named? : Char → Option Flag
  | 'i' => some ignoreCase
  | 'm' => some multiLine
  | 's' => some dotMatchesAll
  | 'U' => some swapGreed
  | 'u' => some unicode
  | 'R' => some crlf
  | 'x' => some extended
  | _ => none

abbrev Changes := List (Flag × Bool)

end Pattern

open Pattern in
inductive Pattern where
  | empty
  | literal (l : Literal)
  | any
  | edgeOfText
  | edgeOfWord
  | shorthand (negated : Bool)
  | property
  | bracket (negated : Bool) (inner : CharClass)
  | flags (changes : Changes)
  | repeated (p : Pattern)
  | group (changes : Changes) (p : Pattern)
  | sequence (items item : Pattern)
  | alternation (branches branch : Pattern)
deriving DecidableEq

namespace Pattern

def sequenceOf : List Pattern → Pattern
  | [] => empty
  | item :: items => items.foldl sequence item

def alternationOf : List Pattern → Pattern
  | [] => empty
  | branch :: branches => branches.foldl alternation branch

def isSequence : Pattern → Bool
  | sequence _ _ => true
  | _ => false

def isAlternation : Pattern → Bool
  | alternation _ _ => true
  | _ => false

def isFlags : Pattern → Bool
  | flags _ => true
  | _ => false

def levels : Pattern → Nat
  | bracket _ inner => inner.levels + 1
  | repeated p => p.levels + 1
  | group _ p => p.levels + 1
  | sequence items item =>
    max (if items.isSequence then items.levels else items.levels + 1) (item.levels + 1)
  | alternation branches branch =>
    max (if branches.isAlternation then branches.levels else branches.levels + 1)
      (branch.levels + 1)
  | _ => 0

end Pattern

end LatentCache
