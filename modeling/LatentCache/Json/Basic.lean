import LatentCache.Hex
import LatentCache.Text.Decimal

/-!
# JSON values

Members of an object keep their order and may repeat. A number that is not a natural number below
`2 ^ 64` is kept as the text it was written with.
-/

namespace LatentCache

inductive Json where
  | null
  | bool (b : Bool)
  | natural (n : Nat)
  | decimal (text : String)
  | string (s : String)
  | array (items : List Json)
  | object (members : List (String × Json))

namespace Json

/-!
## Printing

The indented form: two spaces a level, one member or item a line, and a space after each colon.
-/

def escapeChar (c : Char) : List Char :=
  if c = '"' ∨ c = '\\' then ['\\', c]
  else if c = '\x08' then ['\\', 'b']
  else if c = '\x0c' then ['\\', 'f']
  else if c = '\n' then ['\\', 'n']
  else if c = '\r' then ['\\', 'r']
  else if c = '\t' then ['\\', 't']
  else if c.toNat < 0x20 then
    ['\\', 'u', '0', '0', Hex.digit (c.toNat / 16), Hex.digit (c.toNat % 16)]
  else [c]

def quote (s : String) : List Char := ['"'] ++ s.toList.flatMap escapeChar ++ ['"']

def newLine (level : Nat) : List Char := '\n' :: List.replicate (2 * level) ' '

mutual

def prettyChars (level : Nat) : Json → List Char
  | .null => "null".toList
  | .bool b => (if b then "true" else "false").toList
  | .natural n => Decimal.digits n
  | .decimal text => text.toList
  | .string s => quote s
  | .array [] => ['[', ']']
  | .array (item :: items) =>
    '[' :: newLine (level + 1) ++ prettyChars (level + 1) item ++ prettyItems (level + 1) items ++
      newLine level ++ [']']
  | .object [] => ['\x7b', '\x7d']
  | .object ((key, value) :: members) =>
    '\x7b' :: newLine (level + 1) ++ quote key ++ [':', ' '] ++ prettyChars (level + 1) value ++
      prettyMembers (level + 1) members ++ newLine level ++ ['\x7d']

def prettyItems (level : Nat) : List Json → List Char
  | [] => []
  | item :: items => ',' :: newLine level ++ prettyChars level item ++ prettyItems level items

def prettyMembers (level : Nat) : List (String × Json) → List Char
  | [] => []
  | (key, value) :: members =>
    ',' :: newLine level ++ quote key ++ [':', ' '] ++ prettyChars level value ++
      prettyMembers level members

end

def pretty (j : Json) : String := String.ofList (prettyChars 0 j)

end Json

end LatentCache
