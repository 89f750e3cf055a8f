import LatentCache.Json.Token

/-!
# Reading JSON

A value is read from the tokens of a text. Arrays and objects may be nested to a limited depth, and
nothing may follow the value.
-/

namespace LatentCache.Json

def maxDepth : Nat := 127

mutual

/-- Reads one value in at most `fuel` steps, opening at most `depth` containers inside each
other. -/
def readValue : (fuel depth : Nat) → List Token → Option (Json × List Token)
  | 0, _, _ => none
  | _ + 1, _, .scalar j :: rest => some (j, rest)
  | _ + 1, _, .string s :: rest => some (.string s, rest)
  | _ + 1, _ + 1, .openBracket :: .closeBracket :: rest => some (.array [], rest)
  | _ + 1, _ + 1, .openBrace :: .closeBrace :: rest => some (.object [], rest)
  | fuel + 1, depth + 1, .openBracket :: rest =>
    (readItems fuel depth rest).map fun (items, rest) => (.array items, rest)
  | fuel + 1, depth + 1, .openBrace :: rest =>
    (readMembers fuel depth rest).map fun (members, rest) => (.object members, rest)
  | _, _, _ => none

def readItems : (fuel depth : Nat) → List Token → Option (List Json × List Token)
  | 0, _, _ => none
  | fuel + 1, depth, tokens =>
    match readValue fuel depth tokens with
    | some (item, .closeBracket :: rest) => some ([item], rest)
    | some (item, .comma :: rest) =>
      (readItems fuel depth rest).map fun (items, rest) => (item :: items, rest)
    | _ => none

def readMembers : (fuel depth : Nat) → List Token → Option (List (String × Json) × List Token)
  | 0, _, _ => none
  | fuel + 1, depth, .string key :: .colon :: tokens =>
    match readValue fuel depth tokens with
    | some (value, .closeBrace :: rest) => some ([(key, value)], rest)
    | some (value, .comma :: rest) =>
      (readMembers fuel depth rest).map fun (members, rest) => ((key, value) :: members, rest)
    | _ => none
  | _ + 1, _, _ => none

end

/-- The value that a whole text denotes. No chain of steps takes more than two steps a token. -/
def parse? (cs : List Char) : Option Json := do
  let tokens ← Token.list? cs
  match readValue (2 * tokens.length + 1) maxDepth tokens with
  | some (value, []) => some value
  | _ => none

end LatentCache.Json
