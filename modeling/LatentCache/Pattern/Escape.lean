import LatentCache.Hex
import LatentCache.Pattern.Basic
import LatentCache.Text.Character

/-!
# Escapes in patterns

What a backslash and the characters after it mean, inside and outside brackets. In extended mode
blanks and comments do not count.
-/

namespace LatentCache.Pattern

inductive Escape where
  | literal (l : Literal)
  | shorthand (negated : Bool)
  | property
  | edgeOfText
  | edgeOfWord

/-- A text less the blanks at its start and the comments among them, which go from a number sign to
the end of the line. -/
def dropBlanks : (inComment : Bool) → List Char → List Char
  | _, [] => []
  | true, c :: rest => dropBlanks (c != '\n') rest
  | false, c :: rest =>
    if c == '#' then dropBlanks true rest
    else if Text.isBlank c then dropBlanks false rest
    else c :: rest

/-- A text less what does not count at its start. -/
def skip (extended : Bool) (cs : List Char) : List Char :=
  if extended then dropBlanks false cs else cs

def hexChar? (extended : Bool) :
    (count : Nat) → (value : Nat) → List Char → Option (Char × List Char)
  | 0, value, cs => if value.isValidChar then some (Char.ofNat value, cs) else none
  | count + 1, value, cs =>
    match skip extended cs with
    | [] => none
    | c :: rest => do hexChar? extended count (16 * value + (← Hex.value? c)) rest

def isEscapable (c : Char) : Bool :=
  c.toNat < 0x80 && !c.isAlphanum && c != '<' && c != '>'

def escape? (extended : Bool) : List Char → Option (Escape × List Char)
  | [] => none
  | c :: rest =>
    let literal (c : Char) : Option (Escape × List Char) := some (.literal ⟨c, false⟩, rest)
    match c with
    | 'x' => (hexChar? extended 2 0 rest).map fun (c, rest) => (.literal ⟨c, true⟩, rest)
    | 'u' => (hexChar? extended 4 0 rest).map fun (c, rest) => (.literal ⟨c, false⟩, rest)
    | 'U' => (hexChar? extended 8 0 rest).map fun (c, rest) => (.literal ⟨c, false⟩, rest)
    | 'p' | 'P' =>
      match skip extended rest with
      | [] => none
      | c :: rest => if c == '\\' || c == '\x7b' then none else some (.property, rest)
    | 'd' | 's' | 'w' => some (.shorthand false, rest)
    | 'D' | 'S' | 'W' => some (.shorthand true, rest)
    | 'a' => literal '\x07'
    | 'f' => literal '\x0c'
    | 't' => literal '\t'
    | 'n' => literal '\n'
    | 'r' => literal '\r'
    | 'v' => literal '\x0b'
    | 'A' | 'z' => some (.edgeOfText, rest)
    | 'b' | 'B' | '<' | '>' => some (.edgeOfWord, rest)
    | _ => if isEscapable c then literal c else none

end LatentCache.Pattern
