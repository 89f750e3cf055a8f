import LatentCache.Hex
import LatentCache.Text.Decimal

/-!
# Texts of TOML

Blanks, comments, and the four kinds of strings. Every scanner takes the front of a text and gives
the text after it.
-/

namespace LatentCache.Toml

def isBlank (c : Char) : Bool := c == ' ' || c == '\t'

def skipBlanks (cs : List Char) : List Char := cs.dropWhile isBlank

/-- Neither a control character, except the tab, nor a delete. -/
def isPlain (c : Char) : Bool := c == '\t' || (0x20 ≤ c.toNat && c.toNat != 0x7F)

def newLine? : List Char → Option (List Char)
  | '\n' :: rest => some rest
  | '\r' :: '\n' :: rest => some rest
  | _ => none

/-- The text after the rest of a line that holds nothing but blanks and a comment. -/
def endLine? (cs : List Char) : Option (List Char) :=
  let rest := match skipBlanks cs with
    | '#' :: comment => comment.dropWhile isPlain
    | rest => rest
  match rest with
  | [] => some []
  | _ => newLine? rest

theorem length_dropWhile_le (p : Char → Bool) (cs : List Char) :
    (cs.dropWhile p).length ≤ cs.length :=
  (List.dropWhile_suffix p).length_le

def skipLines (cs : List Char) : List Char :=
  match cs with
  | ' ' :: rest => skipLines rest
  | '\t' :: rest => skipLines rest
  | '\n' :: rest => skipLines rest
  | '\r' :: '\n' :: rest => skipLines rest
  | '#' :: rest => skipLines (rest.dropWhile isPlain)
  | _ => cs
termination_by cs.length
decreasing_by
  all_goals simp only [List.length_cons]
  all_goals first
    | omega
    | exact Nat.lt_succ_of_le (length_dropWhile_le isPlain rest)

def scanHex : (count : Nat) → List Char → Option (Nat × List Char)
  | 0, cs => some (0, cs)
  | count + 1, c :: cs => do
    let high ← Hex.value? c
    let (low, rest) ← scanHex count cs
    some ((high <<< (4 * count)) + low, rest)
  | _ + 1, [] => none

def scanScalar (count : Nat) (cs : List Char) : Option (Char × List Char) := do
  let (n, rest) ← scanHex count cs
  if n < 0xD800 ∨ (0xE000 ≤ n ∧ n < 0x110000) then some (Char.ofNat n, rest) else none

def scanEscape : List Char → Option (Char × List Char)
  | 'b' :: rest => some ('\x08', rest)
  | 'f' :: rest => some ('\x0c', rest)
  | 'n' :: rest => some ('\n', rest)
  | 'r' :: rest => some ('\r', rest)
  | 't' :: rest => some ('\t', rest)
  | '\\' :: rest => some ('\\', rest)
  | '"' :: rest => some ('"', rest)
  | 'u' :: rest => scanScalar 4 rest
  | 'U' :: rest => scanScalar 8 rest
  | _ => none

/-- A string of one line, after its opening quote. -/
def scanBasic (cs : List Char) : Option (List Char × List Char) :=
  match cs with
  | [] => none
  | '"' :: rest => some ([], rest)
  | '\\' :: rest => do
    let (c, tail) ← scanEscape rest
    if tail.length < rest.length then
      let (body, tail) ← scanBasic tail
      some (c :: body, tail)
    else none
  | c :: rest =>
    if isPlain c then do
      let (body, tail) ← scanBasic rest
      some (c :: body, tail)
    else none
termination_by cs.length
decreasing_by all_goals simp_all <;> omega

/-- A string of one line without escapes, after its opening quote. -/
def scanLiteral : List Char → Option (List Char × List Char)
  | [] => none
  | '\'' :: rest => some ([], rest)
  | c :: rest =>
    if isPlain c then do
      let (body, tail) ← scanLiteral rest
      some (c :: body, tail)
    else none

def skipWhite : List Char → List Char
  | ' ' :: rest => skipWhite rest
  | '\t' :: rest => skipWhite rest
  | '\n' :: rest => skipWhite rest
  | '\r' :: '\n' :: rest => skipWhite rest
  | cs => cs

/-- The quotes that still belong to a string of several lines, and the text after it, where three
quotes end it; up to two more before them belong to it. -/
def closing? (quote : Char) (cs : List Char) : Option (List Char × List Char) :=
  let run := (cs.takeWhile (· == quote)).length
  let inside := min (run - 3) 2
  if 3 ≤ run then some (List.replicate inside quote, cs.drop (inside + 3)) else none

/-- What the front of a string of several lines stands for. A line break becomes a line feed. Only
where `escapes` holds a backslash is special; before a line break it stands for nothing and takes
all blanks and line breaks after it along. -/
def scanPiece (escapes : Bool) (cs : List Char) : Option (List Char × List Char) :=
  match cs with
  | [] => none
  | c :: rest =>
    if c = '\\' ∧ escapes then
      match newLine? (skipBlanks rest) with
      | some tail => some ([], skipWhite tail)
      | none => (scanEscape rest).map fun (c, tail) => ([c], tail)
    else if isPlain c then some ([c], rest)
    else (newLine? cs).map fun tail => (['\n'], tail)

def scanLines (quote : Char) (escapes : Bool) (cs : List Char) : Option (List Char × List Char) :=
  match closing? quote cs with
  | some (inside, tail) => some (inside, tail)
  | none => do
    let (piece, rest) ← scanPiece escapes cs
    if rest.length < cs.length then
      let (body, tail) ← scanLines quote escapes rest
      some (piece ++ body, tail)
    else none
termination_by cs.length

def dropFirstNewLine (cs : List Char) : List Char := (newLine? cs).getD cs

def scanString : List Char → Option (List Char × List Char)
  | '"' :: '"' :: '"' :: rest => scanLines '"' true (dropFirstNewLine rest)
  | '\'' :: '\'' :: '\'' :: rest => scanLines '\'' false (dropFirstNewLine rest)
  | '"' :: rest => scanBasic rest
  | '\'' :: rest => scanLiteral rest
  | _ => none

/-! ## Keys -/

def isBareKeyChar (c : Char) : Bool := c.isAlphanum || c == '_' || c == '-'

def scanSimpleKey : List Char → Option (String × List Char)
  | '"' :: rest => (scanBasic rest).map fun (body, tail) => (String.ofList body, tail)
  | '\'' :: rest => (scanLiteral rest).map fun (body, tail) => (String.ofList body, tail)
  | cs =>
    match cs.takeWhile isBareKeyChar with
    | [] => none
    | body => some (String.ofList body, cs.dropWhile isBareKeyChar)

def scanKeys : (limit : Nat) → List Char → Option (List String × List Char)
  | 0, _ => none
  | limit + 1, cs => do
    let (key, rest) ← scanSimpleKey (skipBlanks cs)
    match skipBlanks rest with
    | '.' :: rest => do
      let (keys, rest) ← scanKeys limit rest
      some (key :: keys, rest)
    | rest => some ([key], rest)

def depthLimit : Nat := 80

def scanKey (cs : List Char) : Option (List String × List Char) := scanKeys (depthLimit - 1) cs

end LatentCache.Toml
