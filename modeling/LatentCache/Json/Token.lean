import LatentCache.Hex
import LatentCache.Json.Basic
import LatentCache.Json.Number

/-!
# JSON tokens

The division of a JSON text into punctuation and scalars. Strings hold no raw control character
and no lone surrogate; a number whose approximation is infinite is refused.
-/

namespace LatentCache.Json

inductive Token where
  | openBrace
  | closeBrace
  | openBracket
  | closeBracket
  | comma
  | colon
  | string (s : String)
  | scalar (j : Json)

namespace Token

def isSpace (c : Char) : Bool := c == ' ' || c == '\t' || c == '\n' || c == '\r'

/-- The number that four hexadecimal digits denote, and the text after them. -/
def scanUnit : List Char → Option (Nat × List Char)
  | a :: b :: c :: d :: rest => do
    let a ← Hex.value? a
    let b ← Hex.value? b
    let c ← Hex.value? c
    let d ← Hex.value? d
    some (((a * 16 + b) * 16 + c) * 16 + d, rest)
  | _ => none

/-- The character that a `u` escape denotes, after its `u`; surrogates count only in pairs. -/
def scanEscapedUnit (cs : List Char) : Option (Char × List Char) := do
  let (high, rest) ← scanUnit cs
  if 0xDC00 ≤ high ∧ high < 0xE000 then none
  else if 0xD800 ≤ high ∧ high < 0xDC00 then
    match rest with
    | '\\' :: 'u' :: rest =>
      let (low, rest) ← scanUnit rest
      if 0xDC00 ≤ low ∧ low < 0xE000 then
        some (Char.ofNat (0x10000 + (high - 0xD800) * 0x400 + (low - 0xDC00)), rest)
      else none
    | _ => none
  else some (Char.ofNat high, rest)

def scanEscape : List Char → Option (Char × List Char)
  | '"' :: rest => some ('"', rest)
  | '\\' :: rest => some ('\\', rest)
  | '/' :: rest => some ('/', rest)
  | 'b' :: rest => some ('\x08', rest)
  | 'f' :: rest => some ('\x0c', rest)
  | 'n' :: rest => some ('\n', rest)
  | 'r' :: rest => some ('\r', rest)
  | 't' :: rest => some ('\t', rest)
  | 'u' :: rest => scanEscapedUnit rest
  | _ => none

/-- The characters of a string after its opening quote, and the text after its closing quote. -/
def scanString (cs : List Char) : Option (List Char × List Char) :=
  match cs with
  | [] => none
  | '"' :: rest => some ([], rest)
  | '\\' :: rest => do
    let (c, rest') ← scanEscape rest
    if rest'.length < rest.length then
      let (body, tail) ← scanString rest'
      some (c :: body, tail)
    else none
  | c :: rest =>
    if c.toNat < 0x20 then none
    else do
      let (body, tail) ← scanString rest
      some (c :: body, tail)
termination_by cs.length
decreasing_by all_goals simp_all <;> omega

def scanDigits (cs : List Char) : Option (List Char × List Char) :=
  match cs.takeWhile Char.isDigit with
  | [] => none
  | ds => some (ds, cs.dropWhile Char.isDigit)

def scanFraction : List Char → Option (List Char × List Char)
  | '.' :: rest => scanDigits rest
  | cs => some ([], cs)

def scanExponent : List Char → Option (Option Int × List Char)
  | c :: rest =>
    if c = 'e' ∨ c = 'E' then do
      let (sign, rest) := match rest with
        | '-' :: rest => ((-1 : Int), rest)
        | '+' :: rest => (1, rest)
        | _ => (1, rest)
      let (ds, rest) ← scanDigits rest
      some (some (sign * Decimal.ofDigits ds), rest)
    else some (none, c :: rest)
  | [] => some (none, [])

def scanNumber (cs : List Char) : Option (Json × List Char) := do
  let (negative, unsigned) := match cs with
    | '-' :: rest => (true, rest)
    | _ => (false, cs)
  let (whole, afterWhole) ← match unsigned with
    | '0' :: rest => some (['0'], rest)
    | _ => scanDigits unsigned
  let (fraction, afterFraction) ← scanFraction afterWhole
  let (exponent?, rest) ← scanExponent afterFraction
  let isNatural := !negative && fraction.isEmpty && exponent?.isNone
  if isNatural && Decimal.ofDigits whole < Size.limit then
    some (.natural (Decimal.ofDigits whole), rest)
  else if isOutOfRange whole fraction (exponent?.getD 0) then none
  else some (.decimal (String.ofList (cs.take (cs.length - rest.length))), rest)

/-- The first token of a text that does not start with a blank, and the text after it. -/
def scan : List Char → Option (Token × List Char)
  | '\x7b' :: rest => some (.openBrace, rest)
  | '\x7d' :: rest => some (.closeBrace, rest)
  | '[' :: rest => some (.openBracket, rest)
  | ']' :: rest => some (.closeBracket, rest)
  | ',' :: rest => some (.comma, rest)
  | ':' :: rest => some (.colon, rest)
  | '"' :: rest => (scanString rest).map fun (body, tail) => (.string (String.ofList body), tail)
  | 'n' :: 'u' :: 'l' :: 'l' :: rest => some (.scalar .null, rest)
  | 't' :: 'r' :: 'u' :: 'e' :: rest => some (.scalar (.bool true), rest)
  | 'f' :: 'a' :: 'l' :: 's' :: 'e' :: rest => some (.scalar (.bool false), rest)
  | cs => (scanNumber cs).map fun (j, rest) => (.scalar j, rest)

/-- All tokens of a text. Every token takes at least one character. -/
def list? (cs : List Char) : Option (List Token) :=
  match cs with
  | [] => some []
  | c :: rest =>
    if isSpace c then list? rest
    else do
      let (token, tail) ← scan (c :: rest)
      if tail.length < (c :: rest).length then
        let tokens ← list? tail
        some (token :: tokens)
      else none
termination_by cs.length
decreasing_by all_goals simp_all

end Token

end LatentCache.Json
