import LatentCache.Hex
import LatentCache.Text.Decimal

/-!
# Hosts in URLs

The texts that may stand for a host, and those among them that are numeric addresses.
-/

namespace LatentCache.Url

def isForbiddenInHost (c : Char) : Bool :=
  c == '\x00' || c == ' ' || c == '#' || c == '/' || c == ':' || c == '<' || c == '>' || c == '?' ||
    c == '@' || c == '[' || c == '\\' || c == ']' || c == '^' || c == '|'

def isOctet (cs : List Char) : Bool :=
  !cs.isEmpty && cs.all Char.isDigit && Decimal.digits (Decimal.ofDigits cs) == cs &&
    Decimal.ofDigits cs ≤ 255

def isDottedQuad (cs : List Char) : Bool :=
  let parts := cs.splitOn '.'
  parts.length == 4 && parts.all isOctet

/-- The number of 16-bit groups that the parts between colons make up. Only the last part may be
a dotted quad, which counts for two groups. -/
def groupCount? : List (List Char) → Option Nat
  | [] => some 0
  | part :: rest =>
    if !part.isEmpty && part.length ≤ 4 && part.all (Hex.value? · |>.isSome) then
      (groupCount? rest).map (· + 1)
    else if rest.isEmpty && isDottedQuad part then some 2
    else none

def cutAtColons : List Char → List Char × Option (List Char)
  | ':' :: ':' :: rest => ([], some rest)
  | c :: rest =>
    let (front, back?) := cutAtColons rest
    (c :: front, back?)
  | [] => ([], none)

def colonParts (cs : List Char) : List (List Char) := if cs.isEmpty then [] else cs.splitOn ':'

/-- Eight groups of up to four hexadecimal digits between colons. A pair of colons stands for the
groups that are missing, and a dotted quad may stand for the last two. -/
def isGroupedAddress (cs : List Char) : Bool :=
  match cutAtColons cs with
  | (front, none) => groupCount? (colonParts front) == some 8
  | (front, some back) =>
    match groupCount? (colonParts front), groupCount? (colonParts back) with
    | some m, some n => m + n ≤ 7 && !front.contains '.'
    | _, _ => false

/-- A name, possibly empty, or a grouped address in brackets. -/
def isHost : List Char → Bool
  | '[' :: rest => rest.getLast? == some ']' && isGroupedAddress rest.dropLast
  | cs => !cs.any isForbiddenInHost

/-- A number in decimal notation, in octal notation after a zero or in hexadecimal notation after
`0x`. -/
def number? (cs : List Char) : Option Nat :=
  match cs with
  | '0' :: 'x' :: digits => valueIn 16 digits
  | '0' :: 'X' :: digits => valueIn 16 digits
  | '0' :: digit :: digits => valueIn 8 (digit :: digits)
  | _ => valueIn 10 cs
where
  valueIn (base : Nat) (digits : List Char) : Option Nat := do
    if digits.isEmpty then none
    digits.foldlM (fun n c => do
      let value ← Hex.value? c
      if value < base then some (n * base + value) else none) 0

/-- One to four numbers between dots; the last one takes the bytes that are left. -/
def isNumericAddress (cs : List Char) : Bool :=
  match (cs.splitOn '.').mapM number? with
  | none => false
  | some numbers =>
    numbers.length ≤ 4 && numbers.dropLast.all (· < 256) &&
      numbers.getLast?.any (· < Nat.pow 256 (5 - numbers.length))

def isLocated (host : List Char) : Bool :=
  host.head? == some '[' || String.ofList host == "localhost" || isNumericAddress host

end LatentCache.Url
