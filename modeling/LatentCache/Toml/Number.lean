import LatentCache.Toml.Text

/-!
# Numbers and dates of TOML

A number is scanned as a date-time if possible, else as a float, else as an integer.
-/

namespace LatentCache.Toml

/-! ## Date-times -/

/-- The number that exactly `count` decimal digits denote, if it lies between `low` and `high`. -/
def scanField (count low high : Nat) (cs : List Char) : Option (Nat × List Char) :=
  let ds := cs.take count
  let n := Decimal.ofDigits ds
  if ds.length = count ∧ ds.all Char.isDigit ∧ low ≤ n ∧ n ≤ high then some (n, cs.drop count)
  else none

def scanChar (c : Char) : List Char → Option (List Char)
  | d :: rest => if d = c then some rest else none
  | [] => none

def daysInMonth (year month : Nat) : Nat :=
  if month = 2 then
    if year % 4 = 0 ∧ (year % 100 ≠ 0 ∨ year % 400 = 0) then 29 else 28
  else if month = 4 ∨ month = 6 ∨ month = 9 ∨ month = 11 then 30
  else 31

/-- The text after a date. -/
def afterDate? (cs : List Char) : Option (List Char) := do
  let (year, rest) ← scanField 4 0 9999 cs
  let (month, rest) ← scanField 2 1 12 (← scanChar '-' rest)
  let (_, rest) ← scanField 2 1 (daysInMonth year month) (← scanChar '-' rest)
  some rest

def afterTime? (cs : List Char) : Option (List Char) := do
  let (_, rest) ← scanField 2 0 23 cs
  let (_, rest) ← scanField 2 0 59 (← scanChar ':' rest)
  let (_, rest) ← scanField 2 0 60 (← scanChar ':' rest)
  match rest with
  | '.' :: d :: rest => some (if d.isDigit then rest.dropWhile Char.isDigit else '.' :: d :: rest)
  | _ => some rest

def afterOffset? : List Char → Option (List Char)
  | 'Z' :: rest => some rest
  | 'z' :: rest => some rest
  | sign :: rest =>
    if sign = '+' ∨ sign = '-' then do
      let (_, rest) ← scanField 2 0 23 rest
      let (_, rest) ← scanField 2 0 59 (← scanChar ':' rest)
      some rest
    else none
  | [] => none

def afterDateTime? (cs : List Char) : Option (List Char) := do
  let afterDate ← afterDate? cs
  match afterDate with
  | c :: rest =>
    if c = 'T' ∨ c = 't' ∨ c = ' ' then
      match afterTime? rest with
      | some afterTime => some ((afterOffset? afterTime).getD afterTime)
      | none => some afterDate
    else some afterDate
  | [] => some []

/-! ## Digits -/

/-- The further digits of a number, single underscores between digits left out. -/
def scanMoreDigits (isDigit : Char → Bool) : List Char → Option (List Char × List Char)
  | [] => some ([], [])
  | '_' :: rest =>
    match rest with
    | c :: tail =>
      if isDigit c then (scanMoreDigits isDigit tail).map fun (ds, tail) => (c :: ds, tail)
      else none
    | [] => none
  | c :: rest =>
    if isDigit c then (scanMoreDigits isDigit rest).map fun (ds, tail) => (c :: ds, tail)
    else some ([], c :: rest)

def scanDigits (isDigit : Char → Bool) : List Char → Option (List Char × List Char)
  | c :: rest =>
    if isDigit c then (scanMoreDigits isDigit rest).map fun (ds, tail) => (c :: ds, tail)
    else none
  | [] => none

def scanSign : List Char → Bool × List Char
  | '+' :: rest => (false, rest)
  | '-' :: rest => (true, rest)
  | cs => (false, cs)

/-- Decimal digits without a leading zero. -/
def scanWhole : List Char → Option (List Char × List Char)
  | '0' :: rest => some (['0'], rest)
  | cs => scanDigits Char.isDigit cs

/-! ## Floats -/

def scanFraction : List Char → Option (List Char × List Char)
  | '.' :: rest => scanDigits Char.isDigit rest
  | cs => some ([], cs)

def scanExponent : List Char → Option (Option Int × List Char)
  | c :: rest =>
    if c = 'e' ∨ c = 'E' then do
      let (negative, rest) := scanSign rest
      let (ds, rest) ← scanDigits Char.isDigit rest
      let n : Int := Decimal.ofDigits ds
      some (some (if negative then -n else n), rest)
    else some (none, c :: rest)
  | [] => some (none, [])

def afterSpecial? : List Char → Option (List Char)
  | 'i' :: 'n' :: 'f' :: rest => some rest
  | 'n' :: 'a' :: 'n' :: rest => some rest
  | _ => none

/-- The text after a float: a number with a fraction or an exponent, or a special one. A positive
number must not round to infinity. -/
def afterFloat? (cs : List Char) : Option (List Char) :=
  let (negative, unsigned) := scanSign cs
  match afterSpecial? unsigned with
  | some rest => some rest
  | none => do
    let (whole, rest) ← scanWhole unsigned
    let (fraction, rest) ← scanFraction rest
    let (exponent?, rest) ← scanExponent rest
    if fraction.isEmpty ∧ exponent?.isNone then none
    else if ¬ negative ∧
        Decimal.overflowsDouble (whole ++ fraction) (exponent?.getD 0 - fraction.length) then none
    else some rest

/-! ## Integers -/

def isHexDigit (c : Char) : Bool := (Hex.value? c).isSome

def isOctalDigit (c : Char) : Bool := '0' ≤ c && c ≤ '7'

def isBinaryDigit (c : Char) : Bool := c == '0' || c == '1'

def ofDigits (base : Nat) (ds : List Char) : Nat :=
  ds.foldl (fun acc c => base * acc + (Hex.value? c).getD 0) 0

def maxInteger : Nat := 9223372036854775807

def scanBased (base : Nat) (isDigit : Char → Bool) (cs : List Char) :
    Option (Int × List Char) := do
  let (ds, rest) ← scanDigits isDigit cs
  if ofDigits base ds ≤ maxInteger then some (ofDigits base ds, rest) else none

def scanInteger : List Char → Option (Int × List Char)
  | '0' :: 'x' :: rest => scanBased 16 isHexDigit rest
  | '0' :: 'o' :: rest => scanBased 8 isOctalDigit rest
  | '0' :: 'b' :: rest => scanBased 2 isBinaryDigit rest
  | cs => do
    let (negative, unsigned) := scanSign cs
    let (ds, rest) ← scanWhole unsigned
    let n := Decimal.ofDigits ds
    if negative then
      if n ≤ maxInteger + 1 then some (-(n : Int), rest) else none
    else if n ≤ maxInteger then some ((n : Int), rest)
    else none

end LatentCache.Toml
