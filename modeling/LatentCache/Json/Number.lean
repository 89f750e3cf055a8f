import LatentCache.Text.Decimal

/-!
# Approximated JSON numbers

A number that is no natural below `2 ^ 64` is approximated in two steps: its leading digits are
rounded to a double, and so is the power of ten that scales them. Their product has to be finite.
-/

namespace LatentCache.Json

/-- The double nearest to a natural, of two the one with an even significand. -/
def nearestDouble (n : Nat) : Nat :=
  let unit := 1 <<< (n.log2 - 52)
  let whole := n / unit
  let rest := n % unit
  if unit < 2 * rest || (unit == 2 * rest && whole % 2 == 1) then (whole + 1) * unit
  else whole * unit

theorem nearestDouble_of_lt {n : Nat} (h : n.log2 ≤ 52) : nearestDouble n = n := by
  simp [nearestDouble, Nat.sub_eq_zero_of_le h, Nat.mod_one]

/-- Appends digits to a natural while it stays below `2 ^ 64`; the digits left over come second. -/
def appendDigits (n : Nat) : List Char → Nat × List Char
  | [] => (n, [])
  | d :: ds =>
    let longer := 10 * n + Decimal.digitValue d
    if longer < Size.limit then appendDigits longer ds else (n, d :: ds)

/-- The leading digits of a number as a natural, and the power of ten that scales it. Digits of the
whole part that are left over count as places, those of the fraction do not count. -/
def leadingDigits (whole fraction : List Char) (exponent : Int) : Nat × Int :=
  let (head, wholeLeft) := appendDigits 0 whole
  let (head, fractionLeft) := appendDigits head fraction
  (head, exponent + wholeLeft.length - (fraction.length - fractionLeft.length : Nat))

def isOutOfRange (whole fraction : List Char) (exponent : Int) : Bool :=
  let (head, scale) := leadingDigits whole fraction exponent
  if head = 0 || scale < 0 then false
  else if 308 < scale then true
  else Decimal.doubleLimit ≤ nearestDouble head * nearestDouble (Nat.pow 10 scale.toNat)

end LatentCache.Json
