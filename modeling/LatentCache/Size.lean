/-!
# Machine sizes

Counts and lengths are natural numbers kept below `2 ^ 64`. An operation whose result does not fit
ends the program: `add?`, `mul?` and `prod?` check for it. Where the sizes are those of data at
hand, as in joining latents or measuring a shape, `add`, `mul` and `prod` reduce the result modulo
`2 ^ 64`; as long as it fits, it is the exact one.
-/

namespace LatentCache.Size

abbrev limit : Nat := 18446744073709551616

def add (a b : Nat) : Nat := (a + b) % limit

def mul (a b : Nat) : Nat := a * b % limit

def prod (sizes : List Nat) : Nat := sizes.foldl mul 1

theorem add_eq {a b : Nat} (h : a + b < limit) : add a b = a + b := Nat.mod_eq_of_lt h

theorem mul_eq {a b : Nat} (h : a * b < limit) : mul a b = a * b := Nat.mod_eq_of_lt h

theorem mul_lt (a b : Nat) : mul a b < limit := Nat.mod_lt _ (by decide)

/-- The product of a list of sizes when no partial product reaches `2 ^ 64`. -/
def checkedProd (sizes : List Nat) : Option Nat :=
  sizes.foldlM (fun acc n => if acc * n < limit then some (acc * n) else none) 1

/-! ## Operations that end the program -/

inductive Overflow where
  | add
  | multiply
deriving DecidableEq

def Overflow.message : Overflow → String
  | add => "attempt to add with overflow"
  | multiply => "attempt to multiply with overflow"

def add? (a b : Nat) : Except Overflow Nat :=
  if a + b < limit then .ok (a + b) else .error .add

def mul? (a b : Nat) : Except Overflow Nat :=
  if a * b < limit then .ok (a * b) else .error .multiply

def prod? (sizes : List Nat) : Except Overflow Nat :=
  match checkedProd sizes with
  | some n => .ok n
  | none => .error .multiply

theorem add?_eq {a b : Nat} (h : a + b < limit) : add? a b = .ok (a + b) := if_pos h

theorem add?_eq_error {a b : Nat} (h : limit ≤ a + b) : add? a b = .error .add :=
  if_neg (Nat.not_lt_of_le h)

theorem mul?_eq {a b : Nat} (h : a * b < limit) : mul? a b = .ok (a * b) := if_pos h

theorem mul?_eq_error {a b : Nat} (h : limit ≤ a * b) : mul? a b = .error .multiply :=
  if_neg (Nat.not_lt_of_le h)

end LatentCache.Size
