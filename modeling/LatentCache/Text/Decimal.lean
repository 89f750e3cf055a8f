import LatentCache.Size

/-!
# Decimal numbers

Naturals in decimal notation, and the naturals below `2 ^ 64` that a text denotes.
-/

namespace LatentCache.Decimal

def digitChar (n : Nat) : Char := Char.ofNat (48 + n)

def digitValue (c : Char) : Nat := c.toNat - 48

def digits (n : Nat) : List Char :=
  if n < 10 then [digitChar n] else digits (n / 10) ++ [digitChar (n % 10)]
termination_by n

def text (n : Nat) : String := String.ofList (digits n)

def signedText (n : Int) : String := if n < 0 then "-" ++ text n.natAbs else text n.natAbs

def ofDigits (cs : List Char) : Nat := cs.foldl (fun acc c => 10 * acc + digitValue c) 0

theorem digitValue_digitChar : ∀ n < 10, digitValue (digitChar n) = n := by decide

theorem isDigit_digitChar : ∀ n < 10, (digitChar n).isDigit := by decide

theorem ofDigits_digits (n : Nat) : ofDigits (digits n) = n := by
  induction n using Nat.strongRecOn with
  | ind n ih =>
    rw [digits]
    split
    · next h => simp [ofDigits, digitValue_digitChar n h]
    · next h =>
      have step := ih (n / 10) (by omega)
      rw [ofDigits] at step ⊢
      rw [List.foldl_append, step]
      simp only [List.foldl_cons, List.foldl_nil, digitValue_digitChar _ (Nat.mod_lt n (by decide))]
      omega

theorem isDigit_of_mem_digits {n : Nat} {c : Char} (h : c ∈ digits n) : c.isDigit := by
  induction n using Nat.strongRecOn with
  | ind n ih =>
    rw [digits] at h
    split at h
    · next hn => simpa [List.mem_singleton.mp h] using isDigit_digitChar n hn
    · rcases List.mem_append.mp h with h | h
      · exact ih (n / 10) (by omega) h
      · simpa [List.mem_singleton.mp h] using isDigit_digitChar _ (Nat.mod_lt n (by decide))

theorem digits_ne_nil (n : Nat) : digits n ≠ [] := by
  rw [digits]
  split <;> simp

/-- An optional plus sign and at least one digit, denoting a number below `2 ^ 64`. -/
def size? (cs : List Char) : Option Nat :=
  let ds := match cs with
    | '+' :: rest => rest
    | _ => cs
  if !ds.isEmpty && ds.all Char.isDigit && ofDigits ds < Size.limit then some (ofDigits ds)
  else none

/-- The least number that is rounded to infinity where doubles are nearest: half a step above the
greatest finite one. -/
def doubleLimit : Nat := (1 <<< 1024) - (1 <<< 970)

/-- Whether `mantissa * 10 ^ exponent` is rounded to infinity where doubles are nearest. -/
def overflowsDouble (mantissa : List Char) (exponent : Int) : Bool :=
  let m := mantissa.dropWhile (· == '0')
  let magnitude := (m.length : Int) + exponent
  if m.isEmpty || magnitude ≤ 308 then false
  else if 310 ≤ magnitude then true
  else if 0 ≤ exponent then doubleLimit ≤ ofDigits m * Nat.pow 10 exponent.toNat
  else doubleLimit * Nat.pow 10 (-exponent).toNat ≤ ofDigits m

end LatentCache.Decimal
