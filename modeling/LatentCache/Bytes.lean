/-!
# Byte strings

Bytes as lists, numbers written least significant byte first, and the division of a string into
groups of equal width.
-/

namespace LatentCache

abbrev Bytes := List UInt8

namespace Bytes

/-- The low `width` bytes of a number, least significant first. -/
def ofNat : Nat → Nat → Bytes
  | 0, _ => []
  | width + 1, n => UInt8.ofNat n :: ofNat width (n / 256)

@[simp] theorem length_ofNat (width n : Nat) : (ofNat width n).length = width := by
  induction width generalizing n with
  | zero => rfl
  | succ width ih => simp [ofNat, ih]

def toNat : Bytes → Nat
  | [] => 0
  | b :: rest => b.toNat + 256 * toNat rest

theorem toNat_ofNat (width n : Nat) : toNat (ofNat width n) = n % Nat.pow 256 width := by
  induction width generalizing n with
  | zero => simp [ofNat, toNat, Nat.mod_one]
  | succ width ih =>
    have step : Nat.pow 256 (width + 1) = 256 * Nat.pow 256 width := Nat.mul_comm _ _
    rw [ofNat, toNat, ih, step, Nat.mod_mul]
    simp [UInt8.toNat_ofNat']

/-- Consecutive groups of `width` bytes; bytes that do not fill a last group are left out. -/
def groups (width : Nat) (bs : Bytes) : List Bytes :=
  if _full : 0 < width ∧ (bs.take width).length = width then
    bs.take width :: groups width (bs.drop width)
  else []
termination_by bs.length
decreasing_by
  rw [List.length_take] at _full
  rw [List.length_drop]
  omega

end Bytes

end LatentCache
