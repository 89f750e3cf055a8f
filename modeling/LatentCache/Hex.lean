import LatentCache.Bytes

/-!
# Lower-case hexadecimal text
-/

namespace LatentCache.Hex

def digit (n : Nat) : Char :=
  if n < 10 then Char.ofNat (48 + n) else Char.ofNat (87 + n)

def encode (bs : Bytes) : List Char :=
  bs.flatMap fun b => [digit (b.toNat / 16), digit (b.toNat % 16)]

def value? (c : Char) : Option Nat :=
  if '0' ≤ c ∧ c ≤ '9' then some (c.toNat - 48)
  else if 'a' ≤ c ∧ c ≤ 'f' then some (c.toNat - 87)
  else if 'A' ≤ c ∧ c ≤ 'F' then some (c.toNat - 55)
  else none

def decode? : List Char → Option Bytes
  | [] => some []
  | [_] => none
  | high :: low :: rest => do
    let h ← value? high
    let l ← value? low
    let bs ← decode? rest
    some (UInt8.ofNat (16 * h + l) :: bs)

@[simp] theorem length_encode (bs : Bytes) : (encode bs).length = 2 * bs.length := by
  induction bs with
  | nil => rfl
  | cons b bs ih =>
    rw [encode, List.flatMap_cons, List.length_append] at *
    rw [ih]
    simp
    omega

theorem value?_digit : ∀ n < 16, value? (digit n) = some n := by decide

theorem decode?_encode (bs : Bytes) : decode? (encode bs) = some bs := by
  induction bs with
  | nil => rfl
  | cons b bs ih =>
    have hb : b.toNat < 256 := b.toNat_lt
    rw [encode] at ih
    simp only [encode, List.flatMap_cons, List.cons_append, List.nil_append, decode?,
      value?_digit _ (show b.toNat / 16 < 16 by omega),
      value?_digit _ (show b.toNat % 16 < 16 by omega), ih, Option.bind_eq_bind, Option.bind_some]
    rw [show 16 * (b.toNat / 16) + b.toNat % 16 = b.toNat by omega, UInt8.ofNat_toNat]

theorem encode_injective {a b : Bytes} (h : encode a = encode b) : a = b := by
  have := congrArg decode? h
  simpa [decode?_encode] using this

end LatentCache.Hex
