/-!
# Element types

The floating-point formats of latent elements, with the names by which they are chosen.
-/

namespace LatentCache

inductive ElementType where
  | f16
  | bf16
  | f32
deriving DecidableEq

namespace ElementType

def name : ElementType → String
  | f16 => "f16"
  | bf16 => "bf16"
  | f32 => "f32"

def width : ElementType → Nat
  | f16 | bf16 => 2
  | f32 => 4

def named? : String → Option ElementType
  | "f16" | "float16" | "half" => some f16
  | "bf16" | "bfloat16" => some bf16
  | "f32" | "float32" | "float" => some f32
  | _ => none

/-- The number of stored significand bits. -/
def fractionBits : ElementType → Nat
  | f16 => 10
  | bf16 => 7
  | f32 => 23

def exponentBias : ElementType → Nat
  | f16 => 15
  | bf16 | f32 => 127

/-- The bit pattern of a small natural number; it is exact when the number has at most
`fractionBits + 1` binary digits. -/
def bitsOfNat (t : ElementType) (n : Nat) : Nat :=
  if n = 0 then 0
  else
    let e := n.log2
    ((e + t.exponentBias) <<< t.fractionBits) + (((n - (1 <<< e)) <<< t.fractionBits) >>> e)

theorem width_pos (t : ElementType) : 0 < t.width := by cases t <;> decide

theorem named?_name (t : ElementType) : named? t.name = some t := by cases t <;> rfl

end ElementType

end LatentCache
