import LatentCache.Bytes

/-!
# UTF-8

The strict decoding of byte strings: overlong forms, surrogates and numbers above U+10FFFF are
refused. Lenient decoding puts a replacement character in place of what is refused.
-/

namespace LatentCache.Utf8

def encode (cs : List Char) : Bytes := cs.flatMap String.utf8EncodeChar

def continuation? (b : UInt8) : Option Nat :=
  if b &&& 0xC0 = 0x80 then some (b.toNat % 64) else none

def decode? : Bytes → Option (List Char)
  | [] => some []
  | b₀ :: rest₀ =>
    if b₀ < 0x80 then do
      let cs ← decode? rest₀
      some (Char.ofNat b₀.toNat :: cs)
    else
      match rest₀ with
      | [] => none
      | b₁ :: rest₁ => do
        let x₁ ← continuation? b₁
        if 0xC2 ≤ b₀ ∧ b₀ < 0xE0 then
          let cs ← decode? rest₁
          some (Char.ofNat (b₀.toNat % 32 * 64 + x₁) :: cs)
        else
          match rest₁ with
          | [] => none
          | b₂ :: rest₂ => do
            let x₂ ← continuation? b₂
            if 0xE0 ≤ b₀ ∧ b₀ < 0xF0 then
              let n := (b₀.toNat % 16 * 64 + x₁) * 64 + x₂
              if 0x800 ≤ n ∧ ¬ (0xD800 ≤ n ∧ n < 0xE000) then
                let cs ← decode? rest₂
                some (Char.ofNat n :: cs)
              else none
            else
              match rest₂ with
              | [] => none
              | b₃ :: rest₃ => do
                let x₃ ← continuation? b₃
                let n := ((b₀.toNat % 8 * 64 + x₁) * 64 + x₂) * 64 + x₃
                if 0xF0 ≤ b₀ ∧ b₀ < 0xF8 ∧ 0x10000 ≤ n ∧ n < 0x110000 then
                  let cs ← decode? rest₃
                  some (Char.ofNat n :: cs)
                else none

def decodeText? (bs : Bytes) : Option String := (decode? bs).map String.ofList

/-- How many bytes follow the first byte of a character beyond ASCII, and the bounds of the next
one. -/
def lead? (b : UInt8) : Option (Nat × UInt8 × UInt8) :=
  if b < 0xC2 || 0xF4 < b then none
  else if b < 0xE0 then some (1, 0x80, 0xBF)
  else if b < 0xF0 then
    some (2, if b == 0xE0 then 0xA0 else 0x80, if b == 0xED then 0x9F else 0xBF)
  else some (3, if b == 0xF0 then 0x90 else 0x80, if b == 0xF4 then 0x8F else 0xBF)

/-- The bytes that belong to a first byte beyond ASCII, as far as they are there. -/
def following (b : UInt8) (rest : Bytes) : Bytes :=
  match lead? b, rest with
  | some (count, low, high), next :: more =>
    if low ≤ next && next ≤ high then
      next :: ((more.take (count - 1)).takeWhile fun c => (continuation? c).isSome)
    else []
  | _, _ => []

/-- Decodes a byte string. The longest start of a character that is not completed counts as one
replacement character, and so does any other byte that begins none. -/
def decodeLenient : Bytes → List Char
  | [] => []
  | b :: rest =>
    if b < 0x80 then Char.ofNat b.toNat :: decodeLenient rest
    else
      let tail := following b rest
      (decode? (b :: tail)).getD ['\ufffd'] ++ decodeLenient (rest.drop tail.length)
termination_by bs => bs.length
decreasing_by
  · simp
  · simp only [List.length_drop, List.length_cons]
    omega

end LatentCache.Utf8
