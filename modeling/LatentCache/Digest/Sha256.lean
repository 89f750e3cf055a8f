import LatentCache.Bytes

/-!
# SHA-256

The digest of FIPS 180-4. A `Hasher` absorbs a message byte by byte, so a message may be given in
any number of pieces: `update_append` says that the division into pieces does not matter.
-/

namespace LatentCache.Sha256

structure State where
  a : UInt32
  b : UInt32
  c : UInt32
  d : UInt32
  e : UInt32
  f : UInt32
  g : UInt32
  h : UInt32

def State.initial : State :=
  ⟨0x6a09e667, 0xbb67ae85, 0x3c6ef372, 0xa54ff53a, 0x510e527f, 0x9b05688c, 0x1f83d9ab, 0x5be0cd19⟩

def roundConstants : List UInt32 := [
  0x428a2f98, 0x71374491, 0xb5c0fbcf, 0xe9b5dba5, 0x3956c25b, 0x59f111f1,
  0x923f82a4, 0xab1c5ed5, 0xd807aa98, 0x12835b01, 0x243185be, 0x550c7dc3,
  0x72be5d74, 0x80deb1fe, 0x9bdc06a7, 0xc19bf174, 0xe49b69c1, 0xefbe4786,
  0x0fc19dc6, 0x240ca1cc, 0x2de92c6f, 0x4a7484aa, 0x5cb0a9dc, 0x76f988da,
  0x983e5152, 0xa831c66d, 0xb00327c8, 0xbf597fc7, 0xc6e00bf3, 0xd5a79147,
  0x06ca6351, 0x14292967, 0x27b70a85, 0x2e1b2138, 0x4d2c6dfc, 0x53380d13,
  0x650a7354, 0x766a0abb, 0x81c2c92e, 0x92722c85, 0xa2bfe8a1, 0xa81a664b,
  0xc24b8b70, 0xc76c51a3, 0xd192e819, 0xd6990624, 0xf40e3585, 0x106aa070,
  0x19a4c116, 0x1e376c08, 0x2748774c, 0x34b0bcb5, 0x391c0cb3, 0x4ed8aa4a,
  0x5b9cca4f, 0x682e6ff3, 0x748f82ee, 0x78a5636f, 0x84c87814, 0x8cc70208,
  0x90befffa, 0xa4506ceb, 0xbef9a3f7, 0xc67178f2]

def rotate (x n : UInt32) : UInt32 := (x >>> n) ||| (x <<< (32 - n))

def State.round (s : State) (k w : UInt32) : State :=
  let choice := (s.e &&& s.f) ^^^ (~~~s.e &&& s.g)
  let majority := (s.a &&& s.b) ^^^ (s.a &&& s.c) ^^^ (s.b &&& s.c)
  let t₁ := s.h + (rotate s.e 6 ^^^ rotate s.e 11 ^^^ rotate s.e 25) + choice + k + w
  let t₂ := (rotate s.a 2 ^^^ rotate s.a 13 ^^^ rotate s.a 22) + majority
  ⟨t₁ + t₂, s.a, s.b, s.c, s.d + t₁, s.e, s.f, s.g⟩

/-- One round for every constant; the window holds the next sixteen words of the schedule. -/
def rounds : List UInt32 → List UInt32 → State → State
  | k :: ks, [w₀, w₁, w₂, w₃, w₄, w₅, w₆, w₇, w₈, w₉, w₁₀, w₁₁, w₁₂, w₁₃, w₁₄, w₁₅], s =>
    let low := rotate w₁ 7 ^^^ rotate w₁ 18 ^^^ (w₁ >>> 3)
    let high := rotate w₁₄ 17 ^^^ rotate w₁₄ 19 ^^^ (w₁₄ >>> 10)
    rounds ks
      [w₁, w₂, w₃, w₄, w₅, w₆, w₇, w₈, w₉, w₁₀, w₁₁, w₁₂, w₁₃, w₁₄, w₁₅, high + w₉ + low + w₀]
      (s.round k w₀)
  | _, _, s => s

/-- Words of four bytes, most significant byte first. -/
def bigEndianWords : Bytes → List UInt32
  | p :: q :: r :: s :: rest =>
    ((p.toUInt32 <<< 24) ||| (q.toUInt32 <<< 16) ||| (r.toUInt32 <<< 8) ||| s.toUInt32) ::
      bigEndianWords rest
  | _ => []

def State.absorbBlock (s : State) (block : Bytes) : State :=
  let t := rounds roundConstants (bigEndianWords block) s
  ⟨s.a + t.a, s.b + t.b, s.c + t.c, s.d + t.d, s.e + t.e, s.f + t.f, s.g + t.g, s.h + t.h⟩

def State.bytes (s : State) : Bytes :=
  [s.a, s.b, s.c, s.d, s.e, s.f, s.g, s.h].flatMap fun (w : UInt32) =>
    [(w >>> 24).toUInt8, (w >>> 16).toUInt8, (w >>> 8).toUInt8, w.toUInt8]

@[simp] theorem State.length_bytes (s : State) : s.bytes.length = 32 := rfl

/-- A message under way: `pending` holds the bytes of the unfinished block, latest first, and
`count` the number of bytes absorbed so far. -/
structure Hasher where
  state : State
  pending : Bytes
  count : Nat

namespace Hasher

def empty : Hasher := ⟨State.initial, [], 0⟩

def absorb (h : Hasher) (b : UInt8) : Hasher :=
  if h.count % 64 = 63 then ⟨h.state.absorbBlock (b :: h.pending).reverse, [], h.count + 1⟩
  else ⟨h.state, b :: h.pending, h.count + 1⟩

def update (h : Hasher) (message : Bytes) : Hasher := message.foldl absorb h

theorem update_append (h : Hasher) (a b : Bytes) : h.update (a ++ b) = (h.update a).update b :=
  List.foldl_append

/-- The padding of a message of `count` bytes: a one bit, zeros, and the length in bits. -/
def padding (count : Nat) : Bytes :=
  0x80 :: List.replicate ((119 - count % 64) % 64) 0 ++ (Bytes.ofNat 8 (8 * count)).reverse

def digest (h : Hasher) : Bytes := (h.update (padding h.count)).state.bytes

@[simp] theorem length_digest (h : Hasher) : h.digest.length = 32 := State.length_bytes _

end Hasher

def digest (message : Bytes) : Bytes := (Hasher.empty.update message).digest

@[simp] theorem length_digest (message : Bytes) : (digest message).length = 32 :=
  Hasher.length_digest _

end LatentCache.Sha256
