import LatentCache.Latent.Basic

/-!
# Latents along the sequence axis

Cutting out a range of token positions, and joining latents one after another. In memory the
positions of one outer index are contiguous, so both work row block by row block.
-/

namespace LatentCache

/-- Takes `width` bytes after the first `skip` ones of each of `count` blocks of `stride` bytes. -/
def sliceBlocks : (count stride skip width : Nat) → Bytes → Bytes
  | 0, _, _, _, _ => []
  | count + 1, stride, skip, width, data =>
    (data.drop skip).take width ++ sliceBlocks count stride skip width (data.drop stride)

/-- Joins the `count` blocks of several byte strings, all first blocks before all second ones; each
string comes with the length of its blocks. -/
def interleaveBlocks : (count : Nat) → List (Nat × Bytes) → Bytes
  | 0, _ => []
  | count + 1, parts =>
    parts.flatMap (fun part => part.2.take part.1) ++
      interleaveBlocks count (parts.map fun part => (part.1, part.2.drop part.1))

namespace Latent

/-- The number of bytes of one token position at one outer index. -/
def rowBytes (x : Latent) : Nat := Size.mul (Size.prod x.shape.inner) x.type.width

def blockBytes (x : Latent) : Nat := Size.mul x.seqLen x.rowBytes

/-- Where a range of positions lies in the bytes of every block. -/
structure Window where
  stride : Nat
  skip : Nat
  width : Nat
deriving DecidableEq

/-- The number of bytes of a row and of a block. Both are computed whether or not there is anything
to copy, and so is the room for all bytes of `length` positions. -/
def measure? (x : Latent) (length : Nat) : Except Size.Overflow (Nat × Nat) := do
  let row ← Size.mul? (← Size.prod? x.shape.inner) x.type.width
  let stride ← Size.mul? x.seqLen row
  let _room ← Size.mul? (← Size.mul? x.shape.outer length) row
  return (row, stride)

/-- The window of `length` positions from `start` on. Its bounds grow from block to block, so that
all of them fit if those of the last block do. -/
def window? (x : Latent) (start length : Nat) : Except Size.Overflow Window := do
  let (row, stride) ← x.measure? length
  match x.shape.outer with
  | 0 => return ⟨stride, 0, 0⟩
  | last + 1 =>
    let skip ← Size.mul? start row
    let width ← Size.mul? length row
    let _stop ← Size.add? (← Size.add? (← Size.mul? last stride) skip) width
    return ⟨stride, skip, width⟩

/-- The bytes in a window of every block. Where the window is empty there is nothing to copy. -/
def copied (x : Latent) (w : Window) : Bytes :=
  if w.width = 0 then [] else sliceBlocks x.shape.outer w.stride w.skip w.width x.data

/-- The positions `start`, `start + 1`, … of a latent, `length` of them. -/
def narrow (x : Latent) (start length : Nat) : Except LatentError Latent := do
  let stop ← (Size.add? start length).mapError .overflow
  if x.seqLen < stop then
    throw (.outOfRange start length x.seqLen)
  let w ← (x.window? start length).mapError .overflow
  return ⟨x.type, x.shape.withSeqLen length, x.copied w⟩

/-- A latent can follow another one if they differ at most in their number of positions. -/
def Compatible (x y : Latent) : Prop := x.type = y.type ∧ x.shape.SameRows y.shape

instance (x y : Latent) : Decidable (x.Compatible y) := inferInstanceAs (Decidable (_ ∧ _))

def mismatch? (x y : Latent) : Option LatentError :=
  if y.type ≠ x.type then some (.typeMismatch x.type y.type)
  else if ¬ x.shape.SameRows y.shape then some (.shapeMismatch x.shape y.shape)
  else none

theorem mismatch?_eq_none_iff {x y : Latent} : x.mismatch? y = none ↔ x.Compatible y := by
  unfold mismatch? Compatible
  rw [eq_comm (a := x.type)]
  by_cases ht : y.type = x.type <;> by_cases hs : x.shape.SameRows y.shape <;> simp [ht, hs]

def concat : List Latent → Except LatentError Latent
  | [] => .error .emptyConcat
  | first :: others =>
    match others.findSome? first.mismatch? with
    | some e => .error e
    | none =>
      if others.isEmpty then .ok first
      else
        let parts := first :: others
        let blocks := parts.map fun x => (Size.mul x.seqLen first.rowBytes, x.data)
        let data :=
          if blocks.all (·.1 == 0) then [] else interleaveBlocks first.shape.outer blocks
        let total := parts.foldl (fun acc x => Size.add acc x.seqLen) 0
        .ok ⟨first.type, first.shape.withSeqLen total, data⟩

end Latent

end LatentCache
