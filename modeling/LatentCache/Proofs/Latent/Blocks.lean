import LatentCache.Latent.Sequence
import Mathlib.Algebra.Ring.Nat

/-!
# Slicing and joining blocks

Slices that follow one another in every block, joined block by block, are one longer slice; a slice
of a slice is a slice; and it does not matter in which groups byte strings are joined.
-/

namespace LatentCache

theorem length_block {skip width : Nat} {data : Bytes} (h : skip + width ≤ data.length) :
    ((data.drop skip).take width).length = width := by
  rw [List.length_take, List.length_drop]
  omega

theorem mul_le_length_drop {count stride : Nat} {data : Bytes}
    (h : (count + 1) * stride ≤ data.length) : count * stride ≤ (data.drop stride).length := by
  rw [Nat.succ_mul] at h
  rw [List.length_drop]
  omega

theorem length_sliceBlocks {count stride skip width : Nat} {data : Bytes}
    (hWidth : skip + width ≤ stride) (hData : count * stride ≤ data.length) :
    (sliceBlocks count stride skip width data).length = count * width := by
  induction count generalizing data with
  | zero => simp [sliceBlocks]
  | succ count ih =>
    have hRest := mul_le_length_drop hData
    rw [Nat.succ_mul] at hData
    rw [sliceBlocks, List.length_append, ih hRest, length_block (by omega), Nat.succ_mul,
      Nat.add_comm]

theorem sliceBlocks_width_zero (count stride skip : Nat) (data : Bytes) :
    sliceBlocks count stride skip 0 data = [] := by
  induction count generalizing data with
  | zero => rfl
  | succ count ih => rw [sliceBlocks, ih, List.take_zero, List.nil_append]

theorem sliceBlocks_all {count stride : Nat} {data : Bytes} (h : data.length = count * stride) :
    sliceBlocks count stride 0 stride data = data := by
  induction count generalizing data with
  | zero =>
    rw [Nat.zero_mul] at h
    rw [List.eq_nil_of_length_eq_zero h]
    rfl
  | succ count ih =>
    have hRest : (data.drop stride).length = count * stride := by
      rw [List.length_drop, h, Nat.succ_mul, Nat.add_sub_cancel]
    rw [sliceBlocks, ih hRest, List.drop_zero, List.take_append_drop]

theorem take_drop_block {skip width start length : Nat} {data rest : Bytes}
    (hLength : start + length ≤ width) (hWidth : skip + width ≤ data.length) :
    (((data.drop skip).take width ++ rest).drop start).take length =
      (data.drop (skip + start)).take length := by
  have hBlock := length_block hWidth
  rw [List.drop_append_of_le_length (by omega), List.take_append_of_le_length, List.drop_take,
    List.take_take, List.drop_drop, Nat.min_eq_left (by omega)]
  rw [List.length_drop]
  omega

/-- A slice of a slice is a slice. -/
theorem sliceBlocks_sliceBlocks {count stride skip width start length : Nat} {data : Bytes}
    (hLength : start + length ≤ width) (hWidth : skip + width ≤ stride)
    (hData : count * stride ≤ data.length) :
    sliceBlocks count width start length (sliceBlocks count stride skip width data) =
      sliceBlocks count stride (skip + start) length data := by
  induction count generalizing data with
  | zero => rfl
  | succ count ih =>
    have hRest := mul_le_length_drop hData
    rw [Nat.succ_mul] at hData
    have hBlock : ((data.drop skip).take width).length = width := length_block (by omega)
    rw [sliceBlocks, sliceBlocks, sliceBlocks, take_drop_block hLength (by omega),
      List.drop_left' hBlock, ih hRest]

/-- A piece of one block of a slice is a piece of the block it was cut out of. -/
theorem take_drop_sliceBlocks {count stride skip width o start length : Nat} {data : Bytes}
    (ho : o < count) (hLength : start + length ≤ width) (hWidth : skip + width ≤ stride)
    (hData : count * stride ≤ data.length) :
    ((sliceBlocks count stride skip width data).drop (o * width + start)).take length =
      (data.drop (o * stride + (skip + start))).take length := by
  induction count generalizing o data with
  | zero => omega
  | succ count ih =>
    have hRest := mul_le_length_drop hData
    rw [Nat.succ_mul] at hData
    have hBlock : ((data.drop skip).take width).length = width := length_block (by omega)
    rw [sliceBlocks]
    cases o with
    | zero =>
      rw [Nat.zero_mul, Nat.zero_mul, Nat.zero_add, Nat.zero_add,
        take_drop_block hLength (by omega)]
    | succ o =>
      have hNext (n : Nat) : (o + 1) * n = n + o * n := by rw [Nat.succ_mul, Nat.add_comm]
      rw [hNext, hNext, Nat.add_assoc, Nat.add_assoc, ← List.drop_drop, List.drop_left' hBlock,
        ih (by omega) hRest, List.drop_drop]

/-- Slices of the given widths, the first one after `skip` bytes of each block, each with its
width. -/
def slicesFrom (count stride : Nat) (data : Bytes) : Nat → List Nat → List (Nat × Bytes)
  | _, [] => []
  | skip, width :: widths =>
    (width, sliceBlocks count stride skip width data) ::
      slicesFrom count stride data (skip + width) widths

theorem slicesFrom_take {count stride skip : Nat} {widths : List Nat} {data : Bytes}
    (hWidths : skip + widths.sum ≤ stride) (hData : stride ≤ data.length) :
    (slicesFrom (count + 1) stride data skip widths).flatMap (fun part => part.2.take part.1) =
      (data.drop skip).take widths.sum := by
  induction widths generalizing skip with
  | nil => simp [slicesFrom]
  | cons width widths ih =>
    rw [List.sum_cons] at hWidths
    have hLength : ((data.drop skip).take width).length = width := length_block (by omega)
    rw [slicesFrom, List.flatMap_cons, ih (by omega), sliceBlocks, List.take_left' hLength,
      List.sum_cons, List.take_add, List.drop_drop]

theorem slicesFrom_drop {count stride skip : Nat} {widths : List Nat} {data : Bytes}
    (hWidths : skip + widths.sum ≤ stride) (hData : stride ≤ data.length) :
    (slicesFrom (count + 1) stride data skip widths).map
        (fun part => (part.1, part.2.drop part.1)) =
      slicesFrom count stride (data.drop stride) skip widths := by
  induction widths generalizing skip with
  | nil => rfl
  | cons width widths ih =>
    rw [List.sum_cons] at hWidths
    have hLength : ((data.drop skip).take width).length = width := length_block (by omega)
    rw [slicesFrom, slicesFrom, List.map_cons, ih (by omega), sliceBlocks,
      List.drop_left' hLength]

theorem interleaveBlocks_slicesFrom {count stride skip : Nat} {widths : List Nat} {data : Bytes}
    (hWidths : skip + widths.sum ≤ stride) (hData : count * stride ≤ data.length) :
    interleaveBlocks count (slicesFrom count stride data skip widths) =
      sliceBlocks count stride skip widths.sum data := by
  induction count generalizing data with
  | zero => rfl
  | succ count ih =>
    have hRest := mul_le_length_drop hData
    rw [Nat.succ_mul] at hData
    rw [interleaveBlocks, slicesFrom_take hWidths (by omega), slicesFrom_drop hWidths (by omega),
      ih hRest, sliceBlocks]

/-- Every byte string has `count` blocks of its length. -/
def HaveBlocks (count : Nat) (parts : List (Nat × Bytes)) : Prop :=
  ∀ part ∈ parts, part.2.length = count * part.1

theorem HaveBlocks.length_take {count : Nat} {parts : List (Nat × Bytes)}
    (h : HaveBlocks (count + 1) parts) :
    (parts.flatMap fun part => part.2.take part.1).length = (parts.map (·.1)).sum := by
  induction parts with
  | nil => rfl
  | cons part parts ih =>
    have hPart : part.2.length = (count + 1) * part.1 := h part List.mem_cons_self
    rw [Nat.succ_mul] at hPart
    rw [List.flatMap_cons, List.length_append, ih fun p hp => h p (List.mem_cons_of_mem _ hp),
      List.map_cons, List.sum_cons, List.length_take]
    omega

theorem HaveBlocks.drop {count : Nat} {parts : List (Nat × Bytes)}
    (h : HaveBlocks (count + 1) parts) :
    HaveBlocks count (parts.map fun part => (part.1, part.2.drop part.1)) := by
  intro part hPart
  obtain ⟨whole, hWhole, rfl⟩ := List.mem_map.mp hPart
  rw [List.length_drop, h whole hWhole, Nat.succ_mul, Nat.add_sub_cancel]

theorem HaveBlocks.length_interleaveBlocks {count : Nat} {parts : List (Nat × Bytes)}
    (h : HaveBlocks count parts) :
    (interleaveBlocks count parts).length = count * (parts.map (·.1)).sum := by
  induction count generalizing parts with
  | zero => simp [interleaveBlocks]
  | succ count ih =>
    rw [interleaveBlocks, List.length_append, h.length_take, ih h.drop, List.map_map,
      Nat.succ_mul, Nat.add_comm]
    rfl

/-- Cutting out of each joined block what some of the byte strings gave to it leaves the blocks of
these strings. -/
theorem sliceBlocks_interleaveBlocks {count : Nat} {front parts back : List (Nat × Bytes)}
    (h : HaveBlocks count (front ++ parts ++ back)) :
    sliceBlocks count ((front ++ parts ++ back).map (·.1)).sum (front.map (·.1)).sum
        (parts.map (·.1)).sum (interleaveBlocks count (front ++ parts ++ back)) =
      interleaveBlocks count parts := by
  induction count generalizing front parts back with
  | zero => rfl
  | succ count ih =>
    let take (part : Nat × Bytes) := part.2.take part.1
    let rest (part : Nat × Bytes) := (part.1, part.2.drop part.1)
    have hFront : (front.flatMap take).length = (front.map (·.1)).sum :=
      HaveBlocks.length_take fun p hp =>
        h p (List.mem_append_left _ (List.mem_append_left _ hp))
    have hParts : (parts.flatMap take).length = (parts.map (·.1)).sum :=
      HaveBlocks.length_take fun p hp =>
        h p (List.mem_append_left _ (List.mem_append_right _ hp))
    have hHead : ((((front ++ parts ++ back).flatMap take ++
        interleaveBlocks count ((front ++ parts ++ back).map rest)).drop
          (front.map (·.1)).sum).take (parts.map (·.1)).sum) = parts.flatMap take := by
      rw [List.flatMap_append, List.flatMap_append, List.append_assoc, List.append_assoc,
        ← hFront, List.drop_left, ← hParts, List.take_left]
    have hRest := h.drop
    rw [List.map_append, List.map_append] at hRest
    have hTail := ih hRest
    have hWidths : ∀ xs : List (Nat × Bytes), (xs.map rest).map (·.1) = xs.map (·.1) :=
      fun xs => List.map_map
    rw [← List.map_append, ← List.map_append, hWidths, hWidths, hWidths] at hTail
    rw [interleaveBlocks, sliceBlocks, hHead, List.drop_left' h.length_take, hTail,
      interleaveBlocks]

def joinBlocks (count : Nat) (parts : List (Nat × Bytes)) : Nat × Bytes :=
  ((parts.map (·.1)).sum, interleaveBlocks count parts)

theorem interleaveBlocks_flatten {count : Nat} {groups : List (List (Nat × Bytes))}
    (h : ∀ parts ∈ groups, HaveBlocks count parts) :
    interleaveBlocks count groups.flatten =
      interleaveBlocks count (groups.map (joinBlocks count)) := by
  induction count generalizing groups with
  | zero => rfl
  | succ count ih =>
    let rest (parts : List (Nat × Bytes)) := parts.map fun part => (part.1, part.2.drop part.1)
    have hTake : groups.flatten.flatMap (fun part => part.2.take part.1) =
        (groups.map (joinBlocks (count + 1))).flatMap (fun part => part.2.take part.1) := by
      rw [List.flatMap_map, List.flatten_eq_flatMap, List.flatMap_assoc, List.flatMap_def,
        List.flatMap_def]
      refine congrArg List.flatten (List.map_congr_left fun parts hParts => ?_)
      simp only [id_eq, joinBlocks, interleaveBlocks, ← (h parts hParts).length_take,
        List.take_left]
    have hDrop : (groups.map (joinBlocks (count + 1))).map
        (fun part => (part.1, part.2.drop part.1)) =
          (groups.map rest).map (joinBlocks count) := by
      rw [List.map_map, List.map_map]
      refine List.map_congr_left fun parts hParts => ?_
      simp only [Function.comp, joinBlocks, interleaveBlocks, ← (h parts hParts).length_take,
        List.drop_left]
      rw [(h parts hParts).length_take, List.map_map]
      rfl
    have hRest : ∀ parts ∈ groups.map rest, HaveBlocks count parts := by
      intro parts hParts
      obtain ⟨whole, hWhole, rfl⟩ := List.mem_map.mp hParts
      exact (h whole hWhole).drop
    rw [interleaveBlocks, interleaveBlocks, hTake, hDrop, ← ih hRest, List.map_flatten]

end LatentCache
