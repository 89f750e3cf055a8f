import LatentCache.Proofs.Latent.Sequence

/-!
# The bytes that are copied

Cutting out and joining copy pieces of byte strings. Their bounds are computed in machine sizes, and
nothing but these bounds decides whether a piece exists.
-/

namespace LatentCache

/-- The bytes of a string from `start` up to `stop`. -/
structure Piece where
  source : Bytes
  start : Nat
  stop : Nat

namespace Piece

def bytes (p : Piece) : Bytes := (p.source.drop p.start).take (p.stop - p.start)

def InBounds (p : Piece) : Prop := p.start ≤ p.stop ∧ p.stop ≤ p.source.length

end Piece

theorem sliceBlocks_eq_flatMap (count stride skip width : Nat) (data : Bytes) :
    sliceBlocks count stride skip width data =
      (List.range count).flatMap fun o => (data.drop (o * stride + skip)).take width := by
  induction count generalizing data with
  | zero => rfl
  | succ count ih =>
    rw [sliceBlocks, ih, List.range_succ_eq_map, List.flatMap_cons, List.flatMap_map,
      Nat.zero_mul, Nat.zero_add]
    congr 1
    refine List.flatMap_congr fun o _ => ?_
    rw [List.drop_drop, Nat.succ_mul]
    congr 2
    omega

theorem interleaveBlocks_eq_flatMap (count : Nat) (parts : List (Nat × Bytes)) :
    interleaveBlocks count parts = (List.range count).flatMap fun o =>
      parts.flatMap fun part => (part.2.drop (o * part.1)).take part.1 := by
  induction count generalizing parts with
  | zero => rfl
  | succ count ih =>
    rw [interleaveBlocks, ih, List.range_succ_eq_map, List.flatMap_cons, List.flatMap_map]
    simp only [Nat.zero_mul, List.drop_zero]
    congr 1
    refine List.flatMap_congr fun o _ => ?_
    rw [List.flatMap_map]
    refine List.flatMap_congr fun part _ => ?_
    rw [List.drop_drop, Nat.succ_mul, Nat.add_comm]

namespace Latent

/-- The pieces that cutting out a range of positions copies, one for each outer index. -/
def narrowPieces (x : Latent) (start length : Nat) : List Piece :=
  (List.range x.shape.outer).map fun o =>
    let first := Size.add (Size.mul o x.blockBytes) (Size.mul start x.rowBytes)
    ⟨x.data, first, Size.add first (Size.mul length x.rowBytes)⟩

/-- The number of bytes that cutting out makes room for. -/
def narrowCapacity (x : Latent) (length : Nat) : Nat :=
  Size.mul (Size.mul x.shape.outer length) x.rowBytes

/-- The pieces that joining copies: for each outer index one of every latent. -/
def concatPieces (first : Latent) (parts : List Latent) : List Piece :=
  (List.range first.shape.outer).flatMap fun o => parts.map fun x =>
    let stride := Size.mul x.seqLen first.rowBytes
    ⟨x.data, Size.mul o stride, Size.mul (o + 1) stride⟩

theorem Sound.length_lt {x : Latent} (h : x.Sound) : x.data.length < Size.limit := by
  rw [h.wellFormed, h.fits.mul_elementCount]
  exact h.fits.prod_mul_width_lt

theorem Sound.mul_blockSize_le {x : Latent} (h : x.Sound) {n : Nat} (hn : n ≤ x.shape.outer) :
    n * (x.seqLen * x.rowSize) ≤ x.data.length := by
  rw [h.length_data]
  exact Nat.mul_le_mul_right _ hn

/-! ## Cutting out -/

theorem narrowPieces_eq {x : Latent} (h : x.Sound) {start length : Nat}
    (hRange : start + length ≤ x.seqLen) :
    x.narrowPieces start length = (List.range x.shape.outer).map fun o =>
      ⟨x.data, o * (x.seqLen * x.rowSize) + start * x.rowSize,
        o * (x.seqLen * x.rowSize) + start * x.rowSize + length * x.rowSize⟩ := by
  refine List.map_congr_left fun o ho => ?_
  have hStop := (stop_le hRange (List.mem_range.mp ho)).trans_lt h.fits.length_lt
  dsimp only
  rw [h.fits.blockBytes_eq, h.fits.rowBytes_eq, Size.mul_eq (a := o) (by omega),
    Size.mul_eq (a := start) (by omega), Size.mul_eq (a := length) (by omega),
    Size.add_eq (by omega), Size.add_eq (by omega)]

theorem slice_copies {x : Latent} (h : x.Sound) {start length : Nat}
    (hRange : start + length ≤ x.seqLen) :
    (∀ p ∈ x.narrowPieces start length, p.InBounds) ∧
      (x.slice start length).data = (x.narrowPieces start length).flatMap Piece.bytes := by
  rw [narrowPieces_eq h hRange]
  constructor
  · intro p hp
    obtain ⟨o, ho, rfl⟩ := List.mem_map.mp hp
    constructor
    · exact Nat.le_add_right _ _
    · exact (stop_le hRange (List.mem_range.mp ho)).trans h.length_data.ge
  · rw [slice, List.flatMap_map, sliceBlocks_eq_flatMap]
    simp only [Piece.bytes, Nat.add_sub_cancel_left]

theorem narrowCapacity_eq {x : Latent} {length : Nat} (h : x.SizesFit length) :
    x.narrowCapacity length = x.shape.outer * length * x.rowSize := by
  rw [narrowCapacity, rowBytes_of_checkedProd h.products h.row, Size.mul_eq h.positions,
    Size.mul_eq h.room]

/-- What is cut out of a sound latent is one of its slices, and sound. -/
theorem Sound.eq_slice_of_narrow {x y : Latent} (h : x.Sound) {start length : Nat}
    (hNarrow : x.narrow start length = .ok y) :
    start + length ≤ x.seqLen ∧ y = x.slice start length := by
  have hRange := le_seqLen_of_narrow hNarrow
  refine ⟨hRange, ?_⟩
  rw [narrow_eq h.fits hRange] at hNarrow
  exact (Except.ok.inj hNarrow).symm

/-! ## Joining -/

theorem compatible_of_concat {first y : Latent} {others : List Latent}
    (h : concat (first :: others) = .ok y) : ∀ x ∈ first :: others, first.Compatible x := by
  intro x hx
  rw [concat] at h
  cases hMismatch : others.findSome? first.mismatch? with
  | none =>
    rcases List.mem_cons.mp hx with rfl | hx
    · exact .refl x
    · exact mismatch?_eq_none_iff.mp (List.findSome?_eq_none_iff.mp hMismatch x hx)
  | some e =>
    rw [hMismatch] at h
    cases h

theorem concatPieces_eq {first : Latent} {parts : List Latent}
    (h : ∀ x ∈ parts, first.Compatible x ∧ x.Sound) (hFits : first.Fits) :
    first.concatPieces parts = (List.range first.shape.outer).flatMap fun o =>
      parts.map fun x =>
        ⟨x.data, o * (x.seqLen * x.rowSize), (o + 1) * (x.seqLen * x.rowSize)⟩ := by
  refine List.flatMap_congr fun o ho => List.map_congr_left fun x hx => ?_
  obtain ⟨hRows, hSound⟩ := h x hx
  have hNext : (o + 1) * (x.seqLen * x.rowSize) < Size.limit :=
    (hSound.mul_blockSize_le (hRows.2.1 ▸ List.mem_range.mp ho)).trans_lt hSound.length_lt
  have hHere := (Nat.mul_le_mul_right (x.seqLen * x.rowSize) (Nat.le_succ o)).trans_lt hNext
  have hStride : Size.mul x.seqLen first.rowBytes = x.seqLen * x.rowSize := by
    rw [hFits.rowBytes_eq, ← hRows.rowSize_eq]
    exact Size.mul_eq hSound.fits.blockSize_lt
  dsimp only
  rw [hStride, Size.mul_eq hHere, Size.mul_eq hNext]

theorem join_copies {first : Latent} {parts : List Latent}
    (h : ∀ x ∈ parts, first.Compatible x ∧ x.Sound) (hFits : first.Fits) :
    (∀ p ∈ first.concatPieces parts, p.InBounds) ∧
      (first.join parts).data = (first.concatPieces parts).flatMap Piece.bytes := by
  rw [concatPieces_eq h hFits]
  constructor
  · intro p hp
    obtain ⟨o, ho, hp⟩ := List.mem_flatMap.mp hp
    obtain ⟨x, hx, rfl⟩ := List.mem_map.mp hp
    obtain ⟨hRows, hSound⟩ := h x hx
    constructor
    · exact Nat.mul_le_mul_right _ (Nat.le_succ o)
    · exact hSound.mul_blockSize_le (hRows.2.1 ▸ List.mem_range.mp ho)
  · rw [join, List.flatMap_assoc]
    dsimp only
    rw [interleaveBlocks_eq_flatMap]
    refine List.flatMap_congr fun o _ => ?_
    rw [List.flatMap_map, List.flatMap_map]
    refine List.flatMap_congr fun x _ => ?_
    rw [blocks, Piece.bytes, Nat.succ_mul, Nat.add_sub_cancel_left]

end Latent

end LatentCache
