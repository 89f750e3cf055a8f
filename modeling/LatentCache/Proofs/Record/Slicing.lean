import LatentCache.Proofs.Latent.RangeCheck
import LatentCache.Proofs.Record.Decoding

/-!
# Cutting out all of a decoded record

A container is accepted if the products of the first dimensions of a tensor fit in 64 bits, from the
first dimension alone up to all of them. One that is zero hides the dimensions behind it: they may
be of any size. So the size of a row, or that of a block, need not fit where there is no layer or no
position. Cutting out all positions of such a latent ends the program, though it has no byte to
copy; all positions of any other one can be cut out.
-/

namespace LatentCache

namespace Latent

/-- What a container guarantees about the sizes of a latent. -/
structure Measured (x : Latent) : Prop where
  seqLen_lt : x.seqLen < Size.limit
  products : Size.checkedProd x.shape.toList = some x.shape.toList.prod
  size_lt : x.shape.toList.prod * x.type.width < Size.limit
  length_data : x.data.length = x.shape.outer * (x.seqLen * x.rowSize)

/-- Whatever is computed to cut out all positions is what it is in exact arithmetic. -/
structure ExactSizes (x : Latent) : Prop where
  products : Size.checkedProd x.shape.inner = some x.shape.inner.prod
  row : x.rowBytes = x.rowSize
  block : x.blockBytes = x.seqLen * x.rowSize
  positions : Size.mul x.shape.outer x.seqLen = x.shape.outer * x.seqLen
  capacity : x.narrowCapacity x.seqLen = x.shape.outer * x.seqLen * x.rowSize
  pieces : x.narrowPieces 0 x.seqLen = (List.range x.shape.outer).map fun o =>
    ⟨x.data, o * (x.seqLen * x.rowSize), (o + 1) * (x.seqLen * x.rowSize)⟩

variable {x : Latent}

namespace Measured

variable (h : x.Measured)
include h

theorem length_lt : x.shape.outer * (x.seqLen * x.rowSize) < Size.limit := by
  have hSize := h.size_lt
  simp only [Shape.toList, List.prod_cons, Nat.mul_assoc] at hSize
  exact hSize

theorem blockSize_lt (hLayers : x.shape.outer ≠ 0) : x.seqLen * x.rowSize < Size.limit :=
  (Nat.le_mul_of_pos_left _ (Nat.pos_of_ne_zero hLayers)).trans_lt h.length_lt

/-- Where there are positions, nothing is hidden behind their number. -/
theorem rowBytes_eq (hLayers : x.shape.outer ≠ 0) (hPositions : x.seqLen ≠ 0) :
    Size.checkedProd x.shape.inner = some x.shape.inner.prod ∧ x.rowBytes = x.rowSize := by
  have hPos := Nat.mul_pos (Nat.pos_of_ne_zero hLayers) (Nat.pos_of_ne_zero hPositions)
  have hProducts : Size.checkedProd x.shape.inner = some x.shape.inner.prod := by
    refine Size.checkedProd_eq_some_iff.mpr ⟨rfl, fun k => ?_⟩
    have hFirst := (Size.checkedProd_eq_some_iff.mp h.products).2 (k + 2)
    rw [Shape.toList, List.take_succ_cons, List.take_succ_cons, List.prod_cons, List.prod_cons,
      ← Nat.mul_assoc] at hFirst
    exact (Nat.le_mul_of_pos_left _ hPos).trans_lt hFirst
  refine ⟨hProducts, rowBytes_of_checkedProd hProducts ?_⟩
  exact (Nat.le_mul_of_pos_left _ (Nat.pos_of_ne_zero hPositions)).trans_lt (h.blockSize_lt hLayers)

theorem blockBytes_eq (hLayers : x.shape.outer ≠ 0) : x.blockBytes = x.seqLen * x.rowSize := by
  rcases eq_or_ne x.seqLen 0 with hNone | hPositions
  · rw [blockBytes, hNone, Size.zero_mul, Nat.zero_mul]
  · rw [blockBytes, (h.rowBytes_eq hLayers hPositions).2]
    exact Size.mul_eq (h.blockSize_lt hLayers)

theorem positions_lt : x.shape.outer * x.seqLen < Size.limit := by
  have hFirst := (Size.checkedProd_eq_some_iff.mp h.products).2 2
  rw [Shape.toList, List.take_succ_cons, List.take_succ_cons, List.take_zero, List.prod_cons,
    List.prod_cons, List.prod_nil, Nat.mul_one] at hFirst
  exact hFirst

theorem capacity_eq :
    x.narrowCapacity x.seqLen = x.shape.outer * x.seqLen * x.rowSize := by
  rw [narrowCapacity, Size.mul_eq h.positions_lt]
  rcases Nat.eq_zero_or_pos (x.shape.outer * x.seqLen) with hNone | hSome
  · rw [hNone, Size.zero_mul, Nat.zero_mul]
  · have hLayers := (Nat.pos_of_mul_pos_right hSome).ne'
    have hPositions := (Nat.pos_of_mul_pos_left hSome).ne'
    have hLt := h.length_lt
    rw [← Nat.mul_assoc] at hLt
    rw [(h.rowBytes_eq hLayers hPositions).2]
    exact Size.mul_eq hLt

theorem pieces_eq : x.narrowPieces 0 x.seqLen = (List.range x.shape.outer).map fun o =>
    ⟨x.data, o * (x.seqLen * x.rowSize), (o + 1) * (x.seqLen * x.rowSize)⟩ := by
  refine List.map_congr_left fun o ho => ?_
  have ho := List.mem_range.mp ho
  have hBlock : Size.mul x.seqLen x.rowBytes = x.seqLen * x.rowSize :=
    h.blockBytes_eq (Nat.ne_zero_of_lt ho)
  have hNext : (o + 1) * (x.seqLen * x.rowSize) < Size.limit :=
    (Nat.mul_le_mul_right _ ho).trans_lt h.length_lt
  rw [Nat.succ_mul] at hNext ⊢
  rw [blockBytes, hBlock, Size.zero_mul]
  dsimp only
  rw [Size.mul_eq (by omega), Size.add_eq (by omega), Nat.add_zero, Size.add_eq hNext]

theorem copies_all : x.Copies 0 x.seqLen where
  capacity := by
    rw [h.capacity_eq, h.length_data, Nat.mul_assoc]
  pieces := by
    rw [h.pieces_eq]
    intro p hp
    obtain ⟨o, ho, rfl⟩ := List.mem_map.mp hp
    constructor
    · exact Nat.mul_le_mul_right _ (Nat.le_succ o)
    · exact (Nat.mul_le_mul_right _ (List.mem_range.mp ho)).trans h.length_data.ge

/-- Only the sizes of a row and of a block may fail to be exact. -/
theorem exactSizes_iff : x.ExactSizes ↔
    Size.checkedProd x.shape.inner = some x.shape.inner.prod ∧ x.rowSize < Size.limit ∧
      x.seqLen * x.rowSize < Size.limit := by
  constructor
  · intro hExact
    refine ⟨hExact.products, ?_, ?_⟩
    · rw [← hExact.row]
      exact Size.mul_lt _ _
    · rw [← hExact.block]
      exact Size.mul_lt _ _
  · rintro ⟨hProducts, hRow, hBlock⟩
    have hRow := rowBytes_of_checkedProd hProducts hRow
    refine ⟨hProducts, hRow, ?_, Size.mul_eq h.positions_lt, h.capacity_eq, h.pieces_eq⟩
    rw [blockBytes, hRow]
    exact Size.mul_eq hBlock

theorem sizesFit (hExact : x.ExactSizes) : x.SizesFit x.seqLen where
  products := hExact.products
  row := (h.exactSizes_iff.mp hExact).2.1
  block := (h.exactSizes_iff.mp hExact).2.2
  positions := h.positions_lt
  room := by
    rw [Nat.mul_assoc]
    exact h.length_lt

theorem narrow_all_eq (hExact : x.ExactSizes) : x.narrow 0 x.seqLen = .ok x := by
  rw [(h.sizesFit hExact).narrow_eq (Nat.zero_add _).le h.seqLen_lt h.length_lt,
    slice_all h.length_data]

theorem narrow_all_overflow (hExact : ¬ x.ExactSizes) :
    x.narrow 0 x.seqLen = .error (.overflow .multiply) := by
  refine narrow_eq_overflow (fun hSizes => hExact ?_) (Nat.zero_add _).le h.seqLen_lt
  exact h.exactSizes_iff.mpr ⟨hSizes.products, hSizes.row, hSizes.block⟩

theorem exactSizes (hLayers : x.shape.outer ≠ 0) (hPositions : x.seqLen ≠ 0) : x.ExactSizes :=
  ⟨(h.rowBytes_eq hLayers hPositions).1, (h.rowBytes_eq hLayers hPositions).2,
    h.blockBytes_eq hLayers, Size.mul_eq h.positions_lt, h.capacity_eq, h.pieces_eq⟩

end Measured

end Latent

namespace Codec

variable {bs : Bytes} {x : Latent}

theorem measured_of_decode (h : selfDescribing.decode bs = .ok x) : x.Measured := by
  cases decode_eq_iff.mp h with
  | latent h =>
    obtain ⟨hProducts, hLt, hLength⟩ := h.sizes
    rw [ElementType.width_toCell] at hLt hLength
    have hSeqLen : x.seqLen < Size.limit := h.dim_lt (by simp [Shape.toList, Latent.seqLen])
    refine ⟨hSeqLen, hProducts, hLt, hLength.trans ?_⟩
    simp only [Shape.toList, List.prod_cons, Latent.seqLen, Latent.rowSize, Nat.mul_assoc]

/-- All positions of a decoded latent can be cut out, and make up the latent, if and only if all sizes
on the way are exact; otherwise a product ends the program. They are exact as long as the latent has
layers and positions. In general they are if and only if the sizes of a row and of a block fit. -/
theorem decoded_cut_whole (h : selfDescribing.decode bs = .ok x) :
    (x.narrow 0 x.seqLen = .ok x ↔ x.ExactSizes) ∧
    (¬ x.ExactSizes → x.narrow 0 x.seqLen = .error (.overflow .multiply)) ∧
    x.Copies 0 x.seqLen ∧
    (x.shape.outer ≠ 0 → x.seqLen ≠ 0 → x.ExactSizes) ∧
    (x.ExactSizes ↔ Size.checkedProd x.shape.inner = some x.shape.inner.prod ∧
      x.rowSize < Size.limit ∧ x.seqLen * x.rowSize < Size.limit) := by
  have hMeasured := measured_of_decode h
  refine ⟨⟨fun hNarrow => ?_, hMeasured.narrow_all_eq⟩, hMeasured.narrow_all_overflow,
    hMeasured.copies_all, hMeasured.exactSizes, hMeasured.exactSizes_iff⟩
  by_contra hExact
  rw [hMeasured.narrow_all_overflow hExact] at hNarrow
  cases hNarrow

/-- A record without blanks behind its header. -/
def unpadded (dims : List Nat) (data : Bytes) : Bytes :=
  let header := Utf8.encode (Container.headerChars tensorName .f16 dims data.length)
  Bytes.ofNat 8 header.length ++ header ++ data

theorem decoded_cut_whole_two_layers :
    let x : Latent := ⟨.f16, ⟨2, 1, [1]⟩, [1, 2, 3, 4]⟩
    selfDescribing.decode (unpadded [2, 1, 1] x.data) = .ok x ∧ x.narrow 0 1 = .ok x ∧
      x.ExactSizes := by
  intro x
  have hDecode : selfDescribing.decode (unpadded [2, 1, 1] x.data) = .ok x := by decide +kernel
  obtain ⟨hNarrow, -, -, hLayers, -⟩ := decoded_cut_whole hDecode
  have hExact := hLayers (by decide) (by decide)
  exact ⟨hDecode, hNarrow.mpr hExact, hExact⟩

/-- Blocks of no layer may have any size. The size of one of this record does not fit. -/
theorem block_of_no_layer_overflows :
    let x : Latent := ⟨.f16, ⟨0, 4294967296, [4294967296]⟩, []⟩
    selfDescribing.decode (unpadded [0, 4294967296, 4294967296] []) = .ok x ∧
      x.seqLen * x.rowSize = 36893488147419103232 ∧
      x.narrow 0 4294967296 = .error (.overflow .multiply) ∧ ¬ x.ExactSizes := by
  intro x
  have hDecode : selfDescribing.decode (unpadded [0, 4294967296, 4294967296] []) = .ok x := by
    decide +kernel
  refine ⟨hDecode, by decide, by decide, ?_⟩
  rw [(measured_of_decode hDecode).exactSizes_iff]
  decide

end Codec

end LatentCache
