import LatentCache.Proofs.Latent.Pieces

/-!
# Elements of latents

Elements are counted row by row, the last axis running fastest. Cutting out a range of positions
moves whole elements: the one at some position of the range is the one that stood there before.
-/

namespace LatentCache

/-! ## Multi-indices -/

/-- The number of elements before the one at a multi-index. -/
def rowMajor : List Nat → List Nat → Nat
  | _ :: dims, i :: index => i * dims.prod + rowMajor dims index
  | _, _ => 0

@[simp] theorem rowMajor_cons (n i : Nat) (dims index : List Nat) :
    rowMajor (n :: dims) (i :: index) = i * dims.prod + rowMajor dims index := rfl

theorem rowMajor_lt {dims index : List Nat} (h : List.Forall₂ (· < ·) index dims) :
    rowMajor dims index < dims.prod := by
  induction h with
  | nil => simp [rowMajor]
  | @cons i n index dims hi _ ih =>
    calc
      i * dims.prod + rowMajor dims index < i * dims.prod + dims.prod :=
        Nat.add_lt_add_left ih _
      _ = (i + 1) * dims.prod := (Nat.succ_mul _ _).symm
      _ ≤ n * dims.prod := Nat.mul_le_mul_right _ hi
      _ = (n :: dims).prod := List.prod_cons.symm

/-! ## Bytes of one element -/

theorem Bytes.getElem?_groups {width k : Nat} {bs : Bytes} (hWidth : 0 < width)
    (h : (k + 1) * width ≤ bs.length) :
    (groups width bs)[k]? = some ((bs.drop (k * width)).take width) := by
  have hFull : 0 < width ∧ (bs.take width).length = width := by
    constructor
    · exact hWidth
    · rw [Nat.succ_mul] at h
      rw [List.length_take]
      omega
  induction k generalizing bs with
  | zero => rw [groups, dif_pos hFull, Nat.zero_mul, List.drop_zero, List.getElem?_cons_zero]
  | succ k ih =>
    have hRest := mul_le_length_drop h
    rw [groups, dif_pos hFull, List.getElem?_cons_succ, ih hRest, List.drop_drop, Nat.succ_mul,
      Nat.add_comm]
    rw [Nat.succ_mul] at hRest
    exact ⟨hWidth, by rw [List.length_take]; omega⟩

namespace Latent

/-- A multi-index has one entry for each axis, and each is below the length of its axis. -/
def HasIndex (x : Latent) (index : List Nat) : Prop :=
  List.Forall₂ (· < ·) index x.shape.toList

/-- The bits of the element at a multi-index. -/
def bitsAt? (x : Latent) (index : List Nat) : Option Nat :=
  (x.elements x.type).toOption.bind (·[rowMajor x.shape.toList index]?)

def bytesAt (x : Latent) (index : List Nat) : Bytes :=
  (x.data.drop (rowMajor x.shape.toList index * x.type.width)).take x.type.width

theorem rowMajor_mul_width (x : Latent) (o p : Nat) (index : List Nat) :
    rowMajor x.shape.toList (o :: p :: index) * x.type.width =
      o * (x.seqLen * x.rowSize) +
        (p * x.rowSize + rowMajor x.shape.inner index * x.type.width) := by
  simp only [Shape.toList, rowMajor_cons, List.prod_cons, Nat.add_mul, rowSize, seqLen,
    Nat.mul_assoc]

theorem Sound.bitsAt?_eq {x : Latent} (h : x.Sound) {index : List Nat} (hIndex : x.HasIndex index) :
    x.bitsAt? index = some (Bytes.toNat (x.bytesAt index)) := by
  have hEnd : (rowMajor x.shape.toList index + 1) * x.type.width ≤ x.data.length := by
    rw [h.wellFormed, h.fits.mul_elementCount]
    exact Nat.mul_le_mul_right _ (rowMajor_lt hIndex)
  rw [bitsAt?, elements, if_pos rfl]
  change ((Bytes.groups x.type.width x.data).map Bytes.toNat)[_]? = _
  rw [List.getElem?_map, Bytes.getElem?_groups x.type.width_pos hEnd]
  rfl

/-! ## Cutting out -/

section Slice

variable {x : Latent} {start length o p : Nat} {index : List Nat}

theorem hasIndex_cons_iff : x.HasIndex (o :: p :: index) ↔
    o < x.shape.outer ∧ p < x.seqLen ∧ List.Forall₂ (· < ·) index x.shape.inner := by
  simp [HasIndex, Shape.toList, seqLen]

theorem HasIndex.of_slice (hRange : start + length ≤ x.seqLen)
    (h : (x.slice start length).HasIndex (o :: p :: index)) :
    x.HasIndex (o :: (start + p) :: index) := by
  obtain ⟨ho, hp, hInner⟩ := hasIndex_cons_iff.mp h
  rw [seqLen_slice] at hp
  exact hasIndex_cons_iff.mpr ⟨ho, by omega, hInner⟩

theorem bytesAt_slice (h : x.Sound) (hRange : start + length ≤ x.seqLen)
    (hIndex : (x.slice start length).HasIndex (o :: p :: index)) :
    (x.slice start length).bytesAt (o :: p :: index) = x.bytesAt (o :: (start + p) :: index) := by
  obtain ⟨ho, hp, hInner⟩ := hasIndex_cons_iff.mp hIndex
  have hElement : rowMajor x.shape.inner index * x.type.width + x.type.width ≤ x.rowSize := by
    rw [← Nat.succ_mul]
    exact Nat.mul_le_mul_right _ (rowMajor_lt hInner)
  have hPiece : p * x.rowSize + rowMajor x.shape.inner index * x.type.width + x.type.width ≤
      length * x.rowSize := by
    have hRow : (p + 1) * x.rowSize ≤ length * x.rowSize := Nat.mul_le_mul_right _ hp
    rw [Nat.succ_mul] at hRow
    omega
  have hBlock : start * x.rowSize + length * x.rowSize ≤ x.seqLen * x.rowSize := by
    rw [← Nat.add_mul]
    exact Nat.mul_le_mul_right _ hRange
  rw [bytesAt, bytesAt, rowMajor_mul_width, rowMajor_mul_width, Nat.add_mul, Nat.add_assoc]
  exact take_drop_sliceBlocks ho hPiece hBlock h.length_data.ge

end Slice

/-- A range of positions that is cut out has the rows of the whole, and its elements are those of
the whole at these positions, bit by bit. So a range of a range is a range of the whole. -/
theorem narrow_selects {x : Latent} (h : x.Sound) {start length : Nat}
    (hRange : start + length ≤ x.seqLen) :
    ∃ y, x.narrow start length = .ok y ∧ y.type = x.type ∧
      y.shape.toList = x.shape.outer :: length :: x.shape.inner ∧ y.WellFormed ∧
      (∀ o p index, y.HasIndex (o :: p :: index) →
        x.HasIndex (o :: (start + p) :: index) ∧
          ∃ bits, y.bitsAt? (o :: p :: index) = some bits ∧
            x.bitsAt? (o :: (start + p) :: index) = some bits) ∧
      ∀ skip count, skip + count ≤ length →
        ∃ z, y.narrow skip count = .ok z ∧ x.narrow (start + skip) count = .ok z := by
  have hSlice := h.slice hRange
  refine ⟨x.slice start length, narrow_eq h.fits hRange, rfl, rfl, hSlice.wellFormed, ?_, ?_⟩
  · intro o p index hIndex
    have hWhole := hIndex.of_slice hRange
    refine ⟨hWhole, _, hSlice.bitsAt?_eq hIndex, ?_⟩
    rw [h.bitsAt?_eq hWhole, bytesAt_slice h hRange hIndex]
  · intro skip count hCount
    refine ⟨_, narrow_eq hSlice.fits hCount, ?_⟩
    rw [slice_slice h hCount hRange]
    exact narrow_eq h.fits (by omega)

theorem narrow_selects_middle :
    let x : Latent := ⟨.f16, ⟨2, 3, [2]⟩, [0, 0, 1, 0, 2, 0, 3, 0, 4, 0, 5, 0, 6, 0, 7, 0, 8, 0, 9, 0,
      10, 0, 11, 0]⟩
    ∃ y, x.narrow 1 1 = .ok y ∧ y.shape.toList = [2, 1, 2] ∧
      y.bitsAt? [1, 0, 1] = some 9 ∧ x.bitsAt? [1, 1, 1] = some 9 := by
  intro x
  have hSound : x.Sound := ⟨by decide, by decide⟩
  obtain ⟨y, hNarrow, -, hShape, -, hBits, -⟩ :=
    narrow_selects hSound (show 1 + 1 ≤ x.seqLen by decide)
  have hIndex : y.HasIndex [1, 0, 1] := by
    rw [HasIndex, hShape]
    decide
  obtain ⟨hWhole, bits, hRange, hAt⟩ := hBits 1 0 [1] hIndex
  have hNine : x.bitsAt? [1, 1 + 0, 1] = some 9 := (hSound.bitsAt?_eq hWhole).trans (by decide)
  obtain rfl : 9 = bits := Option.some.inj (hNine.symm.trans hAt)
  exact ⟨y, hNarrow, hShape, hRange, hNine⟩

end Latent

end LatentCache
