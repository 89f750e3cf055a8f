import LatentCache.Latent.Sequence
import Mathlib.Algebra.BigOperators.Group.List.Lemmas
import Mathlib.Algebra.Order.Group.Nat

/-!
# Exact sizes

Sizes that do not fit in 64 bits end the program or are reduced. All of them are the exact ones where
the dimensions that are not zero, multiplied with each other and with the width of an element, stay
below `2 ^ 64`.
-/

namespace LatentCache

namespace Size

theorem zero_mul (n : Nat) : mul 0 n = 0 := by rw [mul, Nat.zero_mul, Nat.zero_mod]

theorem foldl_mul (sizes : List Nat) {a : Nat} (ha : a < limit) :
    sizes.foldl mul a = a * sizes.prod % limit := by
  induction sizes generalizing a with
  | nil => simpa using (Nat.mod_eq_of_lt ha).symm
  | cons n sizes ih =>
    rw [List.foldl_cons, ih (mul_lt a n), mul, List.prod_cons, ← Nat.mul_assoc, Nat.mod_mul_mod]

theorem prod_eq {sizes : List Nat} (h : sizes.prod < limit) : prod sizes = sizes.prod := by
  rw [prod, foldl_mul sizes (by decide), Nat.one_mul, Nat.mod_eq_of_lt h]

/-- The product of the sizes that are not zero. -/
def nonzeroProd (sizes : List Nat) : Nat := (sizes.filter (· ≠ 0)).prod

theorem nonzeroProd_cons (n : Nat) (sizes : List Nat) :
    nonzeroProd (n :: sizes) = (if n = 0 then 1 else n) * nonzeroProd sizes := by
  by_cases hn : n = 0 <;> simp [nonzeroProd, hn]

theorem nonzeroProd_pos (sizes : List Nat) : 0 < nonzeroProd sizes := by
  induction sizes with
  | nil => exact Nat.one_pos
  | cons n sizes ih =>
    rw [nonzeroProd_cons]
    exact Nat.mul_pos (by split <;> omega) ih

theorem nonzeroProd_le_cons (n : Nat) (sizes : List Nat) :
    nonzeroProd sizes ≤ nonzeroProd (n :: sizes) := by
  rw [nonzeroProd_cons]
  exact Nat.le_mul_of_pos_left _ (by split <;> omega)

theorem mul_nonzeroProd_le (n : Nat) (sizes : List Nat) :
    n * nonzeroProd sizes ≤ nonzeroProd (n :: sizes) := by
  rw [nonzeroProd_cons]
  exact Nat.mul_le_mul_right _ (by split <;> omega)

theorem prod_le_nonzeroProd (sizes : List Nat) : sizes.prod ≤ nonzeroProd sizes := by
  induction sizes with
  | nil => exact Nat.le_refl _
  | cons n sizes ih =>
    exact (Nat.mul_le_mul_left n ih).trans (mul_nonzeroProd_le n sizes)

theorem nonzeroProd_eq_prod {sizes : List Nat} (h : sizes.prod ≠ 0) :
    nonzeroProd sizes = sizes.prod := by
  induction sizes with
  | nil => rfl
  | cons n sizes ih =>
    rw [List.prod_cons] at h
    obtain ⟨hn, hSizes⟩ := Nat.mul_ne_zero_iff.mp h
    rw [nonzeroProd_cons, if_neg hn, ih hSizes, List.prod_cons]

theorem le_nonzeroProd_of_mem {n : Nat} {sizes : List Nat} (h : n ∈ sizes) :
    n ≤ nonzeroProd sizes := by
  induction sizes with
  | nil => cases h
  | cons m sizes ih =>
    rcases List.mem_cons.mp h with rfl | h
    · exact (Nat.le_mul_of_pos_right n (nonzeroProd_pos sizes)).trans (mul_nonzeroProd_le n sizes)
    · exact (ih h).trans (nonzeroProd_le_cons m sizes)

theorem nonzeroProd_take_le (sizes : List Nat) (k : Nat) :
    nonzeroProd (sizes.take k) ≤ nonzeroProd sizes := by
  conv_rhs => rw [← List.take_append_drop k sizes]
  rw [nonzeroProd, nonzeroProd, List.filter_append, List.prod_append]
  exact Nat.le_mul_of_pos_right _ (nonzeroProd_pos (sizes.drop k))

theorem foldlM_checked (sizes : List Nat) {a n : Nat} (ha : a < limit) :
    sizes.foldlM (fun acc n => if acc * n < limit then some (acc * n) else none) a = some n ↔
      n = a * sizes.prod ∧ ∀ k, a * (sizes.take k).prod < limit := by
  induction sizes generalizing a with
  | nil => simp [ha, eq_comm]
  | cons size sizes ih =>
    rw [List.foldlM_cons]
    by_cases hNext : a * size < limit
    · rw [if_pos hNext, Option.bind_eq_bind, Option.bind_some, ih hNext, List.prod_cons,
        ← Nat.mul_assoc]
      refine and_congr_right fun _ => ⟨fun h k => ?_, fun h k => ?_⟩
      · cases k with
        | zero => simpa using ha
        | succ k =>
          rw [List.take_succ_cons, List.prod_cons, ← Nat.mul_assoc]
          exact h k
      · have hLonger := h (k + 1)
        rwa [List.take_succ_cons, List.prod_cons, ← Nat.mul_assoc] at hLonger
    · rw [if_neg hNext]
      refine iff_of_false (by simp) ?_
      rintro ⟨-, h⟩
      exact hNext (by simpa using h 1)

/-- The checked product is the exact one, and no product of the first sizes is too large. -/
theorem checkedProd_eq_some_iff {sizes : List Nat} {n : Nat} :
    checkedProd sizes = some n ↔ n = sizes.prod ∧ ∀ k, (sizes.take k).prod < limit := by
  simpa only [checkedProd, Nat.one_mul] using foldlM_checked sizes (by decide : 1 < limit)

theorem checkedProd_eq {sizes : List Nat} (h : nonzeroProd sizes < limit) :
    checkedProd sizes = some sizes.prod :=
  checkedProd_eq_some_iff.mpr ⟨rfl, fun k =>
    ((prod_le_nonzeroProd _).trans (nonzeroProd_take_le sizes k)).trans_lt h⟩

/-! ## Checked operations one after another -/

section Bind

variable {α : Type}

theorem add?_bind (a b : Nat) (f : Nat → Except Overflow α) :
    (add? a b >>= f) = if a + b < limit then f (a + b) else .error .add := by
  rw [add?]
  split <;> rfl

theorem mul?_bind (a b : Nat) (f : Nat → Except Overflow α) :
    (mul? a b >>= f) = if a * b < limit then f (a * b) else .error .multiply := by
  rw [mul?]
  split <;> rfl

theorem prod?_bind (sizes : List Nat) (f : Nat → Except Overflow α) :
    (prod? sizes >>= f) =
      if checkedProd sizes = some sizes.prod then f sizes.prod else .error .multiply := by
  rw [prod?]
  cases hProd : checkedProd sizes with
  | none => rfl
  | some n =>
    obtain ⟨rfl, -⟩ := checkedProd_eq_some_iff.mp hProd
    rw [if_pos rfl]
    rfl

end Bind

end Size

namespace Latent

/-- The data have the length that the shape and the element type ask for. -/
def WellFormed (x : Latent) : Prop := x.data.length = Size.mul x.elementCount x.type.width

instance (x : Latent) : Decidable x.WellFormed := inferInstanceAs (Decidable (_ = _))

/-- The sizes of a latent fit in 64 bits, also those of the axes beside an empty one. -/
def Fits (x : Latent) : Prop := Size.nonzeroProd x.shape.toList * x.type.width < Size.limit

instance (x : Latent) : Decidable x.Fits := inferInstanceAs (Decidable (_ < _))

def rowSize (x : Latent) : Nat := x.shape.inner.prod * x.type.width

theorem inner_prod_le (x : Latent) : x.shape.inner.prod ≤ Size.nonzeroProd x.shape.toList :=
  (Size.prod_le_nonzeroProd _).trans
    ((Size.nonzeroProd_le_cons x.shape.seqLen _).trans (Size.nonzeroProd_le_cons x.shape.outer _))

theorem block_prod_le (x : Latent) :
    x.seqLen * x.shape.inner.prod ≤ Size.nonzeroProd x.shape.toList :=
  (Size.prod_le_nonzeroProd (x.shape.seqLen :: x.shape.inner)).trans
    (Size.nonzeroProd_le_cons x.shape.outer _)

theorem positions_le (x : Latent) :
    x.shape.outer * x.seqLen ≤ Size.nonzeroProd x.shape.toList := by
  have hSeqLen : x.seqLen ≤ Size.nonzeroProd (x.shape.seqLen :: x.shape.inner) :=
    Size.le_nonzeroProd_of_mem List.mem_cons_self
  exact (Nat.mul_le_mul_left _ hSeqLen).trans (Size.mul_nonzeroProd_le _ _)

section Fits

variable {x : Latent} (h : x.Fits)
include h

theorem Fits.nonzeroProd_lt : Size.nonzeroProd x.shape.toList < Size.limit :=
  (Nat.le_mul_of_pos_right _ x.type.width_pos).trans_lt h

theorem Fits.dim_lt {n : Nat} (hn : n ∈ x.shape.toList) : n < Size.limit :=
  (Size.le_nonzeroProd_of_mem hn).trans_lt h.nonzeroProd_lt

theorem Fits.seqLen_lt : x.seqLen < Size.limit := h.dim_lt (by simp [Shape.toList, seqLen])

theorem Fits.mul_width_lt {n : Nat} (hn : n ≤ Size.nonzeroProd x.shape.toList) :
    n * x.type.width < Size.limit := (Nat.mul_le_mul_right _ hn).trans_lt h

theorem Fits.rowSize_lt : x.rowSize < Size.limit := h.mul_width_lt x.inner_prod_le

theorem Fits.blockSize_lt : x.seqLen * x.rowSize < Size.limit := by
  rw [rowSize, ← Nat.mul_assoc]
  exact h.mul_width_lt x.block_prod_le

theorem Fits.rowBytes_eq : x.rowBytes = x.rowSize := by
  have hProd : Size.prod x.shape.inner = x.shape.inner.prod :=
    Size.prod_eq ((Nat.le_mul_of_pos_right _ x.type.width_pos).trans_lt h.rowSize_lt)
  rw [rowBytes, hProd]
  exact Size.mul_eq h.rowSize_lt

theorem Fits.blockBytes_eq : x.blockBytes = x.seqLen * x.rowSize := by
  rw [blockBytes, h.rowBytes_eq]
  exact Size.mul_eq h.blockSize_lt

theorem Fits.prod_mul_width_lt : x.shape.toList.prod * x.type.width < Size.limit :=
  h.mul_width_lt (Size.prod_le_nonzeroProd _)

theorem Fits.elementCount_eq : x.elementCount = x.shape.toList.prod :=
  Size.prod_eq ((Nat.le_mul_of_pos_right _ x.type.width_pos).trans_lt h.prod_mul_width_lt)

theorem Fits.mul_elementCount : Size.mul x.elementCount x.type.width =
    x.shape.toList.prod * x.type.width := by
  rw [h.elementCount_eq]
  exact Size.mul_eq h.prod_mul_width_lt

theorem Fits.length_lt : x.shape.outer * (x.seqLen * x.rowSize) < Size.limit := by
  have hSize := h.prod_mul_width_lt
  simp only [Shape.toList, List.prod_cons, Nat.mul_assoc] at hSize
  exact hSize

theorem Fits.wellFormed_iff :
    x.WellFormed ↔ x.data.length = x.shape.outer * (x.seqLen * x.rowSize) := by
  rw [WellFormed, h.mul_elementCount, rowSize]
  simp only [Shape.toList, List.prod_cons, seqLen, Nat.mul_assoc]

end Fits

/-- Where there are bytes, no axis is empty, so that the number of bytes bounds all sizes. -/
theorem fits_of_length {x : Latent}
    (hLength : x.data.length = x.shape.outer * (x.seqLen * x.rowSize))
    (hLimit : x.data.length < Size.limit) (hSome : x.data ≠ []) : x.Fits := by
  have hProd : x.data.length = x.shape.toList.prod * x.type.width := by
    rw [hLength]
    simp only [Shape.toList, List.prod_cons, seqLen, rowSize, Nat.mul_assoc]
  have hNonzero : x.shape.toList.prod ≠ 0 := by
    intro hZero
    rw [hZero, Nat.zero_mul] at hProd
    exact hSome (List.length_eq_zero_iff.mp hProd)
  rw [Fits, Size.nonzeroProd_eq_prod hNonzero, ← hProd]
  exact hLimit

theorem Fits.of_seqLen_le {x y : Latent} (h : x.Fits) (hRows : x.Compatible y)
    (hLen : y.seqLen ≤ x.seqLen) : y.Fits := by
  obtain ⟨hType, hOuter, hInner⟩ := hRows
  unfold Fits at h ⊢
  refine (Nat.mul_le_mul_right _ ?_).trans_lt (hType ▸ h)
  rw [Shape.toList, Shape.toList, hOuter, hInner]
  simp only [Size.nonzeroProd_cons]
  refine Nat.mul_le_mul_left _ (Nat.mul_le_mul_right _ ?_)
  change y.shape.seqLen ≤ x.shape.seqLen at hLen
  split <;> split <;> omega

end Latent

end LatentCache
