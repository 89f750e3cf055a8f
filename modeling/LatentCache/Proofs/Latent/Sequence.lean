import LatentCache.Proofs.Latent.Blocks
import LatentCache.Proofs.Latent.Extent
import Mathlib.Algebra.BigOperators.Ring.List
import Mathlib.Algebra.Ring.Nat

/-!
# Slices and joins of latents

`Latent.slice` and `Latent.join` are cutting out and joining in exact arithmetic. The operations
agree with them on well-formed latents whose sizes fit, and joining consecutive slices gives one
longer slice.
-/

namespace LatentCache

namespace Size

theorem foldl_add {α : Type} (f : α → Nat) (xs : List α) {a : Nat}
    (h : a + (xs.map f).sum < limit) :
    xs.foldl (fun acc x => add acc (f x)) a = a + (xs.map f).sum := by
  induction xs generalizing a with
  | nil => rfl
  | cons x xs ih =>
    rw [List.map_cons, List.sum_cons] at h
    rw [List.foldl_cons, List.map_cons, List.sum_cons, add_eq (by omega), ih (by omega)]
    omega

end Size

theorem interleaveBlocks_singleton {count width : Nat} {data : Bytes}
    (h : data.length = count * width) : interleaveBlocks count [(width, data)] = data := by
  have hSlices : interleaveBlocks count (slicesFrom count width data 0 [width]) = _ :=
    interleaveBlocks_slicesFrom (by simp) (by omega)
  simpa [slicesFrom, sliceBlocks_all h] using hSlices

theorem interleaveBlocks_eq_nil {count : Nat} {parts : List (Nat × Bytes)}
    (h : ∀ part ∈ parts, part.1 = 0) : interleaveBlocks count parts = [] := by
  induction count generalizing parts with
  | zero => rfl
  | succ count ih =>
    have hTake : parts.flatMap (fun part => part.2.take part.1) = [] := by
      rw [List.flatMap_eq_nil_iff]
      intro part hPart
      rw [h part hPart, List.take_zero]
    have hRest : ∀ part ∈ parts.map (fun part => (part.1, part.2.drop part.1)), part.1 = 0 := by
      intro part hPart
      obtain ⟨whole, hWhole, rfl⟩ := List.mem_map.mp hPart
      exact h whole hWhole
    rw [interleaveBlocks, hTake, ih hRest, List.append_nil]

namespace Latent

/-- The data fill the shape, and all sizes are exact. -/
structure Sound (x : Latent) : Prop where
  fits : x.Fits
  wellFormed : x.WellFormed

theorem Sound.length_data {x : Latent} (h : x.Sound) :
    x.data.length = x.shape.outer * (x.seqLen * x.rowSize) := h.fits.wellFormed_iff.mp h.wellFormed

/-- The data fill the shape, and the sizes of rows and blocks are exact. Other sizes may wrap, as
those of a latent without layers do. -/
structure Exact (x : Latent) : Prop where
  row : x.rowBytes = x.rowSize
  block : x.shape.outer = 0 ∨ x.seqLen * x.rowSize < Size.limit
  length_data : x.data.length = x.shape.outer * (x.seqLen * x.rowSize)

theorem Sound.exact {x : Latent} (h : x.Sound) : x.Exact :=
  ⟨h.fits.rowBytes_eq, .inr h.fits.blockSize_lt, h.length_data⟩

theorem Compatible.refl (x : Latent) : x.Compatible x := ⟨rfl, rfl, rfl⟩

theorem Compatible.symm {x y : Latent} (h : x.Compatible y) : y.Compatible x :=
  ⟨h.1.symm, h.2.1.symm, h.2.2.symm⟩

theorem Compatible.trans {x y z : Latent} (h : x.Compatible y) (hNext : y.Compatible z) :
    x.Compatible z := ⟨h.1.trans hNext.1, h.2.1.trans hNext.2.1, h.2.2.trans hNext.2.2⟩

theorem Compatible.rowSize_eq {x y : Latent} (h : x.Compatible y) : y.rowSize = x.rowSize := by
  rw [rowSize, rowSize, h.1, h.2.2]

/-! ## Cutting out -/

/-- The positions `start`, `start + 1`, … of a latent, `length` of them. -/
def slice (x : Latent) (start length : Nat) : Latent :=
  ⟨x.type, x.shape.withSeqLen length,
    sliceBlocks x.shape.outer (x.seqLen * x.rowSize) (start * x.rowSize) (length * x.rowSize)
      x.data⟩

@[simp] theorem seqLen_slice (x : Latent) (start length : Nat) :
    (x.slice start length).seqLen = length := rfl

theorem compatible_slice (x : Latent) (start length : Nat) :
    x.Compatible (x.slice start length) := ⟨rfl, rfl, rfl⟩

/-- The sizes with which `length` positions are cut out fit, also those beside which there is nothing
to copy. -/
structure SizesFit (x : Latent) (length : Nat) : Prop where
  products : Size.checkedProd x.shape.inner = some x.shape.inner.prod
  row : x.rowSize < Size.limit
  block : x.seqLen * x.rowSize < Size.limit
  positions : x.shape.outer * length < Size.limit
  room : x.shape.outer * length * x.rowSize < Size.limit

theorem Fits.sizesFit {x : Latent} (h : x.Fits) {length : Nat} (hLength : length ≤ x.seqLen) :
    x.SizesFit length := by
  have hOuter := Nat.mul_le_mul_left x.shape.outer hLength
  have hInner : Size.nonzeroProd x.shape.inner < Size.limit :=
    ((Size.nonzeroProd_le_cons x.shape.seqLen _).trans
      (Size.nonzeroProd_le_cons x.shape.outer _)).trans_lt h.nonzeroProd_lt
  have hPositions : x.shape.outer * x.seqLen < Size.limit :=
    (x.positions_le).trans_lt h.nonzeroProd_lt
  refine ⟨Size.checkedProd_eq hInner, h.rowSize_lt, h.blockSize_lt, hOuter.trans_lt hPositions, ?_⟩
  refine (Nat.mul_le_mul_right x.rowSize hOuter).trans_lt ?_
  rw [Nat.mul_assoc]
  exact h.length_lt

theorem slice_all {x : Latent} (h : x.data.length = x.shape.outer * (x.seqLen * x.rowSize)) :
    x.slice 0 x.seqLen = x := by
  rw [slice, Nat.zero_mul, sliceBlocks_all h]
  rfl

theorem rowBytes_of_checkedProd {x : Latent}
    (hProducts : Size.checkedProd x.shape.inner = some x.shape.inner.prod)
    (hRow : x.rowSize < Size.limit) : x.rowBytes = x.rowSize := by
  have hInner := (Size.checkedProd_eq_some_iff.mp hProducts).2 x.shape.inner.length
  rw [List.take_length] at hInner
  rw [rowBytes, Size.prod_eq hInner]
  exact Size.mul_eq hRow

theorem copied_eq (x : Latent) (w : Window) :
    x.copied w = sliceBlocks x.shape.outer w.stride w.skip w.width x.data := by
  rw [copied]
  split
  · next hWidth => rw [hWidth, sliceBlocks_width_zero]
  · rfl

section Range

variable {x : Latent} {start length : Nat}

theorem SizesFit.measure?_eq (h : x.SizesFit length) :
    x.measure? length = .ok (x.rowSize, x.seqLen * x.rowSize) := by
  have hRow : x.shape.inner.prod * x.type.width = x.rowSize := rfl
  simp only [measure?, Size.prod?_bind, Size.mul?_bind, hRow, h.products, h.row, h.block,
    h.positions, h.room, if_true]
  rfl

theorem measure?_eq_error (h : ¬ x.SizesFit length) : x.measure? length = .error .multiply := by
  simp only [measure?, Size.prod?_bind, Size.mul?_bind]
  split_ifs with hProducts hRow hBlock hPositions hRoom
  · exact absurd ⟨hProducts, hRow, hBlock, hPositions, hRoom⟩ h
  all_goals rfl

/-- The window of every block ends within all the blocks. -/
theorem stop_le (hRange : start + length ≤ x.seqLen) {o : Nat} (ho : o < x.shape.outer) :
    o * (x.seqLen * x.rowSize) + start * x.rowSize + length * x.rowSize ≤
      x.shape.outer * (x.seqLen * x.rowSize) :=
  calc
    _ = o * (x.seqLen * x.rowSize) + (start + length) * x.rowSize := by
      rw [Nat.add_mul, Nat.add_assoc]
    _ ≤ o * (x.seqLen * x.rowSize) + x.seqLen * x.rowSize :=
      Nat.add_le_add_left (Nat.mul_le_mul_right _ hRange) _
    _ = (o + 1) * (x.seqLen * x.rowSize) := (Nat.succ_mul _ _).symm
    _ ≤ x.shape.outer * (x.seqLen * x.rowSize) := Nat.mul_le_mul_right _ ho

theorem SizesFit.window?_eq (h : x.SizesFit length) (hRange : start + length ≤ x.seqLen)
    (hBlocks : x.shape.outer * (x.seqLen * x.rowSize) < Size.limit) :
    ∃ w, x.window? start length = .ok w ∧ x.copied w = (x.slice start length).data := by
  rw [window?, h.measure?_eq]
  cases hOuter : x.shape.outer with
  | zero =>
    refine ⟨_, rfl, ?_⟩
    rw [copied_eq, slice, hOuter]
    rfl
  | succ last =>
    -- The bounds of the last block are the greatest ones.
    have hLayer : last < x.shape.outer := by omega
    have hStop := (stop_le hRange hLayer).trans_lt hBlocks
    have hStart := (Nat.le_add_right _ _).trans_lt hStop
    have hLast := (Nat.le_add_right _ _).trans_lt hStart
    have hSkip := (Nat.le_add_left _ _).trans_lt hStart
    have hWidth := (Nat.le_add_left _ _).trans_lt hStop
    refine ⟨⟨x.seqLen * x.rowSize, start * x.rowSize, length * x.rowSize⟩, ?_, copied_eq _ _⟩
    refine (Size.mul?_bind _ _ _).trans ?_
    simp only [Size.mul?_bind, Size.add?_bind, hSkip, hWidth, hLast, hStart, hStop, if_true]
    rfl

theorem window?_eq_error (h : ¬ x.SizesFit length) :
    x.window? start length = .error .multiply := by
  rw [window?, measure?_eq_error h]
  rfl

theorem narrow_of_le (hRange : start + length ≤ x.seqLen) (hLimit : x.seqLen < Size.limit) :
    x.narrow start length = match x.window? start length with
      | .ok w => .ok ⟨x.type, x.shape.withSeqLen length, x.copied w⟩
      | .error o => .error (.overflow o) := by
  rw [narrow, Size.add?_eq (hRange.trans_lt hLimit)]
  simp only [Except.mapError, bind, Except.bind, if_neg (Nat.not_lt_of_le hRange)]
  cases x.window? start length <;> rfl

theorem narrow_of_gt (hRange : x.seqLen < start + length) (hLimit : start + length < Size.limit) :
    x.narrow start length = .error (.outOfRange start length x.seqLen) := by
  rw [narrow, Size.add?_eq hLimit]
  simp only [Except.mapError, bind, Except.bind, if_pos hRange]
  rfl

theorem narrow_of_limit_le (hLimit : Size.limit ≤ start + length) :
    x.narrow start length = .error (.overflow .add) := by
  rw [narrow, Size.add?_eq_error hLimit]
  rfl

theorem le_seqLen_of_narrow {y : Latent} (h : x.narrow start length = .ok y) :
    start + length ≤ x.seqLen := by
  by_contra hRange
  rcases Nat.lt_or_ge (start + length) Size.limit with hLimit | hLimit
  · rw [narrow_of_gt (Nat.lt_of_not_le hRange) hLimit] at h
    cases h
  · rw [narrow_of_limit_le hLimit] at h
    cases h

theorem SizesFit.narrow_eq (h : x.SizesFit length) (hRange : start + length ≤ x.seqLen)
    (hLimit : x.seqLen < Size.limit)
    (hBlocks : x.shape.outer * (x.seqLen * x.rowSize) < Size.limit) :
    x.narrow start length = .ok (x.slice start length) := by
  obtain ⟨w, hWindow, hCopied⟩ := h.window?_eq hRange hBlocks
  rw [narrow_of_le hRange hLimit, hWindow]
  dsimp only
  rw [hCopied]
  rfl

theorem narrow_eq_overflow (h : ¬ x.SizesFit length) (hRange : start + length ≤ x.seqLen)
    (hLimit : x.seqLen < Size.limit) :
    x.narrow start length = .error (.overflow .multiply) := by
  rw [narrow_of_le hRange hLimit, window?_eq_error h]

theorem narrow_eq (hFits : x.Fits) (hRange : start + length ≤ x.seqLen) :
    x.narrow start length = .ok (x.slice start length) :=
  (hFits.sizesFit ((Nat.le_add_left _ _).trans hRange)).narrow_eq hRange hFits.seqLen_lt
    hFits.length_lt

/-- Cutting out a range gives `y`. Only where a latent has no bytes, but sizes that do not fit, may a
product end the program instead. -/
def CutsTo (x : Latent) (start length : Nat) (y : Latent) : Prop :=
  x.narrow start length = .ok y ∨
    x.data = [] ∧ ¬ x.Fits ∧ x.narrow start length = .error (.overflow .multiply)

theorem CutsTo.narrow_eq {y : Latent} (h : x.CutsTo start length y) (hFits : x.Fits) :
    x.narrow start length = .ok y := h.resolve_right fun hOverflow => hOverflow.2.1 hFits

theorem cutsTo_slice (hRange : start + length ≤ x.seqLen) (hSeqLen : x.seqLen < Size.limit)
    (hLength : x.data.length = x.shape.outer * (x.seqLen * x.rowSize))
    (hData : x.data.length < Size.limit) : x.CutsTo start length (x.slice start length) := by
  by_cases hFits : x.Fits
  · exact .inl (narrow_eq hFits hRange)
  · have hEmpty : x.data = [] := by
      by_contra hSome
      exact hFits (fits_of_length hLength hData hSome)
    by_cases hSizes : x.SizesFit length
    · exact .inl (hSizes.narrow_eq hRange hSeqLen (hLength ▸ hData))
    · exact .inr ⟨hEmpty, hFits, narrow_eq_overflow hSizes hRange hSeqLen⟩

end Range

theorem Sound.slice {x : Latent} (h : x.Sound) {start length : Nat}
    (hRange : start + length ≤ x.seqLen) : (x.slice start length).Sound := by
  have hFits : (x.slice start length).Fits :=
    h.fits.of_seqLen_le (compatible_slice x start length) (by simp; omega)
  refine ⟨hFits, hFits.wellFormed_iff.mpr (length_sliceBlocks ?_ h.length_data.ge)⟩
  rw [← Nat.add_mul]
  exact Nat.mul_le_mul_right _ hRange

theorem slice_slice {x : Latent} (h : x.Sound) {skip width start length : Nat}
    (hLength : start + length ≤ width) (hWidth : skip + width ≤ x.seqLen) :
    (x.slice skip width).slice start length = x.slice (skip + start) length := by
  have hBytes : sliceBlocks x.shape.outer (width * x.rowSize) (start * x.rowSize)
      (length * x.rowSize) (x.slice skip width).data =
        sliceBlocks x.shape.outer (x.seqLen * x.rowSize) ((skip + start) * x.rowSize)
          (length * x.rowSize) x.data := by
    rw [Nat.add_mul]
    refine sliceBlocks_sliceBlocks ?_ ?_ h.length_data.ge
    · rw [← Nat.add_mul]
      exact Nat.mul_le_mul_right _ hLength
    · rw [← Nat.add_mul]
      exact Nat.mul_le_mul_right _ hWidth
  exact congrArg (Latent.mk x.type (x.shape.withSeqLen length)) hBytes

/-! ## Joining -/

def blocks (x : Latent) : Nat × Bytes := (x.seqLen * x.rowSize, x.data)

/-- The latents of a list one after another, all with the rows of `first`. -/
def join (first : Latent) (parts : List Latent) : Latent :=
  ⟨first.type, first.shape.withSeqLen (parts.map seqLen).sum,
    interleaveBlocks first.shape.outer (parts.map blocks)⟩

@[simp] theorem seqLen_join (first : Latent) (parts : List Latent) :
    (first.join parts).seqLen = (parts.map seqLen).sum := rfl

theorem compatible_join (first : Latent) (parts : List Latent) :
    first.Compatible (first.join parts) := ⟨rfl, rfl, rfl⟩

theorem join_congr {first other : Latent} (h : first.Compatible other) (parts : List Latent) :
    other.join parts = first.join parts := by
  obtain ⟨hType, hOuter, hInner⟩ := h
  rw [join, join, Shape.withSeqLen, Shape.withSeqLen, hType, hOuter, hInner]

theorem join_singleton {first x : Latent} (hRows : first.Compatible x) (h : x.Exact) :
    first.join [x] = x := by
  rw [← join_congr hRows, join, List.map_singleton, List.map_singleton, blocks,
    interleaveBlocks_singleton h.length_data]
  rfl

theorem blocks_haveBlocks {first : Latent} {parts : List Latent}
    (h : ∀ x ∈ parts, first.Compatible x ∧ x.Sound) :
    HaveBlocks first.shape.outer (parts.map blocks) := by
  intro part hPart
  obtain ⟨x, hx, rfl⟩ := List.mem_map.mp hPart
  obtain ⟨⟨-, hOuter, -⟩, hSound⟩ := h x hx
  rw [blocks, hOuter]
  exact hSound.length_data

theorem sum_blocks {first : Latent} {parts : List Latent} (h : ∀ x ∈ parts, first.Compatible x) :
    ((parts.map blocks).map (·.1)).sum = (parts.map seqLen).sum * first.rowSize := by
  induction parts with
  | nil => simp
  | cons x parts ih =>
    have hRow := (h x List.mem_cons_self).rowSize_eq
    have hRest := ih fun y hy => h y (List.mem_cons_of_mem _ hy)
    simp only [List.map_cons, List.sum_cons, hRest, blocks, hRow, Nat.add_mul]

theorem blocks_join {first : Latent} {parts : List Latent}
    (h : ∀ x ∈ parts, first.Compatible x) :
    (first.join parts).blocks = joinBlocks first.shape.outer (parts.map blocks) := by
  rw [joinBlocks, sum_blocks h]
  rfl

theorem length_data_join {first : Latent} {parts : List Latent}
    (h : ∀ x ∈ parts, first.Compatible x ∧ x.Sound) :
    (first.join parts).data.length =
      first.shape.outer * ((parts.map seqLen).sum * first.rowSize) := by
  rw [← sum_blocks fun x hx => (h x hx).1]
  exact (blocks_haveBlocks h).length_interleaveBlocks

theorem Sound.join {first : Latent} {parts : List Latent}
    (h : ∀ x ∈ parts, first.Compatible x ∧ x.Sound) (hFits : (first.join parts).Fits) :
    (first.join parts).Sound := ⟨hFits, hFits.wellFormed_iff.mpr (length_data_join h)⟩

theorem sum_seqLen_joins (first : Latent) (groups : List (List Latent)) :
    ((groups.map first.join).map seqLen).sum = (groups.flatten.map seqLen).sum := by
  rw [List.map_flatten, List.sum_flatten, List.map_map, List.map_map]
  rfl

theorem join_flatten {first : Latent} {groups : List (List Latent)}
    (h : ∀ parts ∈ groups, ∀ x ∈ parts, first.Compatible x ∧ x.Sound) :
    first.join groups.flatten = first.join (groups.map first.join) := by
  have hBlocks : (groups.map first.join).map blocks =
      (groups.map (List.map blocks)).map (joinBlocks first.shape.outer) := by
    rw [List.map_map, List.map_map]
    exact List.map_congr_left fun parts hParts => blocks_join fun x hx => (h parts hParts x hx).1
  rw [join, join, sum_seqLen_joins, hBlocks, List.map_flatten (f := blocks),
    interleaveBlocks_flatten]
  intro parts hParts
  obtain ⟨whole, hWhole, rfl⟩ := List.mem_map.mp hParts
  exact blocks_haveBlocks (h whole hWhole)

theorem join_append {first : Latent} {parts others : List Latent}
    (hParts : ∀ x ∈ parts, first.Compatible x ∧ x.Sound)
    (hOthers : ∀ x ∈ others, first.Compatible x ∧ x.Sound) :
    first.join (parts ++ others) = first.join [first.join parts, first.join others] := by
  have hGroups : ∀ group ∈ [parts, others], ∀ x ∈ group, first.Compatible x ∧ x.Sound := by
    intro group hGroup
    rcases List.mem_pair.mp hGroup with rfl | rfl
    · exact hParts
    · exact hOthers
  simpa using join_flatten hGroups

/-- Some of the latents that were joined are where they were joined. -/
theorem slice_join {first : Latent} {front parts back : List Latent}
    (h : ∀ x ∈ front ++ parts ++ back, first.Compatible x ∧ x.Sound) :
    (first.join (front ++ parts ++ back)).slice (front.map seqLen).sum (parts.map seqLen).sum =
      first.join parts := by
  have hBlocks := blocks_haveBlocks h
  rw [List.map_append, List.map_append] at hBlocks
  have hWhole := sum_blocks fun x hx => (h x hx).1
  have hFront := sum_blocks fun x hx =>
    (h x (List.mem_append_left _ (List.mem_append_left _ hx))).1
  have hParts := sum_blocks fun x hx =>
    (h x (List.mem_append_left _ (List.mem_append_right _ hx))).1
  have hSlice := sliceBlocks_interleaveBlocks hBlocks
  rw [← List.map_append, ← List.map_append, hWhole, hFront, hParts] at hSlice
  exact congrArg (Latent.mk first.type (first.shape.withSeqLen (parts.map seqLen).sum)) hSlice

/-- What sound latents join to is exact as soon as the joined data fit. -/
theorem exact_join {first : Latent} {parts : List Latent}
    (h : ∀ x ∈ parts, first.Compatible x ∧ x.Sound) (hRow : first.rowBytes = first.rowSize)
    (hData : (first.join parts).data.length < Size.limit) : (first.join parts).Exact := by
  have hLength := length_data_join h
  refine ⟨hRow, ?_, hLength⟩
  rcases Nat.eq_zero_or_pos first.shape.outer with hNone | hSome
  · exact .inl hNone
  · rw [hLength] at hData
    exact .inr ((Nat.le_mul_of_pos_left _ hSome).trans_lt hData)

/-- Some of the latents that were joined are cut out where they were joined. -/
theorem cutsTo_join {first : Latent} {front parts back : List Latent}
    (h : ∀ x ∈ front ++ parts ++ back, first.Compatible x ∧ x.Sound)
    (hSum : ((front ++ parts ++ back).map seqLen).sum < Size.limit)
    (hData : (first.join (front ++ parts ++ back)).data.length < Size.limit) :
    (first.join (front ++ parts ++ back)).CutsTo (front.map seqLen).sum (parts.map seqLen).sum
      (first.join parts) := by
  have hRange : (front.map seqLen).sum + (parts.map seqLen).sum ≤
      ((front ++ parts ++ back).map seqLen).sum := by
    simp only [List.map_append, List.sum_append]
    omega
  rw [← slice_join h]
  exact cutsTo_slice hRange hSum (length_data_join h) hData

theorem sum_seqLen_of_forall {parts : List Latent} {length : Nat}
    (h : ∀ x ∈ parts, x.seqLen = length) : (parts.map seqLen).sum = parts.length * length := by
  have hAll : parts.map seqLen = List.replicate parts.length length := by
    rw [List.eq_replicate_iff]
    constructor
    · exact List.length_map _
    · intro n hn
      obtain ⟨x, hx, rfl⟩ := List.mem_map.mp hn
      exact h x hx
  rw [hAll, List.sum_replicate_nat]

theorem findSome?_mismatch?_eq_none {first : Latent} {others : List Latent}
    (h : ∀ x ∈ others, first.Compatible x) : others.findSome? first.mismatch? = none := by
  rw [List.findSome?_eq_none_iff]
  exact fun x hx => mismatch?_eq_none_iff.mpr (h x hx)

theorem concat_isOk {first : Latent} {others : List Latent}
    (h : ∀ x ∈ others, first.Compatible x) :
    ∃ y, concat (first :: others) = .ok y ∧ first.Compatible y ∧
      (((first :: others).map seqLen).sum < Size.limit →
        y.seqLen = ((first :: others).map seqLen).sum) := by
  rw [concat, findSome?_mismatch?_eq_none h]
  dsimp only
  split
  · next hNone =>
    rw [List.isEmpty_iff.mp hNone]
    exact ⟨first, rfl, .refl first, fun _ => by simp⟩
  · refine ⟨_, rfl, ⟨rfl, rfl, rfl⟩, fun hSum => ?_⟩
    have hTotal := Size.foldl_add seqLen (first :: others) (a := 0) (by omega)
    rw [Nat.zero_add] at hTotal
    exact hTotal

/-- Joining is exact as long as the sizes of rows and blocks are. -/
theorem concat_eq_of_exact {x : Latent} {parts : List Latent} (hSome : parts ≠ [])
    (h : ∀ y ∈ parts, x.Compatible y ∧ y.Exact) (hSum : (parts.map seqLen).sum < Size.limit) :
    concat parts = .ok (x.join parts) := by
  obtain ⟨first, others, rfl⟩ := List.exists_cons_of_ne_nil hSome
  obtain ⟨hFirst, hExact⟩ := h first List.mem_cons_self
  have hRows : ∀ y ∈ others, first.Compatible y := fun y hy =>
    hFirst.symm.trans (h y (List.mem_cons_of_mem _ hy)).1
  rw [← join_congr hFirst, concat, findSome?_mismatch?_eq_none hRows]
  cases others with
  | nil => rw [join_singleton (.refl first) hExact]; rfl
  | cons second others =>
    have hTotal := Size.foldl_add seqLen (first :: second :: others) (a := 0) (by omega)
    rw [Nat.zero_add] at hTotal
    simp only [List.isEmpty_cons, Bool.false_eq_true, if_false, hTotal]
    rw [join]
    rcases Nat.eq_zero_or_pos first.shape.outer with hNone | hBlocks
    · simp only [hNone, interleaveBlocks, ite_self]
    · have hBlocks : (first :: second :: others).map
          (fun y => (Size.mul y.seqLen first.rowBytes, y.data)) =
            (first :: second :: others).map blocks := by
        refine List.map_congr_left fun y hy => ?_
        obtain ⟨hRows, hExactY⟩ := h y hy
        have hRows := hFirst.symm.trans hRows
        have hBlock := hExactY.block.resolve_left (hRows.2.1 ▸ hBlocks.ne')
        rw [blocks, hExact.row, ← hRows.rowSize_eq, Size.mul_eq hBlock]
      simp only [hBlocks]
      split
      · next hZero =>
        rw [interleaveBlocks_eq_nil]
        simpa [List.all_eq_true] using hZero
      · rfl

theorem concat_eq_join {x : Latent} {parts : List Latent} (hSome : parts ≠ [])
    (h : ∀ y ∈ parts, x.Compatible y ∧ y.Sound) (hSum : (parts.map seqLen).sum < Size.limit) :
    concat parts = .ok (x.join parts) :=
  concat_eq_of_exact hSome (fun y hy => ⟨(h y hy).1, (h y hy).2.exact⟩) hSum

theorem concat_eq {first : Latent} {others : List Latent}
    (h : ∀ x ∈ first :: others, first.Compatible x ∧ x.Sound)
    (hSum : ((first :: others).map seqLen).sum < Size.limit) :
    concat (first :: others) = .ok (first.join (first :: others)) :=
  concat_eq_join (List.cons_ne_nil _ _) h hSum

theorem concat_append {x : Latent} {parts others : List Latent} (hSome : others ≠ [])
    (hParts : ∀ y ∈ parts, x.Compatible y ∧ y.Sound)
    (hOthers : ∀ y ∈ others, x.Compatible y ∧ y.Sound)
    (hJoin : (x.join parts).Sound) (hRest : (x.join others).Sound)
    (hSum : (parts.map seqLen).sum + (others.map seqLen).sum < Size.limit) :
    ∃ y, concat (parts ++ others) = .ok y ∧ concat [x.join parts, x.join others] = .ok y := by
  have hAll : ∀ y ∈ parts ++ others, x.Compatible y ∧ y.Sound :=
    fun y hy => (List.mem_append.mp hy).elim (hParts y) (hOthers y)
  have hBoth : ∀ y ∈ [x.join parts, x.join others], x.Compatible y ∧ y.Sound := by
    intro y hy
    rcases List.mem_pair.mp hy with rfl | rfl
    · exact ⟨compatible_join x parts, hJoin⟩
    · exact ⟨compatible_join x others, hRest⟩
  refine ⟨x.join (parts ++ others), ?_, ?_⟩
  · refine concat_eq_join (List.append_ne_nil_of_right_ne_nil _ hSome) hAll ?_
    rwa [List.map_append, List.sum_append]
  · rw [join_append hParts hOthers]
    refine concat_eq_join (List.cons_ne_nil _ _) hBoth ?_
    simpa using hSum

/-! ## Consecutive slices -/

/-- Slices of the given lengths, the first one from position `start` on. -/
def slicesAt (x : Latent) : Nat → List Nat → List Latent
  | _, [] => []
  | start, length :: lengths => x.slice start length :: x.slicesAt (start + length) lengths

theorem map_blocks_slicesAt (x : Latent) (start : Nat) (lengths : List Nat) :
    (x.slicesAt start lengths).map blocks =
      slicesFrom x.shape.outer (x.seqLen * x.rowSize) x.data (start * x.rowSize)
        (lengths.map (· * x.rowSize)) := by
  induction lengths generalizing start with
  | nil => rfl
  | cons length lengths ih =>
    rw [slicesAt, List.map_cons, ih, List.map_cons, slicesFrom, Nat.add_mul]
    rfl

theorem map_seqLen_slicesAt (x : Latent) (start : Nat) (lengths : List Nat) :
    (x.slicesAt start lengths).map seqLen = lengths := by
  induction lengths generalizing start with
  | nil => rfl
  | cons length lengths ih => rw [slicesAt, List.map_cons, ih, seqLen_slice]

theorem mem_slicesAt {x y : Latent} {start : Nat} {lengths : List Nat} (h : x.Sound)
    (hRange : start + lengths.sum ≤ x.seqLen) (hy : y ∈ x.slicesAt start lengths) :
    x.Compatible y ∧ y.Sound := by
  induction lengths generalizing start with
  | nil => cases hy
  | cons length lengths ih =>
    rw [List.sum_cons] at hRange
    rcases List.mem_cons.mp hy with rfl | hy
    · exact ⟨compatible_slice x start length, h.slice (by omega)⟩
    · exact ih (by omega) hy

theorem join_slicesAt {x : Latent} {start : Nat} {lengths : List Nat} (h : x.Sound)
    (hRange : start + lengths.sum ≤ x.seqLen) :
    x.join (x.slicesAt start lengths) = x.slice start lengths.sum := by
  have hSum : (lengths.map (· * x.rowSize)).sum = lengths.sum * x.rowSize := by
    rw [List.sum_map_mul_right, List.map_id']
  rw [join, slice, map_seqLen_slicesAt, map_blocks_slicesAt, interleaveBlocks_slicesFrom, hSum]
  · rw [hSum, ← Nat.add_mul]
    exact Nat.mul_le_mul_right _ hRange
  · exact h.length_data.ge

end Latent

end LatentCache
