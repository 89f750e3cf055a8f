import LatentCache.Proofs.Latent.Pieces

/-!
# Checking a range of positions

A range of positions that lies within a latent is cut out, and one that ends behind the last
position is refused. But the end is computed before it is compared: where it does not fit in 64
bits, the sum ends the program instead of the check refusing the range.
-/

namespace LatentCache.Latent

variable {x : Latent} {start length : Nat}

/-- What is copied of a range is there: room is made for no more bytes than the latent has, and all
pieces exist. -/
structure Copies (x : Latent) (start length : Nat) : Prop where
  capacity : x.narrowCapacity length ≤ x.data.length
  pieces : ∀ p ∈ x.narrowPieces start length, p.InBounds

theorem copies_of_le (h : x.Sound) (hRange : start + length ≤ x.seqLen) :
    x.Copies start length where
  capacity := by
    have hLength := (Nat.le_add_left length start).trans hRange
    rw [narrowCapacity_eq (h.fits.sizesFit hLength), h.length_data, Nat.mul_assoc]
    exact Nat.mul_le_mul_left _ (Nat.mul_le_mul_right _ hLength)
  pieces := (slice_copies h hRange).1

theorem narrow_eq_outOfRange_iff (h : x.Sound) :
    x.narrow start length = .error (.outOfRange start length x.seqLen) ↔
      x.seqLen < start + length ∧ start + length < Size.limit := by
  constructor
  · intro hRefused
    constructor
    · by_contra hRange
      rw [narrow_eq h.fits (Nat.le_of_not_lt hRange)] at hRefused
      cases hRefused
    · by_contra hLimit
      rw [narrow_of_limit_le (Nat.le_of_not_lt hLimit)] at hRefused
      cases hRefused
  · rintro ⟨hRange, hLimit⟩
    exact narrow_of_gt hRange hLimit

theorem narrow_eq_overflow_iff (h : x.Sound) :
    x.narrow start length = .error (.overflow .add) ↔ Size.limit ≤ start + length := by
  refine ⟨fun hOverflow => ?_, narrow_of_limit_le⟩
  by_contra hLimit
  rcases Nat.lt_or_ge x.seqLen (start + length) with hRange | hRange
  · rw [narrow_of_gt hRange (Nat.lt_of_not_le hLimit)] at hOverflow
    cases hOverflow
  · rw [narrow_eq h.fits hRange] at hOverflow
    cases hOverflow

/-- Exactly the ranges within a latent are cut out of it, and no piece of them is out of bounds. Of
the others, those whose end fits are refused with what was asked for and the number of positions
that there are; one whose end does not fit ends the program. -/
theorem range_check_decided (h : x.Sound) (start length : Nat) :
    ((∃ y, x.narrow start length = .ok y) ↔ start + length ≤ x.seqLen) ∧
    (start + length ≤ x.seqLen →
      x.narrow start length = .ok (x.slice start length) ∧ x.Copies start length) ∧
    (x.narrow start length = .error (.outOfRange start length x.seqLen) ↔
      x.seqLen < start + length ∧ start + length < Size.limit) ∧
    (x.narrow start length = .error (.overflow .add) ↔ Size.limit ≤ start + length) := by
  refine ⟨⟨?_, fun hRange => ⟨_, narrow_eq h.fits hRange⟩⟩, fun hRange => ?_,
    narrow_eq_outOfRange_iff h, narrow_eq_overflow_iff h⟩
  · rintro ⟨y, hNarrow⟩
    exact le_seqLen_of_narrow hNarrow
  · exact ⟨narrow_eq h.fits hRange, copies_of_le h hRange⟩

theorem range_check_of_two_positions :
    let x : Latent := ⟨.f16, ⟨1, 2, [1]⟩, [1, 0, 2, 0]⟩
    x.Sound ∧ x.narrow 1 1 = .ok (x.slice 1 1) ∧ x.narrow 1 2 = .error (.outOfRange 1 2 2) ∧
      x.narrow 18446744073709551614 1 = .error (.outOfRange 18446744073709551614 1 2) ∧
      x.narrow 18446744073709551615 1 = .error (.overflow .add) := by
  intro x
  have hSound : x.Sound := ⟨by decide, by decide⟩
  obtain ⟨-, hInside, -⟩ := range_check_decided hSound 1 1
  obtain ⟨-, -, hBehind, -⟩ := range_check_decided hSound 1 2
  obtain ⟨-, -, hFar, -⟩ := range_check_decided hSound 18446744073709551614 1
  obtain ⟨-, -, -, hLost⟩ := range_check_decided hSound 18446744073709551615 1
  exact ⟨hSound, (hInside (by decide)).1, hBehind.mpr (by decide), hFar.mpr (by decide),
    hLost.mpr (by decide)⟩

/-- A range that begins at the greatest size is not refused. -/
theorem greatest_start_not_refused :
    let x : Latent := ⟨.f16, ⟨1, 2, [0]⟩, []⟩
    x.Sound ∧ x.seqLen < 18446744073709551615 + 1 ∧
      x.narrow 18446744073709551615 1 = .error (.overflow .add) ∧
      x.narrow 18446744073709551615 1 ≠
        .error (.outOfRange 18446744073709551615 1 x.seqLen) := by
  intro x
  have hOverflow : x.narrow 18446744073709551615 1 = .error (.overflow .add) := by decide
  refine ⟨⟨by decide, by decide⟩, by decide, hOverflow, ?_⟩
  rw [hOverflow]
  decide

end LatentCache.Latent
