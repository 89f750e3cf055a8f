import LatentCache.Proofs.Storage.Opening
import Mathlib.Algebra.Order.Floor.Div
import Mathlib.Order.Bounds.Basic

/-!
# Sizes of maps

A map size is rounded up to the least number of full granules that holds it, as long as that number
is a machine size. Above `2 ^ 64 - mapGranule` it is not, and the product ends the program instead of
being refused as a map for which there is no room.
-/

namespace LatentCache

variable {size : Nat}

/-- The sizes of maps of full granules, at least one of them, that hold a size. -/
def fullMapSizes (size : Nat) : Set Nat := {n | mapGranule ∣ n ∧ max size mapGranule ≤ n}

def granuleCount (size : Nat) : Nat := max size mapGranule ⌈/⌉ mapGranule

theorem mapGranule_pos : 0 < mapGranule := by decide

theorem roundMapSize_eq (size : Nat) :
    roundMapSize size = Size.mul? (granuleCount size) mapGranule := rfl

theorem isLeast_granuleCount (size : Nat) :
    IsLeast (fullMapSizes size) (granuleCount size * mapGranule) := by
  constructor
  · refine ⟨Nat.dvd_mul_left _ _, ?_⟩
    rw [Nat.mul_comm]
    exact le_smul_ceilDiv mapGranule_pos
  · rintro n ⟨⟨count, rfl⟩, hHolds⟩
    rw [Nat.mul_comm]
    exact Nat.mul_le_mul_left _ ((ceilDiv_le_iff_le_mul mapGranule_pos).mpr hHolds)

theorem mem_fullMapSizes_of_le {n : Nat} (hGranules : mapGranule ∣ n) (hPos : 0 < n)
    (hSize : size ≤ n) : n ∈ fullMapSizes size :=
  ⟨hGranules, max_le hSize (Nat.le_of_dvd hPos hGranules)⟩

theorem pos_of_mem_fullMapSizes {n : Nat} (h : n ∈ fullMapSizes size) : 0 < n :=
  mapGranule_pos.trans_le ((le_max_right _ _).trans h.2)

theorem le_granules (size : Nat) : size ≤ granuleCount size * mapGranule :=
  (le_max_left _ _).trans (isLeast_granuleCount size).1.2

/-! ## The greatest size that is rounded up -/

theorem granules_lt_iff :
    granuleCount size * mapGranule < Size.limit ↔ size ≤ Size.limit - mapGranule := by
  constructor
  · intro hFits
    have hHolds := le_granules size
    -- Both are multiples of the granule, so that the lesser one is less by a granule.
    have hGap : mapGranule ∣ Size.limit - granuleCount size * mapGranule :=
      Nat.dvd_sub (by decide) (Nat.dvd_mul_left _ _)
    have hGranule := Nat.le_of_dvd (Nat.sub_pos_of_lt hFits) hGap
    omega
  · intro hSize
    have hMem : Size.limit - mapGranule ∈ fullMapSizes size :=
      mem_fullMapSizes_of_le (by decide) (by decide) hSize
    exact Nat.lt_of_le_of_lt ((isLeast_granuleCount size).2 hMem) (by decide)

theorem roundMapSize_of_le (hSize : size ≤ Size.limit - mapGranule) :
    roundMapSize size = .ok (granuleCount size * mapGranule) := by
  rw [roundMapSize_eq]
  exact Size.mul?_eq (granules_lt_iff.mpr hSize)

theorem roundMapSize_of_gt (hSize : Size.limit - mapGranule < size) :
    roundMapSize size = .error .multiply := by
  have hGranules := mt granules_lt_iff.mp (Nat.not_le_of_lt hSize)
  rw [roundMapSize_eq]
  exact Size.mul?_eq_error (Nat.le_of_not_lt hGranules)

theorem roundMapSize_eq_ok_iff {n : Nat} : roundMapSize size = .ok n ↔
    size ≤ Size.limit - mapGranule ∧ IsLeast (fullMapSizes size) n := by
  rcases Nat.lt_or_ge (Size.limit - mapGranule) size with hSize | hSize
  · rw [roundMapSize_of_gt hSize]
    exact iff_of_false (fun h => by cases h) fun h => Nat.not_le_of_lt hSize h.1
  · rw [roundMapSize_of_le hSize, Except.ok.injEq, and_iff_right hSize]
    constructor
    · rintro rfl
      exact isLeast_granuleCount size
    · exact (isLeast_granuleCount size).unique

theorem roundMapSize_eq_error_iff {o : Size.Overflow} : roundMapSize size = .error o ↔
    o = .multiply ∧ Size.limit - mapGranule < size := by
  rcases Nat.lt_or_ge (Size.limit - mapGranule) size with hSize | hSize
  · rw [roundMapSize_of_gt hSize, Except.error.injEq, and_iff_left hSize, eq_comm]
  · rw [roundMapSize_of_le hSize]
    exact iff_of_false (fun h => by cases h) fun h => Nat.not_lt_of_le hSize h.2

/-- Full granules are not rounded any more. -/
theorem isLeast_self {n : Nat} (h : n ∈ fullMapSizes size) : IsLeast (fullMapSizes n) n :=
  ⟨mem_fullMapSizes_of_le h.1 (pos_of_mem_fullMapSizes h) (Nat.le_refl n),
    fun _ hOther => (le_max_left _ _).trans hOther.2⟩

/-- Exactly the sizes up to `2 ^ 64 - mapGranule` are rounded, to the least number of full granules
that holds them, and what they are rounded to stays as it is. For the sizes above, the product of
the granules ends the program. -/
theorem map_size_rounded_up (size : Nat) :
    (∀ n, roundMapSize size = .ok n ↔
      size ≤ Size.limit - mapGranule ∧ IsLeast (fullMapSizes size) n) ∧
    (∀ n, roundMapSize size = .ok n → roundMapSize n = .ok n) ∧
    (roundMapSize size = .error .multiply ↔ Size.limit - mapGranule < size) := by
  refine ⟨fun n => roundMapSize_eq_ok_iff, fun n hRound => ?_, ?_⟩
  · obtain ⟨hSize, hLeast⟩ := roundMapSize_eq_ok_iff.mp hRound
    refine roundMapSize_eq_ok_iff.mpr ⟨?_, isLeast_self hLeast.1⟩
    exact hLeast.2 (mem_fullMapSizes_of_le (by decide) (by decide) hSize)
  · rw [roundMapSize_eq_error_iff]
    exact and_iff_right rfl

theorem greatest_map_size_rounded_up :
    roundMapSize 18446744073709486079 = .ok 18446744073709486080 ∧
      roundMapSize 18446744073709486080 = .ok 18446744073709486080 ∧
      roundMapSize 18446744073709486081 = .error .multiply := by
  have hRound : roundMapSize 18446744073709486079 = .ok 18446744073709486080 := by decide
  exact ⟨hRound, (map_size_rounded_up _).2.1 _ hRound,
    (map_size_rounded_up _).2.2.mpr (by decide)⟩

/-- The greatest size that can be asked for is not rounded. -/
theorem greatest_size_not_rounded :
    roundMapSize 18446744073709551615 = .error .multiply ∧
      ¬ ∃ n, roundMapSize 18446744073709551615 = .ok n ∧
        IsLeast {n | mapGranule ∣ n ∧ max 18446744073709551615 mapGranule ≤ n} n := by
  have hOverflow : roundMapSize 18446744073709551615 = .error .multiply := by decide
  refine ⟨hOverflow, ?_⟩
  rintro ⟨n, hRound, -⟩
  cases hOverflow.symm.trans hRound

/-! ## Maps that are opened -/

namespace Backend

variable {s : MappedSettings} {h : Host}

/-- The map of an environment is as large as the settings say. -/
theorem openMapped_mapSize {b : Backend} {h₀ : Host} (hOpen : openMapped s h = (.ok b, h₀)) :
    ∃ location, b = mapped s.path location ∧
      IsLeast (fullMapSizes s.mapSize) (h₀.environment location).mapSize := by
  obtain ⟨location, hBackend, -, hRound⟩ := openMapped_eq_ok hOpen
  exact ⟨location, hBackend, (roundMapSize_eq_ok_iff.mp hRound).2⟩

/-- Opening ends the program exactly for the sizes that are not rounded, once the directories could
be made. -/
theorem openEnvironment_eq_error_iff {o : Size.Overflow} : (openEnvironment s h).1 = .error o ↔
    o = .multiply ∧ Size.limit - mapGranule < s.mapSize ∧
      (FileTree.makeDirectories s.path h.files).1 = .ok () := by
  rw [openEnvironment, ← and_assoc, ← roundMapSize_eq_error_iff]
  cases hRound : roundMapSize s.mapSize with
  | ok mapSize =>
    rw [openOrEnd]
    exact iff_of_false (fun h => by cases h) fun h => by cases h.1
  | error o' =>
    rcases hMake : FileTree.makeDirectories s.path h.files with ⟨e | ⟨⟩, files⟩ <;>
      simp [openOrEnd, hMake]

end Backend

end LatentCache
