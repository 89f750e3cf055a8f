import LatentCache.Bytes
import Mathlib.Algebra.Ring.Nat
import Mathlib.Data.List.Basic

/-!
# Numbers and groups of bytes

A byte string is determined by its length and the number that it stands for. Groups of equal width
are those of the string that they form together, so a list of numbers can be read back from their
bytes, and a string that has no incomplete group from its numbers.
-/

namespace LatentCache.Bytes

variable {width : Nat} {bs : Bytes}

/-! ## Numbers -/

theorem toNat_lt (bs : Bytes) : toNat bs < 256 ^ bs.length := by
  induction bs with
  | nil => exact Nat.one_pos
  | cons b rest ih =>
    have hByte := b.toNat_lt
    rw [toNat, List.length_cons, Nat.pow_succ]
    omega

theorem ofNat_toNat (bs : Bytes) : ofNat bs.length (toNat bs) = bs := by
  induction bs with
  | nil => rfl
  | cons b rest ih =>
    have hByte := b.toNat_lt
    have hLow : UInt8.ofNat (b.toNat + 256 * toNat rest) = b := by
      apply UInt8.toNat_inj.mp
      rw [UInt8.toNat_ofNat']
      omega
    have hHigh : (b.toNat + 256 * toNat rest) / 256 = toNat rest := by omega
    rw [List.length_cons, ofNat, toNat, hLow, hHigh, ih]

theorem take_eq_ofNat (h : width ≤ bs.length) :
    bs.take width = ofNat width (toNat (bs.take width)) := by
  have hWritten := ofNat_toNat (bs.take width)
  rw [List.length_take_of_le h] at hWritten
  exact hWritten.symm

/-! ## Groups -/

theorem length_of_mem_groups {group : Bytes} (h : group ∈ groups width bs) :
    group.length = width := by
  fun_induction groups width bs with
  | case1 bs hFull ih =>
    rcases List.mem_cons.mp h with rfl | h
    · exact hFull.2
    · exact ih h
  | case2 => cases h

theorem groups_flatten (hWidth : 0 < width) {parts : List Bytes}
    (h : ∀ part ∈ parts, part.length = width) : groups width parts.flatten = parts := by
  induction parts with
  | nil =>
    rw [List.flatten_nil, groups, dif_neg]
    rintro ⟨-, hFull⟩
    rw [List.take_nil, List.length_nil] at hFull
    omega
  | cons part rest ih =>
    have hPart : part.length = width := h part List.mem_cons_self
    rw [List.flatten_cons, groups, List.take_left' hPart, List.drop_left' hPart,
      dif_pos ⟨hWidth, hPart⟩, ih fun next hNext => h next (List.mem_cons_of_mem _ hNext)]

section Width

variable (hWidth : 0 < width)
include hWidth

theorem lt_of_not_full (h : ¬(0 < width ∧ (bs.take width).length = width)) :
    bs.length < width := by
  rw [List.length_take] at h
  omega

theorem length_groups (bs : Bytes) : (groups width bs).length = bs.length / width := by
  fun_induction groups width bs with
  | case1 bs hFull ih =>
    have hLe : width ≤ bs.length := by
      rw [List.length_take] at hFull
      omega
    rw [List.length_cons, ih, List.length_drop, Nat.div_eq_sub_div hWidth hLe]
  | case2 bs hShort => rw [List.length_nil, Nat.div_eq_of_lt (lt_of_not_full hWidth hShort)]

theorem flatten_groups (h : width ∣ bs.length) : (groups width bs).flatten = bs := by
  fun_induction groups width bs with
  | case1 bs hFull ih =>
    have hRest : width ∣ (bs.drop width).length := by
      rw [List.length_drop]
      exact Nat.dvd_sub h (Nat.dvd_refl width)
    rw [List.flatten_cons, ih hRest, List.take_append_drop]
  | case2 bs hShort =>
    have hEmpty := Nat.eq_zero_of_dvd_of_lt h (lt_of_not_full hWidth hShort)
    rw [List.flatten_nil, List.eq_nil_of_length_eq_zero hEmpty]

/-! ## Lists of numbers -/

theorem groups_ofNat {numbers : List Nat} (h : ∀ n ∈ numbers, n < 256 ^ width) :
    (groups width (numbers.flatMap (ofNat width))).map toNat = numbers := by
  have hParts : ∀ part ∈ numbers.map (ofNat width), part.length = width := by
    intro part hPart
    obtain ⟨n, -, rfl⟩ := List.mem_map.mp hPart
    exact length_ofNat width n
  rw [List.flatMap_def, groups_flatten hWidth hParts, List.map_map]
  refine (List.map_congr_left fun n hn => ?_).trans (List.map_id numbers)
  rw [Function.comp_apply, toNat_ofNat]
  exact Nat.mod_eq_of_lt (h n hn)

theorem ofNat_groups (h : width ∣ bs.length) :
    ((groups width bs).map toNat).flatMap (ofNat width) = bs := by
  calc
    ((groups width bs).map toNat).flatMap (ofNat width) = (groups width bs).flatMap id := by
      rw [List.flatMap_map]
      refine List.flatMap_congr fun group hGroup => ?_
      have hWritten := ofNat_toNat group
      rwa [length_of_mem_groups hGroup] at hWritten
    _ = (groups width bs).flatten := List.flatMap_id
    _ = bs := flatten_groups hWidth h

end Width

end LatentCache.Bytes
