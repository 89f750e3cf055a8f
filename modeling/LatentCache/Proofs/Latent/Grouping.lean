import LatentCache.Proofs.Latent.Inverse
import LatentCache.Proofs.Latent.Pieces
import LatentCache.Proofs.Traversal
import Mathlib.Algebra.Order.BigOperators.Group.List

/-!
# Joining in groups

Latents can be joined if every two of them are compatible. If not, the first one that cannot follow
the first latent decides why. In which groups latents are joined makes no difference.
-/

namespace LatentCache

theorem sum_map_le_flatten {α : Type} (f : α → Nat) {groups : List (List α)} {group : List α}
    (h : group ∈ groups) : (group.map f).sum ≤ (groups.flatten.map f).sum :=
  ((List.sublist_flatten_of_mem h).map f).sum_le_sum fun _ _ => Nat.zero_le _

namespace Latent

/-! ## Which latents can be joined -/

theorem compatible_equivalence : Equivalence Compatible :=
  ⟨Compatible.refl, Compatible.symm, Compatible.trans⟩

/-- Compatible latents have equally many axes, and only that of token positions may differ. -/
theorem compatible_iff_axes {x y : Latent} : x.Compatible y ↔
    x.type = y.type ∧ ∀ axis, axis ≠ 1 → x.shape.toList[axis]? = y.shape.toList[axis]? := by
  refine and_congr_right fun _ => ?_
  constructor
  · rintro ⟨hOuter, hInner⟩ axis hAxis
    match axis with
    | 0 => simp [Shape.toList, hOuter]
    | axis + 2 => simp [Shape.toList, hInner]
  · intro h
    constructor
    · simpa [Shape.toList] using h 0 (by decide)
    · apply List.ext_getElem?
      intro axis
      simpa [Shape.toList] using h (axis + 2) (by omega)

theorem concat_isOk_iff {parts : List Latent} : (∃ y, concat parts = .ok y) ↔
    parts ≠ [] ∧ ∀ x ∈ parts, ∀ y ∈ parts, x.Compatible y := by
  constructor
  · rintro ⟨y, h⟩
    cases parts with
    | nil => cases h
    | cons first others =>
      have hFirst := compatible_of_concat h
      refine ⟨List.cons_ne_nil _ _, fun x hx z hz => ?_⟩
      exact (hFirst x hx).symm.trans (hFirst z hz)
  · rintro ⟨hSome, h⟩
    obtain ⟨first, others, rfl⟩ := List.exists_cons_of_ne_nil hSome
    obtain ⟨y, hConcat, -⟩ := concat_isOk fun x hx =>
      h first List.mem_cons_self x (List.mem_cons_of_mem _ hx)
    exact ⟨y, hConcat⟩

/-- Why latents cannot be joined: there are none, or there is a first one that cannot follow the
first latent. -/
inductive CannotJoin : List Latent → LatentError → Prop
  | nothing : CannotJoin [] .emptyConcat
  | otherType {first y : Latent} {front back : List Latent}
      (hFront : ∀ x ∈ front, first.Compatible x) (hType : y.type ≠ first.type) :
      CannotJoin (first :: (front ++ y :: back)) (.typeMismatch first.type y.type)
  | otherRows {first y : Latent} {front back : List Latent}
      (hFront : ∀ x ∈ front, first.Compatible x) (hType : y.type = first.type)
      (hRows : ¬ first.shape.SameRows y.shape) :
      CannotJoin (first :: (front ++ y :: back)) (.shapeMismatch first.shape y.shape)

theorem mismatch?_eq_some_iff {first y : Latent} {e : LatentError} : first.mismatch? y = some e ↔
    (y.type ≠ first.type ∧ e = .typeMismatch first.type y.type) ∨
      (y.type = first.type ∧ ¬ first.shape.SameRows y.shape ∧
        e = .shapeMismatch first.shape y.shape) := by
  rw [mismatch?]
  by_cases hType : y.type = first.type <;> by_cases hRows : first.shape.SameRows y.shape <;>
    simp [hType, hRows, eq_comm]

theorem concat_eq_error_iff {parts : List Latent} {e : LatentError} :
    concat parts = .error e ↔ CannotJoin parts e := by
  constructor
  · intro h
    cases parts with
    | nil =>
      cases h
      exact .nothing
    | cons first others =>
      rw [concat] at h
      cases hMismatch : others.findSome? first.mismatch? with
      | none =>
        rw [hMismatch] at h
        dsimp only at h
        split at h <;> cases h
      | some e' =>
        rw [hMismatch] at h
        cases h
        obtain ⟨front, y, back, rfl, hy, hFront⟩ := List.findSome?_eq_some_iff.mp hMismatch
        have hFront : ∀ x ∈ front, first.Compatible x := fun x hx =>
          mismatch?_eq_none_iff.mp (hFront x hx)
        rcases mismatch?_eq_some_iff.mp hy with ⟨hType, rfl⟩ | ⟨hType, hRows, rfl⟩
        · exact .otherType hFront hType
        · exact .otherRows hFront hType hRows
  · have hFirst {first y : Latent} {front back : List Latent} {e : LatentError}
        (hFront : ∀ x ∈ front, first.Compatible x) (hy : first.mismatch? y = some e) :
        concat (first :: (front ++ y :: back)) = .error e := by
      rw [concat, List.findSome?_eq_some_iff.mpr ⟨front, y, back, rfl, hy, fun x hx =>
        mismatch?_eq_none_iff.mpr (hFront x hx)⟩]
    rintro (_ | ⟨hFront, hType⟩ | ⟨hFront, hType, hRows⟩)
    · rfl
    · exact hFirst hFront (mismatch?_eq_some_iff.mpr (.inl ⟨hType, rfl⟩))
    · exact hFirst hFront (mismatch?_eq_some_iff.mpr (.inr ⟨hType, hRows, rfl⟩))

/-! ## Groups -/

/-- Joins the latents of every group, and then what they join to. -/
def concatGroups (groups : List (List Latent)) : Except LatentError Latent :=
  groups.mapM concat >>= concat

theorem compatible_concat {parts : List Latent} {y : Latent} (h : concat parts = .ok y) :
    ∀ x ∈ parts, x.Compatible y := by
  cases parts with
  | nil => cases h
  | cons first others =>
    have hFirst := compatible_of_concat h
    obtain ⟨z, hConcat, hRows, -⟩ := concat_isOk fun x hx => hFirst x (List.mem_cons_of_mem _ hx)
    rw [h] at hConcat
    cases hConcat
    exact fun x hx => (hFirst x hx).symm.trans hRows

/-- Groups that can be joined hold compatible latents only, since each latent is compatible with
what its group joins to. -/
theorem compatible_of_concatGroups {groups : List (List Latent)} {y : Latent}
    (h : concatGroups groups = .ok y) : ∀ x ∈ groups.flatten, x.Compatible y := by
  rw [concatGroups] at h
  cases hParts : groups.mapM concat with
  | error e =>
    rw [hParts] at h
    cases h
  | ok parts =>
    rw [hParts] at h
    have hConcat : concat parts = .ok y := h
    intro x hx
    obtain ⟨group, hGroup, hx⟩ := List.mem_flatten.mp hx
    obtain ⟨i, hi, rfl⟩ := List.mem_iff_getElem.mp hGroup
    have hForall := forall₂_of_mapM_eq_ok hParts
    have hPart := hForall.get hi (hForall.length_eq ▸ hi)
    have hMem : parts.get ⟨i, hForall.length_eq ▸ hi⟩ ∈ parts := List.get_mem _ _
    exact (compatible_concat hPart x hx).trans (compatible_concat hConcat _ hMem)

section Join

variable {x : Latent} {groups : List (List Latent)}
  (h : ∀ y ∈ groups.flatten, x.Compatible y ∧ y.Sound)
include h

theorem mapM_concat (hGroups : ∀ group ∈ groups, group ≠ [])
    (hSum : (groups.flatten.map seqLen).sum < Size.limit) :
    groups.mapM concat = .ok (groups.map x.join) := by
  have hEach : ∀ group ∈ groups, concat group = pure (x.join group) := by
    intro group hGroup
    apply concat_eq_join (hGroups group hGroup)
    · exact fun y hy => h y (List.mem_flatten_of_mem hGroup hy)
    · exact (sum_map_le_flatten seqLen hGroup).trans_lt hSum
  rw [mapM_congr hEach]
  exact List.mapM_pure

theorem exact_join_of_mem (hRow : x.rowBytes = x.rowSize)
    (hData : (groups.flatten.map fun y => y.data.length).sum < Size.limit)
    {group : List Latent} (hGroup : group ∈ groups) : (x.join group).Exact := by
  have hMembers : ∀ y ∈ group, x.Compatible y ∧ y.Sound :=
    fun y hy => h y (List.mem_flatten_of_mem hGroup hy)
  apply exact_join hMembers hRow
  rw [length_data_join hMembers, ← sum_length_data hMembers]
  exact (sum_map_le_flatten _ hGroup).trans_lt hData

theorem concatGroups_eq_join (hRow : x.rowBytes = x.rowSize) (hSome : groups ≠ [])
    (hGroups : ∀ group ∈ groups, group ≠ [])
    (hSum : (groups.flatten.map seqLen).sum < Size.limit)
    (hData : (groups.flatten.map fun y => y.data.length).sum < Size.limit) :
    concatGroups groups = .ok (x.join groups.flatten) := by
  rw [concatGroups, mapM_concat h hGroups hSum]
  change concat (groups.map x.join) = _
  rw [concat_eq_of_exact (by simpa using hSome), ← join_flatten]
  · exact fun group hGroup y hy => h y (List.mem_flatten_of_mem hGroup hy)
  · intro y hy
    obtain ⟨group, hGroup, rfl⟩ := List.mem_map.mp hy
    exact ⟨compatible_join x group, exact_join_of_mem h hRow hData hGroup⟩
  · rwa [sum_seqLen_joins]

end Join

theorem concatGroups_eq_ok_iff {groups : List (List Latent)} (hSome : groups ≠ [])
    (hGroups : ∀ group ∈ groups, group ≠ []) (hSound : ∀ x ∈ groups.flatten, x.Sound)
    (hSum : (groups.flatten.map seqLen).sum < Size.limit)
    (hData : (groups.flatten.map fun x => x.data.length).sum < Size.limit) {y : Latent} :
    concatGroups groups = .ok y ↔ concat groups.flatten = .ok y := by
  obtain ⟨group, hGroup⟩ := List.exists_mem_of_ne_nil groups hSome
  obtain ⟨x, hx⟩ := List.exists_mem_of_ne_nil group (hGroups group hGroup)
  have hMem : x ∈ groups.flatten := List.mem_flatten_of_mem hGroup hx
  by_cases hRows : ∀ z ∈ groups.flatten, x.Compatible z
  · have hAll : ∀ z ∈ groups.flatten, x.Compatible z ∧ z.Sound :=
      fun z hz => ⟨hRows z hz, hSound z hz⟩
    have hRow : x.rowBytes = x.rowSize := (hSound x hMem).exact.row
    rw [concatGroups_eq_join hAll hRow hSome hGroups hSum hData,
      concat_eq_join (List.ne_nil_of_mem hMem) hAll hSum]
  · -- Neither way joins latents that are not compatible.
    constructor
    · intro h
      have hEach := compatible_of_concatGroups h
      exact absurd (fun z hz => (hEach x hMem).trans (hEach z hz).symm) hRows
    · intro h
      have hEach := compatible_concat h
      exact absurd (fun z hz => (hEach x hMem).trans (hEach z hz).symm) hRows

/-- Joining accepts the lists in which every two latents are compatible, and the first latent that
is not decides how it fails. Latents that are joined in groups, and then group by group, give the
same latent as all of them joined at once, or neither can be joined. -/
theorem concat_decided :
    Equivalence Compatible ∧
    (∀ x y : Latent, x.Compatible y ↔ x.type = y.type ∧
      ∀ axis, axis ≠ 1 → x.shape.toList[axis]? = y.shape.toList[axis]?) ∧
    (∀ parts, (∃ y, concat parts = .ok y) ↔
      parts ≠ [] ∧ ∀ x ∈ parts, ∀ y ∈ parts, x.Compatible y) ∧
    (∀ parts e, concat parts = .error e ↔ CannotJoin parts e) ∧
    ∀ groups : List (List Latent), groups ≠ [] → (∀ group ∈ groups, group ≠ []) →
      (∀ x ∈ groups.flatten, x.Sound) → (groups.flatten.map seqLen).sum < Size.limit →
      (groups.flatten.map fun x => x.data.length).sum < Size.limit →
      ∀ y, concatGroups groups = .ok y ↔ concat groups.flatten = .ok y := by
  refine ⟨compatible_equivalence, fun _ _ => compatible_iff_axes, fun _ => concat_isOk_iff,
    fun _ _ => concat_eq_error_iff, ?_⟩
  intro groups hSome hGroups hSound hSum hData y
  exact concatGroups_eq_ok_iff hSome hGroups hSound hSum hData

theorem concat_decided_two_groups :
    let a : Latent := ⟨.f16, ⟨2, 1, [1]⟩, [1, 0, 2, 0]⟩
    let b : Latent := ⟨.f16, ⟨2, 2, [1]⟩, [3, 0, 4, 0, 5, 0, 6, 0]⟩
    let c : Latent := ⟨.f16, ⟨2, 0, [1]⟩, []⟩
    let d : Latent := ⟨.f16, ⟨2, 1, [1]⟩, [7, 0, 8, 0]⟩
    concatGroups [[a, b], [c, d]] =
      .ok ⟨.f16, ⟨2, 4, [1]⟩, [1, 0, 3, 0, 4, 0, 7, 0, 2, 0, 5, 0, 6, 0, 8, 0]⟩ := by
  intro a b c d
  have hSound : ∀ x ∈ [[a, b], [c, d]].flatten, x.Sound := by
    intro x hx
    simp only [List.flatten_cons, List.flatten_nil, List.cons_append, List.nil_append,
      List.mem_cons, List.not_mem_nil, or_false] at hx
    rcases hx with rfl | rfl | rfl | rfl <;> exact ⟨by decide, by decide⟩
  obtain ⟨-, -, -, -, hRegroup⟩ := concat_decided
  exact (hRegroup [[a, b], [c, d]] (by simp) (by simp) hSound (by decide) (by decide) _).mpr
    (by decide +kernel)

end Latent

end LatentCache
