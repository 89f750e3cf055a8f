import Mathlib.Data.List.Nodup

/-!
# Looking up keys

An association list is looked up from its front, and from its back when it is reversed. Entries under
other keys make no difference; where every key occurs once, what is found is what stands under it.
-/

namespace LatentCache

variable {κ α : Type} [BEq κ]

theorem lookup_reverse_cons (key : κ) (entry : κ × α) (rest : List (κ × α)) :
    (entry :: rest).reverse.lookup key =
      (rest.reverse.lookup key).or (if key == entry.1 then some entry.2 else none) := by
  rw [List.reverse_cons, List.lookup_append, List.lookup_cons]
  cases key == entry.1 <;> rfl

variable [LawfulBEq κ]

theorem lookup_filter_ne {here there : κ} (hNe : there ≠ here) (entries : List (κ × α)) :
    (entries.filter (·.1 != here)).lookup there = entries.lookup there := by
  induction entries with
  | nil => rfl
  | cons entry rest ih =>
    by_cases hHere : entry.1 = here
    · have hOther : (there == entry.1) = false := by simpa [hHere] using hNe
      rw [List.filter_cons_of_neg (by simpa using hHere), ih, List.lookup_cons, hOther]
    · rw [List.filter_cons_of_pos (by simpa using hHere), List.lookup_cons, List.lookup_cons, ih]

theorem mem_of_lookup_eq_some {entries : List (κ × α)} {key : κ} {value : α}
    (h : entries.lookup key = some value) : (key, value) ∈ entries := by
  obtain ⟨front, back, rfl, -⟩ := List.lookup_eq_some_iff.mp h
  exact List.mem_append_right _ List.mem_cons_self

theorem lookup_eq_some_iff_mem {entries : List (κ × α)} (h : (entries.map (·.1)).Nodup) {key : κ}
    {value : α} : entries.lookup key = some value ↔ (key, value) ∈ entries := by
  refine ⟨mem_of_lookup_eq_some, fun hMem => ?_⟩
  induction entries with
  | nil => cases hMem
  | cons entry rest ih =>
    rw [List.map_cons, List.nodup_cons] at h
    rw [List.lookup_cons]
    rcases List.mem_cons.mp hMem with rfl | hMem
    · rw [beq_self_eq_true]
    · have hOther : key ≠ entry.1 := by
        rintro rfl
        exact h.1 (List.mem_map.mpr ⟨_, hMem, rfl⟩)
      rw [beq_false_of_ne hOther]
      exact ih h.2 hMem

theorem lookup_reverse_eq_none_iff {entries : List (κ × α)} {key : κ} :
    entries.reverse.lookup key = none ↔ ∀ entry ∈ entries, entry.1 ≠ key := by
  simp only [List.lookup_eq_none_iff, List.mem_reverse, bne_iff_ne]
  exact forall₂_congr fun _ _ => ne_comm

end LatentCache
