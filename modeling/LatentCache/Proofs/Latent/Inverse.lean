import LatentCache.Proofs.Latent.Sequence

/-!
# Cutting and joining

A latent that is cut at consecutive positions is what its pieces join to, and latents that are
joined are cut out again where they were joined. Pieces may be empty.
-/

namespace LatentCache.Latent

/-! ## The pieces of one latent -/

theorem length_slicesAt (x : Latent) (start : Nat) (lengths : List Nat) :
    (x.slicesAt start lengths).length = lengths.length := by
  have hLengths := congrArg List.length (map_seqLen_slicesAt x start lengths)
  rwa [List.length_map] at hLengths

theorem getElem?_slicesAt (x : Latent) {start i : Nat} {lengths : List Nat}
    (hi : i < lengths.length) :
    (x.slicesAt start lengths)[i]? = some (x.slice (start + (lengths.take i).sum) lengths[i]) := by
  induction lengths generalizing start i with
  | nil => simp at hi
  | cons length lengths ih =>
    rw [slicesAt]
    cases i with
    | zero => simp
    | succ i =>
      rw [List.getElem?_cons_succ, ih (by simpa using hi), List.take_succ_cons, List.sum_cons,
        Nat.add_assoc, List.getElem_cons_succ]

theorem sum_take_add_le {lengths : List Nat} {i : Nat} (hi : i < lengths.length) :
    (lengths.take i).sum + lengths[i] ≤ lengths.sum := by
  have hSum := congrArg List.sum (List.take_append_drop (i + 1) lengths)
  rw [List.sum_append, List.sum_take_succ lengths i hi] at hSum
  omega

theorem concat_slicesAt {x : Latent} {lengths : List Nat} (h : x.Sound) (hSome : lengths ≠ [])
    (hSum : lengths.sum = x.seqLen) : concat (x.slicesAt 0 lengths) = .ok x := by
  have hRange : 0 + lengths.sum ≤ x.seqLen := by omega
  have hSlices : x.slicesAt 0 lengths ≠ [] := by
    apply List.ne_nil_of_length_pos
    rw [length_slicesAt]
    exact List.length_pos_iff.mpr hSome
  have hTotal : ((x.slicesAt 0 lengths).map seqLen).sum < Size.limit := by
    rw [map_seqLen_slicesAt, hSum]
    exact h.fits.seqLen_lt
  rw [concat_eq_join hSlices (fun y hy => mem_slicesAt h hRange hy) hTotal,
    join_slicesAt h hRange, hSum, slice_all h.length_data]

/-! ## The parts of a joined latent -/

theorem sum_length_data {first : Latent} {parts : List Latent}
    (h : ∀ x ∈ parts, first.Compatible x ∧ x.Sound) :
    (parts.map fun x => x.data.length).sum =
      first.shape.outer * ((parts.map seqLen).sum * first.rowSize) := by
  induction parts with
  | nil => simp
  | cons x parts ih =>
    obtain ⟨hRows, hSound⟩ := h x List.mem_cons_self
    simp only [List.map_cons, List.sum_cons, ih fun y hy => h y (List.mem_cons_of_mem _ hy),
      hSound.length_data, hRows.rowSize_eq, ← hRows.2.1, Nat.add_mul, Nat.mul_add]

theorem cutsTo_part {first : Latent} {parts : List Latent}
    (h : ∀ x ∈ parts, first.Compatible x ∧ x.Sound) (hSum : (parts.map seqLen).sum < Size.limit)
    (hData : (parts.map fun x => x.data.length).sum < Size.limit) {i : Nat}
    (hi : i < parts.length) :
    (first.join parts).CutsTo ((parts.take i).map seqLen).sum parts[i].seqLen parts[i] := by
  have hSplit : parts.take i ++ [parts[i]] ++ parts.drop (i + 1) = parts := by
    rw [List.take_append_getElem, List.take_append_drop]
  have hJoin : (first.join parts).data.length < Size.limit := by
    rwa [length_data_join h, ← sum_length_data h]
  have hCuts := cutsTo_join (hSplit.symm ▸ h) (by rwa [hSplit]) (by rwa [hSplit])
  obtain ⟨hRows, hSound⟩ := h parts[i] (List.getElem_mem hi)
  rw [hSplit, join_singleton hRows hSound.exact] at hCuts
  simpa using hCuts

end LatentCache.Latent
