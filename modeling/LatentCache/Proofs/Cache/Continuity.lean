import LatentCache.Proofs.Cache.Retrieval
import LatentCache.Proofs.Cache.Storing

/-!
# Retrieving after a store

A store continues what was stored before it without a gap and without an overlap: a retrieval
afterwards covers all complete chunks, with the restored positions first and the stored ones after
them.
-/

namespace LatentCache.Cache

variable {σ : Type} {m : Medium σ} {sound : σ → Prop}
  {contents : σ → ContentAddress → Option Bytes} {c : Cache} {tokens : List Token}
  {x : Latent} {offset : Nat}

/-! ## The records after a store -/

theorem chunkAddress_injective (hFree : CollisionFree (chunkPrefixes c.chunkSize tokens 0))
    {i j : Nat} (hi : i < tokens.length / c.chunkSize) (hj : j < tokens.length / c.chunkSize)
    (h : chunkAddress c.chunkSize tokens i = chunkAddress c.chunkSize tokens j) : i = j :=
  chunkPrefix_injective c.chunking.size_pos hi hj
    (hFree.eq_of_address (mem_chunkPrefixes (Nat.zero_le i) hi)
      (mem_chunkPrefixes (Nat.zero_le j) hj) h)

/-- The records of a sequence after a store from an offset on: new ones from there, old ones
before. -/
structure Continues (c : Cache) (tokens : List Token) (x : Latent) (offset : Nat)
    (before after : Nat → Option Latent) : Prop where
  old : ∀ i < tokens.length / c.chunkSize, i < offset / c.chunkSize → after i = before i
  new : ∀ i < tokens.length / c.chunkSize, offset / c.chunkSize ≤ i →
    after i = some (c.chunkSlice x offset i)

theorem continues_of_store (hServes : m.Serves sound contents) {s t : Session σ}
    (hs : sound s.storage) (hSound : x.Sound) (hHeader : c.HeaderFits x)
    (hFree : CollisionFree (chunkPrefixes c.chunkSize tokens 0)) {stored : Stored}
    (hStore : c.store m tokens x offset s = (.ok stored, t)) :
    c.Continues tokens x offset (c.recordAt (contents s.storage) tokens)
      (c.recordAt (contents t.storage) tokens) := by
  obtain ⟨records, hRecords, -, hContents⟩ := store_contents hServes hs hStore
  have hEntries := records_decode hSound (fun _ => hHeader) hRecords
  -- The records overwrite the contents as the slices overwrite the latents by chunk.
  have hAfter := overwrite_related
    (R := fun bytes? latent? =>
      (bytes?.bind fun bytes => (c.codec.decode bytes).toOption) = latent?)
    (chunkAddress c.chunkSize tokens) (· < tokens.length / c.chunkSize)
    (fun i j hi hj => chunkAddress_injective hFree hi hj)
    (List.forall₂_map_right_iff (f := fun i => (i, c.chunkSlice x offset i)).mpr
      (hEntries.imp fun record i h => ⟨h.2.1, h.1.2, by simp [h.2.2, Except.toOption]⟩))
    (g := c.recordAt (contents s.storage) tokens) (fun i _ => rfl)
  rw [← hContents] at hAfter
  constructor
  · intro i hi hOld
    refine (hAfter i hi).trans (overwrite_of_ne fun entry hEntry => ?_)
    obtain ⟨j, hj, rfl⟩ := List.mem_map.mp hEntry
    have hFrom := (List.mem_range'_1.mp hj).1
    exact (hOld.trans_le hFrom).ne'
  · intro i hi hNew
    refine (hAfter i hi).trans (overwrite_of_mem ?_ fun entry hEntry hSame => ?_)
    · exact List.mem_map.mpr ⟨i, List.mem_range'_1.mpr (by omega), rfl⟩
    · obtain ⟨j, -, rfl⟩ := List.mem_map.mp hEntry
      obtain rfl : j = i := hSame
      rfl

/-! ## Leading counts after a store -/

section Continues

variable {before after : Nat → Option Latent} (h : c.Continues tokens x offset before after)
include h

theorem Continues.usable_new {first : Latent} (hFirst : after 0 = some first)
    (hRows : first.Compatible x) {i : Nat} (hi : i < tokens.length / c.chunkSize)
    (hNew : offset / c.chunkSize ≤ i) : c.UsableAt after i :=
  ⟨_, h.new i hi hNew, rfl, fun _ => ⟨first, hFirst, hRows.trans (x.compatible_slice _ _)⟩⟩

theorem Continues.leading_all_of_zero (hOffset : offset / c.chunkSize = 0) :
    LeadingCount (c.UsableAt after) (tokens.length / c.chunkSize)
      (tokens.length / c.chunkSize) where
  le := Nat.le_refl _
  holds i hi := by
    have hPos : 0 < tokens.length / c.chunkSize := (Nat.zero_le i).trans_lt hi
    exact h.usable_new (h.new 0 hPos hOffset.le) (x.compatible_slice _ _).symm hi
      (hOffset ▸ Nat.zero_le i)
  stops hLt := absurd hLt (Nat.lt_irrefl _)

section Old

variable (hPos : 0 < offset / c.chunkSize)
  (hLt : offset / c.chunkSize < tokens.length / c.chunkSize)
  (hOld : ∀ i < offset / c.chunkSize, c.UsableAt before i)
include hPos hLt hOld

theorem Continues.usable_old {i : Nat} (hi : i < offset / c.chunkSize) : c.UsableAt after i :=
  (hOld i hi).congr (h.old i (hi.trans hLt) hi) (h.old 0 (hPos.trans hLt) hPos)

theorem Continues.leading_all {first : Latent} (hFirst : before 0 = some first)
    (hRows : first.Compatible x) :
    LeadingCount (c.UsableAt after) (tokens.length / c.chunkSize)
      (tokens.length / c.chunkSize) where
  le := Nat.le_refl _
  holds i hi := by
    rcases Nat.lt_or_ge i (offset / c.chunkSize) with hOldAt | hNewAt
    · exact h.usable_old hPos hLt hOld hOldAt
    · exact h.usable_new ((h.old 0 (hPos.trans hLt) hPos).trans hFirst) hRows hi hNewAt
  stops hEnd := absurd hEnd (Nat.lt_irrefl _)

theorem Continues.leading_old {first : Latent} (hFirst : before 0 = some first)
    (hRows : ¬ first.Compatible x) :
    LeadingCount (c.UsableAt after) (tokens.length / c.chunkSize) (offset / c.chunkSize) where
  le := hLt.le
  holds _ hi := h.usable_old hPos hLt hOld hi
  stops _ := by
    rintro ⟨y, hy, -, hCompatible⟩
    obtain ⟨first', hFirst', hRows'⟩ := hCompatible hPos
    rw [h.old 0 (hPos.trans hLt) hPos, hFirst] at hFirst'
    cases hFirst'
    rw [h.new _ hLt (Nat.le_refl _)] at hy
    cases hy
    exact hRows (hRows'.trans (x.compatible_slice _ _).symm)

end Old

end Continues

/-! ## The slices of a store -/

theorem map_chunkSlice (c : Cache) (x : Latent) (offset start n : Nat) :
    (List.range' (offset / c.chunkSize + start) n).map (c.chunkSlice x offset) =
      x.slicesAt (start * c.chunkSize) (List.replicate n c.chunkSize) := by
  induction n generalizing start with
  | zero => rfl
  | succ n ih =>
    have hStart : offset / c.chunkSize + start - offset / c.chunkSize = start := by omega
    rw [List.range'_succ, List.map_cons, List.replicate_succ, Latent.slicesAt, chunkSlice, hStart,
      Nat.add_assoc, ih, Nat.succ_mul]

def chunkSlices (c : Cache) (tokens : List Token) (x : Latent) (offset : Nat) : List Latent :=
  (List.range' (offset / c.chunkSize)
    (tokens.length / c.chunkSize - offset / c.chunkSize)).map (c.chunkSlice x offset)

theorem chunkSlices_eq (c : Cache) (tokens : List Token) (x : Latent) (offset : Nat) :
    c.chunkSlices tokens x offset = x.slicesAt 0
      (List.replicate (tokens.length / c.chunkSize - offset / c.chunkSize) c.chunkSize) := by
  simpa [chunkSlices] using map_chunkSlice c x offset 0
    (tokens.length / c.chunkSize - offset / c.chunkSize)

section Slices

variable (hSound : x.Sound) (hReaches : c.Reaches tokens offset x)
include hSound hReaches

theorem chunkSlices_sound : ∀ y ∈ c.chunkSlices tokens x offset, x.Compatible y ∧ y.Sound := by
  intro y hy
  rw [chunkSlices_eq] at hy
  refine Latent.mem_slicesAt hSound ?_ hy
  rw [List.sum_replicate_nat, Nat.zero_add]
  exact hReaches

theorem join_chunkSlices : x.join (c.chunkSlices tokens x offset) = x.slice 0
    ((tokens.length / c.chunkSize - offset / c.chunkSize) * c.chunkSize) := by
  rw [chunkSlices_eq, Latent.join_slicesAt hSound, List.sum_replicate_nat]
  rw [List.sum_replicate_nat, Nat.zero_add]
  exact hReaches

end Slices

theorem sum_chunkSlices (c : Cache) (tokens : List Token) (x : Latent) (offset : Nat) :
    ((c.chunkSlices tokens x offset).map Latent.seqLen).sum =
      (tokens.length / c.chunkSize - offset / c.chunkSize) * c.chunkSize := by
  rw [chunkSlices_eq, Latent.map_seqLen_slicesAt, List.sum_replicate_nat]

/-! ## The restored positions -/

theorem wellFormed_of_recordAt {stored : ContentAddress → Option Bytes} {i : Nat} {y : Latent}
    (h : c.recordAt stored tokens i = some y) : y.WellFormed := by
  obtain ⟨bytes, -, hDecode⟩ := recordAt_eq_some h
  exact Codec.wellFormed_of_decode hDecode

/-- The latents of the first `count` chunks, all usable, and what they join to. -/
structure Restores (c : Cache) (record : Nat → Option Latent) (count : Nat) (parts : List Latent)
    (y : Latent) : Prop where
  pos : 0 < count
  usable : ∀ i < count, c.UsableAt record i
  records : parts.map some = (List.range count).map record
  concat : Latent.concat parts = .ok y

section Restores

variable {record : Nat → Option Latent} {count : Nat} {parts : List Latent} {y : Latent}
  (h : c.Restores record count parts y)
include h

theorem Restores.exists_first : ∃ first, record 0 = some first ∧ first.Compatible y ∧
    (count * c.chunkSize < Size.limit → y.seqLen = count * c.chunkSize) := by
  obtain ⟨first, z, hFirst, hConcat, hRows, hLength⟩ := concat_usable h.usable h.records h.pos
  obtain rfl : z = y := Except.ok.inj (hConcat.symm.trans h.concat)
  exact ⟨first, hFirst, hRows, hLength⟩

theorem Restores.of_mem {z : Latent} (hz : z ∈ parts) :
    z.seqLen = c.chunkSize ∧ y.Compatible z := by
  obtain ⟨first, hFirst, hRows, -⟩ := h.exists_first
  obtain ⟨hLength, hCompatible⟩ := usable_of_mem h.usable h.records hFirst hz
  exact ⟨hLength, hRows.symm.trans hCompatible⟩

theorem Restores.length_parts : parts.length = count := by
  simpa using congrArg List.length h.records

theorem Restores.sum_seqLen : (parts.map Latent.seqLen).sum = count * c.chunkSize := by
  rw [Latent.sum_seqLen_of_forall fun z hz => (h.of_mem hz).1, h.length_parts]

theorem Restores.record_of_mem {z : Latent} (hz : z ∈ parts) : ∃ i, record i = some z := by
  have hRecord : some z ∈ parts.map some := List.mem_map.mpr ⟨z, hz, rfl⟩
  rw [h.records] at hRecord
  obtain ⟨i, -, hAt⟩ := List.mem_map.mp hRecord
  exact ⟨i, hAt⟩

theorem Restores.sound_of_mem (hWellFormed : ∀ i z, record i = some z → z.WellFormed)
    (hLimit : count * c.chunkSize < Size.limit) (hFits : y.Fits) {z : Latent} (hz : z ∈ parts) :
    z.Sound := by
  obtain ⟨hChunk, hRows⟩ := h.of_mem hz
  obtain ⟨i, hAt⟩ := h.record_of_mem hz
  refine ⟨hFits.of_seqLen_le hRows ?_, hWellFormed i z hAt⟩
  obtain ⟨first, -, -, hLength⟩ := h.exists_first
  rw [hLength hLimit, hChunk]
  exact Nat.le_mul_of_pos_left _ h.pos

theorem Restores.eq_join (hParts : ∀ z ∈ parts, y.Compatible z ∧ z.Sound)
    (hLimit : count * c.chunkSize < Size.limit) : y = y.join parts := by
  have hSome : parts ≠ [] := by
    rintro rfl
    exact h.pos.ne h.length_parts
  have hJoin := Latent.concat_eq_join hSome hParts (h.sum_seqLen ▸ hLimit)
  exact Except.ok.inj (h.concat.symm.trans hJoin)

end Restores

theorem recordAt_take {stored : ContentAddress → Option Bytes} {count i : Nat} (hi : i < count) :
    c.recordAt stored (tokens.take (count * c.chunkSize)) i = c.recordAt stored tokens i := by
  rw [recordAt, recordAt, chunkAddress, chunkPrefix_take tokens hi, ← chunkAddress]

theorem restores_of_retrieve (h : m.Readable sound contents) (hLength : tokens.length < Size.limit)
    (hMultiple : offset = offset / c.chunkSize * c.chunkSize) {s t : Session σ}
    (hs : sound s.storage) {restored : Latent}
    (hRetrieve : c.retrieve m (tokens.take offset) s = (.ok ⟨some restored, offset⟩, t)) :
    ∃ parts, c.Restores (c.recordAt (contents s.storage) tokens) (offset / c.chunkSize) parts
      restored := by
  have hTake : (tokens.take offset).length < Size.limit :=
    (List.length_take_le' _ _).trans_lt hLength
  obtain ⟨count, parts, hCovered, hPos, hLeading, hParts, hConcat⟩ :=
    leading_of_retrieve h hTake hs hRetrieve
  obtain rfl : count = offset / c.chunkSize :=
    Nat.eq_of_mul_eq_mul_right c.chunking.size_pos (hCovered.symm.trans hMultiple)
  have hAt : ∀ i < offset / c.chunkSize, c.recordAt (contents s.storage) tokens i =
      c.recordAt (contents s.storage) (tokens.take offset) i := by
    intro i hi
    rw [hMultiple]
    exact (recordAt_take hi).symm
  refine ⟨parts, hPos, fun i hi => ?_, ?_, hConcat⟩
  · exact (hLeading.holds i hi).congr (hAt i hi) (hAt 0 hPos)
  · rw [hParts]
    exact List.map_congr_left fun i hi => (hAt i (List.mem_range.mp hi)).symm

/-! ## Retrieving everything -/

theorem chunkSlices_ne_nil (hLt : offset / c.chunkSize < tokens.length / c.chunkSize) :
    c.chunkSlices tokens x offset ≠ [] := by
  intro hNone
  have hCount := congrArg List.length hNone
  rw [chunkSlices, List.length_map, List.length_range', List.length_nil] at hCount
  omega

theorem mul_chunkSize_lt (c : Cache) (hLength : tokens.length < Size.limit) {n : Nat}
    (hn : n ≤ tokens.length / c.chunkSize) : n * c.chunkSize < Size.limit :=
  (Nat.mul_le_of_le_div _ _ _ hn).trans_lt hLength

theorem concat_chunkSlices (hSound : x.Sound) (hReaches : c.Reaches tokens offset x)
    (hLength : tokens.length < Size.limit)
    (hLt : offset / c.chunkSize < tokens.length / c.chunkSize) :
    Latent.concat (c.chunkSlices tokens x offset) = .ok (x.slice 0
      ((tokens.length / c.chunkSize - offset / c.chunkSize) * c.chunkSize)) := by
  have hSum : ((c.chunkSlices tokens x offset).map Latent.seqLen).sum < Size.limit := by
    rw [sum_chunkSlices]
    exact c.mul_chunkSize_lt hLength (Nat.sub_le _ _)
  rw [Latent.concat_eq_join (chunkSlices_ne_nil hLt) (chunkSlices_sound hSound hReaches) hSum,
    join_chunkSlices hSound hReaches]

theorem Restores.concat_append {record : Nat → Option Latent} {parts : List Latent}
    {restored : Latent} (h : c.Restores record (offset / c.chunkSize) parts restored)
    (hParts : ∀ y ∈ parts, restored.Compatible y ∧ y.Sound) (hFits : restored.Fits)
    (hSound : x.Sound) (hReaches : c.Reaches tokens offset x)
    (hLength : tokens.length < Size.limit)
    (hLt : offset / c.chunkSize < tokens.length / c.chunkSize)
    (hRows : restored.Compatible x) :
    ∃ z, Latent.concat (parts ++ c.chunkSlices tokens x offset) = .ok z ∧
      Latent.concat [restored, x.slice 0
        ((tokens.length / c.chunkSize - offset / c.chunkSize) * c.chunkSize)] = .ok z := by
  have hJoin := h.eq_join hParts (c.mul_chunkSize_lt hLength hLt.le)
  have hSlices : ∀ y ∈ c.chunkSlices tokens x offset, restored.Compatible y ∧ y.Sound := by
    intro y hy
    obtain ⟨hCompatible, hy⟩ := chunkSlices_sound hSound hReaches y hy
    exact ⟨hRows.trans hCompatible, hy⟩
  have hStored : restored.join (c.chunkSlices tokens x offset) = x.slice 0
      ((tokens.length / c.chunkSize - offset / c.chunkSize) * c.chunkSize) := by
    rw [← Latent.join_congr hRows, join_chunkSlices hSound hReaches]
  have hTotal : (parts.map Latent.seqLen).sum +
      ((c.chunkSlices tokens x offset).map Latent.seqLen).sum < Size.limit := by
    rw [h.sum_seqLen, sum_chunkSlices, ← Nat.add_mul, Nat.add_sub_cancel' hLt.le]
    exact c.mul_chunkSize_lt hLength (Nat.le_refl _)
  have hWhole := Latent.concat_append (chunkSlices_ne_nil hLt) hParts hSlices
    (Latent.Sound.join hParts (hJoin ▸ hFits))
    (hStored ▸ hSound.slice ((Nat.zero_add _).trans_le hReaches)) hTotal
  rwa [← hJoin, hStored] at hWhole

theorem Continues.map_range {before after : Nat → Option Latent}
    (h : c.Continues tokens x offset before after)
    (hLe : offset / c.chunkSize ≤ tokens.length / c.chunkSize) {parts : List Latent}
    (hParts : parts.map some = (List.range (offset / c.chunkSize)).map before) :
    (parts ++ c.chunkSlices tokens x offset).map some =
      (List.range (tokens.length / c.chunkSize)).map after := by
  have hOld : (List.range (offset / c.chunkSize)).map after =
      (List.range (offset / c.chunkSize)).map before := by
    refine List.map_congr_left fun i hi => ?_
    have hLt := List.mem_range.mp hi
    exact h.old i (hLt.trans_le hLe) hLt
  have hNew : (c.chunkSlices tokens x offset).map some =
      (List.range' (offset / c.chunkSize)
        (tokens.length / c.chunkSize - offset / c.chunkSize)).map after := by
    rw [chunkSlices, List.map_map]
    refine List.map_congr_left fun i hi => (h.new i ?_ ?_).symm
    all_goals
      rw [List.mem_range'_1] at hi
      omega
  have hSplit := range'_split (Nat.zero_le _) hLe
  rw [Nat.sub_zero, Nat.sub_zero] at hSplit
  rw [List.map_append, hParts, ← hOld, hNew, List.range_eq_range', List.range_eq_range', ← hSplit,
    List.map_append]

section Retrieve

variable {before : Nat → Option Latent} {t : Session σ}
  (h : c.Continues tokens x offset before (c.recordAt (contents t.storage) tokens))
  (hReadable : m.Readable sound contents) (ht : sound t.storage)
  (hLength : tokens.length < Size.limit)
  (hLt : offset / c.chunkSize < tokens.length / c.chunkSize)
include h hReadable ht hLength hLt

theorem Continues.retrieve_stored (hSound : x.Sound) (hReaches : c.Reaches tokens offset x)
    (hZero : offset / c.chunkSize = 0) :
    ∃ u, c.retrieve m tokens t =
      (.ok ⟨some (x.slice 0 (tokens.length / c.chunkSize * c.chunkSize)),
        tokens.length / c.chunkSize * c.chunkSize⟩, u) := by
  have hNone : ([] : List Latent).map some = (List.range (offset / c.chunkSize)).map before := by
    rw [hZero]
    rfl
  have hConcat := concat_chunkSlices hSound hReaches hLength hLt
  rw [hZero, Nat.sub_zero] at hConcat
  exact retrieve_of_leading hReadable hLength ht (h.leading_all_of_zero hZero)
    (Nat.zero_lt_of_lt hLt) (h.map_range hLt.le hNone) hConcat

section Restored

variable {parts : List Latent} {restored : Latent}
  (hRestores : c.Restores before (offset / c.chunkSize) parts restored)
include hRestores

theorem Continues.retrieve_all (hRows : restored.Compatible x) {z : Latent}
    (hConcat : Latent.concat (parts ++ c.chunkSlices tokens x offset) = .ok z) :
    ∃ u, c.retrieve m tokens t =
      (.ok ⟨some z, tokens.length / c.chunkSize * c.chunkSize⟩, u) := by
  obtain ⟨first, hFirst, hRowsFirst, -⟩ := hRestores.exists_first
  have hLeading := h.leading_all hRestores.pos hLt hRestores.usable hFirst (hRowsFirst.trans hRows)
  exact retrieve_of_leading hReadable hLength ht hLeading (Nat.zero_lt_of_lt hLt)
    (h.map_range hLt.le hRestores.records) hConcat

theorem Continues.retrieve_old (hRows : ¬ restored.Compatible x) :
    ∃ u, c.retrieve m tokens t =
      (.ok ⟨some restored, offset / c.chunkSize * c.chunkSize⟩, u) := by
  obtain ⟨first, hFirst, hRowsFirst, -⟩ := hRestores.exists_first
  have hLeading := h.leading_old hRestores.pos hLt hRestores.usable hFirst
    fun hFirstRows => hRows (hRowsFirst.symm.trans hFirstRows)
  have hOld : parts.map some = (List.range (offset / c.chunkSize)).map
      (c.recordAt (contents t.storage) tokens) := by
    rw [hRestores.records]
    refine List.map_congr_left fun i hi => ?_
    have hOldAt := List.mem_range.mp hi
    exact (h.old i (hOldAt.trans hLt) hOldAt).symm
  exact retrieve_of_leading hReadable hLength ht hLeading hRestores.pos hOld hRestores.concat

end Restored

end Retrieve

/-- After a store that succeeds, a retrieval covers all complete chunks without a gap and without
an overlap, whatever was stored before: it gives the stored positions alone, or the restored ones
and the stored ones after them. Restored positions with other rows stay as they were. -/
theorem retrieve_after_store (hServes : m.Serves sound contents) (c : Cache)
    (tokens : List Token) (hLength : tokens.length < Size.limit) (x : Latent) (hSound : x.Sound)
    (hHeader : c.HeaderFits x) (hFree : CollisionFree (chunkPrefixes c.chunkSize tokens 0))
    (offset : Nat) (hOffset : offset < tokens.length / c.chunkSize * c.chunkSize)
    (s t : Session σ) (hs : sound s.storage) (stored : Stored)
    (hStore : c.store m tokens x offset s = (.ok stored, t)) :
    (offset = 0 → ∃ y u, x.narrow 0 (tokens.length / c.chunkSize * c.chunkSize) = .ok y ∧
      c.retrieve m tokens t = (.ok ⟨some y, tokens.length / c.chunkSize * c.chunkSize⟩, u)) ∧
    ∀ (restored : Latent) (s₀ s₁ : Session σ), 0 < offset → restored.Fits → sound s₀.storage →
      contents s₀.storage = contents s.storage →
      c.retrieve m (tokens.take offset) s₀ = (.ok ⟨some restored, offset⟩, s₁) →
      (restored.Compatible x → ∃ y z u,
        x.narrow 0 (tokens.length / c.chunkSize * c.chunkSize - offset) = .ok y ∧
        Latent.concat [restored, y] = .ok z ∧
        c.retrieve m tokens t = (.ok ⟨some z, tokens.length / c.chunkSize * c.chunkSize⟩, u)) ∧
      (¬ restored.Compatible x → ∃ u,
        c.retrieve m tokens t = (.ok ⟨some restored, offset⟩, u)) := by
  obtain ⟨records, hRecords, ht, -⟩ := store_contents hServes hs hStore
  obtain ⟨hAligned, hReaches, -⟩ := records_eq_ok hRecords
  have hContinues := continues_of_store hServes hs hSound hHeader hFree hStore
  have hMultiple : offset = offset / c.chunkSize * c.chunkSize :=
    (Nat.div_mul_cancel (Nat.dvd_of_mod_eq_zero hAligned)).symm
  have hLt : offset / c.chunkSize < tokens.length / c.chunkSize := by
    rw [hMultiple] at hOffset
    exact Nat.lt_of_mul_lt_mul_right hOffset
  have hNarrow : x.narrow 0 ((tokens.length / c.chunkSize - offset / c.chunkSize) * c.chunkSize) =
      .ok (x.slice 0 _) := Latent.narrow_eq hSound.fits ((Nat.zero_add _).trans_le hReaches)
  constructor
  · intro hZero
    have hFirst : offset / c.chunkSize = 0 := by rw [hZero, Nat.zero_div]
    obtain ⟨u, hRetrieve⟩ := hContinues.retrieve_stored hServes.toReadable ht hLength hLt hSound
      hReaches hFirst
    rw [hFirst, Nat.sub_zero] at hNarrow
    exact ⟨_, u, hNarrow, hRetrieve⟩
  · intro restored s₀ s₁ hPos hFits hs₀ hSame hRestored
    obtain ⟨parts, hRestores⟩ :=
      restores_of_retrieve hServes.toReadable hLength hMultiple hs₀ hRestored
    have hParts : ∀ y ∈ parts, restored.Compatible y ∧ y.Sound := fun y hy =>
      ⟨(hRestores.of_mem hy).2, hRestores.sound_of_mem (fun _ _ => wellFormed_of_recordAt)
        (c.mul_chunkSize_lt hLength hLt.le) hFits hy⟩
    rw [hSame] at hRestores
    constructor
    · intro hRows
      obtain ⟨z, hWhole, hBoth⟩ :=
        hRestores.concat_append hParts hFits hSound hReaches hLength hLt hRows
      obtain ⟨u, hRetrieve⟩ :=
        hContinues.retrieve_all hServes.toReadable ht hLength hLt hRestores hRows hWhole
      rw [Nat.sub_mul, ← hMultiple] at hNarrow hBoth
      exact ⟨_, z, u, hNarrow, hBoth, hRetrieve⟩
    · intro hRows
      obtain ⟨u, hRetrieve⟩ :=
        hContinues.retrieve_old hServes.toReadable ht hLength hLt hRestores hRows
      rw [← hMultiple] at hRetrieve
      exact ⟨u, hRetrieve⟩

def singles : Cache := ⟨⟨1, by decide⟩, .raw ⟨.f16, ⟨1, 1, [1]⟩, by decide⟩, rfl⟩

def single (low high : UInt8) : Latent := ⟨.f16, ⟨1, 1, [1]⟩, [low, high]⟩

theorem retrieve_single {token : Token} {low high : UInt8} (s : Session Memory)
    (hs : s.storage.get? (.ofTokens [token]) = some [low, high]) :
    ∃ u, singles.retrieve Memory.medium [token] s = (.ok ⟨some (single low high), 1⟩, u) := by
  have hFound : singles.found s.storage.get? none [(0, .ofTokens [token])] =
      ⟨[single low high], false, []⟩ := by
    rw [found, hs]
    rfl
  have hChunks : singles.chunks [token] = [(0, .ofTokens [token])] := by
    have hCount : [token].length / singles.chunkSize = 1 := Nat.div_one 1
    rw [chunks_eq, hCount]
    rfl
  rw [retrieve, hChunks, find_eq Memory.serves.toReadable none _ trivial, hFound]
  exact ⟨_, rfl⟩

theorem retrieve_singles : ∃ t u,
    singles.store Memory.medium [7, 8] (single 12 13) 1
      ⟨Table.empty.insert (.ofTokens [7]) [10, 11], {}, {}, []⟩ = (.ok ⟨1, 2⟩, t) ∧
    singles.retrieve Memory.medium [7, 8] t =
      (.ok ⟨some ⟨.f16, ⟨1, 2, [1]⟩, [10, 11, 12, 13]⟩, 2⟩, u) := by
  have hRecords : singles.records [7, 8] (single 12 13) 1 =
      .ok [(.ofTokens [7, 8], [12, 13])] := by
    rw [records, if_neg (by decide)]
    dsimp only
    rw [Chunking.prefixAddresses_toList]
    decide +kernel
  have hStore (s : Session Memory) :
      ∃ t, singles.store Memory.medium [7, 8] (single 12 13) 1 s = (.ok ⟨1, 2⟩, t) := by
    rw [store, hRecords]
    exact ⟨_, rfl⟩
  have hFree : CollisionFree (chunkPrefixes 1 [7, 8] 0) := by
    unfold CollisionFree
    decide +kernel
  obtain ⟨t, hStore⟩ := hStore ⟨Table.empty.insert (.ofTokens [7]) [10, 11], {}, {}, []⟩
  obtain ⟨u, hRestored⟩ := retrieve_single
    ⟨Table.empty.insert (.ofTokens [7]) [10, 11], {}, {}, []⟩ (by rw [Table.get?_insert, if_pos rfl])
  obtain ⟨-, hLater⟩ := retrieve_after_store Memory.serves singles [7, 8] (by decide)
    (single 12 13) ⟨by decide, by decide⟩ (fun hCodec => by cases hCodec) hFree 1 (by decide) _ t
    trivial _ hStore
  obtain ⟨y, z, v, hNarrow, hConcat, hRetrieve⟩ :=
    (hLater (single 10 11) _ u (by decide) (by decide) trivial rfl hRestored).1 (by decide)
  have hRange : (single 12 13).narrow 0 1 = .ok (single 12 13) := by decide +kernel
  have hWhole : Latent.concat [single 10 11, single 12 13] =
      .ok ⟨.f16, ⟨1, 2, [1]⟩, [10, 11, 12, 13]⟩ := by decide +kernel
  obtain rfl : single 12 13 = y := Except.ok.inj (hRange.symm.trans hNarrow)
  obtain rfl : _ = z := Except.ok.inj (hWhole.symm.trans hConcat)
  exact ⟨t, v, hStore, hRetrieve⟩

end LatentCache.Cache
