import LatentCache.Proofs.Cache.Continuity

/-!
# Retrieving sequences that begin alike

Two sequences that share a prefix share the retrieval of its complete chunks. It covers as many
tokens of the prefix for both and gives the same positions for them, however many chunks are found
after it; and for the prefix alone it gives exactly these.
-/

namespace LatentCache

theorem LeadingCount.restrict {p : Nat → Prop} {total shorter count : Nat}
    (h : LeadingCount p total count) (hLe : shorter ≤ total) :
    LeadingCount p shorter (min count shorter) where
  le := Nat.min_le_right _ _
  holds i hi := h.holds i (hi.trans_le (Nat.min_le_left _ _))
  stops hLt := by
    have hCount : count < shorter := by omega
    rw [Nat.min_eq_left hCount.le]
    exact h.stops (hCount.trans_le hLe)

namespace Cache

variable {σ : Type} {m : Medium σ} {sound : σ → Prop}
  {contents : σ → ContentAddress → Option Bytes} {c : Cache} {tokens others : List Token}

/-! ## Leading chunks -/

section Restores

variable {record : Nat → Option Latent} {count k : Nat} {parts : List Latent} {y : Latent}
  (h : c.Restores record count parts y)
include h

theorem Restores.congr {other : Nat → Option Latent} (hAt : ∀ i < count, other i = record i) :
    c.Restores other count parts y where
  pos := h.pos
  usable i hi := (h.usable i hi).congr (hAt i hi) (hAt 0 h.pos)
  records := by
    rw [h.records]
    exact List.map_congr_left fun i hi => (hAt i (List.mem_range.mp hi)).symm
  concat := h.concat

theorem Restores.unique {parts' : List Latent} {z : Latent}
    (h' : c.Restores record count parts' z) : y = z := by
  have hSame := h.records.trans h'.records.symm
  obtain rfl : parts = parts' := List.map_injective_iff.mpr (Option.some_injective _) hSame
  exact Except.ok.inj (h.concat.symm.trans h'.concat)

theorem Restores.compatible_sound (hSound : ∀ i z, record i = some z → z.Sound) :
    ∀ z ∈ parts, y.Compatible z ∧ z.Sound := by
  intro z hz
  obtain ⟨i, hAt⟩ := h.record_of_mem hz
  exact ⟨(h.of_mem hz).2, hSound i z hAt⟩

theorem Restores.take (hParts : ∀ z ∈ parts, y.Compatible z ∧ z.Sound)
    (hLimit : count * c.chunkSize < Size.limit) (hPos : 0 < k) (hk : k ≤ count) :
    c.Restores record k (parts.take k) (y.join (parts.take k)) where
  pos := hPos
  usable i hi := h.usable i (hi.trans_le hk)
  records := by
    rw [List.map_take, h.records, ← List.map_take, List.take_range, Nat.min_eq_left hk]
  concat := by
    have hLength : (parts.take k).length = k := by
      rw [List.length_take, h.length_parts, Nat.min_eq_left hk]
    have hSum : ((parts.take k).map Latent.seqLen).sum = k * c.chunkSize := by
      rw [Latent.sum_seqLen_of_forall fun z hz => (h.of_mem (List.mem_of_mem_take hz)).1, hLength]
    refine Latent.concat_eq_join ?_ (fun z hz => hParts z (List.mem_of_mem_take hz)) ?_
    · exact List.ne_nil_of_length_pos (hLength.symm ▸ hPos)
    · rw [hSum]
      exact (Nat.mul_le_mul_right _ hk).trans_lt hLimit

theorem Restores.cutsTo (hParts : ∀ z ∈ parts, y.Compatible z ∧ z.Sound)
    (hLimit : count * c.chunkSize < Size.limit) (hData : y.data.length < Size.limit)
    (hPos : 0 < k) (hk : k ≤ count) :
    y.CutsTo 0 (k * c.chunkSize) (y.join (parts.take k)) := by
  have hJoin := h.eq_join hParts hLimit
  have hSplit : [] ++ parts.take k ++ parts.drop k = parts := List.take_append_drop k parts
  have hCuts := Latent.cutsTo_join (hSplit.symm ▸ hParts) (by rwa [hSplit, h.sum_seqLen])
    (by rwa [hSplit, ← hJoin])
  rw [hSplit, ← hJoin, (h.take hParts hLimit hPos hk).sum_seqLen] at hCuts
  exact hCuts

end Restores

/-- A retrieval covers the leading usable ones of `total` chunks, whose latents are sound. -/
structure Leads (c : Cache) (record : Nat → Option Latent) (total count : Nat) (r : Retrieved) :
    Prop where
  leading : LeadingCount (c.UsableAt record) total count
  covers : c.Covers record count r
  sound : ∀ i y, record i = some y → y.Sound
  limit : total * c.chunkSize < Size.limit

section Leads

variable {record other : Nat → Option Latent} {total total' count count' k : Nat}
  {r r' : Retrieved} (h : c.Leads record total count r)
include h

theorem Leads.restores (hPos : 0 < count) :
    ∃ parts y, r.latent? = some y ∧ c.Restores record count parts y := by
  obtain ⟨parts, y, hParts, hConcat, hLatent, -⟩ := h.covers.present hPos
  exact ⟨parts, y, hLatent, hPos, h.leading.holds, hParts, hConcat⟩

/-- The latent of the first `k` chunks is cut out of that of all, as soon as its data fit. -/
theorem Leads.cutsTo (hPos : 0 < k) (hk : k ≤ count) :
    ∃ parts y z, r.latent? = some y ∧ c.Restores record k parts z ∧
      (y.data.length < Size.limit → y.CutsTo 0 (k * c.chunkSize) z) := by
  obtain ⟨parts, y, hLatent, hRestores⟩ := h.restores (hPos.trans_le hk)
  have hParts := hRestores.compatible_sound h.sound
  have hLimit := (Nat.mul_le_mul_right c.chunkSize h.leading.le).trans_lt h.limit
  exact ⟨_, y, _, hLatent, hRestores.take hParts hLimit hPos hk,
    fun hData => hRestores.cutsTo hParts hLimit hData hPos hk⟩

section Shared

variable (h' : c.Leads other total' count' r') (hAt : ∀ i < k, other i = record i)
include h' hAt

theorem Leads.count_eq (hk : k ≤ total) (hk' : k ≤ total') : min count k = min count' k :=
  (leadingCount_congr (h.leading.restrict hk) hAt).unique (h'.leading.restrict hk')

theorem Leads.cutsTo_shared (hPos : 0 < k) (hCount : k ≤ count) (hCount' : k ≤ count') :
    ∃ y y' z, r.latent? = some y ∧ r'.latent? = some y' ∧
      (y.data.length < Size.limit → y.CutsTo 0 (k * c.chunkSize) z) ∧
      (y'.data.length < Size.limit → y'.CutsTo 0 (k * c.chunkSize) z) := by
  obtain ⟨parts, y, z, hLatent, hRestores, hCuts⟩ := h.cutsTo hPos hCount
  obtain ⟨parts', y', z', hLatent', hRestores', hCuts'⟩ := h'.cutsTo hPos hCount'
  obtain rfl : z' = z := hRestores'.unique (hRestores.congr hAt)
  exact ⟨y, y', z', hLatent, hLatent', hCuts, hCuts'⟩

theorem Leads.cutsTo_front (hPos : 0 < k) (hCount : k ≤ count) (hCount' : count' = k) :
    ∃ y z, r.latent? = some y ∧ r'.latent? = some z ∧
      (y.data.length < Size.limit → y.CutsTo 0 (k * c.chunkSize) z) := by
  subst hCount'
  obtain ⟨parts, y, z, hLatent, hRestores, hCuts⟩ := h.cutsTo hPos hCount
  obtain ⟨parts', z', hLatent', hRestores'⟩ := h'.restores hPos
  obtain rfl : z' = z := hRestores'.unique (hRestores.congr hAt)
  exact ⟨y, z', hLatent, hLatent', hCuts⟩

end Shared

end Leads

/-! ## Two sequences -/

theorem recordAt_congr {stored : ContentAddress → Option Bytes} {n i : Nat}
    (h : tokens.take n = others.take n) (hi : i < n / c.chunkSize) :
    c.recordAt stored tokens i = c.recordAt stored others i := by
  rw [recordAt, recordAt, chunkAddress, chunkPrefix_congr h hi, ← chunkAddress]

/-- Whatever record is stored, the sizes of its latent fit. -/
def RecordsFit (c : Cache) (stored : ContentAddress → Option Bytes) : Prop :=
  ∀ key bytes x, stored key = some bytes → c.codec.decode bytes = .ok x → x.Fits

theorem retrieve_leads (h : m.Readable sound contents) (hLength : tokens.length < Size.limit)
    {s : Session σ} (hs : sound s.storage) (hFits : c.RecordsFit (contents s.storage)) :
    ∃ r t count, c.retrieve m tokens s = (.ok r, t) ∧
      c.Leads (c.recordAt (contents s.storage) tokens) (tokens.length / c.chunkSize) count r := by
  obtain ⟨r, hRetrieve, hCovers⟩ := retrieve_spec h c tokens hLength hs
  have hLeading := (c.search_explores (contents s.storage) tokens).leadingCount
  refine ⟨r, _, _, hRetrieve, hLeading, hCovers, fun i y hy => ?_, ?_⟩
  · obtain ⟨bytes, hStored, hDecode⟩ := recordAt_eq_some hy
    exact ⟨hFits _ _ _ hStored hDecode, Codec.wellFormed_of_decode hDecode⟩
  · exact c.mul_chunkSize_lt hLength (Nat.le_refl _)

theorem retrieve_two {second : Token} {table : Memory} {found : Found} {x : Latent}
    (hFound : singles.found table.get? none
      [(0, .ofTokens [7]), (1, .ofTokens [7, second])] = found)
    (hSome : found.latents.isEmpty = false) (hConcat : Latent.concat found.latents = .ok x) :
    ∃ t, singles.retrieve Memory.medium [7, second] ⟨table, {}, {}, []⟩ =
      (.ok ⟨some x, found.latents.length⟩, t) := by
  have hSize : singles.chunkSize = 1 := rfl
  have hChunks : singles.chunks [7, second] =
      [(0, .ofTokens [7]), (1, .ofTokens [7, second])] := by
    have hCount : [7, second].length / singles.chunkSize = 2 := Nat.div_one 2
    rw [chunks_eq, hCount]
    rfl
  rw [retrieve, hChunks, find_eq Memory.serves.toReadable none _ trivial, hFound]
  simp only [hSome, hConcat, hSize, Nat.mul_one]
  exact ⟨_, rfl⟩

end Cache

end LatentCache
