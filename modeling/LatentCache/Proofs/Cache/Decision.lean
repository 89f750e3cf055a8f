import LatentCache.Proofs.Cache.Continuity
import LatentCache.Proofs.Record.Composition

/-!
# What decides a store

A store looks at its offset, at the number of complete chunks, at the length of the latent and at
its rows, in this order. Each of them can end it without a call. If none does, it makes a single
call, with one batch that depends on nothing but the complete chunks and their positions.
-/

namespace LatentCache

theorem Shape.withSeqLen_eq {s t : Shape} (h : s.SameRows t) : s.withSeqLen t.seqLen = t := by
  obtain ⟨hOuter, hInner⟩ := h
  rw [withSeqLen, hOuter, hInner]

theorem Record.totalLength_eq (records : List Record) :
    totalLength records = (records.map fun record => record.2.length).sum := by
  induction records with
  | nil => rfl
  | cons record rest ih => rw [totalLength, ih, List.map_cons, List.sum_cons]

theorem Medium.calls_watched_batchPut {σ : Type} (m : Medium σ) (records : List Record)
    (s : Watch × σ) :
    (m.watched.batchPut records s).2.1.calls =
      s.1.calls ++ [.batchPut (records.map fun record => (record.1, record.2.length))] := by
  change (Watch.guard _ (m.batchPut records) s).2.1.calls = _
  rw [Watch.guard, Watch.note]
  dsimp only
  cases (Watch.takeFault _ s.1.faults).1 <;> rfl

namespace Cache

variable {c : Cache} {tokens : List Token} {x : Latent} {offset : Nat}

/-! ## The record of one chunk -/

section Record

variable {start : Nat} {layout : RecordLayout}

theorem encode_slice_isOk (hSound : x.Sound) (hRange : start + c.chunkSize ≤ x.seqLen)
    (hRows : ∀ layout, c.codec = .raw layout →
      x.type = layout.type ∧ x.shape.SameRows layout.shape) :
    ∃ bytes, c.codec.encode (x.slice start c.chunkSize) = .ok bytes := by
  cases hCodec : c.codec with
  | selfDescribing => exact Codec.encode_selfDescribing_isOk (hSound.slice hRange).wellFormed
  | raw layout =>
    obtain ⟨hType, hSame⟩ := hRows layout hCodec
    have hShape : x.shape.withSeqLen c.chunkSize = layout.shape := by
      rw [← seqLen_layout hCodec]
      exact Shape.withSeqLen_eq hSame
    exact ⟨_, if_pos ⟨hType, hShape⟩⟩

theorem encode_slice_otherRows (hCodec : c.codec = .raw layout)
    (hRows : ¬ (x.type = layout.type ∧ x.shape.SameRows layout.shape)) :
    c.codec.encode (x.slice start c.chunkSize) =
      .error (.layoutMismatch layout x.type (x.shape.withSeqLen c.chunkSize)) := by
  rw [hCodec]
  refine if_neg ?_
  rintro ⟨hType, hShape⟩
  have hOuter := congrArg Shape.outer hShape
  have hInner := congrArg Shape.inner hShape
  exact hRows ⟨hType, hOuter, hInner⟩

theorem record_eq (hSound : x.Sound) {first i : Nat}
    (hRange : (i - first) * c.chunkSize + c.chunkSize ≤ x.seqLen) (key : ContentAddress) :
    c.record x first (i, key) =
      ((c.codec.encode (x.slice ((i - first) * c.chunkSize) c.chunkSize)).mapError
        CacheError.codec).map fun bytes => (key, bytes) := by
  rw [record, Latent.narrow_eq hSound.fits hRange]
  change (do let bytes ← (c.codec.encode _).mapError CacheError.codec; _) = _
  cases c.codec.encode (x.slice ((i - first) * c.chunkSize) c.chunkSize) <;> rfl

end Record

/-! ## The records of a store -/

/-- What makes a store refuse a latent, with the error that it reports. -/
inductive Refuses (c : Cache) (tokens : List Token) (x : Latent) (offset : Nat) : CacheError → Prop
  | invalidOffset (hOffset : offset % c.chunkSize ≠ 0) :
      Refuses c tokens x offset (.invalidOffset offset tokens.length c.chunkSize)
  | latentTooShort (hOffset : offset % c.chunkSize = 0)
      (hLt : offset / c.chunkSize < tokens.length / c.chunkSize)
      (hShort : x.seqLen <
        (tokens.length / c.chunkSize - offset / c.chunkSize) * c.chunkSize) :
      Refuses c tokens x offset (.latentTooShort
        ((tokens.length / c.chunkSize - offset / c.chunkSize) * c.chunkSize) x.seqLen)
  | layoutMismatch {layout : RecordLayout} (hOffset : offset % c.chunkSize = 0)
      (hLt : offset / c.chunkSize < tokens.length / c.chunkSize)
      (hReaches : c.Reaches tokens offset x) (hCodec : c.codec = .raw layout)
      (hRows : ¬ (x.type = layout.type ∧ x.shape.SameRows layout.shape)) :
      Refuses c tokens x offset
        (.codec (.layoutMismatch layout x.type (x.shape.withSeqLen c.chunkSize)))

theorem records_nothing (hOffset : offset % c.chunkSize = 0)
    (hNone : tokens.length / c.chunkSize ≤ offset / c.chunkSize) :
    c.records tokens x offset = .ok [] := by
  rw [records_eq, if_neg (not_not.mpr hOffset), if_pos hNone]

theorem records_eq_mapM (hOffset : offset % c.chunkSize = 0)
    (hReaches : c.Reaches tokens offset x) :
    c.records tokens x offset =
      (List.range' (offset / c.chunkSize)
        (tokens.length / c.chunkSize - offset / c.chunkSize)).mapM fun i =>
          c.record x (offset / c.chunkSize) (i, chunkAddress c.chunkSize tokens i) := by
  rcases Nat.lt_or_ge (offset / c.chunkSize) (tokens.length / c.chunkSize) with hLt | hNone
  · rw [records_eq, if_neg (not_not.mpr hOffset), if_neg (Nat.not_le_of_lt hLt),
      if_neg (Nat.not_lt_of_le hReaches)]
  · rw [records_nothing hOffset hNone, Nat.sub_eq_zero_of_le hNone]
    rfl

theorem Reaches.chunk_le_of_mem (h : c.Reaches tokens offset x) {i : Nat}
    (hi : i ∈ List.range' (offset / c.chunkSize)
      (tokens.length / c.chunkSize - offset / c.chunkSize)) :
    (i - offset / c.chunkSize) * c.chunkSize + c.chunkSize ≤ x.seqLen := by
  obtain ⟨hFrom, hTo⟩ := List.mem_range'_1.mp hi
  exact h.chunk_le hFrom (by omega)

theorem Refuses.records_eq {e : CacheError} (hSound : x.Sound) (h : c.Refuses tokens x offset e) :
    c.records tokens x offset = .error e := by
  cases h with
  | invalidOffset hOffset => rw [Cache.records_eq, if_pos hOffset]
  | latentTooShort hOffset hLt hShort =>
    rw [Cache.records_eq, if_neg (not_not.mpr hOffset), if_neg (Nat.not_le_of_lt hLt),
      if_pos hShort]
  | layoutMismatch hOffset hLt hReaches hCodec hRows =>
    -- The first chunk is refused already.
    obtain ⟨n, hn⟩ : ∃ n, tokens.length / c.chunkSize - offset / c.chunkSize = n + 1 :=
      Nat.exists_eq_succ_of_ne_zero (by omega)
    have hFirst : offset / c.chunkSize ∈ List.range' (offset / c.chunkSize)
        (tokens.length / c.chunkSize - offset / c.chunkSize) := by
      rw [hn, List.range'_succ]
      exact List.mem_cons_self
    rw [records_eq_mapM hOffset hReaches, hn, List.range'_succ, List.mapM_cons,
      record_eq hSound (hReaches.chunk_le_of_mem hFirst), encode_slice_otherRows hCodec hRows]
    rfl

theorem records_of_not_refused (hSound : x.Sound) (h : ∀ e, ¬ c.Refuses tokens x offset e) :
    ∃ records, c.records tokens x offset = .ok records := by
  have hOffset : offset % c.chunkSize = 0 := by
    by_contra hNot
    exact h _ (.invalidOffset hNot)
  rcases Nat.lt_or_ge (offset / c.chunkSize) (tokens.length / c.chunkSize) with hLt | hNone
  · have hReaches : c.Reaches tokens offset x := by
      by_contra hShort
      exact h _ (.latentTooShort hOffset hLt (Nat.lt_of_not_le hShort))
    have hRows : ∀ layout, c.codec = .raw layout →
        x.type = layout.type ∧ x.shape.SameRows layout.shape := by
      intro layout hCodec
      by_contra hOther
      exact h _ (.layoutMismatch hOffset hLt hReaches hCodec hOther)
    cases hRecords : c.records tokens x offset with
    | ok records => exact ⟨records, rfl⟩
    | error e =>
      rw [records_eq_mapM hOffset hReaches] at hRecords
      obtain ⟨i, hi, hFails⟩ := exists_of_mapM_eq_error hRecords
      have hRange := hReaches.chunk_le_of_mem hi
      obtain ⟨bytes, hEncode⟩ := encode_slice_isOk hSound hRange hRows
      rw [record_eq hSound hRange, hEncode] at hFails
      cases hFails
  · exact ⟨[], records_nothing hOffset hNone⟩

theorem records_eq_error_iff {e : CacheError} (hSound : x.Sound) :
    c.records tokens x offset = .error e ↔ c.Refuses tokens x offset e := by
  constructor
  · intro h
    by_cases hNone : ∀ e, ¬ c.Refuses tokens x offset e
    · obtain ⟨records, hRecords⟩ := records_of_not_refused hSound hNone
      rw [h] at hRecords
      cases hRecords
    · obtain ⟨e', hRefuses⟩ := not_forall_not.mp hNone
      have hSame := hRefuses.records_eq hSound
      rw [h] at hSame
      cases hSame
      exact hRefuses
  · exact fun h => h.records_eq hSound

theorem records_eq_nil_iff : c.records tokens x offset = .ok [] ↔
    offset % c.chunkSize = 0 ∧ tokens.length / c.chunkSize ≤ offset / c.chunkSize := by
  constructor
  · intro h
    obtain ⟨hOffset, -, hRecords⟩ := records_eq_ok h
    have hCount := hRecords.length_eq
    rw [List.length_range', List.length_nil] at hCount
    exact ⟨hOffset, Nat.sub_eq_zero_iff_le.mp hCount⟩
  · rintro ⟨hOffset, hNone⟩
    exact records_nothing hOffset hNone

/-- The records of the complete chunks from an offset on, in the order of the chunks: the address
of the prefix that ends with a chunk, and the encoded positions of that chunk. -/
def IsBatch (c : Cache) (tokens : List Token) (x : Latent) (offset : Nat) (records : List Record) :
    Prop :=
  List.Forall₂ (fun i record =>
      c.chunking.address (tokens.take ((i + 1) * c.chunkSize)) = .ok record.1 ∧
      ∃ y, x.narrow ((i - offset / c.chunkSize) * c.chunkSize) c.chunkSize = .ok y ∧
        c.codec.encode y = .ok record.2)
    (List.range' (offset / c.chunkSize) (tokens.length / c.chunkSize - offset / c.chunkSize))
    records

theorem isBatch_of_records {records : List Record} (h : c.records tokens x offset = .ok records) :
    c.IsBatch tokens x offset records := by
  obtain ⟨-, -, hRecords⟩ := records_eq_ok h
  have hLt : ∀ i ∈ List.range' (offset / c.chunkSize)
      (tokens.length / c.chunkSize - offset / c.chunkSize), i < tokens.length / c.chunkSize := by
    intro i hi
    rw [List.mem_range'_1] at hi
    omega
  refine List.Forall₂.imp ?_ ((List.forall₂_and_left _ _).mpr ⟨hLt, hRecords⟩)
  rintro i record ⟨hi, hRecord⟩
  obtain ⟨hKey, hBytes⟩ := record_eq_ok hRecord
  rw [hKey]
  exact ⟨c.chunking.address_chunkPrefix hi, hBytes⟩

theorem IsBatch.length_eq {records : List Record} (h : c.IsBatch tokens x offset records) :
    records.length = tokens.length / c.chunkSize - offset / c.chunkSize := by
  rw [← List.Forall₂.length_eq h, List.length_range']

/-! ## What has no influence -/

theorem records_take (hOffset : offset % c.chunkSize = 0) :
    c.records (tokens.take (tokens.length / c.chunkSize * c.chunkSize)) x offset =
      c.records tokens x offset := by
  have hLength : (tokens.take (tokens.length / c.chunkSize * c.chunkSize)).length / c.chunkSize =
      tokens.length / c.chunkSize := by
    rw [List.length_take, Nat.min_eq_left (Nat.div_mul_le_self _ _),
      Nat.mul_div_cancel _ c.chunkSize_pos]
  rw [records_eq, records_eq, if_neg (not_not.mpr hOffset), if_neg (not_not.mpr hOffset), hLength]
  congr 2
  refine mapM_congr fun i hi => ?_
  rw [List.mem_range'_1] at hi
  rw [chunkAddress, chunkPrefix_take tokens (by omega), chunkAddress]

theorem records_slice (hSound : x.Sound) (hOffset : offset % c.chunkSize = 0)
    (hReaches : c.Reaches tokens offset x) :
    c.records tokens (x.slice 0
      ((tokens.length / c.chunkSize - offset / c.chunkSize) * c.chunkSize)) offset =
        c.records tokens x offset := by
  have hLead := (Nat.zero_add _).trans_le hReaches
  have hAll : c.Reaches tokens offset (x.slice 0
      ((tokens.length / c.chunkSize - offset / c.chunkSize) * c.chunkSize)) := Nat.le_refl _
  rw [records_eq_mapM hOffset hReaches, records_eq_mapM hOffset hAll]
  refine mapM_congr fun i hi => ?_
  have hRange : (i - offset / c.chunkSize) * c.chunkSize + c.chunkSize ≤
      (tokens.length / c.chunkSize - offset / c.chunkSize) * c.chunkSize :=
    hAll.chunk_le_of_mem hi
  rw [record_eq (hSound.slice hLead) hRange, record_eq hSound (hReaches.chunk_le_of_mem hi),
    Latent.slice_slice hSound hRange hLead, Nat.zero_add]

/-! ## The store -/

section Store

variable {σ : Type} {m : Medium σ} {s : Session σ}

theorem store_congr {others : List Token} {y : Latent}
    (h : c.records others y offset = c.records tokens x offset) :
    c.store m others y offset s = c.store m tokens x offset s := by
  rw [store, store, h]

theorem store_eq_error_iff {e : CacheError} (h : ∀ f, e ≠ .storage f) :
    (c.store m tokens x offset s).1 = .error e ↔ c.records tokens x offset = .error e := by
  constructor
  · intro hStore
    obtain ⟨hRecords, -⟩ | ⟨_, cause, _, -, -, hCause, -⟩ := store_eq_error (Prod.ext hStore rfl)
    · exact hRecords
    · exact absurd hCause (h cause)
  · intro hRecords
    rw [store_refused hRecords]

theorem store_eq_zero_iff :
    (c.store m tokens x offset s).1 = .ok ⟨0, 0⟩ ↔ c.records tokens x offset = .ok [] := by
  constructor
  · intro h
    obtain ⟨hRecords, -, -⟩ | ⟨record, rest, t, -, -, hStored, -⟩ := store_eq_ok (Prod.ext h rfl)
    · exact hRecords
    · cases hStored
  · intro h
    rw [store_nothing h]

theorem store_send {records : List Record} (h : c.records tokens x offset = .ok records)
    (hSome : records ≠ []) :
    (c.store m tokens x offset s).1 =
        ((m.batchPut records s.storage).1.mapError CacheError.storage).map
          (fun _ => ⟨records.length, Record.totalLength records⟩) ∧
      (c.store m tokens x offset s).2.storage = (m.batchPut records s.storage).2 := by
  cases records with
  | nil => exact absurd rfl hSome
  | cons record rest =>
    rcases hPut : m.batchPut (record :: rest) s.storage with ⟨f | done, t⟩
    · rw [store_failed h hPut]
      exact ⟨rfl, rfl⟩
    · rw [store_written h hPut]
      exact ⟨rfl, rfl⟩

end Store

/-- What becomes of a store, in every case. -/
structure Decision {σ : Type} (c : Cache) (m : Medium σ) (tokens : List Token) (x : Latent)
    (offset : Nat) (s : Session (Watch × σ)) : Prop where
  -- Only the arguments and the storage make a store fail, never a range of positions.
  refused : ∀ e, (∀ f, e ≠ .storage f) →
    ((c.store m.watched tokens x offset s).1 = .error e ↔ c.Refuses tokens x offset e)
  inRange : ∀ e, (c.store m.watched tokens x offset s).1 ≠ .error (.latent e)
  nothing : (c.store m.watched tokens x offset s).1 = .ok ⟨0, 0⟩ ↔
    offset % c.chunkSize = 0 ∧ tokens.length / c.chunkSize ≤ offset / c.chunkSize
  silent : (∃ e, c.Refuses tokens x offset e) ∨
      offset % c.chunkSize = 0 ∧ tokens.length / c.chunkSize ≤ offset / c.chunkSize →
    (c.store m.watched tokens x offset s).2 = s
  sent : (∀ e, ¬ c.Refuses tokens x offset e) →
    offset / c.chunkSize < tokens.length / c.chunkSize →
    ∃ records, c.IsBatch tokens x offset records ∧
      (c.store m.watched tokens x offset s).1 =
        ((m.watched.batchPut records s.storage).1.mapError CacheError.storage).map
          (fun _ => ⟨tokens.length / c.chunkSize - offset / c.chunkSize,
            (records.map fun record => record.2.length).sum⟩) ∧
      (c.store m.watched tokens x offset s).2.storage = (m.watched.batchPut records s.storage).2 ∧
      (c.store m.watched tokens x offset s).2.storage.1.calls = s.storage.1.calls ++
        [.batchPut (records.map fun record => (record.1, record.2.length))]
  -- All numbers are exact and all pieces exist.
  needed_lt : (tokens.length / c.chunkSize - offset / c.chunkSize) * c.chunkSize < Size.limit
  inBounds : c.Reaches tokens offset x →
    ∀ i, offset / c.chunkSize ≤ i → i < tokens.length / c.chunkSize →
      (i + 1) * c.chunkSize ≤ tokens.length ∧
      (i - offset / c.chunkSize) * c.chunkSize + c.chunkSize ≤ x.seqLen ∧
      ∀ p ∈ x.narrowPieces ((i - offset / c.chunkSize) * c.chunkSize) c.chunkSize, p.InBounds
  -- Neither other tokens nor other positions have an influence.
  tokens_take : offset % c.chunkSize = 0 →
    c.store m.watched (tokens.take (tokens.length / c.chunkSize * c.chunkSize)) x offset s =
      c.store m.watched tokens x offset s
  latent_take : offset % c.chunkSize = 0 → c.Reaches tokens offset x →
    ∃ y, x.narrow 0 ((tokens.length / c.chunkSize - offset / c.chunkSize) * c.chunkSize) = .ok y ∧
      c.store m.watched tokens y offset s = c.store m.watched tokens x offset s

/-- The arguments of a store decide whether it is refused, has nothing to write or makes one call,
and which one. -/
theorem store_decided {σ : Type} (c : Cache) (m : Medium σ) (tokens : List Token)
    (hLength : tokens.length < Size.limit) (x : Latent) (hSound : x.Sound) (offset : Nat)
    (s : Session (Watch × σ)) : c.Decision m tokens x offset s where
  refused _ hStorage := (store_eq_error_iff hStorage).trans (records_eq_error_iff hSound)
  inRange e := by
    have hStorage : ∀ f, CacheError.latent e ≠ .storage f := by
      intro f hSame
      cases hSame
    rw [Ne, store_eq_error_iff hStorage, records_eq_error_iff hSound]
    intro h
    cases h
  nothing := store_eq_zero_iff.trans records_eq_nil_iff
  silent := by
    rintro (⟨e, hRefuses⟩ | hNone)
    · rw [store_refused (hRefuses.records_eq hSound)]
    · rw [store_nothing (records_eq_nil_iff.mpr hNone)]
  sent hRefuses hLt := by
    obtain ⟨records, hRecords⟩ := records_of_not_refused hSound hRefuses
    have hBatch := isBatch_of_records hRecords
    have hSome : records ≠ [] := by
      rintro rfl
      exact Nat.not_le_of_lt hLt (records_eq_nil_iff.mp hRecords).2
    obtain ⟨hAnswer, hStorage⟩ := store_send (m := m.watched) (s := s) hRecords hSome
    rw [hBatch.length_eq, Record.totalLength_eq] at hAnswer
    refine ⟨records, hBatch, hAnswer, hStorage, ?_⟩
    rw [hStorage, m.calls_watched_batchPut]
  needed_lt := c.mul_chunkSize_lt hLength (Nat.sub_le _ _)
  inBounds hReaches i hFrom hi := by
    have hRange := hReaches.chunk_le hFrom hi
    refine ⟨?_, hRange, (Latent.slice_copies hSound hRange).1⟩
    exact (Nat.mul_le_mul_right _ hi).trans (Nat.div_mul_le_self _ _)
  tokens_take hOffset := store_congr (records_take hOffset)
  latent_take hOffset hReaches := by
    have hNarrow := Latent.narrow_eq hSound.fits ((Nat.zero_add _).trans_le hReaches)
    exact ⟨_, hNarrow, store_congr (records_slice hSound hOffset hReaches)⟩

theorem store_last_two : ∃ t,
    singles.store Memory.medium.watched [7, 8, 9] ⟨.f16, ⟨1, 3, [1]⟩, [10, 11, 12, 13, 14, 15]⟩ 1
      ⟨({}, Table.empty), {}, {}, []⟩ = (.ok ⟨2, 4⟩, t) ∧
    t.storage.1.calls = [.batchPut [(.ofTokens [7, 8], 2), (.ofTokens [7, 8, 9], 2)]] := by
  have hDecision := store_decided singles Memory.medium [7, 8, 9] (by decide)
    ⟨.f16, ⟨1, 3, [1]⟩, [10, 11, 12, 13, 14, 15]⟩ ⟨by decide, by decide⟩ 1
    ⟨({}, Table.empty), {}, {}, []⟩
  have hRefuses : ∀ e, ¬ singles.Refuses [7, 8, 9]
      ⟨.f16, ⟨1, 3, [1]⟩, [10, 11, 12, 13, 14, 15]⟩ 1 e := by
    intro e h
    cases h with
    | invalidOffset hOffset => exact hOffset (by decide)
    | latentTooShort _ _ hShort => exact absurd hShort (by decide)
    | layoutMismatch _ _ _ hCodec hRows =>
      cases hCodec
      exact hRows ⟨rfl, rfl, rfl⟩
  obtain ⟨records, hBatch, hAnswer, -, hCalls⟩ := hDecision.sent hRefuses (by decide)
  obtain rfl : records = [(.ofTokens [7, 8], [10, 11]), (.ofTokens [7, 8, 9], [12, 13])] := by
    have hFirst : Latent.narrow ⟨.f16, ⟨1, 3, [1]⟩, [10, 11, 12, 13, 14, 15]⟩ 0 1 =
        .ok (single 10 11) := by decide +kernel
    have hSecond : Latent.narrow ⟨.f16, ⟨1, 3, [1]⟩, [10, 11, 12, 13, 14, 15]⟩ 1 1 =
        .ok (single 12 13) := by decide +kernel
    change List.Forall₂ _ [1, 2] records at hBatch
    obtain _ | ⟨⟨hKey, y, hNarrow, hBytes⟩, hRest⟩ := hBatch
    obtain _ | ⟨⟨hKey', z, hNarrow', hBytes'⟩, hEnd⟩ := hRest
    cases hEnd
    cases hFirst.symm.trans hNarrow
    cases hSecond.symm.trans hNarrow'
    refine congrArg₂ List.cons ?_ (congrArg₂ List.cons ?_ rfl)
    · exact Prod.ext (Except.ok.inj hKey).symm (Except.ok.inj hBytes).symm
    · exact Prod.ext (Except.ok.inj hKey').symm (Except.ok.inj hBytes').symm
  exact ⟨_, Prod.ext hAnswer rfl, hCalls⟩

end Cache

end LatentCache
