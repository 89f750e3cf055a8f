import LatentCache.Proofs.Cache.Decision

/-!
# Storing piece by piece

A sequence that grows is stored in pieces, each with the positions that are new. Wherever it is cut
between chunks, the pieces write what a single store of the whole sequence writes.
-/

namespace LatentCache

theorem Record.totalLength_append (records others : List Record) :
    totalLength (records ++ others) = totalLength records + totalLength others := by
  simp only [totalLength_eq, List.map_append, List.sum_append]

/-- Positions that rise from one to another and cut between chunks of a size. Two may be equal. -/
inductive Cuts (size : Nat) : Nat → List Nat → Nat → Prop
  | done (stop : Nat) : Cuts size stop [] stop
  | piece {start next stop : Nat} {rest : List Nat} (hRises : start ≤ next)
      (hAligned : size ∣ next) (hRest : Cuts size next rest stop) :
      Cuts size start (next :: rest) stop

theorem Cuts.le {size start stop : Nat} {cuts : List Nat} (h : Cuts size start cuts stop) :
    start ≤ stop := by
  induction h with
  | done => exact Nat.le_refl _
  | piece hRises _ _ ih => exact hRises.trans ih

namespace Cache

/-- Stores a sequence up to each of some cuts, every time with the positions since the last one.
The first piece that is refused is the last one that is tried. -/
def storePieces {σ : Type} (c : Cache) (m : Medium σ) (tokens : List Token) (x : Latent) :
    Nat → List Nat → Session σ → Except CacheError (List Stored) × Session σ
  | _, [], s => (.ok [], s)
  | start, next :: rest, s =>
    match x.narrow start (next - start) with
    | .error e => (.error (.latent e), s)
    | .ok y =>
      match c.store m (tokens.take next) y start s with
      | (.error e, s) => (.error e, s)
      | (.ok stored, s) =>
        let (answer, s) := storePieces c m tokens x next rest s
        (answer.map (stored :: ·), s)

variable {c : Cache} {tokens : List Token} {x : Latent}

theorem storePieces_cons {σ : Type} {m : Medium σ} {start next : Nat} {rest : List Nat}
    {s t u : Session σ} {y : Latent} {stored : Stored} {each : List Stored}
    (hNarrow : x.narrow start (next - start) = .ok y)
    (hStore : c.store m (tokens.take next) y start s = (.ok stored, t))
    (hRest : c.storePieces m tokens x next rest t = (.ok each, u)) :
    c.storePieces m tokens x start (next :: rest) s = (.ok (stored :: each), u) := by
  simp only [storePieces, hNarrow, hStore, hRest]
  rfl

/-! ## The records of a piece -/

/-- The record of a chunk of a sequence whose first token has the first position of the latent. -/
def chunkRecord (c : Cache) (tokens : List Token) (x : Latent) (i : Nat) : Except CacheError Record :=
  c.record x 0 (i, chunkAddress c.chunkSize tokens i)

/-- The records of a piece are those that its chunks have in the whole sequence: their prefixes are
prefixes of the whole, and a range of the piece is a range of the whole. -/
theorem records_piece (hSound : x.Sound) {p q : Nat} (hRises : p ≤ q)
    (hTokens : q ≤ tokens.length / c.chunkSize) (hLatent : q * c.chunkSize ≤ x.seqLen) :
    ∃ y, x.narrow (p * c.chunkSize) (q * c.chunkSize - p * c.chunkSize) = .ok y ∧
      c.records (tokens.take (q * c.chunkSize)) y (p * c.chunkSize) =
        (List.range' p (q - p)).mapM (c.chunkRecord tokens x) := by
  have hLast : q * c.chunkSize ≤ tokens.length := Nat.mul_le_of_le_div _ _ _ hTokens
  have hTotal : (tokens.take (q * c.chunkSize)).length / c.chunkSize = q := by
    rw [List.length_take_of_le hLast, Nat.mul_div_cancel _ c.chunkSize_pos]
  have hFirst : p * c.chunkSize / c.chunkSize = p := Nat.mul_div_cancel _ c.chunkSize_pos
  have hWidth : p * c.chunkSize + (q * c.chunkSize - p * c.chunkSize) ≤ x.seqLen := by
    rwa [Nat.add_sub_cancel' (Nat.mul_le_mul_right _ hRises)]
  have hReaches : c.Reaches (tokens.take (q * c.chunkSize)) (p * c.chunkSize)
      (x.slice (p * c.chunkSize) (q * c.chunkSize - p * c.chunkSize)) := by
    rw [Reaches, hTotal, hFirst, Latent.seqLen_slice, Nat.sub_mul]
  refine ⟨_, Latent.narrow_eq hSound.fits hWidth, ?_⟩
  rw [records_eq_mapM (Nat.mul_mod_left _ _) hReaches, hTotal, hFirst]
  refine mapM_congr fun i hi => ?_
  obtain ⟨hFrom, hTo⟩ := List.mem_range'_1.mp hi
  have hRange : (i - p) * c.chunkSize + c.chunkSize ≤ q * c.chunkSize - p * c.chunkSize := by
    rw [← Nat.succ_mul, ← Nat.sub_mul]
    exact Nat.mul_le_mul_right _ (by omega)
  have hWhole : (i - 0) * c.chunkSize + c.chunkSize ≤ x.seqLen := by
    rw [← Nat.succ_mul]
    exact (Nat.mul_le_mul_right _ (by omega)).trans hLatent
  rw [chunkRecord, record_eq (hSound.slice hWidth) hRange, record_eq hSound hWhole,
    Latent.slice_slice hSound hRange hWidth, chunkAddress, chunkPrefix_take tokens (by omega),
    ← chunkAddress, ← Nat.add_mul, Nat.add_sub_cancel' hFrom, Nat.sub_zero]

theorem records_whole (hReaches : tokens.length / c.chunkSize * c.chunkSize ≤ x.seqLen) :
    c.records tokens x 0 =
      (List.range' 0 (tokens.length / c.chunkSize)).mapM (c.chunkRecord tokens x) := by
  have hFirst : 0 / c.chunkSize = 0 := Nat.zero_div _
  have hAll : c.Reaches tokens 0 x := by rwa [Reaches, hFirst]
  rw [records_eq_mapM (Nat.zero_mod _) hAll, hFirst]
  rfl

theorem records_whole_isOk (hSound : x.Sound)
    (hRows : ∀ layout, c.codec = .raw layout →
      x.type = layout.type ∧ x.shape.SameRows layout.shape)
    (hReaches : tokens.length / c.chunkSize * c.chunkSize ≤ x.seqLen) :
    ∃ records, c.records tokens x 0 = .ok records := by
  refine records_of_not_refused hSound ?_
  rintro e (hOffset | ⟨-, -, hShort⟩ | ⟨-, -, -, hCodec, hOther⟩)
  · exact hOffset (Nat.zero_mod _)
  · rw [Nat.zero_div, Nat.sub_zero] at hShort
    exact Nat.not_lt_of_le hReaches hShort
  · exact hOther (hRows _ hCodec)

/-! ## The pieces -/

theorem store_in_memory {offset : Nat} {records : List Record}
    (h : c.records tokens x offset = .ok records) (s : Session Memory) :
    ∃ t, c.store Memory.medium tokens x offset s =
        (.ok ⟨records.length, Record.totalLength records⟩, t) ∧
      t.storage = s.storage.insertAll records := by
  cases records with
  | nil => exact ⟨s, store_nothing h, rfl⟩
  | cons record rest => exact ⟨_, store_written h rfl, rfl⟩

/-- One piece is accepted and writes the records of its chunks. -/
theorem store_piece (hSound : x.Sound) {p q : Nat} (hRises : p ≤ q)
    (hTokens : q ≤ tokens.length / c.chunkSize) (hLatent : q * c.chunkSize ≤ x.seqLen)
    {records : List Record}
    (hRecords : (List.range' p (q - p)).mapM (c.chunkRecord tokens x) = .ok records)
    (s : Session Memory) :
    ∃ y t, x.narrow (p * c.chunkSize) (q * c.chunkSize - p * c.chunkSize) = .ok y ∧
      c.store Memory.medium (tokens.take (q * c.chunkSize)) y (p * c.chunkSize) s =
        (.ok ⟨records.length, Record.totalLength records⟩, t) ∧
      t.storage = s.storage.insertAll records := by
  obtain ⟨y, hNarrow, hPiece⟩ := records_piece hSound hRises hTokens hLatent
  obtain ⟨t, hStore, hTable⟩ := store_in_memory (hPiece.trans hRecords) s
  exact ⟨y, t, hNarrow, hStore, hTable⟩

/-- From any cut on, the pieces write the records of the chunks that are left. -/
theorem storePieces_in_memory (hSound : x.Sound)
    (hReaches : tokens.length / c.chunkSize * c.chunkSize ≤ x.seqLen) {start stop : Nat}
    {cuts : List Nat} (hCuts : Cuts c.chunkSize start cuts stop)
    (hStop : stop = tokens.length / c.chunkSize * c.chunkSize) {p : Nat}
    (hStart : start = p * c.chunkSize) {records : List Record}
    (hRecords : (List.range' p (tokens.length / c.chunkSize - p)).mapM (c.chunkRecord tokens x) =
      .ok records) (s : Session Memory) :
    ∃ each t, c.storePieces Memory.medium tokens x start cuts s = (.ok each, t) ∧
      t.storage = s.storage.insertAll records ∧ each.length = cuts.length ∧
      (each.map Stored.chunksWritten).sum = records.length ∧
      (each.map Stored.bytesWritten).sum = Record.totalLength records := by
  induction hCuts generalizing p records s with
  | done stop =>
    obtain rfl : p = tokens.length / c.chunkSize :=
      Nat.eq_of_mul_eq_mul_right c.chunkSize_pos (hStart.symm.trans hStop)
    rw [Nat.sub_self] at hRecords
    cases hRecords
    exact ⟨[], s, rfl, rfl, rfl, rfl, rfl⟩
  | @piece start next stop rest hRises hAligned hRest ih =>
    obtain ⟨q, rfl⟩ := exists_eq_mul_left_of_dvd hAligned
    subst hStart hStop
    have hFrom : p ≤ q := Nat.le_of_mul_le_mul_right hRises c.chunkSize_pos
    have hTo : q ≤ tokens.length / c.chunkSize :=
      Nat.le_of_mul_le_mul_right hRest.le c.chunkSize_pos
    have hLatent := (Nat.mul_le_mul_right c.chunkSize hTo).trans hReaches
    -- The records that are left are those of this piece and those of the pieces after it.
    rw [← range'_split hFrom hTo] at hRecords
    obtain ⟨front, back, hFront, hBack, rfl⟩ := mapM_append_eq_ok hRecords
    obtain ⟨y, t, hNarrow, hStore, hTable⟩ := store_piece hSound hFrom hTo hLatent hFront s
    obtain ⟨each, u, hPieces, hRestTable, hLength, hCount, hBytes⟩ := ih rfl rfl hBack t
    refine ⟨_, u, storePieces_cons hNarrow hStore hPieces, ?_, ?_, ?_, ?_⟩
    · rw [hRestTable, hTable, Table.insertAll_append]
    · rw [List.length_cons, List.length_cons, hLength]
    · rw [List.map_cons, List.sum_cons, hCount, List.length_append]
    · rw [List.map_cons, List.sum_cons, hBytes, Record.totalLength_append]

/-- A sequence that is stored in pieces is stored as a whole: wherever it is cut between chunks,
every piece is accepted, the table in memory becomes the one that a single store leaves, with a
record for every complete chunk, and together the pieces write as many chunks and bytes. -/
theorem storePieces_eq_store (c : Cache) (tokens : List Token) {x : Latent} (hSound : x.Sound)
    (hRows : ∀ layout, c.codec = .raw layout →
      x.type = layout.type ∧ x.shape.SameRows layout.shape)
    (hReaches : tokens.length / c.chunkSize * c.chunkSize ≤ x.seqLen) {cuts : List Nat}
    (hCuts : Cuts c.chunkSize 0 cuts (tokens.length / c.chunkSize * c.chunkSize))
    (s : Session Memory) :
    ∃ stored t each u records, c.store Memory.medium tokens x 0 s = (.ok stored, t) ∧
      c.storePieces Memory.medium tokens x 0 cuts s = (.ok each, u) ∧
      each.length = cuts.length ∧ u.storage = t.storage ∧
      (each.map Stored.chunksWritten).sum = stored.chunksWritten ∧
      (each.map Stored.bytesWritten).sum = stored.bytesWritten ∧
      c.IsBatch tokens x 0 records ∧ t.storage = s.storage.insertAll records ∧
      stored.chunksWritten = tokens.length / c.chunkSize := by
  obtain ⟨records, hRecords⟩ := records_whole_isOk hSound hRows hReaches
  have hChunks := (records_whole hReaches).symm.trans hRecords
  have hBatch := isBatch_of_records hRecords
  have hAll := hBatch.length_eq
  rw [Nat.zero_div, Nat.sub_zero] at hAll
  obtain ⟨t, hStore, hTable⟩ := store_in_memory hRecords s
  obtain ⟨each, u, hPieces, hPiecesTable, hLength, hCount, hBytes⟩ :=
    storePieces_in_memory hSound hReaches hCuts rfl (Nat.zero_mul _).symm hChunks s
  exact ⟨_, t, each, u, records, hStore, hPieces, hLength, hPiecesTable.trans hTable.symm, hCount,
    hBytes, hBatch, hTable, hAll⟩

theorem storePieces_eq_store_two : ∃ stored t each u,
    singles.store Memory.medium [7, 8, 9] ⟨.f16, ⟨1, 3, [1]⟩, [10, 11, 12, 13, 14, 15]⟩ 0
      ⟨Table.empty.insert (.ofTokens [7]) [0, 0], {}, {}, []⟩ = (.ok stored, t) ∧
    singles.storePieces Memory.medium [7, 8, 9] ⟨.f16, ⟨1, 3, [1]⟩, [10, 11, 12, 13, 14, 15]⟩ 0
      [1, 3] ⟨Table.empty.insert (.ofTokens [7]) [0, 0], {}, {}, []⟩ = (.ok each, u) ∧
    each.length = 2 ∧ u.storage = t.storage ∧ (each.map Stored.chunksWritten).sum = 3 := by
  have hRows : ∀ layout, singles.codec = .raw layout →
      ElementType.f16 = layout.type ∧ Shape.SameRows ⟨1, 3, [1]⟩ layout.shape := by
    intro layout hCodec
    cases hCodec
    exact ⟨rfl, rfl, rfl⟩
  have hCuts : Cuts 1 0 [1, 3] 3 :=
    .piece (by decide) (by decide) (.piece (by decide) (by decide) (.done 3))
  obtain ⟨stored, t, each, u, -, hStore, hPieces, hLength, hTable, hCount, -, -, -, hAll⟩ :=
    storePieces_eq_store singles [7, 8, 9] (x := ⟨.f16, ⟨1, 3, [1]⟩, [10, 11, 12, 13, 14, 15]⟩)
      ⟨by decide, by decide⟩ hRows (by decide) hCuts
      ⟨Table.empty.insert (.ofTokens [7]) [0, 0], {}, {}, []⟩
  exact ⟨stored, t, each, u, hStore, hPieces, hLength, hTable, hCount.trans hAll⟩

end Cache

end LatentCache
