import LatentCache.Proofs.Cache.Continuity
import LatentCache.Proofs.Storage.Interruption

/-!
# Retrieving after an interrupted store

A store that a service interrupts leaves records before the refused one and, from some clients, also
after it. A retrieval stops at the gap: it covers exactly the chunks before the refused record.
-/

namespace LatentCache

namespace Cache

variable {σ : Type} {m : Medium σ} {c : Cache} {tokens : List Token} {x : Latent} {offset : Nat}

theorem record_ne_storage {firstChunk : Nat} {chunk : Nat × ContentAddress} {e : StorageError} :
    c.record x firstChunk chunk ≠ .error (.storage e) := by
  rw [Cache.record]
  cases x.narrow ((chunk.1 - firstChunk) * c.chunkSize) c.chunkSize with
  | error _ => intro h; cases h
  | ok slice =>
    change (do let bytes ← (c.codec.encode slice).mapError CacheError.codec; _) ≠ _
    cases c.codec.encode slice <;>
      · intro h
        cases h

theorem records_ne_storage {e : StorageError} :
    c.records tokens x offset ≠ .error (.storage e) := by
  intro h
  rw [Cache.records] at h
  split at h
  · cases h
  · dsimp only at h
    split at h
    · cases h
    · split at h
      · cases h
      · obtain ⟨chunk, -, hRecord⟩ := exists_of_mapM_eq_error h
        exact record_ne_storage hRecord

/-- Only the batch of a store can make it fail with an error of the storage. -/
theorem batchPut_of_store_error {s t : Session σ} {e : StorageError}
    (h : c.store m tokens x offset s = (.error (.storage e), t)) :
    ∃ records, c.records tokens x offset = .ok records ∧
      m.batchPut records s.storage = (.error e, t.storage) := by
  cases hRecords : c.records tokens x offset with
  | error e' =>
    rw [store_refused hRecords] at h
    cases h
    exact absurd hRecords records_ne_storage
  | ok records =>
    cases records with
    | nil =>
      rw [store_nothing hRecords] at h
      cases h
    | cons record rest =>
      rcases hPut : m.batchPut (record :: rest) s.storage with ⟨e' | done, u⟩
      · rw [store_failed hRecords hPut] at h
        cases h
        exact ⟨_, rfl, hPut⟩
      · rw [store_written hRecords hPut] at h
        cases h

/-! ## Records with a gap -/

/-- The records of a sequence are the slices of a latent up to a chunk that has none. -/
structure BreaksAt (c : Cache) (x : Latent) (total j : Nat) (record : Nat → Option Latent) :
    Prop where
  lt : j < total
  before : ∀ i < j, record i = some (c.chunkSlice x 0 i)
  missing : record j = none

theorem BreaksAt.leadingCount {total j : Nat} {record : Nat → Option Latent}
    (h : c.BreaksAt x total j record) : LeadingCount (c.UsableAt record) total j where
  le := h.lt.le
  holds i hi := by
    refine ⟨_, h.before i hi, rfl, fun _ => ⟨_, h.before 0 (Nat.zero_lt_of_lt hi), ?_⟩⟩
    exact (x.compatible_slice _ _).symm.trans (x.compatible_slice _ _)
  stops _ := by
    rintro ⟨y, hy, -⟩
    rw [h.missing] at hy
    cases hy

/-- A record under the address of a chunk, with a given latent for that chunk. -/
structure IsRecord (c : Cache) (tokens : List Token) (f : Nat → Latent) (record : Record)
    (i : Nat) : Prop where
  lt : i < tokens.length / c.chunkSize
  address : record.1 = chunkAddress c.chunkSize tokens i
  latent : c.codec.decode record.2 = .ok (f i)

/-- The latents of records that overwrite others are overwritten in the same way. -/
theorem recordAt_overwrite (hFree : CollisionFree (chunkPrefixes c.chunkSize tokens 0))
    (stored : ContentAddress → Option Bytes) {f : Nat → Latent} {records : List Record}
    {chunks : List Nat} (h : List.Forall₂ (c.IsRecord tokens f) records chunks)
    {i : Nat} (hi : i < tokens.length / c.chunkSize) :
    c.recordAt (overwrite stored records) tokens i =
      overwrite (c.recordAt stored tokens) (chunks.map fun i => (i, f i)) i := by
  refine overwrite_related
    (R := fun bytes? latent? =>
      (bytes?.bind fun bytes => (c.codec.decode bytes).toOption) = latent?)
    (chunkAddress c.chunkSize tokens) (· < tokens.length / c.chunkSize)
    (fun i j hi hj => chunkAddress_injective hFree hi hj) ?_ (fun _ _ => rfl) i hi
  rw [List.forall₂_map_right_iff]
  refine h.imp fun record j hRecord => ⟨hRecord.address, hRecord.lt, ?_⟩
  rw [Option.bind_some, hRecord.latent]
  rfl

theorem breaksAt_of_kept (hFree : CollisionFree (chunkPrefixes c.chunkSize tokens 0))
    {stored : ContentAddress → Option Bytes}
    (hNone : ∀ i < tokens.length / c.chunkSize, stored (chunkAddress c.chunkSize tokens i) = none)
    {records : List Record}
    (hEntries : List.Forall₂ (c.IsRecord tokens (c.chunkSlice x 0)) records
      (List.range' 0 (tokens.length / c.chunkSize)))
    (client : Client) {j : Nat} (hj : j < tokens.length / c.chunkSize) :
    c.BreaksAt x (tokens.length / c.chunkSize) j
      (c.recordAt (overwrite stored (client.kept j records)) tokens) := by
  have hKept := Client.forall₂_kept hEntries client j
  refine ⟨hj, fun i hi => ?_, ?_⟩
  · rw [recordAt_overwrite hFree stored hKept (hi.trans hj)]
    refine overwrite_of_mem (List.mem_map.mpr ⟨i, client.mem_kept_range' hi hj, rfl⟩) ?_
    intro entry hEntry hSame
    obtain ⟨i', -, rfl⟩ := List.mem_map.mp hEntry
    obtain rfl : i' = i := hSame
    rfl
  · rw [recordAt_overwrite hFree stored hKept hj, overwrite_of_ne, recordAt, hNone j hj]
    · rfl
    · intro entry hEntry hSame
      obtain ⟨i, hi, rfl⟩ := List.mem_map.mp hEntry
      obtain rfl : i = j := hSame
      exact client.notMem_kept_range' i _ hi

section Retrieve

variable {sound : σ → Prop} {contents : σ → Contents} {s : Session σ} {j : Nat}
  (h : m.Readable sound contents) (hs : sound s.storage) (hLength : tokens.length < Size.limit)
  (hBreaks : c.BreaksAt x (tokens.length / c.chunkSize) j
    (c.recordAt (contents s.storage) tokens))
include h hs hLength hBreaks

theorem retrieve_nothing_of_breaksAt (hZero : j = 0) :
    ∃ t, c.retrieve m tokens s = (.ok ⟨none, 0⟩, t) := by
  obtain ⟨⟨latent?, tokensCovered⟩, t, hRetrieve, hCovers⟩ :=
    retrieve_covers_leading h hLength hs hBreaks.leadingCount
  obtain rfl : latent? = none := hCovers.absent.mpr hZero
  obtain rfl : tokensCovered = 0 := by
    have hCovered := hCovers.tokensCovered
    rwa [hZero, Nat.zero_mul] at hCovered
  exact ⟨_, hRetrieve⟩

theorem retrieve_before_break (hSound : x.Sound) (hReaches : c.Reaches tokens 0 x) (hPos : 0 < j) :
    ∃ y t, x.narrow 0 (j * c.chunkSize) = .ok y ∧
      c.retrieve m tokens s = (.ok ⟨some y, j * c.chunkSize⟩, t) := by
  have hSize : 0 < c.chunkSize := c.chunking.size_pos
  have hCount : (tokens.take (j * c.chunkSize)).length / c.chunkSize = j := by
    rw [List.length_take, Nat.min_eq_left, Nat.mul_div_cancel _ hSize]
    exact (Nat.le_div_iff_mul_le hSize).mp hBreaks.lt.le
  have hTakes : c.Reaches (tokens.take (j * c.chunkSize)) 0 x := by
    rw [Reaches, hCount]
    exact (Nat.mul_le_mul_right _ (Nat.sub_le_sub_right hBreaks.lt.le _)).trans hReaches
  have hConcat := concat_chunkSlices hSound hTakes
    ((List.length_take_le' _ _).trans_lt hLength) (by rwa [hCount, Nat.zero_div])
  have hParts : (c.chunkSlices (tokens.take (j * c.chunkSize)) x 0).map some =
      (List.range j).map (c.recordAt (contents s.storage) tokens) := by
    rw [chunkSlices, hCount, Nat.zero_div, Nat.sub_zero, ← List.range_eq_range', List.map_map]
    refine List.map_congr_left fun i hi => ?_
    exact (hBreaks.before i (List.mem_range.mp hi)).symm
  rw [hCount, Nat.zero_div, Nat.sub_zero] at hConcat
  obtain ⟨t, hRetrieve⟩ :=
    retrieve_of_leading h hLength hs hBreaks.leadingCount hPos hParts hConcat
  refine ⟨_, t, Latent.narrow_eq hSound.fits ?_, hRetrieve⟩
  rw [Reaches, hCount, Nat.zero_div, Nat.sub_zero] at hTakes
  rwa [Nat.zero_add]

theorem retrieve_of_breaksAt (hSound : x.Sound) (hReaches : c.Reaches tokens 0 x) :
    ∃ latent? t, c.retrieve m tokens s = (.ok ⟨latent?, j * c.chunkSize⟩, t) ∧
      (j = 0 → latent? = none) ∧
      (0 < j → ∃ y, x.narrow 0 (j * c.chunkSize) = .ok y ∧ latent? = some y) := by
  rcases Nat.eq_zero_or_pos j with hZero | hPos
  · obtain ⟨t, hRetrieve⟩ := retrieve_nothing_of_breaksAt h hs hLength hBreaks hZero
    rw [hZero, Nat.zero_mul]
    exact ⟨none, t, hRetrieve, fun _ => rfl, fun hPos => absurd hPos (Nat.lt_irrefl 0)⟩
  · obtain ⟨y, t, hNarrow, hRetrieve⟩ :=
      retrieve_before_break h hs hLength hBreaks hSound hReaches hPos
    exact ⟨some y, t, hRetrieve, fun hZero => absurd hZero hPos.ne', fun _ => ⟨y, hNarrow, rfl⟩⟩

end Retrieve

/-- What a store leaves when the service refuses the `SET` of chunk `j`. -/
theorem breaksAt_of_store {client : Client} {j : Nat} {code text : String} {s t : Session Link}
    (hFaults : s.storage.service.faults = [⟨"SET", j, .refused code text⟩])
    (hj : j < tokens.length / c.chunkSize)
    (hNone : ∀ i < tokens.length / c.chunkSize,
      client.contents s.storage (chunkAddress c.chunkSize tokens i) = none)
    (hFree : CollisionFree (chunkPrefixes c.chunkSize tokens 0)) (hSound : x.Sound)
    (hHeader : c.HeaderFits x) {e : StorageError}
    (hStore : c.store client.medium tokens x 0 s = (.error (.storage e), t)) :
    e = .backend (Client.refusalText code text) ∧ t.storage.service.faults = [] ∧
      c.Reaches tokens 0 x ∧ c.BreaksAt x (tokens.length / c.chunkSize) j
        (c.recordAt (client.contents t.storage) tokens) := by
  obtain ⟨records, hRecords, hPut⟩ := batchPut_of_store_error hStore
  obtain ⟨-, hReaches, -⟩ := records_eq_ok hRecords
  have hEntries : List.Forall₂ (c.IsRecord tokens (c.chunkSlice x 0)) records
      (List.range' 0 (tokens.length / c.chunkSize)) := by
    have hDecode := records_decode hSound (fun _ => hHeader) hRecords
    rw [Nat.zero_div, Nat.sub_zero] at hDecode
    exact hDecode.imp fun _ _ h => ⟨h.1.2, h.2.1, h.2.2⟩
  have hCount := hEntries.length_eq
  rw [List.length_range'] at hCount
  have hRefused := client.batchPut_refused hFaults (hj.trans_eq hCount.symm)
  obtain ⟨hError, hAfter⟩ := Prod.mk.inj (hPut.symm.trans hRefused)
  cases hError
  refine ⟨rfl, ?_, hReaches, ?_⟩
  · rw [hAfter]
    rfl
  · rw [hAfter, client.contents_after]
    exact breaksAt_of_kept hFree hNone hEntries client hj

end Cache

/-- A service refuses the `SET` at place `j` of a batch and executes all others that it receives.
A plain client has then sent the records up to this one and kept those before it; a pipelined client
has sent all records and kept all others. After such a store from the start of a sequence, a
retrieval through either client covers exactly the first `j` chunks. -/
theorem refused_record_ends_prefix (client : Client) (link : Link) {j : Nat} {code text : String}
    (hFaults : link.service.faults = [⟨"SET", j, .refused code text⟩]) :
    (∀ records : List Record, j < records.length → ∃ after,
      client.batchPut records link =
        (.error (.backend (Client.refusalText code text)), after) ∧
      after.service.log = link.service.log ++ (client.sent j records).map client.setCommand ∧
      after.service.table.get? =
        overwrite link.service.table.get? ((client.kept j records).map client.entry)) ∧
    ∀ (c : Cache) (tokens : List Token) (x : Latent) (s t u : Session Link) (e : StorageError)
      (reader : Client), tokens.length < Size.limit → x.Sound → c.HeaderFits x →
      CollisionFree (chunkPrefixes c.chunkSize tokens 0) → j < tokens.length / c.chunkSize →
      s.storage = link →
      (∀ i < tokens.length / c.chunkSize,
        client.contents link (chunkAddress c.chunkSize tokens i) = none) →
      c.store client.medium tokens x 0 s = (.error (.storage e), t) →
      reader.keyPrefix = client.keyPrefix → u.storage = t.storage →
      e = .backend (Client.refusalText code text) ∧
      ∃ latent? v, c.retrieve reader.medium tokens u = (.ok ⟨latent?, j * c.chunkSize⟩, v) ∧
        (j = 0 → latent? = none) ∧
        (0 < j → ∃ y, x.narrow 0 (j * c.chunkSize) = .ok y ∧ latent? = some y) := by
  constructor
  · intro records hj
    refine ⟨_, client.batchPut_refused hFaults hj, rfl, ?_⟩
    exact link.service.table.get?_insertAll _
  · rintro c tokens x s t u e reader hLength hSound hHeader hFree hj rfl hNone hStore hPrefix hSame
    obtain ⟨hError, hClear, hReaches, hBreaks⟩ :=
      Cache.breaksAt_of_store hFaults hj hNone hFree hSound hHeader hStore
    have hContents : client.contents t.storage = reader.contents u.storage := by
      funext key
      rw [Client.contents, Client.contents, Client.key, Client.key, hPrefix, hSame]
    rw [← hSame] at hClear
    rw [hContents] at hBreaks
    exact ⟨hError, Cache.retrieve_of_breaksAt reader.serves.toReadable hClear hLength hBreaks hSound
      hReaches⟩

theorem refused_second_record_leaves_one :
    let link : Link := ⟨true, ⟨.empty, [], [⟨"SET", 1, .refused "ERR" "no"⟩]⟩, []⟩
    let x : Latent := ⟨.f16, ⟨1, 3, [1]⟩, [10, 11, 12, 13, 14, 15]⟩
    ∃ t v,
      Cache.singles.store (Client.pipelined "k").medium [7, 8, 9] x 0 ⟨link, {}, {}, []⟩ =
        (.error (.storage (.backend (Client.refusalText "ERR" "no"))), t) ∧
      Cache.singles.retrieve (Client.plain "k").medium [7, 8, 9] t =
        (.ok ⟨some ⟨.f16, ⟨1, 1, [1]⟩, [10, 11]⟩, 1⟩, v) := by
  intro link x
  have hRecords : Cache.singles.records [7, 8, 9] x 0 = .ok [(.ofTokens [7], [10, 11]),
      (.ofTokens [7, 8], [12, 13]), (.ofTokens [7, 8, 9], [14, 15])] := by
    rw [Cache.records, if_neg (by decide)]
    dsimp only
    rw [Chunking.prefixAddresses_toList]
    decide +kernel
  obtain ⟨t, hStore⟩ : ∃ t, Cache.singles.store (Client.pipelined "k").medium [7, 8, 9] x 0
      ⟨link, {}, {}, []⟩ = (.error (.storage (.backend (Client.refusalText "ERR" "no"))), t) := by
    rw [Cache.store, hRecords]
    exact ⟨_, rfl⟩
  have hFree : CollisionFree (chunkPrefixes 1 [7, 8, 9] 0) := by
    unfold CollisionFree
    decide +kernel
  obtain ⟨-, hEnds⟩ := refused_record_ends_prefix (.pipelined "k") link rfl
  obtain ⟨-, latent?, v, hRetrieve, -, hSome⟩ := hEnds Cache.singles [7, 8, 9] x _ t t _
    (.plain "k") (by decide) ⟨by decide, by decide⟩ (fun hCodec => by cases hCodec) hFree
    (by decide) rfl (fun _ _ => rfl) hStore rfl rfl
  obtain ⟨y, hNarrow, rfl⟩ := hSome (by decide)
  have hFirst : x.narrow 0 1 = .ok ⟨.f16, ⟨1, 1, [1]⟩, [10, 11]⟩ := by decide +kernel
  obtain rfl : _ = y := Except.ok.inj (hFirst.symm.trans hNarrow)
  exact ⟨t, v, hStore, hRetrieve⟩

end LatentCache
