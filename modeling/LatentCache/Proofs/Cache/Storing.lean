import LatentCache.Cache.Store
import LatentCache.Proofs.Address
import LatentCache.Proofs.Record.RoundTrip
import LatentCache.Proofs.Storage.Contents
import LatentCache.Proofs.Traversal

/-!
# What a store writes

A store that succeeds has written one record for each complete chunk from its offset on. Each record
stands under the address of its chunk and decodes to the positions of that chunk.
-/

namespace LatentCache

theorem range'_split {p q n : Nat} (hFrom : p ≤ q) (hTo : q ≤ n) :
    List.range' p (q - p) ++ List.range' q (n - q) = List.range' p (n - p) := by
  obtain ⟨width, rfl⟩ := Nat.exists_eq_add_of_le hFrom
  rw [Nat.add_sub_cancel_left, List.range'_append_1]
  congr 1
  omega

namespace Cache

variable {c : Cache} {tokens : List Token} {x : Latent} {offset : Nat} {records : List Record}

theorem record_eq_ok {firstChunk : Nat} {chunk : Nat × ContentAddress} {record : Record}
    (h : c.record x firstChunk chunk = .ok record) :
    record.1 = chunk.2 ∧
      ∃ y, x.narrow ((chunk.1 - firstChunk) * c.chunkSize) c.chunkSize = .ok y ∧
        c.codec.encode y = .ok record.2 := by
  obtain ⟨y, hSlice, h⟩ := bind_eq_ok_iff.mp h
  obtain ⟨bytes, hBytes, h⟩ := bind_eq_ok_iff.mp h
  cases h
  exact ⟨rfl, y, mapError_eq_ok_iff.mp hSlice, mapError_eq_ok_iff.mp hBytes⟩

def Reaches (c : Cache) (tokens : List Token) (offset : Nat) (x : Latent) : Prop :=
  (tokens.length / c.chunkSize - offset / c.chunkSize) * c.chunkSize ≤ x.seqLen

/-- The records of a store, with the chunks as their numbers. -/
theorem records_eq (c : Cache) (tokens : List Token) (x : Latent) (offset : Nat) :
    c.records tokens x offset =
      if offset % c.chunkSize ≠ 0 then .error (.invalidOffset offset tokens.length c.chunkSize)
      else if tokens.length / c.chunkSize ≤ offset / c.chunkSize then .ok []
      else if x.seqLen <
          (tokens.length / c.chunkSize - offset / c.chunkSize) * c.chunkSize then
        .error (.latentTooShort
          ((tokens.length / c.chunkSize - offset / c.chunkSize) * c.chunkSize) x.seqLen)
      else
        (List.range' (offset / c.chunkSize)
          (tokens.length / c.chunkSize - offset / c.chunkSize)).mapM fun i =>
            c.record x (offset / c.chunkSize) (i, chunkAddress c.chunkSize tokens i) := by
  rw [records]
  dsimp only
  rw [Chunking.prefixAddresses_toList, List.mapM_map]
  rfl

theorem records_eq_ok (h : c.records tokens x offset = .ok records) :
    offset % c.chunkSize = 0 ∧ c.Reaches tokens offset x ∧
      List.Forall₂ (fun i record => c.record x (offset / c.chunkSize)
          (i, chunkAddress c.chunkSize tokens i) = .ok record)
        (List.range' (offset / c.chunkSize)
          (tokens.length / c.chunkSize - offset / c.chunkSize)) records := by
  rw [records_eq] at h
  split at h
  · cases h
  · next hOffset =>
    refine ⟨not_not.mp hOffset, ?_⟩
    split at h
    · next hNone =>
      cases h
      have hZero : tokens.length / c.chunkSize - offset / c.chunkSize = 0 :=
        Nat.sub_eq_zero_of_le hNone
      rw [Reaches, hZero, Nat.zero_mul]
      exact ⟨Nat.zero_le _, .nil⟩
    · split at h
      · cases h
      · next hLong => exact ⟨Nat.le_of_not_lt hLong, forall₂_of_mapM_eq_ok h⟩

def chunkSlice (c : Cache) (x : Latent) (offset i : Nat) : Latent :=
  x.slice ((i - offset / c.chunkSize) * c.chunkSize) c.chunkSize

theorem Reaches.chunk_le (h : c.Reaches tokens offset x) {i : Nat}
    (hFrom : offset / c.chunkSize ≤ i) (hi : i < tokens.length / c.chunkSize) :
    (i - offset / c.chunkSize) * c.chunkSize + c.chunkSize ≤ x.seqLen := by
  rw [← Nat.succ_mul]
  exact (Nat.mul_le_mul_right _ (by omega)).trans h

/-- The codec of a cache has room for the headers of the chunks of a latent. -/
def HeaderFits (c : Cache) (x : Latent) : Prop :=
  c.codec = .selfDescribing →
    recordHeaderLength x.type (x.shape.withSeqLen c.chunkSize) ≤ Container.maxHeaderLength

theorem headerFits_of_le
    (h : recordHeaderLength x.type x.shape ≤ Container.maxHeaderLength)
    (hChunk : c.chunkSize ≤ x.seqLen) : c.HeaderFits x :=
  fun _ => (recordHeaderLength_mono x.type x.shape hChunk).trans h

theorem records_decode (hSound : x.Sound)
    (hHeader : c.chunkSize ≤ x.seqLen → c.HeaderFits x)
    (h : c.records tokens x offset = .ok records) :
    List.Forall₂ (fun record i => (offset / c.chunkSize ≤ i ∧ i < tokens.length / c.chunkSize) ∧
        record.1 = chunkAddress c.chunkSize tokens i ∧
        c.codec.decode record.2 = .ok (c.chunkSlice x offset i))
      records (List.range' (offset / c.chunkSize)
        (tokens.length / c.chunkSize - offset / c.chunkSize)) := by
  obtain ⟨-, hReaches, hRecords⟩ := records_eq_ok h
  have hMem : ∀ i ∈ List.range' (offset / c.chunkSize)
      (tokens.length / c.chunkSize - offset / c.chunkSize),
      offset / c.chunkSize ≤ i ∧ i < tokens.length / c.chunkSize := by
    intro i hi
    rw [List.mem_range'_1] at hi
    omega
  have hBoth := (List.forall₂_and_left _ _).mpr ⟨hMem, hRecords⟩
  refine (List.Forall₂.imp ?_ hBoth).flip
  rintro i record ⟨⟨hFrom, hi⟩, hRecord⟩
  obtain ⟨hAddress, y, hSlice, hEncode⟩ := record_eq_ok hRecord
  have hRange := hReaches.chunk_le hFrom hi
  rw [Latent.narrow_eq hSound.fits hRange] at hSlice
  cases hSlice
  have hFits := hHeader ((Nat.le_add_left _ _).trans hRange)
  exact ⟨⟨hFrom, hi⟩, hAddress, Codec.decode_of_encode (hSound.slice hRange) hFits hEncode⟩

section Store

variable {σ : Type} {m : Medium σ} {s : Session σ} {t : σ} {record : Record}

theorem store_refused {e : CacheError} (h : c.records tokens x offset = .error e) :
    c.store m tokens x offset s = (.error e, s) := by
  rw [store, h]

theorem store_nothing (h : c.records tokens x offset = .ok []) :
    c.store m tokens x offset s = (.ok ⟨0, 0⟩, s) := by
  rw [store, h]

theorem store_failed {e : StorageError} (h : c.records tokens x offset = .ok (record :: records))
    (hPut : m.batchPut (record :: records) s.storage = (.error e, t)) :
    c.store m tokens x offset s = (.error (.storage e), { s with storage := t }) := by
  rw [store, h]
  simp only [hPut]

theorem store_written (h : c.records tokens x offset = .ok (record :: records))
    (hPut : m.batchPut (record :: records) s.storage = (.ok (), t)) :
    c.store m tokens x offset s =
      (.ok ⟨(record :: records).length, Record.totalLength (record :: records)⟩,
        { s with
          storage := t
          stats := s.stats.addStore (record :: records).length
            (Record.totalLength (record :: records))
          metrics := s.metrics.addStore (record :: records).length
            (Record.totalLength (record :: records)) }) := by
  rw [store, h]
  simp only [hPut]

/-- A store that succeeds had nothing to write, or wrote one batch. -/
theorem store_eq_ok {stored : Stored} {u : Session σ}
    (h : c.store m tokens x offset s = (.ok stored, u)) :
    (c.records tokens x offset = .ok [] ∧ stored = ⟨0, 0⟩ ∧ u = s) ∨
    ∃ record rest t, c.records tokens x offset = .ok (record :: rest) ∧
      m.batchPut (record :: rest) s.storage = (.ok (), t) ∧
      stored = ⟨(record :: rest).length, Record.totalLength (record :: rest)⟩ ∧
      u = { s with
        storage := t
        stats := s.stats.addStore stored.chunksWritten stored.bytesWritten
        metrics := s.metrics.addStore stored.chunksWritten stored.bytesWritten } := by
  cases hRecords : c.records tokens x offset with
  | error e =>
    rw [store_refused hRecords] at h
    cases h
  | ok records =>
    cases records with
    | nil =>
      rw [store_nothing hRecords] at h
      cases h
      exact .inl ⟨rfl, rfl, rfl⟩
    | cons record rest =>
      rcases hPut : m.batchPut (record :: rest) s.storage with ⟨e | done, t⟩
      · rw [store_failed hRecords hPut] at h
        cases h
      · rw [store_written hRecords hPut] at h
        cases h
        exact .inr ⟨record, rest, t, rfl, hPut, rfl, rfl⟩

/-- A store that fails was refused before any call, or its one batch failed. -/
theorem store_eq_error {e : CacheError} {u : Session σ}
    (h : c.store m tokens x offset s = (.error e, u)) :
    (c.records tokens x offset = .error e ∧ u = s) ∨
    ∃ records cause t, c.records tokens x offset = .ok records ∧
      m.batchPut records s.storage = (.error cause, t) ∧ e = .storage cause ∧
      u = { s with storage := t } := by
  cases hRecords : c.records tokens x offset with
  | error e' =>
    rw [store_refused hRecords] at h
    cases h
    exact .inl ⟨rfl, rfl⟩
  | ok records =>
    cases records with
    | nil =>
      rw [store_nothing hRecords] at h
      cases h
    | cons record rest =>
      rcases hPut : m.batchPut (record :: rest) s.storage with ⟨cause | done, t⟩
      · rw [store_failed hRecords hPut] at h
        cases h
        exact .inr ⟨_, cause, t, rfl, hPut, rfl, rfl⟩
      · rw [store_written hRecords hPut] at h
        cases h

end Store

/-- A store that succeeds overwrites the contents of a serving medium with its records. -/
theorem store_contents {σ : Type} {m : Medium σ} {sound : σ → Prop}
    {contents : σ → ContentAddress → Option Bytes} (hServes : m.Serves sound contents)
    {s t : Session σ} (hs : sound s.storage) {stored : Stored}
    (h : c.store m tokens x offset s = (.ok stored, t)) :
    ∃ records, c.records tokens x offset = .ok records ∧ sound t.storage ∧
      contents t.storage = overwrite (contents s.storage) records := by
  obtain ⟨hRecords, -, rfl⟩ | ⟨record, rest, u, hRecords, hPut, -, rfl⟩ := store_eq_ok h
  · exact ⟨[], hRecords, hs, rfl⟩
  · have hSound := hServes.sound_batchPut (record :: rest) s.storage hs
    have hContents := hServes.contents_batchPut (record :: rest) s.storage hs
    rw [hPut] at hSound hContents
    exact ⟨record :: rest, hRecords, hSound rfl, hContents rfl⟩

end Cache

end LatentCache
