import LatentCache.Proofs.Cache.Increments
import LatentCache.Proofs.Storage.Writing

/-!
# Stores that overlap

Stores of one cache in a memory may overlap: they may write the same chunk of a common prefix. If
they bring the same positions for such a chunk, the memory ends with the same contents however their
writes are mixed, and storing any of them again leaves it as it is.
-/

namespace LatentCache

structure StoreCall where
  tokens : List Token
  latent : Latent
  offset : Nat

namespace StoreCall

/-- The positions that a call brings for a chunk. -/
def slice (call : StoreCall) (size i : Nat) : Except LatentError Latent :=
  call.latent.narrow ((i - call.offset / size) * size) size

/-- A call writes the complete chunks from its offset on. -/
def Writes (call : StoreCall) (size i : Nat) : Prop :=
  call.offset / size ≤ i ∧ i < call.tokens.length / size

instance (call : StoreCall) (size i : Nat) : Decidable (call.Writes size i) :=
  inferInstanceAs (Decidable (_ ∧ _))

def prefixes (call : StoreCall) (size : Nat) : List (List Token) :=
  chunkPrefixes size call.tokens (call.offset / size)

/-- Two calls that write a chunk of a common prefix bring the same positions for it. -/
def Agree (size : Nat) (a b : StoreCall) : Prop :=
  ∀ i, a.Writes size i → b.Writes size i →
    chunkPrefix size a.tokens i = chunkPrefix size b.tokens i → a.slice size i = b.slice size i

end StoreCall

namespace Cache

variable {c : Cache}

def batch (c : Cache) (call : StoreCall) : Except CacheError (List Record) :=
  c.records call.tokens call.latent call.offset

/-- Makes stores one after another. -/
def storeEach {σ : Type} (c : Cache) (m : Medium σ) :
    List StoreCall → Session σ → List (Except CacheError Stored) × Session σ
  | [], s => ([], s)
  | call :: rest, s =>
    let (answer, s) := c.store m call.tokens call.latent call.offset s
    let (answers, s) := storeEach c m rest s
    (answer :: answers, s)

/-! ## What a call writes -/

theorem batch_of_store {call : StoreCall} {s t : Session Memory} {stored : Stored}
    (h : c.store Memory.medium call.tokens call.latent call.offset s = (.ok stored, t)) :
    ∃ records, c.batch call = .ok records := by
  obtain ⟨records, hRecords, -, -⟩ := store_contents Memory.serves trivial h
  exact ⟨records, hRecords⟩

/-- A record is one of a chunk that a call writes: it has the address of its prefix and the bytes of
its positions. -/
def IsRecordOf (c : Cache) (call : StoreCall) (i : Nat) (record : Record) : Prop :=
  call.Writes c.chunkSize i ∧ record.1 = chunkAddress c.chunkSize call.tokens i ∧
    ∃ y, call.slice c.chunkSize i = .ok y ∧ c.codec.encode y = .ok record.2

theorem isRecordOf_of_mem_batch {call : StoreCall} {records : List Record}
    (h : c.batch call = .ok records) {record : Record} (hMem : record ∈ records) :
    ∃ i, c.IsRecordOf call i record := by
  obtain ⟨-, -, hRecords⟩ := records_eq_ok h
  obtain ⟨i, hi, hRecord⟩ := exists_of_mem_forall₂ hRecords hMem
  obtain ⟨hFrom, hTo⟩ := List.mem_range'_1.mp hi
  exact ⟨i, ⟨hFrom, by omega⟩, record_eq_ok hRecord⟩

/-- The records of calls that agree do not disagree about any key. -/
theorem consistent_of_agree {calls : List StoreCall} {batches : List (List Record)}
    (hBatches : calls.mapM c.batch = .ok batches)
    (hFree : CollisionFree (calls.flatMap (·.prefixes c.chunkSize)))
    (hAgree : ∀ a ∈ calls, ∀ b ∈ calls, a.Agree c.chunkSize b) :
    Consistent batches.flatten := by
  have hOrigin : ∀ record ∈ batches.flatten, ∃ call ∈ calls, ∃ i, c.IsRecordOf call i record := by
    intro record hRecord
    obtain ⟨records, hRecords, hMem⟩ := List.mem_flatten.mp hRecord
    obtain ⟨call, hCall, hBatch⟩ :=
      exists_of_mem_forall₂ (forall₂_of_mapM_eq_ok hBatches) hRecords
    exact ⟨call, hCall, isRecordOf_of_mem_batch hBatch hMem⟩
  intro e he e' he' hKey
  obtain ⟨a, ha, i, hWrites, hAddress, y, hSlice, hEncode⟩ := hOrigin e he
  obtain ⟨b, hb, j, hWrites', hAddress', z, hSlice', hEncode'⟩ := hOrigin e' he'
  have hPrefix : chunkPrefix c.chunkSize a.tokens i = chunkPrefix c.chunkSize b.tokens j := by
    apply hFree.eq_of_address
    · exact List.mem_flatMap.mpr ⟨a, ha, mem_chunkPrefixes hWrites.1 hWrites.2⟩
    · exact List.mem_flatMap.mpr ⟨b, hb, mem_chunkPrefixes hWrites'.1 hWrites'.2⟩
    · exact hAddress.symm.trans (hKey.trans hAddress')
  -- Prefixes of the same length end with the same chunk.
  obtain rfl : i = j := by
    have hLength := congrArg List.length hPrefix
    rw [length_chunkPrefix hWrites.2, length_chunkPrefix hWrites'.2] at hLength
    exact Nat.succ_inj.mp (Nat.eq_of_mul_eq_mul_right c.chunkSize_pos hLength)
  have hSame := hAgree a ha b hb i hWrites hWrites' hPrefix
  rw [hSlice, hSlice'] at hSame
  cases hSame
  exact Except.ok.inj (hEncode.symm.trans hEncode')

/-! ## Calls one after another -/

theorem storeEach_in_memory {calls : List StoreCall} {batches : List (List Record)}
    (h : List.Forall₂ (fun call records => c.batch call = .ok records) calls batches)
    (s : Session Memory) :
    (∀ answer ∈ (c.storeEach Memory.medium calls s).1, ∃ stored, answer = .ok stored) ∧
      (c.storeEach Memory.medium calls s).2.storage = s.storage.insertAll batches.flatten := by
  induction h generalizing s with
  | nil =>
    constructor
    · intro answer hAnswer
      cases hAnswer
    · rfl
  | @cons call records rest others hRecords _ ih =>
    obtain ⟨t, hStore, hTable⟩ := store_in_memory hRecords s
    obtain ⟨hAnswers, hLast⟩ := ih t
    simp only [storeEach, hStore]
    constructor
    · intro answer hAnswer
      rcases List.mem_cons.mp hAnswer with rfl | hAnswer
      · exact ⟨_, rfl⟩
      · exact hAnswers answer hAnswer
    · rw [hLast, hTable, List.flatten_cons, Table.insertAll_append]

/-- What becomes of a memory in which calls are made, whose batches are given: values and a number of
entries on which neither the mixing of the writes nor the order of the calls has an influence. -/
structure Converges (c : Cache) (s : Session Memory) (calls : List StoreCall)
    (batches : List (List Record)) (final : ContentAddress → Option Bytes) (size : Nat) :
    Prop where
  sends : calls.mapM c.batch = .ok batches
  finishes : ∃ w, Writing.Run ⟨s.storage, batches⟩ w ∧ w.Finished
  mixed : ∀ w, Writing.Run ⟨s.storage, batches⟩ w → w.Finished →
    w.table.get? = final ∧ w.table.size = size
  inTurn : ∀ order : List StoreCall, order.Perm calls →
    (∀ answer ∈ (c.storeEach Memory.medium order s).1, ∃ stored, answer = .ok stored) ∧
      (c.storeEach Memory.medium order s).2.storage.get? = final ∧
      (c.storeEach Memory.medium order s).2.storage.size = size
  again : ∀ t : Session Memory, t.storage.get? = final → ∀ more : List StoreCall, more ⊆ calls →
    (∀ answer ∈ (c.storeEach Memory.medium more t).1, ∃ stored, answer = .ok stored) ∧
      (c.storeEach Memory.medium more t).2.storage = t.storage

/-- Stores that succeed and agree about the chunks that they share leave the same contents, however
their writes are mixed and in whatever order they are made. Making any of them again changes
nothing. -/
theorem overlapping_stores_converge (c : Cache) (s : Session Memory) (calls : List StoreCall)
    (hStores : ∀ call ∈ calls, ∃ stored t,
      c.store Memory.medium call.tokens call.latent call.offset s = (.ok stored, t))
    (hFree : CollisionFree (calls.flatMap (·.prefixes c.chunkSize)))
    (hAgree : ∀ a ∈ calls, ∀ b ∈ calls, a.Agree c.chunkSize b) :
    ∃ batches final size, c.Converges s calls batches final size := by
  have hAccepted : ∀ call ∈ calls, ∃ records, c.batch call = .ok records := by
    intro call hCall
    obtain ⟨stored, t, hStore⟩ := hStores call hCall
    exact batch_of_store hStore
  obtain ⟨batches, hBatches⟩ := exists_mapM_eq_ok hAccepted
  have hEach := forall₂_of_mapM_eq_ok hBatches
  have hConsistent := consistent_of_agree hBatches hFree hAgree
  refine ⟨batches, (s.storage.insertAll batches.flatten).get?,
    (s.storage.insertAll batches.flatten).size, hBatches, Writing.exists_finished _, ?_, ?_, ?_⟩
  · intro w hRun hFinished
    obtain ⟨written, hPerm, hTable⟩ := hRun.finished hFinished
    rw [hTable]
    exact s.storage.insertAll_perm hConsistent hPerm
  · intro order hOrder
    obtain ⟨others, hOthers, hPerm⟩ := List.perm_comp_forall₂ hOrder hEach
    obtain ⟨hAnswers, hTable⟩ := storeEach_in_memory hOthers s
    rw [hTable]
    exact ⟨hAnswers, s.storage.insertAll_perm hConsistent hPerm.flatten⟩
  · intro t ht more hMore
    obtain ⟨others, hOthers⟩ := exists_mapM_eq_ok fun call hCall => hAccepted call (hMore hCall)
    have hMoreEach := forall₂_of_mapM_eq_ok hOthers
    obtain ⟨hAnswers, hTable⟩ := storeEach_in_memory hMoreEach t
    refine ⟨hAnswers, hTable.trans (Table.insertAll_of_get? ?_)⟩
    intro record hRecord
    -- A call sends the same records again, and these are there.
    obtain ⟨records, hRecords, hMem⟩ := List.mem_flatten.mp hRecord
    obtain ⟨call, hCall, hBatch⟩ := exists_of_mem_forall₂ hMoreEach hRecords
    obtain ⟨records', hRecords', hBatch'⟩ := exists_of_mem_forall₂ hEach.flip (hMore hCall)
    cases hBatch.symm.trans hBatch'
    rw [ht]
    exact s.storage.get?_insertAll_of_mem hConsistent
      (List.mem_flatten.mpr ⟨records, hRecords', hMem⟩)

theorem overlapping_stores_converge_shared_chunk :
    let calls : List StoreCall :=
      [⟨[7, 8], ⟨.f16, ⟨1, 2, [1]⟩, [10, 11, 12, 13]⟩, 0⟩,
        ⟨[7, 8, 9], ⟨.f16, ⟨1, 2, [1]⟩, [12, 13, 14, 15]⟩, 1⟩]
    ∃ batches final size,
      singles.Converges ⟨Table.empty.insert (.ofTokens [7]) [0, 0], {}, {}, []⟩ calls batches final
        size := by
  intro calls
  have hFree : CollisionFree (calls.flatMap (·.prefixes singles.chunkSize)) := by
    unfold CollisionFree
    decide +kernel
  have hStores : ∀ call ∈ calls, call.latent.Sound ∧ ∀ e,
      ¬ singles.Refuses call.tokens call.latent call.offset e := by
    intro call hCall
    simp only [calls, List.mem_cons, List.not_mem_nil, or_false] at hCall
    constructor
    · rcases hCall with rfl | rfl <;> exact ⟨by decide, by decide⟩
    · intro e hRefuses
      cases hRefuses with
      | invalidOffset hOffset => exact hOffset (Nat.mod_one _)
      | latentTooShort _ _ hShort =>
        rcases hCall with rfl | rfl <;> exact absurd hShort (by decide)
      | layoutMismatch _ _ _ hCodec hRows =>
        cases hCodec
        rcases hCall with rfl | rfl <;> exact hRows ⟨rfl, rfl, rfl⟩
  have hAgree : ∀ a ∈ calls, ∀ b ∈ calls, ∀ i < 3, a.Writes 1 i ∧ b.Writes 1 i ∧
      chunkPrefix 1 a.tokens i = chunkPrefix 1 b.tokens i → a.slice 1 i = b.slice 1 i := by
    decide +kernel
  have hShort : ∀ call ∈ calls, call.tokens.length / 1 ≤ 3 := by decide
  apply overlapping_stores_converge singles _ calls ?_ hFree
  · intro a ha b hb i hWrites hWrites' hPrefix
    exact hAgree a ha b hb i (hWrites.2.trans_le (hShort a ha)) ⟨hWrites, hWrites', hPrefix⟩
  · intro call hCall
    obtain ⟨hSound, hNot⟩ := hStores call hCall
    obtain ⟨records, hRecords⟩ := records_of_not_refused hSound hNot
    obtain ⟨t, hStore, -⟩ := store_in_memory hRecords _
    exact ⟨_, t, hStore⟩

end Cache

end LatentCache
