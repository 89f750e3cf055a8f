import LatentCache.Proofs.Cache.Failure

/-!
# The map behind a shared storage

While all caches keep self-describing records, their storage is a map from token prefixes to
latents: the one that the successful stores describe. A retrieval reads that map.
-/

namespace LatentCache

/-! ## The reference map -/

abbrev Reference := List Token → Option Latent

/-- The prefixes that a store addresses, with the positions of their last chunks. -/
def Cache.bindings (c : Cache) (tokens : List Token) (x : Latent) (offset : Nat) :
    List (List Token × Latent) :=
  (List.range' (offset / c.chunkSize)
    (tokens.length / c.chunkSize - offset / c.chunkSize)).filterMap fun i =>
      (x.narrow ((i - offset / c.chunkSize) * c.chunkSize) c.chunkSize).toOption.map fun y =>
        (chunkPrefix c.chunkSize tokens i, y)

namespace Reference

/-- A store that succeeds binds the prefixes that it addresses; nothing else changes the map. -/
def next (M : Reference) (c : Cache) : CacheCall → Except CacheError CacheAnswer → Reference
  | .store tokens x offset, .ok _ => overwrite M (c.bindings tokens x offset)
  | _, _ => M

/-- The map after the calls and answers of a run. -/
def after {ι : Type} (caches : ι → Cache) :
    List ((ι × CacheCall) × Except CacheError CacheAnswer) → Reference → Reference
  | [], M => M
  | (call, answer) :: rest, M => after caches rest (M.next (caches call.1) call.2 answer)

end Reference

namespace CacheCall

/-- The latent of a store is well formed, its sizes fit in 64 bits, and its container has a header
that readers accept. -/
def Admissible : CacheCall → Prop
  | store _ x _ => x.Sound ∧ recordHeaderLength x.type x.shape ≤ Container.maxHeaderLength
  | retrieve _ => True

def prefixes (size : Nat) : CacheCall → List (List Token)
  | store tokens _ offset => chunkPrefixes size tokens (offset / size)
  | retrieve _ => []

end CacheCall

/-! ## The simulation -/

/-- Under the addresses of some prefixes, a table holds the latents of a reference map. -/
def Reference.Describes (M : Reference) (prefixes : List (List Token)) (t : Memory) : Prop :=
  ∀ p, p ∈ prefixes → ((t.get? (.ofTokens p)).bind fun bytes =>
    (Codec.selfDescribing.decode bytes).toOption) = M p

theorem Reference.describes_empty (prefixes : List (List Token)) :
    Describes (fun _ => none) prefixes .empty := fun _ _ => rfl

theorem Cache.bindings_eq {c : Cache} {tokens : List Token} {x : Latent} {offset : Nat}
    (hFits : x.Fits) (hReaches : c.Reaches tokens offset x) :
    c.bindings tokens x offset = (List.range' (offset / c.chunkSize)
      (tokens.length / c.chunkSize - offset / c.chunkSize)).map fun i =>
        (chunkPrefix c.chunkSize tokens i, c.chunkSlice x offset i) := by
  rw [bindings, ← List.filterMap_eq_map]
  refine List.filterMap_congr fun i hi => ?_
  rw [List.mem_range'_1] at hi
  have hRange := hReaches.chunk_le hi.1 (by omega)
  rw [Latent.narrow_eq hFits hRange]
  rfl

theorem Reference.Describes.store {M : Reference} {prefixes : List (List Token)} {c : Cache}
    {tokens : List Token} {x : Latent} {offset : Nat} {s t : Session Memory} {stored : Stored}
    (h : M.Describes prefixes s.storage) (hFree : CollisionFree prefixes)
    (hCodec : c.codec = .selfDescribing) (hCall : (CacheCall.store tokens x offset).Admissible)
    (hSub : chunkPrefixes c.chunkSize tokens (offset / c.chunkSize) ⊆ prefixes)
    (hStore : c.store Memory.medium tokens x offset s = (.ok stored, t)) :
    Describes (overwrite M (c.bindings tokens x offset)) prefixes t.storage := by
  obtain ⟨hSound, hHeader⟩ := hCall
  obtain ⟨records, hRecords, -, hContents⟩ := Cache.store_contents Memory.serves trivial hStore
  obtain ⟨-, hReaches, -⟩ := Cache.records_eq_ok hRecords
  have hEntries := Cache.records_decode hSound (Cache.headerFits_of_le hHeader) hRecords
  rw [hCodec] at hEntries
  intro p hp
  rw [hContents, Cache.bindings_eq hSound.fits hReaches]
  refine overwrite_related
    (R := fun bytes? latent? =>
      (bytes?.bind fun bytes => (Codec.selfDescribing.decode bytes).toOption) = latent?)
    ContentAddress.ofTokens (· ∈ prefixes) (fun p q hp hq => hFree.eq_of_address hp hq) ?_ h p hp
  refine List.forall₂_map_right_iff.mpr (hEntries.imp ?_)
  rintro record i ⟨⟨hFrom, hi⟩, hAddress, hDecode⟩
  exact ⟨hAddress, hSub (mem_chunkPrefixes hFrom hi), by simp [hDecode, Except.toOption]⟩

theorem Reference.Describes.perform {M : Reference} {prefixes : List (List Token)} {c : Cache}
    {call : CacheCall} {s t : Session Memory} {answer : Except CacheError CacheAnswer}
    (h : M.Describes prefixes s.storage) (hFree : CollisionFree prefixes)
    (hCodec : c.codec = .selfDescribing) (hCall : call.Admissible)
    (hSub : call.prefixes c.chunkSize ⊆ prefixes)
    (hPerform : c.perform Memory.medium call s = (answer, t)) :
    (M.next c call answer).Describes prefixes t.storage := by
  cases answer with
  | error e =>
    have hSame : t.storage = s.storage := (Cache.perform_error Memory.keeps hPerform).2
    rw [hSame]
    cases call <;> exact h
  | ok answer =>
    cases call with
    | store tokens x offset =>
      rcases hStore : c.store Memory.medium tokens x offset s with ⟨e | stored, u⟩ <;>
        simp only [Cache.perform, hStore, Except.map] at hPerform <;> cases hPerform
      exact h.store hFree hCodec hCall hSub hStore
    | retrieve tokens =>
      have hSame : (c.retrieve Memory.medium tokens s).2.storage = s.storage :=
        Cache.retrieve_keeps Memory.keeps c tokens s
      have hState : (c.retrieve Memory.medium tokens s).2 = t := congrArg Prod.snd hPerform
      rw [hState] at hSame
      change M.Describes prefixes t.storage
      rwa [hSame]

def addressed {ι : Type} (caches : ι → Cache) (calls : List (ι × CacheCall)) :
    List (List Token) := calls.flatMap fun call => call.2.prefixes (caches call.1).chunkSize

namespace Fleet

variable {ι : Type} [DecidableEq ι] {caches : ι → Cache}

/-- The map that the answers to some calls describe. -/
def reference (caches : ι → Cache) (m : Medium Memory) (f : Fleet ι Memory)
    (calls : List (ι × CacheCall)) : Reference :=
  Reference.after caches (calls.zip (f.run caches m calls).1) fun _ => none

theorem run_describes {prefixes : List (List Token)} (hFree : CollisionFree prefixes)
    (hCodec : ∀ i, (caches i).codec = .selfDescribing) {calls : List (ι × CacheCall)}
    (hCalls : ∀ call ∈ calls, call.2.Admissible) (hSub : addressed caches calls ⊆ prefixes)
    {f : Fleet ι Memory} {M : Reference} (h : M.Describes prefixes f.storage) :
    (M.after caches (calls.zip (f.run caches Memory.medium calls).1)).Describes prefixes
      (f.run caches Memory.medium calls).2.storage := by
  induction calls generalizing f M with
  | nil => exact h
  | cons call rest ih =>
    rw [addressed, List.flatMap_cons, List.append_subset] at hSub
    have hStep := h.perform hFree (hCodec call.1) (hCalls call List.mem_cons_self) hSub.1
      (s := f.session call.1) rfl
    exact ih (fun c hc => hCalls c (List.mem_cons_of_mem _ hc)) hSub.2 hStep

end Fleet

theorem Reference.Describes.recordAt_eq {M : Reference} {prefixes : List (List Token)} {t : Memory}
    (h : M.Describes prefixes t) {c : Cache} (hCodec : c.codec = .selfDescribing)
    {tokens : List Token} (hSub : chunkPrefixes c.chunkSize tokens 0 ⊆ prefixes) {i : Nat}
    (hi : i < tokens.length / c.chunkSize) :
    M (chunkPrefix c.chunkSize tokens i) = c.recordAt t.get? tokens i := by
  rw [← h _ (hSub (mem_chunkPrefixes (Nat.zero_le i) hi)), Cache.recordAt, hCodec]
  rfl

/-- After any run of caches with self-describing records on an empty memory, a retrieval gives what
the reference map holds for the leading chunks: those with records of the right length that can
follow the record of the first one. -/
theorem retrieve_reads_reference {ι : Type} [DecidableEq ι] (caches : ι → Cache)
    (hCodec : ∀ i, (caches i).codec = .selfDescribing) (f : Fleet ι Memory)
    (hEmpty : f.storage = .empty) (calls : List (ι × CacheCall))
    (hCalls : ∀ call ∈ calls, call.2.Admissible) (c : Cache)
    (hQuery : c.codec = .selfDescribing) (tokens : List Token)
    (hLength : tokens.length < Size.limit)
    (hFree : CollisionFree (addressed caches calls ++ chunkPrefixes c.chunkSize tokens 0))
    (s : Session Memory) (hStorage : s.storage = (f.run caches Memory.medium calls).2.storage) :
    ∃ r t count,
      c.retrieve Memory.medium tokens s = (.ok r, t) ∧
      LeadingCount (c.UsableAt fun i =>
        f.reference caches Memory.medium calls (chunkPrefix c.chunkSize tokens i))
        (tokens.length / c.chunkSize) count ∧
      c.Covers (fun i =>
        f.reference caches Memory.medium calls (chunkPrefix c.chunkSize tokens i)) count r := by
  have hDescribes := Fleet.run_describes hFree hCodec hCalls (List.subset_append_left _ _)
    (hEmpty ▸ Reference.describes_empty _)
  rw [← hStorage] at hDescribes
  obtain ⟨r, hRetrieve, hCovers⟩ :=
    Cache.retrieve_spec Memory.serves.toReadable c tokens hLength (s := s) trivial
  have hLeading := (c.search_explores s.storage.get? tokens).leadingCount
  have hAt : ∀ i < tokens.length / c.chunkSize,
      f.reference caches Memory.medium calls (chunkPrefix c.chunkSize tokens i) =
        c.recordAt s.storage.get? tokens i :=
    fun i hi => hDescribes.recordAt_eq hQuery (List.subset_append_right _ _) hi
  refine ⟨r, _, _, hRetrieve, Cache.leadingCount_congr hLeading hAt, ?_⟩
  exact hCovers.congr fun i hi => hAt i (hi.trans_le hLeading.le)

def Cache.spanning (n : Nat) : Cache := ⟨⟨n + 1, Nat.succ_pos n⟩, .selfDescribing, rfl⟩

theorem retrieve_reads_overwritten_reference :
    let f : Fleet Nat Memory := ⟨.empty, fun _ => {}, {}, []⟩
    let x : Latent := ⟨.f16, ⟨1, 2, [1]⟩, [10, 11, 12, 13]⟩
    let calls := [(1, CacheCall.store [7, 8] x 0), (0, .store [7, 8] x 0), (1, .retrieve [7])]
    let M := f.reference Cache.spanning Memory.medium calls
    ∃ r t count,
      (Cache.spanning 1).retrieve Memory.medium [7, 8]
        ((f.run Cache.spanning Memory.medium calls).2.session 1) = (.ok r, t) ∧
      LeadingCount ((Cache.spanning 1).UsableAt fun i => M (chunkPrefix 2 [7, 8] i)) 1 count ∧
      (Cache.spanning 1).Covers (fun i => M (chunkPrefix 2 [7, 8] i)) count r := by
  intro f x calls M
  have hDigits : ∀ n < 10, (Decimal.digits n).length = 1 := by
    intro n hn
    rw [Decimal.digits, if_pos hn]
    rfl
  have hHeader : recordHeaderLength x.type x.shape ≤ Container.maxHeaderLength := by
    rw [recordHeaderLength, length_paddedHeader]
    simp [x, Container.headerChars, Container.dimsChars, Shape.toList, hDigits,
      ElementType.width]
    decide
  have hSound : x.Sound := ⟨by decide, by decide⟩
  have hCalls : ∀ call ∈ calls, call.2.Admissible := by
    intro call hCall
    simp only [calls, List.mem_cons, List.not_mem_nil, or_false] at hCall
    rcases hCall with rfl | rfl | rfl
    · exact ⟨hSound, hHeader⟩
    · exact ⟨hSound, hHeader⟩
    · trivial
  have hFree : CollisionFree (addressed Cache.spanning calls ++ chunkPrefixes 2 [7, 8] 0) := by
    unfold CollisionFree
    decide +kernel
  exact retrieve_reads_reference Cache.spanning (fun _ => rfl) f rfl calls hCalls
    (Cache.spanning 1) rfl [7, 8] (by decide) hFree _ rfl

end LatentCache
