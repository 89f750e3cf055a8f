import LatentCache.Command.Smoke
import LatentCache.Proofs.Cache.Continuity
import LatentCache.Proofs.Cache.Decision
import LatentCache.Proofs.Record.Composition
import LatentCache.Proofs.Record.Format
import LatentCache.Proofs.Settings.Construction
import LatentCache.Proofs.Storage.Opening

/-!
# The smoke test passes

Settings that pass validation make a cache to which the synthetic sequence fits. Where its three
records find room, the sequence is stored and retrieved as it was, whatever was stored before.
-/

namespace LatentCache.Command.Smoke

/-- The length of the synthetic sequence. -/
def positions (s : Settings) : Nat := 3 * s.chunkSize + s.chunkSize / 2

/-- The length of the data of the synthetic latent. -/
def byteLength (s : Settings) : Nat :=
  (dimensions s.codec).2.1 * positions s * (dimensions s.codec).2.2 * (dimensions s.codec).1.width

/-- The settings pass validation, the synthetic sequence fits, and the addresses of its chunks do
not collide. -/
structure Usable (s : Settings) : Prop where
  valid : s.validate = .ok ()
  short : positions s < 4294967296
  small : byteLength s < Size.limit
  collisionFree : CollisionFree (chunkPrefixes s.chunkSize (tokens (positions s)) 0)

/-- The records that the smoke test stores. -/
def records (s : Settings) : Except CacheError (List Record) := do
  let c ← s.cache?
  let x ← (latent s.codec (positions s)).mapError CacheError.latent
  c.records (tokens (positions s)) x 0

/-- The storage is memory, or an environment that can be opened and has room for the records. -/
inductive HasRoom (s : Settings) (h : Host) : Prop
  | memory {hint : Nat} (hBackend : s.backend = .memory hint) : HasRoom s h
  | mapped {m : MappedSettings} {location : Location} {h₀ : Host}
      (hBackend : s.backend = .mapped m)
      (hOpen : Backend.openMapped m h = (.ok (.mapped m.path location), h₀))
      (hRoom : ∀ rs, records s = .ok rs →
        (h₀.environment location).tree.hasRoom [rs] = true) : HasRoom s h

/-! ## The synthetic sequence -/

/-- The synthetic latent, with the dimensions that the codec asks for. -/
structure Synthetic (s : Settings) (x : Latent) : Prop where
  eq : latent s.codec (positions s) = .ok x
  sound : x.Sound
  type : x.type = (dimensions s.codec).1
  shape : x.shape = ⟨(dimensions s.codec).2.1, positions s, [(dimensions s.codec).2.2]⟩

theorem length_tokens {n : Nat} (h : n < 4294967296) : (tokens n).length = n := by
  rw [tokens, List.length_map, List.length_range, Nat.mod_eq_of_lt h]

section Usable

variable {s : Settings} (h : Usable s)
include h

theorem Usable.sequenceLength_eq : sequenceLength s.chunkSize = positions s := by
  have hShort := h.short
  rw [positions] at hShort ⊢
  have hMul : Size.mul s.chunkSize smokeChunks = 3 * s.chunkSize := by
    rw [smokeChunks, Nat.mul_comm 3]
    exact Size.mul_eq (by rw [Size.limit]; omega)
  rw [sequenceLength, hMul]
  exact Size.add_eq (by rw [Size.limit]; omega)

theorem Usable.chunks_eq : positions s / s.chunkSize = 3 := by
  obtain ⟨hSize, -⟩ := Settings.of_validate_eq_ok h.valid
  have hRest : s.chunkSize / 2 < s.chunkSize := Nat.div_lt_self hSize (by decide)
  rw [positions, Nat.mul_comm, Nat.mul_add_div hSize, Nat.div_eq_of_lt hRest]

theorem Usable.nonzero : 0 < (dimensions s.codec).2.1 ∧ 0 < (dimensions s.codec).2.2 := by
  rw [dimensions]
  cases hKind : s.codec.kind with
  | selfDescribing => exact ⟨Nat.two_pos, Nat.succ_pos 7⟩
  | raw => exact (Settings.of_validate_eq_ok h.valid).2 hKind

theorem Usable.exists_synthetic : ∃ x, Synthetic s x := by
  obtain ⟨hSize, -⟩ := Settings.of_validate_eq_ok h.valid
  obtain ⟨hLayers, hHidden⟩ := h.nonzero
  have hPositions : positions s ≠ 0 := by
    rw [positions]
    omega
  have hSmall := h.small
  rw [byteLength] at hSmall
  let dims := [(dimensions s.codec).2.1, positions s, (dimensions s.codec).2.2]
  have hOk : ∃ x, Latent.ofElements (dimensions s.codec).1 dims
      ((List.range (Size.prod dims)).map fun i => (dimensions s.codec).1.bitsOfNat (i % 251)) =
        .ok x ∧ x.type = (dimensions s.codec).1 ∧
      x.shape = ⟨(dimensions s.codec).2.1, positions s, [(dimensions s.codec).2.2]⟩ := by
    refine ⟨_, if_pos ?_, rfl, rfl⟩
    rw [List.length_map, List.length_range]
    rfl
  obtain ⟨x, hLatent, hType, hShape⟩ := hOk
  have hFits : x.Fits := by
    rw [Latent.Fits, hType, hShape]
    simp only [Shape.toList, Size.nonzeroProd_cons]
    rw [if_neg hLayers.ne', if_neg hPositions, if_neg hHidden.ne']
    simpa [Size.nonzeroProd, Nat.mul_assoc] using hSmall
  exact ⟨x, hLatent, Latent.sound_of_ofElements hLatent hFits, hType, hShape⟩

end Usable

/-! ## Storing and retrieving -/

theorem compare_slice {x : Latent} (h : x.Sound) {n : Nat} (hRange : 3 * n ≤ x.seqLen) :
    compare n x ⟨some (x.slice 0 (3 * n)), 3 * n⟩ = .ok () := by
  have hExpected : Size.mul smokeChunks n = 3 * n :=
    Size.mul_eq (hRange.trans_lt h.fits.seqLen_lt)
  have hNarrow : x.narrow 0 (3 * n) = .ok (x.slice 0 (3 * n)) :=
    Latent.narrow_eq h.fits ((Nat.zero_add _).trans_le hRange)
  rw [compare, hExpected, hNarrow]
  dsimp only
  rw [if_neg (not_not.mpr rfl)]
  change (if x.slice 0 (3 * n) ≠ x.slice 0 (3 * n) then _ else pure ()) = _
  rw [if_neg (not_not.mpr rfl)]
  rfl

section Synthetic

variable {s : Settings} {c : Cache} (hCache : s.cache? = .ok c) {x : Latent} (h : Synthetic s x)
include hCache h

theorem Synthetic.chunks_le : 3 * c.chunkSize ≤ x.seqLen := by
  rw [Latent.seqLen, h.shape, (Settings.cache?_eq_ok_iff.mp hCache).1]
  exact Nat.le_add_right _ _

theorem Synthetic.headerFits : c.HeaderFits x := by
  apply Cache.headerFits_of_le
  · have hLength := h.sound.fits.recordHeaderLength_le
    rw [h.shape] at hLength ⊢
    exact hLength.trans (by simp [Shape.toList, Container.maxHeaderLength])
  · have hChunks := h.chunks_le hCache
    omega

theorem Synthetic.rows {layout : RecordLayout} (hCodec : c.codec = .raw layout) :
    x.type = layout.type ∧ x.shape.SameRows layout.shape := by
  obtain ⟨-, hDescribes⟩ := Settings.cache?_eq_ok_iff.mp hCache
  rw [hCodec] at hDescribes
  obtain ⟨hKind, hType, hShape⟩ := hDescribes
  rw [h.type, h.shape, hType, hShape, dimensions, hKind]
  exact ⟨rfl, rfl, rfl⟩

end Synthetic

section Exercise

variable {s : Settings} (h : Usable s) {c : Cache} (hCache : s.cache? = .ok c) {x : Latent}
  (hSynthetic : Synthetic s x)
include h hCache

theorem Usable.count_eq : (tokens (positions s)).length / c.chunkSize = 3 := by
  rw [length_tokens h.short, (Settings.cache?_eq_ok_iff.mp hCache).1]
  exact h.chunks_eq

include hSynthetic

theorem Usable.reaches : c.Reaches (tokens (positions s)) 0 x := by
  rw [Cache.Reaches, h.count_eq hCache, Nat.zero_div]
  exact hSynthetic.chunks_le hCache

theorem Usable.exists_records : ∃ rs, c.records (tokens (positions s)) x 0 = .ok rs ∧
    records s = .ok rs ∧ rs.length = 3 := by
  have hAccepted : ∀ e, ¬c.Refuses (tokens (positions s)) x 0 e := by
    rintro e (hMisaligned | ⟨-, -, hShort⟩ | ⟨-, -, -, hCodec, hOther⟩)
    · exact hMisaligned (Nat.zero_mod _)
    · exact Nat.not_lt_of_le (h.reaches hCache hSynthetic) hShort
    · exact hOther (hSynthetic.rows hCache hCodec)
  obtain ⟨rs, hRecords⟩ := Cache.records_of_not_refused hSynthetic.sound hAccepted
  refine ⟨rs, hRecords, ?_, ?_⟩
  · exact bind_eq_ok_iff.mpr ⟨c, hCache, bind_eq_ok_iff.mpr
      ⟨x, mapError_eq_ok_iff.mpr hSynthetic.eq, hRecords⟩⟩
  · rw [(Cache.isBatch_of_records hRecords).length_eq, h.count_eq hCache, Nat.zero_div]

section Storage

variable {b : Backend} {sound : Host → Prop} {contents : Host → ContentAddress → Option Bytes}
  {host : Host}

theorem Usable.stores
    (hAccepts : ∀ rs, records s = .ok rs → (b.medium.batchPut rs host).1 = .ok ()) :
    ∃ rs session, records s = .ok rs ∧
      c.store b.medium (tokens (positions s)) x 0 { storage := host } =
        (.ok ⟨3, Record.totalLength rs⟩, session) := by
  obtain ⟨rs, hRecords, hSent, hLength⟩ := h.exists_records hCache hSynthetic
  have hSome : rs ≠ [] := by
    rintro rfl
    cases hLength
  obtain ⟨hStored, -⟩ := Cache.store_send (m := b.medium) (s := { storage := host }) hRecords hSome
  rw [hAccepts rs hSent, hLength] at hStored
  exact ⟨rs, _, hSent, Prod.ext hStored rfl⟩

theorem Usable.retrieves (hServes : b.medium.Serves sound contents) (hSound : sound host)
    {stored : Stored} {session : Session Host}
    (hStore : c.store b.medium (tokens (positions s)) x 0 { storage := host } =
      (.ok stored, session)) :
    ∃ later, c.retrieve b.medium (tokens (positions s)) session =
      (.ok ⟨some (x.slice 0 (3 * c.chunkSize)), 3 * c.chunkSize⟩, later) := by
  have hCount := h.count_eq hCache
  have hTokens : (tokens (positions s)).length < Size.limit := by
    rw [length_tokens h.short]
    exact h.short.trans (by decide)
  have hFree : CollisionFree (chunkPrefixes c.chunkSize (tokens (positions s)) 0) := by
    rw [(Settings.cache?_eq_ok_iff.mp hCache).1]
    exact h.collisionFree
  have hLt : 0 / c.chunkSize < (tokens (positions s)).length / c.chunkSize := by
    rw [hCount, Nat.zero_div]
    decide
  obtain ⟨-, -, hAfter, -⟩ := Cache.store_contents hServes hSound hStore
  -- All chunks are new, so nothing that was stored before is read.
  have hContinues := Cache.continues_of_store hServes hSound hSynthetic.sound
    (hSynthetic.headerFits hCache) hFree hStore
  have hRetrieve := hContinues.retrieve_stored hServes.toReadable hAfter hTokens hLt
    hSynthetic.sound (h.reaches hCache hSynthetic) (Nat.zero_div _)
  rwa [hCount] at hRetrieve

theorem Usable.exercise_passes (hServes : b.medium.Serves sound contents) (hSound : sound host)
    (hAccepts : ∀ rs, records s = .ok rs → (b.medium.batchPut rs host).1 = .ok ()) :
    ∃ rs later, records s = .ok rs ∧ exercise s c b host =
      (["BACKEND=" ++ b.kind.name, "CODEC=" ++ s.codec.kind.name, "CHUNKS_WRITTEN=3",
        s!"BYTES_WRITTEN={Record.totalLength rs}", s!"TOKENS_COVERED={3 * s.chunkSize}"],
        .ok (), later) := by
  obtain ⟨hSize, hDescribes⟩ := Settings.cache?_eq_ok_iff.mp hCache
  obtain ⟨rs, session, hSent, hStore⟩ := h.stores hCache hSynthetic hAccepts
  obtain ⟨later, hRetrieve⟩ := h.retrieves hCache hSynthetic hServes hSound hStore
  have hCompare := compare_slice hSynthetic.sound (hSynthetic.chunks_le hCache)
  rw [hSize] at hCompare hRetrieve
  refine ⟨rs, later.storage, hSent, ?_⟩
  simp only [exercise, hSize, h.sequenceLength_eq, hSynthetic.eq, hStore, hRetrieve, hCompare,
    report, CodecSettings.kind_eq hDescribes]
  rfl

end Storage

end Exercise

theorem run_of_exercise {s : Settings} (hValid : s.validate = .ok ()) {c : Cache}
    (hCache : s.cache? = .ok c) {b : Backend} {h h₀ : Host}
    (hOpen : s.backend.openIn h = (.ok b, h₀)) : run s h = exercise s c b h₀ := by
  rw [run, hValid]
  dsimp only
  rw [Cache.ofSettings_of_cache? hOpen hCache]

/-- The smoke test passes with all settings that pass validation, as long as the synthetic sequence
is not too long and its records find room. It reports three chunks, and all their tokens. -/
theorem run_passes {s : Settings} (hUsable : Usable s) {h : Host} (hRoom : HasRoom s h) :
    ∃ rs later, records s = .ok rs ∧ run s h =
      (["BACKEND=" ++ s.backend.kind.name, "CODEC=" ++ s.codec.kind.name, "CHUNKS_WRITTEN=3",
        s!"BYTES_WRITTEN={Record.totalLength rs}", s!"TOKENS_COVERED={3 * s.chunkSize}"],
        .ok (), later) := by
  obtain ⟨c, hCache⟩ := Settings.exists_cache hUsable.valid
  obtain ⟨x, hSynthetic⟩ := hUsable.exists_synthetic
  cases hRoom with
  | memory hBackend =>
    have hOpen : s.backend.openIn h = (.ok (.memory h.memories.length),
        { h with memories := h.memories ++ [.empty] }) := by
      rw [hBackend]
      rfl
    rw [run_of_exercise hUsable.valid hCache hOpen, hBackend]
    apply hUsable.exercise_passes hCache hSynthetic (Backend.memory_serves h.memories.length)
    · simp
    · intro rs hSent
      rfl
  | @mapped m location h₀ hBackend hOpen hRoom =>
    have hOpenIn : s.backend.openIn h = (.ok (.mapped m.path location), h₀) := by
      rw [hBackend]
      exact hOpen
    obtain ⟨_, hSame, hIsOpen, -⟩ := Backend.openMapped_eq_ok hOpen
    cases hSame
    rw [run_of_exercise hUsable.valid hCache hOpenIn, hBackend]
    apply hUsable.exercise_passes hCache hSynthetic (Backend.mapped_serves m.path location)
    · exact ⟨hIsOpen, trivial⟩
    · intro rs hSent
      exact (MappedEnvironment.commit_of_hasRoom (hRoom rs hSent)).1

def mappedOnes : Settings :=
  { chunkSize := 1
    backend := .mapped { path := "db" }
    codec := { kind := .raw, rawType := .f32, rawLayers := 1, rawHidden := 1 } }

theorem mappedOnes_passes : Usable mappedOnes ∧ HasRoom mappedOnes (.ofFiles .empty) ∧
    ∃ rs later, records mappedOnes = .ok rs ∧ run mappedOnes (.ofFiles .empty) =
      (["BACKEND=lmdb", "CODEC=raw", "CHUNKS_WRITTEN=3",
        s!"BYTES_WRITTEN={Record.totalLength rs}", "TOKENS_COVERED=3"], .ok (), later) := by
  have hFree : CollisionFree (chunkPrefixes 1 (tokens 3) 0) := by
    unfold CollisionFree
    decide +kernel
  have hUsable : Usable mappedOnes := ⟨rfl, by decide, by decide, hFree⟩
  have hCache : mappedOnes.cache? =
      .ok ⟨⟨1, by decide⟩, .raw ⟨.f32, ⟨1, 1, [1]⟩, by decide⟩, rfl⟩ :=
    Settings.cache?_eq_ok_iff.mpr ⟨rfl, rfl, rfl, rfl⟩
  have hSent : records mappedOnes = .ok [(.ofTokens [0], [0, 0, 0, 0]),
      (.ofTokens [0, 2654435761], [0, 0, 128, 63]),
      (.ofTokens [0, 2654435761, 1013904226], [0, 0, 0, 64])] := by
    rw [records, hCache]
    refine bind_eq_ok_iff.mpr ⟨_, rfl, bind_eq_ok_iff.mpr ⟨_, rfl, ?_⟩⟩
    rw [Cache.records_eq]
    decide +kernel
  have hRoom : HasRoom mappedOnes (.ofFiles .empty) := by
    have hOpen : (Backend.openMapped { path := "db" } (.ofFiles .empty)).1 =
        .ok (.mapped "db" ["", "db"]) := by
      decide +kernel
    apply HasRoom.mapped rfl (Prod.ext hOpen rfl)
    intro rs hRecords
    cases hSent.symm.trans hRecords
    decide +kernel
  exact ⟨hUsable, hRoom, run_passes hUsable hRoom⟩

end LatentCache.Command.Smoke
