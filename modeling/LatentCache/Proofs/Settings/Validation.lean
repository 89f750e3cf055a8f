import LatentCache.Proofs.Settings.Construction

/-!
# Validation and construction

Settings are validated, and a cache is made of them, by separate checks. Both refuse the same chunk
sizes and the same dimensions of raw records. Storage in memory always opens, so there the two agree
altogether.
-/

namespace LatentCache.Settings

variable {s : Settings}

/-- The dimensions of raw records. -/
def rawDims (s : Settings) : List Nat := [s.codec.rawLayers, s.chunkSize, s.codec.rawHidden]

/-- Why settings make no cache, over whatever storage. -/
inductive Refuses (s : Settings) : CacheError → Prop
  | zeroChunkSize (hKind : s.codec.kind = .selfDescribing) (hZero : s.chunkSize = 0) :
      Refuses s (.invalidChunkSize .zeroChunkSize)
  | zeroDimension (hKind : s.codec.kind = .raw) (hZero : 0 ∈ s.rawDims) :
      Refuses s (.codec (.invalidLayout (.zeroDimension s.rawDims)))

/-! ## Construction -/

theorem Refuses.cache?_eq {e : CacheError} (h : s.Refuses e) : s.cache? = .error e := by
  cases h with
  | zeroChunkSize hKind hZero =>
    rw [cache?, CodecSettings.build, hKind, hZero]
    rfl
  | zeroDimension hKind hZero =>
    have hLayout : RecordLayout.layered s.codec.rawType s.codec.rawLayers s.chunkSize
        s.codec.rawHidden = .error (.zeroDimension s.rawDims) := dif_neg (not_not.mpr hZero)
    rw [cache?, CodecSettings.build, hKind]
    dsimp only
    rw [hLayout]
    rfl

theorem exists_refuses (h : ¬s.Sized) : ∃ e, s.Refuses e := by
  cases hKind : s.codec.kind with
  | selfDescribing =>
    refine ⟨_, .zeroChunkSize hKind ?_⟩
    by_contra hSize
    apply h
    refine ⟨Nat.pos_of_ne_zero hSize, ?_⟩
    intro hRaw
    cases hKind.symm.trans hRaw
  | raw =>
    refine ⟨_, .zeroDimension hKind ?_⟩
    by_contra hNonzero
    simp only [rawDims, List.mem_cons, List.not_mem_nil, or_false, not_or] at hNonzero
    exact h ⟨by omega, fun _ => by omega⟩

theorem cache?_eq_error_iff {e : CacheError} : s.cache? = .error e ↔ s.Refuses e := by
  constructor
  · intro h
    by_cases hSized : s.Sized
    · obtain ⟨c, hCache⟩ := hSized.exists_cache
      cases hCache.symm.trans h
    · obtain ⟨e', hRefuses⟩ := exists_refuses hSized
      cases hRefuses.cache?_eq.symm.trans h
      exact hRefuses
  · exact Refuses.cache?_eq

theorem sized_iff_exists_cache : s.Sized ↔ ∃ c, s.cache? = .ok c := by
  constructor
  · exact Sized.exists_cache
  · rintro ⟨c, hCache⟩
    by_contra hSized
    obtain ⟨e, hRefuses⟩ := exists_refuses hSized
    cases hRefuses.cache?_eq.symm.trans hCache

/-! ## Validation -/

theorem Sized.validate_eq (h : s.Sized) : s.validate = s.backend.validate := by
  obtain ⟨hSize, hDims⟩ := h
  rw [validate, if_neg hSize.ne', if_neg]
  rintro ⟨hRaw, hLayers | hHidden⟩
  · exact (hDims hRaw).1.ne' hLayers
  · exact (hDims hRaw).2.ne' hHidden

theorem validate_eq_ok_iff_of_memory {hint : Nat} (hBackend : s.backend = .memory hint) :
    s.validate = .ok () ↔ s.Sized := by
  constructor
  · exact of_validate_eq_ok
  · intro h
    rw [h.validate_eq, hBackend]
    rfl

theorem service_flaw {service : ServiceSettings} {flaw : Flaw}
    (h : service.validate = .error flaw) : flaw = .emptyUrl := by
  rw [ServiceSettings.validate] at h
  split at h
  · cases h
    rfl
  · cases h

theorem backend_flaw {backend : BackendSettings} {flaw : Flaw}
    (h : backend.validate = .error flaw) : flaw ∈ [.zeroMapSize, .emptyPath, .emptyUrl] := by
  cases backend with
  | memory hint => cases h
  | mapped m =>
    rw [BackendSettings.validate] at h
    split at h
    · cases h
      decide
    · split at h
      · cases h
        decide
      · cases h
  | service service | pipelined service =>
    rw [service_flaw h]
    decide

theorem not_sized_of_validate
    (h : s.validate = .error .zeroChunkSize ∨ s.validate = .error .rawWithoutDimensions) :
    ¬s.Sized := by
  intro hSized
  rw [hSized.validate_eq] at h
  rcases h with h | h
  · exact absurd (backend_flaw h) (by decide)
  · exact absurd (backend_flaw h) (by decide)

/-! ## Agreement -/

/-- With storage in memory, settings pass validation if and only if a cache is made of them. What
stands in the way is the chunk size where records describe themselves, and otherwise the layout of
raw records. Over all storage, settings that validation refuses for their chunk size or for these
dimensions make no cache. -/
theorem validation_agrees (s : Settings) (h : Host) :
    (∀ hint, s.backend = .memory hint →
      (s.validate = .ok () ↔ ∃ made, (Cache.ofSettings s h).1 = .ok made) ∧
      ∀ e, (Cache.ofSettings s h).1 = .error e →
        ((∃ cause, e = .invalidChunkSize cause) ↔
          s.chunkSize = 0 ∧ s.codec.kind = .selfDescribing) ∧
        ((∃ cause, e = .codec (.invalidLayout cause)) ↔
          ¬(s.chunkSize = 0 ∧ s.codec.kind = .selfDescribing)) ∧
        (∀ layout type shape, e ≠ .codec (.layoutMismatch layout type shape)) ∧
        ∀ layout chunkSize, e ≠ .codec (.chunkMismatch layout chunkSize)) ∧
    (s.validate = .error .zeroChunkSize ∨ s.validate = .error .rawWithoutDimensions →
      ∀ made, (Cache.ofSettings s h).1 ≠ .ok made) := by
  constructor
  · intro hint hBackend
    have hOpen : s.backend.openIn h = (.ok (.memory h.memories.length),
        { h with memories := h.memories ++ [.empty] }) := by
      rw [hBackend]
      rfl
    constructor
    · rw [validate_eq_ok_iff_of_memory hBackend, sized_iff_exists_cache,
        Cache.ofSettings_isOk_iff hOpen]
    · intro e hFails
      rw [Cache.ofSettings_eq_error_iff hOpen, cache?_eq_error_iff] at hFails
      cases hFails with
      | zeroChunkSize hKind hZero => simp [hKind, hZero]
      | zeroDimension hKind hZero => simp [hKind]
  · intro hRefused made hMade
    apply not_sized_of_validate hRefused
    exact sized_iff_exists_cache.mpr (Cache.exists_cache_of_ofSettings ⟨made, hMade⟩)

/-- Raw records of no positions are a chunk size of zero to validation, and no layout to a cache. -/
theorem zero_positions_refused :
    let s : Settings :=
      { chunkSize := 0, codec := { kind := .raw, rawLayers := 1, rawHidden := 1 } }
    s.validate = .error .zeroChunkSize ∧
      ∃ cause, (Cache.ofSettings s (.ofFiles .empty)).1 = .error (.codec (.invalidLayout cause)) := by
  intro s
  have hAgrees := (validation_agrees s (.ofFiles .empty)).1 0 rfl
  refine ⟨rfl, ?_⟩
  rcases hMade : (Cache.ofSettings s (.ofFiles .empty)).1 with e | made
  · have hNotSelfDescribing : ¬(s.chunkSize = 0 ∧ s.codec.kind = .selfDescribing) := by decide
    obtain ⟨cause, rfl⟩ := (hAgrees.2 e hMade).2.1.mpr hNotSelfDescribing
    exact ⟨cause, rfl⟩
  · cases hAgrees.1.mpr ⟨made, hMade⟩

end LatentCache.Settings
