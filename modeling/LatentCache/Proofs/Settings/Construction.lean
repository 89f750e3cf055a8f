import LatentCache.Proofs.Cache.RawRecords
import LatentCache.Proofs.Traversal

/-!
# Caches from settings

Settings choose a codec and a chunk size, and thereby a cache over whatever storage is opened.
Settings that pass validation always make one.
-/

namespace LatentCache

namespace CodecSettings

variable {s : CodecSettings} {chunkSize : Nat} {codec : Codec}

/-- The codec is of the chosen kind; if it is raw, it has the chosen layout. -/
def Describes (s : CodecSettings) (chunkSize : Nat) : Codec → Prop
  | .selfDescribing => s.kind = .selfDescribing
  | .raw layout => s.kind = .raw ∧ layout.type = s.rawType ∧
      layout.shape = ⟨s.rawLayers, chunkSize, [s.rawHidden]⟩

theorem describes_of_build (h : s.build chunkSize = .ok codec) : s.Describes chunkSize codec := by
  rw [build] at h
  cases hKind : s.kind with
  | selfDescribing =>
    rw [hKind] at h
    cases h
    exact hKind
  | raw =>
    rw [hKind] at h
    have h := mapError_eq_ok_iff.mp h
    cases hLayout : RecordLayout.layered s.rawType s.rawLayers chunkSize s.rawHidden with
    | error e =>
      rw [hLayout] at h
      cases h
    | ok layout =>
      rw [hLayout] at h
      cases h
      obtain ⟨hType, hDims⟩ := RecordLayout.new?_eq_ok hLayout
      exact ⟨hKind, hType, Shape.toList_injective hDims⟩

theorem build_of_describes (h : s.Describes chunkSize codec) : s.build chunkSize = .ok codec := by
  rw [build]
  cases codec with
  | selfDescribing => rw [show s.kind = .selfDescribing from h]
  | raw layout =>
    obtain ⟨hKind, hType, hShape⟩ := h
    have hNonzero : 0 ∉ [s.rawLayers, chunkSize, s.rawHidden] := by
      have hNonzero := layout.nonzero
      rwa [hShape] at hNonzero
    have hLayout : RecordLayout.layered s.rawType s.rawLayers chunkSize s.rawHidden =
        .ok layout := by
      cases layout
      cases hType
      cases hShape
      exact dif_pos hNonzero
    rw [hKind]
    dsimp only
    rw [hLayout]
    rfl

theorem kind_eq (h : s.Describes chunkSize codec) : codec.kind = s.kind := by
  cases codec with
  | selfDescribing => exact h.symm
  | raw layout => exact h.1.symm

end CodecSettings

namespace Settings

variable {s : Settings} {c : Cache}

/-- The cache that the settings make, over any storage. -/
def cache? (s : Settings) : Except CacheError Cache := do
  let codec ← (s.codec.build s.chunkSize).mapError CacheError.codec
  Cache.new? s.chunkSize codec

theorem cache?_eq_ok_iff : s.cache? = .ok c ↔
    c.chunkSize = s.chunkSize ∧ s.codec.Describes s.chunkSize c.codec := by
  constructor
  · intro h
    obtain ⟨codec, hCodec, hCache⟩ := bind_eq_ok_iff.mp h
    obtain ⟨hSize, rfl⟩ := Cache.new?_eq_ok hCache
    exact ⟨hSize, CodecSettings.describes_of_build (mapError_eq_ok_iff.mp hCodec)⟩
  · obtain ⟨⟨size, hPos⟩, codec, hFits⟩ := c
    rintro ⟨hSize, hDescribes⟩
    cases hSize
    have hBuild := CodecSettings.build_of_describes hDescribes
    refine bind_eq_ok_iff.mpr ⟨codec, mapError_eq_ok_iff.mpr hBuild, ?_⟩
    have hChunking : Chunking.new? s.chunkSize = .ok ⟨s.chunkSize, hPos⟩ := dif_pos hPos
    rw [Cache.new?, hChunking]
    dsimp only
    split
    next hRefused => cases hRefused.symm.trans hFits
    next => rfl

/-- The chunk size is positive, and so are the dimensions of raw records. -/
def Sized (s : Settings) : Prop :=
  0 < s.chunkSize ∧ (s.codec.kind = .raw → 0 < s.codec.rawLayers ∧ 0 < s.codec.rawHidden)

theorem of_validate_eq_ok (h : s.validate = .ok ()) : s.Sized := by
  rw [validate] at h
  split at h
  next => cases h
  next hSize =>
    split at h
    next => cases h
    next hDims =>
      refine ⟨Nat.pos_of_ne_zero hSize, ?_⟩
      intro hRaw
      obtain ⟨hLayers, hHidden⟩ := not_or.mp fun hZero => hDims ⟨hRaw, hZero⟩
      exact ⟨Nat.pos_of_ne_zero hLayers, Nat.pos_of_ne_zero hHidden⟩

theorem Sized.exists_cache (h : s.Sized) : ∃ c, s.cache? = .ok c := by
  obtain ⟨hSize, hDims⟩ := h
  cases hKind : s.codec.kind with
  | selfDescribing =>
    refine ⟨⟨⟨s.chunkSize, hSize⟩, .selfDescribing, rfl⟩, cache?_eq_ok_iff.mpr ⟨rfl, hKind⟩⟩
  | raw =>
    obtain ⟨hLayers, hHidden⟩ := hDims hKind
    have hNonzero : 0 ∉ (Shape.mk s.codec.rawLayers s.chunkSize [s.codec.rawHidden]).toList := by
      simp only [Shape.toList, List.mem_cons, List.not_mem_nil, or_false]
      omega
    refine ⟨⟨⟨s.chunkSize, hSize⟩, .raw ⟨s.codec.rawType, _, hNonzero⟩, if_pos rfl⟩, ?_⟩
    exact cache?_eq_ok_iff.mpr ⟨rfl, hKind, rfl, rfl⟩

/-- Settings that pass validation make a cache. -/
theorem exists_cache (h : s.validate = .ok ()) : ∃ c, s.cache? = .ok c :=
  (of_validate_eq_ok h).exists_cache

end Settings

namespace Cache

variable {s : Settings} {c : Cache} {b : Backend} {h h₀ : Host}

theorem ofSettings_of_openIn (hOpen : s.backend.openIn h = (.ok b, h₀)) :
    ofSettings s h = (s.cache?.map fun c => (c, b), h₀) := by
  rw [ofSettings, hOpen, Settings.cache?]
  cases s.codec.build s.chunkSize <;> rfl

theorem ofSettings_isOk_iff (hOpen : s.backend.openIn h = (.ok b, h₀)) :
    (∃ made, (ofSettings s h).1 = .ok made) ↔ ∃ c, s.cache? = .ok c := by
  rw [ofSettings_of_openIn hOpen]
  cases s.cache? <;> simp [Except.map]

theorem ofSettings_eq_error_iff (hOpen : s.backend.openIn h = (.ok b, h₀)) {e : CacheError} :
    (ofSettings s h).1 = .error e ↔ s.cache? = .error e := by
  rw [ofSettings_of_openIn hOpen]
  cases s.cache? <;> simp [Except.map]

theorem ofSettings_of_cache? (hOpen : s.backend.openIn h = (.ok b, h₀))
    (hCache : s.cache? = .ok c) : ofSettings s h = (.ok (c, b), h₀) := by
  rw [ofSettings_of_openIn hOpen, hCache]
  rfl

/-- A cache over any storage is one that the settings make. -/
theorem exists_cache_of_ofSettings (h : ∃ made, (ofSettings s h₀).1 = .ok made) :
    ∃ c, s.cache? = .ok c := by
  rcases hOpen : s.backend.openIn h₀ with ⟨e | b, h₁⟩
  · obtain ⟨made, hMade⟩ := h
    rw [ofSettings, hOpen] at hMade
    cases hMade
  · exact (ofSettings_isOk_iff hOpen).mp h

end Cache

end LatentCache
