import LatentCache.Proofs.Cache.Retrieval
import LatentCache.Proofs.Record.RoundTrip

/-!
# Raw records

Without a header, a record is the data of a latent of one layout. Latents of the layout and strings
of its length correspond to each other, so a cache with this codec asks nothing of a record but its
length.
-/

namespace LatentCache

namespace RecordLayout

variable {type : ElementType} {dims : List Nat} {layout : RecordLayout}

theorem new?_eq_ok (h : new? type dims = .ok layout) :
    layout.type = type ∧ layout.shape.toList = dims := by
  rw [new?] at h
  cases hShape : Shape.ofList? dims with
  | none =>
    rw [hShape] at h
    cases h
  | some shape =>
    rw [hShape] at h
    dsimp only at h
    split at h
    · cases h
      exact ⟨rfl, Shape.toList_of_ofList? hShape⟩
    · cases h

theorem byteLength_eq (h : layout.shape.toList.prod * layout.type.width < Size.limit) :
    layout.byteLength = layout.shape.toList.prod * layout.type.width := by
  have hProd : layout.shape.toList.prod < Size.limit :=
    (Nat.le_mul_of_pos_right _ layout.type.width_pos).trans_lt h
  rw [byteLength, Shape.elementCount, Size.prod_eq hProd]
  exact Size.mul_eq h

end RecordLayout

namespace Cache

variable {c : Cache} {layout : RecordLayout} {stored : ContentAddress → Option Bytes}
  {tokens : List Token} {i : Nat}

theorem new?_eq_ok {chunkSize : Nat} {codec : Codec} (h : new? chunkSize codec = .ok c) :
    c.chunkSize = chunkSize ∧ c.codec = codec := by
  rw [new?] at h
  cases hChunking : Chunking.new? chunkSize with
  | error e =>
    rw [hChunking] at h
    cases h
  | ok chunking =>
    rw [hChunking] at h
    dsimp only at h
    split at h
    · cases h
    · cases h
      rw [Chunking.new?] at hChunking
      split at hChunking
      · cases hChunking
        exact ⟨rfl, rfl⟩
      · cases hChunking

/-- The record of a chunk is as long as the layout says. -/
def HasLength (c : Cache) (layout : RecordLayout) (stored : ContentAddress → Option Bytes)
    (tokens : List Token) (i : Nat) : Prop :=
  ∃ bytes, stored (chunkAddress c.chunkSize tokens i) = some bytes ∧
    bytes.length = layout.byteLength

section Raw

variable (hCodec : c.codec = .raw layout)
include hCodec

theorem recordAt_raw {x : Latent} (h : c.recordAt stored tokens i = some x) :
    x.type = layout.type ∧ x.shape = layout.shape ∧ c.HasLength layout stored tokens i := by
  obtain ⟨bytes, hStored, hDecode⟩ := recordAt_eq_some h
  rw [hCodec] at hDecode
  obtain ⟨rfl, hLength⟩ := Codec.decode_raw_eq_ok_iff.mp hDecode
  exact ⟨rfl, rfl, bytes, hStored, hLength⟩

theorem usable_raw_iff {first? : Option Latent} {bytes : Bytes}
    (hKnows : KnowsFirst (c.recordAt stored tokens) i first?) :
    (∃ x, c.usable first? bytes = .ok x) ↔ bytes.length = layout.byteLength := by
  simp only [usable_eq_ok_iff, hCodec, Codec.decode_raw_eq_ok_iff]
  constructor
  · rintro ⟨x, ⟨-, hLength⟩, -⟩
    exact hLength
  · intro hLength
    refine ⟨_, ⟨rfl, hLength⟩, seqLen_layout hCodec, ?_⟩
    rintro first rfl
    obtain ⟨-, hNone⟩ | ⟨-, known, hKnown, hFirst⟩ := hKnows
    · cases hNone
    · cases hFirst
      obtain ⟨hType, hShape, -⟩ := recordAt_raw hCodec hKnown
      exact ⟨hType, hShape ▸ ⟨rfl, rfl⟩⟩

theorem recordAt_of_hasLength (h : c.HasLength layout stored tokens i) :
    ∃ x, c.recordAt stored tokens i = some x ∧ x.type = layout.type ∧ x.shape = layout.shape := by
  obtain ⟨bytes, hStored, hLength⟩ := h
  have hDecode := Codec.decode_raw_eq_ok_iff.mpr ⟨rfl, hLength⟩
  refine ⟨⟨layout.type, layout.shape, bytes⟩, ?_, rfl, rfl⟩
  rw [recordAt, hStored, Option.bind_some, hCodec, hDecode]
  rfl

theorem usableAt_of_hasLength (h : c.HasLength layout stored tokens i)
    (hFirst : 0 < i → c.HasLength layout stored tokens 0) :
    c.UsableAt (c.recordAt stored tokens) i := by
  obtain ⟨x, hRecord, hType, hShape⟩ := recordAt_of_hasLength hCodec h
  refine ⟨x, hRecord, ?_, fun hPos => ?_⟩
  · rw [Latent.seqLen, hShape]
    exact seqLen_layout hCodec
  · obtain ⟨first, hKnown, hType', hShape'⟩ := recordAt_of_hasLength hCodec (hFirst hPos)
    refine ⟨first, hKnown, hType'.trans hType.symm, ?_⟩
    rw [hShape, hShape']
    exact ⟨rfl, rfl⟩

theorem hasLength_of_usableAt (h : c.UsableAt (c.recordAt stored tokens) i) :
    c.HasLength layout stored tokens i := by
  obtain ⟨x, hRecord, -⟩ := h
  exact (recordAt_raw hCodec hRecord).2.2

theorem leadingCount_hasLength {total count : Nat}
    (h : LeadingCount (c.UsableAt (c.recordAt stored tokens)) total count) :
    LeadingCount (c.HasLength layout stored tokens) total count where
  le := h.le
  holds j hj := hasLength_of_usableAt hCodec (h.holds j hj)
  stops hLt hNext := by
    -- All records of one layout have the same rows, so the first chunk asks nothing more.
    apply h.stops hLt
    apply usableAt_of_hasLength hCodec hNext
    intro hPos
    exact hasLength_of_usableAt hCodec (h.holds 0 hPos)

end Raw

end Cache

/-- The raw codec of a layout is a bijection between the latents of the layout and the strings of
its length. A cache with this codec finds a record usable, whatever its chunk, if and only if it has
this length, and a retrieval covers the leading chunks with such records. -/
theorem raw_records_decided {type : ElementType} {dims : List Nat} {layout : RecordLayout}
    (hLayout : RecordLayout.new? type dims = .ok layout)
    (hSize : dims.prod * type.width < Size.limit) :
    layout.byteLength = dims.prod * type.width ∧
    (∀ x, (∃ bs, (Codec.raw layout).encode x = .ok bs) ↔ x.type = type ∧ x.shape.toList = dims) ∧
    (∀ bs, (∃ x, (Codec.raw layout).decode bs = .ok x) ↔ bs.length = layout.byteLength) ∧
    (∀ x bs, x.WellFormed → (Codec.raw layout).encode x = .ok bs →
      (Codec.raw layout).decode bs = .ok x) ∧
    (∀ bs x, (Codec.raw layout).decode bs = .ok x →
      (Codec.raw layout).encode x = .ok bs ∧ x.WellFormed ∧ x.seqLen = layout.shape.seqLen) ∧
    ∀ chunkSize c, Cache.new? chunkSize (.raw layout) = .ok c →
      (∀ stored tokens i first? bytes, Cache.KnowsFirst (c.recordAt stored tokens) i first? →
        ((∃ x, c.usable first? bytes = .ok x) ↔ bytes.length = layout.byteLength)) ∧
      ∀ (σ : Type) (m : Medium σ) (sound : σ → Prop)
        (contents : σ → ContentAddress → Option Bytes) (tokens : List Token) (s : Session σ),
        m.Readable sound contents → sound s.storage → tokens.length < Size.limit →
        ∃ r t count, c.retrieve m tokens s = (.ok r, t) ∧
          c.Covers (c.recordAt (contents s.storage) tokens) count r ∧
          LeadingCount (c.HasLength layout (contents s.storage) tokens)
            (tokens.length / c.chunkSize) count := by
  obtain ⟨rfl, rfl⟩ := RecordLayout.new?_eq_ok hLayout
  refine ⟨RecordLayout.byteLength_eq hSize, ?_, ?_, ?_, ?_, ?_⟩
  · intro x
    simp only [Codec.encode_raw_eq_ok_iff]
    constructor
    · rintro ⟨bs, rfl⟩
      exact ⟨rfl, rfl⟩
    · rintro ⟨hType, hShape⟩
      exact ⟨x.data, by rw [← hType, ← Shape.toList_injective hShape]⟩
  · intro bs
    simp only [Codec.decode_raw_eq_ok_iff]
    constructor
    · rintro ⟨x, -, hLength⟩
      exact hLength
    · intro hLength
      exact ⟨_, rfl, hLength⟩
  · intro x bs hWellFormed hEncode
    exact Codec.decode_encode_raw hWellFormed hEncode
  · intro bs x hDecode
    obtain ⟨rfl, hLength⟩ := Codec.decode_raw_eq_ok_iff.mp hDecode
    exact ⟨Codec.encode_raw_eq_ok_iff.mpr rfl, hLength, rfl⟩
  · intro chunkSize c hNew
    obtain ⟨-, hCodec⟩ := Cache.new?_eq_ok hNew
    constructor
    · intro stored tokens i first? bytes hKnows
      exact Cache.usable_raw_iff hCodec hKnows
    · intro σ m sound contents tokens s hReadable hSound hLength
      obtain ⟨r, hRetrieve, hCovers⟩ := Cache.retrieve_spec hReadable c tokens hLength hSound
      have hCount := (c.search_explores (contents s.storage) tokens).leadingCount
      exact ⟨r, _, _, hRetrieve, hCovers, Cache.leadingCount_hasLength hCodec hCount⟩

theorem raw_records_of_two_bytes :
    let layout : RecordLayout := ⟨.f16, ⟨1, 1, [1]⟩, by decide⟩
    let table := (Table.empty.insert (ContentAddress.ofTokens [7]) [10, 11]).insert
      (.ofTokens [7, 8]) [12, 13, 14]
    (Codec.raw layout).decode [10, 11] = .ok ⟨.f16, ⟨1, 1, [1]⟩, [10, 11]⟩ ∧
      (¬ ∃ x, (Codec.raw layout).decode [12, 13, 14] = .ok x) ∧
      ∃ c r t, Cache.new? 1 (.raw layout) = .ok c ∧
        (∃ x, c.usable none [10, 11] = .ok x) ∧
        c.retrieve Memory.medium [7, 8] ⟨table, {}, {}, []⟩ = (.ok r, t) ∧
        r.tokensCovered = 1 := by
  intro layout table
  let c : Cache := ⟨⟨1, by decide⟩, .raw layout, rfl⟩
  have hLayout : RecordLayout.new? .f16 [1, 1, 1] = .ok layout := rfl
  have hNew : Cache.new? 1 (.raw layout) = .ok c := rfl
  obtain ⟨hBytes, -, hDecodes, hBack, -, hCache⟩ := raw_records_decided hLayout (by decide)
  obtain ⟨hUsable, hRetrieve⟩ := hCache 1 c hNew
  obtain ⟨r, t, count, hFound, hCovers, hCount⟩ := hRetrieve Memory Memory.medium _ _ [7, 8]
    ⟨table, {}, {}, []⟩ Memory.serves.toReadable trivial (by decide)
  have hNe : ContentAddress.ofTokens [7, 8] ≠ .ofTokens [7] := by decide +kernel
  obtain ⟨hFirst, hSecond⟩ := Table.empty.get?_insert_insert hNe [10, 11] [12, 13, 14]
  have hOne : LeadingCount (c.HasLength layout table.get? [7, 8])
      (([7, 8] : List Token).length / c.chunkSize) 1 := by
    refine ⟨by decide, fun i hi => ?_, fun _ => ?_⟩
    · obtain rfl : i = 0 := Nat.lt_one_iff.mp hi
      exact ⟨[10, 11], hFirst, hBytes.symm⟩
    · rintro ⟨bytes, hStored, hLength⟩
      obtain rfl : [12, 13, 14] = bytes := Option.some.inj (hSecond.symm.trans hStored)
      cases hLength.trans hBytes
  obtain rfl : count = 1 := hCount.unique hOne
  refine ⟨hBack _ _ rfl rfl, ?_, c, r, t, hNew, ?_, hFound, hCovers.tokensCovered⟩
  · intro h
    cases ((hDecodes _).mp h).trans hBytes
  · exact (hUsable table.get? [7, 8] 0 none [10, 11] (.inl ⟨rfl, rfl⟩)).mpr hBytes.symm

end LatentCache
