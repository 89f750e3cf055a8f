import LatentCache.Proofs.Record.RoundTrip

/-!
# The format of a self-describing record

A container is the length of its header in eight bytes, the header, and the data. The header is JSON
that is filled up with spaces to a multiple of eight bytes. Every well-formed latent whose sizes fit
has such a record, and reading the record gives back the latent.
-/

namespace LatentCache

namespace Container

open Json.Token

/-- The header of `length` bytes denotes a JSON value and ends in the spaces that it needs. -/
def Holds (bs : Bytes) (length : Nat) (header : Json) (data : Bytes) : Prop :=
  ∃ text spaces, Json.parse? text = some header ∧ spaces < 8 ∧ length % 8 = 0 ∧
    length = (Utf8.encode text).length + spaces ∧
    bs = Bytes.ofNat 8 length ++ (Utf8.encode text ++ List.replicate spaces 0x20) ++ data

theorem encode_paddedHeader (name : String) (type : CellType) (dims : List Nat) (length : Nat) :
    Utf8.encode (paddedHeader name type dims length) =
      Utf8.encode (headerChars name type dims length) ++
        List.replicate ((8 - (headerChars name type dims length).length % 8) % 8) 0x20 := by
  have hSpaces (n : Nat) : Utf8.encode (List.replicate n ' ') = List.replicate n 0x20 := by
    have hAscii : Utf8.IsAscii (List.replicate n ' ') := by
      intro c hc
      obtain rfl := List.eq_of_mem_replicate hc
      decide
    rw [Utf8.encode_ascii hAscii, List.map_replicate]
    rfl
  rw [paddedHeader, fillChars, ← hSpaces, Utf8.encode, Utf8.encode, Utf8.encode,
    List.flatMap_append]

theorem write_holds {name : String} {type : CellType} {n : Nat} {others : List Nat}
    {data bs : Bytes} (hName : IsPlain name.toList) (hAscii : Utf8.IsAscii name.toList)
    (hDims : ∀ m ∈ n :: others, m < Size.limit) (hLength : data.length < Size.limit)
    (h : write name type (n :: others) data = .ok bs) :
    Holds bs (paddedHeader name type (n :: others) data.length).length
      (headerJson name type (n :: others) data.length) data := by
  rw [write] at h
  split at h
  · cases h
  · cases h
    have hPadded := isAscii_paddedHeader hAscii type (n :: others) data.length
    have hText : (Utf8.encode (headerChars name type (n :: others) data.length)).length =
        (headerChars name type (n :: others) data.length).length := by
      rw [Utf8.encode_ascii (Utf8.isAscii_append.mp hPadded).1, List.length_map]
    have hParse : Json.parse? (headerChars name type (n :: others) data.length ++ []) =
        some (headerJson name type (n :: others) data.length) := parse?_header hName hDims hLength 0
    rw [List.append_nil] at hParse
    refine ⟨_, (8 - (headerChars name type (n :: others) data.length).length % 8) % 8, hParse,
      Nat.mod_lt _ (by decide), ?_, ?_, ?_⟩
    · rw [length_paddedHeader]
      exact Nat.mul_mod_left _ _
    · rw [hText, paddedHeader, List.length_append, fillChars, List.length_replicate]
    · change Bytes.ofNat 8 (Utf8.encode (paddedHeader _ _ _ _)).length ++
        Utf8.encode (paddedHeader _ _ _ _) ++ data = _
      rw [Utf8.encode_ascii hPadded, List.length_map, ← Utf8.encode_ascii hPadded,
        encode_paddedHeader]

end Container

/-! ## The length of a header -/

theorem Decimal.length_digits_lt_limit {n : Nat} (h : n < Size.limit) :
    (digits n).length ≤ 20 := by
  have hGreatest : (digits (Size.limit - 1)).length = 20 := by
    simp [digits]
  exact (length_digits_mono (Nat.le_sub_one_of_lt h)).trans hGreatest.le

theorem length_dimsChars {dims : List Nat} (h : ∀ n ∈ dims, n < Size.limit) :
    (Container.dimsChars dims).length ≤ 21 * dims.length + 2 := by
  have hItems : ([','].intercalate (dims.map Decimal.digits)).length ≤ 21 * dims.length := by
    induction dims with
    | nil => exact Nat.le_refl _
    | cons n dims ih =>
      have hn := Decimal.length_digits_lt_limit (h n List.mem_cons_self)
      have hRest := ih fun m hm => h m (List.mem_cons_of_mem _ hm)
      cases dims with
      | nil =>
        rw [List.map_singleton, List.intercalate_singleton, List.length_singleton]
        omega
      | cons next dims =>
        rw [List.map_cons] at hRest
        rw [List.map_cons, List.map_cons, List.intercalate_cons_cons, List.length_append,
          List.length_append, List.length_singleton, List.length_cons]
        omega
  rw [Container.dimsChars, List.length_append, List.length_append]
  simp only [List.length_singleton]
  omega

/-- Only a latent with millions of axes has a header that readers refuse. -/
theorem Latent.Fits.recordHeaderLength_le {x : Latent} (h : x.Fits) :
    recordHeaderLength x.type x.shape ≤ 21 * x.shape.toList.length + 120 := by
  have hDims := length_dimsChars fun n hn => h.dim_lt hn
  have hData := Decimal.length_digits_lt_limit h.prod_mul_width_lt
  have hType : x.type.toCell.name.toList.length ≤ 4 := by cases x.type <;> decide
  have hHeader : (Container.headerChars Codec.tensorName x.type.toCell x.shape.toList
      (x.shape.toList.prod * x.type.width)).length ≤ 21 * x.shape.toList.length + 113 := by
    simp only [Container.headerChars, List.length_append]
    have hName : Codec.tensorName.toList.length = 12 := by decide
    simp
    omega
  rw [recordHeaderLength, length_paddedHeader]
  omega

/-! ## Round trip -/

namespace Codec

/-- A well-formed latent whose sizes fit has a self-describing record: the length of a header, the
header with the type, the shape and the length of the data, and the data. The record decodes to the
latent. -/
theorem selfDescribing_round_trip (x : Latent) (hWellFormed : x.WellFormed) (hFits : x.Fits)
    (hHeader : recordHeaderLength x.type x.shape ≤ Container.maxHeaderLength) :
    ∃ bs, selfDescribing.encode x = .ok bs ∧
      Container.Holds bs (recordHeaderLength x.type x.shape)
        (Container.headerJson tensorName x.type.toCell x.shape.toList x.data.length) x.data ∧
      selfDescribing.decode bs = .ok x := by
  obtain ⟨bs, hEncode, hDecode⟩ := decode_encode_selfDescribing ⟨hFits, hWellFormed⟩ hHeader
  have hData : x.data.length = x.shape.toList.prod * x.type.width :=
    hWellFormed.trans hFits.mul_elementCount
  have hHolds := Container.write_holds (n := x.shape.outer) (by decide) (by decide)
    (fun m hm => hFits.dim_lt hm) (hData ▸ hFits.prod_mul_width_lt)
    (encode_selfDescribing_eq_ok.mp hEncode)
  rw [hData] at hHolds
  refine ⟨bs, hEncode, ?_, hDecode⟩
  rw [recordHeaderLength, hData]
  exact hHolds

theorem selfDescribing_round_trips :
    let x : Latent := ⟨.bf16, ⟨1, 2, []⟩, [0x80, 0x7F, 0x00, 0x80]⟩
    let y : Latent := ⟨.f32, ⟨0, 18446744073709551, [250]⟩, []⟩
    (∃ bs, selfDescribing.encode x = .ok bs ∧ selfDescribing.decode bs = .ok x) ∧
      ∃ bs, selfDescribing.encode y = .ok bs ∧ selfDescribing.decode bs = .ok y := by
  intro x y
  have hHeader {z : Latent} (hFits : z.Fits) (hRank : z.shape.toList.length = 2 ∨
      z.shape.toList.length = 3) :
      recordHeaderLength z.type z.shape ≤ Container.maxHeaderLength := by
    have hLe := hFits.recordHeaderLength_le
    rw [Container.maxHeaderLength]
    omega
  constructor
  · obtain ⟨bs, hEncode, -, hDecode⟩ := selfDescribing_round_trip x (by decide) (by decide)
      (hHeader (by decide) (.inl rfl))
    exact ⟨bs, hEncode, hDecode⟩
  · obtain ⟨bs, hEncode, -, hDecode⟩ := selfDescribing_round_trip y (by decide) (by decide)
      (hHeader (by decide) (.inr rfl))
    exact ⟨bs, hEncode, hDecode⟩

end Codec

end LatentCache
