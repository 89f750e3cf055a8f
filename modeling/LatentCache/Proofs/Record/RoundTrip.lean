import LatentCache.Proofs.Latent.Sequence
import LatentCache.Proofs.Record.Container
import LatentCache.Proofs.Traversal
import LatentCache.Record.Codec

/-!
# Records and latents

Both codecs give back the latent they were given. A self-describing record needs a header that a
container may have; shorter latents of the same rows have no longer headers.
-/

namespace LatentCache

theorem Decimal.length_digits_mono {m n : Nat} (h : m ≤ n) :
    (digits m).length ≤ (digits n).length := by
  induction n using Nat.strongRecOn generalizing m with
  | ind n ih =>
    rw [digits.eq_def m, digits.eq_def n]
    by_cases hn : n < 10
    · rw [if_pos hn, if_pos (h.trans_lt hn)]
      exact Nat.le_refl _
    · rw [if_neg hn]
      split
      · simp
      · have hTens := ih (n / 10) (by omega) (Nat.div_le_div_right (c := 10) h)
        simpa using hTens

theorem ElementType.width_toCell (t : ElementType) : t.toCell.width = t.width := by
  cases t <;> rfl

/-- The number of bytes of the header of a self-describing record. -/
def recordHeaderLength (type : ElementType) (shape : Shape) : Nat :=
  (Container.paddedHeader Codec.tensorName type.toCell shape.toList
    (shape.toList.prod * type.width)).length

theorem length_paddedHeader (name : String) (type : Container.CellType) (dims : List Nat)
    (length : Nat) :
    (Container.paddedHeader name type dims length).length =
      ((Container.headerChars name type dims length).length + 7) / 8 * 8 := by
  rw [Container.paddedHeader, List.length_append, Container.fillChars, List.length_replicate]
  omega

theorem recordHeaderLength_mono (type : ElementType) (shape : Shape) {m n : Nat} (h : m ≤ n) :
    recordHeaderLength type (shape.withSeqLen m) ≤
      recordHeaderLength type (shape.withSeqLen n) := by
  have hDigits := Decimal.length_digits_mono h
  have hProd : (shape.withSeqLen m).toList.prod * type.width ≤
      (shape.withSeqLen n).toList.prod * type.width := by
    refine Nat.mul_le_mul_right _ (Nat.mul_le_mul_left _ ?_)
    exact Nat.mul_le_mul_right _ h
  have hLength := Decimal.length_digits_mono hProd
  rw [recordHeaderLength, recordHeaderLength, length_paddedHeader, length_paddedHeader]
  refine Nat.mul_le_mul_right 8 (Nat.div_le_div_right (Nat.add_le_add_right ?_ 7))
  simp only [Container.headerChars, List.length_append]
  refine Nat.add_le_add_right (Nat.add_le_add ?_ hLength) _
  refine Nat.add_le_add_right (Nat.add_le_add_left ?_ _) _
  cases hInner : shape.inner with
  | nil => simpa [Container.dimsChars, Shape.toList, Shape.withSeqLen, hInner] using hDigits
  | cons n others =>
    simpa [Container.dimsChars, Shape.toList, Shape.withSeqLen, hInner] using hDigits

namespace Codec

theorem ofBytes_of_wellFormed {x : Latent} (h : x.WellFormed) :
    Latent.ofBytes x.type x.shape.toList x.data = .ok x := by
  rw [Latent.ofBytes, Shape.ofList?_toList]
  exact if_pos h

theorem encode_selfDescribing_eq_ok {x : Latent} {bs : Bytes} :
    selfDescribing.encode x = .ok bs ↔
      Container.write tensorName x.type.toCell x.shape.toList x.data = .ok bs :=
  mapError_eq_ok_iff

theorem decode_encode_selfDescribing {x : Latent} (h : x.Sound)
    (hHeader : recordHeaderLength x.type x.shape ≤ Container.maxHeaderLength) :
    ∃ bs, selfDescribing.encode x = .ok bs ∧ selfDescribing.decode bs = .ok x := by
  have hData : x.data.length = x.shape.toList.prod * x.type.toCell.width := by
    rw [ElementType.width_toCell, h.wellFormed, h.fits.mul_elementCount]
  have hFits := h.fits
  rw [Latent.Fits, ← ElementType.width_toCell] at hFits
  rw [recordHeaderLength, ← ElementType.width_toCell, ← hData] at hHeader
  have hPlain : Json.Token.IsPlain tensorName.toList := by decide
  obtain ⟨bs, hWrite, hRead⟩ := Container.readTensor_write hPlain (by decide) (by decide) hData
    hFits hHeader
  refine ⟨bs, ?_, ?_⟩
  · rw [encode, Shape.toList, hWrite]
    rfl
  · have hType := ElementType.ofCell?_toCell x.type
    have hBytes := ofBytes_of_wellFormed h.wellFormed
    rw [Shape.toList] at hBytes
    rw [decode, hRead]
    simp [bind, Except.bind, Except.mapError, hType, hBytes]

theorem encode_raw_eq_ok_iff {layout : RecordLayout} {x : Latent} {bs : Bytes} :
    (raw layout).encode x = .ok bs ↔ x = ⟨layout.type, layout.shape, bs⟩ := by
  rw [encode]
  constructor
  · intro h
    split at h
    · next hLayout =>
      obtain ⟨type, shape, data⟩ := x
      obtain ⟨rfl, rfl⟩ := hLayout
      cases h
      rfl
    · cases h
  · rintro rfl
    exact if_pos ⟨rfl, rfl⟩

theorem decode_raw_eq_ok_iff {layout : RecordLayout} {x : Latent} {bs : Bytes} :
    (raw layout).decode bs = .ok x ↔
      x = ⟨layout.type, layout.shape, bs⟩ ∧ bs.length = layout.byteLength := by
  rw [decode]
  by_cases hLength : bs.length = layout.byteLength
  · have hBytes := ofBytes_of_wellFormed (x := ⟨layout.type, layout.shape, bs⟩) hLength
    rw [if_pos hLength, hBytes]
    simp [Except.mapError, hLength, eq_comm]
  · simp [hLength]

theorem decode_encode_raw {layout : RecordLayout} {x : Latent} {bs : Bytes} (h : x.WellFormed)
    (hEncode : (raw layout).encode x = .ok bs) : (raw layout).decode bs = .ok x := by
  obtain rfl := encode_raw_eq_ok_iff.mp hEncode
  exact decode_raw_eq_ok_iff.mpr ⟨rfl, h⟩

theorem decode_of_encode {c : Codec} {x : Latent} {bs : Bytes} (h : x.Sound)
    (hHeader : c = selfDescribing → recordHeaderLength x.type x.shape ≤ Container.maxHeaderLength)
    (hEncode : c.encode x = .ok bs) : c.decode bs = .ok x := by
  cases c with
  | selfDescribing =>
    obtain ⟨bs', hEncode', hDecode⟩ := decode_encode_selfDescribing h (hHeader rfl)
    rw [hEncode] at hEncode'
    cases hEncode'
    exact hDecode
  | raw layout => exact decode_encode_raw h.wellFormed hEncode

theorem wellFormed_of_ofBytes {type : ElementType} {dims : List Nat} {data : Bytes} {x : Latent}
    (h : Latent.ofBytes type dims data = .ok x) : x.WellFormed := by
  rw [Latent.ofBytes] at h
  cases hShape : Shape.ofList? dims with
  | none => simp [hShape] at h
  | some shape =>
    simp only [hShape] at h
    split at h
    · next hLength =>
      cases h
      exact hLength
    · cases h

theorem layout_of_decode_raw {layout : RecordLayout} {x : Latent} {bs : Bytes}
    (h : (raw layout).decode bs = .ok x) : x.type = layout.type ∧ x.shape = layout.shape := by
  obtain ⟨rfl, -⟩ := decode_raw_eq_ok_iff.mp h
  exact ⟨rfl, rfl⟩

theorem wellFormed_of_decode {c : Codec} {bs : Bytes} {x : Latent} (h : c.decode bs = .ok x) :
    x.WellFormed := by
  cases c with
  | selfDescribing =>
    obtain ⟨⟨entry, data⟩, -, h⟩ := bind_eq_ok_iff.mp h
    dsimp only at h
    split at h
    · cases h
    · exact wellFormed_of_ofBytes (mapError_eq_ok_iff.mp h)
  | raw layout =>
    obtain ⟨rfl, hLength⟩ := decode_raw_eq_ok_iff.mp h
    exact hLength

end Codec

end LatentCache
