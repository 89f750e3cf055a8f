import LatentCache.Proofs.Bytes
import LatentCache.Proofs.Latent.Pieces
import LatentCache.Proofs.Record.RoundTrip

/-!
# Latents that operations build

A latent may be made of bytes, of elements or of a record, be cut out of another one, or be joined
from several ones. However these operations follow one another, the data of what they build have the
length that the shape asks for, and no operation looks beyond the end of any data.
-/

namespace LatentCache

theorem Codec.encode_selfDescribing_isOk {x : Latent} (h : x.WellFormed) :
    ∃ bs, selfDescribing.encode x = .ok bs := by
  have hLength : ¬ x.data.length ≠
      Size.mul (Size.prod x.shape.toList) x.type.toCell.width := by
    rw [ElementType.width_toCell]
    exact not_not.mpr h
  rw [encode, Container.write, if_neg hLength]
  exact ⟨_, rfl⟩

namespace Latent

/-- What the operations build while the size of every latent and all sums of positions fit in 64
bits. What is cut out of a latent whose size fits is no larger than this latent. -/
inductive Built : Latent → Prop
  | ofBytes {type : ElementType} {dims : List Nat} {data : Bytes} {x : Latent}
      (h : Latent.ofBytes type dims data = .ok x) (hFits : x.Fits) : Built x
  | ofElements {type : ElementType} {dims bits : List Nat} {x : Latent}
      (h : Latent.ofElements type dims bits = .ok x) (hFits : x.Fits) : Built x
  | decode {codec : Codec} {bs : Bytes} {x : Latent}
      (h : codec.decode bs = .ok x) (hFits : x.Fits) : Built x
  | narrow {x y : Latent} {start length : Nat} (hBuilt : Built x)
      (h : x.narrow start length = .ok y) : Built y
  | concat {parts : List Latent} {y : Latent} (hBuilt : ∀ x ∈ parts, Built x)
      (hSum : (parts.map seqLen).sum < Size.limit)
      (h : Latent.concat parts = .ok y) (hFits : y.Fits) : Built y

theorem sound_of_ofElements {type : ElementType} {dims bits : List Nat} {x : Latent}
    (h : ofElements type dims bits = .ok x) (hFits : x.Fits) : x.Sound := by
  refine ⟨hFits, ?_⟩
  rw [WellFormed, hFits.mul_elementCount, ← hFits.elementCount_eq]
  rw [ofElements] at h
  cases hShape : Shape.ofList? dims with
  | none =>
    rw [hShape] at h
    cases h
  | some shape =>
    rw [hShape] at h
    dsimp only at h
    split at h
    · next hCount =>
      cases h
      simp only [elementCount, List.length_flatMap, Bytes.length_ofNat, List.map_const',
        List.sum_replicate_nat, hCount]
    · cases h

theorem Sound.concat {parts : List Latent} {y : Latent} (h : ∀ x ∈ parts, x.Sound)
    (hSum : (parts.map seqLen).sum < Size.limit) (hConcat : Latent.concat parts = .ok y)
    (hFits : y.Fits) : y.Sound := by
  cases parts with
  | nil => cases hConcat
  | cons first others =>
    have hParts : ∀ x ∈ first :: others, first.Compatible x ∧ x.Sound :=
      fun x hx => ⟨compatible_of_concat hConcat x hx, h x hx⟩
    rw [concat_eq hParts hSum] at hConcat
    cases hConcat
    exact Sound.join hParts hFits

theorem Built.sound {x : Latent} (h : x.Built) : x.Sound := by
  induction h with
  | ofBytes h hFits => exact ⟨hFits, Codec.wellFormed_of_ofBytes h⟩
  | ofElements h hFits => exact sound_of_ofElements h hFits
  | decode h hFits => exact ⟨hFits, Codec.wellFormed_of_decode h⟩
  | narrow _ h ih =>
    obtain ⟨hRange, rfl⟩ := ih.eq_slice_of_narrow h
    exact ih.slice hRange
  | concat _ hSum h hFits ih => exact .concat ih hSum h hFits

theorem Sound.length_elements {x : Latent} (h : x.Sound) :
    ∃ values, x.elements x.type = .ok values ∧ values.length = x.elementCount := by
  refine ⟨_, if_pos rfl, ?_⟩
  rw [List.length_map, Bytes.length_groups x.type.width_pos, h.wellFormed,
    h.fits.mul_elementCount, Nat.mul_div_cancel _ x.type.width_pos, h.fits.elementCount_eq]

/-- However a latent was built, its data have the length that its shape asks for. So it has as many
elements as the shape says and a self-describing record, and neither cutting it nor joining it with
others of its kind copies a piece that is out of bounds. -/
theorem Built.regular {x : Latent} (h : x.Built) :
    2 ≤ x.shape.toList.length ∧
    x.data.length = x.shape.toList.prod * x.type.width ∧
    (∃ values, x.elements x.type = .ok values ∧ values.length = x.elementCount) ∧
    (∃ bs, Codec.selfDescribing.encode x = .ok bs) ∧
    (∀ start length y, x.narrow start length = .ok y →
      (∀ p ∈ x.narrowPieces start length, p.InBounds) ∧
        y.data = (x.narrowPieces start length).flatMap Piece.bytes) ∧
    ∀ others y, (∀ z ∈ others, Built z) → ((x :: others).map seqLen).sum < Size.limit →
      Latent.concat (x :: others) = .ok y →
        (∀ p ∈ x.concatPieces (x :: others), p.InBounds) ∧
          y.data = (x.concatPieces (x :: others)).flatMap Piece.bytes := by
  have hSound := h.sound
  refine ⟨?_, ?_, hSound.length_elements, Codec.encode_selfDescribing_isOk hSound.wellFormed,
    ?_, ?_⟩
  · simp [Shape.toList]
  · exact hSound.wellFormed.trans hSound.fits.mul_elementCount
  · intro start length y hNarrow
    obtain ⟨hRange, rfl⟩ := hSound.eq_slice_of_narrow hNarrow
    exact slice_copies hSound hRange
  · intro others y hOthers hSum hConcat
    have hParts : ∀ z ∈ x :: others, x.Compatible z ∧ z.Sound := by
      intro z hz
      refine ⟨compatible_of_concat hConcat z hz, ?_⟩
      rcases List.mem_cons.mp hz with rfl | hz
      · exact hSound
      · exact (hOthers z hz).sound
    rw [concat_eq hParts hSum] at hConcat
    cases hConcat
    exact join_copies hParts hSound.fits

theorem regular_joined_range :
    let stored : Latent := ⟨.f16, ⟨1, 1, [1]⟩, [5, 0]⟩
    let cut : Latent := ⟨.f16, ⟨1, 1, [1]⟩, [2, 0]⟩
    let joined : Latent := ⟨.f16, ⟨1, 2, [1]⟩, [5, 0, 2, 0]⟩
    joined.Built ∧ (∃ bs, Codec.selfDescribing.encode joined = .ok bs) ∧
      (∀ p ∈ joined.narrowPieces 1 1, p.InBounds) ∧
      ∀ p ∈ joined.concatPieces [joined, cut, stored], p.InBounds := by
  intro stored cut joined
  let layout : RecordLayout := ⟨.f16, ⟨1, 1, [1]⟩, by decide⟩
  have hDecode : (Codec.raw layout).decode [5, 0] = .ok stored := by decide +kernel
  have hElements : ofElements .f16 [1, 2, 1] [1, 2] = .ok ⟨.f16, ⟨1, 2, [1]⟩, [1, 0, 2, 0]⟩ := by
    decide +kernel
  have hSecond : (⟨.f16, ⟨1, 2, [1]⟩, [1, 0, 2, 0]⟩ : Latent).narrow 1 1 = .ok cut := by
    decide +kernel
  have hBoth : Latent.concat [stored, cut] = .ok joined := by decide +kernel
  have hStored : stored.Built := .decode hDecode (by decide)
  have hCut : cut.Built := .narrow (.ofElements hElements (by decide)) hSecond
  have hJoined : joined.Built := by
    refine .concat (fun x hx => ?_) (by decide) hBoth (by decide)
    rcases List.mem_pair.mp hx with rfl | rfl
    · exact hStored
    · exact hCut
  obtain ⟨-, -, -, hRecord, hNarrow, hConcat⟩ := Built.regular hJoined
  have hRange : joined.narrow 1 1 = .ok cut := by decide +kernel
  have hWhole : Latent.concat [joined, cut, stored] =
      .ok ⟨.f16, ⟨1, 4, [1]⟩, [5, 0, 2, 0, 2, 0, 5, 0]⟩ := by decide +kernel
  refine ⟨hJoined, hRecord, (hNarrow 1 1 _ hRange).1, ?_⟩
  refine (hConcat [cut, stored] _ (fun z hz => ?_) (by decide) hWhole).1
  rcases List.mem_pair.mp hz with rfl | rfl
  · exact hCut
  · exact hStored

end Latent

end LatentCache
