import LatentCache.Proofs.Record.Framing
import LatentCache.Proofs.Record.RoundTrip

/-!
# Arbitrary bytes as a record

Any bytes are a self-describing record or are refused for one of three reasons: they are no
container with the tensor of a latent, its type is none of a latent, or its shape has too few axes.
The number of its bytes is no reason, since a container is accepted only with the right one.
-/

namespace LatentCache

theorem ElementType.ofCell?_eq_some_iff {cell : Container.CellType} {type : ElementType} :
    ofCell? cell = some type ↔ cell = type.toCell := by
  constructor
  · intro h
    cases cell <;> cases h <;> rfl
  · rintro rfl
    exact ofCell?_toCell type

namespace Codec

open Container (HasTensor readTensor readTensor_eq_ok_iff)

/-- What becomes of some bytes, by what they contain. -/
inductive Decodes (bs : Bytes) : Except CodecError Latent → Prop
  | latent {x : Latent} {start stop : Nat}
      (h : HasTensor bs tensorName ⟨x.type.toCell, x.shape.toList, start, stop⟩ x.data) :
      Decodes bs (.ok x)
  | rankTooLow {type : ElementType} {dims : List Nat} {start stop : Nat} {data : Bytes}
      (h : HasTensor bs tensorName ⟨type.toCell, dims, start, stop⟩ data)
      (hRank : dims.length < 2) : Decodes bs (.error (.latent (.rankTooLow dims.length)))
  | unsupportedType {e : Container.Entry} {data : Bytes} (h : HasTensor bs tensorName e data)
      (hType : ElementType.ofCell? e.type = none) :
      Decodes bs (.error (.unsupportedType e.type))
  | container {e : Container.Error} (h : readTensor tensorName bs = .error e) :
      Decodes bs (.error (.container e))

variable {bs : Bytes} {r : Except CodecError Latent}

theorem length_of_hasTensor {name : String} {e : Container.Entry} {data : Bytes}
    {type : ElementType} (h : HasTensor bs name e data) (hType : e.type = type.toCell) :
    data.length = Size.mul (Size.prod e.dims) type.width := by
  rw [h.length, hType, ElementType.width_toCell]

theorem Decodes.eq (h : Decodes bs r) : selfDescribing.decode bs = r := by
  rw [decode]
  cases h with
  | @latent x start stop h =>
    have hWellFormed : x.WellFormed := length_of_hasTensor h rfl
    have hBytes := ofBytes_of_wellFormed hWellFormed
    rw [readTensor_eq_ok_iff.mpr h]
    simp [bind, Except.bind, Except.mapError, ElementType.ofCell?_toCell, hBytes]
  | rankTooLow h hRank =>
    have hShape := Shape.ofList?_eq_none_iff.mpr hRank
    rw [readTensor_eq_ok_iff.mpr h]
    simp [bind, Except.bind, Except.mapError, ElementType.ofCell?_toCell, Latent.ofBytes, hShape]
  | unsupportedType h hType =>
    rw [readTensor_eq_ok_iff.mpr h]
    simp only [bind, Except.bind, Except.mapError, hType]
    rfl
  | container h =>
    rw [h]
    rfl

theorem exists_decodes (bs : Bytes) : ∃ r, Decodes bs r := by
  cases hRead : readTensor tensorName bs with
  | error e => exact ⟨_, .container hRead⟩
  | ok found =>
    obtain ⟨⟨cell, dims, start, stop⟩, data⟩ := found
    have hTensor := readTensor_eq_ok_iff.mp hRead
    cases hType : ElementType.ofCell? cell with
    | none => exact ⟨_, .unsupportedType hTensor hType⟩
    | some type =>
      obtain rfl := ElementType.ofCell?_eq_some_iff.mp hType
      cases hShape : Shape.ofList? dims with
      | none => exact ⟨_, .rankTooLow hTensor (Shape.ofList?_eq_none_iff.mp hShape)⟩
      | some shape =>
        obtain rfl := Shape.toList_of_ofList? hShape
        exact ⟨_, .latent (x := ⟨type, shape, data⟩) hTensor⟩

theorem decode_eq_iff : selfDescribing.decode bs = r ↔ Decodes bs r := by
  constructor
  · rintro rfl
    -- Some case applies, and each of them computes the outcome, so they exclude each other.
    obtain ⟨r, h⟩ := exists_decodes bs
    rw [h.eq]
    exact h
  · exact Decodes.eq

/-- A record is decoded if and only if it is a container whose header lists a tensor of the right
name with an element type and a shape of a latent; the tensor's bytes are the data. -/
theorem decode_eq_ok_iff {x : Latent} : selfDescribing.decode bs = .ok x ↔
    ∃ n members entries start stop, Container.Accepted bs n members entries ∧
      (tensorName, ⟨x.type.toCell, x.shape.toList, start, stop⟩) ∈ entries ∧
      8 + n + stop ≤ bs.length ∧ x.data = (bs.drop (8 + n + start)).take (stop - start) := by
  rw [decode_eq_iff]
  constructor
  · intro h
    cases h with
    | latent h =>
      obtain ⟨n, members, entries, h⟩ := h
      exact ⟨n, members, entries, _, _, h⟩
  · rintro ⟨n, members, entries, start, stop, h⟩
    exact .latent ⟨n, members, entries, h⟩

theorem decode_eq_unsupportedType_iff {type : Container.CellType} :
    selfDescribing.decode bs = .error (.unsupportedType type) ↔
      ElementType.ofCell? type = none ∧
        ∃ dims start stop data, HasTensor bs tensorName ⟨type, dims, start, stop⟩ data := by
  rw [decode_eq_iff]
  constructor
  · intro h
    cases h with
    | unsupportedType h hType => exact ⟨hType, _, _, _, _, h⟩
  · rintro ⟨hType, dims, start, stop, data, h⟩
    exact .unsupportedType h hType

theorem decode_eq_rankTooLow_iff {rank : Nat} :
    selfDescribing.decode bs = .error (.latent (.rankTooLow rank)) ↔
      rank < 2 ∧ ∃ type dims start stop data, dims.length = rank ∧
        HasTensor bs tensorName ⟨ElementType.toCell type, dims, start, stop⟩ data := by
  rw [decode_eq_iff]
  constructor
  · intro h
    cases h with
    | rankTooLow h hRank => exact ⟨hRank, _, _, _, _, _, rfl, h⟩
  · rintro ⟨hRank, type, dims, start, stop, data, rfl, h⟩
    exact .rankTooLow h hRank

theorem decode_eq_container_iff :
    (∃ e, selfDescribing.decode bs = .error (.container e)) ↔
      ¬ ∃ e data, HasTensor bs tensorName e data := by
  simp only [decode_eq_iff, ← readTensor_eq_ok_iff]
  constructor
  · rintro ⟨e, h⟩ ⟨entry, data, hRead⟩
    cases h with
    | container h =>
      rw [hRead] at h
      cases h
  · intro h
    cases hRead : readTensor tensorName bs with
    | error e => exact ⟨e, .container hRead⟩
    | ok found => exact absurd ⟨_, _, hRead⟩ h

/-- The length of the data agrees with the type and the shape whenever a container is accepted. -/
theorem ofBytes_ne_byteLength {e : Container.Entry} {data : Bytes} {type : ElementType}
    (h : HasTensor bs tensorName e data) (hType : e.type = type.toCell) (expected actual : Nat) :
    Latent.ofBytes type e.dims data ≠ .error (.byteLength expected actual) := by
  have hLength := length_of_hasTensor h hType
  rw [Latent.ofBytes]
  cases hShape : Shape.ofList? e.dims with
  | none => simp
  | some shape =>
    rw [← Shape.toList_of_ofList? hShape] at hLength
    dsimp only [Shape.elementCount]
    rw [if_pos hLength]
    simp

/-- Any bytes are decoded or refused for exactly one of three reasons. The length of the data is
never one: it agrees with the type and the shape as soon as the container is accepted. -/
theorem decode_decided (bs : Bytes) :
    ((∃ x, selfDescribing.decode bs = .ok x) ∨
      (∃ e, selfDescribing.decode bs = .error (.container e)) ∨
      (∃ type, selfDescribing.decode bs = .error (.unsupportedType type)) ∨
      ∃ rank, selfDescribing.decode bs = .error (.latent (.rankTooLow rank))) ∧
    (∀ e data type expected actual, readTensor tensorName bs = .ok (e, data) →
      ElementType.ofCell? e.type = some type →
        Latent.ofBytes type e.dims data ≠ .error (.byteLength expected actual)) ∧
    (∀ x, selfDescribing.decode bs = .ok x ↔
      ∃ n members entries start stop, Container.Accepted bs n members entries ∧
        (tensorName, ⟨x.type.toCell, x.shape.toList, start, stop⟩) ∈ entries ∧
        8 + n + stop ≤ bs.length ∧ x.data = (bs.drop (8 + n + start)).take (stop - start)) ∧
    ((∃ e, selfDescribing.decode bs = .error (.container e)) ↔
      ¬ ∃ e data, HasTensor bs tensorName e data) ∧
    (∀ type, selfDescribing.decode bs = .error (.unsupportedType type) ↔
      ElementType.ofCell? type = none ∧
        ∃ dims start stop data, HasTensor bs tensorName ⟨type, dims, start, stop⟩ data) ∧
    ∀ rank, selfDescribing.decode bs = .error (.latent (.rankTooLow rank)) ↔
      rank < 2 ∧ ∃ type dims start stop data, dims.length = rank ∧
        HasTensor bs tensorName ⟨ElementType.toCell type, dims, start, stop⟩ data := by
  refine ⟨?_, ?_, fun x => decode_eq_ok_iff, decode_eq_container_iff,
    fun type => decode_eq_unsupportedType_iff, fun rank => decode_eq_rankTooLow_iff⟩
  · obtain ⟨r, h⟩ := exists_decodes bs
    rw [h.eq]
    cases h with
    | latent => exact .inl ⟨_, rfl⟩
    | container => exact .inr (.inl ⟨_, rfl⟩)
    | unsupportedType => exact .inr (.inr (.inl ⟨_, rfl⟩))
    | rankTooLow => exact .inr (.inr (.inr ⟨_, rfl⟩))
  · intro e data type expected actual hRead hType
    exact ofBytes_ne_byteLength (readTensor_eq_ok_iff.mp hRead)
      (ElementType.ofCell?_eq_some_iff.mp hType) expected actual

theorem decode_decided_two_layers :
    let x : Latent := ⟨.bf16, ⟨2, 1, []⟩, [1, 2, 3, 4]⟩
    (∃ bs n members entries start stop, selfDescribing.encode x = .ok bs ∧
      Container.Accepted bs n members entries ∧
      (tensorName, ⟨.bf16, [2, 1], start, stop⟩) ∈ entries ∧
      x.data = (bs.drop (8 + n + start)).take (stop - start)) ∧
    (∀ expected actual, Latent.ofBytes .bf16 [2, 1] x.data ≠ .error (.byteLength expected actual)) ∧
    ¬ ∃ e data, HasTensor [] tensorName e data := by
  intro x
  have hSound : x.Sound := ⟨by decide, by decide⟩
  have hHeader : recordHeaderLength x.type x.shape ≤ Container.maxHeaderLength := by
    decide +kernel
  obtain ⟨bs, hEncode, hDecode⟩ := decode_encode_selfDescribing hSound hHeader
  obtain ⟨-, hLength, hOk, -⟩ := decode_decided bs
  obtain ⟨n, members, entries, start, stop, hAccepted, hMem, hStop, hData⟩ := (hOk x).mp hDecode
  refine ⟨⟨bs, n, members, entries, start, stop, hEncode, hAccepted, hMem, hData⟩, ?_, ?_⟩
  · intro expected actual
    have hTensor : HasTensor bs tensorName ⟨.bf16, [2, 1], start, stop⟩ x.data :=
      ⟨n, members, entries, hAccepted, hMem, hStop, hData⟩
    exact hLength _ _ .bf16 expected actual (readTensor_eq_ok_iff.mpr hTensor) rfl
  · obtain ⟨-, -, -, hContainer, -⟩ := decode_decided []
    exact hContainer.mp ⟨.headerTooSmall, rfl⟩

end Codec

end LatentCache
