import LatentCache.Proofs.Record.Decoding

/-!
# Where a record ends

How long a record is can be told from its beginning: a container has a header, a raw record a
layout. So what is left of a record that was cut off, or one with bytes behind it, is no record.
-/

namespace LatentCache

namespace Container

variable {bs other data : Bytes} {n n' : Nat} {members members' : List (String × Json)}
  {entries entries' : List (String × Entry)} {name : String} {type : CellType}

/-- Of two framed strings none goes on where the other one ends. -/
theorem Framed.eq_of_prefix (h : Framed bs n members entries)
    (h' : Framed other n' members' entries') (hPrefix : bs <+: other) : bs = other := by
  obtain ⟨rest, rfl⟩ := hPrefix
  have hInside := h.inside
  have hTake : (bs ++ rest).take 8 = bs.take 8 := List.take_append_of_le_length (by omega)
  obtain rfl : n = n' := by rw [← h.toNat_take, ← h'.toNat_take, hTake]
  have hText : ((bs ++ rest).drop 8).take n = (bs.drop 8).take n := by
    rw [List.drop_append_of_le_length (by omega), List.take_append_of_le_length]
    rw [List.length_drop]
    omega
  obtain ⟨text, hDecode, hParse⟩ := h.header
  obtain ⟨text', hDecode', hParse'⟩ := h'.header
  rw [hText, hDecode] at hDecode'
  cases hDecode'
  rw [hParse] at hParse'
  cases hParse'
  -- One header lists one sequence of ranges, and their end is the end of both strings.
  have hTiles := h'.tiles
  rw [← h.lists.ranges_eq h'.lists] at hTiles
  have hLength := h.tiles.stop_unique hTiles
  rw [List.length_append] at hLength
  obtain rfl : rest = [] := List.eq_nil_of_length_eq_zero (by omega)
  rw [List.append_nil]

/-- What is written is framed, also if the reader refuses the sizes in it. -/
theorem framed_of_write {dims : List Nat} (hName : Json.Token.IsPlain name.toList)
    (hAscii : Utf8.IsAscii name.toList) (hKey : name ≠ notesKey) (hNonempty : dims ≠ [])
    (hDims : ∀ m ∈ dims, m < Size.limit) (hLength : data.length < Size.limit)
    (hHeader : (paddedHeader name type dims data.length).length ≤ maxHeaderLength)
    (h : write name type dims data = .ok bs) :
    ∃ n members entries, Framed bs n members entries := by
  obtain ⟨m, others, rfl⟩ := List.exists_cons_of_ne_nil hNonempty
  have hText := isAscii_paddedHeader hAscii type (m :: others) data.length
  have hEntries : entries? (paddedHeader name type (m :: others) data.length) =
      some [(name, ⟨type, m :: others, 0, data.length⟩)] :=
    entries?_header type hName hKey hDims hLength _
  obtain ⟨members, hParse, hLists⟩ := entries?_eq_some hEntries
  have hCount := length_encode_ascii hText
  obtain ⟨hTake, hMiddle, -, hTotal⟩ := container_parts data hCount
  rw [write] at h
  split at h
  · cases h
  cases h
  rw [← paddedHeader, hCount]
  refine ⟨_, members, _, hTake, hHeader, ?_, ⟨_, ?_, hParse⟩, hLists, ?_⟩
  · omega
  · rw [hMiddle, Utf8.decode?_encode_ascii hText]
  · rw [hTotal, Nat.add_sub_cancel_left]
    exact .cons (Nat.zero_le _) (.nil _)

end Container

namespace Codec

/-- Some bytes end where a record of the codec that begins like them would end. -/
def Delimits : Codec → Bytes → Prop
  | selfDescribing, bs => ∃ n members entries, Container.Framed bs n members entries
  | raw layout, bs => bs.length = layout.byteLength

variable {codec : Codec} {bs other : Bytes} {x : Latent}

theorem Delimits.eq_of_prefix (h : codec.Delimits bs) (h' : codec.Delimits other)
    (hPrefix : bs <+: other) : bs = other := by
  cases codec with
  | selfDescribing =>
    obtain ⟨n, members, entries, hFramed⟩ := h
    obtain ⟨n', members', entries', hFramed'⟩ := h'
    exact hFramed.eq_of_prefix hFramed' hPrefix
  | raw layout => exact hPrefix.eq_of_length (h.trans h'.symm)

theorem delimits_of_decode (h : codec.decode bs = .ok x) : codec.Delimits bs := by
  cases codec with
  | selfDescribing =>
    obtain ⟨n, members, entries, -, -, hAccepted, -⟩ := decode_eq_ok_iff.mp h
    exact ⟨n, members, entries, hAccepted.toFramed⟩
  | raw layout => exact (decode_raw_eq_ok_iff.mp h).2

/-- The header of the record of a latent is one that a container may have. -/
def HeaderShort (codec : Codec) (x : Latent) : Prop :=
  codec = selfDescribing →
    (Container.paddedHeader tensorName x.type.toCell x.shape.toList x.data.length).length ≤
      Container.maxHeaderLength

theorem delimits_of_encode (h : x.WellFormed) (hDims : ∀ n ∈ x.shape.toList, n < Size.limit)
    (hHeader : codec.HeaderShort x) (hEncode : codec.encode x = .ok bs) : codec.Delimits bs := by
  cases codec with
  | selfDescribing =>
    have hLength : x.data.length < Size.limit := h ▸ Size.mul_lt _ _
    apply Container.framed_of_write _ _ _ _ hDims hLength (hHeader rfl)
      (encode_selfDescribing_eq_ok.mp hEncode)
    · decide
    · decide
    · decide
    · simp [Shape.toList]
  | raw layout =>
    obtain rfl := encode_raw_eq_ok_iff.mp hEncode
    exact h

/-- The record of a latent does not decode with bytes missing at its end or more bytes there. -/
theorem decode_torn (h : x.WellFormed) (hDims : ∀ n ∈ x.shape.toList, n < Size.limit)
    (hHeader : codec.HeaderShort x) (hEncode : codec.encode x = .ok bs) {torn : Bytes}
    (hTorn : torn ≠ bs) (hPart : torn <+: bs ∨ bs <+: torn) :
    ∃ e, codec.decode torn = .error e := by
  cases hDecode : codec.decode torn with
  | error e => exact ⟨e, rfl⟩
  | ok y =>
    have hWhole := delimits_of_encode h hDims hHeader hEncode
    have hEnds := delimits_of_decode hDecode
    rcases hPart with hShort | hLong
    · exact absurd (hEnds.eq_of_prefix hWhole hShort) hTorn
    · exact absurd (hWhole.eq_of_prefix hEnds hLong).symm hTorn

end Codec

end LatentCache
