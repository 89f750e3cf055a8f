import LatentCache.Proofs.Json.Reading
import LatentCache.Proofs.Latent.Extent
import LatentCache.Record.Container

/-!
# Reading back a container

The reader takes a written container apart again: it finds one tensor with the type, the shape and
the bytes that were written.
-/

namespace LatentCache

namespace Utf8

def IsAscii (cs : List Char) : Prop := ∀ c ∈ cs, c.toNat < 0x80

instance (cs : List Char) : Decidable (IsAscii cs) := List.decidableBAll _ cs

theorem isAscii_append {as bs : List Char} :
    IsAscii (as ++ bs) ↔ IsAscii as ∧ IsAscii bs := List.forall_mem_append

theorem encode_ascii {cs : List Char} (h : IsAscii cs) :
    encode cs = cs.map fun c => UInt8.ofNat c.toNat := by
  induction cs with
  | nil => rfl
  | cons c cs ih =>
    have hc : c.toNat < 0x80 := h c List.mem_cons_self
    have hChar : String.utf8EncodeChar c = [UInt8.ofNat c.toNat] := by
      rw [String.utf8EncodeChar]
      rw [if_pos]
      · rfl
      · exact Nat.le_of_lt_succ hc
    rw [encode, List.flatMap_cons, hChar, List.map_cons]
    exact congrArg _ (ih fun d hd => h d (List.mem_cons_of_mem _ hd))

theorem decode?_encode_ascii {cs : List Char} (h : IsAscii cs) :
    decode? (encode cs) = some cs := by
  rw [encode_ascii h]
  induction cs with
  | nil => rfl
  | cons c cs ih =>
    have hc : c.toNat < 0x80 := h c List.mem_cons_self
    have hNat : (UInt8.ofNat c.toNat).toNat = c.toNat := by
      rw [UInt8.toNat_ofNat', Nat.mod_eq_of_lt (by omega)]
    have hSmall : UInt8.ofNat c.toNat < 0x80 := by
      rw [UInt8.lt_iff_toNat_lt, hNat]
      exact hc
    rw [List.map_cons, decode?.eq_def]
    simp only [if_pos hSmall, ih fun d hd => h d (List.mem_cons_of_mem _ hd), hNat,
      Option.bind_eq_bind, Option.bind_some, Char.ofNat_toNat]

end Utf8

namespace Container

open Json Json.Token

theorem CellType.width_pos (t : CellType) : 0 < t.width := by cases t <;> decide

variable {name : String} {type : CellType} {n length : Nat} {others dims : List Nat}

/-! ## The header -/

def entryJson (type : CellType) (dims : List Nat) (length : Nat) : Json :=
  .object [("dtype", .string type.name), ("shape", .array (dims.map .natural)),
    ("data_offsets", .array [.natural 0, .natural length])]

def headerJson (name : String) (type : CellType) (dims : List Nat) (length : Nat) : Json :=
  .object [(name, entryJson type dims length)]

def headerTokens (name : String) (type : CellType) (n : Nat) (others : List Nat) (length : Nat) :
    List Json.Token :=
  [.openBrace, .string name, .colon, .openBrace, .string "dtype", .colon, .string type.name,
      .comma, .string "shape", .colon, .openBracket] ++
    (itemTokens n others ++
      [.comma, .string "data_offsets", .colon, .openBracket] ++
        (itemTokens 0 [length] ++ [.closeBrace, .closeBrace]))

theorem isPlain_name (t : CellType) : IsPlain t.name.toList := by
  cases t <;> decide

theorem list?_quoted (text : String) (h : IsPlain text.toList) {rest : List Char}
    {tokens : List Json.Token} (hRest : list? rest = some tokens) :
    list? ('"' :: (text.toList ++ '"' :: rest)) = some (.string text :: tokens) := by
  rw [list?_string h hRest, String.ofList_toList]

theorem headerChars_eq (name : String) (type : CellType) (dims : List Nat) (length : Nat) :
    headerChars name type dims length =
      '\x7b' :: '"' :: (name.toList ++ '"' :: ':' :: '\x7b' :: '"' :: ("dtype".toList ++ '"' ::
        ':' :: '"' :: (type.name.toList ++ '"' :: ',' :: '"' :: ("shape".toList ++ '"' :: ':' ::
          '[' :: ([','].intercalate (dims.map Decimal.digits) ++ ']' :: ',' :: '"' ::
            ("data_offsets".toList ++ '"' :: ':' :: '[' ::
              ([','].intercalate ([0, length].map Decimal.digits) ++
                [']', '\x7d', '\x7d']))))))) := by
  rw [List.map_cons, List.map_singleton, List.intercalate_cons_cons, List.intercalate_singleton,
    Decimal.digits_zero]
  simp [headerChars, dimsChars]

theorem list?_header (hName : IsPlain name.toList)
    (hDims : ∀ m ∈ n :: others, m < Size.limit) (hLength : length < Size.limit) (spaces : Nat) :
    list? (headerChars name type (n :: others) length ++ List.replicate spaces ' ') =
      some (headerTokens name type n others length) := by
  have hBounds : ∀ m ∈ [0, length], m < Size.limit := by simp [hLength]
  have hEnd := list?_closeBrace (list?_closeBrace (list?_spaces spaces))
  have hRange := list?_openBracket (list?_items hBounds hEnd)
  have hOffsets := list?_comma (list?_quoted "data_offsets" (by decide) (list?_colon hRange))
  have hDimensions := list?_openBracket (list?_items hDims hOffsets)
  have hShape := list?_comma (list?_quoted "shape" (by decide) (list?_colon hDimensions))
  have hType := list?_quoted type.name (isPlain_name type) hShape
  have hEntry := list?_openBrace (list?_quoted "dtype" (by decide) (list?_colon hType))
  have hAll := list?_openBrace (list?_quoted name hName (list?_colon hEntry))
  rw [headerChars_eq]
  simpa [headerTokens] using hAll

theorem readValue_header {fuel : Nat} (hFuel : others.length + 12 ≤ fuel) :
    readValue fuel maxDepth (headerTokens name type n others length) =
      some (headerJson name type (n :: others) length, []) := by
  obtain ⟨fuel, rfl⟩ : ∃ left, fuel = left + 9 := ⟨fuel - 9, by omega⟩
  have hType (rest : List Json.Token) :
      readValue (fuel + 5) 125 (Json.Token.string type.name :: rest) =
        some (.string type.name, rest) := by
    rw [readValue]
  have hDims := fun rest => readValue_items (fuel + 3) 124 n others rest (by omega)
  have hRange := fun rest => readValue_items (fuel + 2) 124 0 [length] rest (by simp; omega)
  have hLast := readMembers_last "data_offsets" (hRange [.closeBrace, .closeBrace])
  have hShape := readMembers_next "shape" (hDims _) hLast
  have hEntry := readValue_members (readMembers_next "dtype" (hType _) hShape)
  have hAll := readValue_members (readMembers_last name hEntry)
  simpa [headerTokens, headerJson, entryJson, maxDepth] using hAll

theorem length_itemTokens (n : Nat) (others : List Nat) :
    (itemTokens n others).length = 2 * (others.length + 1) := by
  induction others generalizing n with
  | nil => rfl
  | cons next others ih =>
    rw [itemTokens, List.length_cons, List.length_cons, ih, List.length_cons]
    omega

theorem parse?_header (hName : IsPlain name.toList)
    (hDims : ∀ m ∈ n :: others, m < Size.limit) (hLength : length < Size.limit) (spaces : Nat) :
    Json.parse? (headerChars name type (n :: others) length ++ List.replicate spaces ' ') =
      some (headerJson name type (n :: others) length) := by
  have hFuel : others.length + 12 ≤ 2 * (headerTokens name type n others length).length + 1 := by
    simp only [headerTokens, List.length_append, List.length_cons, List.length_nil,
      length_itemTokens]
    omega
  rw [Json.parse?, list?_header hName hDims hLength spaces]
  simp only [Option.bind_eq_bind, Option.bind_some, readValue_header hFuel]

theorem size?_natural {m : Nat} (h : m < Size.limit) : size? (.natural m) = some m := if_pos h

theorem mapM_size? {sizes : List Nat} (h : ∀ m ∈ sizes, m < Size.limit) :
    (sizes.map Json.natural).mapM size? = some sizes := by
  induction sizes with
  | nil => rfl
  | cons m sizes ih =>
    obtain ⟨hHead, hRest⟩ := List.forall_mem_cons.mp h
    simp [ih hRest, size?_natural hHead]

theorem Entry.ofJson?_entryJson (type : CellType) {dims : List Nat} {length : Nat}
    (hDims : ∀ m ∈ dims, m < Size.limit) (hLength : length < Size.limit) :
    Entry.ofJson? (entryJson type dims length) = some ⟨type, dims, 0, length⟩ := by
  have hType : CellType.ofJson? (.string type.name) = some type := CellType.named?_name type
  have hShape : dims? (.array (dims.map .natural)) = some dims := mapM_size? hDims
  have hRange : range? (.array [.natural 0, .natural length]) = some (0, length) := by
    simp [range?, size?_natural hLength, size?_natural (by decide : 0 < Size.limit)]
  simp [entryJson, Entry.ofJson?, onlyMember?, Entry.ofParts?, hType, hShape, hRange]

theorem entries?_header (type : CellType) (hName : IsPlain name.toList) (hKey : name ≠ notesKey)
    (hDims : ∀ m ∈ n :: others, m < Size.limit) (hLength : length < Size.limit) (spaces : Nat) :
    entries? (headerChars name type (n :: others) length ++ List.replicate spaces ' ') =
      some [(name, ⟨type, n :: others, 0, length⟩)] := by
  have hBeq : (name == notesKey) = false := by simpa using hKey
  have hNotes : notesValid [(name, entryJson type (n :: others) length)] = true := by
    simp [notesValid, hBeq]
  rw [entries?, parse?_header hName hDims hLength spaces]
  simp [headerJson, hNotes, bne, hBeq, Entry.ofJson?_entryJson type hDims hLength, lastOfEachName]

/-! ## Reading what was written -/

/-- The header of a container of one tensor with the spaces that fill it. -/
def paddedHeader (name : String) (type : CellType) (dims : List Nat) (length : Nat) : List Char :=
  headerChars name type dims length ++ fillChars (headerChars name type dims length)

theorem isAscii_digits (m : Nat) : Utf8.IsAscii (Decimal.digits m) := by
  intro c hc
  have hDigit := Decimal.isDigit_of_mem_digits hc
  simp only [Char.isDigit, ge_iff_le, Bool.and_eq_true, decide_eq_true_eq] at hDigit
  have hUpper : c.val.toNat ≤ 57 := UInt32.le_iff_toNat_le.mp hDigit.2
  exact hUpper.trans_lt (by decide)

theorem isAscii_dims (dims : List Nat) :
    Utf8.IsAscii ([','].intercalate (dims.map Decimal.digits)) := by
  induction dims with
  | nil => exact fun c hc => by cases hc
  | cons m dims ih =>
    cases dims with
    | nil => simpa using isAscii_digits m
    | cons next dims =>
      rw [List.map_cons, List.map_cons, List.intercalate_cons_cons, Utf8.isAscii_append,
        Utf8.isAscii_append]
      exact ⟨⟨isAscii_digits m, by decide⟩, ih⟩

theorem isAscii_paddedHeader (hName : Utf8.IsAscii name.toList) (type : CellType)
    (dims : List Nat) (length : Nat) : Utf8.IsAscii (paddedHeader name type dims length) := by
  have hType : Utf8.IsAscii type.name.toList := by cases type <;> decide
  have hFill (header : List Char) : Utf8.IsAscii (fillChars header) := by
    intro c hc
    obtain rfl := List.eq_of_mem_replicate hc
    decide
  simp only [paddedHeader, headerChars, dimsChars, Utf8.isAscii_append, hName, hType, hFill,
    isAscii_dims, isAscii_digits, and_true]
  decide

theorem length_encode_ascii {text : List Char} (h : Utf8.IsAscii text) :
    (Utf8.encode text).length = text.length := by
  rw [Utf8.encode_ascii h, List.length_map]

theorem toNat_ofNat_of_le (h : n ≤ maxHeaderLength) : Bytes.toNat (Bytes.ofNat 8 n) = n := by
  rw [Bytes.toNat_ofNat]
  apply Nat.mod_eq_of_lt
  exact h.trans_lt (by decide)

/-- The parts of a container stand at the places that the length of its header gives. -/
theorem container_parts (data : Bytes) {text : Bytes} {n : Nat} (hText : text.length = n) :
    (Bytes.ofNat 8 n ++ text ++ data).take 8 = Bytes.ofNat 8 n ∧
    ((Bytes.ofNat 8 n ++ text ++ data).drop 8).take n = text ∧
    (Bytes.ofNat 8 n ++ text ++ data).drop (8 + n) = data ∧
    (Bytes.ofNat 8 n ++ text ++ data).length = 8 + n + data.length := by
  have hPrefix : (Bytes.ofNat 8 n).length = 8 := Bytes.length_ofNat 8 n
  refine ⟨?_, ?_, ?_, ?_⟩
  · rw [List.append_assoc, List.take_left' hPrefix]
  · rw [List.append_assoc, List.drop_left' hPrefix, List.take_left' hText]
  · apply List.drop_left'
    rw [List.length_append, hPrefix, hText]
  · rw [List.length_append, List.length_append, hPrefix, hText]

theorem read_container {header : List Char} {entries : List (String × Entry)} {data : Bytes}
    (hAscii : Utf8.IsAscii header) (hLength : header.length ≤ maxHeaderLength)
    (hEntries : entries? header = some entries) (hTile : tile 0 entries = .ok data.length) :
    read (Bytes.ofNat 8 (Utf8.encode header).length ++ Utf8.encode header ++ data) =
      .ok (entries, data) := by
  have hText := length_encode_ascii hAscii
  have hNat := toNat_ofNat_of_le hLength
  obtain ⟨hTake, hHeader, hData, hTotal⟩ := container_parts data hText
  rw [hText, read]
  simp only [hTotal, hTake, hNat, hHeader, hData, Utf8.decode?_encode_ascii hAscii, hEntries,
    hTile]
  rw [if_neg (by omega), if_neg (by omega), if_neg (by omega)]
  simp [bind, Except.bind, pure, Except.pure]

theorem tile_single (hSize : length = dims.prod * type.width)
    (hFits : Size.nonzeroProd dims * type.width < Size.limit) :
    tile 0 [(name, ⟨type, dims, 0, length⟩)] = .ok length := by
  have hProd : dims.prod * type.width < Size.limit :=
    (Nat.mul_le_mul_right _ (Size.prod_le_nonzeroProd dims)).trans_lt hFits
  have hCount : Entry.byteCount? ⟨type, dims, 0, length⟩ = some length := by
    have hDims : Size.nonzeroProd dims < Size.limit :=
      (Nat.le_mul_of_pos_right _ type.width_pos).trans_lt hFits
    rw [Entry.byteCount?, Size.checkedProd_eq hDims, hSize]
    simp [hProd]
  simp [tile, hCount]

/-- A tensor of exact sizes is read back from its container. -/
theorem readTensor_write {data : Bytes} (hName : IsPlain name.toList)
    (hAscii : Utf8.IsAscii name.toList) (hKey : name ≠ notesKey)
    (hData : data.length = (n :: others).prod * type.width)
    (hFits : Size.nonzeroProd (n :: others) * type.width < Size.limit)
    (hHeader : (paddedHeader name type (n :: others) data.length).length ≤ maxHeaderLength) :
    ∃ bs, write name type (n :: others) data = .ok bs ∧
      readTensor name bs = .ok (⟨type, n :: others, 0, data.length⟩, data) := by
  have hProd : (n :: others).prod * type.width < Size.limit :=
    (Nat.mul_le_mul_right _ (Size.prod_le_nonzeroProd _)).trans_lt hFits
  have hDims : ∀ m ∈ n :: others, m < Size.limit := fun m hm =>
    ((Size.le_nonzeroProd_of_mem hm).trans (Nat.le_mul_of_pos_right _ type.width_pos)).trans_lt
      hFits
  have hCount : Size.mul (Size.prod (n :: others)) type.width = data.length := by
    rw [Size.prod_eq ((Nat.le_mul_of_pos_right _ type.width_pos).trans_lt hProd), hData]
    exact Size.mul_eq hProd
  have hEntries := entries?_header type hName hKey hDims (hData ▸ hProd)
    ((8 - (headerChars name type (n :: others) data.length).length % 8) % 8)
  have hRead := read_container (isAscii_paddedHeader hAscii type (n :: others) data.length)
    hHeader hEntries (tile_single hData hFits)
  refine ⟨_, by rw [write, if_neg (by simp [hCount])], ?_⟩
  simp only [readTensor, paddedHeader, fillChars] at hRead ⊢
  rw [hRead]
  simp [bind, Except.bind, pure, Except.pure]

end Container

end LatentCache
