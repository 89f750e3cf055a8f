import LatentCache.Proofs.Bytes
import LatentCache.Proofs.Record.Container
import LatentCache.Proofs.Record.Header

/-!
# What the reader accepts

A container is accepted if it has a length, a header of this length and data that the ranges of the
header tile. What is found in it under a name are the bytes of the range.
-/

namespace LatentCache

namespace Container

/-! ## Tiling -/

/-- Ranges follow one another from the first position to the last one, without gap or overlap. -/
inductive Tiles : Nat → List (Nat × Nat) → Nat → Prop
  | nil (stop : Nat) : Tiles stop [] stop
  | cons {start next stop : Nat} {ranges : List (Nat × Nat)} (hLe : start ≤ next)
      (h : Tiles next ranges stop) : Tiles start ((start, next) :: ranges) stop

theorem Tiles.le {start stop : Nat} {ranges : List (Nat × Nat)} (h : Tiles start ranges stop) :
    start ≤ stop := by
  induction h with
  | nil => exact Nat.le_refl _
  | cons hLe _ ih => exact hLe.trans ih

theorem Tiles.bounds {start stop : Nat} {ranges : List (Nat × Nat)} (h : Tiles start ranges stop)
    {range : Nat × Nat} (hRange : range ∈ ranges) :
    start ≤ range.1 ∧ range.1 ≤ range.2 ∧ range.2 ≤ stop := by
  induction h with
  | nil => cases hRange
  | cons hLe h ih =>
    rcases List.mem_cons.mp hRange with rfl | hRange
    · exact ⟨Nat.le_refl _, hLe, h.le⟩
    · obtain ⟨hStart, hRest⟩ := ih hRange
      exact ⟨hLe.trans hStart, hRest⟩

theorem Tiles.stop_unique {start stop stop' : Nat} {ranges : List (Nat × Nat)}
    (h : Tiles start ranges stop) (h' : Tiles start ranges stop') : stop = stop' := by
  induction h with
  | nil =>
    cases h'
    rfl
  | cons _ _ ih =>
    cases h' with
    | cons _ h' => exact ih h'

theorem tile_eq_ok_iff {start stop : Nat} {entries : List (String × Entry)} :
    tile start entries = .ok stop ↔ Tiles start (entries.map (·.2.range)) stop ∧
      ∀ entry ∈ entries, entry.2.byteCount? = some (entry.2.stop - entry.2.start) := by
  induction entries generalizing start with
  | nil =>
    constructor
    · intro h
      cases h
      exact ⟨.nil _, by simp⟩
    · rintro ⟨h, -⟩
      cases h
      rfl
  | cons entry rest ih =>
    obtain ⟨name, e⟩ := entry
    simp only [tile, List.map_cons, Entry.range, List.forall_mem_cons]
    constructor
    · intro h
      split at h
      · cases h
      · next hPlace =>
        cases hCount : e.byteCount? with
        | none =>
          rw [hCount] at h
          cases h
        | some count =>
          rw [hCount] at h
          dsimp only at h
          split at h
          · cases h
          · next hSize =>
            obtain ⟨hTiles, hSizes⟩ := ih.mp h
            obtain rfl : e.start = start := by omega
            exact ⟨.cons (by omega) hTiles, congrArg some (not_not.mp hSize).symm, hSizes⟩
    · rintro ⟨hTiles, hCount, hSizes⟩
      cases hTiles with
      | cons hLe hTiles =>
        rw [if_neg (by omega), hCount]
        dsimp only
        rw [if_neg (by omega)]
        exact ih.mpr ⟨hTiles, hSizes⟩

/-- An entry asks for a number of bytes as long as no product of its first dimensions is too
large. -/
theorem Entry.byteCount?_eq_some_iff {e : Entry} {count : Nat} : e.byteCount? = some count ↔
    Size.checkedProd e.dims = some e.dims.prod ∧ e.dims.prod * e.type.width < Size.limit ∧
      e.dims.prod * e.type.width = count := by
  rw [Entry.byteCount?, Option.bind_eq_bind, Option.bind_eq_some_iff]
  constructor
  · rintro ⟨n, hProd, h⟩
    obtain ⟨rfl, -⟩ := Size.checkedProd_eq_some_iff.mp hProd
    split at h
    · next hLt => exact ⟨hProd, hLt, Option.some.inj h⟩
    · cases h
  · rintro ⟨hProd, hLt, rfl⟩
    exact ⟨_, hProd, if_pos hLt⟩

/-! ## Frames -/

/-- Some bytes begin with the length `n` of a header, and the header lists entries whose ranges tile
all bytes behind it. -/
structure Framed (bs : Bytes) (n : Nat) (members : List (String × Json))
    (entries : List (String × Entry)) : Prop where
  length : bs.take 8 = Bytes.ofNat 8 n
  short : n ≤ maxHeaderLength
  inside : 8 + n ≤ bs.length
  header : ∃ text, Utf8.decode? ((bs.drop 8).take n) = some text ∧
    Json.parse? text = some (.object members)
  lists : Lists members entries
  tiles : Tiles 0 (entries.map (·.2.range)) (bs.length - (8 + n))

/-- Every range is as long as the type and the shape beside it ask for. -/
structure Accepted (bs : Bytes) (n : Nat) (members : List (String × Json))
    (entries : List (String × Entry)) : Prop extends Framed bs n members entries where
  sizes : ∀ entry ∈ entries, entry.2.byteCount? = some (entry.2.stop - entry.2.start)

variable {bs data : Bytes} {n : Nat} {members : List (String × Json)}
  {entries : List (String × Entry)} {name : String} {e : Entry}

theorem accepted_of_read (h : read bs = .ok (entries, data)) :
    ∃ n members, Accepted bs n members entries ∧ data = bs.drop (8 + n) := by
  rw [read] at h
  dsimp only at h
  split at h
  · cases h
  next hEight =>
  split at h
  · cases h
  next hShort =>
  split at h
  · cases h
  next hInside =>
  split at h
  case _ text hText =>
    split at h
    case _ listed hEntries =>
      obtain ⟨stop, hTile, h⟩ := bind_eq_ok_iff.mp h
      split at h
      · cases h
      next hStop =>
      cases h
      obtain ⟨members, hParse, hLists⟩ := entries?_eq_some hEntries
      obtain ⟨hTiles, hSizes⟩ := tile_eq_ok_iff.mp hTile
      rw [← not_not.mp hStop, List.length_drop] at hTiles
      refine ⟨_, members, ?_, rfl⟩
      exact
        { length := Bytes.take_eq_ofNat (Nat.le_of_not_lt hEight)
          short := by omega
          inside := by omega
          header := ⟨text, hText, hParse⟩
          lists := hLists
          tiles := hTiles
          sizes := hSizes }
    · cases h
  · cases h

theorem Framed.toNat_take (h : Framed bs n members entries) : Bytes.toNat (bs.take 8) = n := by
  rw [h.length]
  exact toNat_ofNat_of_le h.short

theorem Accepted.read (h : Accepted bs n members entries) :
    ∃ others, read bs = .ok (others, bs.drop (8 + n)) ∧ Lists members others := by
  obtain ⟨text, hText, hParse⟩ := h.header
  obtain ⟨others, hEntries⟩ := entries?_isSome hParse h.lists
  obtain ⟨members', hParse', hOthers⟩ := entries?_eq_some hEntries
  rw [hParse] at hParse'
  cases hParse'
  -- The reader may put entries of one range in another order, but this moves no range.
  have hTile : tile 0 others = .ok (bs.drop (8 + n)).length := by
    rw [List.length_drop]
    apply tile_eq_ok_iff.mpr
    constructor
    · rw [← h.lists.ranges_eq hOthers]
      exact h.tiles
    · intro entry hEntry
      apply h.sizes
      exact (h.lists.mem_iff entry.1 entry.2).mpr ((hOthers.mem_iff entry.1 entry.2).mp hEntry)
  have hShort := h.short
  have hInside := h.inside
  refine ⟨others, ?_, hOthers⟩
  simp only [Container.read, h.toNat_take, hText, hEntries, hTile]
  rw [if_neg (by omega), if_neg (by omega), if_neg (by omega)]
  simp [bind, Except.bind, pure, Except.pure]

/-- A tensor of a container with what the header says about it and its bytes. -/
def HasTensor (bs : Bytes) (name : String) (e : Entry) (data : Bytes) : Prop :=
  ∃ n members entries, Accepted bs n members entries ∧ (name, e) ∈ entries ∧
    8 + n + e.stop ≤ bs.length ∧ data = (bs.drop (8 + n + e.start)).take (e.stop - e.start)

theorem Framed.bounds (h : Framed bs n members entries) (hMem : (name, e) ∈ entries) :
    e.start ≤ e.stop ∧ 8 + n + e.stop ≤ bs.length := by
  have hRange : e.range ∈ entries.map (·.2.range) := List.mem_map.mpr ⟨_, hMem, rfl⟩
  obtain ⟨-, hLe, hStop⟩ := h.tiles.bounds hRange
  have hInside := h.inside
  dsimp only [Entry.range] at hLe hStop
  omega

theorem readTensor_eq_ok_iff : readTensor name bs = .ok (e, data) ↔ HasTensor bs name e data := by
  constructor
  · intro h
    obtain ⟨⟨entries, payload⟩, hRead, h⟩ := bind_eq_ok_iff.mp h
    obtain ⟨n, members, hAccepted, rfl⟩ := accepted_of_read hRead
    dsimp only at h
    split at h
    · cases h
    · next found hFound =>
      cases h
      have hMem := mem_of_lookup_eq_some hFound
      obtain ⟨-, hStop⟩ := hAccepted.bounds hMem
      exact ⟨n, members, entries, hAccepted, hMem, hStop, by rw [List.drop_drop]⟩
  · rintro ⟨n, members, entries, hAccepted, hMem, -, rfl⟩
    obtain ⟨others, hRead, hOthers⟩ := hAccepted.read
    have hFound : others.lookup name = some e := by
      rw [lookup_eq_some_iff_mem hOthers.nodup, hOthers.mem_iff, ← hAccepted.lists.mem_iff]
      exact hMem
    rw [readTensor, hRead]
    simp [bind, Except.bind, pure, Except.pure, hFound, List.drop_drop]

/-- The bytes of a tensor are as many as its type and its shape ask for, in exact arithmetic. -/
theorem HasTensor.sizes (h : HasTensor bs name e data) :
    Size.checkedProd e.dims = some e.dims.prod ∧ e.dims.prod * e.type.width < Size.limit ∧
      data.length = e.dims.prod * e.type.width := by
  obtain ⟨n, members, entries, hAccepted, hMem, -, rfl⟩ := h
  obtain ⟨hLe, hStop⟩ := hAccepted.bounds hMem
  obtain ⟨hProd, hLt, hCount⟩ := Entry.byteCount?_eq_some_iff.mp (hAccepted.sizes _ hMem)
  refine ⟨hProd, hLt, ?_⟩
  rw [hCount, List.length_take, List.length_drop]
  dsimp only
  omega

theorem HasTensor.dim_lt (h : HasTensor bs name e data) {m : Nat} (hm : m ∈ e.dims) :
    m < Size.limit := by
  obtain ⟨n, members, entries, hAccepted, hMem, -⟩ := h
  exact hAccepted.lists.dim_lt hMem hm

theorem HasTensor.length (h : HasTensor bs name e data) :
    data.length = Size.mul (Size.prod e.dims) e.type.width := by
  obtain ⟨hProd, hLt, hLength⟩ := h.sizes
  have hDims := (Size.checkedProd_eq_some_iff.mp hProd).2 e.dims.length
  rw [List.take_length] at hDims
  rw [hLength, Size.prod_eq hDims, Size.mul_eq hLt]

end Container

end LatentCache
