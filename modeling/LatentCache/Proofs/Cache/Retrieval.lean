import LatentCache.Cache.Retrieve
import LatentCache.Proofs.Address
import LatentCache.Proofs.Latent.Sequence
import LatentCache.Proofs.Storage.Contents

/-!
# What a retrieval gives

A retrieval over a readable medium never fails. It covers the leading usable chunks, asks for each
of them and for the next one, and warns at most once.
-/

namespace LatentCache

/-- Among the indices below `total`, the first `count` ones have a property and the next one does
not. -/
structure LeadingCount (p : Nat → Prop) (total count : Nat) : Prop where
  le : count ≤ total
  holds : ∀ i < count, p i
  stops : count < total → ¬ p count

theorem LeadingCount.le_of {p : Nat → Prop} {total m n : Nat} (hm : LeadingCount p total m)
    (hn : LeadingCount p total n) : m ≤ n := by
  by_contra hLt
  have hStep : n < m := Nat.lt_of_not_le hLt
  exact hn.stops (hStep.trans_le hm.le) (hm.holds n hStep)

theorem LeadingCount.unique {p : Nat → Prop} {total m n : Nat} (hm : LeadingCount p total m)
    (hn : LeadingCount p total n) : m = n := Nat.le_antisymm (hm.le_of hn) (hn.le_of hm)

namespace Cache

variable {σ : Type} {m : Medium σ} {sound : σ → Prop}
  {contents : σ → ContentAddress → Option Bytes} {c : Cache} {tokens : List Token}

/-- The latent in the record of a chunk, if there is a record and it decodes. -/
def recordAt (c : Cache) (stored : ContentAddress → Option Bytes) (tokens : List Token)
    (i : Nat) : Option Latent :=
  (stored (chunkAddress c.chunkSize tokens i)).bind fun bytes => (c.codec.decode bytes).toOption

/-- The record of a chunk has the positions of one chunk and can follow that of the first one. -/
def UsableAt (c : Cache) (record : Nat → Option Latent) (i : Nat) : Prop :=
  ∃ x, record i = some x ∧ x.seqLen = c.chunkSize ∧
    (0 < i → ∃ first, record 0 = some first ∧ first.Compatible x)

/-- A retrieval covers the first `count` chunks with the latents of their records. -/
structure Covers (c : Cache) (record : Nat → Option Latent) (count : Nat) (r : Retrieved) :
    Prop where
  tokensCovered : r.tokensCovered = count * c.chunkSize
  absent : r.latent? = none ↔ count = 0
  present : 0 < count → ∃ parts x, parts.map some = (List.range count).map record ∧
    Latent.concat parts = .ok x ∧ r.latent? = some x ∧ x.seqLen = count * c.chunkSize

theorem recordAt_eq_some {stored : ContentAddress → Option Bytes} {i : Nat} {y : Latent}
    (h : c.recordAt stored tokens i = some y) :
    ∃ bytes, stored (chunkAddress c.chunkSize tokens i) = some bytes ∧
      c.codec.decode bytes = .ok y := by
  obtain ⟨bytes, hStored, hDecode⟩ := Option.bind_eq_some_iff.mp h
  cases hResult : c.codec.decode bytes with
  | error e =>
    rw [hResult] at hDecode
    cases hDecode
  | ok z =>
    rw [hResult] at hDecode
    cases hDecode
    exact ⟨bytes, hStored, hResult⟩

/-! ## Usable records -/

theorem seqLen_layout {layout : RecordLayout} (h : c.codec = .raw layout) :
    layout.shape.seqLen = c.chunkSize := by
  have hFits := c.fits
  rw [h, Codec.checkChunkSize] at hFits
  split at hFits
  · next hSize => exact hSize
  · cases hFits

theorem UsableAt.congr {before after : Nat → Option Latent} {i : Nat}
    (h : c.UsableAt before i) (hAt : after i = before i) (hFirst : after 0 = before 0) :
    c.UsableAt after i := by
  obtain ⟨y, hy, hLength, hRows⟩ := h
  refine ⟨y, hAt.trans hy, hLength, fun hPos => ?_⟩
  obtain ⟨first, hBefore, hCompatible⟩ := hRows hPos
  exact ⟨first, hFirst.trans hBefore, hCompatible⟩

theorem leadingCount_congr {before after : Nat → Option Latent} {total count : Nat}
    (h : LeadingCount (c.UsableAt before) total count) (hAt : ∀ i < total, after i = before i) :
    LeadingCount (c.UsableAt after) total count where
  le := h.le
  holds i hi := by
    have hLt := hi.trans_le h.le
    exact (h.holds i hi).congr (hAt i hLt) (hAt 0 (Nat.zero_lt_of_lt hLt))
  stops hLt hUsable := by
    have hPos := Nat.zero_lt_of_lt hLt
    exact h.stops hLt (hUsable.congr (hAt count hLt).symm (hAt 0 hPos).symm)

theorem Covers.congr {before after : Nat → Option Latent} {count : Nat} {r : Retrieved}
    (h : c.Covers before count r) (hAt : ∀ i < count, after i = before i) :
    c.Covers after count r where
  tokensCovered := h.tokensCovered
  absent := h.absent
  present hPos := by
    obtain ⟨parts, x, hParts, hRest⟩ := h.present hPos
    refine ⟨parts, x, hParts.trans ?_, hRest⟩
    exact List.map_congr_left fun i hi => (hAt i (List.mem_range.mp hi)).symm

theorem Covers.eq {record : Nat → Option Latent} {count : Nat} {r : Retrieved}
    (h : c.Covers record count r) (hPos : 0 < count) {parts : List Latent}
    (hParts : parts.map some = (List.range count).map record) {y : Latent}
    (hConcat : Latent.concat parts = .ok y) : r = ⟨some y, count * c.chunkSize⟩ := by
  obtain ⟨parts', z, hParts', hConcat', hLatent, -⟩ := h.present hPos
  rw [← hParts] at hParts'
  obtain rfl : parts' = parts := List.map_injective_iff.mpr (Option.some_injective _) hParts'
  rw [hConcat] at hConcat'
  cases hConcat'
  obtain ⟨latent?, tokensCovered⟩ := r
  obtain rfl : tokensCovered = _ := h.tokensCovered
  obtain rfl : latent? = _ := hLatent
  rfl

section Parts

variable {record : Nat → Option Latent} {count : Nat} {parts : List Latent}
  (hUsable : ∀ i < count, c.UsableAt record i)
  (hParts : parts.map some = (List.range count).map record)
include hUsable hParts

theorem usable_of_mem {first y : Latent} (hFirst : record 0 = some first) (hy : y ∈ parts) :
    y.seqLen = c.chunkSize ∧ first.Compatible y := by
  have hMem : some y ∈ parts.map some := List.mem_map.mpr ⟨y, hy, rfl⟩
  rw [hParts] at hMem
  obtain ⟨i, hi, hRecord⟩ := List.mem_map.mp hMem
  obtain ⟨z, hz, hLength, hRows⟩ := hUsable i (List.mem_range.mp hi)
  obtain rfl : z = y := Option.some.inj (hz.symm.trans hRecord)
  rcases Nat.eq_zero_or_pos i with rfl | hPos
  · obtain rfl : z = first := Option.some.inj (hz.symm.trans hFirst)
    exact ⟨hLength, .refl z⟩
  · obtain ⟨first', hFirst', hCompatible⟩ := hRows hPos
    obtain rfl : first' = first := Option.some.inj (hFirst'.symm.trans hFirst)
    exact ⟨hLength, hCompatible⟩

theorem concat_usable (hPos : 0 < count) :
    ∃ first y, record 0 = some first ∧ Latent.concat parts = .ok y ∧ first.Compatible y ∧
      (count * c.chunkSize < Size.limit → y.seqLen = count * c.chunkSize) := by
  obtain ⟨first, hFirst, -⟩ := hUsable 0 hPos
  have hMem := fun y => usable_of_mem (y := y) hUsable hParts hFirst
  have hLength : parts.length = count := by simpa using congrArg List.length hParts
  have hSum := Latent.sum_seqLen_of_forall fun y hy => (hMem y hy).1
  cases parts with
  | nil => exact absurd hPos (hLength ▸ Nat.lt_irrefl 0)
  | cons head others =>
    obtain rfl : head = first := by
      obtain ⟨n, rfl⟩ : ∃ n, count = n + 1 := ⟨count - 1, by omega⟩
      rw [List.range_succ_eq_map, List.map_cons, List.map_cons, hFirst] at hParts
      exact Option.some.inj (List.cons.inj hParts).1
    obtain ⟨y, hConcat, hRows, hTotal⟩ :=
      Latent.concat_isOk fun z hz => (hMem z (List.mem_cons_of_mem _ hz)).2
    rw [hSum, hLength] at hTotal
    exact ⟨head, y, hFirst, hConcat, hRows, hTotal⟩

end Parts

/-! ## The search -/

theorem usable_eq_ok_iff {first? : Option Latent} {bytes : Bytes} {x : Latent} :
    c.usable first? bytes = .ok x ↔ c.codec.decode bytes = .ok x ∧ x.seqLen = c.chunkSize ∧
      ∀ first, first? = some first → first.Compatible x := by
  rw [usable]
  cases c.codec.decode bytes with
  | error e => simp
  | ok y =>
    by_cases hLength : y.seqLen = c.chunkSize
    · cases first? with
      | none =>
        simp only [hLength, ne_eq, not_true_eq_false, if_false, Except.ok.injEq]
        constructor
        · rintro rfl
          exact ⟨rfl, hLength, fun first hFirst => by cases hFirst⟩
        · exact And.left
      | some first =>
        by_cases hRows : first.Compatible y
        · simp only [hLength, hRows, ne_eq, not_true_eq_false, if_false, if_true,
            Except.ok.injEq, Option.some.injEq]
          constructor
          · rintro rfl
            exact ⟨rfl, hLength, fun known hKnown => hKnown ▸ hRows⟩
          · exact And.left
        · simp only [hLength, hRows, ne_eq, not_true_eq_false, if_false, Except.ok.injEq,
            reduceCtorEq, false_iff]
          rintro ⟨rfl, -, hAll⟩
          exact hRows (hAll first rfl)
    · simp only [hLength, ne_eq, not_false_eq_true, if_true, Except.ok.injEq, reduceCtorEq,
        false_iff]
      rintro ⟨rfl, hSame, -⟩
      exact hLength hSame

section Find

variable {first? : Option Latent} {i : Nat} {key : ContentAddress} {s t : σ}

theorem find_failed {e : StorageError} (h : m.get key s = (.error e, t))
    (rest : List (Nat × ContentAddress)) :
    c.find m first? ((i, key) :: rest) s = (.error e, t) := by
  rw [find, h]

theorem find_missing (h : m.get key s = (.ok none, t)) (rest : List (Nat × ContentAddress)) :
    c.find m first? ((i, key) :: rest) s = (.ok ⟨[], true, []⟩, t) := by
  rw [find, h]

theorem find_unusable {bytes : Bytes} {fault : RecordFault}
    (h : m.get key s = (.ok (some bytes), t)) (hUsable : c.usable first? bytes = .error fault)
    (rest : List (Nat × ContentAddress)) :
    c.find m first? ((i, key) :: rest) s = (.ok ⟨[], true, [.unusableRecord i fault]⟩, t) := by
  rw [find, h]
  simp only [hUsable]

theorem find_usable {bytes : Bytes} {x : Latent} (h : m.get key s = (.ok (some bytes), t))
    (hUsable : c.usable first? bytes = .ok x) (rest : List (Nat × ContentAddress)) :
    c.find m first? ((i, key) :: rest) s =
      ((c.find m (first?.or (some x)) rest t).1.map fun found =>
          { found with latents := x :: found.latents },
        (c.find m (first?.or (some x)) rest t).2) := by
  rw [find, h]
  simp only [hUsable]
  rcases c.find m (first?.or (some x)) rest t with ⟨e | found, u⟩ <;> rfl

end Find

/-- What a search finds where every key has the given contents. -/
def found (c : Cache) (stored : ContentAddress → Option Bytes) :
    Option Latent → List (Nat × ContentAddress) → Found
  | _, [] => ⟨[], false, []⟩
  | first?, (chunk, key) :: rest =>
    match stored key with
    | none => ⟨[], true, []⟩
    | some bytes =>
      match c.usable first? bytes with
      | .error fault => ⟨[], true, [.unusableRecord chunk fault]⟩
      | .ok x =>
        let others := c.found stored (first?.or (some x)) rest
        { others with latents := x :: others.latents }

/-- A search asks for the chunks that it finds and for the next one. -/
theorem find_eq (h : m.Readable sound contents) (first? : Option Latent)
    (chunks : List (Nat × ContentAddress)) {s : σ} (hs : sound s) :
    c.find m first? chunks s =
      (.ok (c.found (contents s) first? chunks),
        m.afterGets ((chunks.take ((c.found (contents s) first? chunks).latents.length + 1)).map
          (·.2)) s) := by
  induction chunks generalizing first? s with
  | nil => rfl
  | cons chunk rest ih =>
    obtain ⟨i, key⟩ := chunk
    have hGet : m.get key s = (.ok (contents s key), (m.get key s).2) :=
      Prod.ext (h.get key s hs) rfl
    cases hStored : contents s key with
    | none =>
      rw [hStored] at hGet
      rw [find_missing hGet]
      simp [found, hStored, Medium.afterGets]
    | some bytes =>
      rw [hStored] at hGet
      cases hUsable : c.usable first? bytes with
      | error fault =>
        rw [find_unusable hGet hUsable]
        simp [found, hStored, hUsable, Medium.afterGets]
      | ok x =>
        have hRest := ih (first?.or (some x)) (h.sound_get key s hs)
        rw [h.contents_get key s hs] at hRest
        rw [find_usable hGet hUsable, hRest]
        simp [found, hStored, hUsable, Medium.afterGets, Except.map]

/-- What a search over the chunks from `first` on says about `n` of them. -/
structure Found.Explores (found : Found) (c : Cache) (stored : ContentAddress → Option Bytes)
    (tokens : List Token) (first n : Nat) : Prop where
  le : found.latents.length ≤ n
  latents : found.latents.map some =
    (List.range' first found.latents.length).map (c.recordAt stored tokens)
  usable : ∀ i, first ≤ i → i < first + found.latents.length →
    c.UsableAt (c.recordAt stored tokens) i
  stops : found.latents.length < n →
    ¬ c.UsableAt (c.recordAt stored tokens) (first + found.latents.length)
  missed : found.missed = true ↔ found.latents.length < n
  warns : found.latents.length < n →
    (stored (chunkAddress c.chunkSize tokens (first + found.latents.length))).isSome →
      ∃ fault, found.warnings = [.unusableRecord (first + found.latents.length) fault]
  silent : (found.latents.length < n →
    stored (chunkAddress c.chunkSize tokens (first + found.latents.length)) = none) →
      found.warnings = []

/-- A search at chunk `i` knows the latent of the first chunk unless it is there itself. -/
def KnowsFirst (record : Nat → Option Latent) (i : Nat) (first? : Option Latent) : Prop :=
  (i = 0 ∧ first? = none) ∨ (0 < i ∧ ∃ first, record 0 = some first ∧ first? = some first)

theorem usable_eq_ok_of_usableAt {stored : ContentAddress → Option Bytes} {tokens : List Token}
    {i : Nat} {first? : Option Latent} {bytes : Bytes} {x : Latent}
    (hKnows : KnowsFirst (c.recordAt stored tokens) i first?)
    (hStored : stored (chunkAddress c.chunkSize tokens i) = some bytes) :
    c.usable first? bytes = .ok x ↔
      c.UsableAt (c.recordAt stored tokens) i ∧ c.recordAt stored tokens i = some x := by
  have hRecord : c.recordAt stored tokens i = some x ↔ c.codec.decode bytes = .ok x := by
    rw [recordAt, hStored, Option.bind_some]
    cases c.codec.decode bytes <;> simp [Except.toOption]
  rw [usable_eq_ok_iff, ← hRecord]
  constructor
  · rintro ⟨hx, hLength, hRows⟩
    refine ⟨⟨x, hx, hLength, fun hPos => ?_⟩, hx⟩
    obtain ⟨rfl, -⟩ | ⟨-, first, hFirst, hKnown⟩ := hKnows
    · exact absurd hPos (Nat.lt_irrefl 0)
    · exact ⟨first, hFirst, hRows first hKnown⟩
  · rintro ⟨⟨y, hy, hLength, hRows⟩, hx⟩
    obtain rfl : y = x := Option.some.inj (hy.symm.trans hx)
    refine ⟨hx, hLength, fun first hKnown => ?_⟩
    obtain ⟨-, hNone⟩ | ⟨hPos, known, hFirst, hSome⟩ := hKnows
    · rw [hNone] at hKnown
      cases hKnown
    · obtain ⟨first', hFirst', hCompatible⟩ := hRows hPos
      rw [hSome] at hKnown
      cases hKnown
      rw [hFirst] at hFirst'
      cases hFirst'
      exact hCompatible

theorem KnowsFirst.next {record : Nat → Option Latent} {i : Nat} {first? : Option Latent}
    {x : Latent} (h : KnowsFirst record i first?) (hx : record i = some x) :
    KnowsFirst record (i + 1) (first?.or (some x)) := by
  refine .inr ⟨Nat.succ_pos i, ?_⟩
  obtain ⟨rfl, rfl⟩ | ⟨-, first, hFirst, rfl⟩ := h
  · exact ⟨x, hx, rfl⟩
  · exact ⟨first, hFirst, rfl⟩

section Explores

variable {stored : ContentAddress → Option Bytes} {tokens : List Token} {first n : Nat}

theorem explores_end {warnings : List Warning}
    (hUsable : ¬ c.UsableAt (c.recordAt stored tokens) first)
    (hWarns : (stored (chunkAddress c.chunkSize tokens first)).isSome →
      ∃ fault, warnings = [.unusableRecord first fault])
    (hSilent : stored (chunkAddress c.chunkSize tokens first) = none → warnings = []) :
    Found.Explores ⟨[], true, warnings⟩ c stored tokens first (n + 1) where
  le := Nat.zero_le _
  latents := rfl
  usable _ hFrom hTo := absurd hTo (Nat.not_lt_of_le hFrom)
  stops _ := hUsable
  missed := ⟨fun _ => Nat.succ_pos n, fun _ => rfl⟩
  warns _ := hWarns
  silent h := hSilent (h (Nat.succ_pos n))

theorem Found.Explores.cons {found : Found} {x : Latent}
    (h : found.Explores c stored tokens (first + 1) n)
    (hUsable : c.UsableAt (c.recordAt stored tokens) first)
    (hx : c.recordAt stored tokens first = some x) :
    Found.Explores { found with latents := x :: found.latents } c stored tokens first (n + 1) := by
  have hNext : first + (x :: found.latents).length = first + 1 + found.latents.length := by
    rw [List.length_cons]
    omega
  have hMore : (x :: found.latents).length < n + 1 ↔ found.latents.length < n := by
    rw [List.length_cons]
    omega
  constructor
  · exact Nat.succ_le_succ h.le
  · rw [List.map_cons, h.latents, List.length_cons, List.range'_succ, List.map_cons, hx]
  · intro i hFrom hTo
    dsimp only at hTo
    rw [hNext] at hTo
    rcases Nat.eq_or_lt_of_le hFrom with rfl | hFrom
    · exact hUsable
    · exact h.usable i hFrom hTo
  · dsimp only
    rw [hNext, hMore]
    exact h.stops
  · dsimp only
    rw [hMore]
    exact h.missed
  · dsimp only
    rw [hNext, hMore]
    exact h.warns
  · dsimp only
    rw [hNext, hMore]
    exact h.silent

theorem found_explores (c : Cache) (stored : ContentAddress → Option Bytes) (tokens : List Token)
    {first : Nat} {first? : Option Latent} (n : Nat)
    (hKnows : KnowsFirst (c.recordAt stored tokens) first first?) :
    (c.found stored first? ((List.range' first n).map
      fun i => (i, chunkAddress c.chunkSize tokens i))).Explores c stored tokens first n := by
  induction n generalizing first first? with
  | zero =>
    constructor <;> simp [found]
    omega
  | succ n ih =>
    rw [List.range'_succ, List.map_cons, found]
    cases hStored : stored (chunkAddress c.chunkSize tokens first) with
    | none =>
      refine explores_end ?_ (fun hSome => ?_) fun _ => rfl
      · rintro ⟨x, hx, -⟩
        rw [recordAt, hStored] at hx
        cases hx
      · rw [hStored] at hSome
        cases hSome
    | some bytes =>
      have hIff := fun x => usable_eq_ok_of_usableAt (x := x) hKnows hStored
      cases hUsable : c.usable first? bytes with
      | error fault =>
        dsimp only
        rw [hUsable]
        refine explores_end ?_ (fun _ => ⟨fault, rfl⟩) fun hNone => ?_
        · rintro ⟨x, hx, hRest⟩
          have hOk := (hIff x).mpr ⟨⟨x, hx, hRest⟩, hx⟩
          rw [hUsable] at hOk
          cases hOk
        · rw [hStored] at hNone
          cases hNone
      | ok x =>
        obtain ⟨hAt, hx⟩ := (hIff x).mp hUsable
        dsimp only
        rw [hUsable]
        exact (ih (hKnows.next hx)).cons hAt hx

theorem Found.Explores.leadingCount {found : Found} (h : found.Explores c stored tokens 0 n) :
    LeadingCount (c.UsableAt (c.recordAt stored tokens)) n found.latents.length where
  le := h.le
  holds i hi := h.usable i (Nat.zero_le i) (by omega)
  stops hLt := by simpa using h.stops hLt

end Explores

/-! ## The answer -/

def answer (c : Cache) (found : Found) : Except CacheError Retrieved :=
  if found.latents.isEmpty then .ok ⟨none, 0⟩
  else
    match Latent.concat found.latents with
    | .error error => .error (.latent error)
    | .ok x => .ok ⟨some x, found.latents.length * c.chunkSize⟩

theorem retrieve_failed {tokens : List Token} {s : Session σ} {e : StorageError} {t : σ}
    (h : c.find m none (c.chunks tokens) s.storage = (.error e, t)) :
    c.retrieve m tokens s = (.error (.storage e), { s with storage := t }) := by
  rw [retrieve, h]

theorem retrieve_found {tokens : List Token} {s : Session σ} {found : Found} {t : σ}
    (h : c.find m none (c.chunks tokens) s.storage = (.ok found, t)) :
    c.retrieve m tokens s = (c.answer found, c.countRetrieve found { s with storage := t }) := by
  rw [retrieve, h, answer]
  by_cases hNone : found.latents.isEmpty
  · simp only [hNone, if_true]
  · simp only [hNone, Bool.false_eq_true, if_false]
    cases Latent.concat found.latents <;> rfl

theorem tokensCovered_of_answer {found : Found} {r : Retrieved} (h : c.answer found = .ok r) :
    r.tokensCovered = found.latents.length * c.chunkSize := by
  rw [answer] at h
  split at h
  · next hNone =>
    cases h
    rw [List.isEmpty_iff.mp hNone, List.length_nil, Nat.zero_mul]
  · split at h
    · cases h
    · cases h
      rfl

theorem retrieve_eq_ok {tokens : List Token} {s t : Session σ} {r : Retrieved}
    (h : c.retrieve m tokens s = (.ok r, t)) :
    ∃ found u, c.find m none (c.chunks tokens) s.storage = (.ok found, u) ∧
      r.tokensCovered = found.latents.length * c.chunkSize ∧
      t = c.countRetrieve found { s with storage := u } := by
  rcases hFind : c.find m none (c.chunks tokens) s.storage with ⟨e | found, u⟩
  · rw [retrieve_failed hFind] at h
    cases h
  · rw [retrieve_found hFind] at h
    obtain ⟨hAnswer, rfl⟩ := Prod.mk.inj h
    exact ⟨found, u, rfl, tokensCovered_of_answer hAnswer, rfl⟩

theorem chunks_eq (c : Cache) (tokens : List Token) :
    c.chunks tokens = (List.range' 0 (tokens.length / c.chunkSize)).map
      fun i => (i, chunkAddress c.chunkSize tokens i) :=
  c.chunking.prefixAddresses_toList tokens 0

def search (c : Cache) (stored : ContentAddress → Option Bytes) (tokens : List Token) : Found :=
  c.found stored none (c.chunks tokens)

def searched (c : Cache) (stored : ContentAddress → Option Bytes) (tokens : List Token) :
    List ContentAddress :=
  ((c.chunks tokens).take ((c.search stored tokens).latents.length + 1)).map (·.2)

theorem search_explores (c : Cache) (stored : ContentAddress → Option Bytes)
    (tokens : List Token) :
    (c.search stored tokens).Explores c stored tokens 0 (tokens.length / c.chunkSize) := by
  rw [search, chunks_eq]
  exact found_explores c stored tokens _ (.inl ⟨rfl, rfl⟩)

theorem searched_eq (c : Cache) (stored : ContentAddress → Option Bytes) (tokens : List Token) :
    c.searched stored tokens =
      (List.range (min ((c.search stored tokens).latents.length + 1)
        (tokens.length / c.chunkSize))).map (chunkAddress c.chunkSize tokens) := by
  rw [searched, chunks_eq, ← List.map_take, List.map_map, ← List.range_eq_range',
    List.take_range]
  rfl

theorem retrieve_spec (h : m.Readable sound contents) (c : Cache) (tokens : List Token)
    (hLength : tokens.length < Size.limit) {s : Session σ} (hs : sound s.storage) :
    ∃ r, c.retrieve m tokens s = (.ok r, c.countRetrieve (c.search (contents s.storage) tokens)
        { s with storage := m.afterGets (c.searched (contents s.storage) tokens) s.storage }) ∧
      c.Covers (c.recordAt (contents s.storage) tokens)
        (c.search (contents s.storage) tokens).latents.length r := by
  have hExplores := c.search_explores (contents s.storage) tokens
  have hFind := find_eq (c := c) h none (c.chunks tokens) hs
  rw [← search, ← searched] at hFind
  rw [retrieve_found hFind, answer]
  by_cases hNone : (c.search (contents s.storage) tokens).latents = []
  · refine ⟨_, by rw [if_pos (List.isEmpty_iff.mpr hNone)], ?_⟩
    rw [hNone]
    exact ⟨by simp, by simp, fun hPos => absurd hPos (Nat.lt_irrefl 0)⟩
  · have hParts := hExplores.latents
    rw [← List.range_eq_range'] at hParts
    obtain ⟨-, x, -, hConcat, -, hSum⟩ :=
      concat_usable hExplores.leadingCount.holds hParts (List.length_pos_iff.mpr hNone)
    refine ⟨_, by rw [if_neg (by simpa using hNone), hConcat], ?_⟩
    refine ⟨rfl, by simpa using hNone, fun _ => ⟨_, x, hParts, hConcat, rfl, hSum ?_⟩⟩
    exact ((Nat.mul_le_mul_right _ hExplores.le).trans (Nat.div_mul_le_self _ _)).trans_lt hLength

theorem retrieve_covers_leading (h : m.Readable sound contents)
    (hLength : tokens.length < Size.limit) {s : Session σ} (hs : sound s.storage) {count : Nat}
    (hCount : LeadingCount (c.UsableAt (c.recordAt (contents s.storage) tokens))
      (tokens.length / c.chunkSize) count) :
    ∃ r t, c.retrieve m tokens s = (.ok r, t) ∧
      c.Covers (c.recordAt (contents s.storage) tokens) count r := by
  obtain ⟨r, hRetrieve, hCovers⟩ := retrieve_spec h c tokens hLength hs
  have hLeading := (c.search_explores (contents s.storage) tokens).leadingCount
  rw [← hCount.unique hLeading] at hCovers
  exact ⟨r, _, hRetrieve, hCovers⟩

theorem retrieve_of_leading (h : m.Readable sound contents) (hLength : tokens.length < Size.limit)
    {s : Session σ} (hs : sound s.storage) {count : Nat}
    (hCount : LeadingCount (c.UsableAt (c.recordAt (contents s.storage) tokens))
      (tokens.length / c.chunkSize) count) (hPos : 0 < count) {parts : List Latent}
    (hParts : parts.map some = (List.range count).map (c.recordAt (contents s.storage) tokens))
    {y : Latent} (hConcat : Latent.concat parts = .ok y) :
    ∃ t, c.retrieve m tokens s = (.ok ⟨some y, count * c.chunkSize⟩, t) := by
  obtain ⟨r, t, hRetrieve, hCovers⟩ := retrieve_covers_leading h hLength hs hCount
  rw [hCovers.eq hPos hParts hConcat] at hRetrieve
  exact ⟨t, hRetrieve⟩

theorem leading_of_retrieve (h : m.Readable sound contents) (hLength : tokens.length < Size.limit)
    {s t : Session σ} (hs : sound s.storage) {y : Latent} {covered : Nat}
    (hRetrieve : c.retrieve m tokens s = (.ok ⟨some y, covered⟩, t)) :
    ∃ count parts, covered = count * c.chunkSize ∧ 0 < count ∧
      LeadingCount (c.UsableAt (c.recordAt (contents s.storage) tokens))
        (tokens.length / c.chunkSize) count ∧
      parts.map some = (List.range count).map (c.recordAt (contents s.storage) tokens) ∧
      Latent.concat parts = .ok y := by
  obtain ⟨r, hRetrieve', hCovers⟩ := retrieve_spec h c tokens hLength hs
  rw [hRetrieve] at hRetrieve'
  cases hRetrieve'
  have hPos : 0 < (c.search (contents s.storage) tokens).latents.length := by
    by_contra hZero
    have hNone := hCovers.absent.mpr (Nat.eq_zero_of_not_pos hZero)
    cases hNone
  obtain ⟨parts, z, hParts, hConcat, hLatent, -⟩ := hCovers.present hPos
  cases hLatent
  exact ⟨_, parts, hCovers.tokensCovered, hPos,
    (c.search_explores (contents s.storage) tokens).leadingCount, hParts, hConcat⟩

end Cache

end LatentCache
