import LatentCache.Proofs.Address
import LatentCache.Size
import Mathlib.Data.List.Basic
import Mathlib.Data.Option.Basic

/-!
# Calling a walk

A walk over the chunks of a sequence may be called any number of times. It answers with one chunk
after the other, each under the address that its prefix has by itself, and with nothing once all
chunks are passed. How many chunks are still to come is known after every call.
-/

namespace LatentCache

namespace PrefixAddresses

/-- One call: what it answers, and the walk after it. A walk that is over stays as it is. -/
def call (w : PrefixAddresses) : Option (Nat × ContentAddress) × PrefixAddresses :=
  match w.next? with
  | some (item, rest) => (some item, rest)
  | none => (none, w)

/-- The answers of some calls one after another, and the walk after them. -/
def calls : Nat → PrefixAddresses → List (Option (Nat × ContentAddress)) × PrefixAddresses
  | 0, w => ([], w)
  | count + 1, w =>
    let (answer, w) := w.call
    let (answers, w) := calls count w
    (answer :: answers, w)

/-- The positions of the tokens that the next call reads, in machine sizes. -/
def span (w : PrefixAddresses) : Nat × Nat :=
  (Size.mul w.next w.chunkSize, Size.mul (Size.add w.next 1) w.chunkSize)

/-! ## A walk as the list of its items -/

variable {w : PrefixAddresses}

theorem call_of_lt (h : w.next < w.total) :
    ∃ item, w.call = (some item, w.advance) ∧ w.toList = item :: w.advance.toList := by
  refine ⟨_, ?_, by rw [toList, dif_pos h]⟩
  rw [call, next?, if_pos h]

theorem call_of_le (h : w.total ≤ w.next) : w.call = (none, w) ∧ w.toList = [] := by
  constructor
  · rw [call, next?, if_neg (Nat.not_lt_of_le h)]
  · rw [toList, dif_neg (Nat.not_lt_of_le h)]

theorem head?_toList (w : PrefixAddresses) : w.toList.head? = w.call.1 := by
  rcases Nat.lt_or_ge w.next w.total with hMore | hOver
  · obtain ⟨item, hCall, hList⟩ := call_of_lt hMore
    rw [hCall, hList, List.head?_cons]
  · obtain ⟨hCall, hList⟩ := call_of_le hOver
    rw [hCall, hList, List.head?_nil]

theorem tail_toList (w : PrefixAddresses) : w.toList.tail = w.call.2.toList := by
  rcases Nat.lt_or_ge w.next w.total with hMore | hOver
  · obtain ⟨item, hCall, hList⟩ := call_of_lt hMore
    rw [hCall, hList, List.tail_cons]
  · obtain ⟨hCall, hList⟩ := call_of_le hOver
    rw [hCall, hList, List.tail_nil]

theorem length_toList (w : PrefixAddresses) : w.toList.length = w.remaining := by
  fun_induction toList w with
  | case1 w hMore ih =>
    rw [List.length_cons, ih]
    simp only [remaining, advance]
    omega
  | case2 w hOver =>
    simp only [remaining, List.length_nil]
    omega

theorem calls_answers (w : PrefixAddresses) (count : Nat) :
    (w.calls count).1 = (List.range count).map (w.toList[·]?) := by
  induction count generalizing w with
  | zero => rfl
  | succ count ih =>
    change w.call.1 :: (w.call.2.calls count).1 = _
    rw [ih, ← tail_toList, ← head?_toList, List.head?_eq_getElem?, List.range_succ_eq_map,
      List.map_cons, List.map_map]
    simp [Function.comp_def]

theorem toList_calls (w : PrefixAddresses) (count : Nat) :
    (w.calls count).2.toList = w.toList.drop count := by
  induction count generalizing w with
  | zero => rfl
  | succ count ih =>
    change (w.call.2.calls count).2.toList = _
    rw [ih, ← tail_toList, List.drop_tail]

/-! ## Where a walk stands -/

/-- A walk over the chunks of a sequence that has not gone beyond the last one. -/
structure Follows (w : PrefixAddresses) (size : Nat) (tokens : List Token) : Prop where
  chunkSize : w.chunkSize = size
  total : w.total = tokens.length / size
  next_le : w.next ≤ w.total
  reads : w.Reads tokens

variable {size : Nat} {tokens : List Token}

theorem Follows.call (h : w.Follows size tokens) : w.call.2.Follows size tokens := by
  rcases Nat.lt_or_ge w.next w.total with hMore | hOver
  · obtain ⟨item, hCall, -⟩ := call_of_lt hMore
    rw [hCall]
    exact ⟨h.chunkSize, h.total, hMore, h.reads.advance⟩
  · rw [(call_of_le hOver).1]
    exact h

theorem Follows.calls (h : w.Follows size tokens) (count : Nat) :
    (w.calls count).2.Follows size tokens := by
  induction count generalizing w with
  | zero => exact h
  | succ count ih => exact ih h.call

theorem Follows.stop_le (h : w.Follows size tokens) (hMore : w.next < w.total) :
    (w.next + 1) * size ≤ tokens.length := by
  rw [h.total] at hMore
  exact Nat.mul_le_of_le_div _ _ _ hMore

/-- What a call reads lies within the sequence, and no bound of it is reduced. -/
theorem Follows.span_eq (h : w.Follows size tokens) (hSize : 0 < size)
    (hLength : tokens.length < Size.limit) (hMore : w.next < w.total) :
    w.span = (w.next * size, (w.next + 1) * size) := by
  have hStop := h.stop_le hMore
  have hNext : w.next + 1 ≤ (w.next + 1) * size := Nat.le_mul_of_pos_right _ hSize
  have hStart : w.next * size ≤ (w.next + 1) * size := Nat.mul_le_mul_right _ (Nat.le_succ _)
  rw [span, h.chunkSize, Size.add_eq (by omega), Size.mul_eq (by omega), Size.mul_eq (by omega)]

theorem Follows.read_eq (h : w.Follows size tokens) :
    w.rest.take w.chunkSize = (tokens.drop (w.next * size)).take size := by
  rw [h.reads.rest, h.chunkSize]

end PrefixAddresses

namespace Chunking

/-- The complete chunks of a sequence from a chunk on, and what addressing their prefixes gives. -/
def directAddresses (c : Chunking) (tokens : List Token) (fromChunk : Nat) :
    List (Nat × Except AddressError ContentAddress) :=
  let total := tokens.length / c.size
  let first := min fromChunk total
  (List.range' first (total - first)).map fun i => (i, c.address (tokens.take ((i + 1) * c.size)))

theorem follows_prefixAddresses (c : Chunking) (tokens : List Token) (fromChunk : Nat) :
    (c.prefixAddresses tokens fromChunk).Follows c.size tokens :=
  ⟨rfl, rfl, Nat.min_le_right _ _, rfl, rfl⟩

theorem directAddresses_eq (c : Chunking) (tokens : List Token) (fromChunk : Nat) :
    c.directAddresses tokens fromChunk =
      (c.prefixAddresses tokens fromChunk).toList.map fun item => (item.1, .ok item.2) := by
  rw [(c.follows_prefixAddresses tokens fromChunk).reads.toList_eq, List.map_map]
  apply List.map_congr_left
  intro i hi
  have hLt : i < tokens.length / c.size := by
    have hRange := List.mem_range'_1.mp hi
    omega
  exact congrArg (Prod.mk i) (c.address_chunkPrefix hLt)

/-- What `count` calls of a walk from `fromChunk` on answer, and the walk after them. -/
structure Walks (c : Chunking) (tokens : List Token) (fromChunk count : Nat)
    (answers : List (Option (Nat × ContentAddress))) (w : PrefixAddresses) : Prop where
  answers : answers.map (Option.map fun item => (item.1, .ok item.2)) =
    (List.range count).map ((c.directAddresses tokens fromChunk)[·]?)
  toCome : w.toList.map (fun item => (item.1, .ok item.2)) =
    (c.directAddresses tokens fromChunk).drop count
  remaining : w.remaining = ((c.directAddresses tokens fromChunk).drop count).length
  -- The numbers are exact ones, and whatever is read lies within the sequence.
  next_le : w.next ≤ w.total
  read : w.next < w.total →
    w.span = (w.next * c.size, (w.next + 1) * c.size) ∧ (w.next + 1) * c.size ≤ tokens.length ∧
      w.rest.take w.chunkSize = (tokens.drop w.span.1).take (w.span.2 - w.span.1)
  skipped : Size.mul (min fromChunk (tokens.length / c.size)) c.size =
      min fromChunk (tokens.length / c.size) * c.size ∧
    min fromChunk (tokens.length / c.size) * c.size ≤ tokens.length

/-- However often a walk is called, it answers with the chunks from `fromChunk` on in their order,
each under the address of its prefix, and with nothing after the last one; and it knows how many
are still to come. -/
theorem walks_directly (c : Chunking) (tokens : List Token) (hLength : tokens.length < Size.limit)
    (fromChunk count : Nat) :
    c.Walks tokens fromChunk count ((c.prefixAddresses tokens fromChunk).calls count).1
      ((c.prefixAddresses tokens fromChunk).calls count).2 := by
  have hFollows := (c.follows_prefixAddresses tokens fromChunk).calls count
  have hToCome := (c.prefixAddresses tokens fromChunk).toList_calls count
  constructor
  case answers =>
    rw [PrefixAddresses.calls_answers, List.map_map, directAddresses_eq]
    simp [Function.comp_def]
  case toCome => rw [hToCome, List.map_drop, ← directAddresses_eq]
  case remaining =>
    rw [← PrefixAddresses.length_toList, hToCome, directAddresses_eq, List.length_drop,
      List.length_drop, List.length_map]
  case next_le => exact hFollows.next_le
  case read =>
    intro hMore
    have hSpan := hFollows.span_eq c.size_pos hLength hMore
    refine ⟨hSpan, hFollows.stop_le hMore, ?_⟩
    rw [hSpan, hFollows.read_eq, ← Nat.sub_mul, Nat.add_sub_cancel_left, Nat.one_mul]
  case skipped =>
    have hStart : min fromChunk (tokens.length / c.size) * c.size ≤ tokens.length :=
      Nat.le_trans (Nat.mul_le_mul_right _ (Nat.min_le_right _ _)) (Nat.div_mul_le_self _ _)
    exact ⟨Size.mul_eq (Nat.lt_of_le_of_lt hStart hLength), hStart⟩

theorem walks_second_pair :
    let pairs : Chunking := ⟨2, by decide⟩
    ((pairs.prefixAddresses [5, 6, 7, 8, 9] 1).calls 3).1 =
        [some (1, .ofTokens [5, 6, 7, 8]), none, none] ∧
      ((pairs.prefixAddresses [5, 6, 7, 8, 9] 1).calls 0).2.remaining = 1 := by
  intro pairs
  have hDirect : pairs.directAddresses [5, 6, 7, 8, 9] 1 =
      [(1, .ok (.ofTokens [5, 6, 7, 8]))] := by
    simp [pairs, directAddresses, address]
  have hWalks := walks_directly pairs [5, 6, 7, 8, 9] (by decide) 1
  constructor
  · have hAnswers := (hWalks 3).answers
    rw [hDirect] at hAnswers
    have hInjective : Function.Injective fun item : Nat × ContentAddress =>
        (item.1, (Except.ok item.2 : Except AddressError ContentAddress)) := by
      rintro ⟨i, a⟩ ⟨j, b⟩ hSame
      cases hSame
      rfl
    exact List.map_injective_iff.mpr (Option.map_injective hInjective) hAnswers
  · rw [(hWalks 0).remaining, hDirect]
    rfl

end Chunking

end LatentCache
