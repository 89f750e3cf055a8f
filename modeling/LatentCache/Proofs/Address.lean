import LatentCache.Address

/-!
# Addresses of chunks

The walk over a sequence yields, for every complete chunk, the address of the prefix that ends with
it. As long as no two of some prefixes have the same digest, different ones have different
addresses.
-/

namespace LatentCache

def chunkPrefix (size : Nat) (tokens : List Token) (chunk : Nat) : List Token :=
  tokens.take ((chunk + 1) * size)

def chunkAddress (size : Nat) (tokens : List Token) (chunk : Nat) : ContentAddress :=
  .ofTokens (chunkPrefix size tokens chunk)

/-- The prefixes of the complete chunks of a sequence from a chunk on. -/
def chunkPrefixes (size : Nat) (tokens : List Token) (first : Nat) : List (List Token) :=
  (List.range' first (tokens.length / size - first)).map (chunkPrefix size tokens)

theorem mem_chunkPrefixes {size first i : Nat} {tokens : List Token} (hFirst : first ≤ i)
    (hi : i < tokens.length / size) :
    chunkPrefix size tokens i ∈ chunkPrefixes size tokens first :=
  List.mem_map.mpr ⟨i, List.mem_range'_1.mpr (by omega), rfl⟩

theorem length_chunkPrefix {size i : Nat} {tokens : List Token}
    (hi : i < tokens.length / size) : (chunkPrefix size tokens i).length = (i + 1) * size := by
  rw [chunkPrefix, List.length_take, Nat.min_eq_left (Nat.mul_le_of_le_div _ _ _ hi)]

theorem chunkPrefix_injective {size i j : Nat} {tokens : List Token} (hSize : 0 < size)
    (hi : i < tokens.length / size) (hj : j < tokens.length / size)
    (h : chunkPrefix size tokens i = chunkPrefix size tokens j) : i = j := by
  have hLength := congrArg List.length h
  rw [length_chunkPrefix hi, length_chunkPrefix hj] at hLength
  exact Nat.succ_inj.mp (Nat.eq_of_mul_eq_mul_right hSize hLength)

theorem chunkPrefix_take {size count i : Nat} (tokens : List Token) (hi : i < count) :
    chunkPrefix size (tokens.take (count * size)) i = chunkPrefix size tokens i := by
  rw [chunkPrefix, List.take_take, Nat.min_eq_left (Nat.mul_le_mul_right size hi), chunkPrefix]

theorem chunkPrefix_congr {size n i : Nat} {tokens others : List Token}
    (h : tokens.take n = others.take n) (hi : i < n / size) :
    chunkPrefix size tokens i = chunkPrefix size others i := by
  have hEnd : (i + 1) * size ≤ n := Nat.mul_le_of_le_div _ _ _ hi
  have hTake := congrArg (List.take ((i + 1) * size)) h
  rw [List.take_take, List.take_take, Nat.min_eq_left hEnd] at hTake
  exact hTake

theorem Chunking.address_chunkPrefix (c : Chunking) {i : Nat} {tokens : List Token}
    (hi : i < tokens.length / c.size) :
    c.address (chunkPrefix c.size tokens i) = .ok (chunkAddress c.size tokens i) := by
  have hLength := length_chunkPrefix hi
  have hSome : ¬ (chunkPrefix c.size tokens i).isEmpty := by
    intro hNone
    rw [List.isEmpty_iff.mp hNone, List.length_nil] at hLength
    exact Nat.ne_of_lt (Nat.mul_pos (Nat.succ_pos i) c.size_pos) hLength
  have hAligned : ¬ (chunkPrefix c.size tokens i).length % c.size ≠ 0 := by
    rw [hLength]
    exact fun hNot => hNot (Nat.mul_mod_left _ _)
  rw [address, if_neg hSome, if_neg hAligned, chunkAddress]

/-! ## The walk -/

namespace PrefixAddresses

/-- A walk has read the tokens before its next chunk and has all others before it. -/
structure Reads (w : PrefixAddresses) (tokens : List Token) : Prop where
  rest : w.rest = tokens.drop (w.next * w.chunkSize)
  hasher : w.hasher =
    Sha256.Hasher.empty.update (tokenBytes (tokens.take (w.next * w.chunkSize)))

theorem Reads.advance_hasher {w : PrefixAddresses} {tokens : List Token} (h : w.Reads tokens) :
    w.advance.hasher =
      Sha256.Hasher.empty.update (tokenBytes (chunkPrefix w.chunkSize tokens w.next)) := by
  rw [advance, h.rest, h.hasher, ← Sha256.Hasher.update_append, chunkPrefix, Nat.succ_mul,
    List.take_add, tokenBytes, tokenBytes, tokenBytes, List.flatMap_append]

theorem Reads.advance {w : PrefixAddresses} {tokens : List Token} (h : w.Reads tokens) :
    w.advance.Reads tokens := by
  refine ⟨?_, h.advance_hasher⟩
  change w.rest.drop w.chunkSize = tokens.drop ((w.next + 1) * w.chunkSize)
  rw [h.rest, List.drop_drop, Nat.succ_mul]

theorem Reads.toList_eq {w : PrefixAddresses} {tokens : List Token} (h : w.Reads tokens) :
    w.toList = (List.range' w.next (w.total - w.next)).map
      fun i => (i, chunkAddress w.chunkSize tokens i) := by
  fun_induction toList w with
  | case1 w hMore ih =>
    obtain ⟨left, hLeft⟩ : ∃ left, w.total - w.next = left + 1 :=
      ⟨w.total - w.next - 1, by omega⟩
    have hAddress : (⟨w.advance.hasher.digest, Sha256.Hasher.length_digest _⟩ : ContentAddress) =
        chunkAddress w.chunkSize tokens w.next := by
      simp only [h.advance_hasher]
      rfl
    have hRest : w.advance.total - w.advance.next = left := by
      change w.total - (w.next + 1) = left
      omega
    rw [ih h.advance, hAddress, hLeft, hRest, List.range'_succ, List.map_cons]
    rfl
  | case2 w hDone => simp [Nat.sub_eq_zero_of_le (Nat.le_of_not_lt hDone)]

end PrefixAddresses

theorem Chunking.prefixAddresses_toList (c : Chunking) (tokens : List Token) (fromChunk : Nat) :
    (c.prefixAddresses tokens fromChunk).toList =
      (List.range' fromChunk (tokens.length / c.size - fromChunk)).map
        fun i => (i, chunkAddress c.size tokens i) := by
  have hReads : (c.prefixAddresses tokens fromChunk).Reads tokens := ⟨rfl, rfl⟩
  rw [hReads.toList_eq]
  change (List.range' (min fromChunk (tokens.length / c.size))
    (tokens.length / c.size - min fromChunk (tokens.length / c.size))).map _ = _
  rcases Nat.le_total fromChunk (tokens.length / c.size) with h | h
  · rw [Nat.min_eq_left h]
    rfl
  · rw [Nat.min_eq_right h, Nat.sub_self, Nat.sub_eq_zero_of_le h]
    rfl

/-! ## Collisions -/

theorem Token.bytes_injective {s t : Token} (h : s.bytes = t.bytes) : s = t := by
  have hNat := congrArg Bytes.toNat h
  rw [Token.bytes, Token.bytes, Bytes.toNat_ofNat, Bytes.toNat_ofNat,
    Nat.mod_eq_of_lt s.toNat_lt, Nat.mod_eq_of_lt t.toNat_lt] at hNat
  exact UInt32.toNat_inj.mp hNat

theorem length_tokenBytes (tokens : List Token) :
    (tokenBytes tokens).length = 4 * tokens.length := by
  induction tokens with
  | nil => rfl
  | cons t tokens ih =>
    rw [tokenBytes, List.flatMap_cons, List.length_append, Token.bytes, Bytes.length_ofNat]
    rw [tokenBytes] at ih
    rw [ih, List.length_cons]
    omega

theorem tokenBytes_injective {a b : List Token} (h : tokenBytes a = tokenBytes b) : a = b := by
  have hLength : a.length = b.length := by
    have hBytes := congrArg List.length h
    rw [length_tokenBytes, length_tokenBytes] at hBytes
    omega
  induction a generalizing b with
  | nil => exact (List.eq_nil_of_length_eq_zero hLength.symm).symm
  | cons s a ih =>
    cases b with
    | nil => cases hLength
    | cons t b =>
      simp only [tokenBytes, List.flatMap_cons] at h
      obtain ⟨hHead, hTail⟩ := List.append_inj h (by simp [Token.bytes])
      rw [Token.bytes_injective hHead, ih hTail (Nat.succ.inj hLength)]

/-- The byte streams of some prefixes have the same digest only if they are the same. -/
def CollisionFree (prefixes : List (List Token)) : Prop :=
  ∀ p ∈ prefixes, ∀ q ∈ prefixes,
    Sha256.digest (tokenBytes p) = Sha256.digest (tokenBytes q) → tokenBytes p = tokenBytes q

theorem CollisionFree.eq_of_address {prefixes : List (List Token)} (h : CollisionFree prefixes)
    {p q : List Token} (hp : p ∈ prefixes) (hq : q ∈ prefixes)
    (hAddress : ContentAddress.ofTokens p = .ofTokens q) : p = q :=
  tokenBytes_injective (h p hp q hq (congrArg ContentAddress.bytes hAddress))

end LatentCache
