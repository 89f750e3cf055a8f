import LatentCache.Proofs.Address

/-!
# What equal addresses say

An address carries neither the length of its prefix nor the size of the chunks, and the words of
a prefix are hashed without separators. Nevertheless two prefixes of any lengths share an address
only if they are the same or their byte streams are a collision of the digest.
-/

namespace LatentCache

/-- Two byte strings that differ and have the same digest. -/
def Sha256.Collide (a b : Bytes) : Prop := a ≠ b ∧ digest a = digest b

theorem Sha256.digest_eq_iff {a b : Bytes} : digest a = digest b ↔ a = b ∨ Collide a b := by
  constructor
  · intro h
    rcases Decidable.em (a = b) with hSame | hNot
    · exact .inl hSame
    · exact .inr ⟨hNot, h⟩
  · rintro (rfl | ⟨-, h⟩)
    · rfl
    · exact h

theorem collisionFree_iff {prefixes : List (List Token)} :
    CollisionFree prefixes ↔
      ∀ p ∈ prefixes, ∀ q ∈ prefixes, ¬ Sha256.Collide (tokenBytes p) (tokenBytes q) := by
  refine forall₂_congr fun p _ => forall₂_congr fun q _ => ?_
  rw [Sha256.Collide, not_and', Decidable.not_not]

namespace ContentAddress

theorem ofTokens_eq_iff {a b : List Token} :
    ofTokens a = ofTokens b ↔ a = b ∨ Sha256.Collide (tokenBytes a) (tokenBytes b) := by
  have hBytes : tokenBytes a = tokenBytes b ↔ a = b :=
    ⟨tokenBytes_injective, congrArg tokenBytes⟩
  rw [← hBytes, ← Sha256.digest_eq_iff, ofTokens, ofTokens, mk.injEq]

theorem toHex_eq_iff {x y : ContentAddress} : x.toHex = y.toHex ↔ x = y :=
  ⟨toHex_injective, congrArg toHex⟩

end ContentAddress

namespace Chunking

variable {c : Chunking} {tokens : List Token} {first i : Nat} {x : ContentAddress}

theorem mem_prefixAddresses :
    (i, x) ∈ (c.prefixAddresses tokens first).toList ↔
      first ≤ i ∧ i < tokens.length / c.size ∧
        ContentAddress.ofTokens (tokens.take ((i + 1) * c.size)) = x := by
  have hRange : i ∈ List.range' first (tokens.length / c.size - first) ↔
      first ≤ i ∧ i < tokens.length / c.size := by
    rw [List.mem_range'_1]
    omega
  rw [prefixAddresses_toList, List.mem_map, ← and_assoc, ← hRange]
  constructor
  · rintro ⟨j, hj, hItem⟩
    cases hItem
    exact ⟨hj, rfl⟩
  · rintro ⟨hi, rfl⟩
    exact ⟨i, hi, rfl⟩

theorem end_le_of_mem (h : (i, x) ∈ (c.prefixAddresses tokens first).toList) :
    (i + 1) * c.size ≤ tokens.length :=
  Nat.mul_le_of_le_div _ _ _ (mem_prefixAddresses.mp h).2.1

theorem eq_ofTokens_of_mem (h : (i, x) ∈ (c.prefixAddresses tokens first).toList) :
    x = .ofTokens (tokens.take ((i + 1) * c.size)) :=
  (mem_prefixAddresses.mp h).2.2.symm

end Chunking

/-- Equal addresses mean equal prefixes or a collision of their byte streams, whatever the lengths
of the prefixes, and for chunks whatever their sizes, their numbers and the starts of the walks.
Equal keys mean equal addresses. -/
theorem ContentAddress.unique_up_to_collision :
    (∀ a b : List Token, ofTokens a = ofTokens b ↔
      a = b ∨ Sha256.Collide (tokenBytes a) (tokenBytes b)) ∧
    (∀ (c d : Chunking) (tokens others : List Token) (first second i j : Nat)
        (x y : ContentAddress),
      (i, x) ∈ (c.prefixAddresses tokens first).toList →
      (j, y) ∈ (d.prefixAddresses others second).toList →
        (i + 1) * c.size ≤ tokens.length ∧ (j + 1) * d.size ≤ others.length ∧
        (x = y ↔ tokens.take ((i + 1) * c.size) = others.take ((j + 1) * d.size) ∨
          Sha256.Collide (tokenBytes (tokens.take ((i + 1) * c.size)))
            (tokenBytes (others.take ((j + 1) * d.size))))) ∧
    ∀ x y : ContentAddress, x.toHex = y.toHex ↔ x = y := by
  refine ⟨fun _ _ => ofTokens_eq_iff, ?_, fun _ _ => toHex_eq_iff⟩
  intro c d tokens others first second i j x y hx hy
  refine ⟨Chunking.end_le_of_mem hx, Chunking.end_le_of_mem hy, ?_⟩
  rw [Chunking.eq_ofTokens_of_mem hx, Chunking.eq_ofTokens_of_mem hy, ofTokens_eq_iff]

theorem ContentAddress.unique_across_chunk_sizes :
    let pairs : Chunking := ⟨2, by decide⟩
    let singles : Chunking := ⟨1, by decide⟩
    let tokens : List Token := [5, 6, 7]
    let others : List Token := [5, 6]
    let x := ofTokens [5, 6]
    (0, x) ∈ (pairs.prefixAddresses tokens 0).toList ∧
      (1, x) ∈ (singles.prefixAddresses others 1).toList ∧
      (tokens.take ((0 + 1) * pairs.size) = others.take ((1 + 1) * singles.size) ∨
        Sha256.Collide (tokenBytes (tokens.take ((0 + 1) * pairs.size)))
          (tokenBytes (others.take ((1 + 1) * singles.size)))) := by
  intro pairs singles tokens others x
  have hPair : (0, x) ∈ (pairs.prefixAddresses tokens 0).toList :=
    Chunking.mem_prefixAddresses.mpr ⟨Nat.le_refl 0, by decide, rfl⟩
  have hSingle : (1, x) ∈ (singles.prefixAddresses others 1).toList :=
    Chunking.mem_prefixAddresses.mpr ⟨Nat.le_refl 1, by decide, rfl⟩
  obtain ⟨-, hChunks, -⟩ := unique_up_to_collision
  obtain ⟨-, -, hEqual⟩ := hChunks pairs singles tokens others 0 1 0 1 x x hPair hSingle
  exact ⟨hPair, hSingle, hEqual.mp rfl⟩

end LatentCache
