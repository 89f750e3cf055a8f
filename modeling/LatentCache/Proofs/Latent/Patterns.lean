import LatentCache.Proofs.Bytes
import LatentCache.Proofs.Record.RoundTrip

/-!
# Bit patterns

An element is kept as the bytes of its bit pattern, lowest byte first. Writing patterns and reading
them again gives the same patterns, whatever numbers they stand for, and the data of a latent are
those of the patterns that are read from it.
-/

namespace LatentCache

def ElementType.IsPattern (type : ElementType) (bits : Nat) : Prop := bits < 256 ^ type.width

namespace Latent

variable {type : ElementType} {shape : Shape}

theorem elementCount_of_prod_lt (hSize : shape.toList.prod * type.width < Size.limit) :
    shape.elementCount = shape.toList.prod :=
  Size.prod_eq ((Nat.le_mul_of_pos_right _ type.width_pos).trans_lt hSize)

theorem ofElements_eq (hSize : shape.toList.prod * type.width < Size.limit) (bits : List Nat) :
    ofElements type shape.toList bits =
      if bits.length = shape.toList.prod then
        .ok ⟨type, shape, bits.flatMap (Bytes.ofNat type.width)⟩
      else .error (.elementCount shape.toList.prod bits.length) := by
  rw [ofElements, Shape.ofList?_toList]
  dsimp only
  rw [elementCount_of_prod_lt hSize]

theorem wellFormed_iff_of_prod_lt {x : Latent}
    (hSize : x.shape.toList.prod * x.type.width < Size.limit) :
    x.WellFormed ↔ x.data.length = x.shape.toList.prod * x.type.width := by
  rw [WellFormed, elementCount, elementCount_of_prod_lt hSize, Size.mul_eq hSize]

theorem elements_self (x : Latent) :
    x.elements x.type = .ok ((Bytes.groups x.type.width x.data).map Bytes.toNat) := if_pos rfl

theorem elements_other {x : Latent} {other : ElementType} (h : other ≠ x.type) :
    x.elements other = .error (.typeMismatch other x.type) := if_neg h.symm

section Exact

variable (hSize : shape.toList.prod * type.width < Size.limit) {bits : List Nat}
include hSize

theorem exists_of_patterns (hBits : ∀ b ∈ bits, type.IsPattern b)
    (hCount : bits.length = shape.toList.prod) :
    ∃ x, ofElements type shape.toList bits = .ok x ∧
      ofBytes type shape.toList (bits.flatMap (Bytes.ofNat type.width)) = .ok x ∧
      x.elements type = .ok bits ∧
      ∀ other, other ≠ type → x.elements other = .error (.typeMismatch other type) := by
  let x : Latent := ⟨type, shape, bits.flatMap (Bytes.ofNat type.width)⟩
  have hWellFormed : x.WellFormed := by
    rw [wellFormed_iff_of_prod_lt hSize]
    simp only [x, List.length_flatMap, Bytes.length_ofNat, List.map_const',
      List.sum_replicate_nat, hCount]
  refine ⟨x, ?_, Codec.ofBytes_of_wellFormed hWellFormed, ?_, ?_⟩
  · rw [ofElements_eq hSize, if_pos hCount]
  · exact (elements_self x).trans (congrArg _ (Bytes.groups_ofNat type.width_pos hBits))
  · intro other hOther
    exact elements_other hOther

theorem ofElements_of_elements {x : Latent} (hType : x.type = type) (hShape : x.shape = shape)
    (hWellFormed : x.WellFormed) :
    ∃ bits, x.elements type = .ok bits ∧ (∀ b ∈ bits, type.IsPattern b) ∧
      ofElements type shape.toList bits = .ok x := by
  subst hType hShape
  have hLength := (wellFormed_iff_of_prod_lt hSize).mp hWellFormed
  refine ⟨_, elements_self x, ?_, ?_⟩
  · intro b hb
    obtain ⟨group, hGroup, rfl⟩ := List.mem_map.mp hb
    have hLt := Bytes.toNat_lt group
    rwa [Bytes.length_of_mem_groups hGroup] at hLt
  · have hCount : ((Bytes.groups x.type.width x.data).map Bytes.toNat).length =
        x.shape.toList.prod := by
      rw [List.length_map, Bytes.length_groups x.type.width_pos, hLength,
        Nat.mul_div_cancel _ x.type.width_pos]
    rw [ofElements_eq hSize, if_pos hCount,
      Bytes.ofNat_groups x.type.width_pos (hLength ▸ Nat.dvd_mul_left _ _)]

end Exact

end Latent

end LatentCache
