import LatentCache.Text.Character
import LatentCache.Text.Decimal
import Mathlib.Data.List.TakeWhile
import Mathlib.Data.Nat.Digits.Defs

/-!
# What texts denote

A trimmed text is what stands between the blanks at its ends. A decimal number is an optional plus
sign and at least one digit. Two texts may differ in nothing but the case of their letters.
-/

namespace LatentCache

/-! ## Trimmed texts -/

namespace Text

/-- `inner` is `text` without the blanks at its ends. -/
structure Trims (text inner : List Char) : Prop where
  around : ∃ front back, text = front ++ inner ++ back ∧
    (∀ c ∈ front, isBlank c) ∧ ∀ c ∈ back, isBlank c
  first : ∀ c ∈ inner.head?, ¬isBlank c
  last : ∀ c ∈ inner.getLast?, ¬isBlank c

theorem dropWhile_isBlank_eq_self {cs : List Char} (h : ∀ c ∈ cs.head?, ¬isBlank c) :
    cs.dropWhile isBlank = cs := by
  cases cs with
  | nil => rfl
  | cons c cs => exact List.dropWhile_cons_of_neg (h c rfl)

theorem not_isBlank_of_head?_dropWhile {cs : List Char} :
    ∀ c ∈ (cs.dropWhile isBlank).head?, ¬isBlank c := by
  intro c hc
  have hNot := List.head?_dropWhile_not isBlank cs
  rw [Option.mem_def.mp hc] at hNot
  simpa using hNot

theorem trims_trim (text : List Char) : Trims text (trim text) where
  around := by
    have hFront := List.takeWhile_append_dropWhile (p := isBlank) (l := text)
    have hBack := List.takeWhile_append_dropWhile (p := isBlank)
      (l := (text.dropWhile isBlank).reverse)
    refine ⟨text.takeWhile isBlank,
      ((text.dropWhile isBlank).reverse.takeWhile isBlank).reverse, ?_, ?_, ?_⟩
    · rw [trim, List.append_assoc, ← List.reverse_append, hBack, List.reverse_reverse, hFront]
    · intro c hc
      exact List.mem_takeWhile_imp hc
    · intro c hc
      exact List.mem_takeWhile_imp (List.mem_reverse.mp hc)
  first := by
    intro c hc
    -- a trimmed text begins like the text without the blanks before it
    have hPrefix : trim text <+: text.dropWhile isBlank := by
      rw [trim, ← List.reverse_suffix, List.reverse_reverse]
      exact List.dropWhile_suffix isBlank
    obtain ⟨back, hBack⟩ := hPrefix
    refine @not_isBlank_of_head?_dropWhile text c ?_
    rw [← hBack, Option.mem_def, List.head?_append, Option.mem_def.mp hc]
    rfl
  last := by
    intro c hc
    rw [trim, List.getLast?_reverse] at hc
    exact not_isBlank_of_head?_dropWhile c hc

theorem Trims.trim_eq {text inner : List Char} (h : Trims text inner) : trim text = inner := by
  obtain ⟨⟨front, back, rfl, hFront, hBack⟩, hFirst, hLast⟩ := h
  rw [trim, List.append_assoc, List.dropWhile_append_of_pos hFront]
  cases inner with
  | nil =>
    rw [List.nil_append, List.dropWhile_eq_nil_iff.mpr hBack]
    rfl
  | cons c cs =>
    have hStart : ((c :: cs) ++ back).dropWhile isBlank = (c :: cs) ++ back := by
      apply dropWhile_isBlank_eq_self
      exact hFirst
    have hEnd : (c :: cs).reverse.dropWhile isBlank = (c :: cs).reverse := by
      apply dropWhile_isBlank_eq_self
      rw [List.head?_reverse]
      exact hLast
    rw [hStart, List.reverse_append, List.dropWhile_append_of_pos, hEnd, List.reverse_reverse]
    intro c hc
    exact hBack c (List.mem_reverse.mp hc)

theorem trims_iff {text inner : List Char} : Trims text inner ↔ inner = trim text := by
  constructor
  · intro h
    exact h.trim_eq.symm
  · rintro rfl
    exact trims_trim text

theorem trim_eq_self {text : List Char} (h : ∀ c ∈ text, ¬isBlank c) : trim text = text := by
  apply Trims.trim_eq
  refine ⟨⟨[], [], by simp, by simp, by simp⟩, ?_, ?_⟩
  · intro c hc
    exact h c (List.mem_of_mem_head? hc)
  · intro c hc
    exact h c (List.mem_of_mem_getLast? hc)

/-! ## The case of letters -/

/-- The texts are the same up to the case of ASCII letters. -/
def SameButCase (a b : List Char) : Prop := a.map Char.toLower = b.map Char.toLower

end Text

/-! ## Decimal numbers -/

namespace Decimal

/-- An optional plus sign and at least one digit, with the value `n` below `2 ^ 64`. -/
structure Denotes (cs : List Char) (n : Nat) : Prop where
  written : ∃ sign ds, (sign = [] ∨ sign = ['+']) ∧ ds ≠ [] ∧ (∀ c ∈ ds, c.isDigit) ∧
    cs = sign ++ ds ∧ n = Nat.ofDigits 10 (ds.reverse.map digitValue)
  small : n < Size.limit

theorem ofDigits_eq (ds : List Char) :
    ofDigits ds = Nat.ofDigits 10 (ds.reverse.map digitValue) := by
  rw [Nat.ofDigits_eq_foldr, List.foldr_map, List.foldr_reverse, ofDigits]
  congr 1
  funext acc c
  exact Nat.add_comm _ _

theorem size?_digits {ds : List Char} (hSome : ds ≠ []) (hDigits : ∀ c ∈ ds, c.isDigit)
    (hSmall : ofDigits ds < Size.limit) : size? ds = some (ofDigits ds) := by
  have hAll : ds.all Char.isDigit = true := List.all_eq_true.mpr hDigits
  rw [size?.eq_def]
  split
  next rest =>
    -- a plus sign is not a digit
    exact absurd (hDigits '+' List.mem_cons_self) (by decide)
  next => simp [hSome, hAll, hSmall]

theorem size?_eq_some_iff {cs : List Char} {n : Nat} : size? cs = some n ↔ Denotes cs n := by
  constructor
  · intro h
    have hRead : ∃ sign ds, (sign = [] ∨ sign = ['+']) ∧ cs = sign ++ ds ∧
        (if !ds.isEmpty && ds.all Char.isDigit && ofDigits ds < Size.limit then
          some (ofDigits ds) else none) = some n := by
      rw [size?.eq_def] at h
      split at h
      next rest => exact ⟨['+'], rest, .inr rfl, rfl, h⟩
      next => exact ⟨[], cs, .inl rfl, rfl, h⟩
    obtain ⟨sign, ds, hSign, rfl, hRead⟩ := hRead
    split at hRead
    next hGood =>
      cases hRead
      simp only [Bool.and_eq_true, Bool.not_eq_true', List.isEmpty_eq_false_iff, List.all_eq_true,
        decide_eq_true_eq] at hGood
      obtain ⟨⟨hSome, hDigits⟩, hSmall⟩ := hGood
      exact ⟨⟨sign, ds, hSign, hSome, hDigits, rfl, ofDigits_eq ds⟩, hSmall⟩
    next => cases hRead
  · rintro ⟨⟨sign, ds, hSign, hSome, hDigits, rfl, hValue⟩, hSmall⟩
    rw [← ofDigits_eq] at hValue
    subst hValue
    rcases hSign with rfl | rfl
    · exact size?_digits hSome hDigits hSmall
    · have hAll : ds.all Char.isDigit = true := List.all_eq_true.mpr hDigits
      simp [size?, hSome, hAll, hSmall]

theorem not_isBlank_of_isDigit {c : Char} (h : c.isDigit) : ¬Text.isBlank c := by
  rw [Char.isDigit, Bool.and_eq_true, decide_eq_true_eq, decide_eq_true_eq] at h
  have hLow : 48 ≤ c.toNat := UInt32.le_iff_toNat_le.mp h.1
  have hHigh : c.toNat ≤ 57 := UInt32.le_iff_toNat_le.mp h.2
  unfold Text.isBlank
  generalize c.toNat = n at *
  simp only [Bool.or_eq_true, Bool.and_eq_true, decide_eq_true_eq, beq_iff_eq]
  omega

end Decimal

end LatentCache
