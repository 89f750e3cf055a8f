import LatentCache.Json.Reader

/-!
# Reading plain JSON

Texts without escapes and natural numbers below `2 ^ 64` are scanned back from the way they are
written, and so is a list of such numbers.
-/

namespace LatentCache

namespace Decimal

theorem digits_zero : digits 0 = ['0'] := by
  rw [digits]
  rfl

theorem digits_eq_cons (n : Nat) : ∃ d ds, digits n = d :: ds ∧ d.isDigit ∧ (d = '0' → n = 0) := by
  induction n using Nat.strongRecOn with
  | ind n ih =>
    rw [digits]
    split
    · next hSmall =>
      have hZero : ∀ m < 10, digitChar m = '0' → m = 0 := by decide
      exact ⟨_, [], rfl, isDigit_digitChar n hSmall, hZero n hSmall⟩
    · next hLarge =>
      obtain ⟨d, ds, hDigits, hDigit, hd⟩ := ih (n / 10) (by omega)
      refine ⟨d, ds ++ [digitChar (n % 10)], by rw [hDigits]; rfl, hDigit, fun h => ?_⟩
      have := hd h
      omega

end Decimal

namespace Json.Token

/-! ## Scanning -/

theorem list?_of_scan {c : Char} {rest tail : List Char} {token : Token} {tokens : List Token}
    (hScan : scan (c :: rest) = some (token, tail)) (hTail : list? tail = some tokens)
    (hSpace : isSpace c = false) (hLength : tail.length ≤ rest.length) :
    list? (c :: rest) = some (token :: tokens) := by
  have hShorter : tail.length < (c :: rest).length := Nat.lt_succ_of_le hLength
  rw [list?, hSpace, hScan]
  simp only [Bool.false_eq_true, if_false, Option.bind_eq_bind, Option.bind_some,
    if_pos hShorter, hTail]

section Punctuation

variable {rest : List Char} {tokens : List Token} (h : list? rest = some tokens)
include h

theorem list?_openBrace : list? ('\x7b' :: rest) = some (.openBrace :: tokens) :=
  list?_of_scan rfl h rfl (Nat.le_refl _)

theorem list?_closeBrace : list? ('\x7d' :: rest) = some (.closeBrace :: tokens) :=
  list?_of_scan rfl h rfl (Nat.le_refl _)

theorem list?_openBracket : list? ('[' :: rest) = some (.openBracket :: tokens) :=
  list?_of_scan rfl h rfl (Nat.le_refl _)

theorem list?_closeBracket : list? (']' :: rest) = some (.closeBracket :: tokens) :=
  list?_of_scan rfl h rfl (Nat.le_refl _)

theorem list?_comma : list? (',' :: rest) = some (.comma :: tokens) :=
  list?_of_scan rfl h rfl (Nat.le_refl _)

theorem list?_colon : list? (':' :: rest) = some (.colon :: tokens) :=
  list?_of_scan rfl h rfl (Nat.le_refl _)

end Punctuation

theorem list?_spaces (count : Nat) : list? (List.replicate count ' ') = some [] := by
  induction count with
  | zero => rw [List.replicate_zero, list?]
  | succ count ih =>
    rw [List.replicate_succ, list?]
    exact ih

/-- Text whose characters stand for themselves in a string. -/
def IsPlain (cs : List Char) : Prop := ∀ c ∈ cs, c ≠ '"' ∧ c ≠ '\\' ∧ 0x20 ≤ c.toNat

instance (cs : List Char) : Decidable (IsPlain cs) := List.decidableBAll _ cs

theorem scanString_plain {body : List Char} (h : IsPlain body) (rest : List Char) :
    scanString (body ++ '"' :: rest) = some (body, rest) := by
  induction body with
  | nil => rw [List.nil_append, scanString]
  | cons c body ih =>
    obtain ⟨hQuote, hBackslash, hControl⟩ := h c List.mem_cons_self
    rw [List.cons_append, scanString.eq_4 _ _ hQuote hBackslash, if_neg (by omega),
      ih fun d hd => h d (List.mem_cons_of_mem _ hd)]
    rfl

theorem list?_string {body rest : List Char} {tokens : List Token} (h : IsPlain body)
    (hRest : list? rest = some tokens) :
    list? ('"' :: (body ++ '"' :: rest)) = some (.string (String.ofList body) :: tokens) := by
  have hScan : scan ('"' :: (body ++ '"' :: rest)) =
      some (.string (String.ofList body), rest) := by
    change (scanString _).map _ = _
    rw [scanString_plain h rest]
    rfl
  exact list?_of_scan hScan hRest rfl (by simp; omega)

/-- A text after a number that is not a part of it. -/
def EndsNumber (rest : List Char) : Prop :=
  ∃ c tail, rest = c :: tail ∧ (c = ',' ∨ c = ']')

theorem scanDigits_digits (n : Nat) {rest : List Char} (h : EndsNumber rest) :
    scanDigits (Decimal.digits n ++ rest) = some (Decimal.digits n, rest) := by
  have hDigits : ∀ c ∈ Decimal.digits n, c.isDigit := fun c => Decimal.isDigit_of_mem_digits
  obtain ⟨c, tail, rfl, hc⟩ := h
  have hStop : c.isDigit = false := by rcases hc with rfl | rfl <;> rfl
  obtain ⟨d, ds, hCons, -⟩ := Decimal.digits_eq_cons n
  rw [scanDigits, List.takeWhile_append_of_pos hDigits, List.dropWhile_append_of_pos hDigits,
    List.takeWhile_cons_of_neg (by simp [hStop]), List.dropWhile_cons_of_neg (by simp [hStop]),
    List.append_nil, hCons]

theorem scanNumber_digits {n : Nat} (hn : n < Size.limit) {rest : List Char}
    (h : EndsNumber rest) :
    scanNumber (Decimal.digits n ++ rest) = some (.natural n, rest) := by
  have hFraction : scanFraction rest = some ([], rest) := by
    obtain ⟨c, tail, rfl, rfl | rfl⟩ := h <;> rfl
  have hExponent : scanExponent rest = some (none, rest) := by
    obtain ⟨c, tail, rfl, rfl | rfl⟩ := h <;> rfl
  obtain ⟨d, ds, hCons, hDigit, hZero⟩ := Decimal.digits_eq_cons n
  -- A single zero is a whole part of its own; all other digits are taken together.
  by_cases hd : d = '0'
  · obtain rfl := hZero hd
    have hValue : Decimal.ofDigits ['0'] = 0 := rfl
    rw [Decimal.digits_zero, List.singleton_append, scanNumber.eq_3]
    simp [hFraction, hExponent, hValue]
  · have hMinus : d ≠ '-' := by rintro rfl; cases hDigit
    rw [scanNumber.eq_4, scanDigits_digits n h]
    · simp [hFraction, hExponent, Decimal.ofDigits_digits, hn]
    · intro tail hEq
      rw [hCons] at hEq
      exact hMinus (List.cons.inj hEq).1
    · intro tail hEq
      rw [hCons] at hEq
      exact hd (List.cons.inj hEq).1

theorem list?_natural {n : Nat} (hn : n < Size.limit) {rest : List Char} {tokens : List Token}
    (hEnd : EndsNumber rest) (hRest : list? rest = some tokens) :
    list? (Decimal.digits n ++ rest) = some (.scalar (.natural n) :: tokens) := by
  have hNumber := scanNumber_digits hn hEnd
  obtain ⟨d, ds, hCons, hDigit, -⟩ := Decimal.digits_eq_cons n
  rw [hCons, List.cons_append] at hNumber ⊢
  have hNe {c : Char} (hc : c.isDigit = false) : d ≠ c := by
    rintro rfl
    rw [hc] at hDigit
    cases hDigit
  have hScan : scan (d :: (ds ++ rest)) = some (.scalar (.natural n), rest) := by
    rw [scan.eq_11, hNumber]
    · rfl
    all_goals
      intro tail hEq
      exact hNe (by rfl) (List.cons.inj hEq).1
  have hSpace : isSpace d = false := by
    simp [isSpace, hNe (c := ' ') rfl, hNe (c := '\t') rfl, hNe (c := '\n') rfl,
      hNe (c := '\r') rfl]
  exact list?_of_scan hScan hRest hSpace (by simp)

/-- The tokens of the items of an array of numbers, up to its closing bracket. -/
def itemTokens : Nat → List Nat → List Token
  | n, [] => [.scalar (.natural n), .closeBracket]
  | n, next :: others => .scalar (.natural n) :: .comma :: itemTokens next others

theorem list?_items {n : Nat} {others : List Nat} (hItems : ∀ m ∈ n :: others, m < Size.limit)
    {rest : List Char} {tokens : List Token} (hRest : list? rest = some tokens) :
    list? ([','].intercalate ((n :: others).map Decimal.digits) ++ ']' :: rest) =
      some (itemTokens n others ++ tokens) := by
  induction others generalizing n with
  | nil =>
    rw [List.map_singleton, List.intercalate_singleton]
    exact list?_natural (hItems n List.mem_cons_self) ⟨_, _, rfl, .inr rfl⟩
      (list?_closeBracket hRest)
  | cons next others ih =>
    have hOthers := ih fun m hm => hItems m (List.mem_cons_of_mem _ hm)
    rw [List.map_cons, List.map_cons, List.intercalate_cons_cons, List.append_assoc,
      List.append_assoc, List.singleton_append]
    exact list?_natural (hItems n List.mem_cons_self) ⟨_, _, rfl, .inl rfl⟩
      (list?_comma hOthers)

end Json.Token

namespace Json

/-! ## Reading values -/

theorem readItems_itemTokens {fuel : Nat} (depth n : Nat) (others : List Nat)
    (rest : List Token) (hFuel : others.length + 2 ≤ fuel) :
    readItems fuel depth (Token.itemTokens n others ++ rest) =
      some ((n :: others).map .natural, rest) := by
  induction others generalizing n fuel with
  | nil =>
    obtain ⟨fuel, rfl⟩ : ∃ left, fuel = left + 2 := ⟨fuel - 2, by simp at hFuel; omega⟩
    rfl
  | cons next others ih =>
    obtain ⟨fuel, rfl⟩ : ∃ left, fuel = left + 2 := ⟨fuel - 2, by simp at hFuel; omega⟩
    have hOthers : readItems (fuel + 1) depth (Token.itemTokens next others ++ rest) = _ :=
      ih next (by simp at hFuel; omega)
    rw [Token.itemTokens, List.cons_append, List.cons_append, readItems, readValue]
    simp only [hOthers]
    rfl

theorem readValue_items (fuel depth n : Nat) (others : List Nat) (rest : List Token)
    (hFuel : others.length + 2 ≤ fuel) :
    readValue (fuel + 1) (depth + 1) (.openBracket :: (Token.itemTokens n others ++ rest)) =
      some (.array ((n :: others).map .natural), rest) := by
  have hStep : readValue (fuel + 1) (depth + 1)
      (.openBracket :: (Token.itemTokens n others ++ rest)) =
        (readItems fuel depth (Token.itemTokens n others ++ rest)).map
          fun read => (.array read.1, read.2) := by
    cases others <;> rfl
  rw [hStep, readItems_itemTokens depth n others rest hFuel]
  rfl

section Members

variable {fuel depth : Nat} (key : String) {value : Json} {members : List (String × Json)}
  {tokens next rest : List Token}

theorem readValue_members {key : String} (h : readMembers fuel depth (.string key :: tokens) =
    some (members, rest)) :
    readValue (fuel + 1) (depth + 1) (.openBrace :: .string key :: tokens) =
      some (.object members, rest) := by
  change (readMembers fuel depth (.string key :: tokens)).map _ = _
  rw [h]
  rfl

theorem readMembers_last (h : readValue fuel depth tokens = some (value, .closeBrace :: rest)) :
    readMembers (fuel + 1) depth (.string key :: .colon :: tokens) =
      some ([(key, value)], rest) := by
  rw [readMembers, h]

theorem readMembers_next (h : readValue fuel depth tokens = some (value, .comma :: next))
    (hNext : readMembers fuel depth next = some (members, rest)) :
    readMembers (fuel + 1) depth (.string key :: .colon :: tokens) =
      some ((key, value) :: members, rest) := by
  rw [readMembers, h]
  change (readMembers fuel depth next).map _ = _
  rw [hNext]
  rfl

end Members

end Json

end LatentCache
