import LatentCache.Proofs.Lookup
import LatentCache.Proofs.Traversal
import LatentCache.Record.Container

/-!
# What a header lists

The members of a header, its notes apart, give one entry for every name: that of the last member
with this name. The entries are taken in the order of their ranges, which leaves no choice.
-/

namespace LatentCache.Container

/-- The last member with a name gives the entry of this name. -/
def Names (members : List (String × Json)) (name : String) (e : Entry) : Prop :=
  name ≠ notesKey ∧
    ∃ value, members.reverse.lookup name = some value ∧ Entry.ofJson? value = some e

/-- Some members list some entries: all members are as a header may have them, and the entries are
those that the members name, each of them once, in the order of their ranges. -/
structure Lists (members : List (String × Json)) (entries : List (String × Entry)) : Prop where
  notes : notesValid members = true
  valid : ∀ member ∈ members, member.1 ≠ notesKey → ∃ e, Entry.ofJson? member.2 = some e
  mem_iff : ∀ name e, (name, e) ∈ entries ↔ Names members name e
  nodup : (entries.map (·.1)).Nodup
  sorted : entries.Pairwise fun a b => a.2.startsNotAfter b.2

/-! ## Sizes -/

theorem lt_of_size? {value : Json} {n : Nat} (h : size? value = some n) : n < Size.limit := by
  cases value with
  | natural m =>
    rw [size?] at h
    split at h
    · next hLt => exact Option.some.inj h ▸ hLt
    · cases h
  | _ => cases h

theorem lt_of_dims? {value : Json} {dims : List Nat} (h : dims? value = some dims) {n : Nat}
    (hn : n ∈ dims) : n < Size.limit := by
  cases value with
  | array items =>
    obtain ⟨i, hi, rfl⟩ := List.mem_iff_getElem.mp hn
    have hSizes := forall₂_of_mapM_eq_some h
    exact lt_of_size? (List.Forall₂.get hSizes (hSizes.length_eq ▸ hi) hi)
  | _ => cases h

theorem Entry.lt_of_ofParts? {type dims range : Json} {e : Entry}
    (h : ofParts? type dims range = some e) {n : Nat} (hn : n ∈ e.dims) : n < Size.limit := by
  obtain ⟨cell, -, h⟩ := Option.bind_eq_some_iff.mp h
  obtain ⟨sizes, hSizes, h⟩ := Option.bind_eq_some_iff.mp h
  obtain ⟨⟨start, stop⟩, -, h⟩ := Option.bind_eq_some_iff.mp h
  cases h
  exact lt_of_dims? hSizes hn

theorem Entry.lt_of_ofJson? {value : Json} {e : Entry} (h : ofJson? value = some e) {n : Nat}
    (hn : n ∈ e.dims) : n < Size.limit := by
  unfold ofJson? at h
  split at h
  · exact lt_of_ofParts? h hn
  · obtain ⟨type, -, h⟩ := Option.bind_eq_some_iff.mp h
    obtain ⟨dims, -, h⟩ := Option.bind_eq_some_iff.mp h
    obtain ⟨range, -, h⟩ := Option.bind_eq_some_iff.mp h
    exact lt_of_ofParts? h hn
  · cases h

theorem Lists.dim_lt {members : List (String × Json)} {entries : List (String × Entry)}
    (h : Lists members entries) {name : String} {e : Entry} (hMem : (name, e) ∈ entries) {n : Nat}
    (hn : n ∈ e.dims) : n < Size.limit := by
  obtain ⟨-, value, -, hEntry⟩ := (h.mem_iff name e).mp hMem
  exact Entry.lt_of_ofJson? hEntry hn

/-! ## The last entry of each name -/

theorem mem_lastOfEachName {entries : List (String × Entry)} {name : String} {e : Entry} :
    (name, e) ∈ lastOfEachName entries ↔ entries.reverse.lookup name = some e := by
  induction entries with
  | nil => simp [lastOfEachName]
  | cons entry rest ih =>
    rw [lookup_reverse_cons, lastOfEachName]
    by_cases hLater : rest.any (·.1 == entry.1)
    · rw [if_pos hLater, ih]
      by_cases hName : name = entry.1
      · -- A later entry of the name hides this one.
        obtain ⟨other, hOther, hSame⟩ := List.any_eq_true.mp hLater
        cases hFound : rest.reverse.lookup name with
        | none =>
          have hAbsent := lookup_reverse_eq_none_iff.mp hFound other hOther
          exact absurd ((eq_of_beq hSame).trans hName.symm) hAbsent
        | some found => rfl
      · rw [if_neg (by simpa using hName), Option.or_none]
    · rw [if_neg hLater, List.mem_cons, ih]
      by_cases hName : name = entry.1
      · have hNone : rest.reverse.lookup name = none := by
          apply lookup_reverse_eq_none_iff.mpr
          intro other hOther hSame
          exact hLater (List.any_eq_true.mpr ⟨other, hOther, beq_iff_eq.mpr (hSame.trans hName)⟩)
        rw [hNone, hName]
        simp [Prod.ext_iff, eq_comm]
      · have hNe : (name, e) ≠ entry := fun hEq => hName (congrArg Prod.fst hEq)
        simp [hNe, hName]

theorem nodup_lastOfEachName (entries : List (String × Entry)) :
    ((lastOfEachName entries).map (·.1)).Nodup := by
  induction entries with
  | nil => exact List.nodup_nil
  | cons entry rest ih =>
    rw [lastOfEachName]
    split
    · exact ih
    · next hLater =>
      refine List.nodup_cons.mpr ⟨fun hMem => ?_, ih⟩
      obtain ⟨other, hOther, hSame⟩ := List.mem_map.mp hMem
      have hRest := mem_of_lookup_eq_some (mem_lastOfEachName.mp hOther)
      exact hLater (List.any_eq_true.mpr
        ⟨other, List.mem_reverse.mp hRest, beq_iff_eq.mpr hSame⟩)

/-! ## Reading the members -/

/-- Every tensor is what the member in its place denotes. -/
def Denote : List (String × Json) → List (String × Entry) → Prop :=
  List.Forall₂ fun member tensor =>
    tensor.1 = member.1 ∧ Entry.ofJson? member.2 = some tensor.2

theorem Denote.lookup {members : List (String × Json)} {tensors : List (String × Entry)}
    (h : Denote members tensors) (name : String) :
    (members.reverse.lookup name = none ∧ tensors.reverse.lookup name = none) ∨
      ∃ value e, members.reverse.lookup name = some value ∧
        tensors.reverse.lookup name = some e ∧ Entry.ofJson? value = some e := by
  induction h with
  | nil => exact .inl ⟨rfl, rfl⟩
  | @cons member tensor members tensors hHead _ ih =>
    obtain ⟨hName, hValue⟩ := hHead
    rw [lookup_reverse_cons, lookup_reverse_cons, hName]
    rcases ih with ⟨hMember, hTensor⟩ | ⟨value, e, hMember, hTensor, hEntry⟩
    · rw [hMember, hTensor]
      by_cases hHere : name == member.1
      · exact .inr ⟨member.2, tensor.2, by simp [hHere], by simp [hHere], hValue⟩
      · exact .inl ⟨by simp [hHere], by simp [hHere]⟩
    · exact .inr ⟨value, e, by simp [hMember], by simp [hTensor], hEntry⟩

theorem Denote.lookup_eq_some_iff {members : List (String × Json)}
    {tensors : List (String × Entry)} (h : Denote members tensors) {name : String} {e : Entry} :
    tensors.reverse.lookup name = some e ↔
      ∃ value, members.reverse.lookup name = some value ∧ Entry.ofJson? value = some e := by
  rcases h.lookup name with ⟨hMember, hTensor⟩ | ⟨value, found, hMember, hTensor, hEntry⟩
  · simp [hMember, hTensor]
  · simp [hMember, hTensor, hEntry]

theorem lookup_reverse_filter_notes (members : List (String × Json)) (name : String) :
    (members.filter (·.1 != notesKey)).reverse.lookup name =
      if name = notesKey then none else members.reverse.lookup name := by
  split
  · next hNotes =>
    apply lookup_reverse_eq_none_iff.mpr
    intro member hMember hSame
    have hOther := (List.mem_filter.mp hMember).2
    simp [hSame, hNotes] at hOther
  · next hOther => rw [← List.filter_reverse, lookup_filter_ne hOther]

theorem startsNotAfter_iff {a b : Entry} : a.startsNotAfter b ↔
    a.start < b.start ∨ a.start = b.start ∧ a.stop ≤ b.stop := by
  simp [Entry.startsNotAfter]

theorem entries?_eq_some {header : List Char} {entries : List (String × Entry)}
    (h : entries? header = some entries) :
    ∃ members, Json.parse? header = some (.object members) ∧ Lists members entries := by
  rw [entries?] at h
  obtain ⟨value, hParse, h⟩ := Option.bind_eq_some_iff.mp h
  cases value with
  | object members =>
    refine ⟨members, hParse, ?_⟩
    dsimp only at h
    split at h
    · next hNotes =>
      obtain ⟨tensors, hTensors, h⟩ := Option.bind_eq_some_iff.mp h
      cases h
      have hDenote : Denote (members.filter (·.1 != notesKey)) tensors := by
        refine (forall₂_of_mapM_eq_some hTensors).imp fun member tensor hTensor => ?_
        obtain ⟨e, hEntry, hTensor⟩ := Option.bind_eq_some_iff.mp hTensor
        cases hTensor
        exact ⟨rfl, hEntry⟩
      have hPerm := List.mergeSort_perm (lastOfEachName tensors)
        fun a b => a.2.startsNotAfter b.2
      constructor
      · exact hNotes
      · intro member hMember hOther
        have hMem : member ∈ members.filter (·.1 != notesKey) :=
          List.mem_filter.mpr ⟨hMember, by simpa using hOther⟩
        obtain ⟨i, hi, rfl⟩ := List.mem_iff_getElem.mp hMem
        exact ⟨_, (List.Forall₂.get hDenote hi (hDenote.length_eq ▸ hi)).2⟩
      · intro name e
        rw [hPerm.mem_iff, mem_lastOfEachName, hDenote.lookup_eq_some_iff, Names]
        simp only [lookup_reverse_filter_notes]
        by_cases hName : name = notesKey <;> simp [hName]
      · exact (hPerm.map _).nodup_iff.mpr (nodup_lastOfEachName tensors)
      · apply List.pairwise_mergeSort
        · intro a b c
          rw [startsNotAfter_iff, startsNotAfter_iff, startsNotAfter_iff]
          omega
        · intro a b
          rw [Bool.or_eq_true, startsNotAfter_iff, startsNotAfter_iff]
          omega
    · cases h
  | _ => cases h

theorem entries?_isSome {header : List Char} {members : List (String × Json)}
    {entries : List (String × Entry)} (hParse : Json.parse? header = some (.object members))
    (h : Lists members entries) : ∃ others, entries? header = some others := by
  have hEach : ∀ member ∈ members.filter (·.1 != notesKey),
      ∃ tensor, (do let e ← Entry.ofJson? member.2; some (member.1, e)) = some tensor := by
    intro member hMember
    obtain ⟨hMem, hOther⟩ := List.mem_filter.mp hMember
    obtain ⟨e, hEntry⟩ := h.valid member hMem (by simpa using hOther)
    exact ⟨(member.1, e), by rw [hEntry]; rfl⟩
  obtain ⟨tensors, hTensors⟩ := exists_mapM_eq_some hEach
  refine ⟨(lastOfEachName tensors).mergeSort fun a b => a.2.startsNotAfter b.2, ?_⟩
  rw [entries?, hParse]
  simp only [Option.bind_eq_bind, Option.bind_some, h.notes, if_true] at hTensors ⊢
  rw [hTensors]
  rfl

/-! ## The order of the ranges -/

def Entry.range (e : Entry) : Nat × Nat := (e.start, e.stop)

/-- Entries with the same range may change places, but the ranges stand in one order. -/
theorem Lists.ranges_eq {members : List (String × Json)} {entries others : List (String × Entry)}
    (h : Lists members entries) (hOthers : Lists members others) :
    entries.map (·.2.range) = others.map (·.2.range) := by
  have hPerm : entries.Perm others := by
    rw [List.perm_ext_iff_of_nodup (h.nodup.of_map _) (hOthers.nodup.of_map _)]
    rintro ⟨name, e⟩
    rw [h.mem_iff, hOthers.mem_iff]
  have hSorted {entries : List (String × Entry)} (h : Lists members entries) :
      (entries.map (·.2.range)).Pairwise fun p q => p.1 < q.1 ∨ p.1 = q.1 ∧ p.2 ≤ q.2 := by
    rw [List.pairwise_map]
    exact h.sorted.imp startsNotAfter_iff.mp
  apply List.Perm.eq_of_pairwise _ (hSorted h) (hSorted hOthers) (hPerm.map _)
  rintro ⟨start, stop⟩ ⟨start', stop'⟩ - - hOrder hBack
  simp only [Prod.mk.injEq] at hOrder hBack ⊢
  omega

end LatentCache.Container
