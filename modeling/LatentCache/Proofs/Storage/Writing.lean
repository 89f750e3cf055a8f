import LatentCache.Proofs.Storage.Contents
import Mathlib.Data.Finset.Card
import Mathlib.Logic.Relation

/-!
# Batches that are written at the same time

A memory takes a batch record by record, so the records of several batches may reach it mixed. As
long as the batches do not disagree about any key, the order in which they are mixed is of no
consequence: the memory ends with the same values, and with as many entries.
-/

namespace LatentCache

/-- No key has two different values. -/
def Consistent {κ α : Type} (entries : List (κ × α)) : Prop :=
  ∀ e ∈ entries, ∀ e' ∈ entries, e.1 = e'.1 → e.2 = e'.2

theorem overwrite_eq_of_consistent {κ α : Type} [DecidableEq κ] {entries others : List (κ × α)}
    (h : Consistent entries) (hSame : ∀ e, e ∈ entries ↔ e ∈ others) (f : κ → Option α) :
    overwrite f entries = overwrite f others := by
  funext key
  by_cases hKey : ∃ value, (key, value) ∈ entries
  · obtain ⟨value, hMem⟩ := hKey
    have hOnly : ∀ e ∈ entries, e.1 = key → e.2 = value := fun e he => h e he _ hMem
    rw [overwrite_of_mem hMem hOnly, overwrite_of_mem ((hSame _).mp hMem)]
    intro e he
    exact hOnly e ((hSame e).mpr he)
  · have hNone : ∀ e ∈ entries, e.1 ≠ key := by
      rintro e he rfl
      exact hKey ⟨e.2, he⟩
    rw [overwrite_of_ne hNone, overwrite_of_ne]
    intro e he
    exact hNone e ((hSame e).mpr he)

namespace Table

variable {κ : Type} [DecidableEq κ]

/-! ## Values that are there already -/

theorem place_of_find? {key : κ} {value : Bytes} {entries : List (κ × Bytes)}
    (h : find? key entries = some value) : place key value entries = entries := by
  induction entries with
  | nil => cases h
  | cons entry rest ih =>
    rw [find?] at h
    rw [place]
    by_cases hKey : entry.1 = key
    · rw [if_pos hKey] at h ⊢
      cases h
      rw [← hKey]
    · rw [if_neg hKey] at h ⊢
      rw [ih h]

theorem insert_of_get? {t : Table κ} {key : κ} {value : Bytes} (h : t.get? key = some value) :
    t.insert key value = t := by
  rw [insert, place_of_find? h]

theorem insertAll_of_get? {t : Table κ} {entries : List (κ × Bytes)}
    (h : ∀ e ∈ entries, t.get? e.1 = some e.2) : t.insertAll entries = t := by
  induction entries with
  | nil => rfl
  | cons entry rest ih =>
    rw [insertAll_cons, insert_of_get? (h entry List.mem_cons_self)]
    exact ih fun e he => h e (List.mem_cons_of_mem _ he)

/-! ## The number of entries -/

theorem length_place (key : κ) (value : Bytes) (entries : List (κ × Bytes)) :
    (place key value entries).length =
      entries.length + if find? key entries = none then 1 else 0 := by
  induction entries with
  | nil => rfl
  | cons entry rest ih =>
    rw [place, find?]
    by_cases hKey : entry.1 = key
    · simp [hKey]
    · simp only [if_neg hKey, List.length_cons, ih]
      omega

theorem size_insert (t : Table κ) (key : κ) (value : Bytes) :
    (t.insert key value).size = t.size + if t.get? key = none then 1 else 0 :=
  length_place key value t.entries

/-- The keys among some entries that a table does not have. -/
def newKeys (t : Table κ) (entries : List (κ × Bytes)) : Finset κ :=
  (entries.map Prod.fst).toFinset.filter (t.get? · = none)

theorem mem_newKeys_iff {t : Table κ} {entries : List (κ × Bytes)} {key : κ} :
    key ∈ t.newKeys entries ↔ (∃ value, (key, value) ∈ entries) ∧ t.get? key = none := by
  simp [newKeys]

theorem newKeys_cons (t : Table κ) (entry : κ × Bytes) (rest : List (κ × Bytes)) :
    (t.newKeys (entry :: rest)).card =
      (if t.get? entry.1 = none then 1 else 0) +
        ((t.insert entry.1 entry.2).newKeys rest).card := by
  have hLater : (t.insert entry.1 entry.2).newKeys rest = (t.newKeys rest).erase entry.1 := by
    ext key
    simp only [mem_newKeys_iff, Finset.mem_erase, get?_insert]
    by_cases hKey : entry.1 = key
    · simp [hKey]
    · simp [hKey, Ne.symm hKey]
  by_cases hNew : t.get? entry.1 = none
  · have hKeys : t.newKeys (entry :: rest) =
        Insert.insert entry.1 ((t.newKeys rest).erase entry.1) := by
      ext key
      by_cases hKey : key = entry.1 <;> simp [newKeys, hKey, hNew]
    rw [hLater, hKeys, Finset.card_insert_of_notMem (Finset.notMem_erase _ _), if_pos hNew,
      Nat.add_comm]
  · have hKeys : t.newKeys (entry :: rest) = (t.newKeys rest).erase entry.1 := by
      ext key
      by_cases hKey : key = entry.1 <;> simp [newKeys, hKey, hNew]
    rw [hLater, hKeys, if_neg hNew, Nat.zero_add]

theorem size_insertAll (t : Table κ) (entries : List (κ × Bytes)) :
    (t.insertAll entries).size = t.size + (t.newKeys entries).card := by
  induction entries generalizing t with
  | nil => rfl
  | cons entry rest ih =>
    rw [insertAll_cons, ih, size_insert, newKeys_cons, Nat.add_assoc]

/-- The order of consistent entries decides neither the values nor the number of entries. -/
theorem insertAll_perm (t : Table κ) {entries others : List (κ × Bytes)}
    (h : Consistent entries) (hPerm : others.Perm entries) :
    (t.insertAll others).get? = (t.insertAll entries).get? ∧
      (t.insertAll others).size = (t.insertAll entries).size := by
  have hSame : ∀ e, e ∈ entries ↔ e ∈ others := fun e => hPerm.mem_iff.symm
  have hKeys : t.newKeys entries = t.newKeys others := by
    ext key
    simp only [mem_newKeys_iff, hSame]
  constructor
  · rw [get?_insertAll, get?_insertAll, overwrite_eq_of_consistent h hSame]
  · rw [size_insertAll, size_insertAll, hKeys]

theorem get?_insertAll_of_mem (t : Table κ) {entries : List (κ × Bytes)}
    (h : Consistent entries) {e : κ × Bytes} (he : e ∈ entries) :
    (t.insertAll entries).get? e.1 = some e.2 := by
  rw [get?_insertAll]
  exact overwrite_of_mem he fun e' he' hKey => h e' he' e he hKey

end Table

/-! ## Writers -/

/-- A memory to which several batches are being written, each by a writer of its own. -/
structure Writing where
  table : Memory
  /-- What each writer has still to write. -/
  pending : List (List Record)

namespace Writing

/-- Some writer writes the next record of its batch. -/
inductive Step : Writing → Writing → Prop
  | write {t : Memory} {pending : List (List Record)} {i : Nat} {record : Record}
      {rest : List Record} (hNext : pending[i]? = some (record :: rest)) :
      Step ⟨t, pending⟩ ⟨(Memory.medium.put record.1 record.2 t).2, pending.set i rest⟩

def Run : Writing → Writing → Prop := Relation.ReflTransGen Step

def Finished (w : Writing) : Prop := ∀ records ∈ w.pending, records = []

/-- What was written to a table since some batches were begun, in the order of time. -/
structure Wrote (t : Memory) (batches : List (List Record)) (written : List Record)
    (w : Writing) : Prop where
  table : w.table = t.insertAll written
  all : (written ++ w.pending.flatten).Perm batches.flatten

theorem flatten_set {α : Type} {lists : List (List α)} {i : Nat} {x : α} {rest : List α}
    (h : lists[i]? = some (x :: rest)) :
    (x :: (lists.set i rest).flatten).Perm lists.flatten := by
  induction lists generalizing i with
  | nil => cases h
  | cons first others ih =>
    cases i with
    | zero =>
      cases h
      exact .refl _
    | succ i =>
      rw [List.getElem?_cons_succ] at h
      rw [List.set_cons_succ, List.flatten_cons, List.flatten_cons]
      exact List.perm_middle.symm.trans ((ih h).append_left first)

theorem Wrote.step {t : Memory} {batches : List (List Record)} {written : List Record}
    {w w' : Writing} (h : Wrote t batches written w) (hStep : Step w w') :
    ∃ record, Wrote t batches (written ++ [record]) w' := by
  cases hStep with
  | @write table pending i record rest hNext =>
    have hTable : table = t.insertAll written := h.table
    refine ⟨record, ?_, ?_⟩
    · rw [Table.insertAll_append, ← hTable]
      rfl
    · rw [List.append_assoc]
      exact ((flatten_set hNext).append_left written).trans h.all

theorem Run.wrote {t : Memory} {batches : List (List Record)} {w : Writing}
    (h : Run ⟨t, batches⟩ w) : ∃ written, Wrote t batches written w := by
  induction h with
  | refl => exact ⟨[], rfl, .refl _⟩
  | tail _ hStep ih =>
    obtain ⟨written, hWrote⟩ := ih
    obtain ⟨record, hNext⟩ := hWrote.step hStep
    exact ⟨_, hNext⟩

/-- When all writers are done, the table has taken the records of all batches in some order. -/
theorem Run.finished {t : Memory} {batches : List (List Record)} {w : Writing}
    (h : Run ⟨t, batches⟩ w) (hFinished : w.Finished) :
    ∃ written, written.Perm batches.flatten ∧ w.table = t.insertAll written := by
  obtain ⟨written, hWrote⟩ := h.wrote
  have hAll := hWrote.all
  rw [List.flatten_eq_nil_iff.mpr hFinished, List.append_nil] at hAll
  exact ⟨written, hAll, hWrote.table⟩

theorem exists_step_of_not_finished {w : Writing} (h : ¬ w.Finished) :
    ∃ w', Step w w' ∧ w'.pending.flatten.length < w.pending.flatten.length := by
  obtain ⟨t, pending⟩ := w
  simp only [Finished, not_forall] at h
  obtain ⟨records, hMem, hSome⟩ := h
  obtain ⟨record, rest, rfl⟩ := List.exists_cons_of_ne_nil hSome
  obtain ⟨i, hNext⟩ := List.mem_iff_getElem?.mp hMem
  refine ⟨_, .write hNext, ?_⟩
  rw [← (flatten_set hNext).length_eq, List.length_cons]
  exact Nat.lt_succ_self _

/-- The writers can always go on until all are done. -/
theorem exists_finished (w : Writing) : ∃ w', Run w w' ∧ w'.Finished := by
  induction hLeft : w.pending.flatten.length using Nat.strongRecOn generalizing w with
  | ind n ih =>
    by_cases hFinished : w.Finished
    · exact ⟨w, .refl, hFinished⟩
    · obtain ⟨next, hStep, hLess⟩ := exists_step_of_not_finished hFinished
      obtain ⟨last, hRun, hDone⟩ := ih _ (hLeft ▸ hLess) next rfl
      exact ⟨last, .head hStep hRun, hDone⟩

end Writing

end LatentCache
