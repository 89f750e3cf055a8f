import LatentCache.Bytes

/-!
# Tables

Finite maps from keys to byte strings. A second value under a key replaces the first one, and a key
keeps the place at which it was first entered.
-/

namespace LatentCache

structure Table (κ : Type) where
  entries : List (κ × Bytes)
deriving DecidableEq

namespace Table

variable {κ : Type} [DecidableEq κ]

def empty : Table κ := ⟨[]⟩

def size (t : Table κ) : Nat := t.entries.length

def find? (key : κ) : List (κ × Bytes) → Option Bytes
  | [] => none
  | (k, value) :: rest => if k = key then some value else find? key rest

def place (key : κ) (value : Bytes) : List (κ × Bytes) → List (κ × Bytes)
  | [] => [(key, value)]
  | (k, v) :: rest => if k = key then (key, value) :: rest else (k, v) :: place key value rest

def get? (t : Table κ) (key : κ) : Option Bytes := find? key t.entries

def insert (t : Table κ) (key : κ) (value : Bytes) : Table κ := ⟨place key value t.entries⟩

def insertAll (t : Table κ) (entries : List (κ × Bytes)) : Table κ :=
  entries.foldl (fun t entry => t.insert entry.1 entry.2) t

@[simp] theorem get?_empty (key : κ) : (empty : Table κ).get? key = none := rfl

theorem find?_place (key other : κ) (value : Bytes) (entries : List (κ × Bytes)) :
    find? other (place key value entries) =
      if key = other then some value else find? other entries := by
  induction entries with
  | nil => rfl
  | cons entry rest ih =>
    by_cases hk : entry.1 = key <;> by_cases ho : key = other <;>
      simp_all [place, find?]

@[simp] theorem get?_insert (t : Table κ) (key other : κ) (value : Bytes) :
    (t.insert key value).get? other = if key = other then some value else t.get? other :=
  find?_place key other value t.entries

@[simp] theorem insertAll_nil (t : Table κ) : t.insertAll [] = t := rfl

@[simp] theorem insertAll_cons (t : Table κ) (entry : κ × Bytes) (rest : List (κ × Bytes)) :
    t.insertAll (entry :: rest) = (t.insert entry.1 entry.2).insertAll rest := rfl

end Table

end LatentCache
