import LatentCache.Size

/-!
# Shapes

A shape has at least two axes. The second one counts token positions; the axis before it and those
after it are the same for all latents of one model.
-/

namespace LatentCache

structure Shape where
  outer : Nat
  seqLen : Nat
  inner : List Nat
deriving DecidableEq

namespace Shape

def toList (s : Shape) : List Nat := s.outer :: s.seqLen :: s.inner

def ofList? : List Nat → Option Shape
  | outer :: seqLen :: inner => some ⟨outer, seqLen, inner⟩
  | _ => none

@[simp] theorem ofList?_toList (s : Shape) : ofList? s.toList = some s := rfl

theorem ofList?_eq_none_iff {dims : List Nat} : ofList? dims = none ↔ dims.length < 2 := by
  match dims with
  | [] => simp [ofList?]
  | [_] => simp [ofList?]
  | _ :: _ :: _ => simp [ofList?]

theorem toList_of_ofList? {dims : List Nat} {s : Shape} (h : ofList? dims = some s) :
    s.toList = dims := by
  match dims, h with
  | _ :: _ :: _, rfl => rfl

theorem toList_injective {s t : Shape} (h : s.toList = t.toList) : s = t := by
  have hList := congrArg ofList? h
  rw [ofList?_toList, ofList?_toList] at hList
  exact Option.some.inj hList

def elementCount (s : Shape) : Nat := Size.prod s.toList

def withSeqLen (s : Shape) (length : Nat) : Shape := { s with seqLen := length }

/-- The shapes agree on every axis but that of token positions. -/
def SameRows (s t : Shape) : Prop := s.outer = t.outer ∧ s.inner = t.inner

instance (s t : Shape) : Decidable (s.SameRows t) := inferInstanceAs (Decidable (_ ∧ _))

end Shape

def dimsText (dims : List Nat) : String := "[" ++ ", ".intercalate (dims.map toString) ++ "]"

end LatentCache
