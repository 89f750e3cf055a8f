import Mathlib.Data.List.Forall2

/-!
# Computations that may fail

A sequence of steps ends well if every step does. A list is traversed element by element, and the
first failure ends the traversal; one that ends well has a result for every element.
-/

namespace LatentCache

theorem bind_eq_ok_iff {α β ε : Type} {x : Except ε α} {f : α → Except ε β} {b : β} :
    (x >>= f) = .ok b ↔ ∃ a, x = .ok a ∧ f a = .ok b := by
  cases x with
  | error e =>
    constructor
    · intro h
      cases h
    · rintro ⟨a, hx, -⟩
      cases hx
  | ok a =>
    constructor
    · intro h
      exact ⟨a, rfl, h⟩
    · rintro ⟨_, hx, h⟩
      cases hx
      exact h

theorem mapError_eq_ok_iff {α ε δ : Type} {x : Except ε α} {f : ε → δ} {a : α} :
    x.mapError f = .ok a ↔ x = .ok a := by
  cases x <;> simp [Except.mapError]

theorem forall₂_of_mapM_eq_ok {α β ε : Type} {f : α → Except ε β} {xs : List α} {ys : List β}
    (h : xs.mapM f = .ok ys) : List.Forall₂ (fun x y => f x = .ok y) xs ys := by
  induction xs generalizing ys with
  | nil =>
    cases h
    exact .nil
  | cons x xs ih =>
    rw [List.mapM_cons] at h
    obtain ⟨y, hHead, h⟩ := bind_eq_ok_iff.mp h
    obtain ⟨rest, hTail, h⟩ := bind_eq_ok_iff.mp h
    cases h
    exact .cons hHead (ih hTail)

theorem exists_of_mapM_eq_error {α β ε : Type} {f : α → Except ε β} {xs : List α} {e : ε}
    (h : xs.mapM f = .error e) : ∃ x ∈ xs, f x = .error e := by
  induction xs with
  | nil => cases h
  | cons x xs ih =>
    rw [List.mapM_cons] at h
    cases hHead : f x with
    | error e' =>
      rw [hHead] at h
      cases h
      exact ⟨x, List.mem_cons_self, hHead⟩
    | ok y =>
      cases hTail : xs.mapM f with
      | error e' =>
        rw [hHead, hTail] at h
        cases h
        obtain ⟨x', hx', hFails⟩ := ih hTail
        exact ⟨x', List.mem_cons_of_mem _ hx', hFails⟩
      | ok ys =>
        rw [hHead, hTail] at h
        cases h

theorem mapM_congr {α β ε : Type} {f g : α → Except ε β} {xs : List α}
    (h : ∀ x ∈ xs, f x = g x) : xs.mapM f = xs.mapM g := by
  induction xs with
  | nil => rfl
  | cons x xs ih =>
    rw [List.mapM_cons, List.mapM_cons, h x List.mem_cons_self,
      ih fun y hy => h y (List.mem_cons_of_mem _ hy)]

theorem mapM_append_eq_ok {α β ε : Type} {f : α → Except ε β} {xs xs' : List α} {ys : List β}
    (h : (xs ++ xs').mapM f = .ok ys) :
    ∃ front back, xs.mapM f = .ok front ∧ xs'.mapM f = .ok back ∧ ys = front ++ back := by
  rw [List.mapM_append] at h
  obtain ⟨front, hFront, h⟩ := bind_eq_ok_iff.mp h
  obtain ⟨back, hBack, h⟩ := bind_eq_ok_iff.mp h
  cases h
  exact ⟨front, back, hFront, hBack, rfl⟩

theorem exists_of_mem_forall₂ {α β : Type} {R : α → β → Prop} {xs : List α} {ys : List β}
    (h : List.Forall₂ R xs ys) {y : β} (hy : y ∈ ys) : ∃ x ∈ xs, R x y := by
  induction h with
  | nil => cases hy
  | @cons x y' xs ys hHead _ ih =>
    rcases List.mem_cons.mp hy with rfl | hy
    · exact ⟨x, List.mem_cons_self, hHead⟩
    · obtain ⟨x', hx', hRelated⟩ := ih hy
      exact ⟨x', List.mem_cons_of_mem _ hx', hRelated⟩

theorem exists_mapM_eq_ok {α β ε : Type} {f : α → Except ε β} {xs : List α}
    (h : ∀ x ∈ xs, ∃ y, f x = .ok y) : ∃ ys, xs.mapM f = .ok ys := by
  cases hMap : xs.mapM f with
  | ok ys => exact ⟨ys, rfl⟩
  | error e =>
    obtain ⟨x, hx, hFails⟩ := exists_of_mapM_eq_error hMap
    obtain ⟨y, hOk⟩ := h x hx
    cases hFails.symm.trans hOk

/-! ## Traversals without a reason of failure -/

theorem forall₂_of_mapM_eq_some {α β : Type} {f : α → Option β} {xs : List α} {ys : List β}
    (h : xs.mapM f = some ys) : List.Forall₂ (fun x y => f x = some y) xs ys := by
  induction xs generalizing ys with
  | nil =>
    cases h
    exact .nil
  | cons x xs ih =>
    rw [List.mapM_cons] at h
    obtain ⟨y, hHead, h⟩ := Option.bind_eq_some_iff.mp h
    obtain ⟨rest, hTail, h⟩ := Option.bind_eq_some_iff.mp h
    cases h
    exact .cons hHead (ih hTail)

theorem exists_mapM_eq_some {α β : Type} {f : α → Option β} {xs : List α}
    (h : ∀ x ∈ xs, ∃ y, f x = some y) : ∃ ys, xs.mapM f = some ys := by
  induction xs with
  | nil => exact ⟨[], rfl⟩
  | cons x xs ih =>
    obtain ⟨y, hHead⟩ := h x List.mem_cons_self
    obtain ⟨rest, hTail⟩ := ih fun z hz => h z (List.mem_cons_of_mem _ hz)
    refine ⟨y :: rest, ?_⟩
    rw [List.mapM_cons, hHead, hTail]
    rfl

end LatentCache
