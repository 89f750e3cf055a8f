import LatentCache.Proofs.Lookup
import LatentCache.Proofs.Traversal
import LatentCache.Storage.Backend

/-!
# Directories that are there already

Entering a directory does not depend on files that are added elsewhere. The directory of an
environment, once prepared, is found again as it is: preparing it once more changes nothing.
-/

namespace LatentCache

namespace FileTree

/-! ## Trees with more nodes -/

/-- Every node of a tree is in another one with the same working directory. -/
structure Extends (u t : FileTree) : Prop where
  workingDirectory : u.workingDirectory = t.workingDirectory
  node? : ∀ here node, t.node? here = some node → u.node? here = some node

theorem Extends.refl (t : FileTree) : t.Extends t := ⟨rfl, fun _ _ h => h⟩

theorem Extends.trans {t u v : FileTree} (hv : v.Extends u) (hu : u.Extends t) : v.Extends t :=
  ⟨hv.workingDirectory.trans hu.workingDirectory,
    fun here node h => hv.node? here node (hu.node? here node h)⟩

theorem setNode_extends {t : FileTree} {here : Location} (hNew : t.node? here = none)
    (node : Node) : (t.setNode here node).Extends t := by
  refine ⟨rfl, fun there found hFound => ?_⟩
  have hNe : there ≠ here := by
    rintro rfl
    rw [hNew] at hFound
    cases hFound
  have hOther : (there == here) = false := by simpa using hNe
  rw [FileTree.node?, setNode, List.lookup_cons, hOther]
  exact (lookup_filter_ne hNe t.nodes).trans hFound

theorem node?_setNode (t : FileTree) (here : Location) (node : Node) :
    (t.setNode here node).node? here = some node := by
  rw [FileTree.node?, setNode, List.lookup_cons, beq_self_eq_true]

/-! ## Looking up a path -/

section Extends

variable {t u : FileTree} (h : u.Extends t)
include h

theorem Extends.enter {here there : Location} {names : List String}
    (hEnter : t.enter here names = .ok there) : u.enter here names = .ok there := by
  fun_induction FileTree.enter t here names with
  | case1 => exact hEnter
  | case2 here rest ih =>
    rw [FileTree.enter]
    exact ih hEnter
  | case3 here rest ih =>
    rw [FileTree.enter]
    exact ih hEnter
  | case4 => cases hEnter
  | case5 => cases hEnter
  | case6 => cases hEnter
  | case7 here name rest hDot hDots hShort hNode ih =>
    rw [FileTree.enter, if_neg hShort, h.node? _ _ hNode]
    · exact ih hEnter
    · exact hDot
    · exact hDots

theorem Extends.target {p : Path} {target : Target} (hTarget : t.target p = .ok target) :
    u.target p = .ok target := by
  unfold FileTree.target at hTarget ⊢
  rw [h.workingDirectory]
  by_cases hEmpty : p.isEmpty
  · simp only [hEmpty, if_true] at hTarget
    cases hTarget
  · simp only [hEmpty, Bool.false_eq_true, if_false] at hTarget ⊢
    split at hTarget
    · exact hTarget
    all_goals
      obtain ⟨here, hEnter, hRest⟩ := bind_eq_ok_iff.mp hTarget
      exact bind_eq_ok_iff.mpr ⟨here, h.enter hEnter, hRest⟩

end Extends

/-- The directory that a path text leads to. -/
theorem directory_eq_ok_iff {t : FileTree} {text : String} {location : Location} :
    t.directory text = .ok location ↔ ∃ p target, path? text = .ok p ∧ t.target p = .ok target ∧
      t.node? target.location = some .directory ∧ target.location = location := by
  simp only [directory, bind_eq_ok_iff]
  constructor
  · rintro ⟨p, hPath, target, hTarget, h⟩
    split at h
    · cases h
    · cases h
    · next hNode =>
      cases h
      exact ⟨p, target, hPath, hTarget, hNode, rfl⟩
  · rintro ⟨p, target, hPath, hTarget, hNode, rfl⟩
    refine ⟨p, hPath, target, hTarget, ?_⟩
    simp only [hNode]
    rfl

theorem Extends.directory {t u : FileTree} (h : u.Extends t) {text : String}
    {location : Location} (hDirectory : t.directory text = .ok location) :
    u.directory text = .ok location := by
  obtain ⟨p, target, hPath, hTarget, hNode, hLocation⟩ := directory_eq_ok_iff.mp hDirectory
  exact directory_eq_ok_iff.mpr ⟨p, target, hPath, h.target hTarget, h.node? _ _ hNode, hLocation⟩

/-! ## Work on a tree -/

theorem Work.bind_eq_ok_iff {α β : Type} {x : Work α} {f : α → Work β} {t v : FileTree} {b : β} :
    (x >>= f) t = (.ok b, v) ↔ ∃ a u, x t = (.ok a, u) ∧ f a u = (.ok b, v) := by
  have hBind : (x >>= f) t = ExceptT.bindCont f (x t).1 (x t).2 := rfl
  rw [hBind]
  rcases x t with ⟨e | a, u⟩
  · constructor
    · intro h
      cases h
    · rintro ⟨a, w, h, -⟩
      cases h
  · constructor
    · intro h
      exact ⟨a, u, rfl, h⟩
    · rintro ⟨a, w, hx, h⟩
      cases hx
      exact h

theorem Work.lift_eq_ok_iff {α : Type} {x : Except FileError α} {t u : FileTree} {a : α} :
    (liftM x : Work α) t = (.ok a, u) ↔ x = .ok a ∧ t = u := by
  cases x with
  | error e =>
    constructor
    · intro h
      cases h
    · rintro ⟨h, -⟩
      cases h
  | ok b =>
    constructor
    · intro h
      cases h
      exact ⟨rfl, rfl⟩
    · rintro ⟨h, rfl⟩
      cases h
      rfl

theorem step_eq_ok_iff {t u : FileTree} {change : FileTree → Except FileError FileTree} :
    step change t = (.ok (), u) ↔ change t = .ok u := by
  unfold step
  constructor
  · intro h
    obtain ⟨a, v, hGet, h⟩ := Work.bind_eq_ok_iff.mp h
    cases hGet
    obtain ⟨b, w, hLift, h⟩ := Work.bind_eq_ok_iff.mp h
    obtain ⟨hChange, rfl⟩ := Work.lift_eq_ok_iff.mp hLift
    cases h
    exact hChange
  · intro h
    refine Work.bind_eq_ok_iff.mpr ⟨t, t, rfl, ?_⟩
    exact Work.bind_eq_ok_iff.mpr ⟨u, t, Work.lift_eq_ok_iff.mpr ⟨h, rfl⟩, rfl⟩

/-! ## Files and directories that are there -/

theorem touch_eq_ok {t u : FileTree} {location : Location} (h : t.touch location = .ok u) :
    u.Extends t ∧ ∃ content, u.node? location = some (.file content) := by
  rw [touch] at h
  split at h
  · cases h
  · next content hFile =>
    cases h
    exact ⟨.refl t, content, hFile⟩
  · next hNew =>
    cases h
    exact ⟨setNode_extends hNew _, [], node?_setNode _ _ _⟩

theorem touch_of_file {t : FileTree} {location : Location} {content : Bytes}
    (h : t.node? location = some (.file content)) : t.touch location = .ok t := by
  rw [touch, h]

theorem makeDirectory_of_directory {t : FileTree} {p : Path} {target : Target}
    (hTarget : t.target p = .ok target) (hNode : t.node? target.location = some .directory) :
    t.makeDirectory p = .error .alreadyExists := by
  simp only [makeDirectory, hTarget, bind, Except.bind, hNode]
  rfl

theorem ensureDirectory_of_directory {t : FileTree} {p : Path} {target : Target}
    (hTarget : t.target p = .ok target) (hNode : t.node? target.location = some .directory) :
    t.ensureDirectory p = .ok t := by
  have hIs : t.isDirectory p = true := by
    rw [isDirectory, hTarget]
    simp only [hNode, beq_self_eq_true]
  rw [ensureDirectory, makeDirectory_of_directory hTarget hNode]
  simp only [hIs, if_true]

theorem makeDirectories_of_directory {t : FileTree} {text : String} {location : Location}
    (h : t.directory text = .ok location) : makeDirectories text t = (.ok (), t) := by
  obtain ⟨p, target, hPath, hTarget, hNode, -⟩ := directory_eq_ok_iff.mp h
  rw [makeDirectories]
  split
  · rfl
  · rw [hPath]
    change ensureDirectories (p.names.length + 1) p t = _
    rw [ensureDirectories]
    split
    · rfl
    · refine Work.bind_eq_ok_iff.mpr ⟨t, t, rfl, ?_⟩
      rw [makeDirectory_of_directory hTarget hNode]
      exact step_eq_ok_iff.mpr (ensureDirectory_of_directory hTarget hNode)

end FileTree

namespace Backend

open FileTree

theorem prepareDirectory_eq_ok_iff {path : String} {t u : FileTree} {location : Location} :
    prepareDirectory path t = (.ok location, u) ↔ ∃ a b, makeDirectories path t = (.ok (), a) ∧
      a.directory path = .ok location ∧ a.touch (location ++ ["lock.mdb"]) = .ok b ∧
      b.touch (location ++ ["data.mdb"]) = .ok u := by
  unfold prepareDirectory
  constructor
  · intro h
    obtain ⟨⟨⟩, a, hMake, h⟩ := Work.bind_eq_ok_iff.mp h
    obtain ⟨_, _, hGet, h⟩ := Work.bind_eq_ok_iff.mp h
    cases hGet
    obtain ⟨found, _, hLift, h⟩ := Work.bind_eq_ok_iff.mp h
    obtain ⟨hDirectory, rfl⟩ := Work.lift_eq_ok_iff.mp hLift
    obtain ⟨⟨⟩, b, hLock, h⟩ := Work.bind_eq_ok_iff.mp h
    obtain ⟨⟨⟩, c, hData, h⟩ := Work.bind_eq_ok_iff.mp h
    cases h
    exact ⟨a, b, hMake, hDirectory, step_eq_ok_iff.mp hLock, step_eq_ok_iff.mp hData⟩
  · rintro ⟨a, b, hMake, hDirectory, hLock, hData⟩
    refine Work.bind_eq_ok_iff.mpr ⟨(), a, hMake, ?_⟩
    refine Work.bind_eq_ok_iff.mpr ⟨a, a, rfl, ?_⟩
    refine Work.bind_eq_ok_iff.mpr ⟨location, a, Work.lift_eq_ok_iff.mpr ⟨hDirectory, rfl⟩, ?_⟩
    refine Work.bind_eq_ok_iff.mpr ⟨(), b, step_eq_ok_iff.mpr hLock, ?_⟩
    exact Work.bind_eq_ok_iff.mpr ⟨(), u, step_eq_ok_iff.mpr hData, rfl⟩

/-- A directory that was prepared is found as it is. -/
theorem prepareDirectory_again {path : String} {t u : FileTree} {location : Location}
    (h : prepareDirectory path t = (.ok location, u)) :
    prepareDirectory path u = (.ok location, u) := by
  obtain ⟨a, b, -, hDirectory, hLock, hData⟩ := prepareDirectory_eq_ok_iff.mp h
  obtain ⟨hFirst, content, hLockFile⟩ := touch_eq_ok hLock
  obtain ⟨hSecond, data, hDataFile⟩ := touch_eq_ok hData
  have hThere := (hSecond.trans hFirst).directory hDirectory
  refine prepareDirectory_eq_ok_iff.mpr
    ⟨u, u, makeDirectories_of_directory hThere, hThere, ?_, touch_of_file hDataFile⟩
  exact touch_of_file (hSecond.node? _ _ hLockFile)

end Backend

end LatentCache
