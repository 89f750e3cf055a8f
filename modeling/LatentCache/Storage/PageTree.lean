import LatentCache.Storage.Pages

/-!
# Page trees

How a table lies in the pages of a map. Its entries are in the leaves of a balanced tree, a page a
node, in ascending order of their keys. A page that is too full is split in two. A long value has
pages of its own, and its leaf says where they are.
-/

namespace LatentCache

namespace PageTree

/-- The bytes of a page less those of its head. -/
def room : Nat := 4080

/-- The length of the longest value that lies beside its key. -/
def longestInside : Nat := 1966

/-- The bytes of a leaf that an entry with a value of a given length takes up. -/
def slotSize (length : Nat) : Nat :=
  if length ≤ longestInside then 74 + (length + length % 2) else 82

/-- The bytes of a page that a child takes up. The first one needs no key. -/
def childSizes (count : Nat) : List Nat := 10 :: List.replicate (count - 1) 74

/-- The pages that hold a value and the head before it. -/
def runLength (length : Nat) : Nat := (length + 15) / Pages.width + 1

def fitCount : Nat → List Nat → Nat
  | _, [] => 0
  | room, size :: rest => if size ≤ room then fitCount (room - size) rest + 1 else 0

def total (sizes : List Nat) : Nat := sizes.foldl (· + ·) 0

/-- Where to split a page that became too full by the entry at `place`: in the middle, except that
small pages and large entries look for the middle by size and the last place keeps the page full. -/
def splitPoint (isLeaf : Bool) (sizes : List Nat) (place : Nat) : Nat :=
  let last := sizes.length - 1
  let middle := (last + 1) / 2
  let atEnd := last ≤ place
  if 32 ≤ last && !atEnd && (sizes[place]?).all (· ≤ room / 16) then middle
  else if place ≤ middle || atEnd then
    let latest := if atEnd then last - 1 else if isLeaf then middle + 1 else middle
    min (fitCount room sizes) latest
  else max (last - fitCount room sizes.reverse) middle + 1

/-- A node, and a new node to its right with the least key below it where the node was split. -/
structure Grown (α : Type) where
  node : α
  right? : Option (Nat × α)

structure Leaf where
  page : Nat
  /-- Keys with the bytes that their entries take up. -/
  slots : List (Nat × Nat)

namespace Leaf

/-- The slots with one of them entered anew, and its place. -/
def slotsWith (leaf : Leaf) (key size : Nat) : List (Nat × Nat) × Nat :=
  let before := leaf.slots.takeWhile (·.1 < key)
  let after := (leaf.slots.drop before.length).dropWhile (·.1 == key)
  (before ++ (key, size) :: after, before.length)

def put? (key size : Nat) (leaf : Leaf) (pages : Pages) : Option (Grown Leaf × Pages) := do
  let (page, pages) ← pages.renew? leaf.page
  let (slots, place) := leaf.slotsWith key size
  let sizes := slots.map (·.2)
  if total sizes ≤ room then return (⟨⟨page, slots⟩, none⟩, pages)
  else
    let (right, pages) ← pages.take? 1
    let point := splitPoint true sizes place
    let moved := slots.drop point
    return (⟨⟨page, slots.take point⟩, moved.head?.map fun s => (s.1, ⟨right, moved⟩)⟩, pages)

end Leaf

structure Branch (α : Type) where
  page : Nat
  /-- Children with the least keys that may be below them; there is no bound for the first one. -/
  children : List (Nat × α)

namespace Branch

/-- Enters a key below the last child that may have it. -/
def put? {α : Type} (putChild? : α → Pages → Option (Grown α × Pages)) (key : Nat)
    (branch : Branch α) (pages : Pages) : Option (Grown (Branch α) × Pages) := do
  let (page, pages) ← pages.renew? branch.page
  let upTo := branch.children.takeWhile (·.1 ≤ key)
  let after := branch.children.drop upTo.length
  match upTo.getLast? with
  | none => return (⟨⟨page, branch.children⟩, none⟩, pages)
  | some (least, child) =>
    let (grown, pages) ← putChild? child pages
    let children := upTo.dropLast ++ (least, grown.node) :: grown.right?.toList ++ after
    let sizes := childSizes children.length
    if total sizes ≤ room then return (⟨⟨page, children⟩, none⟩, pages)
    else
      let (right, pages) ← pages.take? 1
      let point := splitPoint false sizes upTo.length
      let moved := children.drop point
      return (⟨⟨page, children.take point⟩, moved.head?.map fun c => (c.1, ⟨right, moved⟩)⟩, pages)

end Branch

def Level : Nat → Type
  | 0 => Leaf
  | height + 1 => Branch (Level height)

def Level.put? (key size : Nat) :
    (height : Nat) → Level height → Pages → Option (Grown (Level height) × Pages)
  | 0 => Leaf.put? key size
  | height + 1 => Branch.put? (Level.put? key size height) key

structure Root where
  height : Nat
  top : Level height

/-- A tree that is split at its top becomes one level higher. -/
def Root.put? (key size : Nat) (root : Root) (pages : Pages) : Option (Root × Pages) := do
  let (grown, pages) ← Level.put? key size root.height root.top pages
  match grown.right? with
  | none => return (⟨root.height, grown.node⟩, pages)
  | some right =>
    let (page, pages) ← pages.take? 1
    let top : Branch (Level root.height) := ⟨page, [(0, grown.node), right]⟩
    return (⟨root.height + 1, top⟩, pages)

end PageTree

structure PageTree where
  pages : Pages
  /-- The page that says where the tree is. -/
  catalog : Nat
  root? : Option PageTree.Root
  /-- Keys of long values with the first and the number of their pages. -/
  runs : List (Nat × Nat × Nat)

namespace PageTree

/-- The tree of an empty table. Two pages describe the map and a third one is the catalog. -/
def new (limit : Nat) : PageTree :=
  { pages := { limit := limit, next := 3, commit := 2 }
    catalog := 2
    root? := none
    runs := [] }

def putSlot? (key size : Nat) (t : PageTree) : Option PageTree := do
  match t.root? with
  | none =>
    let (page, pages) ← t.pages.take? 1
    let leaf : Leaf := ⟨page, [(key, size)]⟩
    return { t with pages := pages, root? := some ⟨0, leaf⟩ }
  | some root =>
    let (catalog, pages) ← t.pages.renew? t.catalog
    let (root, pages) ← root.put? key size pages
    return { t with pages := pages, catalog := catalog, root? := some root }

/-- Enters a value in the place of none or of one that gave up its pages. -/
def putAnew? (key length : Nat) (t : PageTree) : Option PageTree := do
  let t ← t.putSlot? key (slotSize length)
  if length ≤ longestInside then return t
  else
    let count := runLength length
    let (first, pages) ← t.pages.take? count
    return { t with pages := pages, runs := (key, first, count) :: t.runs }

/-- Enters a value. Pages that its key got in the same commit are kept if it fits into them. -/
def put? (key length : Nat) (t : PageTree) : Option PageTree :=
  match t.runs.lookup key with
  | none => t.putAnew? key length
  | some (first, count) =>
    if t.pages.fresh.contains first && runLength length ≤ count then some t
    else
      putAnew? key length
        { t with pages := t.pages.giveUp first count, runs := t.runs.filter (·.1 != key) }

/-- Enters values under their keys in one commit; `none` if the map has not enough pages. -/
def commit? (entries : List (Nat × Nat)) (t : PageTree) : Option PageTree := do
  let t ← entries.foldlM (fun t entry => t.put? entry.1 entry.2) t
  let (catalog, pages) ← t.pages.renew? t.catalog
  return { t with pages := ← pages.close?, catalog := catalog }

end PageTree

end LatentCache
