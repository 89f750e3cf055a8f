import LatentCache.Storage.Medium
import LatentCache.Storage.PageTree
import LatentCache.Storage.Table

/-!
# Storage in a memory-mapped environment

A durable table under hexadecimal addresses in a map of bounded size. A batch is entered as a whole
or not at all: it fails where the map has not enough pages for it.
-/

namespace LatentCache

/-- Map sizes are multiples of this, which covers every usual page size. -/
def mapGranule : Nat := 65536

/-- A map size rounded up to full granules, at least one of them. -/
def roundMapSize (size : Nat) : Except Size.Overflow Nat :=
  let size := max size mapGranule
  Size.mul? ((size + mapGranule - 1) / mapGranule) mapGranule

structure MappedEnvironment where
  mapSize : Nat
  database : Table String
  tree : PageTree

namespace MappedEnvironment

def new (mapSize : Nat) : MappedEnvironment := ⟨mapSize, .empty, .new (mapSize / Pages.width)⟩

/-- The greatest map that has room beside a program: about two thirds of `2 ^ 47` addresses. -/
def greatestMapSize : Nat := 0x555555550000

def mapFull : StorageError := .backend "MDB_MAP_FULL: Environment mapsize limit reached"

def commit (env : MappedEnvironment) (records : List Record) :
    Except StorageError Unit × MappedEnvironment :=
  if records.isEmpty then (.ok (), env)
  else
    match env.tree.commit? (records.map fun r => (r.1.toNat, r.2.length)) with
    | none => (.error mapFull, env)
    | some tree =>
      let entries := records.map fun r => (r.1.toHex, r.2)
      (.ok (), { env with database := env.database.insertAll entries, tree := tree })

def medium : Medium MappedEnvironment :=
  { kind := .mapped
    get := fun key env => (.ok (env.database.get? key.toHex), env)
    put := fun key value env => env.commit [(key, value)]
    batchPut := fun records env => env.commit records }

end MappedEnvironment

end LatentCache
