import LatentCache.Host.FileTree
import LatentCache.Storage.Client
import LatentCache.Storage.Mapped

/-!
# Hosts

What storage can live on: memory, environments opened in directories, and a cache service.
-/

namespace LatentCache

structure Host where
  files : FileTree
  memories : List Memory
  environments : List (Location × MappedEnvironment)
  link : Link

namespace Host

def ofFiles (files : FileTree) : Host :=
  { files := files, memories := [], environments := [], link := ⟨false, .empty, []⟩ }

def memory (h : Host) (index : Nat) : Memory := (h.memories[index]?).getD .empty

def setMemory (h : Host) (index : Nat) (t : Memory) : Host :=
  { h with memories := h.memories.set index t }

def environment (h : Host) (location : Location) : MappedEnvironment :=
  (h.environments.lookup location).getD (.new 0)

def setEnvironment (h : Host) (location : Location) (env : MappedEnvironment) : Host :=
  { h with
    environments := h.environments.map fun e => if e.1 = location then (location, env) else e }

end Host

end LatentCache
